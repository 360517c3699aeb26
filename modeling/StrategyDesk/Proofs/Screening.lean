import StrategyDesk.Proofs.Verdicts

/-!
What gets past the screening of hosts. A host passes if it denotes a public address, or denotes
none and has no blocked name. Resolvers read more texts as IPv4 addresses than denote one here:
one to four parts in decimal, octal or hexadecimal digits, the last of which fills the bytes that
are left. A host that passes keeps clear of local names and of every address that is not public,
but for three kinds of hosts.
-/

set_option autoImplicit false

namespace StrategyDesk.Net
open Text

/-! ### Addresses in numbers -/

def octalDigit? (c : Char) : Option Nat := (asciiDigit? c).filter (· < 8)

/-- A number as resolvers read it: in decimal, in octal after a zero, or hexadecimal after 0x. -/
inductive IsPart : List Char → Nat → Prop where
  | decimal {cs : List Char} {n : Nat} (h : InDigits asciiDigit? 10 cs n)
    (hzero : cs.head? ≠ some '0') : IsPart cs n
  | zero : IsPart ['0'] 0
  | octal {cs : List Char} {n : Nat} (h : InDigits octalDigit? 8 cs n) : IsPart ('0' :: cs) n
  | hex {cs : List Char} {n : Nat} (h : InDigits hexDigit? 16 cs n) : IsPart ('0' :: 'x' :: cs) n

/-- Parts with points between them that fill some bytes and one more: a byte for each part, but
for the last, which takes all that is left. -/
inductive Fills : Nat → List Char → Nat → Prop where
  | last {bytes n : Nat} {p : List Char} (hp : IsPart p n) (hn : n < twoTo (8 * (bytes + 1))) :
    Fills bytes p n
  | more {bytes a n : Nat} {p cs : List Char} (hp : IsPart p a) (ha : a < 256)
    (h : Fills bytes cs n) :
    Fills (bytes + 1) (p ++ '.' :: cs) (a * twoTo (8 * (bytes + 1)) + n)

def IsNumeric (cs : List Char) (n : Nat) : Prop := Fills 3 cs n

theorem Fills.lt {bytes n : Nat} {cs : List Char} (h : Fills bytes cs n) :
    n < twoTo (8 * (bytes + 1)) := by
  induction h with
  | last hp hn => exact hn
  | @more bytes a n p cs hp ha h ih =>
    calc a * twoTo (8 * (bytes + 1)) + n
        < a * twoTo (8 * (bytes + 1)) + twoTo (8 * (bytes + 1)) := Nat.add_lt_add_left ih _
      _ = (a + 1) * twoTo (8 * (bytes + 1)) := (Nat.succ_mul _ _).symm
      _ ≤ twoTo 8 * twoTo (8 * (bytes + 1)) := Nat.mul_le_mul_right _ ha
      _ = twoTo (8 * (bytes + 1) + 8) := (Nat.mul_comm _ _).trans (Nat.pow_add 2 _ 8).symm

theorem IsNumeric.lt {n : Nat} {cs : List Char} (h : IsNumeric cs n) : n < twoTo 32 :=
  Nat.lt_of_lt_of_le (Fills.lt h) (by decide)

/-! ### Hosts that pass -/

/-- A host is let through for the public address that it denotes, or for want of any address and
of a blocked name. -/
def Passes (host : List Char) : Prop :=
  (∃ a, Denotes host a ∧ a.isPublic = true) ∨
    ((∀ a, ¬ Denotes host a) ∧ host ∉ blockedHosts ∧ ∀ e ∈ blockedEndings, ¬ e <:+ host)

/-- What a host ought to be: a name that is not local, and in no notation an address that is not
public. -/
structure IsScreened (host : List Char) : Prop where
  named : host ≠ []
  distant : ¬ IsLocal host
  literal : ∀ a, Literal host a → a.isPublic = true
  numeric : ∀ n, IsNumeric host n → isPublic4 n = true

/-- The hosts that pass and should not: nothing, a scope with a local ending, and an address that
is not public in numbers other than the printed ones. -/
inductive Slips : List Char → Prop where
  | nothing : Slips []
  | scope {host : List Char} {a : Address} (h : Literal host a) (hlocal : IsLocal host) : Slips host
  | numbers {host : List Char} {n : Nat} (h : IsNumeric host n) (hdotted : host ≠ dottedText n)
    (hwhole : host ≠ Nat.toDigits 10 n) (hpublic : isPublic4 n = false) : Slips host

theorem Denotes.unique {host : List Char} {a b : Address} (ha : Denotes host a)
    (hb : Denotes host b) : a = b := by
  have hread := address?_eq_some_iff.2 ha
  rw [address?_eq_some_iff.2 hb, Option.some.injEq] at hread
  exact hread.symm

theorem Passes.isPublic {host : List Char} (h : Passes host) {a : Address} (ha : Denotes host a) :
    a.isPublic = true := by
  rcases h with ⟨b, hb, hpublic⟩ | ⟨hnone, -⟩
  · rwa [ha.unique hb]
  · exact absurd ha (hnone a)

theorem isPrivateHost_eq_false_iff {host : List Char} :
    isPrivateHost host = false ↔ Passes host := by
  by_cases h : ∃ a, Denotes host a
  · obtain ⟨a, ha⟩ := h
    rw [isPrivateHost_of_denotes ha, Bool.not_eq_false']
    exact ⟨fun hpublic => Or.inl ⟨a, ha, hpublic⟩, fun hpasses => hpasses.isPublic ha⟩
  · have hnone : ∀ a, ¬ Denotes host a := fun a ha => h ⟨a, ha⟩
    rw [← Bool.not_eq_true, isPrivateHost_of_not_denotes hnone]
    constructor
    · intro hclear
      exact Or.inr ⟨hnone, fun hname => hclear (Or.inl hname),
        fun e he hending => hclear (Or.inr ⟨e, he, hending⟩)⟩
    · rintro (⟨a, ha, -⟩ | ⟨-, hname, hending⟩) (hblocked | ⟨e, he, hsuffix⟩)
      · exact hnone a ha
      · exact hnone a ha
      · exact hname hblocked
      · exact hending e he hsuffix

theorem Passes.numeric {host : List Char} (h : Passes host) {n : Nat} (hn : IsNumeric host n)
    (hprinted : host = dottedText n ∨ host = Nat.toDigits 10 n) : isPublic4 n = true := by
  rcases hprinted with rfl | rfl
  · exact h.isPublic (.literal (.v4 hn.lt))
  · exact h.isPublic (denotes_toDigits hn.lt)

theorem Passes.literal_of_isLocal {host : List Char} (h : Passes host) (hlocal : IsLocal host) :
    ∃ a, Literal host a := by
  rcases h with ⟨a, ha, -⟩ | ⟨-, hname, hending⟩
  · cases ha with
    | literal ha => exact ⟨a, ha⟩
    | whole hdigits => exact absurd (hdigits.digits _ hlocal.letter_mem) (by decide)
  · rcases hlocal.blocked with hblocked | ⟨e, he, hsuffix⟩
    · exact absurd hblocked hname
    · exact absurd hsuffix (hending e he)

theorem isScreened_iff_not_slips {host : List Char} (h : Passes host) :
    IsScreened host ↔ ¬ Slips host := by
  constructor
  · intro hscreened hslips
    cases hslips with
    | nothing => exact hscreened.named rfl
    | scope _ hlocal => exact hscreened.distant hlocal
    | numbers hn _ _ hpublic =>
      rw [hscreened.numeric _ hn] at hpublic
      cases hpublic
  · intro hslips
    refine ⟨?_, fun hlocal => ?_, fun a ha => h.isPublic (.literal ha), fun n hn => ?_⟩
    · rintro rfl
      exact hslips .nothing
    · obtain ⟨a, ha⟩ := h.literal_of_isLocal hlocal
      exact hslips (.scope ha hlocal)
    · by_cases hprinted : host = dottedText n ∨ host = Nat.toDigits 10 n
      · exact h.numeric hn hprinted
      · rw [not_or] at hprinted
        by_contra hpublic
        exact hslips (.numbers hn hprinted.1 hprinted.2 (Bool.not_eq_true _ ▸ hpublic))

/-- A URL is let through exactly if it has a host that passes, and then the host is screened
unless it slips through. -/
theorem passes_and_screened_iff (url : String) :
    (isPrivateUrl url = false ↔ ∃ host, host? url.toList = some host ∧ Passes (judged host)) ∧
      ∀ host, Passes host → (IsScreened host ↔ ¬ Slips host) := by
  refine ⟨?_, fun host h => isScreened_iff_not_slips h⟩
  unfold isPrivateUrl isPrivate
  split
  · rename_i hnone
    simp [hnone]
  · rename_i host hhost
    rw [isPrivateHost_eq_false_iff]
    simp [hhost]

theorem passes_and_screened_iff_of_dns :
    Passes "8.8.8.8".toList ∧
      (IsScreened "8.8.8.8".toList ↔ ¬ Slips "8.8.8.8".toList) := by
  have hdenotes : Denotes "8.8.8.8".toList (.v4 134744072) :=
    .literal (literal?_eq_some_iff.1 (by decide +kernel))
  have hpasses : Passes "8.8.8.8".toList := Or.inl ⟨_, hdenotes, by decide⟩
  exact ⟨hpasses, (passes_and_screened_iff "https://8.8.8.8/dns").2 _ hpasses⟩

theorem isNumeric_short_loopback : IsNumeric "127.1".toList 2130706433 :=
  have hfirst : IsPart "127".toList 127 :=
    .decimal (InDigits.iff_mapM.2 ⟨by decide, [1, 2, 7], rfl, rfl⟩) (by decide)
  have hrest : IsPart "1".toList 1 := .decimal (.one rfl) (by decide)
  .more hfirst (by decide) (.last hrest (by decide))

theorem not_screened_short_loopback :
    ¬ ∀ url : String, isPrivateUrl url = false →
      ∃ host, host? url.toList = some host ∧ IsScreened (judged host) := by
  intro h
  obtain ⟨host, hhost, hscreened⟩ := h "https://127.1/" (by decide +kernel)
  have hread : host? "https://127.1/".toList = some "127.1".toList := by decide +kernel
  have hjudged : judged "127.1".toList = "127.1".toList := by decide +kernel
  rw [hread, Option.some.injEq] at hhost
  rw [← hhost, hjudged] at hscreened
  exact absurd (hscreened.numeric _ isNumeric_short_loopback) (by decide)

example : isPrivateUrl "https://./" = false := by decide +kernel

end StrategyDesk.Net
