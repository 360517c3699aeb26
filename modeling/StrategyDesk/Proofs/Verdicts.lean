import StrategyDesk.Proofs.UrlHosts

/-!
Which hosts are private. The verdict on a host that denotes an address is the one on the address,
and any other host is judged by its name. So it does not depend on how an address is spelled, nor
on letter case, points at the end or what stands around the host.
-/

set_option autoImplicit false

namespace StrategyDesk.Net
open Text

/-! ### Verdicts on hosts -/

theorem isPrivateHost_of_denotes {host : List Char} {a : Address} (h : Denotes host a) :
    isPrivateHost host = !a.isPublic := by
  have hread := address?_eq_some_iff.2 h
  unfold isPrivateHost
  split
  · rename_i hblocked
    have hall : ∀ name ∈ blockedHosts, (address? name).all (fun a => !a.isPublic) = true := by
      decide +kernel
    have hhost := hall host (List.contains_iff_mem.1 hblocked)
    rw [hread] at hhost
    exact hhost.symm
  · simp only [hread]

theorem isPrivateHost_of_not_denotes {host : List Char} (h : ∀ a, ¬ Denotes host a) :
    isPrivateHost host = true ↔ host ∈ blockedHosts ∨ ∃ e ∈ blockedEndings, e <:+ host := by
  have hread : address? host = none := by
    cases hhost : address? host with
    | none => rfl
    | some a => exact absurd (address?_eq_some_iff.1 hhost) (h a)
  unfold isPrivateHost
  split
  · simp_all
  · simp_all [isBlockedName]

/-! ### Letter case and points at the end -/

theorem IsName.points {name : List Char} (h : IsName name) (points : Nat) :
    IsName (name ++ List.replicate points '.') where
  plain c hc := by
    rcases List.mem_append.1 hc with hc | hc
    · exact h.plain c hc
    · rw [List.eq_of_mem_replicate hc]
      decide
  visible := by
    rw [shown_append]
    simp [h.visible]

theorem shown_points (points : Nat) :
    shown (List.replicate points '.') = List.replicate points '.' :=
  List.filter_eq_self.2 fun c hc => by rw [List.eq_of_mem_replicate hc]; decide

theorem map_toLower_shown {cs : List Char} (h : ∀ c ∈ cs, c.toNat < 0x80) :
    (shown cs).map Char.toLower = shown (cs.map Char.toLower) := by
  have hsame : ∀ c ∈ cs, (!isIgnored c) = ((fun c => !isIgnored c) ∘ Char.toLower) c := fun c hc =>
    ascii_forall (P := fun c => (!isIgnored c) = !isIgnored c.toLower) (by decide +kernel) (h c hc)
  rw [shown, shown, List.filter_map, List.filter_congr hsame]

theorem isPrivateUrl_points {name : List Char} (h : IsName name) (s : Surroundings)
    (points : Nat) : isPrivateUrl (s.url (name ++ List.replicate points '.')) =
      isPrivateHost (trimEnd (· == '.') (shown (name.map Char.toLower))) := by
  have hpoints : ∀ c ∈ (List.replicate points '.').map Char.toLower, (c == '.') = true := by
    simp
  rw [isPrivateUrl_name s (h.points points), shown_append, shown_points, List.map_append,
    trimEnd_append_of_pos _ hpoints, map_toLower_shown h.ascii]

/-! ### Addresses in their spellings -/

theorem denotes_toDigits {n : Nat} (h : n < twoTo 32) : Denotes (Nat.toDigits 10 n) (.v4 n) := by
  refine .whole (InDigits.toDigits (by decide) (fun _ => decimalValue?_digitChar) n) ?_ h
  have hten : (Nat.toDigits 10 n).length ≤ 10 :=
    (Nat.length_toDigits_le_iff (by decide) (by decide)).2 (Nat.lt_of_lt_of_le h (by decide))
  exact Nat.le_trans hten (by decide)

def mapped (n : Nat) : Nat := groups [0, 0, 0, 0, 0, 0xffff, n / 65536, n % 65536]

theorem isPublic6_mapped {n : Nat} (h : n < twoTo 32) : isPublic6 (mapped n) = isPublic4 n := by
  have hpower : twoTo 32 = 4294967296 := by decide
  have hbase : mapped n = 0xffff * 4294967296 + n := by
    simp only [mapped, groups, ofDigits, List.foldl_cons, List.foldl_nil]
    omega
  have hmapping : mapping.contains (mapped n) = true := by
    have hleading : mapping.base / twoTo mapping.free = 0xffff := by decide
    have hfree : twoTo mapping.free = 4294967296 := by decide
    rw [Block.contains, hleading, hfree, hbase, beq_iff_eq]
    omega
  have hlast : mapped n % twoTo 32 = n := by
    rw [hpower, hbase]
    omega
  rw [isPublic6, if_pos hmapping, hlast]

/-- The texts of the address that maps an IPv4 one, with the latter in either form. -/
inductive IsMapped (n : Nat) : List Char → Prop where
  | dotted {f : List Char} (hf : IsGroup f 0xffff) :
    IsMapped n (':' :: ':' :: (f ++ ':' :: dottedText n))
  | hex {f high low : List Char} (hf : IsGroup f 0xffff) (hhigh : IsGroup high (n / 65536))
    (hlow : IsGroup low (n % 65536)) : IsMapped n (':' :: ':' :: (f ++ ':' :: (high ++ ':' :: low)))

theorem isV6_mapped {n : Nat} {cs : List Char}
    (h : Joined IsTail cs [0xffff, n / 65536, n % 65536]) : IsV6 (':' :: ':' :: cs) (mapped n) := by
  have hnone : IsSide IsLoneGroup [] [] := Or.inl ⟨rfl, rfl⟩
  exact .short hnone (Or.inr h) (by simp)

theorem IsMapped.isV6 {n : Nat} {cs : List Char} (h : IsMapped n cs) (hn : n < twoTo 32) :
    IsV6 cs (mapped n) := by
  cases h with
  | dotted hf => exact isV6_mapped (.more hf (.last (.dotted hn)))
  | hex hf hhigh hlow => exact isV6_mapped (.more hf (.more hhigh (.last (.group hlow))))

/-- How an IPv4 address may be spelled in a URL. -/
inductive Spelling (n : Nat) : List Char → Prop where
  | dotted (points : Nat) : Spelling n (dottedText n ++ List.replicate points '.')
  | whole (points : Nat) : Spelling n (Nat.toDigits 10 n ++ List.replicate points '.')
  | mapped {cs : List Char} (h : IsMapped n cs) : Spelling n (bracketed cs)

/-! Digits and points are the same in lower case. -/

theorem number_char {c : Char} (h : (asciiDigit? c).isSome = true ∨ c = '.') :
    (isPlain c = true ∧ c ≠ ':') ∧ isIgnored c = false ∧ c.toLower = c := by
  rcases h with h | rfl
  · obtain ⟨d, hd⟩ := Option.isSome_iff_exists.1 h
    obtain ⟨hlt, rfl⟩ := asciiDigit?_eq_some_iff.1 hd
    have hall : ∀ e < 10, (isPlain e.digitChar = true ∧ e.digitChar ≠ ':') ∧
        isIgnored e.digitChar = false ∧ e.digitChar.toLower = e.digitChar := by decide
    exact hall d hlt
  · decide

theorem dottedText_char {n : Nat} {c : Char} (h : c ∈ dottedText n) :
    (asciiDigit? c).isSome = true ∨ c = '.' := by
  by_contra hnone
  simp only [not_or, Option.isSome_iff_ne_none, ne_eq, not_not] at hnone
  exact notMem_dottedText hnone.1 hnone.2 n h

theorem map_toLower_of_number {text : List Char}
    (h : ∀ c ∈ text, (asciiDigit? c).isSome = true ∨ c = '.') : text.map Char.toLower = text :=
  (List.map_congr_left fun c hc => (number_char (h c hc)).2.2).trans (List.map_id _)

theorem isPrivateUrl_number (s : Surroundings) {text : List Char} (points : Nat)
    (h : ∀ c ∈ text, (asciiDigit? c).isSome = true ∨ c = '.') (hne : text ≠ [])
    (htrim : trimEnd (· == '.') text = text) :
    isPrivateUrl (s.url (text ++ List.replicate points '.')) = isPrivateHost text := by
  have hshown : shown text = text :=
    List.filter_eq_self.2 fun c hc => by simp [(number_char (h c hc)).2.1]
  have hname : IsName text :=
    ⟨fun c hc => (number_char (h c hc)).1, by rw [hshown]; exact hne⟩
  rw [isPrivateUrl_points hname s points, map_toLower_of_number h, hshown, htrim]

theorem IsGroup.map_toLower {p : List Char} {n : Nat} (h : IsGroup p n) :
    IsGroup (p.map Char.toLower) n := by
  refine ⟨h.1.map fun c d hc => ?_, by simpa using h.2⟩
  have hsame := ascii_forall (P := fun c => hexDigit? c.toLower = hexDigit? c) (by decide +kernel)
    (hexDigit?_ascii hc)
  rw [hsame, hc]

theorem IsMapped.map_toLower {n : Nat} {cs : List Char} (h : IsMapped n cs) :
    IsMapped n (cs.map Char.toLower) := by
  have hcolon : ':'.toLower = ':' := by decide
  cases h with
  | @dotted f hf =>
    have hsame := map_toLower_of_number fun c hc => dottedText_char (n := n) hc
    simpa [hcolon, hsame] using IsMapped.dotted hf.map_toLower
  | hex hf hhigh hlow =>
    simpa [hcolon] using
      IsMapped.hex hf.map_toLower hhigh.map_toLower hlow.map_toLower

theorem trimEnd_toDigits (a : List Char) (n : Nat) :
    trimEnd (· == '.') (a ++ Nat.toDigits 10 n) = a ++ Nat.toDigits 10 n :=
  trimEnd_append_of_notMem a (inDigits_toDigits n).ne_nil (dot_notMem_toDigits n)

theorem trimEnd_dottedText (a : List Char) (n : Nat) :
    trimEnd (· == '.') (a ++ dottedText n) = a ++ dottedText n := by
  obtain ⟨b, hb⟩ : ∃ b, dottedText n = b ++ Nat.toDigits 10 (n % 256) :=
    ⟨Nat.toDigits 10 (n / 16777216) ++ '.' :: (Nat.toDigits 10 (n / 65536 % 256) ++ '.' ::
      (Nat.toDigits 10 (n / 256 % 256) ++ ['.'])), by simp [dottedText]⟩
  rw [hb, ← List.append_assoc, trimEnd_toDigits]

theorem IsMapped.trimEnd_eq_self {n : Nat} {cs : List Char} (h : IsMapped n cs) :
    trimEnd (· == '.') cs = cs := by
  cases h with
  | @dotted f hf =>
    have hsplit : ':' :: ':' :: (f ++ ':' :: dottedText n) =
        (':' :: ':' :: (f ++ [':'])) ++ dottedText n := by simp
    rw [hsplit, trimEnd_dottedText]
  | @hex f high low hf hhigh hlow =>
    have hsplit : ':' :: ':' :: (f ++ ':' :: (high ++ ':' :: low)) =
        (':' :: ':' :: (f ++ ':' :: (high ++ [':']))) ++ low := by simp
    rw [hsplit, trimEnd_append_of_notMem _ hlow.1.ne_nil (hlow.notMem (by decide))]

theorem Spelling.isPrivateUrl {n : Nat} {host : List Char} (h : Spelling n host)
    (hn : n < twoTo 32) (s : Surroundings) : isPrivateUrl (s.url host) = !isPublic4 n := by
  cases h with
  | dotted points =>
    rw [isPrivateUrl_number s points (fun c hc => dottedText_char hc)
      (List.ne_nil_of_mem (dot_mem_dottedText n)) (trimEnd_dottedText [] n)]
    exact isPrivateHost_of_denotes (.literal (.v4 hn))
  | whole points =>
    rw [isPrivateUrl_number s points (fun c hc => Or.inl (isSome_asciiDigit? hc))
      (inDigits_toDigits n).ne_nil (trimEnd_toDigits [] n)]
    exact isPrivateHost_of_denotes (denotes_toDigits hn)
  | mapped h =>
    have hv6 := h.map_toLower.isV6 hn
    rw [isPrivateUrl_bracketed s (h.isV6 hn), h.map_toLower.trimEnd_eq_self,
      isPrivateHost_of_denotes (.literal (.v6 hv6)), Address.isPublic, isPublic6_mapped hn]

/-- The blocks of the machine itself, of private networks, of links, of groups and of no use. -/
def innerBlocks : List Block :=
  [block4 0 0 0 0 8, block4 10 0 0 0 8, block4 100 64 0 0 10, block4 127 0 0 0 8,
   block4 169 254 0 0 16, block4 172 16 0 0 12, block4 192 168 0 0 16, block4 224 0 0 0 4,
   block4 240 0 0 0 4]

theorem innerBlocks_internal {b : Block} (h : b ∈ innerBlocks) :
    b ∈ internal4 ∨ b = multicast4 := by
  simp only [innerBlocks, List.mem_cons, List.not_mem_nil, or_false] at h
  rcases h with rfl | rfl | rfl | rfl | rfl | rfl | rfl | rfl | rfl <;>
    simp [internal4, multicast4]

theorem innerBlocks_not_excepted {b : Block} (h : b ∈ innerBlocks) {n : Nat}
    (hn : b.contains n = true) : inAny excepted4 n = false := by
  have hall : ∀ b ∈ innerBlocks, b.contains (quad 192 0 0 9) = false ∧
      b.contains (quad 192 0 0 10) = false := by decide
  have hapart : n ≠ quad 192 0 0 9 ∧ n ≠ quad 192 0 0 10 := by
    constructor
    · rintro rfl
      rw [(hall b h).1] at hn
      cases hn
    · rintro rfl
      rw [(hall b h).2] at hn
      cases hn
  simp [inAny, excepted4, Block.contains, block4, twoTo, hapart]

theorem not_isPublic4 {n : Nat} (h : inAny innerBlocks n = true) : isPublic4 n = false := by
  obtain ⟨b, hb, hn⟩ := List.any_eq_true.1 h
  rcases innerBlocks_internal hb with hmem | rfl
  · have hinternal : inAny internal4 n = true := List.any_eq_true.2 ⟨b, hmem, hn⟩
    simp [isPublic4, hinternal, innerBlocks_not_excepted hb hn]
  · simp [isPublic4, hn]

/-! ### Names -/

theorem not_denotes {host : List Char} {c : Char} (hcolon : ':' ∉ host) (hc : c ∈ host)
    (hdecimal : decimalValue? c = none) (hdigit : asciiDigit? c = none) (hdot : c ≠ '.')
    (a : Address) : ¬ Denotes host a := by
  intro h
  cases h with
  | literal h =>
    cases h with
    | @v4 n h => exact notMem_dottedText hdigit hdot n hc
    | v6 h => exact hcolon h.colon_mem
    | withScope h => exact hcolon (List.mem_append_left _ h.colon_mem)
  | whole h =>
    have hvalue := h.digits c hc
    rw [hdecimal] at hvalue
    cases hvalue

/-- A name that belongs to the machine itself or to its network. -/
def IsLocal (name : List Char) : Prop :=
  name = "localhost".toList ∨ ".local".toList <:+ name ∨ ".internal".toList <:+ name

theorem IsLocal.letter_mem {name : List Char} (h : IsLocal name) : 'l' ∈ name := by
  rcases h with rfl | h | h
  · decide
  · exact h.subset (by decide)
  · exact h.subset (by decide)

theorem IsLocal.blocked {name : List Char} (h : IsLocal name) :
    name ∈ blockedHosts ∨ ∃ e ∈ blockedEndings, e <:+ name := by
  rcases h with rfl | h | h
  · exact Or.inl (by decide)
  · exact Or.inr ⟨_, List.mem_cons_self, h⟩
  · exact Or.inr ⟨_, List.mem_cons_of_mem _ List.mem_cons_self, h⟩

theorem isPrivateHost_of_isLocal {host : List Char} (hcolon : ':' ∉ host) (h : IsLocal host) :
    isPrivateHost host = true :=
  (isPrivateHost_of_not_denotes
    (not_denotes hcolon h.letter_mem (by decide) (by decide) (by decide))).2 h.blocked

theorem IsLocal.shown {name : List Char} (h : IsLocal name) : IsLocal (Net.shown name) := by
  have hlocal : Net.shown ".local".toList = ".local".toList := by decide
  have hinternal : Net.shown ".internal".toList = ".internal".toList := by decide
  rcases h with rfl | h | h
  · exact Or.inl (by decide)
  · exact Or.inr (Or.inl (hlocal ▸ h.filter _))
  · exact Or.inr (Or.inr (hinternal ▸ h.filter _))

theorem IsLocal.getLast? {name : List Char} (h : IsLocal name) : name.getLast? ≠ some '.' := by
  rcases h with rfl | ⟨stem, rfl⟩ | ⟨stem, rfl⟩
  · decide
  · simp
  · simp

theorem isPrivateUrl_of_isLocal {name : List Char} (h : IsName name)
    (hlocal : IsLocal (trimEnd (· == '.') (name.map Char.toLower))) (s : Surroundings) :
    isPrivateUrl (s.url name) = true := by
  obtain ⟨points, hname, hpoints⟩ := exists_append_trimEnd (· == '.') (name.map Char.toLower)
  have hshown : ∀ c ∈ shown points, (c == '.') = true := fun c hc => hpoints c (mem_of_mem_shown hc)
  have htrim : trimEnd (· == '.') (shown (name.map Char.toLower)) =
      shown (trimEnd (· == '.') (name.map Char.toLower)) := by
    rw [hname, shown_append, trimEnd_append_of_pos _ hshown, ← hname]
    refine trimEnd_eq_self fun c hc => ?_
    rw [beq_eq_false_iff_ne]
    rintro rfl
    exact hlocal.shown.getLast? hc
  have hcolon : ':' ∉ shown (trimEnd (· == '.') (name.map Char.toLower)) := by
    intro hmem
    have hmem : ':' ∈ name.map Char.toLower := by
      rw [hname]
      exact List.mem_append_left _ (mem_of_mem_shown hmem)
    obtain ⟨c, hc, hlower⟩ := List.mem_map.1 hmem
    exact (h.plain c hc).2 (ascii_forall (P := fun c => c.toLower = ':' → c = ':')
      (by decide +kernel) (h.ascii c hc) hlower)
  have hurl := isPrivateUrl_points h s 0
  rw [List.replicate_zero, List.append_nil, htrim] at hurl
  rw [hurl]
  exact isPrivateHost_of_isLocal hcolon hlocal.shown

/-- The verdict is one on the address or on the name. However an IPv4 address is spelled and
whatever stands around it, it is private exactly if the address is not public; and a name is judged
without regard to letter case and to points at its end. -/
theorem verdict_regardless_of_spelling :
    (∀ n < twoTo 32, ∀ (host : List Char), Spelling n host → ∀ s : Surroundings,
      isPrivateUrl (s.url host) = !isPublic4 n ∧
        (inAny innerBlocks n = true → isPrivateUrl (s.url host) = true)) ∧
    ∀ name, IsName name →
      (∀ other, IsName other → other.map Char.toLower = name.map Char.toLower →
        ∀ (s t : Surroundings) (points more : Nat),
          isPrivateUrl (s.url (name ++ List.replicate points '.')) =
            isPrivateUrl (t.url (other ++ List.replicate more '.'))) ∧
      (IsLocal (trimEnd (· == '.') (name.map Char.toLower)) →
        ∀ s : Surroundings, isPrivateUrl (s.url name) = true) := by
  refine ⟨fun n hn host h s => ⟨h.isPrivateUrl hn s, fun hinner => ?_⟩, fun name h => ⟨?_, ?_⟩⟩
  · rw [h.isPrivateUrl hn s, not_isPublic4 hinner]
    rfl
  · intro other hother hcase s t points more
    rw [isPrivateUrl_points h, isPrivateUrl_points hother, hcase]
  · exact fun hlocal s => isPrivateUrl_of_isLocal h hlocal s

def visited : Surroundings where
  user := some "me".toList
  port := some "8443".toList
  rest := "/x".toList
  user_plain := by
    rintro _ ⟨⟩
    exact List.all_eq_true.1 (by decide)
  port_plain := by
    rintro _ ⟨⟩
    exact List.all_eq_true.1 (by decide)
  rest_ends := by
    rintro _ ⟨⟩
    decide

theorem verdict_of_loopback_and_printer :
    isPrivateUrl (visited.url "2130706433.".toList) = true ∧
      isPrivateUrl (visited.url "Printer.Local".toList) =
        isPrivateUrl (visited.url "PRINTER.local..".toList) ∧
      isPrivateUrl (visited.url "Printer.Local".toList) = true := by
  have hname : IsName "Printer.Local".toList := isName_iff.2 (by decide)
  have hother : IsName "PRINTER.local".toList := isName_iff.2 (by decide)
  have hloopback : Spelling 2130706433 "2130706433.".toList := .whole 1
  obtain ⟨haddress, hnames⟩ := verdict_regardless_of_spelling
  obtain ⟨hcase, hlocal⟩ := hnames _ hname
  exact ⟨(haddress 2130706433 (by decide) _ hloopback visited).2 (by decide),
    hcase _ hother (by decide) visited visited 0 2,
    hlocal (Or.inr (Or.inl (by decide))) visited⟩

end StrategyDesk.Net
