set_option autoImplicit false

namespace StrategyDesk.Text

def whiteSpace (c : Char) : Bool :=
  let n := c.toNat
  (0x9 ≤ n && n ≤ 0xD) || n == 0x20 || n == 0x85 || n == 0xA0 || n == 0x1680 ||
    (0x2000 ≤ n && n ≤ 0x200A) || n == 0x2028 || n == 0x2029 || n == 0x202F || n == 0x205F ||
    n == 0x3000

/-- White space and the four information separators U+001C to U+001F. -/
def blank (c : Char) : Bool := whiteSpace c || (0x1C ≤ c.toNat && c.toNat ≤ 0x1F)

/-- What may stand around a numeral: the same without the information separators. -/
def numeralBlank (c : Char) : Bool := whiteSpace c

def trimStart {α : Type} (p : α → Bool) (cs : List α) : List α := cs.dropWhile p

def trimEnd {α : Type} (p : α → Bool) (cs : List α) : List α := (cs.reverse.dropWhile p).reverse

def trim {α : Type} (p : α → Bool) (cs : List α) : List α := trimEnd p (trimStart p cs)

section Prefixes

variable {α : Type} [DecidableEq α]

/-- Whether the first list starts with the second, and what follows it then. -/
def dropPrefix? : List α → List α → Option (List α)
  | cs, [] => some cs
  | c :: cs, k :: ks => if c = k then dropPrefix? cs ks else none
  | [], _ :: _ => none

theorem dropPrefix?_append (ks rest : List α) : dropPrefix? (ks ++ rest) ks = some rest := by
  induction ks with
  | nil => cases rest <;> rfl
  | cons k ks ih => simp [dropPrefix?, ih]

theorem eq_append_of_dropPrefix? {cs ks rest : List α} (h : dropPrefix? cs ks = some rest) :
    cs = ks ++ rest := by
  induction ks generalizing cs with
  | nil => cases cs <;> simp_all [dropPrefix?]
  | cons k ks ih =>
    cases cs with
    | nil => simp [dropPrefix?] at h
    | cons c cs =>
      by_cases hc : c = k
      · simp only [dropPrefix?, hc, ↓reduceIte] at h
        simp [hc, ih h]
      · simp [dropPrefix?, hc] at h

end Prefixes

def splitOn (sep : Char) : List Char → List (List Char)
  | [] => [[]]
  | c :: cs =>
    if c = sep then [] :: splitOn sep cs
    else match splitOn sep cs with
      | [] => [[c]]
      | piece :: pieces => (c :: piece) :: pieces

theorem splitOn_ne_nil (sep : Char) (cs : List Char) : splitOn sep cs ≠ [] := by
  cases cs with
  | nil => simp [splitOn]
  | cons c cs =>
    simp only [splitOn]
    split
    · simp
    · split <;> simp

theorem splitOn_of_notMem {sep : Char} {cs : List Char} (h : sep ∉ cs) : splitOn sep cs = [cs] := by
  induction cs with
  | nil => rfl
  | cons c cs ih =>
    simp only [List.mem_cons, not_or] at h
    simp only [splitOn, if_neg (Ne.symm h.1), ih h.2]

theorem splitOn_append (sep : Char) (as bs : List Char) :
    splitOn sep (as ++ sep :: bs) = splitOn sep as ++ splitOn sep bs := by
  induction as with
  | nil => simp [splitOn]
  | cons c as ih =>
    simp only [List.cons_append, splitOn, ih]
    split
    · rfl
    · obtain ⟨p, ps, hps⟩ := List.exists_cons_of_ne_nil (splitOn_ne_nil sep as)
      simp only [hps, List.cons_append]

theorem splitOn_eq_cons_iff {sep : Char} {cs p : List Char} {ps : List (List Char)} :
    splitOn sep cs = p :: ps ↔
      sep ∉ p ∧ ((cs = p ∧ ps = []) ∨ ∃ rest, cs = p ++ sep :: rest ∧ splitOn sep rest = ps) := by
  constructor
  · intro h
    induction cs generalizing p with
    | nil =>
      simp only [splitOn, List.cons.injEq] at h
      obtain ⟨rfl, rfl⟩ := h
      exact ⟨List.not_mem_nil, Or.inl ⟨rfl, rfl⟩⟩
    | cons c cs ih =>
      simp only [splitOn] at h
      split at h
      · rename_i hc
        obtain ⟨rfl, rfl⟩ := List.cons.inj h
        exact ⟨List.not_mem_nil, Or.inr ⟨cs, by rw [hc, List.nil_append], rfl⟩⟩
      · rename_i hc
        obtain ⟨q, qs, hqs⟩ := List.exists_cons_of_ne_nil (splitOn_ne_nil sep cs)
        simp only [hqs, List.cons.injEq] at h
        obtain ⟨rfl, rfl⟩ := h
        obtain ⟨hq, hcs⟩ := ih hqs
        refine ⟨by simp [Ne.symm hc, hq], hcs.imp ?_ ?_⟩
        · rintro ⟨rfl, rfl⟩
          exact ⟨rfl, rfl⟩
        · rintro ⟨rest, rfl, hrest⟩
          exact ⟨rest, rfl, hrest⟩
  · rintro ⟨hp, ⟨rfl, rfl⟩ | ⟨rest, rfl, rfl⟩⟩
    · exact splitOn_of_notMem hp
    · rw [splitOn_append, splitOn_of_notMem hp, List.singleton_append]

theorem splitOn_eq_append {sep : Char} {cs : List Char} {ps qs : List (List Char)} (hp : ps ≠ [])
    (hq : qs ≠ []) (h : splitOn sep cs = ps ++ qs) :
    ∃ as bs, cs = as ++ sep :: bs ∧ splitOn sep as = ps ∧ splitOn sep bs = qs := by
  induction ps generalizing cs with
  | nil => exact absurd rfl hp
  | cons p ps ih =>
    rw [List.cons_append, splitOn_eq_cons_iff] at h
    obtain ⟨hsep, ⟨-, hnil⟩ | ⟨rest, rfl, hrest⟩⟩ := h
    · exact absurd (List.append_eq_nil_iff.1 hnil).2 hq
    · cases ps with
      | nil => exact ⟨p, rest, rfl, splitOn_of_notMem hsep, hrest⟩
      | cons r rs =>
        obtain ⟨as, bs, rfl, has, hbs⟩ := ih (List.cons_ne_nil r rs) hrest
        refine ⟨p ++ sep :: as, bs, by simp, ?_, hbs⟩
        rw [splitOn_append, splitOn_of_notMem hsep, has, List.singleton_append]

theorem splitOn_eq_iff {sep : Char} {cs : List Char} {ps : List (List Char)} :
    splitOn sep cs = ps ↔ ps ≠ [] ∧ (∀ p ∈ ps, sep ∉ p) ∧ cs = [sep].intercalate ps := by
  induction ps generalizing cs with
  | nil => simp [splitOn_ne_nil]
  | cons p ps ih =>
    rw [splitOn_eq_cons_iff]
    cases ps with
    | nil => simp [splitOn_ne_nil]
    | cons q qs =>
      constructor
      · rintro ⟨hp, ⟨-, hnil⟩ | ⟨rest, rfl, hrest⟩⟩
        · cases hnil
        · obtain ⟨-, hqs, rfl⟩ := ih.1 hrest
          exact ⟨by simp, List.forall_mem_cons.2 ⟨hp, hqs⟩, by simp⟩
      · rintro ⟨-, hall, rfl⟩
        obtain ⟨hp, hqs⟩ := List.forall_mem_cons.1 hall
        exact ⟨hp, Or.inr ⟨[sep].intercalate (q :: qs), by simp, ih.2 ⟨by simp, hqs, rfl⟩⟩⟩

def joinWith (sep : String) : List String → String
  | [] => ""
  | [s] => s
  | s :: rest => s ++ sep ++ joinWith sep rest

end StrategyDesk.Text
