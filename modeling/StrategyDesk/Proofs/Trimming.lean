import Mathlib.Data.List.TakeWhile
import StrategyDesk.Text.Blank

set_option autoImplicit false

namespace StrategyDesk.Text

/-- Neither end of a text is in the class. -/
structure IsTrimmed {α : Type} (p : α → Bool) (t : List α) : Prop where
  start : ∀ c, t.head? = some c → p c = false
  finish : ∀ c, t.getLast? = some c → p c = false

section Trim

variable {α : Type} {p q : α → Bool}

theorem head?_dropWhile {cs : List α} {c : α} (h : (cs.dropWhile p).head? = some c) :
    p c = false := by
  have := List.head?_dropWhile_not p cs
  rw [h] at this
  exact this

theorem dropWhile_eq_self {cs : List α} (h : ∀ c, cs.head? = some c → p c = false) :
    cs.dropWhile p = cs := by
  cases cs with
  | nil => rfl
  | cons c cs => rw [List.dropWhile_cons, h c rfl, if_neg (by decide)]

def StartsOutside (p : α → Bool) (t : List α) : Prop := ∀ c, t.head? = some c → p c = false

theorem startsOutside_cons {c : α} (h : p c = false) (t : List α) :
    StartsOutside p (c :: t) := fun d hd => by cases hd; exact h

theorem StartsOutside.dropWhile_append {a t : List α} (h : StartsOutside p t)
    (ha : ∀ c ∈ a, p c = true) : (a ++ t).dropWhile p = t := by
  rw [List.dropWhile_append_of_pos ha]
  exact dropWhile_eq_self h

theorem StartsOutside.takeWhile_append {a t : List α} (h : StartsOutside p t)
    (ha : ∀ c ∈ a, p c = true) : (a ++ t).takeWhile p = a := by
  have hrest : t.takeWhile p = [] := by
    cases t with
    | nil => rfl
    | cons c t => simp [h c rfl]
  rw [List.takeWhile_append_of_pos ha, hrest, List.append_nil]

theorem trimEnd_append_of_pos (t : List α) {b : List α} (hb : ∀ c ∈ b, p c = true) :
    trimEnd p (t ++ b) = trimEnd p t := by
  rw [trimEnd, List.reverse_append,
    List.dropWhile_append_of_pos fun c hc => hb c (List.mem_reverse.1 hc), trimEnd]

theorem trimEnd_eq_self {t : List α} (h : ∀ c, t.getLast? = some c → p c = false) :
    trimEnd p t = t := by
  have hback : t.reverse.dropWhile p = t.reverse :=
    dropWhile_eq_self fun c hc => h c (by rwa [List.head?_reverse] at hc)
  rw [trimEnd, hback, List.reverse_reverse]

theorem trimEnd_append_of_notMem [DecidableEq α] (a : List α) {t : List α} {d : α} (ht : t ≠ [])
    (h : d ∉ t) : trimEnd (· == d) (a ++ t) = a ++ t := by
  refine trimEnd_eq_self fun c hc => ?_
  rw [List.getLast?_append, List.getLast?_eq_some_getLast ht, Option.some_or] at hc
  cases hc
  exact beq_eq_false_iff_ne.2 fun hlast => h (hlast ▸ List.getLast_mem ht)

theorem trim_append {a t b : List α} (ha : ∀ c ∈ a, p c = true) (hb : ∀ c ∈ b, p c = true)
    (ht : IsTrimmed p t) : trim p (a ++ t ++ b) = t := by
  rw [List.append_assoc, trim, trimStart, List.dropWhile_append_of_pos ha]
  cases t with
  | nil =>
    have hnil : b.dropWhile p = [] := by
      rw [← List.append_nil b, List.dropWhile_append_of_pos hb]
      rfl
    rw [List.nil_append, hnil]
    rfl
  | cons c t =>
    have hfront : (c :: t ++ b).dropWhile p = c :: t ++ b :=
      dropWhile_eq_self fun d hd => ht.start d hd
    rw [hfront, trimEnd_append_of_pos _ hb, trimEnd_eq_self ht.finish]

theorem exists_append_trimEnd (p : α → Bool) (cs : List α) :
    ∃ b, cs = trimEnd p cs ++ b ∧ ∀ c ∈ b, p c = true := by
  refine ⟨(cs.reverse.takeWhile p).reverse, ?_, ?_⟩
  · have hback := congrArg List.reverse
      (List.takeWhile_append_dropWhile (p := p) (l := cs.reverse))
    rw [List.reverse_append, List.reverse_reverse] at hback
    exact hback.symm
  · exact fun c hc => List.mem_takeWhile_imp (List.mem_reverse.1 hc)

theorem exists_append_trim (p : α → Bool) (cs : List α) :
    ∃ a b, cs = a ++ trim p cs ++ b ∧ (∀ c ∈ a, p c = true) ∧ ∀ c ∈ b, p c = true := by
  obtain ⟨b, hfinish, hb⟩ := exists_append_trimEnd p (cs.dropWhile p)
  refine ⟨cs.takeWhile p, b, ?_, fun c hc => List.mem_takeWhile_imp hc, hb⟩
  rw [trim, trimStart, List.append_assoc, ← hfinish, List.takeWhile_append_dropWhile]

theorem isTrimmed_trim (p : α → Bool) (cs : List α) : IsTrimmed p (trim p cs) where
  start c hc := by
    -- The first character of what is left is the first one after the run at the start.
    obtain ⟨b, hb, -⟩ := exists_append_trimEnd p (cs.dropWhile p)
    have hhead : (cs.dropWhile p).head? = some c := by
      rw [trim, trimStart] at hc
      rw [hb, List.head?_append, hc, Option.some_or]
    exact head?_dropWhile hhead
  finish c hc := by
    rw [trim, trimEnd, List.getLast?_reverse] at hc
    exact head?_dropWhile hc

theorem trim_eq_self_iff {t : List α} : trim p t = t ↔ IsTrimmed p t := by
  constructor
  · intro h
    rw [← h]
    exact isTrimmed_trim p t
  · intro h
    have := trim_append (a := []) (b := []) (by simp) (by simp) h
    rwa [List.nil_append, List.append_nil] at this

/-- A wider class trims what a narrower one left as it trims the whole. -/
theorem trim_trim (h : ∀ c, p c = true → q c = true) (cs : List α) :
    trim q (trim p cs) = trim q cs := by
  obtain ⟨a, b, hcs, ha, hb⟩ := exists_append_trim p cs
  obtain ⟨a', b', ht, ha', hb'⟩ := exists_append_trim q (trim p cs)
  have hwhole : cs = (a ++ a') ++ trim q (trim p cs) ++ (b' ++ b) := by
    rw [ht] at hcs
    simpa only [List.append_assoc] using hcs
  have hall := trim_append (p := q) (a := a ++ a') (b := b' ++ b)
    (fun c hc => (List.mem_append.1 hc).elim (fun hc => h c (ha c hc)) (ha' c))
    (fun c hc => (List.mem_append.1 hc).elim (hb' c) fun hc => h c (hb c hc))
    (isTrimmed_trim q (trim p cs))
  rw [← hwhole] at hall
  exact hall.symm

end Trim

end StrategyDesk.Text
