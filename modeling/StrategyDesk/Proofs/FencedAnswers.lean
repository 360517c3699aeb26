import StrategyDesk.Generation.Answer
import StrategyDesk.Proofs.Trimming

/-!
Answers in code fences. A text from an opening to a closing brace may come between fences, behind
an opening fence alone or without any, with blanks at every joint. Whichever it is, nothing but the
wrapping is taken off, whatever stands in the text itself.
-/

set_option autoImplicit false

namespace StrategyDesk.Generation
open Text

/-- A text that starts with an opening brace and ends with a closing one. -/
structure IsBraced (t : List Char) : Prop where
  opens : t.head? = some '{'
  closes : t.getLast? = some '}'

def IsBlank (w : List Char) : Prop := ∀ c ∈ w, blank c = true

def IsTag (tag : List Char) : Prop := tag = [] ∨ tag = "json".toList

/-- The answers that carry a text: without fences, between two of them, or behind the opening one
alone. Blanks may stand around the whole and between the fences and the text. -/
inductive Carries (t : List Char) : List Char → Prop where
  | bare {w₁ w₄ : List Char} (h₁ : IsBlank w₁) (h₄ : IsBlank w₄) : Carries t (w₁ ++ t ++ w₄)
  | fenced {w₁ tag w₂ w₃ w₄ : List Char} (h₁ : IsBlank w₁) (htag : IsTag tag) (h₂ : IsBlank w₂)
    (h₃ : IsBlank w₃) (h₄ : IsBlank w₄) :
    Carries t (w₁ ++ ("```".toList ++ (tag ++ w₂ ++ (t ++ w₃ ++ "```".toList))) ++ w₄)
  | opened {w₁ tag w₂ w₄ : List Char} (h₁ : IsBlank w₁) (htag : IsTag tag) (h₂ : IsBlank w₂)
    (h₄ : IsBlank w₄) : Carries t (w₁ ++ ("```".toList ++ (tag ++ w₂ ++ t)) ++ w₄)

/-! ### Fences -/

theorem dropPrefix?_eq_none {cs ks : List Char} {k : Char} (h : cs.head? ≠ some k) :
    dropPrefix? cs (k :: ks) = none := by
  cases cs with
  | nil => rfl
  | cons c cs =>
    have hne : ¬ c = k := fun hc => h (congrArg some hc)
    rw [dropPrefix?, if_neg hne]

theorem afterOpening_append {tag w t : List Char} (htag : IsTag tag) (hw : IsBlank w)
    (ht : t.head? = some '{') : afterOpening (tag ++ w ++ t) = t := by
  have hstart : StartsOutside blank t := by
    intro c hc
    rw [ht] at hc
    cases hc
    decide
  have htagless : dropLeading fenceTag (tag ++ w ++ t) = w ++ t := by
    rcases htag with rfl | rfl
    · -- Neither a blank nor a brace is the first character of the tag.
      have hhead : (w ++ t).head? ≠ some 'j' := by
        cases w with
        | nil => rw [List.nil_append, ht]; decide
        | cons c w =>
          intro hc
          cases hc
          exact absurd (hw 'j' List.mem_cons_self) (by decide)
      rw [List.nil_append, dropLeading, show fenceTag = 'j' :: ['s', 'o', 'n'] from rfl,
        dropPrefix?_eq_none hhead, Option.getD_none]
    · rw [dropLeading, List.append_assoc, fenceTag, dropPrefix?_append, Option.getD_some]
  rw [afterOpening, htagless, trimStart, hstart.dropWhile_append hw]

theorem dropClosing_append {close t w : List Char} (hw : IsBlank w)
    (ht : ∀ c, t.getLast? = some c → blank c = false) :
    dropClosing close (t ++ w ++ close) = t := by
  have hclose : dropPrefix? (t ++ w ++ close).reverse close.reverse =
      some (w.reverse ++ t.reverse) := by
    rw [List.reverse_append, dropPrefix?_append, List.reverse_append]
  have hstart : StartsOutside blank t.reverse := fun c hc =>
    ht c (by rwa [List.head?_reverse] at hc)
  have hback : IsBlank w.reverse := fun c hc => hw c (List.mem_reverse.1 hc)
  rw [dropClosing, hclose]
  dsimp only
  rw [hstart.dropWhile_append hback, List.reverse_reverse]

theorem dropClosing_eq_self {close t : List Char} (hclose : close ≠ [])
    (ht : t.getLast? ≠ close.getLast?) : dropClosing close t = t := by
  obtain ⟨k, ks, hks⟩ := List.exists_cons_of_ne_nil (List.reverse_ne_nil_iff.2 hclose)
  have hlast : t.reverse.head? ≠ some k := by
    rwa [← List.head?_reverse, ← List.head?_reverse, hks, List.head?_cons] at ht
  rw [dropClosing, hks, dropPrefix?_eq_none hlast]

/-! ### Wrappings -/

namespace IsBraced

variable {t : List Char}

theorem blank_opens (h : IsBraced t) : ∀ c, t.head? = some c → blank c = false := by
  intro c hc
  rw [h.opens] at hc
  cases hc
  decide

theorem blank_closes (h : IsBraced t) : ∀ c, t.getLast? = some c → blank c = false := by
  intro c hc
  rw [h.closes] at hc
  cases hc
  decide

theorem isTrimmed (h : IsBraced t) : IsTrimmed blank t := ⟨h.blank_opens, h.blank_closes⟩

end IsBraced

theorem stripFences_of_fence {w₁ cs w₄ : List Char} (h₁ : IsBlank w₁) (h₄ : IsBlank w₄)
    (hlast : ∀ c, (fence ++ cs).getLast? = some c → blank c = false) :
    stripFences (w₁ ++ (fence ++ cs) ++ w₄) = trim blank (dropClosing fence (afterOpening cs)) := by
  have htrimmed : IsTrimmed blank (fence ++ cs) :=
    ⟨fun c hc => by cases hc; decide, hlast⟩
  rw [stripFences, trim_append h₁ h₄ htrimmed]
  simp only [dropPrefix?_append]

theorem stripFences_of_carries {t raw : List Char} (ht : IsBraced t) (h : Carries t raw) :
    stripFences raw = t := by
  have htrim : trim blank t = t := trim_eq_self_iff.2 ht.isTrimmed
  cases h with
  | bare h₁ h₄ =>
    have hfence : dropPrefix? t fence = none :=
      dropPrefix?_eq_none (by rw [ht.opens]; decide)
    rw [stripFences, trim_append h₁ h₄ ht.isTrimmed]
    simp only [hfence, htrim]
  | @fenced w₁ tag w₂ w₃ w₄ h₁ htag h₂ h₃ h₄ =>
    have hhead : (t ++ w₃ ++ fence).head? = some '{' := by
      rw [List.append_assoc, List.head?_append, ht.opens, Option.some_or]
    have hlast : ∀ c, (fence ++ (tag ++ w₂ ++ (t ++ w₃ ++ fence))).getLast? = some c →
        blank c = false := by
      intro c hc
      rw [← List.append_assoc, ← List.append_assoc, List.getLast?_append] at hc
      cases hc
      decide
    calc stripFences (w₁ ++ (fence ++ (tag ++ w₂ ++ (t ++ w₃ ++ fence))) ++ w₄)
        = trim blank (dropClosing fence (afterOpening (tag ++ w₂ ++ (t ++ w₃ ++ fence)))) :=
          stripFences_of_fence h₁ h₄ hlast
      _ = trim blank (dropClosing fence (t ++ w₃ ++ fence)) := by
          rw [afterOpening_append htag h₂ hhead]
      _ = trim blank t := by rw [dropClosing_append h₃ ht.blank_closes]
      _ = t := htrim
  | @opened w₁ tag w₂ w₄ h₁ htag h₂ h₄ =>
    have hlast : ∀ c, (fence ++ (tag ++ w₂ ++ t)).getLast? = some c → blank c = false := by
      intro c hc
      refine ht.blank_closes c ?_
      rwa [← List.append_assoc, List.getLast?_append, ht.closes, Option.some_or, ← ht.closes] at hc
    have hclosing : dropClosing fence t = t :=
      dropClosing_eq_self (by decide) (by rw [ht.closes]; decide)
    calc stripFences (w₁ ++ (fence ++ (tag ++ w₂ ++ t)) ++ w₄)
        = trim blank (dropClosing fence (afterOpening (tag ++ w₂ ++ t))) :=
          stripFences_of_fence h₁ h₄ hlast
      _ = trim blank (dropClosing fence t) := by rw [afterOpening_append htag h₂ ht.opens]
      _ = t := by rw [hclosing, htrim]

/-- Fences and blanks around a braced text do not count: they are taken off and nothing else is, and
what comes of the answer is what comes of the text alone. -/
theorem fences_are_transparent {t raw : List Char} (ht : IsBraced t) (h : Carries t raw) :
    stripFences raw = t ∧ ∀ room next, parseAnswer room next raw = parseAnswer room next t := by
  have hbare : stripFences t = t := by
    have hnone : IsBlank [] := fun _ hc => nomatch hc
    have := stripFences_of_carries ht (.bare hnone hnone)
    rwa [List.nil_append, List.append_nil] at this
  have hraw := stripFences_of_carries ht h
  refine ⟨hraw, fun room next => ?_⟩
  rw [parseAnswer, parseAnswer, hraw, hbare]

def quotingText : List Char := "\x7b\"```json\n\x7b\x7d\n```\" \x7d".toList

def quotingAnswer : List Char :=
  " \n".toList ++ ("```".toList ++ ("json".toList ++ "\t".toList ++
    (quotingText ++ "\n".toList ++ "```".toList))) ++ "\r\n".toList

theorem carries_quotingAnswer : Carries quotingText quotingAnswer := by
  have hblank {w : List Char} (h : w.all blank = true) : IsBlank w := List.all_eq_true.1 h
  exact .fenced (hblank (by decide)) (Or.inr rfl) (hblank (by decide)) (hblank (by decide))
    (hblank (by decide))

theorem fences_are_transparent_of_quotingText : IsBraced quotingText ∧
    Carries quotingText quotingAnswer ∧ stripFences quotingAnswer = quotingText ∧
    parseAnswer .direct .counted quotingAnswer = parseAnswer .direct .counted quotingText := by
  have hbraced : IsBraced quotingText := ⟨by decide, by decide⟩
  obtain ⟨hstrip, hparse⟩ := fences_are_transparent hbraced carries_quotingAnswer
  exact ⟨hbraced, carries_quotingAnswer, hstrip, hparse .direct .counted⟩

end StrategyDesk.Generation
