import StrategyDesk.Cli
import StrategyDesk.Proofs.Commands
import StrategyDesk.Proofs.Trimming
import StrategyDesk.Service.Serve

/-!
Descriptions through the service and through the command line. Both trim a description and bound
the length of what is left, but the command line also trims information separators, which are not
white space. So they agree on a description exactly if there is none at either end of it once the
white space is gone, or if the length is wrong either way.
-/

set_option autoImplicit false

namespace StrategyDesk
open Text Generation

namespace Text

/-- The information separators U+001C to U+001F. -/
def isSeparator (c : Char) : Bool := 0x1C ≤ c.toNat && c.toNat ≤ 0x1F

theorem blank_iff {c : Char} : blank c = true ↔ whiteSpace c = true ∨ isSeparator c = true := by
  rw [← Bool.or_eq_true]
  rfl

theorem trim_blank_trim_whiteSpace (cs : List Char) :
    trim blank (trim whiteSpace cs) = trim blank cs :=
  trim_trim (fun _ h => blank_iff.2 (Or.inl h)) cs

theorem isTrimmed_blank_iff {t : List Char} (h : IsTrimmed whiteSpace t) :
    IsTrimmed blank t ↔ IsTrimmed isSeparator t := by
  have hend {c : Char} (hc : whiteSpace c = false) : blank c = false ↔ isSeparator c = false := by
    rw [blank, hc, Bool.false_or]
    rfl
  constructor
  · intro ht
    exact ⟨fun c hc => (hend (h.start c hc)).1 (ht.start c hc),
      fun c hc => (hend (h.finish c hc)).1 (ht.finish c hc)⟩
  · intro ht
    exact ⟨fun c hc => (hend (h.start c hc)).2 (ht.start c hc),
      fun c hc => (hend (h.finish c hc)).2 (ht.finish c hc)⟩

end Text

namespace Generation

/-- Whether a trimmed description has an acceptable length. -/
def IsFitting (t : List Char) : Prop := minDescription ≤ t.length ∧ t.length ≤ maxDescription

instance (t : List Char) : Decidable (IsFitting t) := inferInstanceAs (Decidable (_ ∧ _))

def fitting? (t : List Char) : Option String := if IsFitting t then some (String.ofList t) else none

theorem fitting?_eq_some_iff {t : List Char} {s : String} :
    fitting? t = some s ↔ IsFitting t ∧ String.ofList t = s := by
  simp [fitting?]

theorem isSome_fitting? {t : List Char} : (fitting? t).isSome = true ↔ IsFitting t := by
  simp [fitting?]

theorem checkDescription_eq (s : String) :
    (checkDescription s).toOption = fitting? (trim blank s.toList) := by
  have hcheck : checkDescription s = (if IsFitting (trim blank s.toList) then
      .ok (trim blank s.toList) else .error badDescription : Except Failure _).map String.ofList :=
    rfl
  rw [hcheck, fitting?]
  split <;> rfl

end Generation

namespace Service
open Json Reading

def descriptionBody (description : String) : Json := .obj [("description", .str description)]

def accepted? (description : String) : Option String :=
  match Endpoint.generate.command [] (some (descriptionBody description)) with
  | .value (.generate t) => some t
  | _ => none

theorem descriptionText_eq_value_iff {description t : String} :
    descriptionText (.str description) = .value t ↔
      fitting? (trim whiteSpace description.toList) = some t := by
  have hlength : (String.ofList (trim whiteSpace description.toList)).length =
      (trim whiteSpace description.toList).length := String.length_ofList
  simp only [descriptionText, Reader.textWithin, hlength, fitting?_eq_some_iff, IsFitting]
  split
  · simp only [wrong, reduceCtorEq, false_iff]
    omega
  · split
    · simp only [wrong, reduceCtorEq, false_iff]
      omega
    · rw [value.injEq, iff_and_self]
      omega

theorem command_eq_value_iff {description : String} {c : Command} :
    Endpoint.generate.command [] (some (descriptionBody description)) = .value c ↔
      ∃ t, fitting? (trim whiteSpace description.toList) = some t ∧ c = .generate t := by
  have hfield {t : String} : Gives [("description", .str description)] "description"
      (Reads descriptionText) t ↔ fitting? (trim whiteSpace description.toList) = some t := by
    simp [Gives, find?, Reads, descriptionText_eq_value_iff]
  simp only [Endpoint.command, descriptionBody, fromBody_eq_value_iff, Option.some.injEq,
    Json.obj.injEq, exists_eq_left', readGenerate, map_eq_value_iff, field_eq_value_iff, hfield,
    eq_comm (a := c)]

theorem accepted?_eq (description : String) :
    accepted? description = fitting? (trim whiteSpace description.toList) := by
  unfold accepted?
  cases hfit : fitting? (trim whiteSpace description.toList) with
  | none =>
    split
    · rename_i t ht
      obtain ⟨u, hu, -⟩ := command_eq_value_iff.1 ht
      rw [hfit] at hu
      cases hu
    · rfl
  | some t => rw [command_eq_value_iff.2 ⟨t, hfit, rfl⟩]

def questions {σ : Type} (s : Setup) (w : Outside σ) (d : Desk σ) (description : String) :
    List Question :=
  match Endpoint.generate.command [] (some (descriptionBody description)) with
  | .value c => (perform s w d c).asked
  | .faulty _ _ => []

theorem questions_eq {σ : Type} (s : Setup) (w : Outside σ) (d : Desk σ) (description : String) :
    questions s w d description = (accepted? description).toList.map Question.about := by
  rw [accepted?_eq]
  unfold questions
  split
  · rename_i c hc
    obtain ⟨t, ht, rfl⟩ := command_eq_value_iff.1 hc
    rw [ht]
    simp only [perform, generate]
    split <;> rfl
  · rename_i hc
    cases hfit : fitting? (trim whiteSpace description.toList) with
    | none => rfl
    | some t =>
      rw [command_eq_value_iff.2 ⟨t, hfit, rfl⟩] at hc
      cases hc

end Service

namespace Cli

def accepted? (description : String) : Option String := (checkDescription description).toOption

theorem asked_of_report {x : Except Failure (Json × Form.Supply)} {r : Run} (h : report x = .ok r) :
    r.asked = [] := by
  unfold report at h
  split at h
  · cases h
    rfl
  · split at h
    · cases h
      rfl
    · cases h

theorem asked_generate (room : Room) (ids : Form.Supply) (p : Provider)
    (ask : Question → Completion) (description : String) :
    (generate room ids p ask description).map Run.asked =
      (generate room ids p ask description).map fun _ =>
      (accepted? description).toList.map fun t => (p, Question.about t) := by
  unfold generate accepted?
  split
  · rename_i f hcheck
    rw [hcheck]
    cases hreport : report (.error f) with
    | error f => rfl
    | ok r => exact congrArg Except.ok (asked_of_report hreport)
  · rename_i t hcheck
    rw [hcheck]
    dsimp only
    cases report (Generation.generate room ids (ask (Question.about t))) with
    | error f => rfl
    | ok r => rfl

end Cli

/-- A request is accepted if the command line takes the description too, and the model is then
told the same. -/
def AgreeOn (description : String) : Prop :=
  ((Service.accepted? description).isSome = true ↔ (Cli.accepted? description).isSome = true) ∧
    ∀ t u, Service.accepted? description = some t → Cli.accepted? description = some u → t = u

theorem agreeOn_iff {description : String} :
    AgreeOn description ↔ Service.accepted? description = Cli.accepted? description := by
  unfold AgreeOn
  cases Service.accepted? description <;> cases Cli.accepted? description <;> simp

def unspaced (description : String) : List Char := trim whiteSpace description.toList

/-- The service and the command line agree on a description exactly if no separator is left at its
ends by the white space around it, or if its length is wrong both with and without separators.
What each of them accepts is what the model is told, and nothing else is. -/
theorem agreeOn_iff_isTrimmed (description : String) :
    (AgreeOn description ↔ IsTrimmed isSeparator (unspaced description) ∨
      ¬ IsFitting (unspaced description) ∧ ¬ IsFitting (trim blank (unspaced description))) ∧
    (∀ (σ : Type) (s : Setup) (w : Service.Outside σ) (d : Desk σ),
      Service.questions s w d description =
        (Service.accepted? description).toList.map Question.about) ∧
    ∀ (room : Room) (ids : Form.Supply) (p : Provider) (ask : Question → Completion),
      (Cli.generate room ids p ask description).map Cli.Run.asked =
        (Cli.generate room ids p ask description).map fun _ =>
          (Cli.accepted? description).toList.map fun t => (p, Question.about t) := by
  refine ⟨?_, fun σ s w d => Service.questions_eq s w d description,
    fun room ids p ask => Cli.asked_generate room ids p ask description⟩
  unfold unspaced
  have hblank : trim blank (trim whiteSpace description.toList) = trim blank description.toList :=
    trim_blank_trim_whiteSpace description.toList
  have htrimmed : IsTrimmed isSeparator (trim whiteSpace description.toList) ↔
      trim blank (trim whiteSpace description.toList) = trim whiteSpace description.toList := by
    rw [trim_eq_self_iff, isTrimmed_blank_iff (isTrimmed_trim whiteSpace description.toList)]
  rw [agreeOn_iff, Service.accepted?_eq, Cli.accepted?, checkDescription_eq, htrimmed, hblank]
  constructor
  · intro h
    by_cases hfit : IsFitting (trim whiteSpace description.toList)
    · -- Both accept, so what is left is the same text.
      have hsome := fitting?_eq_some_iff.2 ⟨hfit, rfl⟩
      rw [hsome] at h
      exact Or.inl (String.ofList_injective (fitting?_eq_some_iff.1 h.symm).2)
    · refine Or.inr ⟨hfit, fun hother => hfit ?_⟩
      rw [← isSome_fitting?] at hother ⊢
      rwa [h]
  · rintro (h | ⟨hwhite, hblanks⟩)
    · rw [h]
    · rw [fitting?, fitting?, if_neg hwhite, if_neg hblanks]

/-- A separator before nine other characters counts for a request only. -/
theorem not_agreeOn_separator : ¬ AgreeOn "\x1c123456789" := by
  rw [agreeOn_iff]
  decide +kernel

end StrategyDesk
