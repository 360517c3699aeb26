import StrategyDesk.Json.Basic
import StrategyDesk.Sentence

/-!
How operations end without a result. A `GraphError` places a violation in a graph; a `Crash` says
that an operation met a value it is not defined on; a `Failure` is everything that can stop an
operation of the desk, with its sentence in `Failure.message`.
-/

set_option autoImplicit false

namespace StrategyDesk

/-- An operation met a value that it is not defined on. -/
inductive Crash where
  | wrongKind
  | tooLarge
  | tooDeep
  | noOperation
  | noMember
  | noNumeral
  | badSetting
  | brokenRow
  | brokenStatement
  | notJson
  | longNumeral
  | notText
  | notWritable
  | unencodable
  | noFile
  | directory
  | badPath
  | longPath
  deriving DecidableEq, Repr

inductive Abort (ε : Type) where
  | fault (e : ε)
  | crash (c : Crash)
  deriving Repr

namespace Abort

def map {ε δ : Type} (f : ε → δ) : Abort ε → Abort δ
  | .fault e => .fault (f e)
  | .crash c => .crash c

end Abort

abbrev Check (ε : Type) := Except (Abort ε) Unit

namespace Check

def ensure {ε : Type} (test : Except Crash Bool) (e : ε) : Check ε :=
  match test with
  | .ok true => .ok ()
  | .ok false => .error (.fault e)
  | .error c => .error (.crash c)

def within {ε δ : Type} (f : ε → δ) : Check ε → Check δ
  | .ok () => .ok ()
  | .error e => .error (e.map f)

/-- The outcome of the first check that does not pass. -/
def inOrder {ε : Type} : List (Check ε) → Check ε
  | [] => .ok ()
  | .ok () :: cs => inOrder cs
  | .error e :: _ => .error e

theorem inOrder_eq_ok_iff {ε : Type} {cs : List (Check ε)} :
    inOrder cs = .ok () ↔ ∀ c ∈ cs, c = .ok () := by
  induction cs with
  | nil => simp [inOrder]
  | cons c cs ih =>
    match c with
    | .ok () => simp [inOrder, ih]
    | .error e => simp [inOrder]

theorem within_eq_ok_iff {ε δ : Type} {f : ε → δ} {c : Check ε} :
    within f c = .ok () ↔ c = .ok () := by
  match c with
  | .ok () => simp [within]
  | .error e => simp [within]

theorem ensure_eq_ok_iff {ε : Type} {test : Except Crash Bool} {e : ε} :
    ensure test e = .ok () ↔ test = .ok true := by
  match test with
  | .ok true => simp [ensure]
  | .ok false => simp [ensure]
  | .error c => simp [ensure]

theorem inOrder_nil {ε : Type} : inOrder ([] : List (Check ε)) = .ok () := rfl

theorem inOrder_cons_eq_ok_iff {ε : Type} {c : Check ε} {cs : List (Check ε)} :
    inOrder (c :: cs) = .ok () ↔ c = .ok () ∧ inOrder cs = .ok () := by
  match c with
  | .ok () => simp [inOrder]
  | .error e => simp [inOrder]

theorem inOrder_cons_eq_error_iff {ε : Type} {c : Check ε} {cs : List (Check ε)} {a : Abort ε} :
    inOrder (c :: cs) = .error a ↔ c = .error a ∨ c = .ok () ∧ inOrder cs = .error a := by
  match c with
  | .ok () => simp [inOrder]
  | .error e => simp [inOrder]

theorem within_eq_crash_iff {ε δ : Type} {f : ε → δ} {c : Check ε} {d : Crash} :
    within f c = .error (.crash d) ↔ c = .error (.crash d) := by
  match c with
  | .ok () => simp [within]
  | .error (.fault e) => simp [within, Abort.map]
  | .error (.crash e) => simp [within, Abort.map]

theorem within_eq_fault_iff {ε δ : Type} {f : ε → δ} {c : Check ε} {d : δ} :
    within f c = .error (.fault d) ↔ ∃ e, c = .error (.fault e) ∧ d = f e := by
  match c with
  | .ok () => simp [within]
  | .error (.fault e) => simp [within, Abort.map, eq_comm]
  | .error (.crash e) => simp [within, Abort.map]

theorem ensure_eq_crash_iff {ε : Type} {test : Except Crash Bool} {e : ε} {d : Crash} :
    ensure test e = .error (.crash d) ↔ test = .error d := by
  match test with
  | .ok true => simp [ensure]
  | .ok false => simp [ensure]
  | .error c => simp [ensure]

theorem ensure_eq_fault_iff {ε : Type} {test : Except Crash Bool} {e f : ε} :
    ensure test e = .error (.fault f) ↔ test = .ok false ∧ f = e := by
  match test with
  | .ok true => simp [ensure]
  | .ok false => simp [ensure, eq_comm]
  | .error c => simp [ensure]

theorem inOrder_map_eq_crash_iff {α ε : Type} {check : α → Check ε} {xs : List α} {d : Crash} :
    inOrder (xs.map check) = .error (.crash d) ↔
      ∃ before x after, xs = before ++ x :: after ∧ (∀ b ∈ before, check b = .ok ()) ∧
        check x = .error (.crash d) := by
  induction xs with
  | nil => simp [inOrder]
  | cons y ys ih =>
    rw [List.map_cons, inOrder_cons_eq_error_iff, ih]
    constructor
    · rintro (hy | ⟨hy, before, x, after, rfl, hbefore, hx⟩)
      · exact ⟨[], y, ys, rfl, fun b hb => absurd hb List.not_mem_nil, hy⟩
      · exact ⟨y :: before, x, after, rfl, List.forall_mem_cons.2 ⟨hy, hbefore⟩, hx⟩
    · rintro ⟨before, x, after, hxs, hbefore, hx⟩
      cases before with
      | nil =>
        cases hxs
        exact Or.inl hx
      | cons b before =>
        cases hxs
        obtain ⟨hb, hbefore⟩ := List.forall_mem_cons.1 hbefore
        exact Or.inr ⟨hb, before, x, after, rfl, hbefore, hx⟩

theorem inOrder_mapIdx_within_eq_crash_iff {ε δ : Type} {f : Nat → ε → δ} {cs : List (Check ε)}
    {d : Crash} : inOrder (cs.mapIdx fun i c => within (f i) c) = .error (.crash d) ↔
      inOrder cs = .error (.crash d) := by
  induction cs generalizing f with
  | nil => simp [inOrder]
  | cons c cs ih =>
    rw [List.mapIdx_cons, inOrder_cons_eq_error_iff, inOrder_cons_eq_error_iff, within_eq_crash_iff,
      within_eq_ok_iff, ih]

end Check

/-- Whether a graph has the wrong shape, or a value outside its domain. -/
inductive ViolationKind where
  | structural
  | semantic
  deriving DecidableEq, Repr

structure GraphError where
  kind : ViolationKind
  path : String
  message : String
  deriving DecidableEq, Repr

def GraphError.text (e : GraphError) : String := Sentence.violation e.path e.message

structure Violation where
  path : String
  message : String
  deriving DecidableEq, Repr

def Violation.text (v : Violation) : String := Sentence.violation v.path v.message

structure EngineFailure where
  operation : String
  walletId : Option Int
  strategyId : Option Int
  status : Option Int
  detail : String
  deriving DecidableEq, Repr

namespace EngineFailure

def target (e : EngineFailure) : String :=
  match e.walletId, e.strategyId with
  | some w, some s => Sentence.pair (toString w) (toString s)
  | _, _ => ""

def reason (e : EngineFailure) : String :=
  match e.status with
  | some status => Sentence.refusal (toString status)
  | none => Sentence.silence e.detail

def message (e : EngineFailure) : String := Sentence.engineFailed e.operation e.target e.reason

end EngineFailure

/-- Everything that can stop an operation of the desk. -/
inductive Failure where
  | graph (e : GraphError)
  | insecure (vs : List Violation)
  | provider (status : Option Int) (detail : String)
  | notJson (snippet : String)
  | rejected (reason : String) (path : Option String)
  | engine (e : EngineFailure)
  | walletNotDeployed (walletId : Int)
  | walletDeploying (walletId : Int)
  | walletNotFound (walletId : Int)
  | strategyNotFound (strategyId : Int)
  | assignmentNotFound (walletId strategyId : Int)
  | badValue (message : String)
  | broken (message : String)
  | crash (c : Crash)
  deriving DecidableEq, Repr

namespace Failure

def snippetLength : Nat := 200

def notJsonOf (raw : List Char) : Failure := .notJson (String.ofList (raw.take snippetLength))

def message : Failure → String
  | .graph e => e.text
  | .insecure vs => Sentence.unsafeSources (vs.map Violation.text)
  | .provider (some status) _ => Sentence.providerRefused (toString status)
  | .provider none detail => Sentence.providerSilent detail
  | .notJson snippet => Sentence.answerNotJson snippet
  | .rejected reason _ => Sentence.formRejected reason
  | .engine e => e.message
  | .walletNotDeployed w => Sentence.walletNotDeployed (toString w)
  | .walletDeploying _ => Sentence.walletDeploying
  | .walletNotFound w => Sentence.walletNotFound (toString w)
  | .strategyNotFound s => Sentence.strategyNotFound (toString s)
  | .assignmentNotFound w s => Sentence.assignmentNotFound (toString w) (toString s)
  | .badValue m => m
  | .broken m => m
  | .crash _ => ""

def isEngineFault : Failure → Bool
  | .engine _ | .broken _ => true
  | _ => false

end Failure

end StrategyDesk
