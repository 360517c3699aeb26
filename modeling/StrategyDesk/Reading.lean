import StrategyDesk.Json.Basic
import StrategyDesk.Number.Numeral

/-!
Typed reading of JSON values. A reader turns a value into one of a type or lists every mistake
it met, in the order of the fields and depth first. Readers are lenient where a value has one
clear meaning in the type: numerals in strings, whole binary64 values, truth words.
-/

set_option autoImplicit false

namespace StrategyDesk

inductive Step where
  | key (name : String)
  | index (i : Nat)
  deriving DecidableEq, Repr

inductive Mistake where
  | missing
  | notText
  | notUnicode
  | notObject
  | notList
  | notRecord (name : String)
  | notFields
  | notOneOf (choices : List String)
  | noItems
  | notPair
  | longPair (size : Nat)
  | notNumber
  | unreadableNumber
  | below (least : String)
  | above (most : String)
  | notAbove (bound : String)
  | notInteger
  | unreadableInteger
  | longInteger
  | fractionalInteger
  | infiniteInteger
  | notBoolean
  | unreadableBoolean
  | shortText (least : Nat)
  | longText (most : Nat)
  | notJson
  deriving DecidableEq, Repr

def Mistake.tag : Mistake → String
  | .missing => "missing"
  | .notText => "string_type"
  | .notUnicode => "string_unicode"
  | .notObject => "dict_type"
  | .notList => "list_type"
  | .notRecord _ => "model_type"
  | .notFields => "model_attributes_type"
  | .notOneOf _ => "literal_error"
  | .noItems => "too_short"
  | .notPair => "tuple_type"
  | .longPair _ => "too_long"
  | .notNumber => "float_type"
  | .unreadableNumber => "float_parsing"
  | .below _ => "greater_than_equal"
  | .above _ => "less_than_equal"
  | .notAbove _ => "greater_than"
  | .notInteger => "int_type"
  | .unreadableInteger => "int_parsing"
  | .longInteger => "int_parsing_size"
  | .fractionalInteger => "int_from_float"
  | .infiniteInteger => "finite_number"
  | .notBoolean => "bool_type"
  | .unreadableBoolean => "bool_parsing"
  | .shortText _ => "string_too_short"
  | .longText _ => "string_too_long"
  | .notJson => "json_invalid"

def alternatives : List String → String
  | [] => ""
  | [s] => "'" ++ s ++ "'"
  | [s, t] => "'" ++ s ++ "' or '" ++ t ++ "'"
  | s :: rest => "'" ++ s ++ "', " ++ alternatives rest

def counted (n : Nat) (noun : String) : String :=
  toString n ++ " " ++ noun ++ if n = 1 then "" else "s"

def Mistake.message : Mistake → String
  | .missing => "Field required"
  | .notText => "Input should be a valid string"
  | .notUnicode =>
    "Input should be a valid string, unable to parse raw data as a unicode string"
  | .notObject => "Input should be a valid dictionary"
  | .notList => "Input should be a valid list"
  | .notRecord name => "Input should be a valid dictionary or instance of " ++ name
  | .notFields => "Input should be a valid dictionary or object to extract fields from"
  | .notOneOf choices => "Input should be " ++ alternatives choices
  | .noItems => "List should have at least 1 item after validation, not 0"
  | .notPair => "Input should be a valid tuple"
  | .longPair n => "Tuple should have at most 2 items after validation, not " ++ toString n
  | .notNumber => "Input should be a valid number"
  | .unreadableNumber => "Input should be a valid number, unable to parse string as a number"
  | .below least => "Input should be greater than or equal to " ++ least
  | .above most => "Input should be less than or equal to " ++ most
  | .notAbove bound => "Input should be greater than " ++ bound
  | .notInteger => "Input should be a valid integer"
  | .unreadableInteger => "Input should be a valid integer, unable to parse string as an integer"
  | .longInteger => "Unable to parse input string as an integer, exceeded maximum size"
  | .fractionalInteger => "Input should be a valid integer, got a number with a fractional part"
  | .infiniteInteger => "Input should be a finite number"
  | .notBoolean => "Input should be a valid boolean"
  | .unreadableBoolean => "Input should be a valid boolean, unable to interpret input"
  | .shortText least => "String should have at least " ++ counted least "character"
  | .longText most => "String should have at most " ++ counted most "character"
  | .notJson => "JSON decode error"

/-- A mistake at its place, with the value that was found there. -/
structure Detail where
  place : List Step
  mistake : Mistake
  found : Json
  deriving Repr, BEq

inductive Reading (α : Type) where
  | value (a : α)
  | faulty (first : Detail) (rest : List Detail)

namespace Reading

def details {α : Type} : Reading α → List Detail
  | value _ => []
  | faulty d ds => d :: ds

def map {α β : Type} (f : α → β) : Reading α → Reading β
  | value a => value (f a)
  | faulty d ds => faulty d ds

/-- Both readings, with the mistakes of the first before those of the second. -/
def seq {α β : Type} : Reading (α → β) → Reading α → Reading β
  | value f, r => r.map f
  | faulty d ds, r => faulty d (ds ++ r.details)

instance : Functor Reading where map := map

instance : Applicative Reading where
  pure := value
  seq f r := seq f (r ())

def under {α : Type} (s : Step) : Reading α → Reading α
  | value a => value a
  | faulty d ds =>
    let deeper (d : Detail) : Detail := { d with place := s :: d.place }
    faulty (deeper d) (ds.map deeper)

@[simp]
theorem details_value {α : Type} (a : α) : (value a).details = [] := rfl

@[simp]
theorem details_map {α β : Type} (f : α → β) (r : Reading α) : (f <$> r).details = r.details := by
  cases r <;> rfl

@[simp]
theorem details_seq {α β : Type} (f : Reading (α → β)) (r : Reading α) :
    (f <*> r).details = f.details ++ r.details := by
  cases f with
  | value f => exact details_map f r
  | faulty d ds => rfl

@[simp]
theorem details_under {α : Type} (s : Step) (r : Reading α) :
    (under s r).details = r.details.map fun d => { d with place := s :: d.place } := by
  cases r <;> rfl

theorem map_eq_value_iff {α β : Type} {f : α → β} {r : Reading α} {b : β} :
    f <$> r = value b ↔ ∃ a, r = value a ∧ f a = b := by
  cases r <;> simp [Functor.map, map]

theorem seq_eq_value_iff {α β : Type} {f : Reading (α → β)} {r : Reading α} {b : β} :
    f <*> r = value b ↔ ∃ g a, f = value g ∧ r = value a ∧ g a = b := by
  cases f <;> cases r <;> simp [Seq.seq, seq, map]

theorem under_eq_value_iff {α : Type} {s : Step} {r : Reading α} {a : α} :
    under s r = value a ↔ r = value a := by
  cases r <;> simp [under]

def wrong {α : Type} (m : Mistake) (found : Json) : Reading α := faulty ⟨[], m, found⟩ []

def require {α : Type} (a : α) (ok : Bool) (m : Mistake) (found : Json) : Reading α :=
  if ok then value a else wrong m found

def toExcept {α : Type} : Reading α → Except (List Detail) α
  | value a => .ok a
  | faulty d ds => .error (d :: ds)

end Reading

abbrev Reader (α : Type) := Json → Reading α

namespace Reader
open Reading

def text : Reader Text
  | .str t => value t
  | j => wrong .notText j

def textWithin (least most : Nat) : Reader String
  | .str (.plain s) =>
    if s.length < least then wrong (.shortText least) (.str s)
    else if most < s.length then wrong (.longText most) (.str s)
    else value s
  | .str (.torn t) => wrong .notUnicode (.str (.torn t))
  | j => wrong .notText j

def keyword (word : String) : Reader Unit
  | .str (.plain s) => require () (s == word) (.notOneOf [word]) (.str s)
  | .str (.torn t) => wrong .notUnicode (.str (.torn t))
  | j => wrong (.notOneOf [word]) j

def object : Reader Json.Members
  | .obj ms => value ms
  | j => wrong .notObject j

/-- A reading of members with names that are all whole. A torn name is the only mistake of them. -/
def named {α : Type} (ms : Json.Members) (r : Reading α) : Reading α :=
  match ms.find? fun m => m.1.isTorn with
  | some m => wrong .notUnicode (.str m.1)
  | none => r

theorem named_of_whole {α : Type} {ms : Json.Members} (h : ∀ m ∈ ms, m.1.isTorn = false)
    (r : Reading α) : named ms r = r := by
  have hnone : (ms.find? fun m => m.1.isTorn) = none :=
    List.find?_eq_none.2 fun m hm => by rw [h m hm]; exact Bool.false_ne_true
  rw [named, hnone]

theorem named_eq_value_iff {α : Type} {ms : Json.Members} {r : Reading α} {a : α} :
    named ms r = value a ↔ (∀ m ∈ ms, m.1.isTorn = false) ∧ r = value a := by
  by_cases h : ∀ m ∈ ms, m.1.isTorn = false
  · rw [named_of_whole h, and_iff_right h]
  · refine iff_of_false (fun hvalue => ?_) fun hboth => h hboth.1
    cases hfind : ms.find? fun m => m.1.isTorn with
    | none =>
      exact h fun m hm => Bool.eq_false_iff.2 (List.find?_eq_none.1 hfind m hm)
    | some m =>
      rw [named, hfind] at hvalue
      cases hvalue

def number : Reader Double
  | .double d => value d
  | .bool b => value (if b then .one else .zero)
  | .int n =>
    match Double.ofInt? n with
    | some d => value d
    | none => wrong .notNumber (.int n)
  | .str (.plain s) =>
    match Numeral.narrowDouble? s with
    | some d => value d
    | none => wrong .unreadableNumber (.str s)
  | .str (.torn t) => wrong .notUnicode (.str (.torn t))
  | j => wrong .notNumber j

def numberFrom (least : Nat) (j : Json) : Reading Double :=
  match number j with
  | value d => require d ((Double.ofInt least).le d) (.below (toString least)) j
  | r => r

/-- A number between two bounds, the upper of which is tested first. -/
def numberBetween (least most : Nat) (j : Json) : Reading Double :=
  match number j with
  | value d =>
    if !d.le (.ofInt most) then wrong (.above (toString most)) j
    else require d ((Double.ofInt least).le d) (.below (toString least)) j
  | r => r

def positiveNumber (j : Json) : Reading Double :=
  match number j with
  | value d => require d (Double.zero.lt d) (.notAbove "0") j
  | r => r

def wordBound : Int := twoTo 63

/-- A whole number in a binary64 value or in a numeral is one of a fixed width. -/
def integer : Reader Int
  | .int n => value n
  | .bool b => value (if b then 1 else 0)
  | .double d =>
    match d.truncate? with
    | none => wrong .infiniteInteger (.double d)
    | some n =>
      if !d.isWhole then wrong .fractionalInteger (.double d)
      else require n (decide (-wordBound < n ∧ n < wordBound)) .longInteger (.double d)
  | .str (.plain s) =>
    match Numeral.narrowInt s with
    | .ok n => value n
    | .error .tooLong => wrong .longInteger (.str s)
    | .error .unreadable => wrong .unreadableInteger (.str s)
  | .str (.torn t) => wrong .notUnicode (.str (.torn t))
  | j => wrong .notInteger j

def truthWord? (s : String) : Option Bool :=
  match String.ofList (Numeral.lowerAscii s.toList) with
  | "1" | "on" | "t" | "true" | "y" | "yes" => some true
  | "0" | "off" | "f" | "false" | "n" | "no" => some false
  | _ => none

def truthOfInt? (n : Int) : Option Bool :=
  if n = 0 then some false else if n = 1 then some true else none

/-- A truth value, or a number or a word that stands for one; a number that no whole number of a
fixed width is equal to does not stand for anything. -/
def boolean : Reader Bool
  | .bool b => value b
  | .str (.plain s) =>
    match truthWord? s with
    | some b => value b
    | none => wrong .unreadableBoolean (.str s)
  | .str (.torn t) => wrong .notUnicode (.str (.torn t))
  | .int n =>
    match truthOfInt? n with
    | some b => value b
    | none => wrong (if -wordBound ≤ n ∧ n < wordBound then .unreadableBoolean else .notBoolean)
        (.int n)
  | .double d =>
    match d.truncate? with
    | none => wrong .notBoolean (.double d)
    | some n =>
      if d.isWhole && decide (-wordBound < n ∧ n < wordBound) then
        match truthOfInt? n with
        | some b => value b
        | none => wrong .unreadableBoolean (.double d)
      else wrong .notBoolean (.double d)
  | j => wrong .notBoolean j

def optional {α : Type} (r : Reader α) : Reader (Option α)
  | .null => value none
  | j => (r j).map some

theorem details_optional {α : Type} {r : Reader α} {j : Json} (hj : j ≠ .null) :
    (optional r j).details = (r j).details := by
  cases j with
  | null => exact absurd rfl hj
  | _ => exact details_map _ _

def itemsFrom {α : Type} (r : Reader α) : Nat → List Json → Reading (List α)
  | _, [] => value []
  | i, j :: js => List.cons <$> under (.index i) (r j) <*> itemsFrom r (i + 1) js

def list {α : Type} (r : Reader α) : Reader (List α)
  | .arr js => itemsFrom r 0 js
  | j => wrong .notList j

def someItems {α : Type} (r : Reader α) : Reader (List α)
  | .arr [] => wrong .noItems (.arr [])
  | j => list r j

def field {α : Type} (ms : Json.Members) (key : String) (r : Reader α) : Reading α :=
  under (.key key) <|
    match Json.find? ms key with
    | some j => r j
    | none => wrong .missing (.obj ms)

def fieldOr {α : Type} (ms : Json.Members) (key : String) (default : α) (r : Reader α) :
    Reading α :=
  match Json.find? ms key with
  | some j => under (.key key) (r j)
  | none => value default

def fieldOrNull {α : Type} (ms : Json.Members) (key : String) (r : Reader α) :
    Reading (Option α) :=
  fieldOr ms key none (optional r)

end Reader

end StrategyDesk
