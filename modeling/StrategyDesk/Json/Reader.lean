import StrategyDesk.Json.Basic
import StrategyDesk.Number.Decimal
import StrategyDesk.Text.Digit
import StrategyDesk.Text.Encoding

/-!
Reading JSON text. Beyond the standard the reader takes `NaN`, `Infinity` and `-Infinity`; of two
members of one name the later gives the value. Arrays and objects stand in one another up to a
number of levels. A mistake is placed by the number of code points that are left from it to the end
of the text. Every step returns a strictly shorter rest.
-/

set_option autoImplicit false

namespace StrategyDesk.Json
open Text

/-- Why a text is no JSON value: a mistake with so many characters left, a whole number with too
many digits, or too many levels. -/
inductive ReadError where
  | mistake (left : Nat)
  | longNumeral
  | tooDeep
  deriving DecidableEq, Repr

abbrev Rest (s : List CodePoint) := { r : List CodePoint // r.length < s.length }

def maxIntDigits : Nat := 4300

def isGap (c : CodePoint) : Bool := c == ' ' || c == '\t' || c == '\n' || c == '\r'

def skipGaps (s : List CodePoint) : List CodePoint := s.dropWhile isGap

theorem length_skipGaps_le (s : List CodePoint) : (skipGaps s).length ≤ s.length :=
  (List.dropWhile_sublist isGap).length_le

def isAsciiDigit (c : CodePoint) : Bool := 0x30 ≤ c.toNat && c.toNat ≤ 0x39

theorem length_dropWhile_lt {p : CodePoint → Bool} {c : CodePoint} {s : List CodePoint}
    (h : p c = true) : ((c :: s).dropWhile p).length < (c :: s).length := by
  have := (List.dropWhile_sublist (l := s) p).length_le
  simp only [List.dropWhile_cons, h, ↓reduceIte, List.length_cons]
  omega

def digitsValue (ds : List CodePoint) : Nat := ofDigits 10 (ds.map fun c => c.toNat - 48)

def hexDigit? : CodePoint → Option Nat
  | .char c => Text.hexDigit? c
  | .half _ => none

def unit? : List CodePoint → Option (Nat × List CodePoint)
  | a :: b :: c :: d :: e :: rest => do
    let a ← hexDigit? a
    let b ← hexDigit? b
    let c ← hexDigit? c
    let d ← hexDigit? d
    some (((a * 16 + b) * 16 + c) * 16 + d, e :: rest)
  | _ => none

theorem length_lt_of_unit? {s rest : List CodePoint} {n : Nat} (h : unit? s = some (n, rest)) :
    rest.length < s.length := by
  match s, h with
  | a :: b :: c :: d :: e :: r, h =>
    simp only [unit?, Option.bind_eq_bind, Option.bind_eq_some_iff, Option.some.injEq,
      Prod.mk.injEq] at h
    obtain ⟨_, _, _, _, _, _, _, _, _, rfl⟩ := h
    simp only [List.length_cons]
    omega
  | [], h => simp [unit?] at h
  | [_], h => simp [unit?] at h
  | [_, _], h => simp [unit?] at h
  | [_, _, _], h => simp [unit?] at h
  | [_, _, _, _], h => simp [unit?] at h

def plainEscape? (c : CodePoint) : Option Char :=
  match c with
  | .char '"' => some '"'
  | .char '\\' => some '\\'
  | .char '/' => some '/'
  | .char 'b' => some '\x08'
  | .char 'f' => some '\x0c'
  | .char 'n' => some '\n'
  | .char 'r' => some '\r'
  | .char 't' => some '\t'
  | _ => none

/-- A code unit escape from after its `u`, with the second half of a surrogate pair. -/
def unicodeEscape (s : List CodePoint) : Except ReadError (CodePoint × Rest s) :=
  match h : unit? s with
  | none => .error (.mistake (s.length + 1))
  | some (n, rest) =>
    have hr := length_lt_of_unit? h
    let alone : Except ReadError (CodePoint × Rest s) := .ok (.ofNat n, ⟨rest, hr⟩)
    match hs : rest with
    | .char '\\' :: .char 'u' :: more =>
      if highSurrogate n ∧ more.length > 4 then
        match hm : unit? more with
        | none => .error (.mistake (more.length + 1))
        | some (low, rest') =>
          if lowSurrogate low then
            .ok (.char (pairChar n low), ⟨rest', by
              have := length_lt_of_unit? hm
              simp only [List.length_cons] at hr
              omega⟩)
          else alone
      else alone
    | _ => alone

/-- A string from after its opening quote, which had `quote` characters left. -/
def stringBody (quote : Nat) (s : List CodePoint) : Except ReadError (List CodePoint × Rest s) :=
  match s with
  | [] => .error (.mistake quote)
  | .char '"' :: r => .ok ([], ⟨r, by simp⟩)
  | .char '\\' :: [] => .error (.mistake quote)
  | .char '\\' :: .char 'u' :: r =>
    match unicodeEscape r with
    | .error e => .error e
    | .ok (c, ⟨rest, hr⟩) =>
      match stringBody quote rest with
      | .error e => .error e
      | .ok (cs, ⟨left, hl⟩) => .ok (c :: cs, ⟨left, by simp only [List.length_cons]; omega⟩)
  | .char '\\' :: e :: r =>
    match plainEscape? e with
    | none => .error (.mistake (r.length + 2))
    | some c =>
      match stringBody quote r with
      | .error e => .error e
      | .ok (cs, ⟨left, hl⟩) => .ok (.char c :: cs, ⟨left, by simp only [List.length_cons]; omega⟩)
  | c :: r =>
    if c.toNat < 0x20 then .error (.mistake (r.length + 1))
    else
      match stringBody quote r with
      | .error e => .error e
      | .ok (cs, ⟨left, hl⟩) => .ok (c :: cs, ⟨left, by simp only [List.length_cons]; omega⟩)
termination_by s.length
decreasing_by all_goals simp only [List.length_cons]; omega

def fractionPart : List CodePoint → List CodePoint × List CodePoint
  | .char '.' :: d :: r =>
    if isAsciiDigit d then ((d :: r).takeWhile isAsciiDigit, (d :: r).dropWhile isAsciiDigit)
    else ([], .char '.' :: d :: r)
  | s => ([], s)

theorem length_fractionPart_le (s : List CodePoint) : (fractionPart s).2.length ≤ s.length := by
  unfold fractionPart
  split
  · rename_i d r
    split
    · have := (List.dropWhile_sublist (l := d :: r) isAsciiDigit).length_le
      simp only [List.length_cons] at *
      omega
    · exact Nat.le_refl _
  · exact Nat.le_refl _

def signedDigits (s : List CodePoint) : Option (Int × List CodePoint) :=
  let (negative, t) : Bool × List CodePoint := match s with
    | .char '-' :: t => (true, t)
    | .char '+' :: t => (false, t)
    | t => (false, t)
  match t.takeWhile isAsciiDigit with
  | [] => none
  | ds => let n : Int := digitsValue ds; some (if negative then -n else n, t.dropWhile isAsciiDigit)

theorem length_signedDigits_le {s rest : List CodePoint} {n : Int}
    (h : signedDigits s = some (n, rest)) : rest.length ≤ s.length := by
  unfold signedDigits at h
  simp only at h
  split at h
  · simp at h
  · simp only [Option.some.injEq, Prod.mk.injEq] at h
    obtain ⟨_, rfl⟩ := h
    refine Nat.le_trans (List.dropWhile_sublist isAsciiDigit).length_le ?_
    split <;> simp

def exponentPart : List CodePoint → Option Int × List CodePoint
  | c :: r =>
    if c = 'e' ∨ c = 'E' then
      match signedDigits r with
      | some (n, rest) => (some n, rest)
      | none => (none, c :: r)
    else (none, c :: r)
  | [] => (none, [])

theorem length_exponentPart_le (s : List CodePoint) : (exponentPart s).2.length ≤ s.length := by
  unfold exponentPart
  split
  · split
    · split
      · rename_i h
        have := length_signedDigits_le h
        simp only [List.length_cons]
        omega
      · exact Nat.le_refl _
    · exact Nat.le_refl _
  · exact Nat.le_refl _

def wholePart (s : List CodePoint) : Option (List CodePoint × Rest s) :=
  match s with
  | [] => none
  | c :: r =>
    if c = '0' then some (['0'], ⟨r, by simp⟩)
    else if h : isAsciiDigit c = true then
      some ((c :: r).takeWhile isAsciiDigit,
        ⟨(c :: r).dropWhile isAsciiDigit, length_dropWhile_lt h⟩)
    else none

def unsignedNumber (negative : Bool) (s : List CodePoint) :
    Option (Except ReadError (Json × Rest s)) :=
  match wholePart s with
  | none => none
  | some (whole, ⟨rest, hr⟩) =>
    let frac := fractionPart rest
    let expo := exponentPart frac.2
    have hf : frac.2.length ≤ rest.length := length_fractionPart_le rest
    have he : expo.2.length ≤ frac.2.length := length_exponentPart_le frac.2
    if frac.1 = [] ∧ expo.1 = none then
      if whole.length > maxIntDigits then some (.error .longNumeral)
      else
        let n : Int := digitsValue whole
        some (.ok (.int (if negative then -n else n), ⟨expo.2, by omega⟩))
    else
      let d : Decimal := ⟨negative, digitsValue (whole ++ frac.1), expo.1.getD 0 - frac.1.length⟩
      some (.ok (.double d.toDouble, ⟨expo.2, by omega⟩))

def word? (s : List CodePoint) (w : List CodePoint) (v : Json) (hw : w ≠ []) :
    Option (Json × Rest s) :=
  match h : dropPrefix? s w with
  | none => none
  | some rest => some (v, ⟨rest, by
      have e := eq_append_of_dropPrefix? h
      have : 0 < w.length := List.length_pos_iff.2 hw
      simp only [e, List.length_append]
      omega⟩)

def scalar (s : List CodePoint) : Except ReadError (Json × Rest s) :=
  match word? s ['n', 'u', 'l', 'l'] .null (by simp) with
  | some r => .ok r
  | none =>
  match word? s ['t', 'r', 'u', 'e'] (.bool true) (by simp) with
  | some r => .ok r
  | none =>
  match word? s ['f', 'a', 'l', 's', 'e'] (.bool false) (by simp) with
  | some r => .ok r
  | none =>
  match word? s ['N', 'a', 'N'] (.double .nan) (by simp) with
  | some r => .ok r
  | none =>
  match word? s ['I', 'n', 'f', 'i', 'n', 'i', 't', 'y'] (.double (.infinite false)) (by simp) with
  | some r => .ok r
  | none =>
  match word? s ['-', 'I', 'n', 'f', 'i', 'n', 'i', 't', 'y'] (.double (.infinite true))
    (by simp) with
  | some r => .ok r
  | none =>
  match s with
  | .char '-' :: r =>
    match unsignedNumber true r with
    | none => .error (.mistake (r.length + 1))
    | some (.error e) => .error e
    | some (.ok (v, ⟨rest, hr⟩)) => .ok (v, ⟨rest, by simp only [List.length_cons]; omega⟩)
  | r =>
    match unsignedNumber false r with
    | none => .error (.mistake r.length)
    | some result => result

mutual
/-- The value at the front of a text, with so many levels of arrays and objects at most. -/
def value (levels : Nat) (s : List CodePoint) : Except ReadError (Json × Rest s) :=
  match s with
  | .char '"' :: r =>
    match stringBody (r.length + 1) r with
    | .error e => .error e
    | .ok (cs, ⟨rest, hr⟩) =>
      .ok (.str (.ofPoints cs), ⟨rest, by simp only [List.length_cons]; omega⟩)
  | .char '[' :: r =>
    if levels = 0 then .error .tooDeep else
    have hs := length_skipGaps_le r
    match ht : skipGaps r with
    | .char ']' :: u => .ok (.arr [], ⟨u, by
        rw [ht] at hs; simp only [List.length_cons] at *; omega⟩)
    | t =>
      match items (levels - 1) t with
      | .error e => .error e
      | .ok (js, ⟨rest, hr⟩) => .ok (.arr js, ⟨rest, by
          rw [ht] at hs; simp only [List.length_cons]; omega⟩)
  | .char '{' :: r =>
    if levels = 0 then .error .tooDeep else
    have hs := length_skipGaps_le r
    match ht : skipGaps r with
    | .char '}' :: u => .ok (.obj [], ⟨u, by
        rw [ht] at hs; simp only [List.length_cons] at *; omega⟩)
    | t =>
      match members (levels - 1) [] t with
      | .error e => .error e
      | .ok (ms, ⟨rest, hr⟩) => .ok (.obj ms, ⟨rest, by
          rw [ht] at hs; simp only [List.length_cons]; omega⟩)
  | r => scalar r
termination_by 2 * s.length
decreasing_by
  all_goals (rw [ht] at hs; simp only [List.length_cons]; omega)

def items (levels : Nat) (s : List CodePoint) : Except ReadError (List Json × Rest s) :=
  match value levels s with
  | .error e => .error e
  | .ok (j, ⟨rest, hr⟩) =>
    have hs := length_skipGaps_le rest
    match ht : skipGaps rest with
    | .char ']' :: u => .ok ([j], ⟨u, by rw [ht] at hs; simp only [List.length_cons] at hs; omega⟩)
    | .char ',' :: u =>
      have hu := length_skipGaps_le u
      match items levels (skipGaps u) with
      | .error e => .error e
      | .ok (js, ⟨left, hl⟩) => .ok (j :: js, ⟨left, by
          rw [ht] at hs; simp only [List.length_cons] at hs; omega⟩)
    | t => .error (.mistake t.length)
termination_by 2 * s.length + 1
decreasing_by
  · omega
  · rw [ht] at hs; simp only [List.length_cons] at hs; omega

def members (levels : Nat) (seen : Members) (s : List CodePoint) :
    Except ReadError (Members × Rest s) :=
  match s with
  | .char '"' :: r =>
    match stringBody (r.length + 1) r with
    | .error e => .error e
    | .ok (cs, ⟨afterName, hn⟩) =>
      have hc := length_skipGaps_le afterName
      match hcolon : skipGaps afterName with
      | .char ':' :: t =>
        have hv := length_skipGaps_le t
        match value levels (skipGaps t) with
        | .error e => .error e
        | .ok (j, ⟨rest, hr⟩) =>
          let seen := put seen (.ofPoints cs) j
          have hs := length_skipGaps_le rest
          match ht : skipGaps rest with
          | .char '}' :: u => .ok (seen, ⟨u, by
              rw [ht] at hs; rw [hcolon] at hc; simp only [List.length_cons] at *; omega⟩)
          | .char ',' :: u =>
            have hu := length_skipGaps_le u
            match members levels seen (skipGaps u) with
            | .error e => .error e
            | .ok (ms, ⟨left, hl⟩) => .ok (ms, ⟨left, by
                rw [ht] at hs; rw [hcolon] at hc; simp only [List.length_cons] at *; omega⟩)
          | t => .error (.mistake t.length)
      | t => .error (.mistake t.length)
  | t => .error (.mistake t.length)
termination_by 2 * s.length + 1
decreasing_by
  · rw [hcolon] at hc; simp only [List.length_cons] at *; omega
  · rw [ht] at hs; rw [hcolon] at hc; simp only [List.length_cons] at *; omega
end

def readPoints (levels : Nat) (s : List CodePoint) : Except ReadError Json :=
  match value levels (skipGaps s) with
  | .error e => .error e
  | .ok (j, ⟨rest, _⟩) =>
    match skipGaps rest with
    | [] => .ok j
    | t => .error (.mistake t.length)

def readChars (levels : Nat) (cs : List Char) : Except ReadError Json :=
  readPoints levels (cs.map .char)

/-- The value that a text holds; a byte order mark in front is a mistake at the start. -/
def read (levels : Nat) (s : String) : Except ReadError Json :=
  match s.toList with
  | '\uFEFF' :: r => .error (.mistake (r.length + 1))
  | cs => readChars levels cs

end StrategyDesk.Json
