import StrategyDesk.Text.Points

/-!
The text that bytes write. The encoding is told by a byte order mark, or else by where zeros stand
among the first bytes, as they do in every wide encoding of a text that starts with ASCII
characters; without either it is UTF-8. Halves of surrogate pairs are let through wherever they
stand alone.
-/

set_option autoImplicit false

namespace StrategyDesk.Text

def highSurrogate (n : Nat) : Bool := 0xD800 ≤ n && n ≤ 0xDBFF
def lowSurrogate (n : Nat) : Bool := 0xDC00 ≤ n && n ≤ 0xDFFF

def pairChar (high low : Nat) : Char :=
  Char.ofNat (0x10000 + (high - 0xD800) * 0x400 + (low - 0xDC00))

inductive ByteOrder where
  | big | little
  deriving DecidableEq, Repr

inductive Encoding where
  | utf8
  | utf16 (order : ByteOrder)
  | utf32 (order : ByteOrder)
  deriving DecidableEq, Repr

def ByteOrder.number (order : ByteOrder) (bytes : List UInt8) : Nat :=
  let digits := match order with
    | .big => bytes
    | .little => bytes.reverse
  digits.foldl (fun n b => n * 256 + b.toNat) 0

def unmarkedEncoding : List UInt8 → Encoding
  | a :: b :: c :: d :: _ =>
    if a = 0 then if b = 0 then .utf32 .big else .utf16 .big
    else if b = 0 then if c = 0 ∧ d = 0 then .utf32 .little else .utf16 .little
    else .utf8
  | [a, b] => if a = 0 then .utf16 .big else if b = 0 then .utf16 .little else .utf8
  | _ => .utf8

def encodingOf : List UInt8 → Encoding × List UInt8
  | 0x00 :: 0x00 :: 0xFE :: 0xFF :: rest => (.utf32 .big, rest)
  | 0xFF :: 0xFE :: 0x00 :: 0x00 :: rest => (.utf32 .little, rest)
  | 0xFE :: 0xFF :: rest => (.utf16 .big, rest)
  | 0xFF :: 0xFE :: rest => (.utf16 .little, rest)
  | 0xEF :: 0xBB :: 0xBF :: rest => (.utf8, rest)
  | bytes => (unmarkedEncoding bytes, bytes)

def units16? (order : ByteOrder) : List UInt8 → Option (List Nat)
  | [] => some []
  | a :: b :: rest => (units16? order rest).map (order.number [a, b] :: ·)
  | _ => none

/-- The code points of code units, of which two may write one character. -/
def pointsOfUnits : List Nat → List CodePoint
  | [] => []
  | high :: low :: rest =>
    if highSurrogate high && lowSurrogate low then .char (pairChar high low) :: pointsOfUnits rest
    else .ofNat high :: pointsOfUnits (low :: rest)
  | [unit] => [.ofNat unit]

def points32? (order : ByteOrder) : List UInt8 → Option (List CodePoint)
  | [] => some []
  | a :: b :: c :: d :: rest =>
    let n := order.number [a, b, c, d]
    if n ≤ 0x10FFFF then (points32? order rest).map (.ofNat n :: ·) else none
  | _ => none

/-- A half of a surrogate pair in three bytes. -/
def half8? : List UInt8 → Option CodePoint
  | 0xED :: b :: c :: _ =>
    if 0xA0 ≤ b ∧ b ≤ 0xBF ∧ 0x80 ≤ c ∧ c ≤ 0xBF then
      some (.ofNat (0xD000 + (b.toNat - 0x80) * 0x40 + (c.toNat - 0x80)))
    else none
  | _ => none

/-- The code points of bytes in UTF-8 that may also write halves. -/
def points8? (bytes : List UInt8) : Option (List CodePoint) :=
  match bytes with
  | [] => some []
  | a :: rest =>
    match half8? (a :: rest) with
    | some h => (points8? (rest.drop 2)).map (h :: ·)
    | none =>
      match ByteArray.utf8DecodeChar? ⟨(a :: rest).toArray⟩ 0 with
      | some c => (points8? (rest.drop (c.utf8Size - 1))).map (.char c :: ·)
      | none => none
termination_by bytes.length
decreasing_by all_goals (simp only [List.length_drop, List.length_cons]; omega)

def Encoding.decode? (bytes : List UInt8) : Encoding → Option (List CodePoint)
  | .utf8 =>
    match String.fromUTF8? ⟨bytes.toArray⟩ with
    | some s => some (s.toList.map .char)
    | none => points8? bytes
  | .utf16 order => (units16? order bytes).map pointsOfUnits
  | .utf32 order => points32? order bytes

def textOf? (bytes : ByteArray) : Option (List CodePoint) :=
  let (encoding, content) := encodingOf bytes.toList
  encoding.decode? content

/-! ### Texts in UTF-8 -/

theorem toList_loop (bytes : ByteArray) (i : Nat) (seen : List UInt8) :
    ByteArray.toList.loop bytes i seen = seen.reverse ++ bytes.data.toList.drop i := by
  fun_induction ByteArray.toList.loop bytes i seen with
  | case1 i seen h ih =>
    have hi : i < bytes.data.toList.length := by simpa using h
    have hget : bytes.get! i = bytes.data.toList[i] := by
      rw [ByteArray.get!, getElem!_pos bytes.data i hi, Array.getElem_toList]
    rw [ih, List.drop_eq_getElem_cons hi, List.reverse_cons, List.append_assoc, hget]
    rfl
  | case2 i seen h =>
    have hi : bytes.data.toList.length ≤ i := by simpa using h
    rw [List.drop_eq_nil_of_le hi, List.append_nil]

theorem toList_eq (bytes : ByteArray) : bytes.toList = bytes.data.toList := by
  rw [ByteArray.toList, toList_loop]
  rfl

theorem fromUTF8?_utf8Encode (cs : List Char) :
    String.fromUTF8? cs.utf8Encode = some (String.ofList cs) := by
  have hvalid : cs.utf8Encode.IsValidUTF8 := ByteArray.isValidUTF8_utf8Encode
  rw [String.fromUTF8?, dif_pos hvalid]
  rfl

theorem encodingOf_ascii {x y : UInt8} (rest : List UInt8) (hx : x ≠ 0) (hlow : x < 0x80)
    (hy : y ≠ 0) : encodingOf (x :: y :: rest) = (.utf8, x :: y :: rest) := by
  have hmark : x ≠ 0xFF ∧ x ≠ 0xFE ∧ x ≠ 0xEF := by
    refine ⟨?_, ?_, ?_⟩ <;> (rintro rfl; exact absurd hlow (by decide))
  have hplain : unmarkedEncoding (x :: y :: rest) = .utf8 := by
    cases rest with
    | nil => simp [unmarkedEncoding, hx, hy]
    | cons z rest => cases rest <;> simp [unmarkedEncoding, hx, hy]
  unfold encodingOf
  split <;> simp_all

theorem textOf?_utf8Encode {c d : Char} {x y : UInt8} (cs : List Char)
    (hc : String.utf8EncodeChar c = [x]) (hd : String.utf8EncodeChar d = [y]) (hx : x ≠ 0)
    (hlow : x < 0x80) (hy : y ≠ 0) :
    textOf? (c :: d :: cs).utf8Encode = some ((c :: d :: cs).map .char) := by
  have hbytes : (c :: d :: cs).utf8Encode.toList = x :: y :: cs.flatMap String.utf8EncodeChar := by
    simp [toList_eq, List.utf8Encode, hc, hd]
  have hencoding := encodingOf_ascii (cs.flatMap String.utf8EncodeChar) hx hlow hy
  rw [← hbytes] at hencoding
  have hback : (⟨(c :: d :: cs).utf8Encode.toList.toArray⟩ : ByteArray) =
      (c :: d :: cs).utf8Encode := by
    rw [toList_eq]
  rw [textOf?, hencoding]
  simp only [Encoding.decode?, hback, fromUTF8?_utf8Encode, String.toList_ofList]

example : unmarkedEncoding [0x7B, 0x00, 0x7D, 0x00] = .utf16 .little := by decide
example : (Encoding.utf16 .big).decode? [0xD8, 0x3D, 0xDE, 0x00] = some [.char '😀'] := by
  decide +kernel
example : points8? [0x61, 0xED, 0xA0, 0x80] = some [.char 'a', .half 0] := by decide +kernel

end StrategyDesk.Text
