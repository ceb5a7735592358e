import EightBit.Numeral

/-!
# Reading UTF-8

A file is read as UTF-8. What is wrong with an ill-formed one is reported at the first byte of the
first ill-formed sequence, together with the well-formed bytes that begin it.

## Definitions

- `Utf8Error`: where decoding stopped and why.
- `decodeUtf8`: the characters of a byte string, or the first error.
-/

namespace EightBit.Text

/-- What is wrong with a sequence of bytes. -/
inductive Utf8Defect
  | invalidStart
  | invalidContinuation
  | unexpectedEnd
  deriving DecidableEq, Repr

/-- The wording of a defect. -/
def Utf8Defect.text : Utf8Defect → String
  | .invalidStart => "invalid start byte"
  | .invalidContinuation => "invalid continuation byte"
  | .unexpectedEnd => "unexpected end of data"

/-- The first ill-formed sequence: its position, its first byte and the number of its bytes. -/
structure Utf8Error where
  position : Nat
  first : UInt8
  length : Nat
  defect : Utf8Defect
  deriving DecidableEq, Repr

/-- The wording names the byte if there is one, and the range of positions if there are more. -/
def Utf8Error.message (e : Utf8Error) : String :=
  let place :=
    if e.length = 1 then
      "byte " ++ String.ofList (Numeral.write 16 4 ['0', 'x'] e.first.toNat) ++
        " in position " ++ toString e.position
    else
      "bytes in position " ++ toString e.position ++ "-" ++ toString (e.position + e.length - 1)
  "'utf-8' codec can't decode " ++ place ++ ": " ++ e.defect.text

/-- The byte continues a sequence. -/
def isContinuation (b : UInt8) : Bool :=
  0x80 ≤ b && b < 0xC0

/-- The second byte of a sequence keeps out surrogates, overlong forms and too large numbers. -/
def isSecond (lead second : UInt8) : Bool :=
  isContinuation second &&
    (lead != 0xE0 || 0xA0 ≤ second) && (lead != 0xED || second < 0xA0) &&
    (lead != 0xF0 || 0x90 ≤ second) && (lead != 0xF4 || second < 0x90)

/-- The number of bytes that a leading byte announces, or `none` if no sequence starts with it. -/
def sequenceLength? (lead : UInt8) : Option Nat :=
  if lead < 0x80 then some 1
  else if lead < 0xC2 then none
  else if lead < 0xE0 then some 2
  else if lead < 0xF0 then some 3
  else if lead < 0xF5 then some 4
  else none

/-- How many of the bytes after a leading byte continue it properly, of `count` that should. -/
def goodContinuations (lead : UInt8) (count : Nat) (rest : List UInt8) : Nat :=
  match rest with
  | [] => 0
  | second :: others =>
    if isSecond lead second then 1 + ((others.take (count - 1)).takeWhile isContinuation).length
    else 0

/-- The code point of a sequence, from its leading byte and the bytes that continue it. -/
def codePoint (lead : UInt8) (count : Nat) (rest : List UInt8) : Nat :=
  let head := if count = 0 then lead.toNat else lead.toNat % Nat.pow 2 (6 - count)
  rest.foldl (fun code b => code * 64 + b.toNat % 64) head

/-- The characters of the bytes from `position` on. -/
def decodeUtf8From (position : Nat) (bytes : List UInt8) : Except Utf8Error (List Char) :=
  match bytes with
  | [] => .ok []
  | lead :: rest =>
    match sequenceLength? lead with
    | none => .error ⟨position, lead, 1, .invalidStart⟩
    | some size =>
      let count := size - 1
      let good := if count = 0 then 0 else goodContinuations lead count rest
      if good = count then do
        let char := Char.ofNat (codePoint lead count (rest.take count))
        return char :: (← decodeUtf8From (position + size) (rest.drop count))
      else if rest.length = good then .error ⟨position, lead, 1 + good, .unexpectedEnd⟩
      else .error ⟨position, lead, 1 + good, .invalidContinuation⟩
termination_by bytes.length
decreasing_by simp only [List.length_drop, List.length_cons]; omega

/-- The characters of a byte string. -/
def decodeUtf8 (bytes : List UInt8) : Except Utf8Error (List Char) :=
  decodeUtf8From 0 bytes

end EightBit.Text
