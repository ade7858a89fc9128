import EditorRpc.Text.CharClass
import EditorRpc.Text.Utf8

/-!
Lines of a header block. A line matters if it is blank, which ends the block, or if it gives the
length of the body; all other lines are passed over.
-/

set_option autoImplicit false
set_option relaxedAutoImplicit false

namespace EditorRpc.Frame

def lengthName : List Char :=
  ['C', 'o', 'n', 't', 'e', 'n', 't', '-', 'L', 'e', 'n', 'g', 't', 'h']

/-- One more than the greatest length that can be said, which is a word of 64 bits. -/
def lengthBound : Nat := 18446744073709551616

inductive LengthText
  | number (n : Nat)
  /-- The digits so far are a number of `lengthBound` or more. -/
  | overflow
  | invalid
deriving DecidableEq, Repr

/-- Digits that continue a number, from left to right: whatever is met first decides. -/
def readDigits (n : Nat) : List Char → LengthText
  | [] => .number n
  | c :: rest =>
    if c.isDigit then
      let longer := 10 * n + (c.toNat - 0x30)
      if longer < lengthBound then readDigits longer rest else .overflow
    else .invalid

/-- A number: at most one plus sign and at least one digit. -/
def readLength (text : List Char) : LengthText :=
  let digits :=
    match text with
    | '+' :: rest => rest
    | _ => text
  if digits.isEmpty then .invalid else readDigits 0 digits

/-- The value of a length header: the text after the name without colons and blanks in front, and
without blanks at the end. -/
def lengthValue? (line : Bytes) : Option (List Char) :=
  let name := Utf8.encode lengthName
  if name.isPrefixOf line then
    let text := Utf8.decodeLossy (line.drop name.length)
    some (Text.dropEndWhile Text.isBlank (text.dropWhile fun c => c = ':' || Text.isBlank c))
  else none

inductive HeaderLine
  | blank
  | length (n : Nat)
  | oversize (value : String)
  | other
deriving DecidableEq, Repr

def withoutReturn (line : Bytes) : Bytes :=
  if line.getLast? = some 0x0D then line.dropLast else line

/-- The meaning of a line, its line feed already removed, where a body may have `limit` bytes. -/
def HeaderLine.ofBytes (limit : Nat) (line : Bytes) : HeaderLine :=
  let line := withoutReturn line
  if line.isEmpty then .blank
  else
    match lengthValue? line with
    | none => .other
    | some value =>
      match readLength value with
      | .number n => if n ≤ limit then .length n else .oversize (String.ofList value)
      | .overflow => .oversize (String.ofList value)
      | .invalid => .other

end EditorRpc.Frame
