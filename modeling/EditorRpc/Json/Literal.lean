import EditorRpc.Json.Syntax

/-!
String literals of JSON text, from after the opening quote on. Octets are gathered up to the closing
quote with the escapes resolved; only then is it checked that they are UTF-8.
-/

set_option autoImplicit false
set_option relaxedAutoImplicit false

namespace EditorRpc.Json.Read

def hexValue (b : UInt8) : Option Nat :=
  let n := b.toNat
  if 0x30 ≤ n && n < 0x3A then some (n - 0x30)
  else if 0x41 ≤ n && n < 0x47 then some (n - 0x41 + 10)
  else if 0x61 ≤ n && n < 0x67 then some (n - 0x61 + 10)
  else none

/-- Four hexadecimal digits, all consumed before any is looked at. -/
def fourHex : Parser Nat
  | a :: b :: c :: d :: r =>
    match hexValue a, hexValue b, hexValue c, hexValue d with
    | some x, some y, some z, some w =>
      .ok ⟨((x * 16 + y) * 16 + z) * 16 + w, r, by simp only [List.length_cons]; omega⟩
    | _, _, _, _ => .error (.here .invalidEscape r)
  | _ => .error (.here .endInString [])

def isHighSurrogate (n : Nat) : Bool :=
  0xD800 ≤ n && n < 0xDC00

def isLowSurrogate (n : Nat) : Bool :=
  0xDC00 ≤ n && n < 0xE000

/-- The backslash and the letter that announce the second half of a pair, both still unread. -/
def secondMark : Parser Unit
  | [] => .error (.here .endInString [])
  | a :: r =>
    if a = 0x5C then
      match r with
      | [] => .error (.here .endInString [])
      | b :: t =>
        if b = 0x75 then .ok ⟨(), t, length_lt_cons_cons a b t⟩
        else .error (.here .secondSurrogateExpected t)
    else .error (.here .secondSurrogateExpected r)

/-- The character of a numeric escape, from after the letter on. One beyond the first 65536 is written
as a pair of surrogates. -/
def numericEscape : Parser Char := fun s => do
  let first ← fourHex s
  if isLowSurrogate first.value then
    throw (.here .loneSurrogate first.rest)
  else if isHighSurrogate first.value then
    let mark ← secondMark first.rest
    let second ← fourHex mark.rest
    have shorter : second.rest.length < s.length := by
      have := first.shorter
      have := mark.shorter
      have := second.shorter
      omega
    if isLowSurrogate second.value then
      let code := 0x10000 + (first.value - 0xD800) * 1024 + (second.value - 0xDC00)
      return ⟨Char.ofNat code, second.rest, shorter⟩
    else
      throw (.here .loneSurrogate second.rest)
  else
    return ⟨Char.ofNat first.value, first.rest, first.shorter⟩

def letterEscape (b : UInt8) : Option Char :=
  if b = 0x22 then some '"'
  else if b = 0x5C then some '\\'
  else if b = 0x2F then some '/'
  else if b = 0x62 then some '\x08'
  else if b = 0x66 then some '\x0c'
  else if b = 0x6E then some '\n'
  else if b = 0x72 then some '\r'
  else if b = 0x74 then some '\t'
  else none

def escape : Parser Char
  | [] => .error (.here .endInString [])
  | b :: r =>
    match letterEscape b with
    | some c => .ok ⟨c, r, by simp⟩
    | none =>
      if b = 0x75 then
        match numericEscape r with
        | .error fault => .error fault
        | .ok p => .ok ⟨p.value, p.rest, by have := p.shorter; simp only [List.length_cons]; omega⟩
      else .error (.here .invalidEscape r)

/-- The octets up to the closing quote with the escapes resolved, in reverse order and in front of
those gathered before. -/
def content (bound : Nat) (gathered : Bytes) :
    (s : Bytes) → s.length ≤ bound → Except Fault (Parsed Bytes bound)
  | [], _ => .error (.here .endInString [])
  | b :: r, h =>
    if b = 0x22 then .ok ⟨gathered, r, h⟩
    else if b = 0x5C then
      match escape r with
      | .error fault => .error fault
      | .ok c =>
        content bound ((Utf8.encodeChar c.value).reverse ++ gathered) c.rest
          (Nat.le_trans (Nat.le_of_lt c.shorter) (Nat.le_of_lt h))
    else if b.toNat < 0x20 then .error (.here .controlCharacter r)
    else content bound (b :: gathered) r (Nat.le_of_lt h)
termination_by s => s.length
decreasing_by
  · have := c.shorter
    simp only [List.length_cons]; omega
  · simp

def literal : Parser String := fun s =>
  match Parser.ofBounded (fun bound => content bound []) s with
  | .error fault => .error fault
  | .ok p =>
    let octets := p.value.reverse
    match Utf8.decode? octets with
    | some text => .ok ⟨String.ofList text, p.rest, p.shorter⟩
    | none =>
      .error ⟨.invalidUnicode, p.rest.length, octets.length - Utf8.validLength octets⟩

end EditorRpc.Json.Read
