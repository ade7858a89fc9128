import EditorRpc.Json.Basic
import EditorRpc.Json.FloatText
import EditorRpc.Text.Utf8

/-!
The compact text of a document: no blanks, members in the order in which they stand, and in strings
only what must be escaped.
-/

set_option autoImplicit false
set_option relaxedAutoImplicit false

namespace EditorRpc.Json

def escapeChar (c : Char) : List Char :=
  if c = '"' then ['\\', '"']
  else if c = '\\' then ['\\', '\\']
  else if c = '\x08' then ['\\', 'b']
  else if c = '\x0c' then ['\\', 'f']
  else if c = '\n' then ['\\', 'n']
  else if c = '\r' then ['\\', 'r']
  else if c = '\t' then ['\\', 't']
  else if c.toNat < 0x20 then
    ['\\', 'u', '0', '0', Nat.digitChar (c.toNat / 16), Nat.digitChar (c.toNat % 16)]
  else [c]

def stringChars (s : String) : List Char :=
  '"' :: s.toList.flatMap escapeChar ++ ['"']

def integerChars (v : Int) : List Char :=
  if v < 0 then '-' :: Nat.toDigits 10 v.natAbs else Nat.toDigits 10 v.natAbs

mutual

def chars : Json → List Char
  | .null => ['n', 'u', 'l', 'l']
  | .bool true => ['t', 'r', 'u', 'e']
  | .bool false => ['f', 'a', 'l', 's', 'e']
  | .int n => integerChars n.value
  | .float x => floatChars x
  | .str s => stringChars s
  | .arr [] => ['[', ']']
  | .arr (x :: xs) => '[' :: chars x ++ laterElements xs
  | .obj [] => ['\x7b', '\x7d']
  | .obj ((name, x) :: rest) =>
    '\x7b' :: stringChars name ++ ':' :: chars x ++ laterMembers rest

/-- The elements after the first one and the closing bracket. -/
def laterElements : List Json → List Char
  | [] => [']']
  | x :: xs => ',' :: chars x ++ laterElements xs

/-- The members after the first one and the closing brace. -/
def laterMembers : List (String × Json) → List Char
  | [] => ['\x7d']
  | (name, x) :: rest => ',' :: stringChars name ++ ':' :: chars x ++ laterMembers rest

end

def render (j : Json) : String :=
  String.ofList j.chars

def octets (j : Json) : Bytes :=
  Utf8.encode j.chars

end EditorRpc.Json
