import EditorRpc.Text.Utf8

/-!
Faults of JSON text and where they lie. A reader notes a fault by the number of octets it had not yet
consumed; the position is worked out from the whole input afterwards, so that no reader has to count
lines. A reader that succeeds gives its value with a rest that is shorter than its input, and what is
read in steps is read only if every step succeeds.
-/

set_option autoImplicit false
set_option relaxedAutoImplicit false

namespace EditorRpc

section

variable {ε α β : Type} {x : Except ε α}

theorem map_eq_ok_iff {f : α → β} {b : β} : x.map f = .ok b ↔ ∃ a, x = .ok a ∧ f a = b := by
  cases x <;> simp [Except.map]

theorem bind_eq_ok_iff {f : α → Except ε β} {b : β} :
    x.bind f = .ok b ↔ ∃ a, x = .ok a ∧ f a = .ok b := by
  cases x <;> simp [Except.bind]

end

namespace Json

inductive SyntaxCause
  | endInValue | endInString | endInList | endInObject
  | valueExpected | wordExpected | colonExpected | listEndExpected | objectEndExpected
  | invalidNumber | numberOutOfRange
  | invalidEscape | controlCharacter | loneSurrogate | secondSurrogateExpected | invalidUnicode
  | keyExpected | trailingComma | trailingCharacters | tooDeep
deriving DecidableEq, Repr

def SyntaxCause.message : SyntaxCause → String
  | .endInValue => "EOF while parsing a value"
  | .endInString => "EOF while parsing a string"
  | .endInList => "EOF while parsing a list"
  | .endInObject => "EOF while parsing an object"
  | .valueExpected => "expected value"
  | .wordExpected => "expected ident"
  | .colonExpected => "expected `:`"
  | .listEndExpected => "expected `,` or `]`"
  | .objectEndExpected => "expected `,` or `\x7d`"
  | .invalidNumber => "invalid number"
  | .numberOutOfRange => "number out of range"
  | .invalidEscape => "invalid escape"
  | .controlCharacter => "control character (\\u0000-\\u001F) found while parsing a string"
  | .loneSurrogate => "lone leading surrogate in hex escape"
  | .secondSurrogateExpected => "unexpected end of hex escape"
  | .invalidUnicode => "invalid unicode code point"
  | .keyExpected => "key must be a string"
  | .trailingComma => "trailing comma"
  | .trailingCharacters => "trailing characters"
  | .tooDeep => "recursion limit exceeded"

/-- A fault with the number of octets that were left, and how far its column is moved back. -/
structure Fault where
  cause : SyntaxCause
  left : Nat
  back : Nat
deriving DecidableEq, Repr

/-- A fault just after the last octet that was consumed. -/
def Fault.here (cause : SyntaxCause) (rest : Bytes) : Fault :=
  ⟨cause, rest.length, 0⟩

/-- A fault just after the next octet, which was only looked at. -/
def Fault.next (cause : SyntaxCause) (rest : Bytes) : Fault :=
  ⟨cause, rest.length - 1, 0⟩

/-- A fault at its line and column, lines counted from one and columns in octets. -/
structure SyntaxError where
  cause : SyntaxCause
  line : Nat
  column : Nat
deriving DecidableEq, Repr

def SyntaxError.message (e : SyntaxError) : String :=
  e.cause.message ++ " at line " ++ Nat.repr e.line ++ " column " ++ Nat.repr e.column

def lineFeed : UInt8 := 0x0A

def Fault.locate (input : Bytes) (fault : Fault) : SyntaxError :=
  let before := input.take (input.length - fault.left)
  { cause := fault.cause
    line := 1 + before.count lineFeed
    column := (before.reverse.takeWhile (· != lineFeed)).length - fault.back }

/-- A value that was read and the rest of the input, whose length is below a bound. -/
structure Parsed (α : Type) (bound : Nat) where
  value : α
  rest : Bytes
  shorter : rest.length < bound

/-- A reader that consumes at least one octet whenever it succeeds. -/
abbrev Parser (α : Type) := (s : Bytes) → Except Fault (Parsed α s.length)

theorem length_lt_succ (s : Bytes) : s.length < s.length + 1 :=
  Nat.lt_succ_self _

def Parsed.unread {α : Type} (value : α) (s : Bytes) : Parsed α (s.length + 1) :=
  ⟨value, s, length_lt_succ s⟩

@[inline]
def Parser.ofBounded {α : Type}
    (read : (bound : Nat) → (s : Bytes) → s.length ≤ bound → Except Fault (Parsed α bound)) :
    Parser α := fun s =>
  read s.length s (Nat.le_refl _)

def isGap (b : UInt8) : Bool :=
  b = 0x20 || b = 0x09 || b = 0x0A || b = 0x0D

def skipGap (s : Bytes) : Bytes :=
  s.dropWhile isGap

theorem length_dropWhile_le (p : UInt8 → Bool) (s : Bytes) :
    (s.dropWhile p).length ≤ s.length :=
  (List.dropWhile_suffix p).length_le

theorem length_lt_cons (b : UInt8) (r : Bytes) : r.length < (b :: r).length :=
  length_lt_succ r

theorem length_lt_cons_cons (a b : UInt8) (r : Bytes) : r.length < (a :: b :: r).length :=
  Nat.lt_trans (length_lt_cons b r) (length_lt_cons a (b :: r))

theorem length_dropWhile_lt_cons (p : UInt8 → Bool) (b : UInt8) (r : Bytes) :
    (r.dropWhile p).length < (b :: r).length :=
  Nat.lt_of_le_of_lt (length_dropWhile_le p r) (length_lt_cons b r)

theorem length_dropWhile_lt_succ (p : UInt8 → Bool) (b : UInt8) (r : Bytes) :
    (r.dropWhile p).length < (b :: r).length + 1 :=
  Nat.lt_succ_of_lt (length_dropWhile_lt_cons p b r)

theorem length_skipGap_le (s : Bytes) : (skipGap s).length ≤ s.length :=
  length_dropWhile_le isGap s

end Json

end EditorRpc
