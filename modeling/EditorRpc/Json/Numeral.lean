import EditorRpc.Json.Basic
import EditorRpc.Json.Syntax

/-!
Numbers of JSON text. Reading splits a number into its parts; the value of the parts is an integer if
it has neither fraction nor exponent and fits a word, and a floating point number otherwise. The
floating point value comes from the leading digits that fit an unsigned word, rounded, and one
multiplication or division by a power of ten.
-/

set_option autoImplicit false
set_option relaxedAutoImplicit false

namespace EditorRpc.Json

def isDigit (b : UInt8) : Bool :=
  0x30 ≤ b.toNat && b.toNat < 0x3A

def digitValue (b : UInt8) : Nat :=
  b.toNat - 0x30

structure WrittenExponent where
  negative : Bool
  digits : Bytes

structure Numeral where
  negative : Bool
  whole : Bytes
  fraction : Option Bytes
  exponent : Option WrittenExponent

/-- Append digits to a number as long as it stays below `limit`, and the digits from the first that
does not fit. -/
def accumulate (limit n : Nat) : Bytes → Nat × Bytes
  | [] => (n, [])
  | b :: r =>
    let longer := 10 * n + digitValue b
    if longer < limit then accumulate limit longer r else (n, b :: r)

def powerOfTen (k : Nat) : Float :=
  Float.ofScientific 1 false k

def greatestPower : Nat := 308

/-- A number divided by `10 ^ k`, in steps of the greatest power. -/
def divideByPower (x : Float) (k : Nat) : Float :=
  if k ≤ greatestPower then x / powerOfTen k
  else if x == 0 then x
  else divideByPower (x / powerOfTen greatestPower) (k - greatestPower)
termination_by k
decreasing_by
  simp only [greatestPower] at *
  omega

/-- A number times `10 ^ exponent`, unless that is too large to be finite. -/
def scaleByPower (x : Float) (exponent : Int) : Option Float :=
  if exponent < 0 then some (divideByPower x exponent.natAbs)
  else if exponent ≤ greatestPower then
    let y := x * powerOfTen exponent.natAbs
    if y.isInf then none else some y
  else if x == 0 then some x
  else none

namespace Numeral

def signed (n : Numeral) (x : Float) : Float :=
  if n.negative then -x else x

/-- The value of a number with neither fraction nor exponent whose digits fit a word. Minus zero and
what lies below the signed words are floating point numbers. -/
def integer (n : Numeral) (magnitude : Nat) : Json :=
  let v : Int := if n.negative then -magnitude else magnitude
  if h : -9223372036854775808 ≤ v ∧ v < 18446744073709551616 then
    if n.negative && magnitude = 0 then .float (n.signed 0) else .int ⟨v, h.1, h.2⟩
  else .float (n.signed (UInt64.ofNat magnitude).toFloat)

/-- The value of a number. It fails, with the number of exponent digits that were not needed to see
it, if the value is too large. -/
def value (n : Numeral) : Except Nat Json :=
  let (whole, dropped) := accumulate (Nat.pow 2 64) 0 n.whole
  if n.fraction.isNone && n.exponent.isNone && dropped.isEmpty then
    .ok (n.integer whole)
  else
    let places := n.fraction.getD []
    let (significand, unused) := accumulate (Nat.pow 2 64) whole places
    let shift : Int := (dropped.length : Int) - (places.length - unused.length : Nat)
    let negativeExponent := (n.exponent.map (·.negative)).getD false
    let (exponent, excess) :=
      accumulate (Nat.pow 2 31) 0 ((n.exponent.map (·.digits)).getD [])
    if excess.isEmpty then
      let power := shift + if negativeExponent then -(exponent : Int) else exponent
      match scaleByPower (UInt64.ofNat significand).toFloat power with
      | some x => .ok (.float (n.signed x))
      | none => .error 0
    else if significand = 0 || negativeExponent then .ok (.float (n.signed 0))
    else .error (excess.length - 1)

end Numeral

namespace Read

/-- The digits before the point: a zero alone, or digits that begin with another one. -/
def wholePart : Parser Bytes
  | [] => .error (.here .endInValue [])
  | b :: r =>
    if b = 0x30 then
      if (r.head?.map isDigit).getD false then .error (.next .invalidNumber r)
      else .ok ⟨[b], r, length_lt_cons b r⟩
    else if isDigit b then
      .ok ⟨b :: r.takeWhile isDigit, r.dropWhile isDigit, length_dropWhile_lt_cons isDigit b r⟩
    else .error (.here .invalidNumber r)

def fractionPart (s : Bytes) : Except Fault (Parsed (Option Bytes) (s.length + 1)) :=
  match s with
  | [] => .ok (.unread none [])
  | b :: r =>
    if b = 0x2E then
      match r.takeWhile isDigit with
      | [] => .error (.next (if r.isEmpty then .endInValue else .invalidNumber) r)
      | d :: ds =>
        .ok ⟨some (d :: ds), r.dropWhile isDigit, length_dropWhile_lt_succ isDigit b r⟩
    else .ok (.unread none (b :: r))

def exponentSign : Bytes → Bool × Bytes
  | [] => (false, [])
  | b :: r => if b = 0x2D then (true, r) else if b = 0x2B then (false, r) else (false, b :: r)

private theorem length_exponentSign_le (s : Bytes) : (exponentSign s).2.length ≤ s.length := by
  fun_cases exponentSign s <;> simp

private theorem length_exponentDigits_lt (b : UInt8) (r : Bytes) :
    ((exponentSign r).2.dropWhile isDigit).length < (b :: r).length + 1 := by
  have digits := length_dropWhile_le isDigit (exponentSign r).2
  have sign := length_exponentSign_le r
  rw [List.length_cons]
  omega

def exponentPart (s : Bytes) :
    Except Fault (Parsed (Option WrittenExponent) (s.length + 1)) :=
  match s with
  | [] => .ok (.unread none [])
  | b :: r =>
    if b = 0x65 || b = 0x45 then
      let signed := exponentSign r
      match signed.2.takeWhile isDigit with
      | [] =>
        match signed.2 with
        | [] => .error (.here .endInValue [])
        | _ :: t => .error (.here .invalidNumber t)
      | d :: ds =>
        .ok ⟨some ⟨signed.1, d :: ds⟩, signed.2.dropWhile isDigit, length_exponentDigits_lt b r⟩
    else .ok (.unread none (b :: r))

def unsignedNumeral (negative : Bool) : Parser Numeral := fun s => do
  let whole ← wholePart s
  let fraction ← fractionPart whole.rest
  let exponent ← exponentPart fraction.rest
  return ⟨⟨negative, whole.value, fraction.value, exponent.value⟩, exponent.rest, by
    have := whole.shorter
    have := fraction.shorter
    have := exponent.shorter
    omega⟩

def numeral : Parser Numeral
  | [] => .error (.here .endInValue [])
  | b :: r =>
    if b = 0x2D then
      match unsignedNumeral true r with
      | .error fault => .error fault
      | .ok p => .ok ⟨p.value, p.rest, by have := p.shorter; simp only [List.length_cons]; omega⟩
    else unsignedNumeral false (b :: r)

def number : Parser Json := fun s => do
  let p ← numeral s
  match p.value.value with
  | .ok j => return ⟨j, p.rest, p.shorter⟩
  | .error unread => .error ⟨.numberOutOfRange, p.rest.length + unread, 0⟩

end Read

end EditorRpc.Json
