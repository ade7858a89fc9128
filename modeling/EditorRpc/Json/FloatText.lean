import EditorRpc.Decimal.Shortest

/-!
The written form of a floating point number in a document: the fewest digits that read back, in
positional notation around the point and with an exponent elsewhere.
-/

set_option autoImplicit false
set_option relaxedAutoImplicit false

namespace EditorRpc.Json

/-- Where the digits of a number may stand for positional notation: the power of ten just above the
number is more than `above` and at most `upTo`. -/
structure PositionalRange where
  above : Int
  upTo : Int

/-- Numbers from 0.00001 up to, but without, 10 ^ 16 are written positionally. -/
def positional : PositionalRange := ⟨-5, 16⟩

/-- Digits in their notation: positional with at least one place, or one digit before the point and an
exponent that always has a sign. -/
def layout (d : Decimal.Digits) : List Char :=
  let top : Int := d.digits.length + d.power
  if positional.above < top && top ≤ positional.upTo then
    if 0 ≤ d.power then d.digits ++ List.replicate d.power.toNat '0' ++ ['.', '0']
    else if 0 < top then d.digits.take top.toNat ++ '.' :: d.digits.drop top.toNat
    else ['0', '.'] ++ List.replicate (-top).toNat '0' ++ d.digits
  else
    let exponent := top - 1
    let point := if d.digits.length ≤ 1 then [] else '.' :: d.digits.drop 1
    d.digits.take 1 ++ point ++ ['e', if exponent < 0 then '-' else '+']
      ++ Nat.toDigits 10 exponent.natAbs

/-- The written form of a finite number. What is not finite has none and is written as `null`. -/
def floatChars (x : Float) : List Char :=
  let bits := x.toBits.toNat
  let sign := if bits < Nat.pow 2 63 then [] else ['-']
  let scale := bits / Nat.pow 2 52 % Nat.pow 2 11
  let fraction := bits % Nat.pow 2 52
  if scale = Nat.pow 2 11 - 1 then ['n', 'u', 'l', 'l']
  else if scale = 0 && fraction = 0 then sign ++ ['0', '.', '0']
  else
    let interval :=
      if scale = 0 then Decimal.Interval.ofBinary fraction (-1074) false
      else .ofBinary (Nat.pow 2 52 + fraction) (Int.ofNat scale - 1075) (fraction = 0 && 1 < scale)
    sign ++ layout (Decimal.shortest interval)

end EditorRpc.Json
