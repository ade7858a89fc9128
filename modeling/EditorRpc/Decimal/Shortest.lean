/-!
The fewest decimal digits that still name a binary value. A binary value stands for an interval of
rational numbers, those nearer to it than to its neighbours. On the grid of the multiples of a power
of ten the value has two neighbours; the coarsest grid on which one of them lies in the interval
gives the digits. All of it is exact arithmetic on natural numbers.
-/

set_option autoImplicit false
set_option relaxedAutoImplicit false

namespace EditorRpc.Decimal

/-- A value `mid / den` and the interval from `low / den` to `high / den` that stands for it. The ends
belong to the interval if it is closed. -/
structure Interval where
  low : Nat
  mid : Nat
  high : Nat
  den : Nat
  closed : Bool

/-- The interval of `significand · 2 ^ exponent`: half a step up, and half a step down, or a quarter
where the steps below are half as wide. Ends round to an even significand. -/
def Interval.ofBinary (significand : Nat) (exponent : Int) (halfStepBelow : Bool) : Interval :=
  let quarter := exponent - 2
  let unit := Nat.pow 2 quarter.toNat
  { low := (4 * significand - if halfStepBelow then 1 else 2) * unit
    mid := 4 * significand * unit
    high := (4 * significand + 2) * unit
    den := Nat.pow 2 (-quarter).toNat
    closed := significand % 2 = 0 }

/-- The number `n · 10 ^ power / den`, to be compared with another one on the grid of `power`. -/
def raised (n : Nat) (power : Int) : Nat :=
  n * Nat.pow 10 power.toNat

namespace Interval

def contains (i : Interval) (power : Int) (c : Nat) : Bool :=
  let x := raised (c * i.den) power
  if i.closed then raised i.low (-power) ≤ x && x ≤ raised i.high (-power)
  else raised i.low (-power) < x && x < raised i.high (-power)

/-- The number `c` whose `c · 10 ^ power` lies in the interval and is nearest to its value, the even
one of two that are equally near. -/
def onGrid (i : Interval) (power : Int) : Option Nat :=
  let unit := raised i.den power
  let value := raised i.mid (-power)
  let c := value / unit
  match i.contains power c, i.contains power (c + 1) with
  | true, true =>
    let below := value - c * unit
    let above := (c + 1) * unit - value
    if below < above || (below = above && c % 2 = 0) then some c else some (c + 1)
  | true, false => some c
  | false, true => some (c + 1)
  | false, false => none

/-- The power of ten just above the value: its first digit stands one place below. -/
def topPower (i : Interval) : Int :=
  if i.den ≤ i.mid then (Nat.toDigits 10 (i.mid / i.den)).length
  else
    let places := (Nat.toDigits 10 (i.den / i.mid)).length
    if i.mid * Nat.pow 10 (places - 1) = i.den then 2 - places else 1 - places

end Interval

/-- Digits without a zero at the end, and the power of ten of the last of them. -/
structure Digits where
  digits : List Char
  power : Int
deriving DecidableEq, Repr

def Digits.ofNat (c : Nat) (power : Int) : Digits :=
  let all := Nat.toDigits 10 c
  let zeros := (all.reverse.takeWhile (· = '0')).length
  ⟨all.take (all.length - zeros), power + zeros⟩

/-- The fewest digits whose number lies in the interval. Seventeen are enough for a significand of 53
bits. -/
def shortest (i : Interval) : Digits :=
  let top := i.topPower
  let found := (List.range 17).findSome? fun (n : Nat) =>
    let power := top - 1 - n
    (i.onGrid power).map fun c => Digits.ofNat c power
  found.getD ⟨[], 0⟩

end EditorRpc.Decimal
