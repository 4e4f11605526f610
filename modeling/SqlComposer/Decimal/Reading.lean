import SqlComposer.Binary64

namespace SqlComposer.Decimal

def inUnits (numerator denominator : Nat) (exponent : Int) : Nat × Nat :=
  if 0 ≤ exponent then (numerator, denominator * Nat.pow 2 exponent.toNat)
  else (numerator * Nat.pow 2 (-exponent).toNat, denominator)

def roundedQuotient (numerator denominator : Nat) : Nat :=
  let whole := numerator / denominator
  let rest := 2 * (numerator % denominator)
  if denominator < rest || (denominator == rest && whole % 2 == 1) then whole + 1 else whole

def nearest (numerator denominator : Nat) : Binary64 :=
  if numerator = 0 then ⟨0⟩
  else
    let least : Int := -1074
    let guess := max ((numerator.log2 : Int) - denominator.log2 - 53) least
    let (a, b) := inUnits numerator denominator guess
    let exponent := if a / b < Nat.pow 2 53 then guess else guess + 1
    let (a, b) := inUnits numerator denominator exponent
    let bits := (exponent - least).toNat * Nat.pow 2 52 + roundedQuotient a b
    ⟨.ofNat (min bits (2047 * Nat.pow 2 52))⟩

def powerOfTen (exponent : Nat) : Binary64 := nearest (Nat.pow 10 exponent) 1

def product (x y : Binary64) : Binary64 := nearest (x.magnitude * y.magnitude) (Nat.pow 2 2148)

def quotient (x y : Binary64) : Binary64 := nearest x.magnitude y.magnitude

def shiftedDown : (steps : Nat) → Binary64 → Nat → Binary64
  | 0, _, _ => ⟨0⟩
  | steps + 1, x, places =>
    if places ≤ 308 then quotient x (powerOfTen places)
    else shiftedDown steps (quotient x (powerOfTen 308)) (places - 308)

def read? (significand : Nat) (exponent : Int) : Option Binary64 :=
  let x := nearest significand 1
  if exponent < 0 then some (shiftedDown 4 x exponent.natAbs)
  else if x.isZero then some x
  else if 308 < exponent then none
  else
    let y := product x (powerOfTen exponent.toNat)
    if y.isFinite then some y else none

end SqlComposer.Decimal
