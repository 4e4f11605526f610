
namespace SqlComposer

structure Binary64 where
  bits : UInt64
deriving DecidableEq, Repr

namespace Binary64

def isNegative (x : Binary64) : Bool := Nat.pow 2 63 ≤ x.bits.toNat

def exponent (x : Binary64) : Nat := x.bits.toNat / Nat.pow 2 52 % Nat.pow 2 11

def fraction (x : Binary64) : Nat := x.bits.toNat % Nat.pow 2 52

def isFinite (x : Binary64) : Bool := x.exponent != 2047

def isNaN (x : Binary64) : Bool := x.exponent == 2047 && x.fraction != 0

def isZero (x : Binary64) : Bool := x.exponent == 0 && x.fraction == 0

def ofFields (negative : Bool) (exponent fraction : Nat) : Binary64 :=
  ⟨.ofNat ((if negative then Nat.pow 2 63 else 0) + exponent * Nat.pow 2 52 + fraction)⟩

def ofBinary32 (bits : UInt32) : Binary64 :=
  let n := bits.toNat
  let negative := decide (Nat.pow 2 31 ≤ n)
  let exponent := n / Nat.pow 2 23 % Nat.pow 2 8
  let fraction := n % Nat.pow 2 23
  if exponent = 255 then ofFields negative 2047 (fraction * Nat.pow 2 29)
  else if exponent ≠ 0 then ofFields negative (exponent + 896) (fraction * Nat.pow 2 29)
  else if fraction = 0 then ofFields negative 0 0
  else
    let top := fraction.log2
    ofFields negative (top + 874) ((fraction - Nat.pow 2 top) * Nat.pow 2 (52 - top))

def negated (x : Binary64) : Binary64 := ofFields (!x.isNegative) x.exponent x.fraction

def same (x y : Binary64) : Bool :=
  !x.isNaN && !y.isNaN && (x == y || x.isZero && y.isZero)

def magnitude (x : Binary64) : Nat :=
  if x.exponent = 0 then x.fraction else (Nat.pow 2 52 + x.fraction) * Nat.pow 2 (x.exponent - 1)

end Binary64

end SqlComposer
