import SqlComposer.Binary64
/-!
The shortest decimal of a double-precision number: the coarsest grid of powers of ten that has a point in the
interval of reals that round to the number, and of that grid the point nearest to the number.

All lengths are multiples of `2 ^ -1076 · 10 ^ -324`, which makes them natural numbers.
-/

namespace SqlComposer.Decimal

structure Rounding where
  value : Nat
  below : Nat
  above : Nat
  closed : Bool

def Rounding.contains (r : Rounding) (x : Nat) : Bool :=
  if r.closed then r.value - r.below ≤ x && x ≤ r.value + r.above
  else r.value - r.below < x && x < r.value + r.above

/-- The interval of a positive finite number. It reaches half a unit in the last place to either side, and
below a power of two, where the numbers lie twice as close, half of that. -/
def Rounding.of (x : Binary64) : Rounding :=
  let scale := Nat.pow 10 324
  let unit := if x.exponent = 0 then 1 else Nat.pow 2 (x.exponent - 1)
  let narrow := x.fraction = 0 && 1 < x.exponent
  { value := 4 * x.magnitude * scale
    below := (if narrow then 1 else 2) * unit * scale
    above := 2 * unit * scale
    closed := x.fraction % 2 == 0 }

def Rounding.pointOn? (r : Rounding) (step : Nat) : Option Nat :=
  let lower := r.value / step
  let upper := lower + 1
  match r.contains (lower * step), r.contains (upper * step) with
  | false, false => none
  | true, false => some lower
  | false, true => some upper
  | true, true =>
    let down := r.value - lower * step
    let up := upper * step - r.value
    if down < up || (down == up && lower % 2 == 0) then some lower else some upper

/-- Searches the grids from the coarsest to the finest; the result is a point and its grid's exponent,
counted from -324. -/
def Rounding.coarsest (r : Rounding) : Nat → Nat × Nat
  | 0 => ((r.pointOn? (Nat.pow 2 1076)).getD 0, 0)
  | grid + 1 =>
    match r.pointOn? (Nat.pow 10 (grid + 1) * Nat.pow 2 1076) with
    | some point => (point, grid + 1)
    | none => r.coarsest grid

def shortest (x : Binary64) : Nat × Int :=
  if x.isZero then (0, 0)
  else
    let (digits, grid) := (Rounding.of x).coarsest 632
    (digits, (grid : Int) - 324)

end SqlComposer.Decimal
