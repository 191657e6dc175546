import PropTree.Numeric.Binary64

set_option autoImplicit false

/-!
# The shortest decimal of a floating-point number

A decimal reads back as a number when it lies in the interval of reals that round
to it. The decimal grids `10 ^ e` are walked from coarse to fine; the first one with
a neighbour of the number inside the interval gives the fewest digits.
-/

namespace PropTree

structure Decimal where
  digits : Nat
  exponent : Int
deriving DecidableEq, Repr

inductive Tie where
  | up
  | even
deriving DecidableEq, Repr

structure Ratio where
  num : Nat
  den : Nat

namespace Ratio

def ofScaled (n base : Nat) (e : Int) : Ratio :=
  if 0 ≤ e then ⟨n * Nat.pow base e.toNat, 1⟩ else ⟨n, Nat.pow base (-e).toNat⟩

def lt (x y : Ratio) : Bool := x.num * y.den < y.num * x.den

end Ratio

namespace Binary64

/-- The value and the ends of its rounding interval, all in units of a quarter
of the last place. -/
structure Interval where
  low : Nat
  value : Nat
  high : Nat
  closed : Bool

/-- A neighbour lies half a place away, a quarter below a power of two. The
ends round to the number itself if its significand is even. -/
def interval (x : Binary64) : Interval :=
  let m := x.significand
  ⟨4 * m - (if x.isBinadeStart then 1 else 2), 4 * m, 4 * m + 2, m % 2 = 0⟩

def admits (x : Binary64) (c : Nat) (e : Int) : Bool :=
  let i := x.interval
  let point := Ratio.ofScaled c 10 e
  let low := Ratio.ofScaled i.low 2 (x.scale - 2)
  let high := Ratio.ofScaled i.high 2 (x.scale - 2)
  if i.closed then !point.lt low && !high.lt point
  else low.lt point && point.lt high

def onGrid (tie : Tie) (x : Binary64) (e : Int) : Option Decimal :=
  let value := Ratio.ofScaled x.significand 2 x.scale
  let unit := Ratio.ofScaled 1 10 e
  let num := value.num * unit.den
  let den := value.den * unit.num
  let below := num / den
  let lost := num % den
  let goesUp := den < 2 * lost ∨ den = 2 * lost ∧ (tie = .up ∨ below % 2 = 1)
  match x.admits below e, x.admits (below + 1) e with
  | true, true => some ⟨if goesUp then below + 1 else below, e⟩
  | true, false => some ⟨below, e⟩
  | false, true => some ⟨below + 1, e⟩
  | false, false => none

/-- Grids from `10 ^ 309`, above every finite number, down to `10 ^ (-324)`,
finer than the distance between the smallest ones. -/
def grids : List Int := (List.range 634).map fun (k : Nat) => 309 - (k : Int)

def shortest (tie : Tie) (x : Binary64) : Decimal :=
  if x.isZero then ⟨0, 0⟩ else (grids.findSome? (onGrid tie x)).getD ⟨0, 0⟩

end Binary64

end PropTree
