set_option autoImplicit false

/-!
# Binary floating-point numbers of 64 bits
-/

namespace PropTree

structure Binary64 where
  bits : UInt64
deriving DecidableEq, Repr

namespace Binary64

def zero : Binary64 := ⟨0⟩

def isNegative (x : Binary64) : Bool := x.bits.toNat / Nat.pow 2 63 = 1

def exponentField (x : Binary64) : Nat := x.bits.toNat / Nat.pow 2 52 % Nat.pow 2 11

def fraction (x : Binary64) : Nat := x.bits.toNat % Nat.pow 2 52

def isFinite (x : Binary64) : Bool := x.exponentField < 2047

def isNaN (x : Binary64) : Bool := x.exponentField = 2047 ∧ x.fraction ≠ 0

/-- The magnitude of a finite number is `significand * 2 ^ scale`. -/
def significand (x : Binary64) : Nat :=
  if x.exponentField = 0 then x.fraction else Nat.pow 2 52 + x.fraction

def scale (x : Binary64) : Int := max x.exponentField 1 - 1075

/-- Below a power of two the numbers lie twice as close as above it. -/
def isBinadeStart (x : Binary64) : Bool := x.fraction = 0 ∧ 1 < x.exponentField

def isZero (x : Binary64) : Bool := x.exponentField = 0 ∧ x.fraction = 0

def sameNumber (x y : Binary64) : Bool :=
  if x.isNaN || y.isNaN then false else x = y || (x.isZero && y.isZero)

def floorLog2 (n d : Nat) : Int :=
  let k : Int := n.log2 - d.log2
  if d * Nat.pow 2 k.toNat ≤ n * Nat.pow 2 (-k).toNat then k else k - 1

/-- The bits of the number nearest to `n / d`; a tie goes to the even fraction.
A fraction that rounds up to `2 ^ 52` carries into the exponent. -/
def ratioBits (n d : Nat) : Nat :=
  if n = 0 then 0
  else
    let k := floorLog2 n d
    let num := n * Nat.pow 2 (52 - k).toNat
    let den := d * Nat.pow 2 (k - 52).toNat
    let kept := num / den
    let lost := num % den
    let up := den < 2 * lost ∨ den = 2 * lost ∧ kept % 2 = 1
    (1023 + k).toNat * Nat.pow 2 52 + ((if up then kept + 1 else kept) - Nat.pow 2 52)

/-- The number nearest to `n / d`, for fractions between `2 ^ (-1022)` and
`2 ^ 1023`. -/
def ofRatio (n d : Nat) : Binary64 := ⟨UInt64.ofNat (ratioBits n d)⟩

def ofInt (n : Int) : Binary64 :=
  ⟨UInt64.ofNat ((if n < 0 then Nat.pow 2 63 else 0) + ratioBits n.natAbs 1)⟩

end Binary64

end PropTree
