import PropTree.Numeric.Shortest

set_option autoImplicit false

/-!
# Written forms of floating-point numbers

All forms write the shortest decimal. `plain` never uses an exponent and writes
whole numbers without a point; the other two can always be told from an integer.
-/

namespace PropTree

structure NumberForm where
  wholeSuffix : String
  /-- The powers of ten of the first digit that are written without an
  exponent; all of them if `none`. -/
  positional : Option (Int × Int)
  /-- What stands before an exponent that is not negative. -/
  exponentSign : String
  tie : Tie

namespace NumberForm

def plain : NumberForm := ⟨"", none, "", .up⟩

def marked : NumberForm := ⟨".0", some (-4, 15), "", .up⟩

def keyed : NumberForm := ⟨".0", some (-5, 15), "+", .even⟩

def zeros (n : Nat) : String := String.ofList (List.replicate n '0')

def positionalText (f : NumberForm) (digits : List Char) (point : Int) : String :=
  if point ≤ 0 then "0." ++ zeros (-point).toNat ++ String.ofList digits
  else
    let n := point.toNat
    if digits.length ≤ n then
      String.ofList digits ++ zeros (n - digits.length) ++ f.wholeSuffix
    else String.ofList (digits.take n) ++ "." ++ String.ofList (digits.drop n)

def exponentText (f : NumberForm) (digits : List Char) (power : Int) : String :=
  let tail := digits.drop 1
  String.ofList (digits.take 1) ++ (if tail = [] then "" else "." ++ String.ofList tail)
    ++ "e" ++ (if power < 0 then "" else f.exponentSign) ++ toString power

def decimalText (f : NumberForm) (d : Decimal) : String :=
  if d.digits = 0 then "0" ++ f.wholeSuffix
  else
    let digits := Nat.toDigits 10 d.digits
    let point := digits.length + d.exponent
    match f.positional with
    | none => f.positionalText digits point
    | some (least, most) =>
      if least ≤ point - 1 ∧ point - 1 ≤ most then f.positionalText digits point
      else f.exponentText digits (point - 1)

/-- A NaN has no sign. -/
def write (f : NumberForm) (x : Binary64) : String :=
  if x.isNaN then "NaN"
  else
    (if x.isNegative then "-" else "") ++
      (if x.isFinite then f.decimalText (x.shortest f.tie) else "inf")

end NumberForm

end PropTree
