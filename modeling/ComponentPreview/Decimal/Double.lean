/-!
# Double-precision numbers

A finite number is `mantissa * 2 ^ exponent`, with a mantissa below `2 ^ 53` that reaches `2 ^ 52`
unless the exponent is the least one. Reading a quotient or a decimal gives the nearest such
number, a tie going to the even mantissa.
-/

namespace ComponentPreview

inductive Double
  | finite (negative : Bool) (mantissa : Nat) (exponent : Int)
  | infinite (negative : Bool)
  | notANumber
  deriving DecidableEq, Repr

namespace Double

def leastExponent : Int := -1074

def greatestExponent : Int := 971

/-- The quotient rounded to the nearest integer, a half going to the even neighbour. -/
def roundHalfEven (numerator denominator : Nat) : Nat :=
  let quotient := numerator / denominator
  let rest := 2 * (numerator % denominator)
  if rest < denominator then quotient
  else if denominator < rest then quotient + 1
  else quotient + quotient % 2

theorem roundHalfEven_of_dvd {numerator denominator : Nat} (positive : 0 < denominator)
    (divides : denominator ∣ numerator) :
    roundHalfEven numerator denominator = numerator / denominator := by
  simp [roundHalfEven, Nat.mod_eq_zero_of_dvd divides, positive]

/-- The quotient of `numerator` and `denominator` in units of `2 ^ exponent`. -/
def inUnits (numerator denominator : Nat) (exponent : Int) : Nat × Nat :=
  match exponent with
  | .ofNat shift => (numerator, denominator * Nat.pow 2 shift)
  | .negSucc shift => (numerator * Nat.pow 2 (shift + 1), denominator)

/-- The nearest number to a quotient. -/
def ofQuotient (negative : Bool) (numerator denominator : Nat) : Double :=
  if numerator = 0 then .finite negative 0 leastExponent
  else
    let guess : Int := (numerator.log2 : Int) - denominator.log2 - 52
    let scaled := inUnits numerator denominator guess
    let exponent := max leastExponent
      (if scaled.1 < scaled.2 * Nat.pow 2 52 then guess - 1 else guess)
    let exact := inUnits numerator denominator exponent
    let mantissa := roundHalfEven exact.1 exact.2
    let carried :=
      if mantissa = Nat.pow 2 53 then (Nat.pow 2 52, exponent + 1) else (mantissa, exponent)
    if greatestExponent < carried.2 then .infinite negative
    else .finite negative carried.1 carried.2

def decimalLength (n : Nat) : Nat :=
  (Nat.toDigits 10 n).length

/-- The nearest number to `digits * 10 ^ exponent`. -/
def ofDecimal (negative : Bool) (digits : Nat) (exponent : Int) : Double :=
  let reach := exponent + decimalLength digits
  if digits = 0 || reach < -400 then .finite negative 0 leastExponent
  else if 400 < reach then .infinite negative
  else match exponent with
    | .ofNat power => ofQuotient negative (digits * Nat.pow 10 power) 1
    | .negSucc power => ofQuotient negative digits (Nat.pow 10 (power + 1))

def isZero : Double → Bool
  | .finite _ mantissa _ => mantissa == 0
  | _ => false

/-- The integer that a number is, if it is one. -/
def toInt? : Double → Option Int
  | .finite negative mantissa exponent =>
      let size? := match exponent with
        | .ofNat shift => some (mantissa * Nat.pow 2 shift)
        | .negSucc shift =>
            let unit := Nat.pow 2 (shift + 1)
            if mantissa % unit = 0 then some (mantissa / unit) else none
      size?.map fun size => if negative then -(size : Int) else (size : Int)
  | _ => none

end Double

end ComponentPreview
