import ComponentPreview.Decimal.Double

/-!
# Rounding to decimal places

A number is rounded from its exact value, a half going to the even neighbour, and the result is the
nearest double-precision number to that decimal.
-/

namespace ComponentPreview.Double

def roundTo (places : Nat) : Double → Double
  | .finite negative mantissa exponent =>
      let exact := inUnits (mantissa * Nat.pow 10 places) 1 (-exponent)
      ofQuotient negative (roundHalfEven exact.1 exact.2) (Nat.pow 10 places)
  | number => number

/-- The integer nearest to a multiple of a number. -/
def multiple (factor : Nat) : Double → Int
  | .finite negative mantissa exponent =>
      let exact := inUnits (mantissa * factor) 1 (-exponent)
      let size : Int := roundHalfEven exact.1 exact.2
      if negative then -size else size
  | _ => 0

/-- A quotient of two counts to a number of decimal places; zero where there is nothing to count. -/
def ratio (places part whole : Nat) : Double :=
  if whole = 0 then .finite false 0 leastExponent
  else (ofQuotient false part whole).roundTo places

end ComponentPreview.Double
