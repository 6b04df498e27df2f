import ComponentPreview.Decimal.Double

/-!
# Shortest decimal text of a number

Of the decimals that read back as the number, the one with the fewest digits is written, and of
those the nearest; of two that are equally near the one whose last digit is even. It is written
positionally from `0.0001` up to below `10 ^ 16` and with an exponent of at least two digits
elsewhere.
-/

namespace ComponentPreview.Double

/-- The reals nearer to a number than to its neighbours, as multiples of `2 ^ unit`. -/
structure Neighbourhood where
  low : Nat
  middle : Nat
  high : Nat
  unit : Int
  closed : Bool

def neighbourhood (mantissa : Nat) (exponent : Int) : Neighbourhood where
  low := if mantissa = Nat.pow 2 52 && leastExponent < exponent then 4 * mantissa - 1
    else 4 * mantissa - 2
  middle := 4 * mantissa
  high := 4 * mantissa + 2
  unit := exponent - 2
  closed := mantissa % 2 == 0

def positivePart (n : Int) : Nat := n.toNat

/-- The greatest power of ten at most `middle`, found upwards from a guess below it. -/
def decimalExponent (range : Neighbourhood) : Nat → Int → Int
  | 0, power => power
  | fuel + 1, power =>
      let next := power + 1
      let binary := range.middle * Nat.pow 2 (positivePart range.unit) *
        Nat.pow 10 (positivePart (-next))
      let decimal := Nat.pow 10 (positivePart next) * Nat.pow 2 (positivePart (-range.unit))
      if decimal ≤ binary then decimalExponent range fuel next else power

/-- The multiple of `10 ^ power` in a neighbourhood that is nearest to its middle, the even one of
two that are equally near. -/
def decimalIn? (range : Neighbourhood) (power : Int) : Option Nat :=
  let binary := Nat.pow 2 (positivePart range.unit) * Nat.pow 10 (positivePart (-power))
  let decimal := Nat.pow 10 (positivePart power) * Nat.pow 2 (positivePart (-range.unit))
  let low := range.low * binary
  let middle := range.middle * binary
  let high := range.high * binary
  let isIn (n : Nat) : Bool :=
    if range.closed then low ≤ n * decimal && n * decimal ≤ high
    else low < n * decimal && n * decimal < high
  let below := middle / decimal
  let above := below + 1
  match isIn below, isIn above with
  | true, true =>
      match compare (middle - below * decimal) (above * decimal - middle) with
      | .lt => some below
      | .gt => some above
      | .eq => if below % 2 = 0 then some below else some above
  | true, false => some below
  | false, true => some above
  | false, false => none

def shortestFrom (range : Neighbourhood) (top : Int) : Nat → Nat → Nat × Int
  | 0, _ => (0, 0)
  | fuel + 1, digits =>
      let power := top - digits
      match decimalIn? range power with
      | some decimal => (decimal, power)
      | none => shortestFrom range top fuel (digits + 1)

/-- The shortest decimal `n * 10 ^ power` that reads back as `mantissa * 2 ^ exponent`. -/
def shortest (mantissa : Nat) (exponent : Int) : Nat × Int :=
  let range := neighbourhood mantissa exponent
  let guess := ((mantissa.log2 : Int) + exponent) * 30103 / 100000 - 2
  shortestFrom range (decimalExponent range 5 guess) 20 0

def trimZeros : Nat → Nat × Int → Nat × Int
  | 0, decimal => decimal
  | fuel + 1, (n, power) =>
      if n != 0 && n % 10 == 0 then trimZeros fuel (n / 10, power + 1) else (n, power)

def zeros (count : Nat) : String :=
  String.ofList (List.replicate count '0')

/-- Writes `n * 10 ^ power`, where `n` does not end in zero. -/
def layout (n : Nat) (power : Int) : String :=
  let digits := Nat.toDigits 10 n
  let point := power + digits.length
  if -4 < point && point ≤ 16 then
    if point ≤ 0 then "0." ++ zeros (-point).toNat ++ String.ofList digits
    else if digits.length ≤ point then
      String.ofList digits ++ zeros (point.toNat - digits.length) ++ ".0"
    else String.ofList (digits.take point.toNat) ++ "." ++ String.ofList (digits.drop point.toNat)
  else
    let exponent := point - 1
    let size := toString exponent.natAbs
    String.ofList (digits.take 1) ++
      (if digits.length = 1 then "" else "." ++ String.ofList (digits.drop 1)) ++
      (if exponent < 0 then "e-" else "e+") ++ (if size.length < 2 then "0" ++ size else size)

/-- The text of a number, given the texts of infinity and of what is no number. -/
def render (infinity nan : String) : Double → String
  | .finite negative mantissa exponent =>
      (if negative then "-" else "") ++
        if mantissa = 0 then "0.0"
        else
          let decimal := trimZeros 20 (shortest mantissa exponent)
          layout decimal.1 decimal.2
  | .infinite negative => (if negative then "-" else "") ++ infinity
  | .notANumber => nan

end ComponentPreview.Double
