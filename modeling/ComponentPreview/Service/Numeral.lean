import ComponentPreview.Text.Basic
import ComponentPreview.Unicode.Blank

/-!
# Whole numbers in fields

A field may give its whole number as a text. A plain numeral is read as it stands; any other text
is tidied first: white space around it goes, and so do a plus sign, leading zeros, a fraction of
zeros and single underscores. Only a plain numeral can be too long; a long text that needs tidying
is no number at all.
-/

namespace ComponentPreview.Numeral

inductive Refusal
  | malformed
  | tooLong
  deriving DecidableEq, Repr

/-- No numeral has more characters than this, its sign among them. -/
def maxLength : Nat := 4300

def valueOf (digits : List Char) : Nat :=
  digits.foldl (fun value c => 10 * value + (c.toNat - 48)) 0

/-- Whether a number without leading zeros can begin with a character. -/
def isStart (c : Char) : Bool :=
  c == '-' || ('1' ≤ c && c ≤ '9')

/-- Reads digits without leading zeros, perhaps after a minus sign. What follows too many digits
does not matter. -/
def readPlain (text : List Char) : Except Refusal Int :=
  let (sign, unsigned) := (text.takeWhile (· == '-'), text.dropWhile (· == '-'))
  if 1 < sign.length then .error .malformed
  else if unsigned = ['0'] then .ok 0
  else if !(unsigned.head?.map isStart).getD false then .error .malformed
  else
    let digits := unsigned.takeWhile Char.isDigit
    if maxLength < sign.length + digits.length then .error .tooLong
    else if digits.length < unsigned.length then .error .malformed
    else .ok (if sign.isEmpty then valueOf digits else -(valueOf digits : Int))

/-- Drops zeros and underscores after a zero or an underscore, which stays before a point and at
the end. -/
def dropZerosAfter? (previous : Char) : List Char → Option (List Char)
  | [] => some [previous]
  | c :: rest =>
      if c == '0' || c == '_' then dropZerosAfter? c rest
      else if isStart c then some (c :: rest)
      else if c == '.' then some (previous :: c :: rest)
      else none

def dropLeadingZeros? : List Char → Option (List Char)
  | [] => none
  | c :: rest =>
      if c == '0' then dropZerosAfter? c rest
      else if isStart c then some (c :: rest)
      else none

def dropPlus? : List Char → Option (List Char)
  | '+' :: '-' :: _ => none
  | '+' :: rest => some rest
  | text => some text

/-- Drops a point with zeros after it. -/
def dropZeroFraction (text : List Char) : List Char :=
  match text.dropWhile (· != '.') with
  | _ :: zeros =>
      if !zeros.isEmpty && zeros.all (· == '0') then text.takeWhile (· != '.') else text
  | [] => text

/-- Drops underscores if none stands at an end or beside another. -/
def dropUnderscores (text : List Char) : List Char :=
  if text.head? == some '_' || text.getLast? == some '_' || Text.mentions text "__" then text
  else text.filter (· != '_')

def tidy? (text : List Char) : Option (List Char) := do
  let unsigned ← dropPlus? (Text.trim isMargin text)
  let digits ← dropLeadingZeros? unsigned
  return dropUnderscores (dropZeroFraction digits)

def read (text : List Char) : Except Refusal Int :=
  match readPlain text with
  | .ok value => .ok value
  | .error .tooLong => .error .tooLong
  | .error .malformed =>
      match (tidy? text).map readPlain with
      | some (.ok value) => .ok value
      | _ => .error .malformed

end ComponentPreview.Numeral
