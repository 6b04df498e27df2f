import ComponentPreview.Text.Basic
import ComponentPreview.Unicode.Blank
import ComponentPreview.Unicode.Digit

/-!
# Whole numbers in texts

A sign may come first, digits of any script may be grouped by single underscores, and white space
other than information separators may stand around the number. A number of too many digits is not
read.
-/

namespace ComponentPreview.Text

/-- Reads digits and the underscores between them. `ready` tells whether a digit came last. -/
def readDigits? (value : Nat) (ready : Bool) : List Char → Option Nat
  | [] => if ready then some value else none
  | c :: rest =>
      match digitValue? c with
      | some digit => readDigits? (10 * value + digit) true rest
      | none => if c == '_' && ready then readDigits? value false rest else none

def maxDigits : Nat := 4300

def readSize? (text : List Char) : Option Nat :=
  if maxDigits < (text.filter (· != '_')).length then none else readDigits? 0 false text

def readInteger? (text : List Char) : Option Int :=
  match trim isMargin text with
  | '-' :: digits => (readSize? digits).map fun size => -(size : Int)
  | '+' :: digits => (readSize? digits).map Int.ofNat
  | digits => (readSize? digits).map Int.ofNat

end ComponentPreview.Text
