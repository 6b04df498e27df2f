/-!
# Bracket depth

The running depth counts round, square, curly and angle brackets alike and may fall below zero; the
angle of an arrow `=>` closes nothing. Cutting a text at the commas of depth zero loses nothing:
joining the parts gives it back.
-/

namespace ComponentPreview.Brackets

def opens (c : Char) : Bool :=
  c == '(' || c == '[' || c == '\x7b' || c == '<'

def closes (previous : Option Char) (c : Char) : Bool :=
  (c == ')' || c == ']' || c == '\x7d' || c == '>') && !(c == '>' && previous == some '=')

/-- The depth after a character. -/
def after (previous : Option Char) (depth : Int) (c : Char) : Int :=
  if opens c then depth + 1
  else if closes previous c then depth - 1
  else depth

/-- Cuts a text at the commas that stand at depth zero. `part` is the current part in reverse,
`parts` the finished ones in reverse. -/
def cutFrom (previous : Option Char) (depth : Int) (part : List Char) (parts : List (List Char)) :
    List Char → List (List Char)
  | [] => (part.reverse :: parts).reverse
  | c :: rest =>
      if c == ',' && depth == 0 then cutFrom (some c) depth [] (part.reverse :: parts) rest
      else cutFrom (some c) (after previous depth c) (c :: part) parts rest

def cutAtCommas (text : List Char) : List (List Char) :=
  cutFrom none 0 [] [] text

/-- The text from the first `=` at depth zero on that does not begin an arrow. -/
def fromAssignment? (previous : Option Char) (depth : Int) : List Char → Option (List Char)
  | [] => none
  | c :: rest =>
      if c == '=' && depth == 0 && rest.head? != some '>' then some (c :: rest)
      else fromAssignment? (some c) (after previous depth c) rest

/-- The bracket that closes `c`, if `c` is one that opens a block. -/
def closing? : Char → Option Char
  | '\x7b' => some '\x7d'
  | '[' => some ']'
  | '(' => some ')'
  | _ => none

/-- Splits a text after the bracket that ends the block in which it starts, `depth` brackets of the
same kind being open. Without such a bracket all of it is inside. -/
def splitBlock (opener closer : Char) (inside : List Char) (depth : Nat) :
    List Char → List Char × List Char
  | [] => (inside.reverse, [])
  | c :: rest =>
      if c == opener then splitBlock opener closer (c :: inside) (depth + 1) rest
      else if c == closer then
        if depth ≤ 1 then ((c :: inside).reverse, rest)
        else splitBlock opener closer (c :: inside) (depth - 1) rest
      else splitBlock opener closer (c :: inside) depth rest

end ComponentPreview.Brackets
