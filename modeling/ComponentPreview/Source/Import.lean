import ComponentPreview.Source.Basic
import ComponentPreview.Text.Basic

/-!
# Import statements

`Import.all` reads the statements that bind names. The part before `from` is cut at braces and
commas, and each piece is reduced to the local name it binds.
-/

namespace ComponentPreview

/-- One import statement: the local names it binds and its module. -/
structure Import where
  names : List String
  module : String
  deriving DecidableEq, Repr

namespace Import

open Pattern

def isSpecifierChar (c : Char) : Bool :=
  isNameChar c || c == '*' || c == '\x7b' || c == '\x7d' || isBlank c || c == ','

def statement : Pattern :=
  wordEdge ++ lit "import" ++ oneOrMore isBlank ++
    capture (one isSpecifierChar ++ few isSpecifierChar (beginsAfterBlanks 'f')) ++ gap ++
    lit "from" ++ gap ++ quotedText

def aliasMark : Pattern := gap ++ lit "as" ++ gap

def isSpecifierCut (c : Char) : Bool :=
  c == '\x7b' || c == '\x7d' || c == ','

/-- Drops what an opening pattern covers. -/
def dropOpening (pattern : Pattern) (text : List Char) : List Char :=
  match pattern.opening? text with
  | some found => found.stop.rest
  | none => text

/-- The local name that one piece of a specifier binds; empty for a piece that binds none. -/
def localName (piece : List Char) : List Char :=
  let bare := dropOpening (lit "type" ++ gap) (Text.trim isBlank piece)
  let name := Text.trim isBlank ((aliasMark.cut bare).getLastD [])
  if name == ['*'] then [] else name

def boundNames (specifier : List Char) : List String :=
  let pieces := Text.cut isSpecifierCut (dropOpening (spacing ++ lit "type" ++ gap) specifier)
  ((pieces.map localName).filter (!·.isEmpty)).map String.ofList

def ofMatch (found : Match) : Import where
  names := boundNames (found.group 0)
  module := String.ofList (found.group 1)

def all (text : List Char) : List Import :=
  (statement.findAll text).map ofMatch

end Import

end ComponentPreview
