import ComponentPreview.Script.Brackets
import ComponentPreview.Source.Basic
import ComponentPreview.Text.Basic

/-!
# Type declarations

Interfaces and type aliases are erased one at a time, each time from the first that the text still
holds, until it holds none.
-/

namespace ComponentPreview.Declaration

open Pattern

def isIndent (c : Char) : Bool := c == ' ' || c == '\t'

def indent : Pattern := many isIndent

def modifiers : Pattern :=
  lineStart ++ most isIndent (begins Char.isLower) ++ optional (lit "export" ++ gap) ++
    optional (lit "declare" ++ gap)

def interfaceHead : Pattern :=
  modifiers ++ lit "interface" ++ gap ++ one isNameChar ++ every (· != '\x7b') ++ lit "\x7b"

def aliasHead : Pattern :=
  modifiers ++ lit "type" ++ gap ++ one isNameChar ++ every isNameChar ++ spacing ++
    optional (lit "<" ++ most (· != '=') (begins (· == '>')) ++ lit ">") ++ spacing ++ lit "="

def eraseInterface? (text : List Char) : Option (List Char) :=
  (interfaceHead.first? text).map fun head =>
    let body := (Brackets.splitBlock '\x7b' '\x7d' [] 1 head.stop.rest).2
    text.take head.whole.first.offset ++ body.dropWhile fun c => isIndent c || c == ';'

/-- Whether a line begins with the sign of a union or an intersection. -/
def continues (line : List Char) : Bool :=
  match line.dropWhile isIndent with
  | c :: _ => c == '|' || c == '&'
  | [] => false

/-- What follows the body of an alias: the body ends after a semicolon, or after a line break that
neither an empty body precedes nor a union sign follows, outside all brackets. -/
def afterAlias (previous : Char) (depth : Int) (isBegun : Bool) : List Char → List Char
  | [] => []
  | c :: rest =>
      let ends := depth ≤ 0 && (c == ';' || c == '\n' && isBegun && !continues rest)
      if ends then rest
      else afterAlias c (Brackets.after (some previous) depth c) (isBegun || !isBlank c) rest

def eraseAlias? (text : List Char) : Option (List Char) :=
  (aliasHead.first? text).map fun head =>
    text.take head.whole.first.offset ++ afterAlias '=' 0 false head.stop.rest

/-- Repeats a step that shortens a text until there is nothing more for it to do. -/
def exhaust (step : List Char → Option (List Char)) : Nat → List Char → List Char
  | 0, text => text
  | bound + 1, text =>
      match step text with
      | some shorter => exhaust step bound shorter
      | none => text

def erase (text : List Char) : List Char :=
  let withoutInterfaces := exhaust eraseInterface? text.length text
  exhaust eraseAlias? withoutInterfaces.length withoutInterfaces

end ComponentPreview.Declaration
