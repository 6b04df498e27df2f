import ComponentPreview.Source.Basic
import ComponentPreview.Unicode.Upper

/-!
# Balance of markup tags

Opening and closing tags are counted by name. Void elements and tags that close themselves count as
neither, nor does a tag whose end cannot be found.
-/

namespace ComponentPreview.Balance

open Pattern

def isTagChar (c : Char) : Bool := isWord c || c == '.'

def tagName : Pattern := one Char.isAlpha ++ many isTagChar

def openTag : Pattern := lit "<" ++ capture tagName

def closeTag : Pattern := lit "</" ++ capture tagName ++ spacing ++ lit ">"

def voidElements : List String :=
  ["area", "base", "br", "col", "embed", "hr", "img", "input", "link", "meta", "source", "track",
    "wbr"]

def isVoid (name : List Char) : Bool :=
  voidElements.contains (String.ofList (name.map asciiLower))

/-- The character before the `>` that ends a tag; values in quotes or braces are skipped. -/
def lastOfTag? (quote : Option Char) (depth : Int) (previous : Char) : List Char → Option Char
  | [] => none
  | c :: rest =>
      match quote with
      | some mark => lastOfTag? (if c == mark then none else quote) depth c rest
      | none =>
          if isQuoteMark c || c == '\x60' then lastOfTag? (some c) depth c rest
          else if c == '\x7b' then lastOfTag? none (depth + 1) c rest
          else if c == '\x7d' then lastOfTag? none (depth - 1) c rest
          else if c == '>' && depth == 0 then some previous
          else if c == '<' && depth == 0 then none
          else lastOfTag? none depth c rest

/-- Whether a tag opens an element that has to be closed. -/
def isOpening (tag : Match) : Bool :=
  !tag.whole.first.follows isNameChar && !isVoid (tag.group 0) &&
    match lastOfTag? none 0 (tag.stop.before.getD '<') tag.stop.rest with
    | some last => last != '/'
    | none => false

abbrev Count := List (String × Nat)

def Count.add (name : String) : Count → Count
  | [] => [(name, 1)]
  | (other, count) :: counts =>
      if other == name then (other, count + 1) :: counts
      else (other, count) :: Count.add name counts

def Count.of (name : String) (counts : Count) : Nat :=
  ((counts.find? (·.1 == name)).map Prod.snd).getD 0

/-- How often each name occurs, in the order of first occurrence. -/
def tally (names : List (List Char)) : Count :=
  names.foldl (fun counts name => Count.add (String.ofList name) counts) []

def opened (text : List Char) : Count :=
  tally (((openTag.findAll text).filter isOpening).map (·.group 0))

def closed (text : List Char) : Count :=
  tally ((closeTag.findAll text).map (·.group 0))

inductive Finding
  | unclosed (name : String) (opened closed : Nat)
  | unopened (name : String)
  deriving DecidableEq, Repr

def Finding.message : Finding → String
  | unclosed name opened closed =>
      "Possibly unclosed <" ++ name ++ "> tag (" ++ toString opened ++ " opened, " ++
        toString closed ++ " closed)"
  | unopened name => "Closing </" ++ name ++ "> without matching opening tag"

def findings (text : List Char) : List Finding :=
  let opened := opened text
  let closed := closed text
  (opened.filterMap fun (name, count) =>
    if closed.of name < count then some (.unclosed name count (closed.of name)) else none) ++
  closed.filterMap fun (name, count) =>
    if opened.of name < count then some (.unopened name) else none

end ComponentPreview.Balance
