import ComponentPreview.Digest.Sha256
import ComponentPreview.Text.Pattern
import ComponentPreview.Unicode.Blank

/-!
# Submitted source

A source is the text of a component as it was submitted. The patterns here are the lexical
elements that every scan of a source shares.
-/

namespace ComponentPreview

structure Source where
  text : List Char
  deriving DecidableEq

namespace Source

def ofString (text : String) : Source :=
  ⟨text.toList⟩

def size (source : Source) : Nat :=
  source.text.length

/-- The length of the source in UTF-8. -/
def byteLength (source : Source) : Nat :=
  (source.text.map Char.utf8Size).foldl (· + ·) 0

def contentHash (source : Source) : String :=
  Digest.sha256 (String.ofList source.text).toUTF8

def shortHash (source : Source) : String :=
  String.ofList (source.contentHash.toList.take 16)

end Source

namespace Pattern

/-- The blanks that stand here, of which there is at least one. -/
def gap : Pattern := one isBlank ++ every isBlank

/-- The blanks that stand here, if any. -/
def spacing : Pattern := every isBlank

/-- Whether a character stands first, blanks aside. -/
def beginsAfterBlanks (mark : Char) : List Char → Bool
  | [] => false
  | c :: rest => c == mark || isBlank c && beginsAfterBlanks mark rest

def name : Pattern := one isNameStart ++ every isNameChar

def isQuoteMark (c : Char) : Bool := c == '\'' || c == '"'

/-- A text between quote marks, which may be empty and need not close with the mark it opened. -/
def quoted : Pattern :=
  one isQuoteMark ++ every (!isQuoteMark ·) ++ one isQuoteMark

/-- A text of at least one character between quote marks, which is captured. -/
def quotedText : Pattern :=
  one isQuoteMark ++ capture (one (!isQuoteMark ·) ++ every (!isQuoteMark ·)) ++ one isQuoteMark

def wholeWord (text : String) : Pattern :=
  wordEdge ++ lit text ++ wordEdge

end Pattern

end ComponentPreview
