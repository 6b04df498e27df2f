import ComponentPreview.Source.Basic
import ComponentPreview.Text.Basic

/-!
# The component of a source

The component is named by the first declaration form that occurs, in a fixed order of forms; a
source without any names it `App`.
-/

namespace ComponentPreview

inductive ComponentKind
  | functional
  | classBased
  | unknown
  deriving DecidableEq, Repr

def ComponentKind.label : ComponentKind → String
  | functional => "functional"
  | classBased => "class"
  | unknown => "unknown"

namespace Component

open Pattern

def defaultName : String := "App"

def isAnnotation (c : Char) : Bool := c != '=' && c != '\n'

def exportDefault : Pattern :=
  lit "export" ++ gap ++ lit "default" ++ gap

/-- The forms that name a component, the most telling first. -/
def forms : List Pattern := [
  exportDefault ++ lit "function" ++ gap ++ capture name,
  wordEdge ++ lit "function" ++ gap ++ capture name,
  wordEdge ++ lit "const" ++ gap ++ capture name ++ spacing ++
    optional (lit ":" ++ one isAnnotation ++ every isAnnotation) ++ lit "=",
  exportDefault ++ notAhead (either (lit "function" ++ wordEdge) (lit "class" ++ wordEdge)) ++
    capture name,
  wordEdge ++ lit "class" ++ gap ++ capture name ++ gap ++ lit "extends" ++ wordEdge
]

def nameIn (text : List Char) : String :=
  match forms.findSome? (·.first? text) with
  | some found => String.ofList (found.group 0)
  | none => defaultName

def classForm : Pattern :=
  wordEdge ++ lit "class" ++ gap ++ name ++ gap ++ lit "extends" ++ wordEdge

def kindOf (text : List Char) : ComponentKind :=
  if classForm.occursIn text then .classBased
  else if (wholeWord "function").occursIn text || Text.mentions text "=>" then .functional
  else .unknown

end Component

namespace Hook

open Pattern

def call : Pattern :=
  wordEdge ++ lit "use" ++ one Char.isUpper ++ many Char.isAlphanum

/-- The stateful calls of a source, each once, in the order of their first use. -/
def all (text : List Char) : List String :=
  Text.distinct ((call.findAll text).map fun found => String.ofList found.text)

end Hook

end ComponentPreview
