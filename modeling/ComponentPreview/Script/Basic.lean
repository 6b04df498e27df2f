import ComponentPreview.Script.Annotation
import ComponentPreview.Script.Balance
import ComponentPreview.Script.Modules

/-!
# The script of a component

A source becomes plain script by eight rules in a fixed order. The rules go by the look of the text
and know no grammar; markup stays and is compiled later. The default export is assigned to a slot,
which is named by a replacement template.
-/

namespace ComponentPreview

inductive Rule
  | typeDeclarations
  | returnTypes
  | arrowReturnTypes
  | parameterTypes
  | bindingTypes
  | imports
  | defaultExport
  | exports
  deriving DecidableEq, Repr

namespace Rule

/-- The rules in the order in which they are applied. -/
def all : List Rule :=
  [typeDeclarations, returnTypes, arrowReturnTypes, parameterTypes, bindingTypes, imports,
    defaultExport, exports]

def apply (assignment : Template) : Rule → List Char → List Char
  | typeDeclarations => Declaration.erase
  | returnTypes => Annotation.eraseReturnTypes
  | arrowReturnTypes => Annotation.eraseArrowReturnTypes
  | parameterTypes => Annotation.eraseParameterTypes
  | bindingTypes => Annotation.eraseBindingTypes
  | imports => Modules.eraseImports
  | defaultExport => Modules.assignDefaultExport assignment
  | exports => Modules.eraseExports

end Rule

/-- A script and what its markup gives cause to warn of. -/
structure Script where
  text : List Char
  diagnostics : List String
  deriving DecidableEq, Repr

namespace Script

/-- The slot to which the default export is assigned. -/
def entrySlot : String := "window.__previewEntry__"

/-- The template of an assignment to a slot. -/
def assignmentText (slot : String) : List Char :=
  (slot ++ " = ").toList

def assignmentTo (slot : String) : Except Template.Fault Template :=
  Template.read (assignmentText slot)

/-- The assignment to the entry slot. -/
def entryAssignment : Template :=
  .ofText (entrySlot ++ " = ")

def textOf (assignment : Template) (text : List Char) : List Char :=
  Rule.all.foldl (fun text rule => rule.apply assignment text) text

/-- The script of a text to which all rules are applied. -/
def ofResult (text : List Char) : Script :=
  ⟨text, (Balance.findings text).map Balance.Finding.message⟩

def ofText (assignment : Template) (text : List Char) : Script :=
  ofResult (textOf assignment text)

/-- The texts after each rule. -/
def stages (assignment : Template) (text : List Char) : List (Rule × List Char) :=
  (Rule.all.foldl
    (fun (done, text) rule =>
      let next := rule.apply assignment text
      ((rule, next) :: done, next))
    ([], text)).1.reverse

/-- The script with the default export in a slot, or the message of what is wrong with the slot. -/
def forSlot (slot : String) (text : List Char) : Except String Script :=
  match assignmentTo slot with
  | .ok assignment => .ok (ofText assignment text)
  | .error fault => .error (fault.message (assignmentText slot))

end Script

end ComponentPreview
