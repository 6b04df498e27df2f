import ComponentPreview.Analysis.Accessibility
import ComponentPreview.Analysis.Complexity
import ComponentPreview.Analysis.Performance
import ComponentPreview.Analysis.Security
import ComponentPreview.Source.Component
import ComponentPreview.Source.Import

/-!
# Analysis of a source

The structural facts of a source, found by scanning its text. Every text has an analysis.
-/

namespace ComponentPreview

structure Analysis where
  componentName : String
  kind : ComponentKind
  imports : List Import
  hooks : List String
  lineCount : Nat
  complexity : Complexity
  accessibility : List AccessibilityIssue
  performance : Performance
  security : Security
  maintainability : Nat
  testability : Nat
  description : String
  hasState : Bool
  hasEffects : Bool
  hasProps : Bool
  hasImports : Bool
  hasExports : Bool
  estimatedBundleSize : Nat
  renderOptimizations : List String

namespace Analysis

open Pattern

def linesIn (text : List Char) : Nat :=
  text.count '\n' + 1

def branch : Pattern := wordEdge ++ anyOf ["if", "else", "switch"] ++ wordEdge

def maintainabilityOf (text : List Char) : Nat :=
  let lines := linesIn text
  100 - ((if 100 < lines then 20 else 0) + (if 200 < lines then 30 else 0) +
    (if 10 < (branch.findAll text).length then 15 else 0))

def testabilityOf (text : List Char) : Nat :=
  100 - ((if Text.mentions text "useEffect" then 10 else 0) +
    (if Text.mentions text "addEventListener" then 15 else 0) +
    (if 5 < ((wholeWord "useState").findAll text).length then 20 else 0))

def describe (text : List Char) (hooks : List String) (imports : List Import) : String :=
  let parts :=
    (if hooks.isEmpty then [] else ["Uses " ++ ", ".intercalate hooks ++ " hooks"]) ++
    (if imports.isEmpty then []
      else ["Imports from " ++ ", ".intercalate (imports.map Import.module)]) ++
    (if Text.mentions text "className" then ["Uses CSS class styling"] else []) ++
    (if Text.mentions text "onClick" || Text.mentions text "onSubmit" then
      ["Has interactive elements"] else [])
  if parts.isEmpty then "A React component" else ". ".intercalate parts

def importWeight (statement : Import) : Nat :=
  if Text.mentions statement.module.toList "react" then 50
  else if Text.mentions statement.module.toList "@" then 30
  else 20

/-- A tenth of the length rounded half up, and a weight for each import. -/
def bundleSize (text : List Char) (imports : List Import) : Nat :=
  (text.length + 5) / 10 + (imports.map importWeight).foldl (· + ·) 0

def optimizationsOf (text : List Char) : List String :=
  [("React.memo", "Component memoization"), ("useMemo", "Value memoization"),
    ("useCallback", "Function memoization"),
    ("shouldComponentUpdate", "Custom render optimization")].filterMap fun (mark, label) =>
      if Text.mentions text mark then some label else none

def propsMark : Pattern :=
  either (wholeWord "props") (lit "(" ++ spacing ++ lit "\x7b")

def ofText (text : List Char) : Analysis :=
  let imports := Import.all text
  let hooks := Hook.all text
  let lines := linesIn text
  { componentName := Component.nameIn text
    kind := Component.kindOf text
    imports
    hooks
    lineCount := lines
    complexity := Complexity.classify lines hooks.length imports.length
    accessibility := Accessibility.issues text
    performance := Performance.ofText text
    security := Security.ofText text
    maintainability := maintainabilityOf text
    testability := testabilityOf text
    description := describe text hooks imports
    hasState := Text.mentions text "useState" || Text.mentions text "this.state"
    hasEffects := Text.mentions text "useEffect"
    hasProps := propsMark.occursIn text
    hasImports := !imports.isEmpty || (wholeWord "import").occursIn text
    hasExports := (wholeWord "export").occursIn text
    estimatedBundleSize := bundleSize text imports
    renderOptimizations := optimizationsOf text }

def importedNames (analysis : Analysis) : List String :=
  analysis.imports.flatMap Import.names

end Analysis

end ComponentPreview
