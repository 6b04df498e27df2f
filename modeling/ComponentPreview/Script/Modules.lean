import ComponentPreview.Script.Declaration
import ComponentPreview.Text.Template

/-!
# Module statements

Imports are erased with the line they stand on, the keywords of the default export give way to an
assignment, and other exports lose their keyword.
-/

namespace ComponentPreview.Modules

open Pattern

def indent : Pattern := many Declaration.isIndent

def lineRest : Pattern :=
  indent ++ optional (lit ";") ++ indent ++ optional (lit "\n")

def importFrom : Pattern :=
  lineStart ++ indent ++ lit "import" ++ wordEdge ++
    few (!isQuoteMark ·) (begins (· == 'f')) ++ wordEdge ++ lit "from" ++ spacing ++ quoted ++
    lineRest

def importBare : Pattern :=
  lineStart ++ indent ++ lit "import" ++ spacing ++ quoted ++ lineRest

def eraseImports (text : List Char) : List Char :=
  importBare.erase (importFrom.erase text)

def exportDefault : Pattern :=
  wordEdge ++ lit "export" ++ gap ++ lit "default" ++ gap

/-- Puts a template, the start of an assignment, in place of the keywords. -/
def assignDefaultExport (assignment : Template) (text : List Char) : List Char :=
  exportDefault.replace (fun found => assignment.fill found.text) text

def exportList : Pattern :=
  lineStart ++ indent ++ lit "export" ++ spacing ++
    either (lit "*") (lit "\x7b" ++ every (· != '\x7d') ++ lit "\x7d") ++ spacing ++
    optional (lit "from" ++ spacing ++ quoted) ++ lineRest

def exportKeyword : Pattern :=
  wordEdge ++ lit "export" ++ gap ++
    ahead (optional (lit "async" ++ gap) ++
      anyOf ["const", "let", "var", "function", "class"] ++ wordEdge)

def eraseExports (text : List Char) : List Char :=
  exportKeyword.erase (exportList.erase text)

end ComponentPreview.Modules
