import ComponentPreview.Analysis.Encoding
import ComponentPreview.Decimal.Rounding

/-!
# Derived reports

Metrics, suggestions and summaries that accompany a preview.
-/

namespace ComponentPreview.Analysis

structure Metrics where
  totalLines : Nat
  nonEmptyLines : Nat
  commentLines : Nat
  characters : Nat
  deriving DecidableEq, Repr

namespace Metrics

def isComment (line : List Char) : Bool :=
  let shown := Text.trimStart isBlank line
  ["//", "/*", "*"].any (Text.startsWith shown)

def ofText (text : List Char) : Metrics :=
  let lines := Text.lines text
  let nonEmpty := lines.filter fun line => !line.all isBlank
  { totalLines := lines.length
    nonEmptyLines := nonEmpty.length
    commentLines := (nonEmpty.filter isComment).length
    characters := (nonEmpty.map List.length).foldl (· + ·) 0 }

def encode (metrics : Metrics) : Json :=
  .obj [
    ("totalLines", .ofNat metrics.totalLines),
    ("nonEmptyLines", .ofNat metrics.nonEmptyLines),
    ("commentLines", .ofNat metrics.commentLines),
    ("codeLines", .ofNat (metrics.nonEmptyLines - metrics.commentLines)),
    ("commentRatio", .num (Double.ratio 3 metrics.commentLines metrics.nonEmptyLines)),
    ("averageLineLength", .num (Double.ratio 1 metrics.characters metrics.nonEmptyLines))
  ]

end Metrics

def encodeSuggestion (category priority message : String) (details : List String) : List Json :=
  if details.isEmpty then []
  else [.obj [("category", .str category), ("priority", .str priority), ("message", .str message),
    ("details", .ofStrings details)]]

def encodeSuggestions (analysis : Analysis) : Json :=
  .arr (
    encodeSuggestion "performance" "high" "Performance optimizations recommended"
      (analysis.performance.bottlenecks.map Bottleneck.message) ++
    encodeSuggestion "accessibility" "medium" "Accessibility improvements needed"
      (analysis.accessibility.map AccessibilityIssue.message) ++
    encodeSuggestion "security" "high" "Security concerns detected" analysis.security.issues)

def tips (text : List Char) (analysis : Analysis) : List String :=
  (if !analysis.performance.hasMemoization && Text.mentions text "useState" then
    ["Consider using React.memo for component memoization"] else []) ++
  (if Text.mentions text "useEffect" && !Text.mentions text "useCallback" then
    ["Consider using useCallback to prevent unnecessary re-renders"] else []) ++
  (if analysis.performance.bottlenecks.contains .missingKey then
    ["Add key props to list items for better performance"] else [])

def encodePerformanceReport (text : List Char) (analysis : Analysis) : Json :=
  let manyUpdates := 5 < Text.timesMentioned text "useState"
  let emptyDependencies := analysis.performance.bottlenecks.contains .emptyDependencies
  .obj [
    ("score", .ofNat
      (100 - ((if manyUpdates then 20 else 0) + (if emptyDependencies then 10 else 0)))),
    ("issues", .ofStrings (
      (if manyUpdates then
        ["High number of state updates may cause performance issues"] else []) ++
      (if emptyDependencies then
        ["Empty dependency arrays may miss required dependencies"] else []))),
    ("recommendations", .ofStrings (
      (if manyUpdates then
        ["Consider using useReducer for complex state management"] else []) ++
      (if emptyDependencies then ["Review useEffect dependencies carefully"] else [])))
  ]

def report (text : List Char) (analysis : Analysis) : Json :=
  .obj [
    ("codeMetrics", (Metrics.ofText text).encode),
    ("suggestions", encodeSuggestions analysis),
    ("optimizationTips", .ofStrings (tips text analysis)),
    ("accessibilityReport", encodeAccessibility "recommendations" analysis.accessibility),
    ("performanceReport", encodePerformanceReport text analysis),
    ("securityReport", encodeSecurity "recommendations" analysis.security)
  ]

end ComponentPreview.Analysis
