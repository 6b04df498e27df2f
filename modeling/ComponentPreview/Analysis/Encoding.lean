import ComponentPreview.Analysis.Basic
import ComponentPreview.Json.Value

/-!
# The analysis as JSON
-/

namespace ComponentPreview.Analysis

def encodeImport (statement : Import) : Json :=
  .obj [("names", .ofStrings statement.names), ("source", .str statement.module)]

def encodePerformance (performance : Performance) : Json :=
  .obj [
    ("hasMemoization", .bool performance.hasMemoization),
    ("hasOptimization", .bool performance.hasOptimization),
    ("hasLazyLoading", .bool performance.hasLazyLoading),
    ("hasCodeSplitting", .bool performance.hasCodeSplitting),
    ("estimatedRenders", .ofNat performance.estimatedRenders),
    ("potentialBottlenecks", .ofStrings (performance.bottlenecks.map Bottleneck.message))
  ]

def encodeAccessibility (adviceName : String) (issues : List AccessibilityIssue) : Json :=
  .obj [
    ("score", .ofNat (Accessibility.score issues)),
    ("issues", .ofStrings (issues.map AccessibilityIssue.message)),
    (adviceName, .ofStrings (issues.map AccessibilityIssue.suggestion))
  ]

def encodeSecurity (adviceName : String) (security : Security) : Json :=
  .obj [
    ("riskLevel", .str security.risk.label),
    ("issues", .ofStrings security.issues),
    (adviceName, .ofStrings security.suggestions)
  ]

def encode (analysis : Analysis) : Json :=
  .obj [
    ("componentName", .str analysis.componentName),
    ("componentType", .str analysis.kind.label),
    ("hasState", .bool analysis.hasState),
    ("hasEffects", .bool analysis.hasEffects),
    ("hasProps", .bool analysis.hasProps),
    ("linesOfCode", .ofNat analysis.lineCount),
    ("hasImports", .bool analysis.hasImports),
    ("hasExports", .bool analysis.hasExports),
    ("imports", .arr (analysis.imports.map encodeImport)),
    ("hooks", .ofStrings analysis.hooks),
    ("complexity", .str analysis.complexity.label),
    ("performance", encodePerformance analysis.performance),
    ("accessibility", encodeAccessibility "suggestions" analysis.accessibility),
    ("security", encodeSecurity "suggestions" analysis.security),
    ("maintainability", .ofNat analysis.maintainability),
    ("testability", .ofNat analysis.testability),
    ("description", .str analysis.description),
    ("estimatedBundleSize", .ofNat analysis.estimatedBundleSize),
    ("renderOptimization", .ofStrings analysis.renderOptimizations)
  ]

def encodeScores (analysis : Analysis) : Json :=
  .obj [
    ("accessibility", .ofNat (Accessibility.score analysis.accessibility)),
    ("maintainability", .ofNat analysis.maintainability),
    ("testability", .ofNat analysis.testability)
  ]

end ComponentPreview.Analysis
