import ComponentPreview.Analysis.Basic
import ComponentPreview.Config
import ComponentPreview.Sandbox.Loader
import ComponentPreview.Sandbox.Policy
import ComponentPreview.Sandbox.Prelude
import ComponentPreview.Sandbox.Style
import ComponentPreview.Script.Basic
import ComponentPreview.Stub.Basic
import ComponentPreview.Text.Markup

/-!
# Preview documents

A document is one page that carries everything a preview needs: the runtime, the stubs, the script
of the component as a literal, and the overlays that were asked for. It depends on nothing else, so
equal inputs make equal documents.
-/

namespace ComponentPreview

structure Document where
  html : String
  componentName : String
  stubNames : List String
  deriving DecidableEq, Repr

namespace Document

def contentHash (document : Document) : String :=
  Digest.sha256 document.html.toUTF8

def sandboxAttribute : String :=
  " ".intercalate Sandbox.sandboxFlags

/-- Assigns the entry slot from the component of that name when nothing was exported. -/
def entryFallback (name : String) : String :=
  "\n;if (typeof " ++ Script.entrySlot ++ " === 'undefined' && typeof " ++ name ++
    " !== 'undefined') \x7b " ++ Script.entrySlot ++ " = " ++ name ++ "; \x7d\n"

def runtimeTags (config : Config) : String :=
  "\n".intercalate (
    ((Sandbox.runtimeScripts config.runtimeCdn).map fun (primary, fallback) =>
      "<script crossorigin src=\"" ++ primary ++ "\" data-fallback=\"" ++ fallback ++
        "\" onerror=\"__runtimeFallback(this)\"></script>") ++
    (if config.enableTailwind then
      ["<script src=\"" ++ Sandbox.tailwindCdn ++ "\"></script>"] else []))

def debugPanel (analysis : Analysis) : String :=
  let metrics := [
    ("Component", analysis.componentName),
    ("Type", analysis.kind.label),
    ("Lines", toString analysis.lineCount),
    ("Hooks", toString analysis.hooks.length),
    ("Imports", toString analysis.imports.length),
    ("Complexity", analysis.complexity.label)]
  let rows := metrics.map fun (label, value) =>
    "<div class=\"metric\"><span>" ++ label ++ ":</span><span class=\"value\">" ++
      Markup.escape value ++ "</span></div>"
  "<div class=\"debug-panel\">\n<h4>🔧 Debug Info</h4>\n" ++ "\n".intercalate rows ++ "\n</div>"

def performanceMonitor : String :=
  "<div class=\"performance-monitor\">⚡ Render: <span id=\"renderTime\">-</span>ms</div>"

def accessibilityChecker (analysis : Analysis) : String :=
  let issues := analysis.accessibility.map fun issue =>
    "<li>" ++ Markup.escape issue.message ++ "</li>"
  "<details class=\"accessibility-checker\">\n<summary>♿ A11Y: " ++
    toString (Accessibility.score analysis.accessibility) ++ "</summary>\n<ul>" ++
    (if issues.isEmpty then "<li>No issues found</li>" else String.join issues) ++
    "</ul>\n</details>"

/-- The overlays that the options switch on. -/
def overlays (analysis : Analysis) (options : Json) : String :=
  "\n".intercalate (
    (if (options.get "debug").isTruthy then [debugPanel analysis] else []) ++
    (if (options.get "performance").isTruthy then [performanceMonitor] else []) ++
    (if (options.get "accessibility").isTruthy then [accessibilityChecker analysis] else []))

def componentInfo (analysis : Analysis) : String :=
  let hooks := ", ".intercalate analysis.hooks
  let items := [
    ("Name", analysis.componentName),
    ("Type", analysis.kind.label),
    ("Lines of Code", toString analysis.lineCount),
    ("Complexity", analysis.complexity.label),
    ("Hooks", if hooks.isEmpty then "none" else hooks),
    ("Accessibility", toString (Accessibility.score analysis.accessibility) ++ "/100")]
  let rows := items.map fun (label, value) =>
    "<div class=\"info-item\"><span class=\"info-label\">" ++ label ++
      ":</span><span class=\"info-value\">" ++ Markup.escape value ++ "</span></div>"
  "<div class=\"component-info\">\n<h3>📊 Component Analysis</h3>\n<div class=\"info-grid\">\n" ++
    "\n".intercalate rows ++ "\n</div>\n</div>"

def runtimeConfig (name : String) (config : Config) : Json :=
  .obj [
    ("componentName", .str name),
    ("retryLimit", .int config.retryLimit),
    ("settleDelayMs", .int config.settleDelayMs),
    ("reactGlobals", .ofStrings Sandbox.reactGlobals)
  ]

def sourceLiteral (script : Script) (name : String) : String :=
  Markup.scriptJson (.str (String.ofList script.text ++ entryFallback name))

def head (name : String) (config : Config) : List String := [
  "<!DOCTYPE html>",
  "<html lang=\"en\">",
  "<head>",
  "<meta charset=\"UTF-8\">",
  "<meta name=\"viewport\" content=\"width=device-width, initial-scale=1\">",
  "<meta http-equiv=\"Content-Security-Policy\" content=\"" ++
    Markup.escape (Sandbox.contentSecurityPolicy config.runtimeCdn config.enableTailwind) ++ "\">",
  "<title>" ++ Markup.escape name ++ " - Live Preview</title>",
  "<script>" ++ Sandbox.loader ++ "</script>",
  runtimeTags config,
  "<style>",
  Sandbox.style,
  "</style>",
  "</head>"
]

def body (analysis : Analysis) (stubs : List Stub) (script : Script) (config : Config)
    (options : Json) : List String := [
  "<body>",
  overlays analysis options,
  "<div class=\"preview-container\">",
  if (options.get "info").isTruthy then componentInfo analysis else "",
  "<div id=\"root\"></div>",
  "</div>",
  "<script>",
  "window.__PREVIEW_CONFIG__ = " ++
    Markup.scriptJson (runtimeConfig analysis.componentName config) ++ ";",
  "window.__PREVIEW_SOURCE__ = " ++ sourceLiteral script analysis.componentName ++ ";",
  Sandbox.prelude,
  "\n".intercalate (stubs.map Stub.definition),
  "</script>",
  "</body>",
  "</html>"
]

def build (analysis : Analysis) (stubs : List Stub) (script : Script) (config : Config)
    (options : Json) : Document where
  html := "\n".intercalate
    (head analysis.componentName config ++ body analysis stubs script config options)
  componentName := analysis.componentName
  stubNames := stubs.map Stub.name

end Document

end ComponentPreview
