/-!
# Loader of the runtime scripts
-/

namespace ComponentPreview.Sandbox

def loaderLines : List String := [
  "",
  "function __runtimeFallback(el) \x7b",
  "  var url = el.getAttribute('data-fallback');",
  "  if (!url) return;",
  "  var script = document.createElement('script');",
  "  script.src = url;",
  "  script.crossOrigin = 'anonymous';",
  "  script.async = false;",
  "  document.head.appendChild(script);",
  "\x7d",
  ""
]

/-- Loads a runtime script from its second source when the first fails. -/
def loader : String :=
  "\n".intercalate loaderLines

end ComponentPreview.Sandbox
