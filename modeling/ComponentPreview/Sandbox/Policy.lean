/-!
# Where a preview may load from

The scripts of the runtime, each with a second source, and the content security policy that admits
them and nothing else.
-/

namespace ComponentPreview.Sandbox

def reactVersion : String := "18.2.0"

def compilerVersion : String := "7.22.0"

def fallbackCdn : String := "https://cdn.jsdelivr.net/npm"

def tailwindCdn : String := "https://cdn.tailwindcss.com"

/-- What a sandboxed frame may do. -/
def sandboxFlags : List String := ["allow-scripts"]

def dropSlashes (cdn : String) : String :=
  String.ofList (cdn.toList.reverse.dropWhile (· == '/')).reverse

def scriptPaths : List String := [
  "/react@" ++ reactVersion ++ "/umd/react.production.min.js",
  "/react-dom@" ++ reactVersion ++ "/umd/react-dom.production.min.js",
  "/@babel/standalone@" ++ compilerVersion ++ "/babel.min.js"
]

/-- The scripts of the runtime in load order, each with its second source. -/
def runtimeScripts (cdn : String) : List (String × String) :=
  scriptPaths.map fun path => (dropSlashes cdn ++ path, fallbackCdn ++ path)

def contentSecurityPolicy (cdn : String) (tailwind : Bool) : String :=
  let sources :=
    ["'unsafe-inline'", "'unsafe-eval'", dropSlashes cdn, "https://cdn.jsdelivr.net"] ++
    (if tailwind then [tailwindCdn] else [])
  "; ".intercalate [
    "default-src 'none'",
    "script-src " ++ " ".intercalate sources,
    "style-src 'unsafe-inline' https:",
    "img-src https: data: blob:",
    "font-src https: data:",
    "media-src https: data: blob:",
    "connect-src https:",
    "form-action 'none'",
    "base-uri 'none'"
  ]

end ComponentPreview.Sandbox
