/-!
# Names that the sandbox binds

The sandbox binds React, its named exports and working stand-ins for the exports of some libraries.
-/

namespace ComponentPreview.Sandbox

def reactGlobals : List String := [
  "useState", "useEffect", "useContext", "useReducer", "useCallback", "useMemo", "useRef",
  "useLayoutEffect", "useImperativeHandle", "useDebugValue", "useId", "useTransition",
  "useDeferredValue", "useSyncExternalStore", "Children", "Component", "PureComponent",
  "Fragment", "Suspense", "StrictMode", "Profiler", "createContext", "createElement",
  "cloneElement", "forwardRef", "memo", "lazy", "startTransition"
]

/-- The names that are never stubbed. -/
def runtimeBindings : List String :=
  "React" :: "ReactDOM" :: reactGlobals

/-- The modules whose imports the runtime itself satisfies. -/
def runtimeModules : List String :=
  ["react", "react-dom", "react-dom/client"]

/-- The modules with stand-ins, each with the exports it stands in for. -/
def libraries : List (String × List String) := [
  ("react-router-dom", ["BrowserRouter", "MemoryRouter", "Routes", "Route", "Link", "NavLink",
    "Outlet", "useNavigate", "useParams", "useLocation", "useSearchParams"])
]

def libraryExports? (module : String) : Option (List String) :=
  (libraries.find? (·.1 == module)).map Prod.snd

end ComponentPreview.Sandbox
