import ComponentPreview.Json.Value

/-!
# Configuration

The limits of one preview and where the document loads its runtime from.
-/

namespace ComponentPreview

structure Config where
  maxCodeSize : Int := 100000
  blockedKeywords : List String := ["eval(", "Function("]
  maxRenderTimeMs : Int := 5000
  debounceMs : Int := 1000
  retryLimit : Int := 3
  maxStatefulCalls : Int := 10
  settleDelayMs : Int := 100
  runtimeCdn : String := "https://unpkg.com"
  enableTailwind : Bool := true
  deriving DecidableEq, Repr

namespace Config

def encode (config : Config) : Json :=
  .obj [
    ("max_code_size", .int config.maxCodeSize),
    ("blocked_keywords", .ofStrings config.blockedKeywords),
    ("max_render_time_ms", .int config.maxRenderTimeMs),
    ("debounce_ms", .int config.debounceMs),
    ("retry_limit", .int config.retryLimit),
    ("max_stateful_calls", .int config.maxStatefulCalls),
    ("settle_delay_ms", .int config.settleDelayMs),
    ("runtime_cdn", .str config.runtimeCdn),
    ("enable_tailwind", .bool config.enableTailwind)
  ]

/-- Gives a field a value; a value that does not fit, and an unknown name, change nothing. -/
def assign (config : Config) (name : String) (value : Json) : Config :=
  let number (old : Int) : Int := match value with
    | .int value => value
    | .bool value => if value then 1 else 0
    | _ => old
  match name with
  | "max_code_size" => { config with maxCodeSize := number config.maxCodeSize }
  | "blocked_keywords" =>
      match value with
      | .arr items => { config with blockedKeywords := items.filterMap Json.str? }
      | _ => config
  | "max_render_time_ms" => { config with maxRenderTimeMs := number config.maxRenderTimeMs }
  | "debounce_ms" => { config with debounceMs := number config.debounceMs }
  | "retry_limit" => { config with retryLimit := number config.retryLimit }
  | "max_stateful_calls" => { config with maxStatefulCalls := number config.maxStatefulCalls }
  | "settle_delay_ms" => { config with settleDelayMs := number config.settleDelayMs }
  | "runtime_cdn" => { config with runtimeCdn := value.str?.getD config.runtimeCdn }
  | "enable_tailwind" => { config with enableTailwind := value.isTruthy }
  | _ => config

/-- The defaults with the fields of an object in their place. -/
def ofJson : Json → Config
  | .obj fields => fields.foldl (fun config (name, value) => config.assign name value) {}
  | _ => {}

end Config

/-- What went wrong with a preview, for whoever shows it. -/
inductive FailureKind
  | input
  | security
  | compile
  | runtime
  | unresolvedSymbol
  | transport
  deriving DecidableEq, Repr

namespace FailureKind

def label : FailureKind → String
  | input => "InputError"
  | security => "SecurityError"
  | compile => "SyntaxError"
  | runtime => "RuntimeError"
  | unresolvedSymbol => "UnresolvedSymbolError"
  | transport => "TransportError"

def all : List FailureKind :=
  [input, security, compile, runtime, unresolvedSymbol, transport]

def ofLabel? (text : String) : Option FailureKind :=
  all.find? (·.label == text)

theorem ofLabel?_label (kind : FailureKind) : ofLabel? kind.label = some kind := by
  cases kind <;> decide

end FailureKind

end ComponentPreview
