import ComponentPreview.Config
import ComponentPreview.Json.Display
import ComponentPreview.Text.Integer
import ComponentPreview.Unicode.Upper

/-!
# Settings of the service

Settings come from environment variables, each with a default. A number that is none, and a limit
that makes no sense, keep the service from starting.
-/

namespace ComponentPreview

abbrev Environment := List (String × String)

def Environment.get? (environment : Environment) (name : String) : Option String :=
  (environment.find? (·.1 == name)).map Prod.snd

structure Settings where
  preview : Config := {}
  sessionMinutes : Int := 60
  requestsPerMinute : Int := 120
  environment : String := "development"
  publicUrl : String := "http://localhost:8000"
  deriving DecidableEq, Repr

inductive SettingsError
  | notInteger (name value : String)
  | codeSizeNotPositive
  | retryLimitNegative
  deriving DecidableEq, Repr

def SettingsError.message : SettingsError → String
  | notInteger name value =>
      name ++ " must be an integer, got " ++ Json.inspectText value.toList
  | codeSizeNotPositive => "PREVIEW_MAX_CODE_SIZE must be positive"
  | retryLimitNegative => "PREVIEW_RETRY_LIMIT must not be negative"

namespace Settings

def integer (environment : Environment) (name : String) (default : Int) :
    Except SettingsError Int :=
  match environment.get? name with
  | none => .ok default
  | some value =>
      if value.toList.all isBlank then .ok default
      else
        match Text.readInteger? value.toList with
        | some number => .ok number
        | none => .error (.notInteger name value)

def keywords (environment : Environment) (default : List String) : List String :=
  match environment.get? "PREVIEW_BLOCKED_KEYWORDS" with
  | none => default
  | some value =>
      (((Text.cut (· == ',') value.toList).map (Text.trim isBlank)).filter
        (!·.isEmpty)).map String.ofList

def isOn (value : String) : Bool :=
  String.ofList (value.toList.map asciiLower) != "false"

def publicUrlOf (environment : Environment) (name : String) : String :=
  let given := (environment.get? "PUBLIC_URL").getD ""
  if given != "" then given
  else if name == "development" then "http://localhost:8000"
  else ""

def ofEnvironment (environment : Environment) : Except SettingsError Settings := do
  let base : Config := {}
  let maxCodeSize ← integer environment "PREVIEW_MAX_CODE_SIZE" base.maxCodeSize
  let maxStatefulCalls ← integer environment "PREVIEW_MAX_STATEFUL_CALLS" base.maxStatefulCalls
  let maxRenderTimeMs ← integer environment "PREVIEW_MAX_RENDER_TIME_MS" base.maxRenderTimeMs
  let debounceMs ← integer environment "PREVIEW_DEBOUNCE_MS" base.debounceMs
  let retryLimit ← integer environment "PREVIEW_RETRY_LIMIT" base.retryLimit
  let settleDelayMs ← integer environment "PREVIEW_SETTLE_DELAY_MS" base.settleDelayMs
  let sessionMinutes ← integer environment "PREVIEW_SESSION_TTL_MINUTES" 60
  let requestsPerMinute ← integer environment "PREVIEW_RATE_LIMIT_PER_MINUTE" 120
  let name := (environment.get? "ENVIRONMENT").getD "development"
  if maxCodeSize ≤ 0 then throw .codeSizeNotPositive
  if retryLimit < 0 then throw .retryLimitNegative
  return {
    preview := {
      maxCodeSize
      blockedKeywords := keywords environment base.blockedKeywords
      maxRenderTimeMs
      debounceMs
      retryLimit
      maxStatefulCalls
      settleDelayMs
      runtimeCdn := (environment.get? "PREVIEW_RUNTIME_CDN").getD base.runtimeCdn
      enableTailwind := isOn ((environment.get? "PREVIEW_ENABLE_TAILWIND").getD "true") }
    sessionMinutes
    requestsPerMinute
    environment := name
    publicUrl := publicUrlOf environment name }

/-- The fields of a configuration by the names of their variables. -/
def configFields : List (String × String) := [
  ("PREVIEW_MAX_CODE_SIZE", "max_code_size"),
  ("PREVIEW_BLOCKED_KEYWORDS", "blocked_keywords"),
  ("PREVIEW_MAX_STATEFUL_CALLS", "max_stateful_calls"),
  ("PREVIEW_MAX_RENDER_TIME_MS", "max_render_time_ms"),
  ("PREVIEW_DEBOUNCE_MS", "debounce_ms"),
  ("PREVIEW_RETRY_LIMIT", "retry_limit"),
  ("PREVIEW_SETTLE_DELAY_MS", "settle_delay_ms"),
  ("PREVIEW_RUNTIME_CDN", "runtime_cdn"),
  ("PREVIEW_ENABLE_TAILWIND", "enable_tailwind")
]

/-- Changes one setting of a running service. -/
def assign (settings : Settings) (name : String) (value : Json) : Settings :=
  let number (old : Int) : Int := value.int?.getD old
  match name with
  | "PREVIEW_SESSION_TTL_MINUTES" =>
      { settings with sessionMinutes := number settings.sessionMinutes }
  | "PREVIEW_RATE_LIMIT_PER_MINUTE" =>
      { settings with requestsPerMinute := number settings.requestsPerMinute }
  | "ENVIRONMENT" => { settings with environment := value.str?.getD settings.environment }
  | _ =>
      match configFields.find? (·.1 == name) with
      | some (_, field) => { settings with preview := settings.preview.assign field value }
      | none => settings

end Settings

end ComponentPreview
