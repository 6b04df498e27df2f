import ComponentPreview.Client.Address
import ComponentPreview.Json.Display
import ComponentPreview.Service.Settings
import ComponentPreview.Text.Integer

/-!
# Defaults of the command line

Where the service is and how long to wait for it. The environment goes before an argument for the
address, and a time that is no number is ignored with a warning.
-/

namespace ComponentPreview.Terminal

def apiUrl (environment : Environment) (given : Option String) : String :=
  let fromEnvironment := (environment.get? "PREVIEW_API_URL").getD ""
  let fromArgument := given.getD ""
  if fromEnvironment != "" then Address.withoutSlashes fromEnvironment
  else if fromArgument != "" then Address.withoutSlashes fromArgument
  else "http://localhost:8000"

/-- The address with the scheme of a socket. -/
def socketUrl (url : String) : String :=
  if Text.startsWith url.toList "https://" then "wss://" ++ String.ofList (url.toList.drop 8)
  else if Text.startsWith url.toList "http://" then "ws://" ++ String.ofList (url.toList.drop 7)
  else url

/-- A whole number and the warning that comes with it. -/
def integer (environment : Environment) (name : String) (default : Int) : Int × String :=
  let value := Text.trim isBlank ((environment.get? name).getD "").toList
  if value.isEmpty then (default, "")
  else
    match Text.readInteger? value with
    | some number => (number, "")
    | none =>
        (default, "Warning: ignoring " ++ name ++ "=" ++ Json.inspectText value ++
          " (not an integer)\n")

def debounceMs (environment : Environment) : Int × String :=
  integer environment "PREVIEW_DEBOUNCE_MS" 1000

def maxRenderTimeMs (environment : Environment) : Int × String :=
  integer environment "PREVIEW_MAX_RENDER_TIME_MS" 5000

end ComponentPreview.Terminal
