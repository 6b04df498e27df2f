import ComponentPreview.Analysis.Report
import ComponentPreview.Clock
import ComponentPreview.Document.Basic
import ComponentPreview.Stub.Synthesis
import ComponentPreview.Validation

/-!
# Previews

`Preview.build` answers one request: it analyses and validates the source, resolves its stubs,
makes its script and puts the document together. It always answers, with a success, a rejection or
a failure.
-/

namespace ComponentPreview

/-- What makes scripts, or the text of what goes wrong with that. -/
abbrev ScriptMaker := List Char → Except String Script

namespace Preview

structure Request where
  code : List Char
  options : Json := .obj []
  session : Option String := none
  version : Int := 1
  collaboration : Bool := false

/-- What the answer depends on besides the request. -/
structure Setting where
  config : Config := {}
  registry : Registry := .empty
  makeScript : ScriptMaker := fun text => .ok (Script.ofText Script.entryAssignment text)
  now : Instant := 0
  serial : Nat := 1

structure Success where
  session : String
  version : Int
  document : Document

structure Answer where
  status : Nat
  body : Json
  success : Option Success
  registry : Registry
  /-- How many serial numbers were used up. -/
  serialsUsed : Nat

/-- Thirty-two hexadecimal digits that begin with a serial number in twelve. -/
def serialDigits (serial : Nat) : String :=
  Json.hexDigits 12 serial ++ Double.zeros 20

def newSession (serial : Nat) : String :=
  "session_" ++ String.ofList ((serialDigits serial).toList.take 16)

/-- The names that the options ask to seed. -/
def seededNames (options : Json) : List String :=
  match options.get "stubs" with
  | .arr items => items.filterMap Json.str?
  | _ => []

def rejectionBody (analysis : Analysis) (validation : Validation) : Json :=
  .obj [
    ("success", .bool false),
    ("error", .ofOption .str validation.message?),
    ("errorKind", .ofOption (fun kind => .str kind.label) validation.kind?),
    ("suggestions", .ofStrings validation.suggestions),
    ("warnings", .ofStrings validation.warnings),
    ("partialAnalysis", analysis.encode)
  ]

def failureBody (details : String) : Json :=
  .obj [
    ("success", .bool false),
    ("error", .str "Enhanced preview generation failed"),
    ("details", .str details)
  ]

def encodeLimits (config : Config) : Json :=
  .obj [
    ("maxRenderTimeMs", .int config.maxRenderTimeMs),
    ("debounceMs", .int config.debounceMs),
    ("retryLimit", .int config.retryLimit),
    ("settleDelayMs", .int config.settleDelayMs)
  ]

def encodeStubs (stubs : List Stub) : Json :=
  .arr (stubs.map fun stub =>
    .obj [("name", .str stub.name), ("origin", .str stub.origin.label)])

def encodeFailures (failures : List (String × Refusal)) : Json :=
  .ofStrings (failures.map fun (name, refusal) => name ++ ": " ++ refusal.reason)

def metadata (request : Request) (setting : Setting) (session : String) (source : Source)
    (analysis : Analysis) (validation : Validation) (synthesis : Synthesis) (script : Script)
    (document : Document) : Json :=
  .obj [
    ("sessionId", .str session),
    ("version", .int request.version),
    ("collaboration", .bool request.collaboration),
    ("codeHash", .str source.contentHash),
    ("generatedAt", .str setting.now.toMilliseconds),
    ("documentHash", .str document.contentHash),
    ("sandbox", .str Document.sandboxAttribute),
    ("estimatedBundleSize", .ofNat analysis.estimatedBundleSize),
    ("stubs", encodeStubs synthesis.stubs),
    ("unresolved", encodeFailures synthesis.failures),
    ("diagnostics", .ofStrings script.diagnostics),
    ("warnings", .ofStrings validation.warnings),
    ("suggestions", .ofStrings validation.suggestions),
    ("limits", encodeLimits setting.config)
  ]

def build (setting : Setting) (request : Request) : Answer :=
  let source : Source := ⟨request.code⟩
  let analysis := Analysis.ofText source.text
  let validation := Validation.of setting.config source analysis
  if !validation.isValid then
    { status := 400
      body := rejectionBody analysis validation
      success := none
      registry := setting.registry
      serialsUsed := 0 }
  else
    let isNew := (request.session.getD "").isEmpty
    let session := if isNew then newSession setting.serial else request.session.getD ""
    let serialsUsed := if isNew then 1 else 0
    let synthesis := Synthesis.ofText source.text (seededNames request.options) setting.registry
    match setting.makeScript source.text with
    | .error details =>
        { status := 500
          body := failureBody details
          success := none
          registry := synthesis.registry
          serialsUsed }
    | .ok script =>
        let document :=
          Document.build analysis synthesis.stubs script setting.config request.options
        { status := 200
          body := .obj [
            ("success", .bool true),
            ("previewHTML", .str document.html),
            ("analysis", analysis.encode),
            ("metadata", metadata request setting session source analysis validation synthesis
              script document),
            ("additionalData", Analysis.report source.text analysis),
            ("timestamp", .str setting.now.toMilliseconds)]
          success := some ⟨session, request.version, document⟩
          registry := synthesis.registry
          serialsUsed }

def Answer.isSuccess (answer : Answer) : Bool :=
  answer.status == 200

end Preview

end ComponentPreview
