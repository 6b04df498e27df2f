import ComponentPreview.Preview
import ComponentPreview.Proofs.Document.Answer
import ComponentPreview.Proofs.Script.Checked

/-!
# Stages that cannot fail

The analysis of a source, its stubs and the report on it look up groups of matches and first and
last parts, and divide by counts. Written with checked steps they succeed on every text.

A preview that goes wrong in any step is answered with a failure. Written with checked steps, no
step of the default pipeline goes wrong, so that a source is answered with its document if the gate
accepts it and with a rejection if it does not (`answers_by_verdict`).
-/

namespace ComponentPreview

open Pattern

/-! ## Analysis -/

namespace Component

def tryNameIn (text : List Char) : Checked String :=
  match forms.findSome? (·.first? text) with
  | some found => String.ofList <$> found.groupAt 0
  | none => pure defaultName

theorem tryNameIn_eq (text : List Char) : tryNameIn text = .ok (nameIn text) := by
  unfold tryNameIn nameIn
  cases named : forms.findSome? (·.first? text) with
  | none => rfl
  | some found =>
      obtain ⟨form, mem, first⟩ := List.exists_of_findSome?_eq_some named
      have captures : ∀ form ∈ forms, 0 < form.captures := by decide
      simp only [groupAt_of_first? (captures form mem) first, Checked.map_ok]

end Component

namespace Import

def tryLocalName (piece : List Char) : Checked (List Char) := do
  let bare := dropOpening (lit "type" ++ gap) (Text.trim isBlank piece)
  let name := Text.trim isBlank (← tryLast (aliasMark.cut bare))
  return if name == ['*'] then [] else name

def tryBoundNames (specifier : List Char) : Checked (List String) := do
  let pieces := Text.cut isSpecifierCut (dropOpening (spacing ++ lit "type" ++ gap) specifier)
  let names ← pieces.mapM tryLocalName
  return (names.filter (!·.isEmpty)).map String.ofList

def tryAll (text : List Char) : Checked (List Import) :=
  (statement.findAll text).mapM fun found => do
    let names ← tryBoundNames (← found.groupAt 0)
    return ⟨names, String.ofList (← found.groupAt 1)⟩

theorem tryLocalName_eq (piece : List Char) : tryLocalName piece = .ok (localName piece) := by
  rw [tryLocalName, tryLast_eq (cut_ne_nil _ _) []]
  rfl

theorem tryBoundNames_eq (specifier : List Char) :
    tryBoundNames specifier = .ok (boundNames specifier) := by
  rw [tryBoundNames, Checked.mapM_eq_ok fun piece _ => tryLocalName_eq piece]
  rfl

theorem tryAll_eq (text : List Char) : tryAll text = .ok (all text) := by
  refine Checked.mapM_eq_ok fun found mem => ?_
  rw [groupAt_of_mem_findAll (by decide) mem, groupAt_of_mem_findAll (by decide) mem,
    Checked.ok_bind, tryBoundNames_eq]
  rfl

end Import

namespace Performance

def tryStatePairs (text : List Char) : Checked (List (List Char × List Char)) := do
  let pairs ← (statePair.findAll text).mapM fun pair => do
    return (← pair.groupAt 0, ← pair.groupAt 1)
  return Text.distinct pairs

def tryOfText (text : List Char) : Checked Performance := do
  let pairs ← tryStatePairs text
  let isStale := classStaleUpdate.occursIn text ||
    pairs.any fun (value, setter) => (staleUpdate value setter).occursIn text
  let bottlenecks := [.staleClosure, .emptyDependencies, .missingKey, .indexKey].filter fun
    | .staleClosure => isStale
    | other => isPresent text other
  return { ofText text with bottlenecks }

theorem tryStatePairs_eq (text : List Char) : tryStatePairs text = .ok (statePairs text) := by
  have pairs : ∀ pair ∈ statePair.findAll text,
      (do return (← pair.groupAt 0, ← pair.groupAt 1) : Checked (List Char × List Char)) =
        .ok (pair.group 0, pair.group 1) := by
    intro pair mem
    rw [groupAt_of_mem_findAll (by decide) mem, groupAt_of_mem_findAll (by decide) mem]
    rfl
  rw [tryStatePairs, Checked.mapM_eq_ok pairs]
  rfl

theorem tryOfText_eq (text : List Char) : tryOfText text = .ok (ofText text) := by
  rw [tryOfText, tryStatePairs_eq, Checked.ok_bind]
  have same : (fun bottleneck : Bottleneck => match bottleneck with
      | .staleClosure => classStaleUpdate.occursIn text ||
          (statePairs text).any fun (value, setter) => (staleUpdate value setter).occursIn text
      | other => isPresent text other) = isPresent text := by
    funext bottleneck
    cases bottleneck <;> rfl
  simp only [same]
  rfl

end Performance

namespace Analysis

/-- The analysis of a text, with what is looked up in matches taken from checked steps. -/
def tryOfText (text : List Char) : Checked Analysis := do
  let componentName ← Component.tryNameIn text
  let imports ← Import.tryAll text
  let performance ← Performance.tryOfText text
  let hooks := Hook.all text
  return { ofText text with
    componentName
    imports
    performance
    complexity := Complexity.classify (linesIn text) hooks.length imports.length
    description := describe text hooks imports
    hasImports := !imports.isEmpty || (wholeWord "import").occursIn text
    estimatedBundleSize := bundleSize text imports }

theorem tryOfText_eq (text : List Char) : tryOfText text = .ok (ofText text) := by
  rw [tryOfText, Component.tryNameIn_eq, Checked.ok_bind, Import.tryAll_eq, Checked.ok_bind,
    Performance.tryOfText_eq, Checked.ok_bind]
  rfl

end Analysis

/-! ## Stubs -/

namespace Source

def tryDeclaredNames (text : List Char) : Checked (List String) := do
  let names ← (declaration.findAll text).mapM fun found => String.ofList <$> found.groupAt 0
  return Text.distinct names

def tryMarkupNames (text : List Char) : Checked (List String) := do
  let names ← (markupTag.findAll text).mapM fun found => String.ofList <$> found.groupAt 0
  return Text.distinct names

def tryImportedNames (text : List Char) : Checked (List String) := do
  let foreign := (← Import.tryAll text).filter fun statement =>
    !Sandbox.runtimeModules.contains statement.module
  return Text.distinct ((foreign.flatMap Import.names).filter startsUpperCase)

def tryLibraryStub? (module : String) (provided : List String) (specifier : List Char) :
    Checked (Option Stub) := do
  let pieces := (Import.aliasMark.cut (Text.trim isBlank specifier)).map String.ofList
  let binding ← tryHead pieces
  let name ← tryLast pieces
  return if provided.contains binding && Stub.isIdentifier name then
    some ⟨name, .library, Stub.libraryBinding name module (some binding)⟩
  else none

def tryNamedLibraryStubs (found : Match) : Checked (List Stub) := do
  let specifiers ← found.groupAt 0
  let module := String.ofList (← found.groupAt 1)
  match Sandbox.libraryExports? module with
  | some provided =>
      let stubs ← (Text.cut (· == ',') specifiers).mapM (tryLibraryStub? module provided)
      return stubs.filterMap id
  | none => return []

def tryNamespaceLibraryStub? (found : Match) : Checked (Option Stub) := do
  let name := String.ofList (← found.groupAt 0)
  let module := String.ofList (← found.groupAt 1)
  return if (Sandbox.libraryExports? module).isSome then
    some ⟨name, .library, Stub.libraryBinding name module none⟩
  else none

def tryLibraryStubs (text : List Char) : Checked (List Stub) := do
  let named ← (namedImport.findAll text).mapM tryNamedLibraryStubs
  let whole ← (namespaceImport.findAll text).mapM tryNamespaceLibraryStub?
  return firstOfEachName (named.flatten ++ whole.filterMap id)

theorem tryNames_eq {pattern : Pattern} (captures : 0 < pattern.captures) (text : List Char) :
    ((pattern.findAll text).mapM fun found => String.ofList <$> found.groupAt 0) =
      .ok ((pattern.findAll text).map fun found => String.ofList (found.group 0)) := by
  refine Checked.mapM_eq_ok fun found mem => ?_
  rw [groupAt_of_mem_findAll captures mem, Checked.map_ok]

theorem tryDeclaredNames_eq (text : List Char) :
    tryDeclaredNames text = .ok (declaredNames text) := by
  rw [tryDeclaredNames, tryNames_eq (by decide)]
  rfl

theorem tryMarkupNames_eq (text : List Char) : tryMarkupNames text = .ok (markupNames text) := by
  rw [tryMarkupNames, tryNames_eq (by decide)]
  rfl

theorem tryImportedNames_eq (text : List Char) :
    tryImportedNames text = .ok (importedNames text) := by
  rw [tryImportedNames, Import.tryAll_eq]
  rfl

theorem tryLibraryStub?_eq (module : String) (provided : List String) (specifier : List Char) :
    tryLibraryStub? module provided specifier = .ok (libraryStub? module provided specifier) := by
  have some : (Import.aliasMark.cut (Text.trim isBlank specifier)).map String.ofList ≠ [] := by
    simp [cut_ne_nil]
  simp only [tryLibraryStub?, tryHead_eq some "", tryLast_eq some "", Checked.ok_bind,
    libraryStub?]
  rfl

theorem tryNamedLibraryStubs_eq {text : List Char} {found : Match}
    (mem : found ∈ namedImport.findAll text) :
    tryNamedLibraryStubs found = .ok (namedLibraryStubs found) := by
  unfold tryNamedLibraryStubs namedLibraryStubs
  rw [groupAt_of_mem_findAll (by decide) mem, groupAt_of_mem_findAll (by decide) mem]
  simp only [Checked.ok_bind]
  cases Sandbox.libraryExports? (String.ofList (found.group 1)) with
  | none => rfl
  | some provided =>
      simp only [Checked.mapM_eq_ok fun specifier _ => tryLibraryStub?_eq _ _ specifier,
        Checked.ok_bind, List.filterMap_map]
      rfl

theorem tryNamespaceLibraryStub?_eq {text : List Char} {found : Match}
    (mem : found ∈ namespaceImport.findAll text) :
    tryNamespaceLibraryStub? found = .ok (namespaceLibraryStub? found) := by
  unfold tryNamespaceLibraryStub? namespaceLibraryStub?
  rw [groupAt_of_mem_findAll (by decide) mem, groupAt_of_mem_findAll (by decide) mem]
  rfl

theorem tryLibraryStubs_eq (text : List Char) :
    tryLibraryStubs text = .ok (libraryStubs text) := by
  rw [tryLibraryStubs, Checked.mapM_eq_ok fun _ => tryNamedLibraryStubs_eq, Checked.ok_bind,
    Checked.mapM_eq_ok fun _ => tryNamespaceLibraryStub?_eq, Checked.ok_bind, libraryStubs,
    List.filterMap_map, ← List.flatMap_def]
  rfl

end Source

namespace Synthesis

def tryOfText (text : List Char) (seeded : List String) (registry : Registry) :
    Checked Synthesis := do
  let declared ← Source.tryDeclaredNames text
  let library := (← Source.tryLibraryStubs text).filter fun stub => !declared.contains stub.name
  let bound := declared ++ library.map Stub.name
  let imported ← Source.tryImportedNames text
  let markup ← Source.tryMarkupNames text
  return takeAll bound .markup markup
    (takeAll bound .imported imported (takeAll bound .seeded seeded ⟨registry, library, []⟩))

theorem tryOfText_eq (text : List Char) (seeded : List String) (registry : Registry) :
    tryOfText text seeded registry = .ok (ofText text seeded registry) := by
  simp only [tryOfText, Source.tryDeclaredNames_eq, Source.tryLibraryStubs_eq,
    Source.tryImportedNames_eq, Source.tryMarkupNames_eq, Checked.ok_bind]
  rfl

end Synthesis

/-! ## Reports -/

namespace Double

/-- A quotient of two counts to a number of decimal places. -/
def tryQuotient (places part whole : Nat) : Checked Double :=
  if whole = 0 then throw .division
  else pure ((ofQuotient false part whole).roundTo places)

/-- A quotient where there is something to count, and else zero. -/
def tryRatio (places part whole : Nat) : Checked Double :=
  if whole = 0 then pure (.finite false 0 leastExponent) else tryQuotient places part whole

theorem tryRatio_eq (places part whole : Nat) :
    tryRatio places part whole = .ok (ratio places part whole) := by
  unfold tryRatio tryQuotient ratio
  split <;> rfl

end Double

namespace Analysis

def Metrics.tryEncode (metrics : Metrics) : Checked Json := do
  let commentRatio ← Double.tryRatio 3 metrics.commentLines metrics.nonEmptyLines
  let averageLength ← Double.tryRatio 1 metrics.characters metrics.nonEmptyLines
  return .obj [
    ("totalLines", .ofNat metrics.totalLines),
    ("nonEmptyLines", .ofNat metrics.nonEmptyLines),
    ("commentLines", .ofNat metrics.commentLines),
    ("codeLines", .ofNat (metrics.nonEmptyLines - metrics.commentLines)),
    ("commentRatio", .num commentRatio),
    ("averageLineLength", .num averageLength)]

def tryReport (text : List Char) (analysis : Analysis) : Checked Json := do
  let metrics ← (Metrics.ofText text).tryEncode
  return .obj [
    ("codeMetrics", metrics),
    ("suggestions", encodeSuggestions analysis),
    ("optimizationTips", .ofStrings (tips text analysis)),
    ("accessibilityReport", encodeAccessibility "recommendations" analysis.accessibility),
    ("performanceReport", encodePerformanceReport text analysis),
    ("securityReport", encodeSecurity "recommendations" analysis.security)]

theorem tryReport_eq (text : List Char) (analysis : Analysis) :
    tryReport text analysis = .ok (report text analysis) := by
  simp only [tryReport, Metrics.tryEncode, Double.tryRatio_eq, Checked.ok_bind, Checked.pure_eq]
  rfl

end Analysis

end ComponentPreview

/-! ## The verdict and the answer -/

namespace ComponentPreview.Preview

/-- The answer to a request, made with checked steps and the default script. -/
def tryBuild (setting : Setting) (request : Request) : Checked Answer := do
  let source : Source := ⟨request.code⟩
  let analysis ← Analysis.tryOfText source.text
  let validation := Validation.of setting.config source analysis
  if !validation.isValid then
    return {
      status := 400
      body := rejectionBody analysis validation
      success := none
      registry := setting.registry
      serialsUsed := 0 }
  let isNew := (request.session.getD "").isEmpty
  let session := if isNew then newSession setting.serial else request.session.getD ""
  let synthesis ←
    Synthesis.tryOfText source.text (seededNames request.options) setting.registry
  let script ← Script.tryOfText Script.entrySlot source.text
  let document := Document.build analysis synthesis.stubs script setting.config request.options
  let report ← Analysis.tryReport source.text analysis
  return {
    status := 200
    body := .obj [
      ("success", .bool true),
      ("previewHTML", .str document.html),
      ("analysis", analysis.encode),
      ("metadata", metadata request setting session source analysis validation synthesis script
        document),
      ("additionalData", report),
      ("timestamp", .str setting.now.toMilliseconds)]
    success := some ⟨session, request.version, document⟩
    registry := synthesis.registry
    serialsUsed := if isNew then 1 else 0 }

/-- A step that fails makes the answer a failure. -/
def attempt (setting : Setting) (request : Request) : Answer :=
  match tryBuild setting request with
  | .ok answer => answer
  | .error mishap =>
      { status := 500
        body := failureBody mishap.message
        success := none
        registry := setting.registry
        serialsUsed := 0 }

variable (config : Config) (registry : Registry) (now : Instant) (serial : Nat)
  (request : Request)

/-- No step of a preview with the default script fails. -/
theorem tryBuild_eq :
    tryBuild { config, registry, now, serial } request =
      .ok (build { config, registry, now, serial } request) := by
  unfold tryBuild build
  simp only [Analysis.tryOfText_eq, Synthesis.tryOfText_eq, Script.tryOfText_eq,
    Analysis.tryReport_eq, Checked.ok_bind]
  cases (Validation.of config ⟨request.code⟩ (Analysis.ofText request.code)).isValid with
  | false => rfl
  | true => rfl

theorem exists_document_of_accepted {config : Config} {request : Request}
    (accepted : (Validation.of config ⟨request.code⟩
      (Analysis.ofText request.code)).isValid = true) :
    ∃ document, document? { config, registry, now, serial } request = some document := by
  simp [document?, accepted]

theorem build_of_invalid (setting : Setting) {request : Request}
    (rejected : (Validation.of setting.config ⟨request.code⟩
      (Analysis.ofText request.code)).isValid = false) :
    (build setting request).status = 400 ∧ (build setting request).success = none ∧
      ∀ field ∈ ["previewHTML", "metadata"], (build setting request).body.has field = false := by
  unfold build
  simp only [rejected, Bool.not_false, if_true]
  exact ⟨trivial, trivial, by simp [rejectionBody, Json.has, Named.get?]⟩

end ComponentPreview.Preview
