import ComponentPreview.Proofs.Document.Answer
import ComponentPreview.Proofs.Stub.Outline

/-!
# Documents and history

A document is made of what the stubs of its source say, and that does not depend on the previews
that filled the registry. So a session with a history shows the same documents as a new one.
-/

namespace ComponentPreview

namespace Document

/-- A document depends on its stubs only by what they say. -/
theorem build_congr {stubs others : List Stub}
    (same : stubs.map (fun stub => (stub.name, stub.definition)) =
      others.map fun stub => (stub.name, stub.definition))
    (analysis : Analysis) (script : Script) (config : Config) (options : Json) :
    build analysis stubs script config options = build analysis others script config options := by
  have names : stubs.map Stub.name = others.map Stub.name := by
    simpa [List.map_map, Function.comp_def] using congrArg (List.map Prod.fst) same
  have definitions : stubs.map Stub.definition = others.map Stub.definition := by
    simpa [List.map_map, Function.comp_def] using congrArg (List.map Prod.snd) same
  simp only [build, body, names, definitions]

end Document

namespace Preview

variable {setting : Setting} {request : Request}

/-- Requests with the same source and options get the same document with and without a history. -/
theorem document?_eq (holds : setting.registry.HoldsPlaceholders) {fresh : Setting}
    {again : Request} (fresh_eq : fresh.registry = .empty)
    (config_eq : fresh.config = setting.config)
    (makeScript_eq : fresh.makeScript = setting.makeScript) (code_eq : again.code = request.code)
    (options_eq : again.options = request.options) :
    document? fresh again = document? setting request := by
  have outline_eq := (Synthesis.outline_ofText request.code (seededNames request.options) holds).1
  have fresh_outline_eq := (Synthesis.outline_ofText request.code (seededNames request.options)
    Registry.holdsPlaceholders_empty).1
  have same := congrArg Outline.entries (fresh_outline_eq.trans outline_eq.symm)
  simp only [document?, fresh_eq, config_eq, makeScript_eq, code_eq, options_eq,
    Document.build_congr same]

/-- Whatever previews filled the registry, a request that is answered with a document would be
answered with the same page, hash and names of stubs by a new session, whatever its session,
version, collaboration, time and serial number. -/
theorem document_ignores_history (reached : setting.registry.Reached)
    (answered : (build setting request).status = 200) (session : Option String) (version : Int)
    (collaboration : Bool) (now : Instant) (serial : Nat) :
    let fresh : Setting := { setting with registry := .empty, now, serial }
    let again : Request := { request with session, version, collaboration }
    ∃ first second,
      (build setting request).Presents first ∧ (build fresh again).Presents second ∧
        first.document = second.document := by
  intro fresh again
  obtain ⟨document, found⟩ := document?_of_status answered
  have same : document? fresh again = document? setting request :=
    document?_eq reached.holdsPlaceholders rfl rfl rfl rfl rfl
  exact ⟨_, _, build_presents found, build_presents (same.trans found), rfl⟩

/-- A tag whose stub an earlier preview registered as asked for by the host. -/
theorem seeded_tag_ignores_history :
    let asked : Request := ⟨['x'], .obj [("stubs", .ofStrings ["Card"])], none, 1, false⟩
    let setting : Setting := { registry := (build {} asked).registry }
    let request : Request := { code := ['<', 'C', 'a', 'r', 'd', '>'] }
    setting.registry.names = ["Card"] ∧ setting.registry.Reached ∧
    (build setting request).status = 200 ∧
    ∃ first second,
      (build setting request).Presents first ∧
        (build { setting with registry := .empty, now := 0, serial := 1 }
          { request with session := some "other", version := 7, collaboration := true }).Presents
            second ∧
        first.document = second.document := by
  intro asked setting request
  have reached : setting.registry.Reached := .build asked .empty
  have answered : (build setting request).status = 200 := by decide
  exact ⟨by decide, reached, answered,
    document_ignores_history reached answered (some "other") 7 true 0 1⟩

end Preview

end ComponentPreview
