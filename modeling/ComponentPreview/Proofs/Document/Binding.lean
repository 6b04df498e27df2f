import ComponentPreview.Proofs.Document.Answer
import ComponentPreview.Proofs.Export.Entry

/-!
# Names bound in a document

The stubs of a document are chosen by the source and its script is made from the source by rules
that know nothing of stubs. A function that is exported as default is declared in the source, so it
gets no stub, and not declared in the script, where it is part of an assignment. So a document binds
its name for nothing but the function itself, unless the runtime or another rule happens to do so.
-/

namespace ComponentPreview.Preview

open Component

/-- The code of a document finds a name bound by a stub, by the runtime or by the script. -/
def IsBound (document : Document) (script : Script) (name : String) : Prop :=
  name ∈ document.stubNames ∨ name ∈ Sandbox.runtimeBindings ∨
    Script.Declares name.toList script.text

variable {setting : Setting} {request : Request}

/-- What the document of an answer is made of. -/
theorem document?_eq_some {document : Document} (h : document? setting request = some document) :
    ∃ script, setting.makeScript request.code = .ok script ∧
      document = Document.build (Analysis.ofText request.code)
        (Synthesis.ofText request.code (seededNames request.options) setting.registry).stubs script
        setting.config request.options := by
  simp only [document?, Option.ite_none_right_eq_some] at h
  obtain ⟨-, h⟩ := h
  cases made : setting.makeScript request.code with
  | error details =>
      rw [made] at h
      cases h
  | ok script =>
      rw [made, Option.some.injEq] at h
      exact ⟨script, rfl, h.symm⟩

/-- A name that is exported as a function by default, and is that of no other function, is bound for
the code of its document just if the runtime or the script binds it, since it never has a stub. The
script does so only if the keywords of the export begin within a word, if the name ends with what is
put in their place, or if another rule brings the name. -/
theorem exported_function_isBound_iff {left : List Char} {name : String}
    (stands : Form.exportedFunction.StandsAt request.code left name.toList)
    (capital : Source.startsUpperCase name = true)
    (sole : ∀ front front', Form.function.StandsAt request.code front name.toList →
      Form.function.StandsAt request.code front' name.toList → front = front')
    (reached : setting.registry.Reached)
    (made : setting.makeScript request.code =
      .ok (Script.ofText Script.entryAssignment request.code))
    (answered : (build setting request).status = 200) :
    let script := Script.ofText Script.entryAssignment request.code
    ∃ success stubs, (build setting request).Presents success ∧
      success.document = Document.build (Analysis.ofText request.code) stubs script setting.config
        request.options ∧
      name ∉ success.document.stubNames ∧
      (IsBound success.document script name ↔
        name ∈ Sandbox.runtimeBindings ∨ Script.Declares name.toList script.text) ∧
      (Script.Declares name.toList script.text →
        (∃ c ∈ left.getLast?, isWord c = true) ∨ "$window".toList <:+ name.toList ∨
          ∃ rule : Rule, rule.Brings name.toList request.code) := by
  intro script
  obtain ⟨document, found⟩ := document?_of_status answered
  obtain ⟨script', made', document_eq⟩ := document?_eq_some found
  rw [made, Except.ok.injEq] at made'
  rw [← made'] at document_eq
  have declared := Source.mem_declaredNames_of_exported stands
  rw [String.ofList_toList] at declared
  have unstubbed : name ∉ document.stubNames := by
    rw [document_eq]
    intro mem
    obtain ⟨stub, taken, rfl⟩ := List.mem_map.1 mem
    exact Synthesis.name_not_mem_declaredNames reached.holdsPlaceholders _ _ stub taken declared
  have other : name.toList ≠ "window".toList := by
    intro same
    rw [String.toList_injective same] at capital
    exact absurd capital (by decide)
  have bound : IsBound document script name ↔
      name ∈ Sandbox.runtimeBindings ∨ Script.Declares name.toList script.text :=
    or_iff_right unstubbed
  refine ⟨⟨sessionOf setting request, request.version, document⟩, _, build_presents found,
    document_eq, unstubbed, bound, fun declares => ?_⟩
  rw [Script.text_ofText] at declares
  exact Script.declares_exported stands other sole declares

/-- A source whose function is used as a component outside of itself. -/
theorem exported_function_named_app :
    let code := "const y = 1;\nexport default function App() { return y }\nx(<App />);\n".toList
    let left := "const y = 1;\n".toList
    let request : Request := { code }
    let script := Script.ofText Script.entryAssignment code
    Form.exportedFunction.StandsAt code left "App".toList ∧
    Source.startsUpperCase "App" = true ∧
    (∀ front front', Form.function.StandsAt code front "App".toList →
      Form.function.StandsAt code front' "App".toList → front = front') ∧
    (Setting.registry {}).Reached ∧ Setting.makeScript {} code = .ok script ∧
    (build {} request).status = 200 ∧
    ∃ success stubs, (build {} request).Presents success ∧
      success.document = Document.build (Analysis.ofText code) stubs script {} request.options ∧
      "App" ∉ success.document.stubNames ∧
      (IsBound success.document script "App" ↔
        "App" ∈ Sandbox.runtimeBindings ∨ Script.Declares "App".toList script.text) ∧
      (Script.Declares "App".toList script.text →
        (∃ c ∈ left.getLast?, isWord c = true) ∨ "$window".toList <:+ "App".toList ∨
          ∃ rule : Rule, rule.Brings "App".toList code) := by
  intro code left request script
  have stands : Form.exportedFunction.StandsAt code left "App".toList := by
    have some : [' '] ≠ [] := List.cons_ne_nil _ _
    have areBlank : ∀ c ∈ [' '], isBlank c = true := List.all_eq_true.1 (by decide)
    have identifier : IsIdentifier "App".toList :=
      ⟨'A', ['p', 'p'], rfl, by decide, List.all_eq_true.1 (by decide)⟩
    have leads : IsLead ["export", "default", "function"] "export default function ".toList :=
      ⟨[' '], "default function ".toList, rfl, some, areBlank, [' '], "function ".toList, rfl, some,
        areBlank, [' '], [], rfl, some, areBlank, rfl⟩
    refine ⟨"export default function ".toList, "() { return y }\nx(<App />);\n".toList, rfl,
      ⟨.inl rfl, leads, identifier, ?_, trivial, trivial⟩⟩
    rintro c ⟨⟩
    decide
  have capital : Source.startsUpperCase "App" = true := by decide
  have places : ∀ n < code.length, "function".toList <+: code.drop n → n = 28 := by decide +kernel
  have sole : ∀ front front', Form.function.StandsAt code front "App".toList →
      Form.function.StandsAt code front' "App".toList → front = front' := by
    intro front front' stands stands'
    obtain ⟨n, within, rfl, spelled⟩ := Source.keyword_of_function stands
    obtain ⟨n', within', rfl, spelled'⟩ := Source.keyword_of_function stands'
    rw [places n within spelled, places n' within' spelled']
  have answered : (build {} request).status = 200 := by decide +kernel
  exact ⟨stands, capital, sole, .empty, rfl, answered,
    exported_function_isBound_iff stands capital sole .empty rfl answered⟩

/-- What a source uses as a component behind its own definition is not bound. -/
theorem exported_function_unbound :
    let code := "export default function App() { return null }\nconst x = <App />;\n".toList
    let script := Script.ofText Script.entryAssignment code
    "App" ∈ Source.markupNames code ∧ ∃ success, (build {} { code }).Presents success ∧
      success.document.stubNames = [] ∧ ¬IsBound success.document script "App" := by
  intro code script
  obtain ⟨document, found⟩ : ∃ document, document? {} { code } = some document :=
    document?_of_status (by decide +kernel)
  obtain ⟨script', made, document_eq⟩ := document?_eq_some found
  have stubs : (Synthesis.ofText code [] .empty).stubs = [] := by decide +kernel
  have none : document.stubNames = [] := by
    rw [document_eq]
    exact congrArg (List.map Stub.name) stubs
  have assigned : ∀ n < script.text.length, "function".toList <+: script.text.drop n →
      Modules.entryText <:+ script.text.take n := by
    decide +kernel
  refine ⟨by decide +kernel, _, build_presents found, none, ?_⟩
  rintro (stubbed | runtime | ⟨front, stands, apart⟩)
  · rw [none] at stubbed
    cases stubbed
  · exact absurd runtime (by decide)
  · obtain ⟨n, within, rfl, spelled⟩ := Source.keyword_of_function stands
    exact apart (assigned n within spelled)

end ComponentPreview.Preview
