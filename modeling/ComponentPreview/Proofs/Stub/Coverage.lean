import ComponentPreview.Proofs.Stub.Tag
import Mathlib.Data.List.Nodup

/-!
# Which names get stubs

Names come from imports of libraries, from the host, from other imports and from tags. Whatever
these have in common and whatever was registered before, every name is settled once it is taken up
(`Synthesis.settled_takeAll`), no name gets two stubs, and stubs and registry agree
(`Synthesis.Built`). So every component that a source uses is bound exactly once
(`Synthesis.components_covered`). A name of the runtime is passed over wherever it comes from, but
for an import of a library that gives it to what it imports (`Synthesis.runtime_name_stubbed_iff`).
-/

namespace ComponentPreview

namespace Registry

/-- A later registry. What was registered stays in its place, and nothing of a library is added. -/
def Grows (first last : Registry) : Prop :=
  ∃ more, last.stubs = first.stubs ++ more ∧ ∀ stub ∈ more, stub.origin ≠ .library

variable {first middle last registry : Registry} {name : String} {origin : StubOrigin}

theorem find?_of_stubs {stub : Stub} (h : first.stubs <+: last.stubs)
    (found : first.find? name = some stub) : last.find? name = some stub := by
  obtain ⟨more, eq⟩ := h
  unfold find? at found ⊢
  rw [← eq, List.find?_append, found]
  rfl

namespace Grows

theorem refl (registry : Registry) : registry.Grows registry :=
  ⟨[], (List.append_nil _).symm, List.forall_mem_nil _⟩

theorem trans (h : first.Grows middle) (h' : middle.Grows last) : first.Grows last := by
  obtain ⟨more, eq, other⟩ := h
  obtain ⟨more', eq', other'⟩ := h'
  exact ⟨more ++ more', by rw [eq', eq, List.append_assoc],
    List.forall_mem_append.2 ⟨other, other'⟩⟩

theorem find?_eq (h : first.Grows last) {stub : Stub} (found : first.find? name = some stub) :
    last.find? name = some stub := by
  obtain ⟨more, eq, -⟩ := h
  exact find?_of_stubs ⟨more, eq.symm⟩ found

end Grows

/-- A name resolves to the stub then registered under it, or it is refused and nothing changes. -/
theorem resolve_grows (registry : Registry) (name : String) (other : origin ≠ .library) :
    (∃ stub after, registry.resolve name origin = (after, .ok stub) ∧ stub.name = name ∧
      after.find? name = some stub ∧ registry.Grows after) ∨
    ∃ refusal, registry.resolve name origin = (registry, .error refusal) ∧
      (Stub.isIdentifier name = false ∨ name ∈ Sandbox.runtimeBindings) := by
  unfold resolve
  split
  · next stub found => exact .inl ⟨stub, registry, rfl, name_of_find? found, found, .refl _⟩
  · next absent =>
      split
      · next unfit => exact .inr ⟨_, rfl, .inl (by simpa using unfit)⟩
      split
      · next runtime => exact .inr ⟨_, rfl, .inr (List.contains_iff_mem.1 runtime)⟩
      · refine .inl ⟨_, _, rfl, ?_, ?_, ?_⟩
        · simp [add, absent]
        · exact find?_add_self registry ⟨name, origin, Stub.placeholder name⟩
        · refine ⟨[⟨name, origin, Stub.placeholder name⟩], ?_, ?_⟩
          · simp [add, absent]
          · simpa using other

end Registry

namespace Synthesis

variable {bound names : List String} {synthesis first middle last : Synthesis} {name : String}
  {origin : StubOrigin}

/-- Taking up a name changes nothing, puts the stub now registered under it last unless it is
there, or reports it. -/
theorem take_cases (synthesis : Synthesis) (bound : List String) (name : String)
    (other : origin ≠ .library) :
    ((name ∈ bound ∨ name ∈ Sandbox.runtimeBindings) ∧
      synthesis.take bound name origin = synthesis) ∨
    (name ∉ bound ∧ name ∉ Sandbox.runtimeBindings) ∧
      ((∃ stub after, stub.name = name ∧ after.find? name = some stub ∧
        synthesis.registry.Grows after ∧ synthesis.take bound name origin =
          ⟨after, if synthesis.stubs.contains stub then synthesis.stubs
            else synthesis.stubs ++ [stub], synthesis.failures⟩) ∨
      Stub.isIdentifier name = false ∧ ∃ refusal, synthesis.take bound name origin =
        { synthesis with failures := synthesis.failures ++ [(name, refusal)] }) := by
  unfold take
  split
  · next settled =>
      simp only [Bool.or_eq_true, List.contains_iff_mem] at settled
      exact .inl ⟨settled, rfl⟩
  · next open' =>
      simp only [Bool.or_eq_true, not_or, List.contains_iff_mem] at open'
      refine .inr ⟨open', ?_⟩
      rcases synthesis.registry.resolve_grows name other with
        ⟨stub, after, resolved, named, found, grows⟩ | ⟨refusal, resolved, unfit⟩
      · rw [resolved]
        exact .inl ⟨stub, after, named, found, grows, rfl⟩
      · rw [resolved]
        exact .inr ⟨unfit.resolve_right open'.2, refusal, rfl⟩

/-! ## What only grows -/

/-- A later synthesis of the same source. -/
structure Extends (first last : Synthesis) : Prop where
  stubs : first.stubs <+: last.stubs
  failures : first.failures <+: last.failures
  registry : first.registry.Grows last.registry

namespace Extends

theorem refl (synthesis : Synthesis) : Extends synthesis synthesis :=
  ⟨List.prefix_refl _, List.prefix_refl _, .refl _⟩

theorem trans (h : Extends first middle) (h' : Extends middle last) : Extends first last :=
  ⟨h.stubs.trans h'.stubs, h.failures.trans h'.failures, h.registry.trans h'.registry⟩

end Extends

theorem extends_take (synthesis : Synthesis) (bound : List String) (name : String)
    (other : origin ≠ .library) : Extends synthesis (synthesis.take bound name origin) := by
  rcases synthesis.take_cases bound name other with
    ⟨-, eq⟩ | ⟨-, ⟨stub, after, -, -, grows, eq⟩ | ⟨-, refusal, eq⟩⟩
  · rw [eq]
    exact .refl _
  · rw [eq]
    refine ⟨?_, List.prefix_refl _, grows⟩
    dsimp only
    split
    · exact List.prefix_refl _
    · exact List.prefix_append _ _
  · rw [eq]
    exact ⟨List.prefix_refl _, List.prefix_append _ _, .refl _⟩

theorem extends_takeAll (synthesis : Synthesis) (bound names : List String)
    (other : origin ≠ .library) : Extends synthesis (takeAll bound origin names synthesis) := by
  induction names generalizing synthesis with
  | nil => exact .refl synthesis
  | cons name names ih => exact (extends_take synthesis bound name other).trans (ih _)

/-! ## Every name is settled -/

/-- A name is bound, has a stub, or is reported as one that cannot have any. -/
def Settled (bound : List String) (synthesis : Synthesis) (name : String) : Prop :=
  name ∈ bound ∨ name ∈ Sandbox.runtimeBindings ∨ name ∈ synthesis.stubs.map Stub.name ∨
    Stub.isIdentifier name = false ∧ name ∈ synthesis.failures.map Prod.fst

theorem Settled.extend (h : first.Settled bound name) (later : Extends first last) :
    last.Settled bound name := by
  refine h.imp_right (Or.imp_right (Or.imp (fun mem => ?_) (And.imp_right fun mem => ?_)))
  · exact (later.stubs.map Stub.name).subset mem
  · exact (later.failures.map Prod.fst).subset mem

theorem settled_take (synthesis : Synthesis) (bound : List String) (name : String)
    (other : origin ≠ .library) : (synthesis.take bound name origin).Settled bound name := by
  rcases synthesis.take_cases bound name other with
    ⟨settled, -⟩ | ⟨-, ⟨stub, after, rfl, -, -, eq⟩ | ⟨unfit, refusal, eq⟩⟩
  · exact settled.imp_right .inl
  · rw [eq]
    refine .inr (.inr (.inl (List.mem_map_of_mem ?_)))
    dsimp only
    split
    · next taken => exact List.contains_iff_mem.1 taken
    · simp
  · rw [eq]
    exact .inr (.inr (.inr ⟨unfit, by simp⟩))

theorem settled_takeAll (synthesis : Synthesis) (bound : List String) (other : origin ≠ .library)
    (mem : name ∈ names) : (takeAll bound origin names synthesis).Settled bound name := by
  obtain ⟨before, after, rfl⟩ := List.append_of_mem mem
  unfold takeAll
  rw [List.foldl_append, List.foldl_cons]
  exact (settled_take _ bound name other).extend (extends_takeAll _ bound after other)

/-! ## Stubs and registry agree -/

/-- The stubs of libraries, and then stubs of names that nothing binds, each as it is registered. No
two have the same name. -/
structure Built (bound : List String) (library : List Stub) (synthesis : Synthesis) : Prop where
  distinct : (synthesis.stubs.map Stub.name).Nodup
  stubs : ∃ taken, synthesis.stubs = library ++ taken ∧ ∀ stub ∈ taken,
    (stub.name ∉ bound ∧ stub.name ∉ Sandbox.runtimeBindings) ∧
      synthesis.registry.find? stub.name = some stub

variable {library : List Stub}

theorem built_take (built : synthesis.Built bound library)
    (within : ∀ stub ∈ library, stub.name ∈ bound) (name : String) (other : origin ≠ .library) :
    (synthesis.take bound name origin).Built bound library := by
  obtain ⟨distinct, taken, stubs_eq, registered⟩ := built
  rcases synthesis.take_cases bound name other with
    ⟨-, eq⟩ | ⟨free, ⟨stub, after, rfl, found, grows, eq⟩ | ⟨-, refusal, eq⟩⟩
  · rw [eq]
    exact ⟨distinct, taken, stubs_eq, registered⟩
  · have registered : ∀ old ∈ taken, (old.name ∉ bound ∧ old.name ∉ Sandbox.runtimeBindings) ∧
        after.find? old.name = some old :=
      fun old mem => (registered old mem).imp_right grows.find?_eq
    rw [eq]
    cases held : synthesis.stubs.contains stub with
    | true => exact ⟨distinct, taken, stubs_eq, registered⟩
    | false =>
        have fresh : stub.name ∉ synthesis.stubs.map Stub.name := by
          intro mem
          obtain ⟨old, mem, same⟩ := List.mem_map.1 mem
          have mem' := mem
          rw [stubs_eq, List.mem_append] at mem'
          rcases mem' with provided | old_taken
          · exact free.1 (same ▸ within old provided)
          · -- One name has one registered stub, and that one is not among the stubs.
            have found' := (registered old old_taken).2
            rw [same, found, Option.some.injEq] at found'
            rw [found', List.contains_iff_mem.2 mem] at held
            cases held
        refine ⟨?_, taken ++ [stub], ?_, ?_⟩
        · simpa [List.nodup_append, distinct] using fresh
        · simp [stubs_eq]
        · exact List.forall_mem_append.2
            ⟨registered, List.forall_mem_singleton.2 ⟨free, found⟩⟩
  · rw [eq]
    exact ⟨distinct, taken, stubs_eq, registered⟩

theorem built_takeAll (built : synthesis.Built bound library)
    (within : ∀ stub ∈ library, stub.name ∈ bound) (names : List String)
    (other : origin ≠ .library) : (takeAll bound origin names synthesis).Built bound library := by
  induction names generalizing synthesis with
  | nil => exact built
  | cons name names ih => exact ih (built_take built within name other)

end Synthesis

/-! ## The stubs of a source -/

/-- The stubs of libraries whose names the source does not declare itself. -/
def Source.undeclaredLibrary (text : List Char) : List Stub :=
  (libraryStubs text).filter fun stub => !(declaredNames text).contains stub.name

/-- The names for which no other stub is made. -/
def Source.boundNames (text : List Char) : List String :=
  declaredNames text ++ (undeclaredLibrary text).map Stub.name

namespace Synthesis

open Source

variable {text : List Char} {seeded : List String} {registry : Registry} {name : String}

/-- A name is declared, bound by the runtime, or that of exactly one stub. -/
def Covers (synthesis : Synthesis) (text : List Char) (name : String) : Prop :=
  name ∈ declaredNames text ∨ name ∈ Sandbox.runtimeBindings ∨
    (synthesis.stubs.map Stub.name).count name = 1

theorem ofText_eq (text : List Char) (seeded : List String) (registry : Registry) :
    ofText text seeded registry = takeAll (boundNames text) .markup (markupNames text)
      (takeAll (boundNames text) .imported (importedNames text)
        (takeAll (boundNames text) .seeded seeded ⟨registry, undeclaredLibrary text, []⟩)) :=
  rfl

theorem built_ofText (text : List Char) (seeded : List String) (registry : Registry) :
    (ofText text seeded registry).Built (boundNames text) (undeclaredLibrary text) := by
  have within : ∀ stub ∈ undeclaredLibrary text, stub.name ∈ boundNames text :=
    fun stub mem => List.mem_append_right _ (List.mem_map_of_mem mem)
  have distinct : ((undeclaredLibrary text).map Stub.name).Nodup :=
    (firstOfEachName_names _).1.sublist (List.filter_sublist.map _)
  have start : Built (boundNames text) (undeclaredLibrary text)
      ⟨registry, undeclaredLibrary text, []⟩ :=
    ⟨distinct, [], (List.append_nil _).symm, List.forall_mem_nil _⟩
  rw [ofText_eq]
  exact built_takeAll (built_takeAll (built_takeAll start within seeded (by decide)) within _
    (by decide)) within _ (by decide)

theorem extends_ofText (text : List Char) (seeded : List String) (registry : Registry) :
    Extends ⟨registry, undeclaredLibrary text, []⟩ (ofText text seeded registry) := by
  rw [ofText_eq]
  exact ((extends_takeAll _ _ seeded (by decide)).trans
    (extends_takeAll _ _ _ (by decide))).trans (extends_takeAll _ _ _ (by decide))

/-- Each name that the host, an import or a tag brings is settled. -/
theorem settled_ofText
    (mem : name ∈ seeded ∨ name ∈ importedNames text ∨ name ∈ markupNames text) :
    (ofText text seeded registry).Settled (boundNames text) name := by
  rw [ofText_eq]
  rcases mem with mem | mem | mem
  · exact ((settled_takeAll _ _ (by decide) mem).extend (extends_takeAll _ _ _ (by decide))).extend
      (extends_takeAll _ _ _ (by decide))
  · exact (settled_takeAll _ _ (by decide) mem).extend (extends_takeAll _ _ _ (by decide))
  · exact settled_takeAll _ _ (by decide) mem

/-- A name that is settled is covered, or it is no identifier and reported. -/
theorem Settled.covers (h : (ofText text seeded registry).Settled (boundNames text) name) :
    (ofText text seeded registry).Covers text name ∨ Stub.isIdentifier name = false ∧
      name ∈ (ofText text seeded registry).failures.map Prod.fst := by
  have stubbed (mem : name ∈ (ofText text seeded registry).stubs.map Stub.name) :
      (ofText text seeded registry).Covers text name :=
    .inr (.inr (List.count_eq_one_of_mem (built_ofText text seeded registry).distinct mem))
  rcases h with bound | runtime | mem | reported
  · rcases List.mem_append.1 bound with declared | library
    · exact .inl (.inl declared)
    · exact .inl (stubbed (((extends_ofText text seeded registry).stubs.map _).subset library))
  · exact .inl (.inr (.inl runtime))
  · exact .inl (stubbed mem)
  · exact .inr reported

theorem not_mem_declaredNames {stub : Stub} (mem : stub ∈ (ofText text seeded registry).stubs) :
    stub.name ∉ declaredNames text := by
  obtain ⟨taken, stubs_eq, registered⟩ := (built_ofText text seeded registry).stubs
  rw [stubs_eq] at mem
  rcases List.mem_append.1 mem with library | taken
  · simpa using (List.mem_filter.1 library).2
  · exact fun declared => (registered stub taken).1.1 (List.mem_append_left _ declared)

/-- A stub that is not for a library is the one registered under its name. -/
theorem find?_of_mem_stubs {stub : Stub} (mem : stub ∈ (ofText text seeded registry).stubs)
    (other : stub.origin ≠ .library) :
    (ofText text seeded registry).registry.find? stub.name = some stub := by
  obtain ⟨taken, stubs_eq, registered⟩ := (built_ofText text seeded registry).stubs
  rw [stubs_eq] at mem
  rcases List.mem_append.1 mem with library | taken
  · obtain ⟨module, export?, -, eq⟩ := mem_libraryStubs (List.mem_filter.1 library).1
    exact absurd (congrArg Stub.origin eq) other
  · exact (registered stub taken).2

theorem mem_takeAll {stub : Stub} (other : origin ≠ .library)
    (mem : stub ∈ (takeAll bound origin names synthesis).stubs) :
    stub ∈ synthesis.stubs ∨ stub.name ∈ names := by
  induction names generalizing synthesis with
  | nil => exact .inl mem
  | cons next names ih =>
      have later : stub ∈ (synthesis.take bound next origin).stubs ∨ stub.name ∈ names := ih mem
      rcases later with taken | listed
      · rcases synthesis.take_cases bound next other with
          ⟨-, eq⟩ | ⟨-, ⟨stub', after, rfl, -, -, eq⟩ | ⟨-, refusal, eq⟩⟩
        · exact .inl (eq ▸ taken)
        · rw [eq] at taken
          dsimp only at taken
          split at taken
          · exact .inl taken
          · rcases List.mem_append.1 taken with old | new
            · exact .inl old
            · rw [List.mem_singleton.1 new]
              exact .inr List.mem_cons_self
        · rw [eq] at taken
          exact .inl taken
      · exact .inr (List.mem_cons_of_mem _ listed)

/-- A name that may be stubbed is so just if something brings it and the source does not declare
it. -/
theorem name_mem_stubs_iff (identifier : Stub.isIdentifier name = true)
    (free : name ∉ Sandbox.runtimeBindings) (text : List Char) (seeded : List String)
    (registry : Registry) : name ∈ (ofText text seeded registry).stubs.map Stub.name ↔
      name ∉ declaredNames text ∧ (name ∈ (libraryStubs text).map Stub.name ∨ name ∈ seeded ∨
        name ∈ importedNames text ∨ name ∈ markupNames text) := by
  constructor
  · intro stubbed
    obtain ⟨stub, mem, rfl⟩ := List.mem_map.1 stubbed
    refine ⟨not_mem_declaredNames mem, ?_⟩
    rw [ofText_eq] at mem
    rcases mem_takeAll (by decide) mem with mem | tag
    · rcases mem_takeAll (by decide) mem with mem | imported
      · rcases mem_takeAll (by decide) mem with library | asked
        · exact .inl (List.mem_map_of_mem (List.mem_filter.1 library).1)
        · exact .inr (.inl asked)
      · exact .inr (.inr (.inl imported))
    · exact .inr (.inr (.inr tag))
  · rintro ⟨undeclared, library | brought⟩
    · obtain ⟨stub, made, rfl⟩ := List.mem_map.1 library
      have library : stub ∈ undeclaredLibrary text :=
        List.mem_filter.2 ⟨made, by simpa using undeclared⟩
      exact List.mem_map_of_mem ((extends_ofText text seeded registry).stubs.subset library)
    · rcases (settled_ofText brought).covers with covers | ⟨unfit, -⟩
      · have count := (covers.resolve_left undeclared).resolve_left free
        exact List.count_pos_iff.1 (count ▸ Nat.zero_lt_one)
      · rw [identifier] at unfit
        cases unfit

/-- Whatever a registry holds and whatever the host asks for, each component that a source uses is
declared by it, bound by the runtime or bound by exactly one stub; of the imported names only one
that is no identifier is not, and that is reported. No stub takes the name of another one or one
that the source declares, and all stubs but those of libraries are registered. -/
theorem components_covered (text : List Char) (seeded : List String) (registry : Registry) :
    let synthesis := ofText text seeded registry
    (∀ name, TagOccurs text name → synthesis.Covers text name) ∧
      (∀ name ∈ importedNames text, synthesis.Covers text name ∨
        Stub.isIdentifier name = false ∧ name ∈ synthesis.failures.map Prod.fst) ∧
      (synthesis.stubs.map Stub.name).Nodup ∧
      (∀ stub ∈ synthesis.stubs, stub.name ∉ declaredNames text) ∧
      (∀ stub ∈ synthesis.stubs, stub.origin ≠ .library →
        synthesis.registry.find? stub.name = some stub) ∧
      registry.Grows synthesis.registry := by
  intro synthesis
  refine ⟨fun name tag => ?_, fun name mem => ?_, ?_, fun stub mem => ?_, fun stub mem other => ?_,
    (extends_ofText text seeded registry).registry⟩
  · refine (settled_ofText (.inr (.inr (mem_markupNames_iff.2 tag)))).covers.resolve_right ?_
    rintro ⟨unfit, -⟩
    obtain ⟨left, right, -, tag⟩ := tag
    rw [Stub.isIdentifier_of_spelled tag.isIdentifier] at unfit
    cases unfit
  · exact (settled_ofText (.inr (.inl mem))).covers
  · exact (built_ofText text seeded registry).distinct
  · exact not_mem_declaredNames mem
  · exact find?_of_mem_stubs mem other

/-- A source in which the scans overlap: `Link` is seeded, imported and from a library, `A` is
seeded and a tag, and `Ü` is no identifier. -/
theorem overlapping_names_covered :
    let code := "<A/>;import {Link,B as Ü} from 'react-router-dom'".toList
    let synthesis := ofText code ["A", "Link"] .empty
    (TagOccurs code "A" ∧ synthesis.Covers code "A") ∧
      ("Ü" ∈ importedNames code ∧ (synthesis.Covers code "Ü" ∨
        Stub.isIdentifier "Ü" = false ∧ "Ü" ∈ synthesis.failures.map Prod.fst)) ∧
      (synthesis.stubs.map Stub.name).Nodup ∧
      (∀ stub ∈ synthesis.stubs, stub.name ∉ declaredNames code) ∧
      (∀ stub ∈ synthesis.stubs, stub.origin ≠ .library →
        synthesis.registry.find? stub.name = some stub) ∧
      Registry.empty.Grows synthesis.registry := by
  intro code synthesis
  obtain ⟨tags, imports, others⟩ := components_covered code ["A", "Link"] .empty
  have tag : TagOccurs code "A" := mem_markupNames_iff.1 (by decide +kernel)
  have imported : "Ü" ∈ importedNames code := by decide +kernel
  exact ⟨⟨tag, tags _ tag⟩, ⟨imported, imports _ imported⟩, others⟩

/-! ## Names of the runtime -/

theorem not_mem_runtimeBindings {module binding : String} {provided : List String}
    (known : Sandbox.libraryExports? module = some provided) (exported : binding ∈ provided) :
    binding ∉ Sandbox.runtimeBindings := by
  obtain ⟨library, found, rfl⟩ := Option.map_eq_some_iff.1 known
  have apart : ∀ library ∈ Sandbox.libraries, ∀ binding ∈ library.2,
      binding ∉ Sandbox.runtimeBindings := by decide
  exact apart library (List.mem_of_find?_eq_some found) binding exported

/-- A name that the runtime binds has a stub just if an import of a library gives it to something of
another name, an export or all of the library, and the source does not declare it. -/
theorem runtime_name_stubbed_iff (runtime : name ∈ Sandbox.runtimeBindings) (text : List Char)
    (seeded : List String) (registry : Registry) :
    name ∈ (ofText text seeded registry).stubs.map Stub.name ↔
      name ∉ declaredNames text ∧
        ∃ module export?, ImportsFrom text module export? name ∧ export? ≠ some name := by
  constructor
  · intro stubbed
    obtain ⟨stub, mem, rfl⟩ := List.mem_map.1 stubbed
    obtain ⟨taken, stubs_eq, registered⟩ := (built_ofText text seeded registry).stubs
    refine ⟨not_mem_declaredNames mem, ?_⟩
    rw [stubs_eq] at mem
    rcases List.mem_append.1 mem with library | taken
    · obtain ⟨module, export?, imports, -⟩ := mem_libraryStubs (List.mem_filter.1 library).1
      refine ⟨module, export?, imports, ?_⟩
      rintro rfl
      cases imports with
      | named _ _ known _ _ _ exported => exact not_mem_runtimeBindings known exported runtime
    · exact absurd runtime (registered stub taken).1.2
  · rintro ⟨undeclared, module, export?, imports, -⟩
    obtain ⟨stub, made, rfl⟩ := List.mem_map.1
      (name_mem_libraryStubs_iff.2 ⟨module, export?, imports⟩)
    have library : stub ∈ undeclaredLibrary text :=
      List.mem_filter.2 ⟨made, by simpa using undeclared⟩
    exact List.mem_map_of_mem ((extends_ofText text seeded registry).stubs.subset library)

/-- A library that is imported as a whole under the name of a global of the runtime. -/
theorem namespace_import_rebinds :
    let code := "import * as memo from 'react-router-dom';\nf(memo);\n".toList
    "memo" ∈ Sandbox.runtimeBindings ∧
      "memo" ∈ (ofText code ["memo"] .empty).stubs.map Stub.name ∧
      "memo" ∉ declaredNames code ∧
      ∃ module export?, ImportsFrom code module export? "memo" ∧ export? ≠ some "memo" := by
  intro code
  have runtime : "memo" ∈ Sandbox.runtimeBindings := by decide
  have stubbed : "memo" ∈ (ofText code ["memo"] .empty).stubs.map Stub.name := by decide +kernel
  exact ⟨runtime, stubbed, (runtime_name_stubbed_iff runtime code ["memo"] .empty).1 stubbed⟩

/-- An alias makes the stand-in of a library take the place of React. -/
theorem aliased_import_rebinds_react :
    let code := "import { Link as React } from 'react-router-dom';\n".toList
    "React" ∈ Sandbox.runtimeBindings ∧
      (ofText code [] .empty).stubs = [⟨"React", .library,
        "window[\"React\"] = __previewLibrary(\"react-router-dom\", \"Link\");"⟩] := by
  decide +kernel

end Synthesis

end ComponentPreview
