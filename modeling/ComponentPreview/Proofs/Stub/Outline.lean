import ComponentPreview.Proofs.Stub.Definition

/-!
# What stubs say

A registry that was filled by previews holds nothing but placeholders, and the definition of a
placeholder is made of its name alone. So what the stubs of a source say, their names and
definitions in order, is the same whatever the registry held before. Only the origin of a stub is
that of its first registration.
-/

namespace ComponentPreview

namespace Registry

/-- Whether every registered stub is the placeholder of an identifier. -/
def HoldsPlaceholders (registry : Registry) : Prop :=
  ∀ stub ∈ registry.stubs,
    Stub.isIdentifier stub.name = true ∧ stub.definition = Stub.placeholder stub.name

theorem holdsPlaceholders_empty : empty.HoldsPlaceholders :=
  fun _ mem => nomatch mem

variable {registry : Registry}

theorem name_of_find? {name : String} {stub : Stub} (h : registry.find? name = some stub) :
    stub.name = name := by
  have same := List.find?_some h
  exact eq_of_beq same

theorem find?_add_of_find? {name : String} {kept : Stub} (h : registry.find? name = some kept)
    (stub : Stub) : (registry.add stub).1.find? name = some kept := by
  unfold add
  split
  · exact h
  · simp only [find?] at h ⊢
    rw [List.find?_append, h]
    rfl

theorem holdsPlaceholders_add (holds : registry.HoldsPlaceholders) {name : String}
    (identifier : Stub.isIdentifier name = true) (origin : StubOrigin) :
    (registry.add ⟨name, origin, Stub.placeholder name⟩).1.HoldsPlaceholders := by
  unfold add
  split
  · exact holds
  · intro stub mem
    rcases List.mem_append.1 mem with mem | mem
    · exact holds stub mem
    · rw [List.mem_singleton.1 mem]
      exact ⟨identifier, rfl⟩

/-- A name that the runtime does not bind resolves to its placeholder, which is then registered, or
to nothing if it is no identifier. -/
theorem resolve_cases (holds : registry.HoldsPlaceholders) {name : String}
    (free : name ∉ Sandbox.runtimeBindings) (origin : StubOrigin) :
    (Stub.isIdentifier name = false ∧
      registry.resolve name origin = (registry, .error .notIdentifier)) ∨
    (Stub.isIdentifier name = true ∧ ∃ stub after,
      registry.resolve name origin = (after, .ok stub) ∧ stub.name = name ∧
      stub.definition = Stub.placeholder name ∧ after.HoldsPlaceholders ∧
      after.find? name = some stub ∧
      ∀ other kept, registry.find? other = some kept → after.find? other = some kept) := by
  unfold resolve
  cases found : registry.find? name with
  | some stub =>
      obtain ⟨identifier, definition_eq⟩ := holds stub (List.mem_of_find?_eq_some found)
      have name_eq := name_of_find? found
      rw [name_eq] at identifier definition_eq
      exact .inr ⟨identifier, stub, registry, rfl, name_eq, definition_eq, holds, found,
        fun _ _ kept => kept⟩
  | none =>
      cases identifier : Stub.isIdentifier name with
      | false => exact .inl ⟨rfl, by simp⟩
      | true =>
          refine .inr ⟨rfl, ⟨name, origin, Stub.placeholder name⟩,
            (registry.add ⟨name, origin, Stub.placeholder name⟩).1, ?_, rfl, rfl,
            holdsPlaceholders_add holds identifier origin, ?_,
            fun _ _ kept => find?_add_of_find? kept _⟩
          · simp [free, add, found]
          · rw [find?_add_self registry ⟨name, origin, Stub.placeholder name⟩]
            simp [add, found]

end Registry

/-- What the stubs of a source say, and the names that have none. -/
structure Outline where
  entries : List (String × String)
  failures : List (String × Refusal)
  deriving DecidableEq, Repr

namespace Outline

def has (outline : Outline) (name : String) : Bool :=
  outline.entries.any (·.1 == name)

/-- Takes up a name without regard to any registry. -/
def take (bound : List String) (outline : Outline) (name : String) : Outline :=
  if bound.contains name || Sandbox.runtimeBindings.contains name then outline
  else if !Stub.isIdentifier name then
    { outline with failures := outline.failures ++ [(name, .notIdentifier)] }
  else if outline.has name then outline
  else { outline with entries := outline.entries ++ [(name, Stub.placeholder name)] }

end Outline

namespace Synthesis

def outline (synthesis : Synthesis) : Outline :=
  ⟨synthesis.stubs.map fun stub => (stub.name, stub.definition), synthesis.failures⟩

/-- Whether each stub has a name bound beforehand or is the one registered under its name. -/
structure Tracked (bound : List String) (synthesis : Synthesis) : Prop where
  holdsPlaceholders : synthesis.registry.HoldsPlaceholders
  registered : ∀ stub ∈ synthesis.stubs,
    stub.name ∈ bound ∨ synthesis.registry.find? stub.name = some stub

variable {bound : List String} {synthesis : Synthesis}

theorem contains_eq_has (tracked : synthesis.Tracked bound) {stub : Stub} {after : Registry}
    (unbound : stub.name ∉ bound) (found : after.find? stub.name = some stub)
    (kept : ∀ other old, synthesis.registry.find? other = some old → after.find? other = some old) :
    synthesis.stubs.contains stub = synthesis.outline.has stub.name := by
  rw [Bool.eq_iff_iff, List.contains_iff_mem]
  simp only [Outline.has, outline, List.any_map, List.any_eq_true, Function.comp_apply, beq_iff_eq]
  constructor
  · exact fun mem => ⟨stub, mem, rfl⟩
  · rintro ⟨other, mem, same⟩
    have registered := (tracked.registered other mem).resolve_left (same ▸ unbound)
    have found' := kept _ _ registered
    rw [same, found, Option.some.injEq] at found'
    exact found' ▸ mem

theorem outline_take (tracked : synthesis.Tracked bound) (name : String) (origin : StubOrigin) :
    (synthesis.take bound name origin).outline = synthesis.outline.take bound name ∧
      (synthesis.take bound name origin).Tracked bound := by
  unfold take Outline.take
  by_cases settled : (bound.contains name || Sandbox.runtimeBindings.contains name) = true
  · rw [if_pos settled, if_pos settled]
    exact ⟨rfl, tracked⟩
  rw [if_neg settled, if_neg settled]
  simp only [Bool.or_eq_true, not_or, List.contains_iff_mem] at settled
  obtain ⟨unbound, free⟩ := settled
  rcases Registry.resolve_cases tracked.holdsPlaceholders free origin with
    ⟨unfit, resolved⟩ | ⟨identifier, stub, after, resolved, rfl, definition_eq, holds, found, kept⟩
  · rw [resolved, unfit]
    exact ⟨rfl, tracked.holdsPlaceholders, tracked.registered⟩
  rw [resolved, identifier]
  dsimp only
  rw [contains_eq_has tracked unbound found kept]
  have registered : ∀ other ∈ synthesis.stubs,
      other.name ∈ bound ∨ after.find? other.name = some other :=
    fun other mem => (tracked.registered other mem).imp_right (kept _ _)
  cases has : synthesis.outline.has stub.name with
  | true => exact ⟨rfl, holds, registered⟩
  | false =>
      refine ⟨?_, holds, ?_⟩
      · simp [outline, definition_eq]
      · intro other mem
        rcases List.mem_append.1 mem with mem | mem
        · exact registered other mem
        · rw [List.mem_singleton.1 mem]
          exact .inr found

theorem outline_takeAll (tracked : synthesis.Tracked bound) (origin : StubOrigin)
    (names : List String) :
    (takeAll bound origin names synthesis).outline =
        names.foldl (Outline.take bound) synthesis.outline ∧
      (takeAll bound origin names synthesis).Tracked bound := by
  induction names generalizing synthesis with
  | nil => exact ⟨rfl, tracked⟩
  | cons name names ih =>
      obtain ⟨outline_eq, tracked'⟩ := outline_take tracked name origin
      have rest := ih tracked'
      rw [outline_eq] at rest
      exact rest

end Synthesis

namespace Outline

def ofText (text : List Char) (seeded : List String) : Outline :=
  let declared := Source.declaredNames text
  let library := (Source.libraryStubs text).filter fun stub => !declared.contains stub.name
  let bound := declared ++ library.map Stub.name
  (seeded ++ Source.importedNames text ++ Source.markupNames text).foldl (take bound)
    ⟨library.map fun stub => (stub.name, stub.definition), []⟩

end Outline

namespace Synthesis

/-- What the stubs of a source say does not depend on what the registry holds. -/
theorem outline_ofText (text : List Char) (seeded : List String) {registry : Registry}
    (holds : registry.HoldsPlaceholders) :
    (ofText text seeded registry).outline = Outline.ofText text seeded ∧
      (ofText text seeded registry).registry.HoldsPlaceholders := by
  unfold ofText Outline.ofText
  dsimp only
  set declared := Source.declaredNames text
  set library := (Source.libraryStubs text).filter fun stub => !declared.contains stub.name
  set bound := declared ++ library.map Stub.name with bound_eq
  have tracked : Tracked bound ⟨registry, library, []⟩ := by
    refine ⟨holds, fun stub mem => .inl ?_⟩
    rw [bound_eq]
    exact List.mem_append_right _ (List.mem_map_of_mem mem)
  obtain ⟨seeded_eq, tracked⟩ := outline_takeAll tracked .seeded seeded
  obtain ⟨imported_eq, tracked⟩ := outline_takeAll tracked .imported (Source.importedNames text)
  obtain ⟨markup_eq, tracked⟩ := outline_takeAll tracked .markup (Source.markupNames text)
  refine ⟨?_, tracked.holdsPlaceholders⟩
  rw [markup_eq, imported_eq, seeded_eq, List.foldl_append, List.foldl_append]
  rfl

end Synthesis

theorem Registry.Reached.holdsPlaceholders {registry : Registry} (h : registry.Reached) :
    registry.HoldsPlaceholders :=
  h.invariant holdsPlaceholders_empty fun text seeded _ holds =>
    (Synthesis.outline_ofText text seeded holds).2

end ComponentPreview
