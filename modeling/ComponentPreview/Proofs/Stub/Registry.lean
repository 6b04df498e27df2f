import ComponentPreview.Proofs.Stub.Coverage
import ComponentPreview.Proofs.Text.Collect

/-!
# What a registry holds

Whatever is asked of a registry comes down to resolving names one after the other
(`Registry.afterAll_eq`). A registry that starts empty holds the placeholders of the names that may
be stubbed, in the order in which they were first resolved (`Registry.mem_resolveAll_iff`). Which
names these are is decided by a pattern at whose end one line break may follow, so a name that comes
from outside can be an identifier with a line break (`Registry.registered_identifiers_iff`).
-/

namespace ComponentPreview

open Pattern Component

namespace Stub

/-- Whether a name that is not registered gets a placeholder. -/
def allows (name : String) : Bool :=
  isIdentifier name && !Sandbox.runtimeBindings.contains name

variable {name : String}

theorem not_hasBreak_of_last (last : name.toList.getLast? ≠ some '\n') : ¬HasBreak name := by
  rintro ⟨word, -, eq⟩
  rw [eq, List.getLast?_concat] at last
  exact last rfl

theorem not_hasBreak_of_identifier (identifier : IsIdentifier name.toList) : ¬HasBreak name := by
  refine not_hasBreak_of_last fun last => ?_
  have named := isNameChar_of_mem_identifier identifier '\n' (List.mem_of_getLast? last)
  exact absurd named (by decide)

theorem allows_iff : allows name = true ↔
    (IsIdentifier name.toList ∨ HasBreak name) ∧ name ∉ Sandbox.runtimeBindings := by
  rw [allows, Bool.and_eq_true, isIdentifier_iff]
  simp

theorem HasBreak.allows (broken : HasBreak name) : allows name = true := by
  refine allows_iff.2 ⟨.inr broken, fun runtime => ?_⟩
  have unbroken : ∀ name ∈ Sandbox.runtimeBindings, name.toList.getLast? ≠ some '\n' := by decide
  exact not_hasBreak_of_last (unbroken name runtime) broken

end Stub

/-! ## Names that a source brings -/

theorem Text.not_isBlank_of_trim {text : List Char} {c : Char}
    (last : (Text.trim isBlank text).getLast? = some c) : isBlank c = false := by
  rw [Text.trim, Text.trimEnd, List.getLast?_reverse] at last
  have stopped := List.head?_dropWhile_not isBlank (Text.trimStart isBlank text).reverse
  rw [last] at stopped
  simpa using stopped

namespace Source

variable {text : List Char} {name : String}

theorem not_hasBreak_of_declared (declared : name ∈ declaredNames text) : ¬Stub.HasBreak name := by
  obtain ⟨found, mem, rfl⟩ := List.mem_map.1 (Text.mem_distinct.1 declared)
  obtain ⟨-, here, -, found_at⟩ := at?_of_mem_findAll mem
  obtain ⟨keyword, -, blanks, right, -, -, -, identifier, -⟩ := text_of_declaration found_at
  refine Stub.not_hasBreak_of_identifier ?_
  rwa [String.toList_ofList]

theorem not_hasBreak_of_importsFrom {module : String} {export? : Option String}
    (imports : ImportsFrom text module export? name) : ¬Stub.HasBreak name := by
  cases imports with
  | @named found provided specifier binding _ mem imported known listed first last =>
      have name_eq : name.toList =
          (Import.aliasMark.cut (Text.trim isBlank specifier)).getLastD [] := by
        rw [← last, specifierNames, List.getLastD_eq_getLast?, List.getLast?_map,
          List.getLastD_eq_getLast?]
        cases (Import.aliasMark.cut (Text.trim isBlank specifier)).getLast? <;> simp
      obtain ⟨front, whole⟩ := Import.aliasMark.getLastD_cut_suffix (Text.trim isBlank specifier)
      refine Stub.not_hasBreak_of_last fun ended => ?_
      rw [name_eq] at ended
      have last : (Text.trim isBlank specifier).getLast? = some '\n' := by
        rw [← whole, List.getLast?_append, ended]
        rfl
      have blank := Text.not_isBlank_of_trim last
      exact absurd blank (by decide)
  | @whole found _ mem imported known called =>
      obtain ⟨-, here, -, found_at⟩ := at?_of_mem_findAll mem
      obtain ⟨last, ends, rfl⟩ := exists_end_of_at? found_at
      have parts : namespaceImport =
          (lit "import" ++ gap ++ lit "*" ++ gap ++ lit "as" ++ gap) ++
            (capture Pattern.name ++ (gap ++ lit "from" ++ spacing ++ quotedText)) := rfl
      rw [parts] at ends
      obtain ⟨opened, lead, ends⟩ := mem_ends_append.1 ends
      obtain ⟨inner, named, captured, -⟩ :=
        group_of_mem_ends here rfl (groups_of_isPlain rfl lead) ends
      obtain ⟨word, there, identifier, reads, -, rfl⟩ := mem_ends_name.1 named
      refine Stub.not_hasBreak_of_identifier ?_
      rw [← called, String.toList_ofList, captured.word_unique reads]
      exact identifier

theorem not_hasBreak_of_imported (imported : name ∈ importedNames text) : ¬Stub.HasBreak name := by
  have mem := (List.mem_filter.1 (Text.mem_distinct.1 imported)).1
  obtain ⟨statement, listed, mem⟩ := List.mem_flatMap.1 mem
  obtain ⟨found, -, rfl⟩ := List.mem_map.1 (List.mem_filter.1 listed).1
  obtain ⟨word, bound, rfl⟩ := List.mem_map.1 mem
  obtain ⟨piece, -, rfl⟩ := List.mem_map.1 (List.mem_filter.1 bound).1
  refine Stub.not_hasBreak_of_last fun ended => ?_
  rw [String.toList_ofList, Import.localName] at ended
  split at ended
  · cases ended
  · exact absurd (Text.not_isBlank_of_trim ended) (by decide)

theorem not_hasBreak_of_tag (tag : name ∈ markupNames text) : ¬Stub.HasBreak name := by
  obtain ⟨left, right, -, tag⟩ := mem_markupNames_iff.1 tag
  exact Stub.not_hasBreak_of_identifier tag.isIdentifier

end Source

/-! ## Resolving names one after the other -/

namespace Registry

/-- The registry after some names, each with the origin it comes from, are resolved in turn. -/
def resolveAll (entries : List (String × StubOrigin)) (registry : Registry) : Registry :=
  entries.foldl (fun registry entry => (registry.resolve entry.1 entry.2).1) registry

/-- Whether each stub is the one that its name finds. -/
def Filed (registry : Registry) : Prop :=
  ∀ stub ∈ registry.stubs, registry.find? stub.name = some stub

variable {registry : Registry} {name : String} {stub : Stub}

theorem resolve_registered (found : registry.find? name = some stub) (origin : StubOrigin) :
    registry.resolve name origin = (registry, .ok stub) := by
  rw [resolve, found]

/-- A name that is not registered is registered with its placeholder, or nothing changes. -/
theorem resolve_absent (absent : registry.find? name = none) (origin : StubOrigin) :
    (registry.resolve name origin).1 =
      if Stub.allows name then ⟨registry.stubs ++ [⟨name, origin, Stub.placeholder name⟩]⟩
      else registry := by
  rw [resolve, absent, Stub.allows]
  cases Stub.isIdentifier name <;> cases Sandbox.runtimeBindings.contains name <;>
    simp [add, absent]

theorem prefix_resolve (registry : Registry) (name : String) (origin : StubOrigin) :
    registry.stubs <+: (registry.resolve name origin).1.stubs := by
  cases found : registry.find? name with
  | some stub => exact ⟨[], by rw [resolve_registered found, List.append_nil]⟩
  | none =>
      rw [resolve_absent found]
      split
      · exact List.prefix_append _ _
      · exact List.prefix_refl _

theorem prefix_resolveAll (entries : List (String × StubOrigin)) (registry : Registry) :
    registry.stubs <+: (registry.resolveAll entries).stubs := by
  induction entries generalizing registry with
  | nil => exact List.prefix_refl _
  | cons entry entries ih => exact (prefix_resolve registry entry.1 entry.2).trans (ih _)

theorem find?_resolve (registry : Registry) (name other : String) (origin : StubOrigin) :
    (registry.resolve name origin).1.find? other = (registry.find? other).or
      (if name = other ∧ Stub.allows other = true then
        some ⟨other, origin, Stub.placeholder other⟩ else none) := by
  cases found : registry.find? name with
  | some stub =>
      rw [resolve_registered found]
      by_cases same : name = other
      · subst same
        simp [found]
      · simp [same]
  | none =>
      rw [resolve_absent found]
      by_cases same : name = other
      · subst same
        cases allowed : Stub.allows name with
        | true =>
            simp only [find?] at found ⊢
            simp [List.find?_append, found]
        | false => simp [found]
      · split
        · simp [find?, List.find?_append, same]
        · simp [same]

/-- What a name finds once some names are resolved: what it found before, or else its placeholder,
with the origin with which it first comes. -/
theorem find?_resolveAll (entries : List (String × StubOrigin)) (registry : Registry)
    (name : String) : (registry.resolveAll entries).find? name = (registry.find? name).or
      (if Stub.allows name then (entries.find? (·.1 == name)).map fun entry =>
        ⟨name, entry.2, Stub.placeholder name⟩ else none) := by
  induction entries generalizing registry with
  | nil => simp [resolveAll]
  | cons entry entries ih =>
      change ((registry.resolve entry.1 entry.2).1.resolveAll entries).find? name = _
      rw [ih, find?_resolve, Option.or_assoc, List.find?_cons]
      by_cases same : entry.1 = name
      · cases Stub.allows name <;> simp [same]
      · rw [beq_false_of_ne same]
        simp [same]

theorem filed_resolve (filed : registry.Filed) (name : String) (origin : StubOrigin) :
    (registry.resolve name origin).1.Filed := by
  cases found : registry.find? name with
  | some stub => rwa [resolve_registered found]
  | none =>
      intro stub mem
      rw [find?_resolve]
      rw [resolve_absent found] at mem
      split at mem
      · next allowed =>
          rcases List.mem_append.1 mem with mem | mem
          · rw [filed stub mem, Option.some_or]
          · obtain rfl := List.mem_singleton.1 mem
            simp [found, allowed]
      · rw [filed stub mem, Option.some_or]

theorem filed_resolveAll (filed : registry.Filed) (entries : List (String × StubOrigin)) :
    (registry.resolveAll entries).Filed := by
  induction entries generalizing registry with
  | nil => exact filed
  | cons entry entries ih => exact ih (filed_resolve filed entry.1 entry.2)

/-- A registry that starts empty holds the placeholders of the resolved names that may be
stubbed. -/
theorem mem_resolveAll_iff {entries : List (String × StubOrigin)} :
    stub ∈ (empty.resolveAll entries).stubs ↔ Stub.allows stub.name = true ∧
      entries.find? (·.1 == stub.name) = some (stub.name, stub.origin) ∧
      stub.definition = Stub.placeholder stub.name := by
  have filed : (empty.resolveAll entries).Filed := filed_resolveAll (List.forall_mem_nil _) entries
  have found : stub ∈ (empty.resolveAll entries).stubs ↔
      (empty.resolveAll entries).find? stub.name = some stub :=
    ⟨filed stub, fun found => List.mem_of_find?_eq_some found⟩
  rw [found, find?_resolveAll, show empty.find? stub.name = none from rfl, Option.none_or,
    Option.ite_none_right_eq_some, Option.map_eq_some_iff]
  refine and_congr_right fun _ => ?_
  constructor
  · rintro ⟨⟨name, origin⟩, first, eq⟩
    obtain rfl : name = stub.name := by simpa using List.find?_some first
    exact ⟨by rw [first, ← eq], by rw [← eq]⟩
  · rintro ⟨first, definition_eq⟩
    exact ⟨_, first, by rw [← definition_eq]⟩

end Registry

/-! ## Calls -/

namespace Synthesis

variable {synthesis : Synthesis}

/-- A name that the runtime binds resolves to nothing new, so it makes no difference that it is
passed over. -/
theorem registry_take (synthesis : Synthesis) (bound : List String) (name : String)
    (origin : StubOrigin) : (synthesis.take bound name origin).registry =
      if bound.contains name then synthesis.registry
      else (synthesis.registry.resolve name origin).1 := by
  unfold take
  cases bound.contains name with
  | true => simp
  | false =>
      cases runtime : Sandbox.runtimeBindings.contains name with
      | false =>
          simp only [Bool.or_self, Bool.false_eq_true, if_false]
          split <;> next eq => rw [eq]
      | true =>
          simp only [Bool.or_true, if_true, Bool.false_eq_true, if_false]
          cases found : synthesis.registry.find? name with
          | some stub => rw [Registry.resolve_registered found]
          | none =>
              rw [Registry.resolve_absent found, Stub.allows, runtime]
              simp

theorem registry_takeAll (bound names : List String) (origin : StubOrigin)
    (synthesis : Synthesis) : (takeAll bound origin names synthesis).registry =
      synthesis.registry.resolveAll
        ((names.map (·, origin)).filter fun entry => !bound.contains entry.1) := by
  induction names generalizing synthesis with
  | nil => rfl
  | cons name names ih =>
      change (takeAll bound origin names (synthesis.take bound name origin)).registry = _
      rw [ih, registry_take, List.map_cons, List.filter_cons]
      cases bound.contains name <;> rfl

end Synthesis

namespace Registry

/-- What may be asked of a registry. -/
inductive Call
  | resolve (name : String) (origin : StubOrigin)
  | synthesize (text : List Char) (seeded : List String)
  deriving DecidableEq, Repr

namespace Call

/-- The names that are handed in. -/
def offered : Call → List String
  | resolve name _ => [name]
  | synthesize _ seeded => seeded

/-- The names that come to be resolved, in order, with their origins. Of those of a source the ones
that it binds itself are not. -/
def resolutions : Call → List (String × StubOrigin)
  | resolve name origin => [(name, origin)]
  | synthesize text seeded =>
      (seeded.map (·, StubOrigin.seeded) ++
        (Source.importedNames text).map (·, StubOrigin.imported) ++
        (Source.markupNames text).map (·, StubOrigin.markup)).filter
          fun entry => !(Source.boundNames text).contains entry.1

end Call

def after (registry : Registry) : Call → Registry
  | .resolve name origin => (registry.resolve name origin).1
  | .synthesize text seeded => (Synthesis.ofText text seeded registry).registry

def afterAll (registry : Registry) (calls : List Call) : Registry :=
  calls.foldl after registry

theorem after_eq (registry : Registry) (call : Call) :
    registry.after call = registry.resolveAll call.resolutions := by
  cases call with
  | resolve name origin => rfl
  | synthesize text seeded =>
      rw [after, Synthesis.ofText_eq, Synthesis.registry_takeAll, Synthesis.registry_takeAll,
        Synthesis.registry_takeAll, Call.resolutions, List.filter_append, List.filter_append]
      simp only [resolveAll, List.foldl_append]

theorem afterAll_eq (registry : Registry) (calls : List Call) :
    registry.afterAll calls = registry.resolveAll (calls.flatMap Call.resolutions) := by
  induction calls generalizing registry with
  | nil => rfl
  | cons call calls ih =>
      change (registry.after call).afterAll calls = _
      rw [ih, after_eq, List.flatMap_cons]
      simp only [resolveAll, List.foldl_append]

/-- The names that one call resolves are handed in or come from the source, which brings none with a
line break behind it. A name with one is bound by no source. -/
theorem Call.mem_offered_iff {call : Call} {name : String} (broken : Stub.HasBreak name) :
    name ∈ call.offered ↔ ∃ origin, (name, origin) ∈ call.resolutions := by
  cases call with
  | resolve other origin => simp [offered, resolutions]
  | synthesize text seeded =>
      have unbound : name ∉ Source.boundNames text := by
        intro mem
        rcases List.mem_append.1 mem with declared | library
        · exact Source.not_hasBreak_of_declared declared broken
        · obtain ⟨stub, made, rfl⟩ := List.mem_map.1 library
          obtain ⟨module, export?, imports, -⟩ :=
            Source.mem_libraryStubs (List.mem_filter.1 made).1
          exact Source.not_hasBreak_of_importsFrom imports broken
      have imported : name ∉ Source.importedNames text :=
        fun mem => Source.not_hasBreak_of_imported mem broken
      have tag : name ∉ Source.markupNames text :=
        fun mem => Source.not_hasBreak_of_tag mem broken
      simp [offered, resolutions, unbound, imported, tag]

/-- Whatever is asked of a registry that starts empty, it holds the placeholders of names that are
spelled like identifiers, but for a line break behind one that was handed in with it. None is bound
by the runtime; each is the one that its name finds, with the origin with which the name was first
resolved, and stays in its place whatever is asked later, so that resolving the name gives just this
stub. -/
theorem registered_identifiers_iff (calls : List Call) :
    let registry := empty.afterAll calls
    ((∀ stub ∈ registry.stubs, IsIdentifier stub.name.toList) ↔
        ∀ call ∈ calls, ∀ name ∈ call.offered, ¬Stub.HasBreak name) ∧
      (∀ stub ∈ registry.stubs,
        (IsIdentifier stub.name.toList ∨ Stub.HasBreak stub.name) ∧
          stub.name ∉ Sandbox.runtimeBindings ∧ registry.find? stub.name = some stub ∧
          stub.definition = Stub.placeholder stub.name ∧
          (calls.flatMap Call.resolutions).find? (·.1 == stub.name) =
            some (stub.name, stub.origin)) ∧
      ∀ later, registry.stubs <+: (registry.afterAll later).stubs ∧
        ∀ stub ∈ registry.stubs, ∀ origin,
          (registry.afterAll later).resolve stub.name origin =
            (registry.afterAll later, .ok stub) := by
  intro registry
  have registry_eq : registry = empty.resolveAll (calls.flatMap Call.resolutions) :=
    afterAll_eq empty calls
  have filed : registry.Filed := registry_eq ▸ filed_resolveAll (List.forall_mem_nil _) _
  have held (stub : Stub) (mem : stub ∈ registry.stubs) :
      (IsIdentifier stub.name.toList ∨ Stub.HasBreak stub.name) ∧
        stub.name ∉ Sandbox.runtimeBindings ∧ registry.find? stub.name = some stub ∧
        stub.definition = Stub.placeholder stub.name ∧
        (calls.flatMap Call.resolutions).find? (·.1 == stub.name) =
          some (stub.name, stub.origin) := by
    obtain ⟨allowed, first, definition_eq⟩ := mem_resolveAll_iff.1 (registry_eq ▸ mem)
    obtain ⟨spelled, free⟩ := Stub.allows_iff.1 allowed
    exact ⟨spelled, free, filed stub mem, definition_eq, first⟩
  refine ⟨⟨?_, ?_⟩, held, fun later => ?_⟩
  · intro identifiers call called name offered broken
    obtain ⟨origin, resolved⟩ := (Call.mem_offered_iff broken).1 offered
    obtain ⟨⟨other, origin'⟩, first⟩ : ∃ entry,
        (calls.flatMap Call.resolutions).find? (·.1 == name) = some entry := by
      rw [← Option.isSome_iff_exists, List.find?_isSome]
      exact ⟨_, List.mem_flatMap.2 ⟨call, called, resolved⟩, by simp⟩
    obtain rfl : other = name := by simpa using List.find?_some first
    have mem : ⟨other, origin', Stub.placeholder other⟩ ∈ registry.stubs := by
      rw [registry_eq]
      exact mem_resolveAll_iff.2 ⟨broken.allows, first, rfl⟩
    exact Stub.not_hasBreak_of_identifier (identifiers _ mem) broken
  · intro unbroken stub mem
    obtain ⟨spelled, -, -, -, first⟩ := held stub mem
    refine spelled.resolve_right fun broken => ?_
    obtain ⟨call, called, resolved⟩ := List.mem_flatMap.1 (List.mem_of_find?_eq_some first)
    exact unbroken call called _ ((Call.mem_offered_iff broken).2 ⟨_, resolved⟩) broken
  · have stays : registry.stubs <+: (registry.afterAll later).stubs := by
      rw [afterAll_eq registry later]
      exact prefix_resolveAll _ registry
    exact ⟨stays, fun stub mem origin =>
      resolve_registered (find?_of_stubs stays (filed stub mem)) origin⟩

/-- A name that is seeded first, a tag as well and asked for once more. -/
theorem seeded_origin_stays :
    let calls := [Call.synthesize "<A/>;<B/>".toList ["A"], .resolve "A" .runtime]
    let registry := empty.afterAll calls
    let stub : Stub := ⟨"A", .seeded, Stub.placeholder "A"⟩
    stub ∈ registry.stubs ∧ registry.find? "A" = some stub ∧
      ((∀ stub ∈ registry.stubs, IsIdentifier stub.name.toList) ↔
        ∀ call ∈ calls, ∀ name ∈ call.offered, ¬Stub.HasBreak name) ∧
      (registry.afterAll calls).resolve "A" .markup = (registry.afterAll calls, .ok stub) := by
  intro calls registry stub
  obtain ⟨spelled, held, stays⟩ := registered_identifiers_iff calls
  have mem : stub ∈ registry.stubs := by decide +kernel
  obtain ⟨-, -, found, -⟩ := held stub mem
  exact ⟨mem, found, spelled, (stays calls).2 stub mem .markup⟩

/-- A line break behind an identifier is registered as part of a name. -/
theorem line_break_registered :
    (empty.afterAll [.resolve "Foo\n" .markup]).stubs =
        [⟨"Foo\n", .markup, Stub.placeholder "Foo\n"⟩] ∧ ¬IsIdentifier "Foo\n".toList := by
  refine ⟨by decide +kernel, fun identifier => ?_⟩
  exact absurd (isNameChar_of_mem_identifier identifier '\n' (by decide)) (by decide)

end Registry

end ComponentPreview
