import ComponentPreview.Preview
import ComponentPreview.Proofs.Json.Literal
import ComponentPreview.Proofs.Text.Match
import ComponentPreview.Stub.Synthesis

/-!
# Definitions of stubs

The stubs that imports of libraries give, told by the imports: a specifier that names an export and
the local name for it, or a name for all of the library. The scan gives one stub for each name that
such an import binds (`name_mem_libraryStubs_iff`).

Only names that are identifiers are stubbed, so the definition of a stub holds no angle bracket.
This holds of every stub that a source is given, whatever names the host asks for, as long as the
registry was filled by previews.
-/

/-! ## Stubs of libraries -/

namespace ComponentPreview.Source

open Pattern

/-- The export that a specifier names and, behind `as`, what it is called. -/
def specifierNames (specifier : List Char) : List String :=
  (Import.aliasMark.cut (Text.trim isBlank specifier)).map String.ofList

/-- An import binds a name to an export of a library with stand-ins, or to all of the library. -/
inductive ImportsFrom (text : List Char) (module : String) : Option String → String → Prop
  | named {found : Match} {provided : List String} {specifier : List Char} {binding name : String}
      (mem : found ∈ namedImport.findAll text) (imported : String.ofList (found.group 1) = module)
      (known : Sandbox.libraryExports? module = some provided)
      (listed : specifier ∈ Text.cut (· == ',') (found.group 0))
      (first : (specifierNames specifier).headD "" = binding)
      (last : (specifierNames specifier).getLastD "" = name) (exported : binding ∈ provided)
      (identifier : Stub.isIdentifier name = true) : ImportsFrom text module (some binding) name
  | whole {found : Match} {name : String} (mem : found ∈ namespaceImport.findAll text)
      (imported : String.ofList (found.group 1) = module)
      (known : (Sandbox.libraryExports? module).isSome = true)
      (called : String.ofList (found.group 0) = name) : ImportsFrom text module none name

variable {text : List Char} {stub : Stub} {stubs : List Stub} {name : String}

theorem mem_of_mem_firstOfEachName (h : stub ∈ firstOfEachName stubs) : stub ∈ stubs := by
  have step : ∀ (stubs kept : List Stub), stub ∈ stubs.foldl
      (fun kept stub => if kept.any (·.name == stub.name) then kept else kept ++ [stub]) kept →
      stub ∈ kept ∨ stub ∈ stubs := by
    intro stubs
    induction stubs with
    | nil => exact fun kept mem => .inl mem
    | cons next stubs ih =>
        intro kept mem
        rw [List.foldl_cons] at mem
        rcases ih _ mem with mem | mem
        · split at mem
          · exact .inl mem
          · rcases List.mem_append.1 mem with mem | mem
            · exact .inl mem
            · exact .inr (List.mem_singleton.1 mem ▸ List.mem_cons_self)
        · exact .inr (List.mem_cons_of_mem _ mem)
  exact (step stubs [] h).resolve_left List.not_mem_nil

/-- One stub is kept for each name. -/
theorem firstOfEachName_names (stubs : List Stub) :
    ((firstOfEachName stubs).map Stub.name).Nodup ∧
      ∀ stub ∈ stubs, stub.name ∈ (firstOfEachName stubs).map Stub.name := by
  have step : ∀ (stubs kept : List Stub), (kept.map Stub.name).Nodup →
      let all := stubs.foldl
        (fun kept stub => if kept.any (·.name == stub.name) then kept else kept ++ [stub]) kept
      (all.map Stub.name).Nodup ∧
        ∀ stub, stub ∈ kept ∨ stub ∈ stubs → stub.name ∈ all.map Stub.name := by
    intro stubs
    induction stubs with
    | nil =>
        intro kept distinct
        exact ⟨distinct, fun stub mem => List.mem_map_of_mem (mem.resolve_right List.not_mem_nil)⟩
    | cons next stubs ih =>
        intro kept distinct
        rw [List.foldl_cons]
        split
        · next held =>
            obtain ⟨other, mem, same⟩ := List.any_eq_true.1 held
            obtain ⟨distinct, keeps⟩ := ih kept distinct
            refine ⟨distinct, ?_⟩
            rintro stub (mem' | mem')
            · exact keeps stub (.inl mem')
            · rcases List.mem_cons.1 mem' with rfl | mem'
              · exact eq_of_beq same ▸ keeps other (.inl mem)
              · exact keeps stub (.inr mem')
        · next fresh =>
            have fresh : next.name ∉ kept.map Stub.name := by simpa using fresh
            obtain ⟨distinct, keeps⟩ := ih (kept ++ [next])
              (by simpa [List.nodup_append, distinct] using fresh)
            refine ⟨distinct, fun stub mem => keeps stub ?_⟩
            simpa [or_assoc] using mem
  obtain ⟨distinct, keeps⟩ := step stubs [] List.nodup_nil
  exact ⟨distinct, fun stub mem => keeps stub (.inr mem)⟩

theorem libraryStub?_eq (module : String) (provided : List String) (specifier : List Char) :
    libraryStub? module provided specifier =
      let binding := (specifierNames specifier).headD ""
      let name := (specifierNames specifier).getLastD ""
      if provided.contains binding && Stub.isIdentifier name then
        some ⟨name, .library, Stub.libraryBinding name module (some binding)⟩
      else none :=
  rfl

theorem libraryStub?_eq_some {module : String} {provided : List String} {specifier : List Char} :
    libraryStub? module provided specifier = some stub ↔
      (specifierNames specifier).headD "" ∈ provided ∧ Stub.isIdentifier stub.name = true ∧
        (specifierNames specifier).getLastD "" = stub.name ∧
        stub = ⟨stub.name, .library,
          Stub.libraryBinding stub.name module ((specifierNames specifier).headD "")⟩ := by
  rw [libraryStub?_eq]
  generalize (specifierNames specifier).headD "" = binding
  generalize (specifierNames specifier).getLastD "" = name
  simp only [Option.ite_none_right_eq_some, Bool.and_eq_true, List.contains_iff_mem,
    Option.some.injEq, and_assoc]
  constructor
  · rintro ⟨exported, identifier, rfl⟩
    exact ⟨exported, identifier, rfl, rfl⟩
  · rintro ⟨exported, identifier, rfl, eq⟩
    exact ⟨exported, identifier, eq.symm⟩

/-- The stubs before those of the same name are dropped, one for each import. -/
theorem mem_imports_iff : stub ∈ (namedImport.findAll text).flatMap namedLibraryStubs ++
      (namespaceImport.findAll text).filterMap namespaceLibraryStub? ↔
    ∃ module export?, ImportsFrom text module export? stub.name ∧
      stub = ⟨stub.name, .library, Stub.libraryBinding stub.name module export?⟩ := by
  rw [List.mem_append, List.mem_flatMap, List.mem_filterMap]
  constructor
  · rintro (⟨found, mem, made⟩ | ⟨found, mem, made⟩)
    · simp only [namedLibraryStubs] at made
      split at made
      · next provided known =>
          obtain ⟨specifier, listed, made⟩ := List.mem_filterMap.1 made
          obtain ⟨exported, identifier, last, eq⟩ := libraryStub?_eq_some.1 made
          exact ⟨_, _, .named mem rfl known listed rfl last exported identifier, eq⟩
      · cases made
    · simp only [namespaceLibraryStub?, Option.ite_none_right_eq_some, Option.some.injEq] at made
      obtain ⟨known, rfl⟩ := made
      exact ⟨_, none, .whole mem rfl known rfl, rfl⟩
  · rintro ⟨module, export?, imports, eq⟩
    cases imports with
    | @named found provided specifier binding _ mem imported known listed first last exported
        identifier =>
        subst imported first
        refine .inl ⟨found, mem, ?_⟩
        simp only [namedLibraryStubs, known]
        exact List.mem_filterMap.2
          ⟨specifier, listed, libraryStub?_eq_some.2 ⟨exported, identifier, last, eq⟩⟩
    | @whole found _ mem imported known called =>
        subst imported
        refine .inr ⟨found, mem, ?_⟩
        simp only [namespaceLibraryStub?, known, if_true, Option.some.injEq]
        rw [called]
        exact eq.symm

theorem mem_libraryStubs (mem : stub ∈ libraryStubs text) :
    ∃ module export?, ImportsFrom text module export? stub.name ∧
      stub = ⟨stub.name, .library, Stub.libraryBinding stub.name module export?⟩ :=
  mem_imports_iff.1 (mem_of_mem_firstOfEachName mem)

theorem name_mem_libraryStubs_iff : name ∈ (libraryStubs text).map Stub.name ↔
    ∃ module export?, ImportsFrom text module export? name := by
  constructor
  · intro mem
    obtain ⟨stub, made, rfl⟩ := List.mem_map.1 mem
    obtain ⟨module, export?, imports, -⟩ := mem_libraryStubs made
    exact ⟨module, export?, imports⟩
  · rintro ⟨module, export?, imports⟩
    have made : ⟨name, .library, Stub.libraryBinding name module export?⟩ ∈
        (namedImport.findAll text).flatMap namedLibraryStubs ++
          (namespaceImport.findAll text).filterMap namespaceLibraryStub? :=
      mem_imports_iff.2 ⟨module, export?, imports, rfl⟩
    exact (firstOfEachName_names _).2 _ made

end ComponentPreview.Source

/-! ## Definitions without angle brackets -/

namespace ComponentPreview

namespace Json

theorem angle_not_mem_toDigits (n : Nat) : '<' ∉ Nat.toDigits 16 n := by
  induction n using Nat.strongRecOn with
  | ind n ih =>
      have digit : ∀ d < 16, '<' ∉ [d.digitChar] := by decide
      by_cases small : n < 16
      · rw [Nat.toDigits_of_lt_base small]
        exact digit n small
      · rw [Nat.toDigits_of_base_le (by decide) (by omega), List.mem_append, not_or]
        exact ⟨ih _ (by omega), digit _ (Nat.mod_lt n (by decide))⟩

theorem angle_not_mem_escapeUnit (unit : Nat) : '<' ∉ (escapeUnit unit).toList := by
  rw [toList_escapeUnit]
  simp [angle_not_mem_toDigits]

theorem angle_not_mem_escapeChar (asciiOnly : Bool) {c : Char} (h : c ≠ '<') :
    '<' ∉ (escapeChar asciiOnly c).toList := by
  unfold escapeChar
  split
  · decide
  split
  · decide
  split
  · decide
  split
  · decide
  split
  · decide
  split
  · decide
  split
  · decide
  dsimp only
  split
  · exact angle_not_mem_escapeUnit _
  split
  · simpa using Ne.symm h
  split
  · exact angle_not_mem_escapeUnit _
  · simp [angle_not_mem_escapeUnit]

/-- A literal holds no angle bracket but those of its text. -/
theorem angle_not_mem_literal {text : String} (h : '<' ∉ text.toList) :
    '<' ∉ (literal text).toList := by
  rw [literal, toList_quote]
  simp only [List.cons_append, List.mem_cons, List.mem_append, List.mem_flatMap, not_or]
  refine ⟨by decide, ?_, by decide, by simp⟩
  rintro ⟨c, mem, escaped⟩
  exact angle_not_mem_escapeChar true (fun angle => h (angle ▸ mem)) escaped

end Json

namespace Pattern

/-- A name consists of characters of names. -/
theorem isNameChar_of_mem_ends_name {first last : Progress} (h : last ∈ name.ends first) :
    ∃ word, first.here.Reads word last.here ∧ ∀ c ∈ word, isNameChar c = true := by
  obtain ⟨middle, start, others⟩ := mem_ends_append.1 h
  obtain ⟨c, there, isStart, reads, rfl⟩ := mem_ends_one.1 start
  obtain ⟨word, last', reads', areChars, -, rfl⟩ := mem_ends_every.1 others
  refine ⟨c :: word, reads.trans reads', ?_⟩
  intro d mem
  rcases List.mem_cons.1 mem with rfl | mem
  · exact isNameChar_of_isNameStart d isStart
  · exact areChars d mem

end Pattern

namespace Stub

open Pattern

theorem angle_not_mem_of_isNameChar {text : List Char} (h : ∀ c ∈ text, isNameChar c = true) :
    '<' ∉ text :=
  fun mem => absurd (h '<' mem) (by decide)

theorem angle_not_mem_of_isIdentifier {name : String} (h : isIdentifier name = true) :
    '<' ∉ name.toList := by
  obtain ⟨last, mem⟩ := isSome_at?.1 h
  obtain ⟨middle, named, ended⟩ := mem_ends_append.1 mem
  obtain ⟨word, reads, areChars⟩ := isNameChar_of_mem_ends_name named
  have eq : name.toList = word ++ middle.here.rest := reads.rest_eq
  rw [eq, List.mem_append, not_or]
  refine ⟨angle_not_mem_of_isNameChar areChars, ?_⟩
  rcases (mem_ends_textEnd.1 ended).1 with rest | rest
  · simp [rest]
  · simp [rest]

/-- Whether the definition of a stub holds no angle bracket. -/
def IsSafe (stub : Stub) : Prop :=
  '<' ∉ stub.definition.toList

theorem isSafe_placeholder {name : String} (origin : StubOrigin) (h : '<' ∉ name.toList) :
    IsSafe ⟨name, origin, placeholder name⟩ := by
  have literal := Json.angle_not_mem_literal h
  simp [IsSafe, placeholder, literal]

theorem isSafe_libraryBinding {name module : String} {export? : Option String}
    (named : '<' ∉ name.toList) (moduleNamed : '<' ∉ module.toList)
    (exported : ∀ binding ∈ export?, '<' ∉ binding.toList) :
    IsSafe ⟨name, .library, libraryBinding name module export?⟩ := by
  have literal := Json.angle_not_mem_literal named
  have moduleLiteral := Json.angle_not_mem_literal moduleNamed
  cases export? with
  | none => simp [IsSafe, libraryBinding, literal, moduleLiteral]
  | some binding =>
      have exportLiteral := Json.angle_not_mem_literal (exported binding rfl)
      simp [IsSafe, libraryBinding, literal, moduleLiteral, exportLiteral]

end Stub

namespace Source

open Pattern

/-- The names of a module with stand-ins, and of what it exports, hold no angle bracket. -/
theorem angle_not_mem_libraries {module : String} {provided : List String}
    (h : Sandbox.libraryExports? module = some provided) :
    '<' ∉ module.toList ∧ ∀ binding ∈ provided, '<' ∉ binding.toList := by
  obtain ⟨⟨known, exports⟩, found, rfl⟩ := Option.map_eq_some_iff.1 h
  have same := List.find?_some found
  rw [← eq_of_beq same]
  have mem := List.mem_of_find?_eq_some found
  have clean : ∀ library ∈ Sandbox.libraries,
      '<' ∉ library.1.toList ∧ ∀ binding ∈ library.2, '<' ∉ binding.toList := by
    simp [Sandbox.libraries]
  exact clean _ mem

theorem angle_not_mem_namespaceImport {text : List Char} {found : Match}
    (h : found ∈ namespaceImport.findAll text) : '<' ∉ found.group 0 := by
  obtain ⟨-, here, -, found_at⟩ := at?_of_mem_findAll h
  obtain ⟨last, ends, rfl⟩ := exists_end_of_at? found_at
  have parts : namespaceImport =
      (lit "import" ++ gap ++ lit "*" ++ gap ++ lit "as" ++ gap) ++
        (capture name ++ (gap ++ lit "from" ++ spacing ++ quotedText)) := rfl
  rw [parts] at ends
  obtain ⟨opened, lead, ends⟩ := mem_ends_append.1 ends
  obtain ⟨inner, named, captured, -⟩ :=
    group_of_mem_ends here rfl (groups_of_isPlain rfl lead) ends
  obtain ⟨word, reads, areChars⟩ := isNameChar_of_mem_ends_name named
  rw [captured.word_unique reads]
  exact Stub.angle_not_mem_of_isNameChar areChars

/-- The names that an import of a library is made of hold no angle bracket. -/
theorem ImportsFrom.angle_not_mem {text : List Char} {module name : String}
    {export? : Option String} (h : ImportsFrom text module export? name) :
    '<' ∉ name.toList ∧ '<' ∉ module.toList ∧ ∀ binding ∈ export?, '<' ∉ binding.toList := by
  cases h with
  | named _ _ known _ _ _ exported identifier =>
      obtain ⟨moduleNamed, exports⟩ := angle_not_mem_libraries known
      refine ⟨Stub.angle_not_mem_of_isIdentifier identifier, moduleNamed, ?_⟩
      rintro binding ⟨⟩
      exact exports _ exported
  | whole mem _ known called =>
      obtain ⟨provided, known⟩ := Option.isSome_iff_exists.1 known
      refine ⟨?_, (angle_not_mem_libraries known).1, by simp⟩
      rw [← called, String.toList_ofList]
      exact angle_not_mem_namespaceImport mem

theorem isSafe_libraryStubs (text : List Char) : ∀ stub ∈ libraryStubs text, stub.IsSafe := by
  intro stub mem
  obtain ⟨module, export?, imports, eq⟩ := mem_libraryStubs mem
  obtain ⟨named, moduleNamed, exported⟩ := imports.angle_not_mem
  rw [eq]
  exact Stub.isSafe_libraryBinding named moduleNamed exported

end Source

/-- Whether the definitions of all registered stubs hold no angle bracket. -/
def Registry.IsSafe (registry : Registry) : Prop :=
  ∀ stub ∈ registry.stubs, stub.IsSafe

namespace Registry

theorem isSafe_empty : empty.IsSafe :=
  fun _ mem => absurd mem List.not_mem_nil

theorem isSafe_add {registry : Registry} {stub : Stub} (safe : registry.IsSafe)
    (h : stub.IsSafe) : (registry.add stub).1.IsSafe ∧ (registry.add stub).2.IsSafe := by
  unfold add
  split
  · next kept found => exact ⟨safe, safe kept (List.mem_of_find?_eq_some found)⟩
  · refine ⟨?_, h⟩
    intro other mem
    rcases List.mem_append.1 mem with mem | mem
    · exact safe other mem
    · exact List.mem_singleton.1 mem ▸ h

theorem isSafe_resolve {registry : Registry} (safe : registry.IsSafe) (name : String)
    (origin : StubOrigin) : (registry.resolve name origin).1.IsSafe ∧
      ∀ stub, (registry.resolve name origin).2 = .ok stub → stub.IsSafe := by
  unfold resolve
  split
  · next stub found =>
      refine ⟨safe, ?_⟩
      rintro _ ⟨⟩
      exact safe stub (List.mem_of_find?_eq_some found)
  · split
    · exact ⟨safe, fun _ => nofun⟩
    split
    · exact ⟨safe, fun _ => nofun⟩
    · next identifier _ =>
        rw [Bool.not_eq_true, Bool.not_eq_false'] at identifier
        have named := Stub.angle_not_mem_of_isIdentifier identifier
        obtain ⟨added, taken⟩ := isSafe_add safe (Stub.isSafe_placeholder origin named)
        refine ⟨added, ?_⟩
        rintro _ ⟨⟩
        exact taken

end Registry

namespace Synthesis

/-- Whether the definitions of all registered stubs and of all stubs of the source hold no angle
bracket. -/
structure IsSafe (synthesis : Synthesis) : Prop where
  registry : synthesis.registry.IsSafe
  stubs : ∀ stub ∈ synthesis.stubs, stub.IsSafe

theorem isSafe_take {synthesis : Synthesis} (safe : synthesis.IsSafe) (bound : List String)
    (name : String) (origin : StubOrigin) : (synthesis.take bound name origin).IsSafe := by
  unfold take
  split
  · exact safe
  · have resolved := Registry.isSafe_resolve safe.registry name origin
    split
    · next registry stub eq =>
        rw [eq] at resolved
        refine ⟨resolved.1, ?_⟩
        dsimp only
        split
        · exact safe.stubs
        · intro other mem
          rcases List.mem_append.1 mem with mem | mem
          · exact safe.stubs other mem
          · exact List.mem_singleton.1 mem ▸ resolved.2 stub rfl
    · next registry refusal eq =>
        rw [eq] at resolved
        exact ⟨resolved.1, safe.stubs⟩

theorem isSafe_takeAll {synthesis : Synthesis} (safe : synthesis.IsSafe) (bound : List String)
    (origin : StubOrigin) (names : List String) :
    (takeAll bound origin names synthesis).IsSafe := by
  unfold takeAll
  induction names generalizing synthesis with
  | nil => exact safe
  | cons name names ih => exact ih (isSafe_take safe bound name origin)

/-- Whatever names a source holds and a host asks for, its stubs are safe. -/
theorem isSafe_ofText (text : List Char) (seeded : List String) {registry : Registry}
    (safe : registry.IsSafe) : (ofText text seeded registry).IsSafe := by
  refine isSafe_takeAll (isSafe_takeAll (isSafe_takeAll ⟨safe, ?_⟩ _ _ _) _ _ _) _ _ _
  intro stub mem
  exact Source.isSafe_libraryStubs text stub (List.mem_filter.1 mem).1

end Synthesis

/-- The registries of a session: each preview hands its registry on to the next. -/
inductive Registry.Reached : Registry → Prop
  | empty : Reached .empty
  | build {setting : Preview.Setting} (request : Preview.Request)
      (h : Reached setting.registry) : Reached (Preview.build setting request).registry

namespace Registry.Reached

/-- What holds of the empty registry and is kept while the stubs of a source are made holds of every
registry of a session. -/
theorem invariant {motive : Registry → Prop} (start : motive .empty)
    (kept : ∀ text seeded registry, motive registry →
      motive (Synthesis.ofText text seeded registry).registry)
    {registry : Registry} (h : registry.Reached) : motive registry := by
  induction h with
  | empty => exact start
  | build request h ih =>
      unfold Preview.build
      dsimp only
      split
      · exact ih
      · split
        · exact kept _ _ _ ih
        · exact kept _ _ _ ih

theorem isSafe {registry : Registry} (h : registry.Reached) : registry.IsSafe :=
  h.invariant isSafe_empty fun text seeded _ safe =>
    (Synthesis.isSafe_ofText text seeded safe).registry

end Registry.Reached

end ComponentPreview
