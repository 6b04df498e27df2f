import ComponentPreview.Proofs.Document.Embedding
import ComponentPreview.Proofs.Document.History
import ComponentPreview.Proofs.Script.Token
import ComponentPreview.Proofs.Stub.Declared

/-!
# Seeded symbols

The host reads the symbol to seed from an error message by a pattern of its own, and a name passes
the options, the names that the source binds, the registry and the runtime before it is stubbed.
What the host reads is an identifier, so the only way past a stub is a declaration of the source or
a binding of the runtime, and never a refusal.
-/

namespace ComponentPreview

open Pattern

/-- What an error message reports as not defined is an identifier. -/
theorem isIdentifier_of_undefinedSymbol? {message : List Char} {symbol : String}
    (h : undefinedSymbol? message = some symbol) : Stub.isIdentifier symbol = true := by
  obtain ⟨found, first, rfl⟩ := Option.map_eq_some_iff.1 h
  obtain ⟨-, here, -, found_at⟩ := at?_of_firstFrom? first
  obtain ⟨last, ends, rfl⟩ := exists_end_of_at? found_at
  obtain ⟨inner, named, reads, -⟩ := group_of_mem_ends here rfl rfl ends
  generalize (last.toMatch here).group 0 = word at reads
  obtain ⟨middle, starts, others⟩ := mem_ends_append.1 named
  obtain ⟨c, there, isStart, reads', rfl⟩ := mem_ends_one.1 starts
  obtain ⟨rest, there', reads'', areChars, -, rfl⟩ := mem_ends_every.1 others
  obtain rfl := reads.word_unique (reads'.trans reads'')
  refine Stub.isIdentifier_of_spelled ?_
  rw [String.toList_ofList]
  exact ⟨c, rest, rfl, isStart, areChars⟩

namespace Stub

/-- A definition binds a name, to a placeholder or to a stand-in of a library. -/
def Binds (name definition : String) : Prop :=
  definition = placeholder name ∨
    ∃ module export?, definition = libraryBinding name module export?

theorem binds_libraryBinding (name module : String) (export? : Option String) :
    Binds name (libraryBinding name module export?) :=
  .inr ⟨module, export?, rfl⟩

end Stub

theorem Source.binds_libraryStubs (text : List Char) :
    ∀ stub ∈ libraryStubs text, Stub.Binds stub.name stub.definition := by
  intro stub mem
  obtain ⟨module, export?, -, eq⟩ := mem_libraryStubs mem
  rw [eq]
  exact Stub.binds_libraryBinding _ _ _

/-! ## Names that are taken up -/

namespace Outline

/-- An outline after some names were taken up: it holds more placeholders, and more names that are
no identifiers are refused. -/
structure Extends (first last : Outline) : Prop where
  entries : ∃ more, last.entries = first.entries ++ more ∧
    ∀ entry ∈ more, entry.2 = Stub.placeholder entry.1
  failures : ∃ more, last.failures = first.failures ++ more ∧
    ∀ failure ∈ more, Stub.isIdentifier failure.1 = false ∧ failure.2 = .notIdentifier

namespace Extends

variable {first middle last : Outline}

theorem refl (outline : Outline) : Extends outline outline :=
  ⟨⟨[], by simp⟩, ⟨[], by simp⟩⟩

theorem trans (h : Extends first middle) (h' : Extends middle last) : Extends first last := by
  obtain ⟨⟨more, eq, placeholders⟩, ⟨refused, eq', unfit⟩⟩ := h
  obtain ⟨⟨more', eq₂, placeholders'⟩, ⟨refused', eq₂', unfit'⟩⟩ := h'
  refine ⟨⟨more ++ more', by rw [eq₂, eq, List.append_assoc], ?_⟩,
    ⟨refused ++ refused', by rw [eq₂', eq', List.append_assoc], ?_⟩⟩
  · exact fun entry mem => (List.mem_append.1 mem).elim (placeholders entry) (placeholders' entry)
  · exact fun failure mem => (List.mem_append.1 mem).elim (unfit failure) (unfit' failure)

theorem has {name : String} (h : Extends first last) (has : first.has name = true) :
    last.has name = true := by
  obtain ⟨more, eq, -⟩ := h.entries
  rw [Outline.has, eq, List.any_append, Bool.or_eq_true]
  exact .inl has

end Extends

variable {bound names : List String} {outline : Outline} {name : String}

theorem extends_take (bound : List String) (outline : Outline) (name : String) :
    Extends outline (outline.take bound name) := by
  unfold take
  split
  · exact .refl outline
  split
  · next unfit => exact ⟨⟨[], by simp⟩, ⟨[(name, .notIdentifier)], rfl, by simpa using unfit⟩⟩
  split
  · exact .refl outline
  · exact ⟨⟨[(name, Stub.placeholder name)], rfl, by simp⟩, ⟨[], by simp⟩⟩

theorem extends_foldl (bound names : List String) (outline : Outline) :
    Extends outline (names.foldl (take bound) outline) := by
  induction names generalizing outline with
  | nil => exact .refl outline
  | cons name names ih => exact (extends_take bound outline name).trans (ih _)

theorem has_take (unbound : name ∉ bound) (free : name ∉ Sandbox.runtimeBindings)
    (identifier : Stub.isIdentifier name = true) : (outline.take bound name).has name = true := by
  unfold take
  simp only [List.contains_iff_mem, unbound, free, identifier, Bool.not_true, Bool.false_eq_true,
    or_self, if_false, Bool.or_eq_true]
  split
  · assumption
  · simp [has]

theorem has_foldl (mem : name ∈ names) (unbound : name ∉ bound)
    (free : name ∉ Sandbox.runtimeBindings) (identifier : Stub.isIdentifier name = true) :
    (names.foldl (take bound) outline).has name = true := by
  obtain ⟨before, after, rfl⟩ := List.append_of_mem mem
  rw [List.foldl_append, List.foldl_cons]
  exact (extends_foldl bound after _).has (has_take unbound free identifier)

/-- An identifier that is asked for has an entry, unless the source declares it or the runtime binds
it. -/
theorem has_ofText {text : List Char} {seeded : List String} (mem : name ∈ seeded)
    (undeclared : name ∉ Source.declaredNames text) (free : name ∉ Sandbox.runtimeBindings)
    (identifier : Stub.isIdentifier name = true) : (ofText text seeded).has name = true := by
  unfold ofText
  dsimp only
  set library := (Source.libraryStubs text).filter
    fun stub => !(Source.declaredNames text).contains stub.name
  by_cases provided : name ∈ library.map Stub.name
  · refine (extends_foldl _ _ _).has ?_
    simpa [has, List.any_map] using provided
  · refine has_foldl ?_ ?_ free identifier
    · simp [mem]
    · rw [List.mem_append, not_or]
      exact ⟨undeclared, provided⟩

/-- Each entry binds its name, and each name without one is no identifier. -/
theorem sound_ofText (text : List Char) (seeded : List String) :
    (∀ entry ∈ (ofText text seeded).entries, Stub.Binds entry.1 entry.2) ∧
    ∀ failure ∈ (ofText text seeded).failures,
      Stub.isIdentifier failure.1 = false ∧ failure.2 = .notIdentifier := by
  unfold ofText
  dsimp only
  set library := (Source.libraryStubs text).filter
    fun stub => !(Source.declaredNames text).contains stub.name
  obtain ⟨⟨more, eq, placeholders⟩, ⟨refused, eq', unfit⟩⟩ := extends_foldl
    (Source.declaredNames text ++ library.map Stub.name)
    (seeded ++ Source.importedNames text ++ Source.markupNames text)
    ⟨library.map fun stub => (stub.name, stub.definition), []⟩
  rw [eq, eq', List.nil_append]
  refine ⟨fun entry mem => ?_, unfit⟩
  rcases List.mem_append.1 mem with mem | mem
  · obtain ⟨stub, provided, rfl⟩ := List.mem_map.1 mem
    exact Source.binds_libraryStubs text stub (List.mem_filter.1 provided).1
  · exact .inl (placeholders entry mem)

end Outline

namespace Document

/-- A document names a stub and holds its definition on a line of its own. -/
structure Carries (document : Document) (stub : Stub) : Prop where
  named : stub.name ∈ document.stubNames
  defined : ∃ before after,
    document.html = before ++ "\n" ++ (stub.definition ++ "\n" ++ after)

theorem exists_line {lines : List String} {line : String} (mem : line ∈ lines)
    (first last : String) : ∃ before after,
      first ++ "\n" ++ ("\n".intercalate lines ++ "\n" ++ last) =
        before ++ "\n" ++ (line ++ "\n" ++ after) := by
  obtain ⟨front, back, rfl⟩ := List.append_of_mem mem
  have some : front ++ line :: back ≠ [] := List.append_ne_nil_of_right_ne_nil _ (by simp)
  refine ⟨"\n".intercalate (first :: front), "\n".intercalate (back ++ [last]), ?_⟩
  calc first ++ "\n" ++ ("\n".intercalate (front ++ line :: back) ++ "\n" ++ last)
      = "\n".intercalate (first :: ((front ++ line :: back) ++ [last])) := by
        rw [String.intercalate_cons_of_ne_nil (by simp),
          String.intercalate_append_of_ne_nil some (by simp), String.intercalate_singleton]
    _ = "\n".intercalate ((first :: front) ++ line :: (back ++ [last])) := by simp
    _ = _ := by
        rw [String.intercalate_append_of_ne_nil (List.cons_ne_nil _ _) (List.cons_ne_nil _ _),
          String.intercalate_cons_of_ne_nil (l := back ++ [last]) (by simp)]

theorem carries_build (analysis : Analysis) {stubs : List Stub} {stub : Stub} (mem : stub ∈ stubs)
    (script : Script) (config : Config) (options : Json) :
    (build analysis stubs script config options).Carries stub := by
  refine ⟨List.mem_map_of_mem mem, ?_⟩
  have tail : "\n".intercalate (afterSource stubs) = Sandbox.prelude ++ "\n" ++
      ("\n".intercalate (stubs.map Stub.definition) ++ "\n" ++
        "\n".intercalate ["</script>", "</body>", "</html>"]) := by
    rw [afterSource, String.intercalate_cons_of_ne_nil (by simp),
      String.intercalate_cons_of_ne_nil (by simp)]
  obtain ⟨before, after, eq⟩ := exists_line (List.mem_map_of_mem (f := Stub.definition) mem)
    Sandbox.prelude ("\n".intercalate ["</script>", "</body>", "</html>"])
  have regroup (first line front rest : String) :
      first ++ "\n" ++ (line ++ "\n" ++ (front ++ "\n" ++ rest)) =
        first ++ "\n" ++ (line ++ "\n" ++ front) ++ "\n" ++ rest := by
    simp only [String.append_assoc]
  rw [html_build, tail, eq, regroup]
  exact ⟨_, after, rfl⟩

end Document

/-- An entry for a name is no entry for another name, whatever the reasons: they end differently. -/
theorem Refusal.name_of_entry {name other : String} {refusal refusal' : Refusal}
    (h : name ++ ": " ++ refusal.reason = other ++ ": " ++ refusal'.reason) : name = other := by
  have last := congrArg (fun text => text.toList.getLast?) h
  cases refusal with
  | notIdentifier =>
      cases refusal' with
      | notIdentifier => simpa [reason] using h
      | boundByRuntime => simp [reason] at last
  | boundByRuntime =>
      cases refusal' with
      | notIdentifier => simp [reason] at last
      | boundByRuntime => simpa [reason] using h

namespace Preview

/-- The names without a stub that the body of an answer lists, each with the reason. -/
def Answer.unresolved (answer : Answer) : List Json :=
  match answer.metadata.get "unresolved" with
  | .arr entries => entries
  | _ => []

/-- The body of an answer lists a name as one without a stub, for whatever reason. -/
def Answer.Reports (answer : Answer) (name : String) : Prop :=
  ∃ refusal : Refusal, .str (name ++ ": " ++ refusal.reason) ∈ answer.unresolved

variable {setting : Setting} {request : Request}

theorem unresolved_build {script : Script}
    (accepted : (Validation.of setting.config ⟨request.code⟩
      (Analysis.ofText request.code)).isValid = true)
    (made : setting.makeScript request.code = .ok script) :
    (build setting request).unresolved =
      (Synthesis.ofText request.code (seededNames request.options) setting.registry).failures.map
        fun failure => .str (failure.1 ++ ": " ++ failure.2.reason) := by
  unfold build
  simp only [accepted, Bool.not_true, Bool.false_eq_true, if_false, made]
  simp [Answer.unresolved, Answer.metadata, metadata, Json.get, Named.get?, encodeFailures,
    Json.ofStrings, Function.comp_def]

end Preview

end ComponentPreview
