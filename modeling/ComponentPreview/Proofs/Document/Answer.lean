import ComponentPreview.Preview
import ComponentPreview.Proofs.Stub.Registry
import Mathlib.Data.List.Induction

/-!
# Answers to previews

A request is answered with a success just when its source is accepted and its script can be made.
The body of a success presents the document: its page, its hash and the names of its stubs.

A source that the gate rejects never comes to the registry. One that it accepts has its names
resolved before its script is made, and what is registered stays, whether or not the script can be
made. A registry only ever grows at its end, by placeholders that are new to it
(`Registry.stubs_resolveAll`), so all that it held before a failure it holds after it.
-/

namespace ComponentPreview.Preview

/-- The document that a request is answered with, if it is answered with one. -/
def document? (setting : Setting) (request : Request) : Option Document :=
  let analysis := Analysis.ofText request.code
  if (Validation.of setting.config ⟨request.code⟩ analysis).isValid then
    match setting.makeScript request.code with
    | .ok script =>
        let synthesis :=
          Synthesis.ofText request.code (seededNames request.options) setting.registry
        some (Document.build analysis synthesis.stubs script setting.config request.options)
    | .error _ => none
  else none

namespace Answer

def metadata (answer : Answer) : Json :=
  answer.body.get "metadata"

/-- The names of the stubs that the body of an answer lists. -/
def stubNames (answer : Answer) : List Json :=
  match answer.metadata.get "stubs" with
  | .arr stubs => stubs.map (Json.get "name")
  | _ => []

/-- Whether the body of an answer shows the session, the version and the document of a success. -/
structure Presents (answer : Answer) (success : Success) : Prop where
  status_eq : answer.status = 200
  success_eq : answer.success = some success
  session_eq : answer.metadata.get "sessionId" = .str success.session
  version_eq : answer.metadata.get "version" = .int success.version
  name_eq : (answer.body.get "analysis").get "componentName" = .str success.document.componentName
  html_eq : answer.body.get "previewHTML" = .str success.document.html
  hash_eq : answer.metadata.get "documentHash" = .str success.document.contentHash
  stubNames_eq : answer.stubNames = success.document.stubNames.map .str

end Answer

variable {setting : Setting} {request : Request}

/-- The session that a request is answered for. -/
def sessionOf (setting : Setting) (request : Request) : String :=
  if (request.session.getD "").isEmpty then newSession setting.serial
  else request.session.getD ""

theorem build_presents {document : Document} (h : document? setting request = some document) :
    (build setting request).Presents ⟨sessionOf setting request, request.version, document⟩ := by
  simp only [document?, Option.ite_none_right_eq_some] at h
  obtain ⟨valid, h⟩ := h
  cases made : setting.makeScript request.code with
  | error details =>
      rw [made] at h
      cases h
  | ok script =>
      rw [made, Option.some.injEq] at h
      subst h
      unfold build
      simp only [valid, Bool.not_true, Bool.false_eq_true, if_false, made]
      refine ⟨rfl, rfl, rfl, rfl, rfl, rfl, rfl, ?_⟩
      simp [Answer.stubNames, Answer.metadata, metadata, Json.get, Named.get?, encodeStubs,
        Document.build]

theorem build_of_none (h : document? setting request = none) :
    (build setting request).status ≠ 200 ∧ (build setting request).success = none := by
  unfold build
  cases valid : (Validation.of setting.config ⟨request.code⟩
    (Analysis.ofText request.code)).isValid with
  | false => simp [valid]
  | true =>
      cases made : setting.makeScript request.code with
      | error details => simp [valid, made]
      | ok script => simp [document?, valid, made] at h

theorem document?_of_status (h : (build setting request).status = 200) :
    ∃ document, document? setting request = some document := by
  cases found : document? setting request with
  | none => exact absurd h (build_of_none found).1
  | some document => exact ⟨document, rfl⟩

end ComponentPreview.Preview

/-! ## The registry of a preview that fails -/

namespace ComponentPreview

theorem Source.firstOfEachName_concat (stubs : List Stub) (stub : Stub) :
    firstOfEachName (stubs ++ [stub]) =
      if (firstOfEachName stubs).any (·.name == stub.name) then firstOfEachName stubs
      else firstOfEachName stubs ++ [stub] := by
  simp [firstOfEachName]

theorem Source.firstOfEachName_eq_nil_iff {stubs : List Stub} :
    firstOfEachName stubs = [] ↔ stubs = [] := by
  constructor
  · intro none
    refine List.eq_nil_iff_forall_not_mem.2 fun stub mem => ?_
    have kept := (firstOfEachName_names stubs).2 stub mem
    rw [none] at kept
    cases kept
  · rintro rfl
    rfl

namespace Registry

/-- The placeholders that the resolution of some names adds to a registry: one for each name that
may be stubbed and is not registered yet, in the order in which the names first come. -/
def additions (registry : Registry) (entries : List (String × StubOrigin)) : List Stub :=
  Source.firstOfEachName ((entries.filter fun entry =>
    Stub.allows entry.1 && !registry.contains entry.1).map fun entry =>
      ⟨entry.1, entry.2, Stub.placeholder entry.1⟩)

variable {registry : Registry} {entries : List (String × StubOrigin)}

theorem additions_concat (entry : String × StubOrigin) :
    registry.additions (entries ++ [entry]) =
      if Stub.allows entry.1 && !registry.contains entry.1 &&
          !(registry.additions entries).any (·.name == entry.1) then
        registry.additions entries ++ [⟨entry.1, entry.2, Stub.placeholder entry.1⟩]
      else registry.additions entries := by
  rw [additions, List.filter_append, List.map_append, List.filter_singleton]
  cases Stub.allows entry.1 && !registry.contains entry.1 with
  | false => simp [additions]
  | true =>
      simp only [cond_true, List.map_cons, List.map_nil, Source.firstOfEachName_concat,
        Bool.true_and]
      rw [← additions]
      cases (registry.additions entries).any (·.name == entry.1) <;> rfl

/-- Resolving names leaves what is registered in its place and adds what is new behind it. -/
theorem stubs_resolveAll (registry : Registry) (entries : List (String × StubOrigin)) :
    (registry.resolveAll entries).stubs = registry.stubs ++ registry.additions entries := by
  induction entries using List.reverseRecOn with
  | nil => simp [resolveAll, additions, Source.firstOfEachName]
  | append_singleton entries entry ih =>
      have last : registry.resolveAll (entries ++ [entry]) =
          ((registry.resolveAll entries).resolve entry.1 entry.2).1 := by
        simp [resolveAll]
      have held : (registry.resolveAll entries).contains entry.1 =
          (registry.contains entry.1 || (registry.additions entries).any (·.name == entry.1)) := by
        rw [contains, find?, ih, List.find?_append, Option.isSome_or, contains, find?,
          List.isSome_find?, List.isSome_find?]
      rw [last, additions_concat, Bool.and_assoc, ← Bool.not_or, ← held]
      unfold contains
      cases found : (registry.resolveAll entries).find? entry.1 with
      | some stub => simp [resolve_registered found, ih]
      | none =>
          rw [resolve_absent found]
          cases Stub.allows entry.1 <;> simp [ih]

theorem resolveAll_eq_self_iff : registry.resolveAll entries = registry ↔
    ∀ entry ∈ entries, Stub.allows entry.1 = true → registry.contains entry.1 = true := by
  have none_iff : registry.additions entries = [] ↔
      ∀ entry ∈ entries, Stub.allows entry.1 = true → registry.contains entry.1 = true := by
    rw [additions, Source.firstOfEachName_eq_nil_iff, List.map_eq_nil_iff, List.filter_eq_nil_iff]
    simp
  rw [← none_iff]
  constructor
  · intro same
    have stubs_eq := stubs_resolveAll registry entries
    rw [same] at stubs_eq
    simpa using stubs_eq
  · intro none
    have stubs_eq := stubs_resolveAll registry entries
    rw [none, List.append_nil] at stubs_eq
    exact congrArg Registry.mk stubs_eq

end Registry

namespace Preview

variable {setting : Setting} {request : Request}

/-- Whether the gate has nothing against the source of a request. -/
def accepts (setting : Setting) (request : Request) : Bool :=
  (Validation.of setting.config ⟨request.code⟩ (Analysis.ofText request.code)).isValid

/-- The names that a request has resolved if its source is accepted, in order, with their origins:
the seeded ones, those of imports and those of tags, without the ones that the source binds. -/
def asked (request : Request) : List (String × StubOrigin) :=
  (Registry.Call.synthesize request.code (seededNames request.options)).resolutions

theorem registry_of_rejected (rejected : accepts setting request = false) :
    (build setting request).status = 400 ∧
      (build setting request).registry = setting.registry := by
  unfold accepts at rejected
  unfold build
  simp only [rejected, Bool.not_false, if_true, and_self]

/-- An accepted source has its names resolved, whatever becomes of its script. -/
theorem registry_of_accepted (accepted : accepts setting request = true) :
    ((build setting request).status =
      match setting.makeScript request.code with
      | .ok _ => 200
      | .error _ => 500) ∧
      (build setting request).registry = setting.registry.resolveAll (asked request) := by
  have resolved := Registry.after_eq setting.registry
    (.synthesize request.code (seededNames request.options))
  rw [asked, ← resolved]
  unfold accepts at accepted
  unfold build
  simp only [accepted, Bool.not_true, Bool.false_eq_true, if_false]
  cases setting.makeScript request.code <;> exact ⟨rfl, rfl⟩

end Preview

end ComponentPreview
