import ComponentPreview.Proofs.Service.Admission
import ComponentPreview.Proofs.Service.Store

/-!
# Requests that are refused

A request that is answered with anything but status 200 leaves the store alone, with one exception.
The registry of a session is asked for before its source is looked at, and a session without an
entry gets one then, which stays when the source is rejected. Nothing can be read from it.
-/

namespace ComponentPreview

namespace Preview

/-- With the usual scripts only the validator stands between a request and its document, and what it
rejects leaves the registry alone. -/
theorem build_of_rejected {setting : Setting} {request : Request}
    (makeScript_eq : setting.makeScript =
      fun text => .ok (Script.ofText Script.entryAssignment text))
    (rejected : (build setting request).status ≠ 200) :
    (build setting request).status = 400 ∧ (build setting request).success = none ∧
      (build setting request).registry = setting.registry := by
  unfold build at rejected ⊢
  cases valid : (Validation.of setting.config ⟨request.code⟩
    (Analysis.ofText request.code)).isValid with
  | false => simp [valid]
  | true => simp [valid, makeScript_eq] at rejected

end Preview

namespace App

theorem storeFor_of_rejected {app : App} (distinct : app.store.Distinct) {submission : Submission}
    (rejected : (app.answerTo submission).status ≠ 200) :
    app.storeFor submission = app.store.ensure (app.sessionFor submission) app.now := by
  obtain ⟨-, success_eq, registry_eq⟩ := Preview.build_of_rejected rfl rejected
  have registry_eq : (app.answerTo submission).registry =
      (app.store.ensure (app.sessionFor submission) app.now).registryOf
        (app.sessionFor submission) := registry_eq
  rw [storeFor, answerTo, success_eq, Option.elim_none, prepared, registry_eq]
  exact Store.setRegistry_registryOf (Store.distinct_ensure distinct _ _) _

/-- The session that an event makes an entry for, before its source is looked at. -/
def Turn.opens? (turn : Turn) : Option String :=
  match turn.admitted? with
  | some (_, submission) =>
      let session := turn.before.sessionFor submission
      if (turn.before.store.find? session).isNone then some session else none
  | none => none

end App

namespace Store

variable {store : Store} {session : String}

theorem ensure_of_some {entry : StoredPreview} (found : store.find? session = some entry)
    (now : Instant) : store.ensure session now = store := by
  rw [ensure, found]

theorem entries_ensure_of_none (missing : store.find? session = none) (now : Instant) :
    (store.ensure session now).entries = store.entries ++ [fresh session now] := by
  rw [ensure, missing]

theorem latest?_ensure (other : String) (now : Instant) :
    (store.ensure session now).latest? other = store.latest? other := by
  by_cases own : other = session
  · subst own
    rw [latest?, latest?, find?_ensure_self]
    cases found : store.find? other with
    | none => simp [fresh, Option.filter]
    | some entry => simp
  · rw [latest?, latest?, find?_ensure_of_ne own]

end Store

namespace App

def postOf (code session : String) : Event :=
  .http "POST" "/api/live-preview".toList
    (.value (some (.obj [("code", .str code), ("sessionId", .str session)]))) "127.0.0.1"

end App

end ComponentPreview
