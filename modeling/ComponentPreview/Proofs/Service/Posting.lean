import ComponentPreview.Proofs.Document.Answer
import ComponentPreview.Proofs.Service.Run
import ComponentPreview.Service.Submission

/-!
# Posting

A preview is posted by a submission that is answered with status 200. The store changes by what is
posted, and by nothing else except that stubs are taken down and old sessions dropped.

A submission is only read from a body whose version is positive, whatever form the number has.
-/

namespace ComponentPreview

/-! ## Versions of submissions -/

namespace Submission

theorem cases_of_readField {α : Type} {fields : List (String × Json)} {names : List String}
    {default : Except FaultKind α} {read : Json → Except FaultKind α} {value : α}
    (h : readField fields names default read = .ok value) :
    default = .ok value ∨ ∃ json, read json = .ok value := by
  unfold readField at h
  split at h
  · split at h
    · next found =>
        cases h
        exact .inr ⟨_, found⟩
    · cases h
  · split at h
    · cases h
      exact .inl rfl
    · cases h

theorem one_le_of_readVersion {json : Json} {version : Int} (h : readVersion json = .ok version) :
    1 ≤ version := by
  unfold readVersion at h
  cases read : readInteger json with
  | error kind =>
      rw [read] at h
      cases h
  | ok number =>
      rw [read] at h
      by_cases small : number < 1
      · simp [bind, Except.bind, small, throw, throwThe, MonadExceptOf.throw] at h
      · simp [bind, Except.bind, small, pure, Except.pure] at h
        omega

variable {submission : Submission}

theorem one_le_version_of_ofFields {fields : List (String × Json)}
    (h : ofFields fields = .ok submission) : 1 ≤ submission.version := by
  unfold ofFields at h
  dsimp only at h
  split at h
  · next version _ _ _ _ _ version_eq _ _ =>
      cases h
      rcases cases_of_readField version_eq with default | ⟨json, read⟩
      · cases default
        exact Int.le_refl 1
      · exact one_le_of_readVersion read
  · cases h

theorem one_le_version_of_ofJson {body : Option Json} (h : ofJson body = .ok submission) :
    1 ≤ submission.version := by
  unfold ofJson at h
  split at h
  · cases h
  · cases h
  · exact one_le_version_of_ofFields h
  · cases h

end Submission

/-! ## What is posted -/

theorem Payload.one_le_version {payload : Payload} {submission : Submission}
    (h : payload.submission = .ok submission) : 1 ≤ submission.version := by
  cases payload with
  | value body => exact Submission.one_le_version_of_ofJson h
  | bytes content =>
      simp only [Payload.submission, Submission.ofBytes] at h
      split at h
      · exact Submission.one_le_version_of_ofJson h
      · split at h
        · cases h
        · split at h
          · exact Submission.one_le_version_of_ofJson h
          · split at h <;> cases h

namespace App

/-- What an event does to the store, with the preview that is posted: it drops sessions, or takes
down the stubs of a session, and its document if one is posted. -/
inductive StoreChange (before : Store) : Option Posted → Store → Prop
  | drops (cutoffs : List Instant) : StoreChange before none (dropped before cutoffs)
  | refuses (session : String) (registry : Registry) (now : Instant) :
      StoreChange before none ((before.ensure session now).setRegistry session registry)
  | grants (session : String) (version : Int) (document : Document) (registry : Registry)
      (now : Instant) : 1 ≤ version →
      StoreChange before (some ⟨session, version, document.componentName, document.html⟩)
        (((before.ensure session now).setRegistry session registry).save session version document
          now).1

theorem StoreChange.of_eq {before after : Store} (same : after = before) :
    StoreChange before none after := by
  rw [same]
  exact .drops []

theorem not_isEmpty_newSession (serial : Nat) : (Preview.newSession serial).isEmpty = false := by
  rw [Preview.newSession, String.isEmpty_eq_false_iff]
  exact fun empty => by simp at empty

theorem not_isEmpty_session (given : String) (serial : Nat) :
    (if given.isEmpty then Preview.newSession serial else given).isEmpty = false := by
  split
  · exact not_isEmpty_newSession serial
  · next nonempty => exact Bool.eq_false_iff.2 nonempty

theorem posted?_of_status_ne {response : Response} (h : response.status ≠ 200) :
    response.posted? = none := by
  unfold Response.posted?
  split
  · exact absurd rfl h
  · rfl

theorem status_of_posted? {response : Response} {posted : Posted}
    (h : response.posted? = some posted) : response.status = 200 := by
  refine Decidable.byContradiction fun status_ne => ?_
  rw [posted?_of_status_ne status_ne] at h
  cases h

theorem posted?_of_presents {answer : Preview.Answer} {success : Preview.Success}
    (presents : answer.Presents success) (headers : List (String × String)) :
    Response.posted? ⟨answer.status, headers, .json answer.body⟩ =
      some ⟨success.session, success.version, success.document.componentName,
        success.document.html⟩ := by
  have session_eq := presents.session_eq
  have version_eq := presents.version_eq
  rw [Preview.Answer.metadata] at session_eq version_eq
  simp [Response.posted?, presents.status_eq, session_eq, version_eq, presents.name_eq,
    presents.html_eq]

def sessionFor (app : App) (submission : Submission) : String :=
  if (submission.session.getD "").isEmpty then Preview.newSession app.serial
  else submission.session.getD ""

def settingFor (app : App) (submission : Submission) : Preview.Setting where
  config := app.settings.preview
  registry :=
    (app.store.ensure (app.sessionFor submission) app.now).registryOf (app.sessionFor submission)
  now := app.now
  serial := if (submission.session.getD "").isEmpty then app.serial + 1 else app.serial

def requestFor (app : App) (submission : Submission) : Preview.Request where
  code := submission.code.toList
  options := submission.options
  session := some (app.sessionFor submission)
  version := submission.version
  collaboration := submission.collaboration

def answerTo (app : App) (submission : Submission) : Preview.Answer :=
  Preview.build (app.settingFor submission) (app.requestFor submission)

/-- The store with the stubs that an answer leaves, before a document is saved. -/
def prepared (app : App) (submission : Submission) : Store :=
  (app.store.ensure (app.sessionFor submission) app.now).setRegistry (app.sessionFor submission)
    (app.answerTo submission).registry

theorem sessionOf_requestFor (app : App) (submission : Submission) :
    Preview.sessionOf (app.settingFor submission) (app.requestFor submission) =
      app.sessionFor submission := by
  have named : (app.sessionFor submission).isEmpty = false := not_isEmpty_session _ _
  simp [Preview.sessionOf, requestFor, named]

theorem preview_response (app : App) (submission : Submission) :
    (app.preview submission).2 = ⟨(app.answerTo submission).status,
      securityHeaders ++ [Response.jsonHeader], .json (app.answerTo submission).body⟩ := rfl

theorem store_preview (app : App) (submission : Submission) :
    (app.preview submission).1.store =
      (app.answerTo submission).success.elim (app.prepared submission) fun success =>
        ((app.prepared submission).save success.session success.version success.document
          app.now).1 := by
  unfold preview
  dsimp only
  split
  · next success given =>
      have given : (app.answerTo submission).success = some success := given
      rw [given]
      rfl
  · next refused =>
      have refused : (app.answerTo submission).success = none := refused
      rw [refused]
      rfl

/-- A submission is refused, or its document is shown and saved as the version that it names. -/
theorem preview_cases (app : App) (submission : Submission) :
    ((app.preview submission).2.status ≠ 200 ∧
      (app.preview submission).1.store = app.prepared submission) ∨
    ∃ document, (app.preview submission).2.posted? = some ⟨app.sessionFor submission,
        submission.version, document.componentName, document.html⟩ ∧
      (app.preview submission).1.store = ((app.prepared submission).save
        (app.sessionFor submission) submission.version document app.now).1 := by
  rw [preview_response, store_preview]
  cases found : Preview.document? (app.settingFor submission) (app.requestFor submission) with
  | none =>
      obtain ⟨status_ne, success_eq⟩ := Preview.build_of_none found
      refine .inl ⟨status_ne, ?_⟩
      rw [answerTo, success_eq]
      rfl
  | some document =>
      have presents := Preview.build_presents found
      rw [sessionOf_requestFor] at presents
      refine .inr ⟨document, posted?_of_presents presents _, ?_⟩
      rw [answerTo, presents.success_eq]
      rfl

theorem storeChange_preview (app : App) {submission : Submission} (h : 1 ≤ submission.version) :
    StoreChange app.store (app.preview submission).2.posted? (app.preview submission).1.store := by
  rcases app.preview_cases submission with
    ⟨status_ne, store_eq⟩ | ⟨document, posted_eq, store_eq⟩
  · rw [posted?_of_status_ne status_ne, store_eq]
    exact .refuses _ _ _
  · rw [posted_eq, store_eq]
    exact .grants _ _ document _ _ h

/-- A submission leaves the store alone and posts nothing, or it is read and let through. -/
theorem submit_cases (app : App) (address : String)
    (read : Except Submission.Refusal Submission) :
    ((app.submit address read).1.store = app.store ∧
      (app.submit address read).2.status ≠ 200) ∨
    ∃ submission limiter, read = .ok submission ∧
      app.submit address read = App.preview { app with limiter } submission := by
  unfold submit
  split
  · exact .inl ⟨rfl, by simp [Response.detail]⟩
  · exact .inl ⟨rfl, by simp⟩
  · dsimp only
    split
    · exact .inr ⟨_, _, rfl, rfl⟩
    · exact .inl ⟨rfl, by simp [tooMany, Response.detail]⟩

theorem posted?_submit_cases (app : App) (address : String)
    (read : Except Submission.Refusal Submission) :
    ((app.submit address read).2.status ≠ 200 ∧ (app.submit address read).2.posted? = none) ∨
    ∃ submission posted, read = .ok submission ∧
      (app.submit address read).2.posted? = some posted ∧
      posted.session = app.sessionFor submission ∧ posted.version = submission.version := by
  rcases app.submit_cases address read with
    ⟨-, status_ne⟩ | ⟨submission, limiter, read_eq, submit_eq⟩
  · exact .inl ⟨status_ne, posted?_of_status_ne status_ne⟩
  · rw [submit_eq]
    rcases preview_cases { app with limiter } submission with
      ⟨status_ne, -⟩ | ⟨document, posted_eq, -⟩
    · exact .inl ⟨status_ne, posted?_of_status_ne status_ne⟩
    · exact .inr ⟨submission, _, read_eq, posted_eq, rfl, rfl⟩

theorem storeChange_submit (app : App) (address : String) (payload : Payload) :
    StoreChange app.store (app.submit address payload.submission).2.posted?
      (app.submit address payload.submission).1.store := by
  rcases app.submit_cases address payload.submission with
    ⟨store_eq, status_ne⟩ | ⟨submission, limiter, read, submit_eq⟩
  · rw [posted?_of_status_ne status_ne]
    exact .of_eq store_eq
  · rw [submit_eq]
    exact storeChange_preview _ (Payload.one_le_version read)

theorem Tidies.storeChange {before after : App} (tidies : Tidies before after) :
    StoreChange before.store none after.store := by
  obtain ⟨cutoffs, store_eq⟩ := tidies.store
  rw [store_eq]
  exact .drops cutoffs

namespace Turn

theorem storeChange (turn : Turn) :
    StoreChange turn.before.store turn.posted? turn.after.store := by
  obtain ⟨app, event⟩ := turn
  cases event with
  | http method path payload address =>
      rcases app.handle_cases ⟨method, path, payload.submission, address⟩ with
        ⟨-, -, submitted⟩ | ⟨same, unposted⟩
      · have change := storeChange_submit app address payload
        rw [← submitted] at change
        exact change
      · have change : StoreChange app.store none _ := .of_eq (congrArg App.store same)
        rw [← unposted] at change
        exact change
  | connect session => exact .of_eq rfl
  | send number text => exact .of_eq (app.store_receive number text)
  | disconnect number => exact .of_eq (app.store_disconnect number)
  | advance span => exact (tidies_advance app span).storeChange
  | start => exact (tidies_start app).storeChange
  | stop => exact (tidies_stop app).storeChange
  | clean => exact (tidies_clean app).storeChange
  | assign name value => exact .of_eq rfl

/-- Only a submission that is read posts a preview, of the session and the version that it names. -/
theorem cases_of_posted? {turn : Turn} {posted : Posted} (h : turn.posted? = some posted) :
    ∃ path payload address submission, turn.event = .http "POST" path payload address ∧
      Route.ofPath? path = some .submit ∧ payload.submission = .ok submission ∧
      posted.session = turn.before.sessionFor submission ∧
      posted.version = submission.version := by
  obtain ⟨app, event⟩ := turn
  cases event with
  | http method path payload address =>
      have h : (app.handle ⟨method, path, payload.submission, address⟩).2.posted? = some posted := h
      rcases app.handle_cases ⟨method, path, payload.submission, address⟩ with
        ⟨isPost, isSubmit, submitted⟩ | ⟨-, unposted⟩
      · dsimp only at isPost isSubmit submitted
        subst isPost
        rw [submitted] at h
        rcases app.posted?_submit_cases address payload.submission with
          ⟨-, unposted⟩ | ⟨submission, shown, read, posted_eq, session_eq, version_eq⟩
        · rw [unposted] at h
          cases h
        · rw [posted_eq, Option.some.injEq] at h
          subst h
          exact ⟨path, payload, address, submission, rfl, isSubmit, read, session_eq, version_eq⟩
      · rw [unposted] at h
        cases h
  | connect | send | disconnect | advance | start | stop | clean | assign => cases h

/-- A submission posts a preview just if it is answered with status 200. -/
theorem isSome_posted?_iff (app : App) {path : List Char}
    (isSubmit : Route.ofPath? path = some .submit) (payload : Payload) (address : String) :
    let turn : Turn := ⟨app, .http "POST" path payload address⟩
    turn.posted?.isSome = true ↔ turn.response?.map Response.status = some 200 := by
  intro turn
  have response_eq : turn.response? = some (app.submit address payload.submission).2 := by
    simp [turn, response?, act, handle, isSubmit, Route.method]
  rw [posted?, response_eq, Option.bind_some, Option.map_some, Option.some.injEq]
  rcases app.posted?_submit_cases address payload.submission with
    ⟨status_ne, unposted⟩ | ⟨submission, posted, -, posted_eq, -⟩
  · rw [unposted]
    simpa using status_ne
  · rw [posted_eq]
    simpa using status_of_posted? posted_eq

end Turn

end App

end ComponentPreview
