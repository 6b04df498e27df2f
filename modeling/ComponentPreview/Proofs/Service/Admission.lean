import ComponentPreview.Proofs.Service.Posting

/-!
# Admission

A submission reaches the pipeline when it can be read and the limiter lets it through. What the
service keeps of sessions and addresses changes by such submissions, by checks that fail and by
cleanups, and by nothing else.
-/

namespace ComponentPreview.App

/-- Whether an event may run cleanups. -/
def Event.cleans : Event → Bool
  | advance _ | start | clean => true
  | _ => false

/-- What the service keeps of sessions and addresses, and when it cleans up. -/
structure Kept where
  store : Store
  limiter : RateLimiter
  now : Instant
  nextCleanup : Option Instant
  deriving DecidableEq, Repr

def kept (app : App) : Kept :=
  ⟨app.store, app.limiter, app.now, app.nextCleanup⟩

theorem kept_eq_iff {app other : App} :
    app.kept = other.kept ↔ app.store = other.store ∧ app.limiter = other.limiter ∧
      app.now = other.now ∧ app.nextCleanup = other.nextCleanup := by
  simp [kept]

def limiterKey (address : String) : String :=
  "preview:" ++ address

/-- What the limiter says to a submission from an address. -/
def checked (app : App) (address : String) : RateLimiter × Bool :=
  app.limiter.check (limiterKey address) app.settings.requestsPerMinute
    (app.now - Instant.minutes 1) app.now

/-- The submission that an event lets through to the pipeline, with the address it comes from. -/
def Turn.admitted? (turn : Turn) : Option (String × Submission) :=
  match turn.event with
  | .http method path payload address =>
      if method = "POST" ∧ Route.ofPath? path = some .submit then
        match payload.submission with
        | .ok submission =>
            if (turn.before.checked address).2 then some (address, submission) else none
        | .error _ => none
      else none
  | _ => none

/-! ## Submissions -/

theorem submit_of_error (app : App) (address : String) (refusal : Submission.Refusal) :
    (app.submit address (.error refusal)).1 = app ∧
      (app.submit address (.error refusal)).2.status ≠ 200 := by
  cases refusal with
  | unreadable => exact ⟨rfl, by simp [submit, Response.detail]⟩
  | faulty faults => exact ⟨rfl, by simp [submit]⟩

theorem submit_of_refused {app : App} {address : String}
    (refused : (app.checked address).2 = false) (submission : Submission) :
    app.submit address (.ok submission) =
      ({ app with limiter := (app.checked address).1 },
        tooMany app.settings.requestsPerMinute) := by
  rw [checked, limiterKey] at refused
  simp [submit, checked, limiterKey, refused]

theorem submit_of_admitted {app : App} {address : String}
    (admitted : (app.checked address).2 = true) (submission : Submission) :
    app.submit address (.ok submission) =
      App.preview { app with limiter := (app.checked address).1 } submission := by
  rw [checked, limiterKey] at admitted
  simp [submit, checked, limiterKey, admitted]

/-- The store after a submission that is let through. -/
def storeFor (app : App) (submission : Submission) : Store :=
  (app.answerTo submission).success.elim (app.prepared submission) fun success =>
    ((app.prepared submission).save success.session success.version success.document app.now).1

theorem kept_preview (app : App) (submission : Submission) :
    (app.preview submission).1.kept = { app.kept with store := app.storeFor submission } := by
  rw [storeFor, ← store_preview]
  rfl

theorem handle_of_submits {app : App} {request : HttpRequest}
    (submits : request.method = "POST" ∧ Route.ofPath? request.path = some .submit) :
    app.handle request = app.submit request.address request.submission := by
  simp [handle, submits.1, submits.2, Route.method]

theorem handle_of_not_submits {app : App} {request : HttpRequest}
    (other : ¬(request.method = "POST" ∧ Route.ofPath? request.path = some .submit)) :
    (app.handle request).1 = app := by
  rcases app.handle_cases request with ⟨post, submits, -⟩ | ⟨same, -⟩
  · exact absurd ⟨post, submits⟩ other
  · exact same

/-! ## Frames -/

theorem kept_disconnect (app : App) (number : Nat) : (app.disconnect number).kept = app.kept := by
  unfold disconnect
  split <;> rfl

theorem kept_receive (app : App) (number : Nat) (text : List Char) :
    (app.receive number text).kept = app.kept :=
  receive_keeps kept kept_disconnect (fun _ _ _ => rfl) app number text

theorem kept_stop (app : App) : app.stop.1.kept = { app.kept with nextCleanup := none } := by
  unfold stop
  split
  · rfl
  · next idle => simp [kept, idle]

/-! ## Events -/

namespace Turn

theorem exists_of_admitted? {turn : Turn} {address : String} {submission : Submission}
    (h : turn.admitted? = some (address, submission)) :
    ∃ path payload, turn.event = .http "POST" path payload address ∧
      Route.ofPath? path = some .submit ∧ payload.submission = .ok submission ∧
      (turn.before.checked address).2 = true := by
  obtain ⟨app, event⟩ := turn
  cases event with
  | http method path payload address =>
      simp only [admitted?, Option.ite_none_right_eq_some] at h
      obtain ⟨⟨rfl, submits⟩, h⟩ := h
      split at h
      · next read =>
          simp only [Option.ite_none_right_eq_some, Option.some.injEq, Prod.mk.injEq] at h
          obtain ⟨verdict, rfl, rfl⟩ := h
          exact ⟨path, payload, rfl, submits, read, verdict⟩
      · cases h
  | connect | send | disconnect | advance | start | stop | clean | assign => cases h

theorem response?_of_admitted? {turn : Turn} {address : String} {submission : Submission}
    (h : turn.admitted? = some (address, submission)) :
    turn.response? = some ⟨(turn.before.answerTo submission).status,
      securityHeaders ++ [Response.jsonHeader], .json (turn.before.answerTo submission).body⟩ := by
  obtain ⟨path, payload, event_eq, submits, read, verdict⟩ := exists_of_admitted? h
  obtain ⟨app, event⟩ := turn
  subst event_eq
  simp only [response?, act]
  rw [handle_of_submits ⟨rfl, submits⟩]
  simp only [read]
  rw [submit_of_admitted verdict, preview_response]
  rfl

/-- What an event does to what is kept. -/
inductive Effect (turn : Turn) : Prop
  | passes : turn.admitted? = none → turn.event.cleans = false →
      turn.after.kept = turn.before.kept → turn.Effect
  /-- The limiter refuses a submission from an address. -/
  | refuses (address : String) : turn.admitted? = none → turn.event.cleans = false →
      (turn.before.checked address).2 = false →
      turn.after.kept = { turn.before.kept with limiter := (turn.before.checked address).1 } →
      turn.Effect
  | admits (address : String) (submission : Submission) :
      turn.admitted? = some (address, submission) → (turn.before.checked address).2 = true →
      turn.after.kept = { turn.before.kept with
        limiter := (turn.before.checked address).1
        store := turn.before.storeFor submission } → turn.Effect
  | stops : turn.admitted? = none → turn.event = .stop →
      turn.after.kept = { turn.before.kept with nextCleanup := none } → turn.Effect
  | cleans : turn.admitted? = none → turn.event = .start ∨ turn.event = .clean →
      turn.after.kept = turn.before.clean.1.kept → turn.Effect
  | advances (span : Int) : turn.admitted? = none → turn.event = .advance span →
      turn.after.kept = (turn.before.advance span).1.kept → turn.Effect

theorem effect_http (app : App) (method : String) (path : List Char) (payload : Payload)
    (address : String) : Effect ⟨app, .http method path payload address⟩ := by
  let request : HttpRequest := ⟨method, path, payload.submission, address⟩
  have after_eq : (Turn.mk app (.http method path payload address)).after.kept =
      (app.handle request).1.kept := rfl
  by_cases submits : method = "POST" ∧ Route.ofPath? path = some .submit
  · rw [handle_of_submits submits] at after_eq
    cases read : payload.submission with
    | error refusal =>
        apply Effect.passes
        · simp [admitted?, submits, read]
        · rfl
        · rw [after_eq]
          simp only [request, read, submit_of_error]
    | ok submission =>
        simp only [request, read] at after_eq
        cases verdict : (app.checked address).2 with
        | false =>
            rw [submit_of_refused verdict] at after_eq
            apply Effect.refuses address
            · simp [admitted?, submits, read, verdict]
            · rfl
            · exact verdict
            · exact after_eq
        | true =>
            rw [submit_of_admitted verdict, kept_preview] at after_eq
            apply Effect.admits address submission
            · simp [admitted?, submits, read, verdict]
            · exact verdict
            · exact after_eq
  · rw [handle_of_not_submits submits] at after_eq
    apply Effect.passes
    · simp [admitted?, submits]
    · rfl
    · exact after_eq

theorem effect (turn : Turn) : turn.Effect := by
  obtain ⟨app, event⟩ := turn
  cases event with
  | http method path payload address => exact effect_http app method path payload address
  | connect session => exact .passes rfl rfl rfl
  | send number text => exact .passes rfl rfl (kept_receive app number text)
  | disconnect number => exact .passes rfl rfl (kept_disconnect app number)
  | advance span => exact .advances span rfl rfl rfl
  | start => exact .cleans rfl (.inl rfl) rfl
  | stop => exact .stops rfl rfl (kept_stop app)
  | clean => exact .cleans rfl (.inr rfl) rfl
  | assign name value => exact .passes rfl rfl rfl

variable {turn : Turn}

theorem calm_of_admitted? {admitted : String × Submission} (h : turn.admitted? = some admitted) :
    turn.event.cleans = false := by
  obtain ⟨_, _, event_eq, -⟩ := exists_of_admitted? h
  rw [event_eq]
  rfl

theorem store_of_admitted? {address : String} {submission : Submission}
    (h : turn.admitted? = some (address, submission)) :
    turn.after.store = turn.before.storeFor submission := by
  cases turn.effect with
  | admits other submitted admitted _ kept_eq =>
      rw [admitted] at h
      obtain ⟨-, rfl⟩ := Prod.mk.inj (Option.some.inj h)
      exact congrArg Kept.store kept_eq
  | passes passed | refuses _ passed | stops passed | cleans passed | advances _ passed =>
      simp [passed] at h

theorem store_of_calm (calm : turn.event.cleans = false) (passed : turn.admitted? = none) :
    turn.after.store = turn.before.store := by
  cases turn.effect with
  | passes _ _ kept_eq | refuses _ _ _ _ kept_eq | stops _ _ kept_eq =>
      exact congrArg Kept.store kept_eq
  | admits _ _ admitted => simp [passed] at admitted
  | cleans _ starts =>
      rcases starts with event_eq | event_eq <;> simp [event_eq, Event.cleans] at calm
  | advances _ _ event_eq => simp [event_eq, Event.cleans] at calm

theorem limiter_of_calm (calm : turn.event.cleans = false) :
    turn.after.limiter = turn.before.limiter ∨
      ∃ address, turn.after.limiter = (turn.before.checked address).1 ∧
        ((turn.before.checked address).2 = true →
          ∃ submission, turn.admitted? = some (address, submission)) := by
  cases turn.effect with
  | passes _ _ kept_eq | stops _ _ kept_eq => exact .inl (congrArg Kept.limiter kept_eq)
  | refuses address _ _ refused kept_eq =>
      refine .inr ⟨address, congrArg Kept.limiter kept_eq, fun verdict => ?_⟩
      rw [refused] at verdict
      cases verdict
  | admits address submission admitted _ kept_eq =>
      exact .inr ⟨address, congrArg Kept.limiter kept_eq, fun _ => ⟨submission, admitted⟩⟩
  | cleans _ starts =>
      rcases starts with event_eq | event_eq <;> simp [event_eq, Event.cleans] at calm
  | advances _ _ event_eq => simp [event_eq, Event.cleans] at calm

theorem schedule_of_calm (calm : turn.event.cleans = false) :
    turn.after.now = turn.before.now ∧
      (turn.after.nextCleanup = turn.before.nextCleanup ∨
        turn.event = .stop ∧ turn.after.nextCleanup = none) := by
  cases turn.effect with
  | passes _ _ kept_eq | refuses _ _ _ _ kept_eq | admits _ _ _ _ kept_eq =>
      exact ⟨congrArg Kept.now kept_eq, .inl (congrArg Kept.nextCleanup kept_eq)⟩
  | stops _ event_eq kept_eq =>
      exact ⟨congrArg Kept.now kept_eq, .inr ⟨event_eq, congrArg Kept.nextCleanup kept_eq⟩⟩
  | cleans _ starts =>
      rcases starts with event_eq | event_eq <;> simp [event_eq, Event.cleans] at calm
  | advances _ _ event_eq => simp [event_eq, Event.cleans] at calm

theorem cases_of_cleans (cleans : turn.event.cleans = true) :
    ((turn.event = .start ∨ turn.event = .clean) ∧ turn.after.kept = turn.before.clean.1.kept) ∨
    ∃ span, turn.event = .advance span ∧ turn.after.kept = (turn.before.advance span).1.kept := by
  cases turn.effect with
  | passes _ calm | refuses _ _ calm => simp [calm] at cleans
  | admits _ _ admitted => simp [calm_of_admitted? admitted] at cleans
  | stops _ event_eq => simp [event_eq, Event.cleans] at cleans
  | cleans _ starts kept_eq => exact .inl ⟨starts, kept_eq⟩
  | advances span _ event_eq kept_eq => exact .inr ⟨span, event_eq, kept_eq⟩

end Turn

end ComponentPreview.App
