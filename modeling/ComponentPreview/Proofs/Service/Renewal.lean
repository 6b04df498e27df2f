import ComponentPreview.Proofs.Service.Cleanup

/-!
# Renewals

A session that is present lives on from its last renewal. The submission that makes its entry renews
it, and after that each submission whose document is saved. One that is rejected, or whose version
is older than what is shown, reaches the pipeline as well and renews nothing.
-/

namespace ComponentPreview.App

/-- When a turn of some kind came last. -/
def lastTime (isMeant : Turn → Bool) (turns : List Turn) : Option Instant :=
  (turns.filter isMeant).getLast?.map fun turn => turn.before.now

theorem lastTime_append_singleton (isMeant : Turn → Bool) (turns : List Turn) (turn : Turn) :
    lastTime isMeant (turns ++ [turn]) =
      if isMeant turn then some turn.before.now else lastTime isMeant turns := by
  cases meant : isMeant turn <;> simp [lastTime, meant]

theorem le_lastTime {isMeant : Turn → Bool} {events : List Event} (forward : GoesForward events)
    (app : App) {turn : Turn} (mem : turn ∈ app.run events) (meant : isMeant turn = true) :
    ∃ last, lastTime isMeant (app.run events) = some last ∧ turn.before.now ≤ last := by
  induction events using List.reverseRecOn with
  | nil => cases mem
  | append_singleton events event ih =>
      have forward : GoesForward events :=
        fun event mem => forward event (List.mem_append_left _ mem)
      rw [run_append_singleton] at mem
      rw [run_append_singleton, lastTime_append_singleton]
      rcases List.mem_append.1 mem with mem | mem
      · split
        · exact ⟨_, rfl, now_le_now_afterAll forward app turn mem⟩
        · exact ih forward mem
      · obtain rfl := List.mem_singleton.1 mem
        rw [if_pos meant]
        exact ⟨_, rfl, Int.le_refl _⟩

namespace Turn

/-- The session of the submission that an event lets through to the pipeline. -/
def reached? (turn : Turn) : Option String :=
  turn.admitted?.map fun (_, submission) => turn.before.sessionFor submission

/-- Whether an event makes the entry of a session or saves a document in it. -/
def renews (session : String) (turn : Turn) : Bool :=
  match turn.admitted? with
  | some (_, submission) =>
      turn.before.sessionFor submission == session &&
        (turn.before.store.find? session).all fun entry =>
          turn.posted?.isSome && decide (entry.version ≤ submission.version)
  | none => false

/-- Whether a session is present before an event and absent after it. -/
def Drops (session : String) (turn : Turn) : Prop :=
  (turn.before.store.find? session).isSome = true ∧ turn.after.store.find? session = none

end Turn

/-! ## One submission -/

section Submission

variable (app : App) (submission : Submission)

theorem find?_prepared_self :
    (app.prepared submission).find? (app.sessionFor submission) =
      some { (app.store.find? (app.sessionFor submission)).getD
          (Store.fresh (app.sessionFor submission) app.now) with
        registry := (app.answerTo submission).registry } := by
  rw [prepared, Store.find?_setRegistry_self, Store.find?_ensure_self]
  rfl

theorem find?_prepared_of_ne {session : String} (other : session ≠ app.sessionFor submission) :
    (app.prepared submission).find? session = app.store.find? session := by
  rw [prepared, Store.find?_setRegistry_of_ne other, Store.find?_ensure_of_ne other]

end Submission

namespace Turn

variable {turn : Turn} {address : String} {submission : Submission}

theorem store_after_cases (admitted : turn.admitted? = some (address, submission)) :
    (turn.posted? = none ∧ turn.after.store = turn.before.prepared submission) ∨
    ∃ document, turn.posted?.isSome = true ∧
      turn.after.store = ((turn.before.prepared submission).save
        (turn.before.sessionFor submission) submission.version document turn.before.now).1 := by
  have posted_eq : turn.posted? = (turn.before.preview submission).2.posted? := by
    rw [posted?, response?_of_admitted? admitted, preview_response]
    rfl
  have store_eq : turn.after.store = (turn.before.preview submission).1.store := by
    rw [store_preview]
    exact store_of_admitted? admitted
  rw [posted_eq, store_eq]
  rcases turn.before.preview_cases submission with
    ⟨status_ne, store_eq⟩ | ⟨document, posted_eq, store_eq⟩
  · exact .inl ⟨posted?_of_status_ne status_ne, store_eq⟩
  · exact .inr ⟨document, by rw [posted_eq]; rfl, store_eq⟩

theorem find?_after_of_ne (admitted : turn.admitted? = some (address, submission))
    {session : String} (other : session ≠ turn.before.sessionFor submission) :
    turn.after.store.find? session = turn.before.store.find? session := by
  rcases store_after_cases admitted with ⟨-, store_eq⟩ | ⟨document, -, store_eq⟩
  · rw [store_eq, find?_prepared_of_ne _ _ other]
  · rw [store_eq, Store.find?_save_of_ne other, find?_prepared_of_ne _ _ other]

section Reached

variable {session : String} (own : turn.before.sessionFor submission = session)
  (admitted : turn.admitted? = some (address, submission))

include own admitted

theorem renews_of_new (new : turn.before.store.find? session = none) :
    turn.renews session = true := by
  simp [renews, admitted, own, new]

theorem renews_of_known {entry : StoredPreview}
    (known : turn.before.store.find? session = some entry) :
    turn.renews session =
      (turn.posted?.isSome && decide (entry.version ≤ submission.version)) := by
  simp [renews, admitted, own, known]

theorem find?_after_self :
    ∃ entry, turn.after.store.find? session = some entry ∧
      if turn.renews session then entry.updatedAt = turn.before.now
      else ∃ old, turn.before.store.find? session = some old ∧
        entry.updatedAt = old.updatedAt := by
  have prepared_eq := find?_prepared_self turn.before submission
  rw [own] at prepared_eq
  cases found : turn.before.store.find? session with
  | none =>
      rw [renews_of_new own admitted found]
      simp only [if_true]
      rw [found] at prepared_eq
      rcases store_after_cases admitted with ⟨-, store_eq⟩ | ⟨document, -, store_eq⟩
      · rw [store_eq]
        exact ⟨_, prepared_eq, rfl⟩
      · obtain ⟨entry, entry_eq, age⟩ :=
          Store.exists_find?_save prepared_eq submission.version document turn.before.now
        rw [store_eq, own]
        refine ⟨entry, entry_eq, age.trans ?_⟩
        exact ite_self _
  | some old =>
      rw [renews_of_known own admitted found]
      rw [found] at prepared_eq
      rcases store_after_cases admitted with ⟨unposted, store_eq⟩ | ⟨document, posted, store_eq⟩
      · rw [store_eq]
        refine ⟨_, prepared_eq, ?_⟩
        simp [unposted]
      · obtain ⟨entry, entry_eq, age⟩ :=
          Store.exists_find?_save prepared_eq submission.version document turn.before.now
        rw [store_eq, own, posted]
        refine ⟨entry, entry_eq, ?_⟩
        by_cases stale : submission.version < old.version
        · simpa [stale, Int.not_le.2 stale] using age
        · simpa [stale, Int.not_lt.1 stale] using age

end Reached

theorem not_renews_of_passed (passed : turn.admitted? = none) (session : String) :
    turn.renews session = false := by
  rw [renews, passed]

theorem updatedAt_after (inOrder : turn.before.InOrder) {session : String} {entry : StoredPreview}
    (found : turn.after.store.find? session = some entry) :
    if turn.renews session then entry.updatedAt = turn.before.now
    else ∃ old, turn.before.store.find? session = some old ∧ entry.updatedAt = old.updatedAt := by
  cases reached : turn.admitted? with
  | none =>
      rw [not_renews_of_passed reached]
      exact ⟨entry, ((find?_after inOrder reached session entry).1 found).1, rfl⟩
  | some admitted =>
      obtain ⟨address, submission⟩ := admitted
      by_cases own : turn.before.sessionFor submission = session
      · obtain ⟨entry', found', age⟩ := find?_after_self own reached
        rw [found, Option.some.injEq] at found'
        rw [found']
        exact age
      · have unmeant : turn.renews session = false := by
          simp [renews, reached, own]
        rw [unmeant]
        rw [find?_after_of_ne reached (Ne.symm own)] at found
        exact ⟨entry, found, rfl⟩

theorem passed_of_cleansAt {time : Instant} (cleans : turn.CleansAt time) :
    turn.admitted? = none := by
  obtain ⟨app, event⟩ := turn
  cases event <;> first | rfl | cases cleans

theorem passed_of_drops {session : String} (drops : turn.Drops session) :
    turn.admitted? = none := by
  obtain ⟨present, absent⟩ := drops
  cases reached : turn.admitted? with
  | none => rfl
  | some admitted =>
      by_cases own : turn.before.sessionFor admitted.2 = session
      · obtain ⟨entry, found, -⟩ := find?_after_self own reached
        rw [absent] at found
        cases found
      · rw [← find?_after_of_ne reached (Ne.symm own), absent] at present
        cases present

/-- Sessions are dropped by cleanups, and by those alone that come too late for them. -/
theorem drops_iff (inOrder : turn.before.InOrder) (session : String) :
    turn.Drops session ↔ ∃ entry, turn.before.store.find? session = some entry ∧
      ∃ time cutoff, turn.CleansAt time ∧
        Instant.ago turn.before.settings.sessionMinutes time = .ok cutoff ∧
        entry.updatedAt < cutoff := by
  constructor
  · intro drops
    have after_iff := find?_after inOrder (passed_of_drops drops) session
    obtain ⟨entry, found⟩ := Option.isSome_iff_exists.1 drops.1
    refine ⟨entry, found, ?_⟩
    by_contra late
    have kept := (after_iff entry).2 ⟨found, fun time cleans cutoff dated =>
      Int.not_lt.1 fun old => late ⟨time, cutoff, cleans, dated, old⟩⟩
    rw [drops.2] at kept
    cases kept
  · rintro ⟨entry, found, time, cutoff, cleans, dated, old⟩
    have after_iff := find?_after inOrder (passed_of_cleansAt cleans) session
    refine ⟨by rw [found]; rfl, Option.eq_none_iff_forall_ne_some.2 fun other kept => ?_⟩
    obtain ⟨found', spared⟩ := (after_iff other).1 kept
    obtain rfl := Option.some.inj (found.symm.trans found')
    exact absurd (spared time cleans cutoff dated) (Int.not_le.2 old)

end Turn

/-! ## Runs -/

/-- A session that is present was updated when it was last renewed. -/
theorem updatedAt_run (settings : Settings) (events : List Event) {session : String}
    {entry : StoredPreview}
    (found : ((initial settings).afterAll events).store.find? session = some entry) :
    lastTime (Turn.renews session) ((initial settings).run events) = some entry.updatedAt := by
  induction events using List.reverseRecOn generalizing entry with
  | nil => cases found
  | append_singleton events event ih =>
      rw [afterAll_append_singleton] at found
      rw [run_append_singleton, lastTime_append_singleton]
      have age := Turn.updatedAt_after (inOrder_afterAll settings events).1 found
      split
      · next renewed =>
          rw [renewed] at age
          exact congrArg some age.symm
      · next passed =>
          rw [if_neg passed] at age
          obtain ⟨old, old_found, same⟩ := age
          rw [same]
          exact ih old_found

/-- An event drops just the sessions whose last renewal lies before the cutoff of one of its
cleanups. So while the clock goes forward, a session lasts for as many minutes as are set after each
of its renewals. -/
theorem drops_iff_last_renewal_before_cutoff (settings : Settings) (events : List Event)
    (event : Event) (session : String) :
    let turns := (initial settings).run events
    let turn : Turn := ⟨(initial settings).afterAll events, event⟩
    let minutes := turn.before.settings.sessionMinutes
    (turn.Drops session ↔ (turn.before.store.find? session).isSome = true ∧
      ∃ time cutoff last, turn.CleansAt time ∧ Instant.ago minutes time = .ok cutoff ∧
        lastTime (Turn.renews session) turns = some last ∧ last < cutoff) ∧
    (GoesForward events → ∀ renewal ∈ turns, renewal.renews session = true →
      (∀ time, turn.CleansAt time → time - renewal.before.now ≤ Instant.minutes minutes) →
      ¬turn.Drops session) := by
  intro turns turn minutes
  have drops_iff : turn.Drops session ↔ _ :=
    Turn.drops_iff (inOrder_afterAll settings events).1 session
  constructor
  · rw [drops_iff]
    constructor
    · rintro ⟨entry, found, time, cutoff, cleans, dated, old⟩
      refine ⟨by rw [found]; rfl, time, cutoff, entry.updatedAt, cleans, dated, ?_, old⟩
      exact updatedAt_run settings events found
    · rintro ⟨present, time, cutoff, last, cleans, dated, last_eq, old⟩
      obtain ⟨entry, found⟩ := Option.isSome_iff_exists.1 present
      have updated := updatedAt_run settings events found
      rw [last_eq, Option.some.injEq] at updated
      exact ⟨entry, found, time, cutoff, cleans, dated, updated ▸ old⟩
  · intro forward renewal mem renews recent drops
    obtain ⟨entry, found, time, cutoff, cleans, dated, old⟩ := drops_iff.1 drops
    obtain ⟨last, last_eq, le_last⟩ := le_lastTime forward (initial settings) mem renews
    rw [updatedAt_run settings events found, Option.some.injEq] at last_eq
    have close := recent time cleans
    have late := RateLimiter.eq_of_ago dated
    grind

/-- The next version comes a minute before the hour is over, and the cleanup two minutes later. -/
theorem renewed_session_lasts :
    let turn : Turn := ⟨(initial {}).afterAll [submissionOf "s" 1, .advance 3540000000,
      submissionOf "s" 2, .advance 120000000], .start⟩
    (turn.before.store.find? "s").isSome = true ∧ ¬turn.Drops "s" := by
  intro turn
  have lasts := (drops_iff_last_renewal_before_cutoff {} [submissionOf "s" 1,
    .advance 3540000000, submissionOf "s" 2, .advance 120000000] .start "s").2
  refine ⟨by decide, ?_⟩
  apply lasts
  · unfold GoesForward
    simp [submissionOf, Event.span]
  · exact .tail _ (.tail _ (.head _))
  · decide
  · rintro time rfl
    decide

/-- An older version comes a minute before the hour is over. It is answered with status 200, and the
cleanup two minutes later drops the session. -/
theorem recently_reached_session_is_dropped :
    let events := [submissionOf "s" 2, .advance 3540000000, submissionOf "s" 1,
      .advance 120000000]
    let turn : Turn := ⟨(initial {}).afterAll events, .start⟩
    (∃ recent ∈ (initial {}).run events, recent.reached? = some "s" ∧
      recent.response?.map Response.status = some 200 ∧
      turn.before.now - recent.before.now ≤
        Instant.minutes turn.before.settings.sessionMinutes) ∧
    turn.CleansAt turn.before.now ∧ turn.Drops "s" := by
  intro events turn
  refine ⟨by decide, rfl, ?_⟩
  unfold Turn.Drops
  decide

end ComponentPreview.App
