import ComponentPreview.Proofs.Service.Renewal

/-!
# Lifetimes

While the service runs, no session is older than the minutes it may last and one interval between
cleanups, and of no address is anything remembered for longer than ten minutes and one interval.
What is dropped is past its time, and nothing is dropped while the service is stopped.
-/

namespace ComponentPreview.App

/-- A run with one lifetime of sessions throughout, whose clock never goes back and whose cleanups
all have a date to go by. -/
structure IsSteady (minutes : Int) (app : App) (events : List Event) : Prop where
  nonneg : 0 ≤ minutes
  forward : GoesForward events
  constant : ∀ turn ∈ app.run events, turn.before.settings.sessionMinutes = minutes
  dated : ∀ turn ∈ app.run events, ∀ time, turn.CleansAt time →
    ∃ cutoff, Instant.ago minutes time = .ok cutoff

/-- How far back what is kept can reach, by the time of the next cleanup. -/
structure IsRecent (minutes : Int) (app : App) : Prop where
  due_le : ∀ due, app.nextCleanup = some due → due ≤ app.now + cleanupInterval
  sessions : ∀ due, app.nextCleanup = some due → ∀ session entry,
    app.store.find? session = some entry →
      due - cleanupInterval - Instant.minutes minutes ≤ entry.updatedAt
  admissions : ∀ due, app.nextCleanup = some due → ∀ key admitted,
    app.limiter.Recalls key admitted →
      due - cleanupInterval - Instant.minutes limiterMinutes < admitted

namespace Turn

/-- Whether an event lets a submission of a key through. -/
def admits (key : String) (turn : Turn) : Bool :=
  turn.admitted?.any fun (address, _) => limiterKey address == key

variable {turn : Turn}

/-! ## One event -/

theorem recalls_after (inOrder : turn.before.InOrder) {key : String} {admitted : Instant}
    (recalls : turn.after.limiter.Recalls key admitted) :
    turn.before.limiter.Recalls key admitted ∨
      turn.admits key = true ∧ admitted = turn.before.now := by
  cases cleans : turn.event.cleans with
  | true =>
      have kept_iff := after_iff_of_cleans (isSpared_admission key admitted) inOrder cleans
      exact .inl (kept_iff.1 recalls).1
  | false =>
      rcases limiter_of_calm cleans with same | ⟨address, limiter_eq, admits⟩
      · rw [same] at recalls
        exact .inl recalls
      · rw [limiter_eq] at recalls
        rcases RateLimiter.recalls_check recalls with before | ⟨verdict, rfl, now_eq⟩
        · exact .inl before
        · obtain ⟨submission, admitted⟩ := admits verdict
          exact .inr ⟨by simp [Turn.admits, admitted], now_eq⟩

theorem sparesAdmission_of_cleansAt (inOrder : turn.before.InOrder) {key : String}
    {admitted time : Instant} (recalls : turn.after.limiter.Recalls key admitted)
    (cleans : turn.CleansAt time) :
    SparesAdmission turn.before.settings.sessionMinutes time admitted := by
  have kept_iff :=
    after_iff_of_cleans (isSpared_admission key admitted) inOrder (cleans_of_cleansAt cleans)
  exact (kept_iff.1 recalls).2 time cleans

theorem spares_of_cleansAt (inOrder : turn.before.InOrder) {session : String}
    {entry : StoredPreview} {time : Instant}
    (found : turn.after.store.find? session = some entry) (cleans : turn.CleansAt time) :
    Spares turn.before.settings.sessionMinutes time entry :=
  ((find?_after inOrder (passed_of_cleansAt cleans) session entry).1 found).2 time cleans

theorem knowsTimes_clean (app : App) (known : app.limiter.KnowsTimes) :
    app.clean.1.limiter.KnowsTimes := by
  unfold clean
  dsimp only
  split
  · exact known
  · exact RateLimiter.knowsTimes_forgetUntil _

theorem knowsTimes_after (known : turn.before.limiter.KnowsTimes)
    (positive : 1 ≤ turn.before.settings.requestsPerMinute) : turn.after.limiter.KnowsTimes := by
  cases cleans : turn.event.cleans with
  | false =>
      rcases limiter_of_calm cleans with same | ⟨address, limiter_eq, -⟩
      · rw [same]
        exact known
      · rw [limiter_eq]
        exact RateLimiter.knowsTimes_check known positive
  | true =>
      rcases cases_of_cleans cleans with ⟨-, kept_eq⟩ | ⟨span, -, kept_eq⟩
      · rw [(kept_eq_iff.1 kept_eq).2.1]
        exact knowsTimes_clean turn.before known
      · rw [(kept_eq_iff.1 kept_eq).2.1]
        apply cleanUntil_induction (motive := fun app => app.limiter.KnowsTimes)
        · intro app due _ _ known
          exact knowsTimes_clean { app with now := due } known
        · exact known

theorem isSome_nextCleanup_after (goesOn : turn.event ≠ .stop)
    (running : turn.before.nextCleanup.isSome = true) :
    turn.after.nextCleanup.isSome = true := by
  cases cleans : turn.event.cleans with
  | false =>
      obtain ⟨-, same | ⟨stops, -⟩⟩ := schedule_of_calm cleans
      · rw [same]
        exact running
      · exact absurd stops goesOn
  | true =>
      rcases cases_of_cleans cleans with ⟨-, kept_eq⟩ | ⟨span, -, kept_eq⟩
      · rw [(kept_eq_iff.1 kept_eq).2.2.2, nextCleanup_clean]
        rfl
      · rw [(kept_eq_iff.1 kept_eq).2.2.2]
        apply cleanUntil_induction (motive := fun app => app.nextCleanup.isSome = true)
        · intro app due _ _ _
          rw [nextCleanup_cleanedAt]
          rfl
        · exact running

/-! ## While the service runs -/

section Recent

variable {minutes : Int} (inOrder : turn.before.InOrder) (recent : turn.before.IsRecent minutes)
  (nonneg : 0 ≤ minutes) (constant : turn.before.settings.sessionMinutes = minutes)
  (dated : ∀ time, turn.CleansAt time → ∃ cutoff, Instant.ago minutes time = .ok cutoff)

include recent in
theorem due_le_after (forward : 0 ≤ turn.event.span) {due : Instant}
    (due_eq : turn.after.nextCleanup = some due) : due ≤ turn.after.now + cleanupInterval := by
  rcases nextCleanup_after due_eq with same | ⟨time, cleans, rfl⟩
  · have planned := recent.due_le due same
    have moved := turn.now_after
    grind
  · exact Int.add_le_add_right (time_le_of_cleansAt cleans) _

include inOrder recent nonneg constant dated in
theorem updatedAt_after_ge {due : Instant} (due_eq : turn.after.nextCleanup = some due)
    {session : String} {entry : StoredPreview}
    (found : turn.after.store.find? session = some entry) :
    due - cleanupInterval - Instant.minutes minutes ≤ entry.updatedAt := by
  rcases nextCleanup_after due_eq with same | ⟨time, cleans, rfl⟩
  · have age := updatedAt_after inOrder found
    split at age
    · have planned := recent.due_le due same
      have lasting : Instant.minutes 0 ≤ Instant.minutes minutes :=
        RateLimiter.minutes_le_minutes nonneg
      grind [Instant.minutes]
    · obtain ⟨old, old_found, age⟩ := age
      rw [age]
      exact recent.sessions due same session old old_found
  · obtain ⟨cutoff, cutoff_eq⟩ := dated time cleans
    have spared := spares_of_cleansAt inOrder found cleans
    rw [constant] at spared
    have kept := spared cutoff cutoff_eq
    have := RateLimiter.eq_of_ago cutoff_eq
    grind

include inOrder recent constant dated in
theorem lt_admitted_after {due : Instant} (due_eq : turn.after.nextCleanup = some due)
    {key : String} {admitted : Instant} (recalls : turn.after.limiter.Recalls key admitted) :
    due - cleanupInterval - Instant.minutes limiterMinutes < admitted := by
  rcases nextCleanup_after due_eq with same | ⟨time, cleans, rfl⟩
  · rcases recalls_after inOrder recalls with before | ⟨-, now_eq⟩
    · exact recent.admissions due same key admitted before
    · have planned := recent.due_le due same
      have remembering : 0 < Instant.minutes limiterMinutes := by decide
      grind
  · obtain ⟨cutoff, cutoff_eq⟩ := dated time cleans
    have spared := sparesAdmission_of_cleansAt inOrder recalls cleans
    rw [constant] at spared
    have kept := spared cutoff cutoff_eq
    grind

include inOrder recent nonneg constant dated in
theorem isRecent_after (forward : 0 ≤ turn.event.span) : turn.after.IsRecent minutes where
  due_le _ due_eq := due_le_after recent forward due_eq
  sessions _ due_eq _ _ found :=
    updatedAt_after_ge inOrder recent nonneg constant dated due_eq found
  admissions _ due_eq _ _ recalls := lt_admitted_after inOrder recent constant dated due_eq recalls

end Recent

/-! ## While the service is stopped -/

section Stopped

variable (rests : turn.event ≠ .start ∧ turn.event ≠ .clean)
  (stopped : turn.before.nextCleanup = none)

include rests stopped

theorem not_cleansAt_of_stopped (time : Instant) : ¬turn.CleansAt time := by
  obtain ⟨app, event⟩ := turn
  dsimp only at stopped rests
  intro cleans
  cases event with
  | start => exact rests.1 rfl
  | clean => exact rests.2 rfl
  | advance span =>
      obtain ⟨due, due_eq, -⟩ := cleans
      rw [stopped] at due_eq
      cases due_eq
  | http | connect | send | disconnect | stop | assign => cases cleans

theorem nextCleanup_after_of_stopped : turn.after.nextCleanup = none := by
  cases next_eq : turn.after.nextCleanup with
  | none => rfl
  | some next =>
      rcases nextCleanup_after next_eq with same | ⟨time, cleans, -⟩
      · rw [stopped] at same
        cases same
      · exact absurd cleans (not_cleansAt_of_stopped rests stopped time)

theorem not_drops_of_stopped (inOrder : turn.before.InOrder) (session : String) :
    ¬turn.Drops session := by
  rw [drops_iff inOrder]
  rintro ⟨entry, found, time, cutoff, cleans, -⟩
  exact not_cleansAt_of_stopped rests stopped time cleans

theorem mem_keys_after_of_stopped {key : String} (mem : key ∈ turn.before.limiter.keys) :
    key ∈ turn.after.limiter.keys := by
  cases cleans : turn.event.cleans with
  | false =>
      rcases limiter_of_calm cleans with same | ⟨address, limiter_eq, -⟩
      · rw [same]
        exact mem
      · rw [limiter_eq]
        exact RateLimiter.mem_keys_check mem
  | true =>
      obtain ⟨app, event⟩ := turn
      dsimp only at stopped rests mem
      cases event with
      | start => exact absurd rfl rests.1
      | clean => exact absurd rfl rests.2
      | advance span =>
          have idle : cleanUntil (app.now + span) (span / cleanupInterval + 1).toNat app "" =
              (app, "") := cleanUntil_of_idle (by simp [stopped]) _ _
          have limiter_eq : (Turn.mk app (.advance span)).after.limiter = app.limiter := by
            change (cleanUntil _ _ app "").1.limiter = _
            rw [idle]
          rw [limiter_eq]
          exact mem
      | http | connect | send | disconnect | stop | assign => cases cleans

end Stopped

end Turn

/-! ## Runs -/

section Runs

variable {minutes : Int} {settings : Settings} {events : List Event}

theorem IsSteady.of_append {app : App} {event : Event}
    (steady : app.IsSteady minutes (events ++ [event])) : app.IsSteady minutes events where
  nonneg := steady.nonneg
  forward event mem := steady.forward event (List.mem_append_left _ mem)
  constant turn mem :=
    steady.constant turn (by rw [run_append_singleton]; exact List.mem_append_left _ mem)
  dated turn mem :=
    steady.dated turn (by rw [run_append_singleton]; exact List.mem_append_left _ mem)

theorem isRecent_afterAll (steady : (initial settings).IsSteady minutes events) :
    ((initial settings).afterAll events).IsRecent minutes := by
  induction events using List.reverseRecOn with
  | nil =>
      constructor
      · rintro due ⟨⟩
      · rintro due ⟨⟩
      · rintro due ⟨⟩
  | append_singleton events event ih =>
      let turn : Turn := ⟨(initial settings).afterAll events, event⟩
      have mem : turn ∈ (initial settings).run (events ++ [event]) := by
        rw [run_append_singleton]
        exact List.mem_append_right _ List.mem_cons_self
      rw [afterAll_append_singleton]
      change turn.after.IsRecent minutes
      apply Turn.isRecent_after
      · exact (inOrder_afterAll settings events).1
      · exact ih steady.of_append
      · exact steady.nonneg
      · exact steady.constant turn mem
      · exact steady.dated turn mem
      · exact steady.forward event (List.mem_append_right _ List.mem_cons_self)

/-- What is remembered of a key was let through in the course of the run. -/
theorem exists_admits_of_recalls {key : String} {admitted : Instant}
    (recalls : ((initial settings).afterAll events).limiter.Recalls key admitted) :
    ∃ turn ∈ (initial settings).run events, turn.admits key = true ∧
      admitted = turn.before.now := by
  induction events using List.reverseRecOn with
  | nil =>
      obtain ⟨times, mem, -⟩ := recalls
      cases mem
  | append_singleton events event ih =>
      rw [afterAll_append_singleton] at recalls
      rw [run_append_singleton]
      rcases Turn.recalls_after (inOrder_afterAll settings events).1 recalls with
        before | ⟨admits, now_eq⟩
      · obtain ⟨turn, mem, admits⟩ := ih before
        exact ⟨turn, List.mem_append_left _ mem, admits⟩
      · exact ⟨_, List.mem_append_right _ List.mem_cons_self, admits, now_eq⟩

theorem knowsTimes_afterAll
    (positive : ∀ turn ∈ (initial settings).run events,
      1 ≤ turn.before.settings.requestsPerMinute) :
    ((initial settings).afterAll events).limiter.KnowsTimes := by
  induction events using List.reverseRecOn with
  | nil =>
      intro entry mem
      cases mem
  | append_singleton events event ih =>
      rw [run_append_singleton] at positive
      rw [afterAll_append_singleton]
      apply Turn.knowsTimes_after
      · exact ih fun turn mem => positive turn (List.mem_append_left _ mem)
      · exact positive _ (List.mem_append_right _ List.mem_cons_self)

theorem isSome_nextCleanup_of_started (app : App) (earlier : List Event) {later : List Event}
    (goesOn : .stop ∉ later) :
    (app.afterAll (earlier ++ .start :: later)).nextCleanup.isSome = true := by
  have started : (Turn.mk (app.afterAll earlier) .start).after.nextCleanup.isSome = true := by
    change (app.afterAll earlier).clean.1.nextCleanup.isSome = true
    rw [nextCleanup_clean]
    rfl
  rw [afterAll_append]
  refine (invariant_of_events (motive := fun app => app.nextCleanup.isSome = true) (· ≠ .stop)
    (fun _ => Turn.isSome_nextCleanup_after) ?_ started).1
  rintro event mem rfl
  exact goesOn mem

theorem stopped_of_stop (app : App) {later : List Event}
    (rests : .start ∉ later ∧ .clean ∉ later) {earlier : List Event} :
    ∀ turn ∈ (app.afterAll (earlier ++ [.stop])).run later,
      (turn.event ≠ .start ∧ turn.event ≠ .clean) ∧ turn.before.nextCleanup = none := by
  have stopped : (app.afterAll (earlier ++ [.stop])).nextCleanup = none := by
    rw [afterAll_append_singleton]
    have kept_eq := kept_stop (app.afterAll earlier)
    exact congrArg Kept.nextCleanup kept_eq
  refine (invariant_of_events (motive := fun app => app.nextCleanup = none)
    (fun event => event ≠ .start ∧ event ≠ .clean)
    (fun _ => Turn.nextCleanup_after_of_stopped) ?_ stopped).2
  intro event mem
  exact ⟨fun same => rests.1 (same ▸ mem), fun same => rests.2 (same ▸ mem)⟩

/-- In a steady run a session is dropped just by the cleanups that find it older than its lifetime.
As long as the service runs on after a start, all sessions are younger than their lifetime and one
interval, and if the limit lets anything through, each key that is remembered was let through less
than eleven minutes ago. After a stop nothing goes until the next start. -/
theorem lifetimes_are_bounded (steady : (initial settings).IsSteady minutes events) :
    let turns := (initial settings).run events
    let app := (initial settings).afterAll events
    (∀ turn ∈ turns, ∀ session, turn.Drops session ↔
      ∃ entry, turn.before.store.find? session = some entry ∧
        ∃ time, turn.CleansAt time ∧ Instant.minutes minutes < time - entry.updatedAt) ∧
    (∀ earlier later, events = earlier ++ .start :: later → .stop ∉ later →
      (∀ entry ∈ app.store.entries,
        app.now - entry.updatedAt < Instant.minutes minutes + cleanupInterval) ∧
      ((∀ turn ∈ turns, 1 ≤ turn.before.settings.requestsPerMinute) →
        ∀ key ∈ app.limiter.keys, ∃ last,
          lastTime (Turn.admits key) turns = some last ∧ app.now - last < Instant.minutes 11)) ∧
    ∀ earlier later, events = earlier ++ .stop :: later → .start ∉ later → .clean ∉ later →
      ∀ turn ∈ ((initial settings).afterAll (earlier ++ [.stop])).run later,
        (∀ session, ¬turn.Drops session) ∧
        ∀ key ∈ turn.before.limiter.keys, key ∈ turn.after.limiter.keys := by
  intro turns app
  have inOrder := inOrder_afterAll settings events
  refine ⟨?_, ?_, ?_⟩
  · intro turn mem session
    rw [Turn.drops_iff (inOrder.2 turn mem), steady.constant turn mem]
    refine exists_congr fun entry => and_congr_right fun _ => exists_congr fun time => ?_
    constructor
    · rintro ⟨cutoff, cleans, dated, old⟩
      have cutoff_eq := RateLimiter.eq_of_ago dated
      exact ⟨cleans, by grind⟩
    · rintro ⟨cleans, old⟩
      obtain ⟨cutoff, dated⟩ := steady.dated turn mem time cleans
      have cutoff_eq := RateLimiter.eq_of_ago dated
      exact ⟨cutoff, cleans, dated, by grind⟩
  · rintro earlier later rfl goesOn
    have running := isSome_nextCleanup_of_started (initial settings) earlier goesOn
    obtain ⟨due, due_eq⟩ := Option.isSome_iff_exists.1 running
    have recent := isRecent_afterAll steady
    have timely : app.now < due := inOrder.1.timely due due_eq
    constructor
    · intro entry mem
      have found := Store.find?_of_mem inOrder.1.distinct mem
      have young := recent.sessions due due_eq _ _ found
      grind
    · intro positive key mem
      obtain ⟨admitted, recalls⟩ := (knowsTimes_afterAll positive).exists_recalls mem
      have young := recent.admissions due due_eq _ _ recalls
      obtain ⟨turn, turn_mem, admits, rfl⟩ := exists_admits_of_recalls recalls
      obtain ⟨last, last_eq, le_last⟩ := le_lastTime steady.forward _ turn_mem admits
      refine ⟨last, last_eq, ?_⟩
      have eleven : Instant.minutes 11 = Instant.minutes limiterMinutes + cleanupInterval := by
        decide
      grind
  · rintro earlier later rfl notStarted notCleaned turn mem
    obtain ⟨rests, stopped⟩ := stopped_of_stop _ ⟨notStarted, notCleaned⟩ turn mem
    have mem : turn ∈ turns := by
      dsimp only [turns]
      rw [List.append_cons, run_append]
      exact List.mem_append_right _ mem
    constructor
    · exact Turn.not_drops_of_stopped rests stopped (inOrder.2 turn mem)
    · exact fun key => Turn.mem_keys_after_of_stopped rests stopped

/-- A preview is posted once, and the last moment comes before the cleanup that drops it. -/
def hourOfEvents : List Event :=
  [.start, submissionOf "s" 1, .advance 3659999999]

theorem isSteady_hourOfEvents : (initial {}).IsSteady 60 hourOfEvents where
  nonneg := by decide
  forward := by simp [GoesForward, hourOfEvents, submissionOf, Event.span]
  constant := by decide
  dated := by
    intro turn mem time cleans
    rw [RateLimiter.exists_ago_iff]
    simp only [hourOfEvents, run, List.mem_cons, List.not_mem_nil, or_false] at mem
    rcases mem with rfl | rfl | rfl
    · obtain rfl : time = 0 := cleans
      decide
    · cases cleans
    · obtain ⟨due, due_eq, count, rfl, inTime⟩ := cleans
      obtain rfl : cleanupInterval = due := Option.some.inj due_eq
      have inTime : cleanupInterval + count * cleanupInterval ≤ 3659999999 := inTime
      refine ⟨by decide, ?_, ?_⟩
      · exact Int.le_trans (by decide) (Int.sub_le_sub_right (le_due cleanupInterval count) _)
      · exact Int.le_trans (Int.sub_le_sub_right inTime _) (by decide)

/-- A session can outlast its hour by all but an interval, and by no more. -/
theorem session_outlasts_its_hour :
    let app := (initial {}).afterAll hourOfEvents
    (initial {}).IsSteady 60 hourOfEvents ∧
      app.store.entries.map (app.now - ·.updatedAt) = [3659999999] ∧
      (∀ entry ∈ app.store.entries, app.now - entry.updatedAt < 3660000000) ∧
      ∀ key ∈ app.limiter.keys, ∃ last,
        lastTime (Turn.admits key) ((initial {}).run hourOfEvents) = some last ∧
          app.now - last < 660000000 := by
  intro app
  have running := (lifetimes_are_bounded isSteady_hourOfEvents).2.1 []
    [submissionOf "s" 1, .advance 3659999999] rfl (by simp [submissionOf])
  exact ⟨isSteady_hourOfEvents, by decide, running.1, running.2 (by decide)⟩

end Runs

end ComponentPreview.App
