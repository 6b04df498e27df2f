import ComponentPreview.Proofs.Service.Admission
import ComponentPreview.Proofs.Service.Newest
import ComponentPreview.Proofs.Service.RateLimit

/-!
# Cleanups

While the service runs, a cleanup comes at once and then every minute. It drops the sessions that
were not updated since its cutoff. When time passes, the cleanups that are due come one after the
other, each at its time.
-/

namespace ComponentPreview.App

/-- Whether a cleanup at a time keeps an entry, with a number of minutes that sessions last. -/
def Spares (minutes : Int) (time : Instant) (entry : StoredPreview) : Prop :=
  ∀ cutoff, Instant.ago minutes time = .ok cutoff → cutoff ≤ entry.updatedAt

/-- Whether a cleanup falls to a time within an event. -/
def Turn.CleansAt (turn : Turn) (time : Instant) : Prop :=
  match turn.event with
  | .start | .clean => time = turn.before.now
  | .advance span => ∃ due, turn.before.nextCleanup = some due ∧
      ∃ count : Nat, time = due + count * cleanupInterval ∧ time ≤ turn.before.now + span
  | _ => False

/-- Whether a cleanup at a time leaves an admission in the limiter. A cleanup that has no date to go
by for the sessions does not come to the limiter. -/
def SparesAdmission (minutes : Int) (time admitted : Instant) : Prop :=
  ∀ cutoff, Instant.ago minutes time = .ok cutoff →
    time - Instant.minutes limiterMinutes < admitted

/-- Whether each cleanup keeps something just if it spares it. -/
def IsSpared (holds : Store → RateLimiter → Prop) (spares : Int → Instant → Prop) : Prop :=
  ∀ app : App, app.store.Distinct →
    (holds app.clean.1.store app.clean.1.limiter ↔
      holds app.store app.limiter ∧ spares app.settings.sessionMinutes app.now)

/-- How far an event moves the clock. -/
def Event.span : Event → Int
  | advance span => span
  | _ => 0

/-- What holds of the sessions and of the next cleanup throughout a run. -/
structure InOrder (app : App) : Prop where
  distinct : app.store.Distinct
  timely : ∀ due, app.nextCleanup = some due → app.now < due

/-! ## One cleanup -/

@[simp] theorem settings_clean (app : App) : app.clean.1.settings = app.settings := by
  unfold clean
  dsimp only
  split <;> rfl

@[simp] theorem now_clean (app : App) : app.clean.1.now = app.now := by
  unfold clean
  dsimp only
  split <;> rfl

@[simp] theorem nextCleanup_clean (app : App) :
    app.clean.1.nextCleanup = some (app.now + cleanupInterval) := by
  unfold clean
  dsimp only
  split <;> rfl

theorem isSpared_session (session : String) (entry : StoredPreview) :
    IsSpared (fun store _ => store.find? session = some entry) (Spares · · entry) := by
  intro app distinct
  unfold clean Spares
  dsimp only
  cases dated : Instant.ago app.settings.sessionMinutes app.now with
  | error error => simp
  | ok cutoff =>
      rw [Store.find?_dropBefore distinct, Option.filter_eq_some_iff]
      simp

theorem isSpared_admission (key : String) (admitted : Instant) :
    IsSpared (fun _ limiter => limiter.Recalls key admitted) (SparesAdmission · · admitted) := by
  intro app _
  unfold clean SparesAdmission
  dsimp only
  cases dated : Instant.ago app.settings.sessionMinutes app.now with
  | error error => simp
  | ok cutoff => simp [RateLimiter.recalls_forgetUntil]

theorem distinct_clean (app : App) (distinct : app.store.Distinct) :
    app.clean.1.store.Distinct := by
  unfold clean
  dsimp only
  split
  · exact distinct
  · exact Store.distinct_dropBefore distinct _

/-! ## Cleanups one after the other -/

theorem cleanupInterval_pos : 0 < cleanupInterval := by decide

theorem due_succ (due : Int) (count : Nat) :
    due + ((count + 1 : Nat) : Int) * cleanupInterval =
      due + cleanupInterval + count * cleanupInterval := by
  rw [Int.natCast_add, Int.add_mul, Int.natCast_one, Int.one_mul]
  omega

theorem le_due (due : Int) (count : Nat) : due ≤ due + count * cleanupInterval := by
  have := Int.mul_nonneg (Int.natCast_nonneg count) (Int.le_of_lt cleanupInterval_pos)
  omega

/-- The service after the cleanup that is due at a time. -/
def cleanedAt (app : App) (due : Instant) : App :=
  (clean { app with now := due }).1

@[simp] theorem nextCleanup_cleanedAt (app : App) (due : Instant) :
    (app.cleanedAt due).nextCleanup = some (due + cleanupInterval) :=
  nextCleanup_clean _

@[simp] theorem settings_cleanedAt (app : App) (due : Instant) :
    (app.cleanedAt due).settings = app.settings :=
  settings_clean _

theorem distinct_cleanedAt {app : App} (distinct : app.store.Distinct) (due : Instant) :
    (app.cleanedAt due).store.Distinct :=
  distinct_clean { app with now := due } distinct

theorem cleanUntil_succ {app : App} {due finish : Instant} (next_eq : app.nextCleanup = some due)
    (isDue : due ≤ finish) (bound : Nat) (printed : String) :
    cleanUntil finish (bound + 1) app printed =
      cleanUntil finish bound (app.cleanedAt due)
        (printed ++ (clean { app with now := due }).2) := by
  rw [cleanUntil, next_eq]
  exact if_pos isDue

theorem cleanUntil_of_idle {app : App} {finish : Instant}
    (idle : ∀ due, app.nextCleanup = some due → finish < due) (bound : Nat) (printed : String) :
    cleanUntil finish bound app printed = (app, printed) := by
  cases bound with
  | zero => rfl
  | succ bound =>
      rw [cleanUntil]
      cases next_eq : app.nextCleanup with
      | none => rfl
      | some due => exact if_neg (Int.not_le.2 (idle due next_eq))

theorem due_or_idle (app : App) (finish : Instant) :
    (∃ due, app.nextCleanup = some due ∧ due ≤ finish) ∨
      ∀ due, app.nextCleanup = some due → finish < due := by
  cases app.nextCleanup with
  | none => simp
  | some due =>
      by_cases isDue : due ≤ finish
      · exact .inl ⟨due, rfl, isDue⟩
      · exact .inr (by simpa using Int.not_le.1 isDue)

/-- What each cleanup that is due keeps holds after all of them. -/
theorem cleanUntil_induction {motive : App → Prop} {finish : Instant}
    (step : ∀ app due, app.nextCleanup = some due → due ≤ finish → motive app →
      motive (app.cleanedAt due))
    (bound : Nat) (app : App) (printed : String) (h : motive app) :
    motive (cleanUntil finish bound app printed).1 := by
  induction bound generalizing app printed with
  | zero => exact h
  | succ bound ih =>
      rcases app.due_or_idle finish with ⟨due, next_eq, isDue⟩ | idle
      · rw [cleanUntil_succ next_eq isDue]
        exact ih _ _ (step app due next_eq isDue h)
      · rw [cleanUntil_of_idle idle]
        exact h

theorem finish_lt_nextCleanup (finish : Instant) (bound : Nat) (app : App) (printed : String)
    (enough : ∀ due, app.nextCleanup = some due → finish < due + bound * cleanupInterval) :
    ∀ due, (cleanUntil finish bound app printed).1.nextCleanup = some due → finish < due := by
  induction bound generalizing app printed with
  | zero => simpa [cleanUntil] using enough
  | succ bound ih =>
      rcases app.due_or_idle finish with ⟨due, next_eq, isDue⟩ | idle
      · rw [cleanUntil_succ next_eq isDue]
        apply ih
        intro later later_eq
        rw [nextCleanup_cleanedAt, Option.some.injEq] at later_eq
        rw [← later_eq, ← due_succ]
        exact enough due next_eq
      · rw [cleanUntil_of_idle idle]
        exact idle

theorem cleanUntil_add (finish : Instant) (first second : Nat) (app : App) (printed : String) :
    cleanUntil finish (first + second) app printed =
      cleanUntil finish second (cleanUntil finish first app printed).1
        (cleanUntil finish first app printed).2 := by
  induction first generalizing app printed with
  | zero => rw [Nat.zero_add, cleanUntil]
  | succ first ih =>
      rcases app.due_or_idle finish with ⟨due, next_eq, isDue⟩ | idle
      · rw [Nat.succ_add, cleanUntil_succ next_eq isDue, cleanUntil_succ next_eq isDue, ih]
      · rw [cleanUntil_of_idle idle, cleanUntil_of_idle idle, cleanUntil_of_idle idle]

theorem cleanUntil_cleanUntil {finish finish' : Instant} (later : finish ≤ finish')
    (bound more : Nat) (app : App) (printed : String) :
    ∃ count, cleanUntil finish' more (cleanUntil finish bound app printed).1
        (cleanUntil finish bound app printed).2 =
      cleanUntil finish' (count + more) app printed := by
  induction bound generalizing app printed with
  | zero => exact ⟨0, by rw [Nat.zero_add, cleanUntil]⟩
  | succ bound ih =>
      rcases app.due_or_idle finish with ⟨due, next_eq, isDue⟩ | idle
      · obtain ⟨count, same⟩ := ih (app.cleanedAt due)
          (printed ++ (clean { app with now := due }).2)
        refine ⟨count + 1, ?_⟩
        rw [cleanUntil_succ next_eq isDue, same, Nat.succ_add,
          cleanUntil_succ next_eq (Int.le_trans isDue later)]
      · exact ⟨0, by rw [Nat.zero_add, cleanUntil_of_idle idle]⟩

theorem cleanUntil_congr {finish : Instant} (bound : Nat) (app : App) (time : Instant)
    (printed printed' : String) :
    { (cleanUntil finish bound { app with now := time } printed).1 with now := finish } =
      { (cleanUntil finish bound app printed').1 with now := finish } := by
  induction bound generalizing app time printed printed' with
  | zero => rfl
  | succ bound ih =>
      rcases app.due_or_idle finish with ⟨due, next_eq, isDue⟩ | idle
      · have next_eq' : { app with now := time }.nextCleanup = some due := next_eq
        rw [cleanUntil_succ next_eq isDue, cleanUntil_succ next_eq' isDue]
        exact ih (app.cleanedAt due) (app.cleanedAt due).now _ _
      · have idle' : ∀ due, { app with now := time }.nextCleanup = some due → finish < due := idle
        rw [cleanUntil_of_idle idle, cleanUntil_of_idle idle']

theorem cleanUntil_eq_of_idle {finish : Instant} {first second : Nat} {app : App}
    {printed : String}
    (idle : ∀ due, (cleanUntil finish first app printed).1.nextCleanup = some due → finish < due)
    (idle' : ∀ due, (cleanUntil finish second app printed).1.nextCleanup = some due →
      finish < due) :
    cleanUntil finish first app printed = cleanUntil finish second app printed := by
  have first_eq := cleanUntil_add finish first second app printed
  have second_eq := cleanUntil_add finish second first app printed
  rw [cleanUntil_of_idle idle] at first_eq
  rw [cleanUntil_of_idle idle', Nat.add_comm] at second_eq
  exact first_eq.symm.trans second_eq

section IsSpared

variable {holds : Store → RateLimiter → Prop} {spares : Int → Instant → Prop}
  (spared : IsSpared holds spares)

include spared

theorem cleanUntil_iff (finish : Instant) (bound : Nat) {app : App}
    (distinct : app.store.Distinct) (printed : String) :
    holds (cleanUntil finish bound app printed).1.store
        (cleanUntil finish bound app printed).1.limiter ↔
      holds app.store app.limiter ∧
        ∀ due, app.nextCleanup = some due → ∀ count < bound,
          due + count * cleanupInterval ≤ finish →
            spares app.settings.sessionMinutes (due + count * cleanupInterval) := by
  induction bound generalizing app printed with
  | zero => simp [cleanUntil]
  | succ bound ih =>
      rcases app.due_or_idle finish with ⟨due, next_eq, isDue⟩ | idle
      · have first_iff : holds (app.cleanedAt due).store (app.cleanedAt due).limiter ↔ _ :=
          spared { app with now := due } distinct
        rw [cleanUntil_succ next_eq isDue, ih (distinct_cleanedAt distinct due), first_iff,
          settings_cleanedAt, nextCleanup_cleanedAt, and_assoc]
        apply and_congr_right
        intro _
        simp only [next_eq, Option.some.injEq, forall_eq']
        -- The first cleanup is the one that is due; the others come an interval later.
        constructor
        · rintro ⟨first, rest⟩ count lt inTime
          cases count with
          | zero => simpa using first
          | succ count =>
              rw [due_succ] at inTime ⊢
              exact rest count (by omega) inTime
        · intro all
          constructor
          · simpa using all 0 (by omega) (by simpa using isDue)
          · intro count lt inTime
            rw [← due_succ] at inTime ⊢
            exact all (count + 1) (by omega) inTime
      · rw [cleanUntil_of_idle idle]
        constructor
        · intro held
          refine ⟨held, fun due next_eq count _ inTime => ?_⟩
          have late := Int.lt_of_lt_of_le (idle due next_eq) (le_due due count)
          exact absurd inTime (Int.not_le.2 late)
        · exact And.left

end IsSpared

/-! ## Time that passes -/

theorem lt_due_of_bound {now due : Int} (late : now < due) (span : Int) :
    now + span < due + ((span / cleanupInterval + 1).toNat : Int) * cleanupInterval := by
  have floor := Int.lt_ediv_add_one_mul_self span cleanupInterval_pos
  have room := Int.mul_le_mul_of_nonneg_right (Int.self_le_toNat (span / cleanupInterval + 1))
    (Int.le_of_lt cleanupInterval_pos)
  omega

theorem advance_iff {holds : Store → RateLimiter → Prop} {spares : Int → Instant → Prop}
    (spared : IsSpared holds spares) {app : App} (inOrder : app.InOrder) (span : Int) :
    holds (app.advance span).1.store (app.advance span).1.limiter ↔
      holds app.store app.limiter ∧
        ∀ due, app.nextCleanup = some due → ∀ count : Nat,
          due + count * cleanupInterval ≤ app.now + span →
            spares app.settings.sessionMinutes (due + count * cleanupInterval) := by
  have held_iff := cleanUntil_iff spared (app.now + span) (span / cleanupInterval + 1).toNat
    inOrder.distinct ""
  apply held_iff.trans
  apply and_congr_right
  intro _
  constructor
  · intro spared due next_eq count inTime
    apply spared due next_eq count _ inTime
    have room := Int.lt_of_le_of_lt inTime (lt_due_of_bound (inOrder.timely due next_eq) span)
    exact_mod_cast Int.lt_of_mul_lt_mul_right (Int.lt_of_add_lt_add_left room)
      (Int.le_of_lt cleanupInterval_pos)
  · intro spared due next_eq count _ inTime
    exact spared due next_eq count inTime

theorem nextCleanup_cleanUntil {finish : Instant} (bound : Nat) (app : App) (printed : String)
    {next : Instant} (next_eq : (cleanUntil finish bound app printed).1.nextCleanup = some next) :
    app.nextCleanup = some next ∨ ∃ due, app.nextCleanup = some due ∧ ∃ count : Nat,
      next = due + count * cleanupInterval + cleanupInterval ∧
        due + count * cleanupInterval ≤ finish := by
  induction bound generalizing app printed with
  | zero => exact .inl next_eq
  | succ bound ih =>
      rcases app.due_or_idle finish with ⟨due, due_eq, isDue⟩ | idle
      · rw [cleanUntil_succ due_eq isDue] at next_eq
        right
        refine ⟨due, due_eq, ?_⟩
        rcases ih _ _ next_eq with same | ⟨second, second_eq, count, next_eq, inTime⟩
        · rw [nextCleanup_cleanedAt, Option.some.injEq] at same
          exact ⟨0, by simpa using same.symm, by simpa using isDue⟩
        · rw [nextCleanup_cleanedAt, Option.some.injEq] at second_eq
          subst second_eq
          refine ⟨count + 1, ?_, ?_⟩
          · rw [next_eq, due_succ]
          · rw [due_succ]
            exact inTime
      · rw [cleanUntil_of_idle idle] at next_eq
        exact .inl next_eq

/-- An advance may be cut anywhere, so what holds at the end of every run holds at every moment. -/
theorem advance_add {app : App} (inOrder : app.InOrder) {first second : Int}
    (forward : 0 ≤ second) :
    (app.advance (first + second)).1 = ((app.advance first).1.advance second).1 := by
  -- The cleanups of the two halves are as many as are due in the whole, so their numbers, which
  -- only bound the loop, make no difference.
  let finish : Instant := app.now + first + second
  let half := cleanUntil (app.now + first) (first / cleanupInterval + 1).toNat app ""
  have half_idle : ∀ due, half.1.nextCleanup = some due → app.now + first < due :=
    finish_lt_nextCleanup _ _ app "" fun due due_eq =>
      lt_due_of_bound (inOrder.timely due due_eq) first
  have cut_idle := finish_lt_nextCleanup finish (second / cleanupInterval + 1).toNat
    half.1 half.2 fun due due_eq => lt_due_of_bound (half_idle due due_eq) second
  have whole_idle := finish_lt_nextCleanup (app.now + (first + second))
    ((first + second) / cleanupInterval + 1).toNat app "" fun due due_eq =>
      lt_due_of_bound (inOrder.timely due due_eq) (first + second)
  have later : app.now + first ≤ finish := Int.le_add_of_nonneg_right forward
  obtain ⟨count, cut_eq⟩ := cleanUntil_cleanUntil later (first / cleanupInterval + 1).toNat
    (second / cleanupInterval + 1).toNat app ""
  rw [cut_eq] at cut_idle
  rw [← Int.add_assoc] at whole_idle
  have whole_eq := cleanUntil_eq_of_idle whole_idle cut_idle
  calc (app.advance (first + second)).1
      = { (cleanUntil finish ((first + second) / cleanupInterval + 1).toNat app "").1 with
          now := finish } := by rw [advance, ← Int.add_assoc]
    _ = { (cleanUntil finish (second / cleanupInterval + 1).toNat half.1 half.2).1 with
          now := finish } := by rw [whole_eq, ← cut_eq]
    _ = ((app.advance first).1.advance second).1 := (cleanUntil_congr _ _ _ _ _).symm

/-! ## Events -/

theorem Event.span_of_calm {event : Event} (calm : event.cleans = false) : event.span = 0 := by
  cases event <;> first | rfl | cases calm

namespace Turn

variable {turn : Turn}

theorem eq_of_cleansAt_of_starts (starts : turn.event = .start ∨ turn.event = .clean)
    {time : Instant} : turn.CleansAt time ↔ time = turn.before.now := by
  rcases starts with event_eq | event_eq <;> rw [CleansAt, event_eq]

theorem cleans_of_cleansAt {time : Instant} (h : turn.CleansAt time) :
    turn.event.cleans = true := by
  obtain ⟨app, event⟩ := turn
  cases event <;> first | rfl | cases h

/-- An event that may run cleanups keeps what all of them spare. -/
theorem after_iff_of_cleans {holds : Store → RateLimiter → Prop}
    {spares : Int → Instant → Prop} (spared : IsSpared holds spares)
    (inOrder : turn.before.InOrder) (cleans : turn.event.cleans = true) :
    holds turn.after.store turn.after.limiter ↔
      holds turn.before.store turn.before.limiter ∧
        ∀ time, turn.CleansAt time → spares turn.before.settings.sessionMinutes time := by
  rcases cases_of_cleans cleans with ⟨starts, kept_eq⟩ | ⟨span, event_eq, kept_eq⟩
  · obtain ⟨store_eq, limiter_eq, -⟩ := kept_eq_iff.1 kept_eq
    rw [store_eq, limiter_eq, spared turn.before inOrder.distinct]
    simp [eq_of_cleansAt_of_starts starts]
  · obtain ⟨store_eq, limiter_eq, -⟩ := kept_eq_iff.1 kept_eq
    rw [store_eq, limiter_eq, advance_iff spared inOrder]
    apply and_congr_right
    intro _
    simp only [CleansAt, event_eq]
    constructor
    · rintro each _ ⟨due, next_eq, count, rfl, inTime⟩
      exact each due next_eq count inTime
    · intro each due next_eq count inTime
      exact each _ ⟨due, next_eq, count, rfl, inTime⟩

theorem find?_after (inOrder : turn.before.InOrder) (passed : turn.admitted? = none)
    (session : String) (entry : StoredPreview) :
    turn.after.store.find? session = some entry ↔
      turn.before.store.find? session = some entry ∧
        ∀ time, turn.CleansAt time → Spares turn.before.settings.sessionMinutes time entry := by
  cases cleans : turn.event.cleans with
  | true => exact after_iff_of_cleans (isSpared_session session entry) inOrder cleans
  | false =>
      rw [store_of_calm cleans passed]
      have never (time : Instant) : ¬turn.CleansAt time := by
        intro h
        simp [cleans_of_cleansAt h] at cleans
      simp [never]

theorem timely_after (inOrder : turn.before.InOrder) :
    ∀ due, turn.after.nextCleanup = some due → turn.after.now < due := by
  cases cleans : turn.event.cleans with
  | false =>
      obtain ⟨now_eq, next_eq | ⟨-, next_eq⟩⟩ := schedule_of_calm cleans
      · rw [now_eq, next_eq]
        exact inOrder.timely
      · simp [next_eq]
  | true =>
      rcases cases_of_cleans cleans with ⟨-, kept_eq⟩ | ⟨span, -, kept_eq⟩
      · obtain ⟨-, -, now_eq, next_eq⟩ := kept_eq_iff.1 kept_eq
        simp only [now_eq, next_eq, now_clean, nextCleanup_clean, Option.some.injEq, forall_eq']
        exact Int.lt_add_of_pos_right _ cleanupInterval_pos
      · obtain ⟨-, -, now_eq, next_eq⟩ := kept_eq_iff.1 kept_eq
        rw [now_eq, next_eq]
        apply finish_lt_nextCleanup
        intro due due_eq
        exact lt_due_of_bound (inOrder.timely due due_eq) span

theorem inOrder_after (inOrder : turn.before.InOrder) : turn.after.InOrder where
  distinct := turn.storeChange.distinct inOrder.distinct
  timely := timely_after inOrder

/-- The next cleanup was due before or follows one of the event. -/
theorem nextCleanup_after {next : Instant} (next_eq : turn.after.nextCleanup = some next) :
    turn.before.nextCleanup = some next ∨
      ∃ time, turn.CleansAt time ∧ next = time + cleanupInterval := by
  cases cleans : turn.event.cleans with
  | false =>
      obtain ⟨-, same | ⟨-, none⟩⟩ := schedule_of_calm cleans
      · exact .inl (same.symm.trans next_eq)
      · cases none.symm.trans next_eq
  | true =>
      rcases cases_of_cleans cleans with ⟨starts, kept_eq⟩ | ⟨span, event_eq, kept_eq⟩
      · obtain ⟨-, -, -, planned⟩ := kept_eq_iff.1 kept_eq
        rw [next_eq, nextCleanup_clean, Option.some.injEq] at planned
        exact .inr ⟨_, (eq_of_cleansAt_of_starts starts).2 rfl, planned⟩
      · obtain ⟨-, -, -, planned⟩ := kept_eq_iff.1 kept_eq
        rcases nextCleanup_cleanUntil _ _ _ (planned.symm.trans next_eq) with
          same | ⟨due, due_eq, count, next_eq, inTime⟩
        · exact .inl same
        · refine .inr ⟨_, ?_, next_eq⟩
          rw [CleansAt, event_eq]
          exact ⟨due, due_eq, count, rfl, inTime⟩

theorem now_after (turn : Turn) : turn.after.now = turn.before.now + turn.event.span := by
  cases cleans : turn.event.cleans with
  | false =>
      rw [(schedule_of_calm cleans).1, Event.span_of_calm cleans]
      exact (Int.add_zero _).symm
  | true =>
      rcases cases_of_cleans cleans with ⟨starts, kept_eq⟩ | ⟨span, event_eq, kept_eq⟩
      · have rests : turn.event.span = 0 := by
          rcases starts with event_eq | event_eq <;> rw [event_eq] <;> rfl
        rw [(kept_eq_iff.1 kept_eq).2.2.1, now_clean, rests]
        exact (Int.add_zero _).symm
      · rw [(kept_eq_iff.1 kept_eq).2.2.1, event_eq]
        rfl

theorem time_le_of_cleansAt {time : Instant} (h : turn.CleansAt time) : time ≤ turn.after.now := by
  rw [now_after]
  obtain ⟨app, event⟩ := turn
  cases event with
  | start | clean =>
      obtain rfl : time = app.now := h
      exact Int.le_of_eq (Int.add_zero _).symm
  | advance span =>
      obtain ⟨_, _, _, _, inTime⟩ := h
      exact inTime
  | http | connect | send | disconnect | stop | assign => cases h

end Turn

/-- Whether the clock never goes back. -/
def GoesForward (events : List Event) : Prop :=
  ∀ event ∈ events, 0 ≤ event.span

theorem now_le_now_afterAll {events : List Event} (forward : GoesForward events) (app : App) :
    ∀ turn ∈ app.run events, turn.before.now ≤ (app.afterAll events).now := by
  induction events using List.reverseRecOn with
  | nil => simp [run]
  | append_singleton events event ih =>
      have moved := Turn.now_after ⟨app.afterAll events, event⟩
      have later := Int.le_add_of_nonneg_right (a := (app.afterAll events).now)
        (forward event (by simp))
      rw [run_append_singleton, afterAll_append_singleton, moved]
      intro turn mem
      rcases List.mem_append.1 mem with mem | mem
      · have earlier := ih (fun event mem => forward event (List.mem_append_left _ mem)) turn mem
        exact Int.le_trans earlier later
      · rw [List.mem_singleton.1 mem]
        exact later

theorem inOrder_afterAll (settings : Settings) (events : List Event) :
    ((initial settings).afterAll events).InOrder ∧
      ∀ turn ∈ (initial settings).run events, turn.before.InOrder :=
  invariant (fun _ => Turn.inOrder_after) events ⟨List.nodup_nil, fun _ none => nomatch none⟩

end ComponentPreview.App
