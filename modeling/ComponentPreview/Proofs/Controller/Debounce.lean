import ComponentPreview.Proofs.Controller.Desk
import Mathlib.Data.List.Induction

/-!
# Debouncing

No source is lost: until a request with the newest one has started, its debounce is in force or a
request was spawned that will take it. As long as nothing but edits comes from outside, a request
starts one window after each edit that none followed within that window, and at no other time.
-/

namespace ComponentPreview

structure Taken where
  time : Int
  code : String

structure Begun where
  time : Int
  request : Request

namespace Transition

def taken? (transition : Transition) : Option Taken :=
  match transition.move with
  | .edit code => some ⟨transition.before.now, code⟩
  | _ => none

def begun (transition : Transition) : List Begun :=
  (transition.notices.filterMap Notice.requested?).map fun request =>
    ⟨transition.before.now, request⟩

/-- Whether a job is done whose time has come. -/
def Performs (transition : Transition) (job : Job) : Prop :=
  ∃ index task, transition.move = .work index ∧ transition.before.tasks[index]? = some task ∧
    task.due ≤ transition.before.now ∧ task.job = job

theorem taken?_eq_none {transition : Transition} (h : ∀ code, transition.move ≠ .edit code) :
    transition.taken? = none := by
  unfold taken?
  split
  · next code move_eq => exact absurd move_eq (h code)
  · rfl

end Transition

namespace World

def taken (world : World) (moves : List Move) : List Taken :=
  (world.run moves).filterMap Transition.taken?

def begun (world : World) (moves : List Move) : List Begun :=
  (world.run moves).flatMap Transition.begun

variable {world : World}

theorem taken_concat (moves : List Move) (move : Move) :
    world.taken (moves ++ [move]) =
      world.taken moves ++ (Transition.mk (world.afterAll moves) move).taken?.toList := by
  rw [taken, run_concat, List.filterMap_append]
  cases h : (Transition.mk (world.afterAll moves) move).taken? <;> simp [taken, h]

theorem begun_concat (moves : List Move) (move : Move) :
    world.begun (moves ++ [move]) =
      world.begun moves ++ (Transition.mk (world.afterAll moves) move).begun := by
  rw [begun, run_concat, List.flatMap_append, List.flatMap_singleton, begun]

/-! ## No source is lost -/

def IsDebouncing (world : World) : Prop :=
  ∃ number, world.controller.debounce = some number ∧
    ∃ task ∈ world.tasks, task.job.debounce? = some number

def HasSpawned (world : World) : Prop :=
  ∃ task ∈ world.tasks, task.job.isRequest = true

instance (world : World) : Decidable world.HasSpawned :=
  inferInstanceAs (Decidable (∃ task ∈ world.tasks, task.job.isRequest = true))

theorem spawned_pos : 0 < world.desk.spawned ↔ world.HasSpawned :=
  List.countP_pos_iff

theorem isDebouncing_of_ne_none (drafted : world.Drafted)
    (inForce : world.controller.debounce ≠ none) : world.IsDebouncing := by
  obtain ⟨number, inForce⟩ := Option.ne_none_iff_exists'.1 inForce
  obtain ⟨due, single⟩ := drafted.timers_eq number inForce
  obtain ⟨task, mem⟩ : ∃ task, task ∈ world.timers := by
    rcases single with single | single <;> exact ⟨_, single ▸ List.mem_singleton_self _⟩
  obtain ⟨mem, isFor⟩ := List.mem_filter.1 mem
  rw [inForce] at isFor
  exact ⟨number, inForce, task, mem, Job.isFor_some.1 isFor⟩

end World

/-- Whether the newest source is kept until a request with it has started. -/
def Desk.Keeps (taken : List Taken) (begun : List Begun) (desk : Desk) : Prop :=
  desk.isClosed = false → ∀ newest, taken.getLast? = some newest →
    desk.code = some newest.code ∧
      (desk.debounce ≠ none ∨ 0 < desk.spawned ∨
        ∃ last, begun.getLast? = some last ∧ last.request.code = newest.code)

namespace World

variable {world : World} {taken : List Taken} {begun : List Begun}

theorem keeps_of_drafts {move : Move} {requests : List Request} {desk : Desk}
    (drafts : world.Drafts move requests desk) (keeps : world.desk.Keeps taken begun) :
    desk.Keeps (taken ++ (Transition.mk world move).taken?.toList)
      (begun ++ requests.map fun request => ⟨world.now, request⟩) := by
  intro isOpen newest last
  cases drafts with
  | edit code =>
      obtain rfl : ⟨world.now, code⟩ = newest := by
        simpa [Transition.taken?] using last
      exact ⟨rfl, .inl (Option.some_ne_none _)⟩
  | close => cases isOpen
  | rest _ untaken =>
      have isOpen' : world.controller.isClosed = false := isOpen
      rw [Transition.taken?_eq_none (untaken.resolve_left (by simp [isOpen']))] at last
      simpa using keeps isOpen newest (by simpa using last)
  | call | openWindow | ignore =>
      rw [List.map_nil, List.append_nil]
      exact keeps isOpen newest (by simpa [Transition.taken?] using last)
  | retry message count =>
      obtain ⟨code, where_⟩ := keeps isOpen newest (by simpa [Transition.taken?] using last)
      rw [List.map_nil, List.append_nil]
      exact ⟨code, where_.imp_right (.imp_left fun pos => Nat.add_pos_left pos count)⟩
  | closeWindow =>
      obtain ⟨code, -⟩ := keeps isOpen newest (by simpa [Transition.taken?] using last)
      exact ⟨code, .inr (.inl (Nat.succ_pos _))⟩
  | skip _ _ _ idle =>
      obtain ⟨code, -⟩ := keeps isOpen newest (by simpa [Transition.taken?] using last)
      have isOpen' : world.controller.isClosed = false := isOpen
      have code' : world.controller.code = some newest.code := code
      simp [isOpen', code'] at idle
  | start _ _ request _ _ code | refresh _ _ request _ _ code =>
      obtain ⟨code', -⟩ := keeps isOpen newest (by simpa [Transition.taken?] using last)
      refine ⟨code', .inr (.inr ⟨⟨world.now, request⟩, by simp, ?_⟩)⟩
      exact Option.some.inj (code.symm.trans code')

theorem keeps_afterAll (setup : Setup) (moves : List Move) :
    ((start setup).afterAll moves).desk.Keeps ((start setup).taken moves)
      ((start setup).begun moves) := by
  induction moves using List.reverseRecOn with
  | nil => exact fun _ _ last => nomatch last
  | append_singleton moves move ih =>
      rw [taken_concat, begun_concat, afterAll_concat]
      exact keeps_of_drafts (drafts_move (drafted_run setup moves).1 move) ih

/-! ## A request for each edit that none follows -/

end World

def Job.isDebounceEnd : Job → Bool
  | closeDebounce _ => true
  | _ => false

namespace World

/-- Whether no debounce in force has come to its end and no spawned request is left. -/
def IsCalm (world : World) : Prop :=
  ¬world.HasSpawned ∧
    ∀ task ∈ world.timers, task.job.isDebounceEnd = true → world.now < task.due

instance (world : World) : Decidable world.IsCalm :=
  inferInstanceAs (Decidable (_ ∧ _))

/-- Whether time may pass: a spawned request starts at once, and a debounce in force begins at once
and ends in time. -/
def IsPunctual (world : World) (span : Nat) : Prop :=
  (0 < span → ¬world.HasSpawned) ∧ ∀ task ∈ world.timers, world.now + span ≤ task.due

instance (world : World) (span : Nat) : Decidable (world.IsPunctual span) :=
  inferInstanceAs (Decidable (_ ∧ _))

end World

/-- Whether nothing but edits comes from outside, with a window that stays the same. What is due is
done before time passes and before there is an edit. -/
def Transition.Undisturbed (window : Int) (transition : Transition) : Prop :=
  transition.before.controller.debounceTime.microseconds = window ∧
    match transition.move with
    | .pass span => transition.before.IsPunctual span
    | .edit _ => transition.before.IsCalm
    | .refresh _ | .message _ | .close => False
    | .fullscreen | .await .. | .work _ | .answer .. => True

instance (window : Int) (transition : Transition) : Decidable (transition.Undisturbed window) :=
  match transition with
  | ⟨before, .pass span⟩ => inferInstanceAs (Decidable (_ ∧ before.IsPunctual span))
  | ⟨before, .edit _⟩ => inferInstanceAs (Decidable (_ ∧ before.IsCalm))
  | ⟨_, .refresh _⟩ | ⟨_, .message _⟩ | ⟨_, .close⟩ => inferInstanceAs (Decidable (_ ∧ False))
  | ⟨_, .fullscreen⟩ | ⟨_, .await ..⟩ | ⟨_, .work _⟩ | ⟨_, .answer ..⟩ =>
      inferInstanceAs (Decidable (_ ∧ True))

/-- Whether some source was taken one window before a time and none since then. -/
def IsDue (window : Int) (taken : List Taken) (time : Int) : Prop :=
  (∃ draft ∈ taken, draft.time = time - window) ∧
    ∀ draft ∈ taken, ¬(time - window < draft.time ∧ draft.time < time)

instance (window : Int) (taken : List Taken) (time : Int) : Decidable (IsDue window taken time) :=
  inferInstanceAs (Decidable (_ ∧ _))

def lastTakenAt? (time : Int) (taken : List Taken) : Option Taken :=
  (taken.filter fun draft => draft.time = time).getLast?

section History

variable {window now time : Int} {taken : List Taken} {draft : Taken}

theorem isDue_concat (positive : 0 < window) (early : time ≤ draft.time) :
    IsDue window (taken ++ [draft]) time ↔ IsDue window taken time := by
  constructor
  · rintro ⟨⟨first, mem, time_eq⟩, none⟩
    refine ⟨⟨first, ?_, time_eq⟩, fun later mem => none later (List.mem_append_left _ mem)⟩
    rcases List.mem_append.1 mem with mem | mem
    · exact mem
    · obtain rfl := List.mem_singleton.1 mem
      omega
  · rintro ⟨⟨first, mem, time_eq⟩, none⟩
    refine ⟨⟨first, List.mem_append_left _ mem, time_eq⟩, ?_⟩
    intro later mem
    rcases List.mem_append.1 mem with mem | mem
    · exact none later mem
    · obtain rfl := List.mem_singleton.1 mem
      omega

theorem lastTakenAt?_concat_of_ne (other : draft.time ≠ time) :
    lastTakenAt? time (taken ++ [draft]) = lastTakenAt? time taken := by
  simp [lastTakenAt?, List.filter_append, other]

theorem lastTakenAt?_of_getLast? (last : taken.getLast? = some draft) :
    lastTakenAt? draft.time taken = some draft := by
  obtain ⟨init, rfl⟩ := List.getLast?_eq_some_iff.1 last
  simp [lastTakenAt?, List.filter_append]

theorem time_le_of_getLast? (sorted : taken.Pairwise (·.time ≤ ·.time))
    (last : taken.getLast? = some draft) : ∀ other ∈ taken, other.time ≤ draft.time := by
  obtain ⟨init, rfl⟩ := List.getLast?_eq_some_iff.1 last
  intro other mem
  rcases List.mem_append.1 mem with mem | mem
  · exact (List.pairwise_append.1 sorted).2.2 other mem draft (List.mem_singleton_self _)
  · exact Int.le_of_eq (congrArg Taken.time (List.mem_singleton.1 mem))

/-- Of the times that have not come yet only one can be due: a window after the newest source. -/
theorem time_eq_of_isDue (sorted : taken.Pairwise (·.time ≤ ·.time))
    (last : taken.getLast? = some draft) (early : draft.time < time)
    (due : IsDue window taken time) : time = draft.time + window := by
  obtain ⟨⟨other, mem, time_eq⟩, none⟩ := due
  have other_le := time_le_of_getLast? sorted last other mem
  have := none draft (List.mem_of_getLast? last)
  omega

theorem isDue_of_getLast? (sorted : taken.Pairwise (·.time ≤ ·.time))
    (last : taken.getLast? = some draft) : IsDue window taken (draft.time + window) := by
  refine ⟨⟨draft, List.mem_of_getLast? last, by omega⟩, ?_⟩
  intro other mem
  have := time_le_of_getLast? sorted last other mem
  omega

end History

/-- What is under way on a desk, and when its request will start. -/
inductive Desk.Stage (window now : Int) (desk : Desk) : Option Int → Prop
  | idle : desk.timers = [] → desk.spawned = 0 → Stage window now desk none
  | opened (number : Nat) : desk.timers = [⟨now, .openDebounce number⟩] → desk.spawned = 0 →
      Stage window now desk (some (now + window))
  | held (number : Nat) (time : Int) : desk.timers = [⟨time, .closeDebounce number⟩] →
      desk.spawned = 0 → now ≤ time → Stage window now desk (some time)
  | spawned : desk.timers = [] → desk.spawned = 1 → Stage window now desk (some now)

namespace Desk.Stage

variable {window now due : Int} {desk : Desk} {pending : Option Int} {number count : Nat}

theorem of_openDebounce (stage : desk.Stage window now pending)
    (timers : desk.timers = [⟨due, .openDebounce number⟩]) :
    pending = some (now + window) ∧ desk.spawned = 0 := by
  cases stage with
  | opened _ _ unspawned => exact ⟨rfl, unspawned⟩
  | idle none | spawned none => simp [timers] at none
  | held _ _ other => simp [timers] at other

theorem of_closeDebounce (stage : desk.Stage window now pending)
    (timers : desk.timers = [⟨due, .closeDebounce number⟩]) :
    pending = some due ∧ desk.spawned = 0 ∧ now ≤ due := by
  cases stage with
  | held _ time other unspawned early =>
      obtain rfl : due = time := by
        rw [timers] at other
        simp only [List.cons.injEq, Appointment.mk.injEq, and_true] at other
        exact other.1
      exact ⟨rfl, unspawned, early⟩
  | idle none | spawned none => simp [timers] at none
  | opened _ other => simp [timers] at other

/-- A spawned request is left only when it is time for it to start. -/
theorem of_spawned (stage : desk.Stage window now pending) (spawned : desk.spawned = count + 1) :
    desk.timers = [] ∧ count = 0 ∧ pending = some now := by
  cases stage with
  | spawned timers one => exact ⟨timers, by omega, rfl⟩
  | idle _ none | opened _ _ none | held _ _ _ none => omega

end Desk.Stage

/-- What holds of the history of an undisturbed run: the requests so far are those that were due,
but for one that is still under way. -/
structure Debounced (window now : Int) (taken : List Taken) (begun : List Begun) (desk : Desk)
    (pending : Option Int) : Prop where
  isOpen : desk.isClosed = false
  uncalled : desk.calls = 0
  stage : desk.Stage window now pending
  taken_le : ∀ draft ∈ taken, draft.time ≤ now
  begun_le : ∀ start ∈ begun, start.time ≤ now
  sorted : taken.Pairwise (·.time ≤ ·.time)
  ascending : begun.Pairwise (·.time < ·.time)
  right : ∀ start ∈ begun, IsDue window taken start.time ∧
    ∃ draft, lastTakenAt? (start.time - window) taken = some draft ∧
      start.request.code = draft.code
  complete : ∀ time ≤ now, IsDue window taken time →
    (∃ start ∈ begun, start.time = time) ∨ pending = some time
  rested : pending = none → ∀ draft ∈ taken, draft.time + window ≤ now
  newest : ∀ time, pending = some time → ∃ draft, taken.getLast? = some draft ∧
    time = draft.time + window ∧ desk.code = some draft.code ∧ ∀ start ∈ begun, start.time < time

namespace Debounced

variable {window now : Int} {taken : List Taken} {begun : List Begun} {desk desk' : Desk}
  {pending : Option Int}

theorem with_desk (debounced : Debounced window now taken begun desk pending)
    (stage : desk'.Stage window now pending) (code_eq : desk'.code = desk.code)
    (isClosed_eq : desk'.isClosed = desk.isClosed) (calls_eq : desk'.calls = desk.calls) :
    Debounced window now taken begun desk' pending :=
  { debounced with
    isOpen := isClosed_eq.trans debounced.isOpen
    uncalled := calls_eq.trans debounced.uncalled
    stage := stage
    newest := by rw [code_eq]; exact debounced.newest }

/-- Time passes, but not beyond that of the request that is under way. -/
theorem pass (debounced : Debounced window now taken begun desk pending) {later : Int}
    (forward : now ≤ later) (stage : desk.Stage window later pending) :
    Debounced window later taken begun desk pending :=
  { debounced with
    stage := stage
    taken_le := fun draft mem => Int.le_trans (debounced.taken_le draft mem) forward
    begun_le := fun start mem => Int.le_trans (debounced.begun_le start mem) forward
    rested := fun idle draft mem => Int.le_trans (debounced.rested idle draft mem) forward
    complete := by
      intro time _ due
      by_cases early : time ≤ now
      · exact debounced.complete time early due
      -- Of what is due later only one can have been under way: a window after the newest source.
      right
      obtain ⟨first, mem, -⟩ := due.1
      obtain ⟨draft, last⟩ := Option.ne_none_iff_exists'.1
        (mt List.getLast?_eq_none_iff.1 (List.ne_nil_of_mem mem))
      have draft_le := debounced.taken_le draft (List.mem_of_getLast? last)
      have time_eq := time_eq_of_isDue debounced.sorted last (by omega) due
      cases under : pending with
      | none =>
          have := debounced.rested under draft (List.mem_of_getLast? last)
          omega
      | some other =>
          obtain ⟨draft', last', other_eq, -⟩ := debounced.newest other under
          obtain rfl : draft' = draft := Option.some.inj (last'.symm.trans last)
          rw [time_eq, other_eq] }

theorem edit (debounced : Debounced window now taken begun desk pending) (positive : 0 < window)
    (calm : ∀ time, pending = some time → now < time) (code : String)
    (stage : desk'.Stage window now (some (now + window))) (code_eq : desk'.code = some code)
    (isClosed_eq : desk'.isClosed = desk.isClosed) (calls_eq : desk'.calls = desk.calls) :
    Debounced window now (taken ++ [⟨now, code⟩]) begun desk' (some (now + window)) where
  isOpen := isClosed_eq.trans debounced.isOpen
  uncalled := calls_eq.trans debounced.uncalled
  stage := stage
  taken_le := by
    intro draft mem
    rcases List.mem_append.1 mem with mem | mem
    · exact debounced.taken_le draft mem
    · exact Int.le_of_eq (congrArg Taken.time (List.mem_singleton.1 mem))
  begun_le := debounced.begun_le
  sorted := by
    refine List.pairwise_append.2 ⟨debounced.sorted, List.pairwise_singleton _ _, ?_⟩
    intro draft mem last single
    rw [List.mem_singleton.1 single]
    exact debounced.taken_le draft mem
  ascending := debounced.ascending
  -- The source behind a request that has started is older than the new one.
  right := by
    intro start mem
    have start_le := debounced.begun_le start mem
    obtain ⟨due, last⟩ := debounced.right start mem
    have other : (Taken.mk now code).time ≠ start.time - window := by
      dsimp only
      omega
    refine ⟨(isDue_concat positive start_le).2 due, ?_⟩
    rw [lastTakenAt?_concat_of_ne other]
    exact last
  complete := by
    intro time early due
    refine (debounced.complete time early ((isDue_concat positive early).1 due)).imp_right ?_
    intro under
    exact absurd (calm time under) (Int.not_lt.2 early)
  rested := fun idle => nomatch idle
  newest := by
    rintro time ⟨⟩
    refine ⟨⟨now, code⟩, List.getLast?_concat .., rfl, code_eq, ?_⟩
    intro start mem
    have := debounced.begun_le start mem
    omega

theorem start (debounced : Debounced window now taken begun desk (some now)) {request : Request}
    (code : desk.code = some request.code) (stage : desk'.Stage window now none)
    (isClosed_eq : desk'.isClosed = desk.isClosed) (calls_eq : desk'.calls = desk.calls) :
    Debounced window now taken (begun ++ [⟨now, request⟩]) desk' none := by
  obtain ⟨draft, last, now_eq, code', earlier⟩ := debounced.newest now rfl
  have latest := time_le_of_getLast? debounced.sorted last
  exact
    { isOpen := isClosed_eq.trans debounced.isOpen
      uncalled := calls_eq.trans debounced.uncalled
      stage := stage
      taken_le := debounced.taken_le
      begun_le := by
        intro start mem
        rcases List.mem_append.1 mem with mem | mem
        · exact debounced.begun_le start mem
        · exact Int.le_of_eq (congrArg Begun.time (List.mem_singleton.1 mem))
      sorted := debounced.sorted
      ascending := by
        refine List.pairwise_append.2 ⟨debounced.ascending, List.pairwise_singleton _ _, ?_⟩
        intro start mem other single
        rw [List.mem_singleton.1 single]
        exact earlier start mem
      right := by
        intro start mem
        rcases List.mem_append.1 mem with mem | mem
        · exact debounced.right start mem
        -- What was under way is a window after the newest source.
        · obtain rfl := List.mem_singleton.1 mem
          refine ⟨now_eq ▸ isDue_of_getLast? debounced.sorted last, draft, ?_, ?_⟩
          · have time_eq : now - window = draft.time := by omega
            rw [time_eq]
            exact lastTakenAt?_of_getLast? last
          · exact Option.some.inj (code.symm.trans code')
      complete := by
        intro time early due
        left
        rcases debounced.complete time early due with ⟨start, mem, time_eq⟩ | under
        · exact ⟨start, List.mem_append_left _ mem, time_eq⟩
        · obtain rfl : now = time := Option.some.inj under
          exact ⟨⟨now, request⟩, List.mem_append_right _ (List.mem_singleton_self _), rfl⟩
      rested := by
        intro _ other mem
        have := latest other mem
        omega
      newest := fun _ under => nomatch under }

end Debounced

namespace World

variable {world : World} {window : Int} {taken : List Taken} {begun : List Begun}
  {pending : Option Int}

theorem lt_of_calm (positive : 0 < window) (calm : world.IsCalm)
    (stage : world.desk.Stage window world.now pending) :
    ∀ time, pending = some time → world.now < time := by
  rintro time rfl
  cases stage with
  | opened number timers => omega
  | held number _ timers =>
      refine calm.2 ⟨time, .closeDebounce number⟩ ?_ rfl
      rw [show world.timers = _ from timers]
      exact List.mem_singleton_self _
  | spawned timers spawned =>
      refine absurd (spawned_pos.1 ?_) calm.1
      rw [spawned]
      exact Nat.one_pos

theorem stage_pass {span : Nat} (punctual : world.IsPunctual span)
    (stage : world.desk.Stage window world.now pending) :
    world.desk.Stage window (world.now + span) pending := by
  have ends {task : Appointment} (timers : world.desk.timers = [task]) :
      world.now + span ≤ task.due := by
    refine punctual.2 task ?_
    rw [show world.timers = _ from timers]
    exact List.mem_singleton_self _
  cases stage with
  | idle timers spawned => exact .idle timers spawned
  | opened number timers spawned =>
      have span_eq : world.now + span = world.now := by
        have := ends timers
        dsimp only at this
        omega
      rw [span_eq]
      exact .opened number timers spawned
  | held number time timers spawned early => exact .held number time timers spawned (ends timers)
  | spawned timers spawned =>
      have span_eq : world.now + span = world.now := by
        have : ¬0 < span := fun passes => punctual.1 passes (spawned_pos.1 (by simp [spawned]))
        omega
      rw [span_eq]
      exact .spawned timers spawned

theorem now_move {move : Move} (h : ∀ span, move ≠ .pass span) :
    (world.move move).1.now = world.now := by
  cases move with
  | pass span => exact absurd rfl (h span)
  | work index =>
      simp only [World.move, work]
      split
      · split <;> simp
      · rfl
  | answer index answer =>
      simp only [World.move, World.answer]
      split <;> simp
  | _ => exact act_now _

theorem debounced_of_drafts (positive : 0 < window)
    (debounced : Debounced window world.now taken begun world.desk pending) {move : Move}
    {requests : List Request} {desk : Desk} (drafts : world.Drafts move requests desk)
    (undisturbed : (Transition.mk world move).Undisturbed window)
    (stays : ∀ span, move ≠ .pass span) :
    ∃ pending, Debounced window world.now (taken ++ (Transition.mk world move).taken?.toList)
      (begun ++ requests.map fun request => ⟨world.now, request⟩) desk pending := by
  have isOpen : world.controller.isClosed = false := debounced.isOpen
  have same : world.controller.debounceTime.microseconds = window := undisturbed.1
  have still (index : Nat) :
      taken ++ (Transition.mk world (.work index)).taken?.toList = taken := List.append_nil _
  cases drafts with
  | rest _ untaken =>
      rw [Transition.taken?_eq_none (untaken.resolve_left (by simp [isOpen]))]
      simpa using ⟨pending, debounced⟩
  | edit code =>
      have calm : world.IsCalm := undisturbed.2
      have unspawned : world.desk.spawned = 0 :=
        Nat.eq_zero_of_not_pos fun pos => calm.1 (spawned_pos.1 pos)
      rw [List.map_nil, List.append_nil]
      have early := lt_of_calm positive calm debounced.stage
      exact ⟨some (world.now + window),
        debounced.edit positive early code (.opened _ rfl unspawned) rfl rfl rfl⟩
  | close | call | retry => exact undisturbed.2.elim
  | openWindow index number due inForce timers late =>
      obtain ⟨rfl, unspawned⟩ := debounced.stage.of_openDebounce timers
      rw [List.map_nil, List.append_nil, still, same]
      exact ⟨_, debounced.with_desk (.held number _ rfl unspawned (by omega)) rfl rfl rfl⟩
  | closeWindow index number due inForce timers late =>
      obtain ⟨rfl, unspawned, early⟩ := debounced.stage.of_closeDebounce timers
      obtain rfl : due = world.now := Int.le_antisymm late early
      rw [List.map_nil, List.append_nil, still]
      exact ⟨_, debounced.with_desk (.spawned rfl (congrArg (· + 1) unspawned)) rfl rfl rfl⟩
  | start index count request spawned isOpen code =>
      obtain ⟨timers, rfl, rfl⟩ := debounced.stage.of_spawned spawned
      rw [still]
      exact ⟨none, debounced.start code (.idle timers rfl) rfl rfl⟩
  | skip index count spawned idle =>
      obtain ⟨-, -, rfl⟩ := debounced.stage.of_spawned spawned
      obtain ⟨draft, -, -, code, -⟩ := debounced.newest world.now rfl
      have code : world.controller.code = some draft.code := code
      simp [isOpen, code] at idle
  | refresh index count request calls | ignore index count calls =>
      rw [debounced.uncalled] at calls
      exact absurd calls (Nat.succ_ne_zero count).symm

theorem debounced_move (drafted : world.Drafted) (positive : 0 < window)
    (debounced : Debounced window world.now taken begun world.desk pending) {move : Move}
    (undisturbed : (Transition.mk world move).Undisturbed window) :
    ∃ pending, Debounced window (world.move move).1.now
      (taken ++ (Transition.mk world move).taken?.toList)
      (begun ++ (Transition.mk world move).begun) (world.move move).1.desk pending := by
  by_cases passes : ∃ span, move = .pass span
  · obtain ⟨span, rfl⟩ := passes
    have punctual : world.IsPunctual span := undisturbed.2
    have forward : world.now ≤ world.now + span :=
      Int.le_add_of_nonneg_right (Int.natCast_nonneg span)
    have none_taken : taken ++ (Transition.mk world (.pass span)).taken?.toList = taken :=
      List.append_nil _
    have none_begun : begun ++ (Transition.mk world (.pass span)).begun = begun :=
      List.append_nil _
    rw [none_taken, none_begun]
    exact ⟨pending, debounced.pass forward (stage_pass punctual debounced.stage)⟩
  · have stays : ∀ span, move ≠ .pass span := fun span eq => passes ⟨span, eq⟩
    rw [now_move stays]
    exact debounced_of_drafts positive debounced (drafts_move drafted move) undisturbed stays

theorem debounced_afterAll (setup : Setup) (positive : 0 < window) (moves : List Move)
    (undisturbed : ∀ transition ∈ (start setup).run moves, transition.Undisturbed window) :
    ∃ pending, Debounced window ((start setup).afterAll moves).now ((start setup).taken moves)
      ((start setup).begun moves) ((start setup).afterAll moves).desk pending := by
  induction moves using List.reverseRecOn with
  | nil =>
      refine ⟨none, rfl, rfl, .idle rfl rfl, ?_, ?_, .nil, .nil, ?_, ?_, ?_, ?_⟩
      all_goals simp [taken, begun, run, IsDue]
  | append_singleton moves move ih =>
      rw [run_append] at undisturbed
      obtain ⟨pending, debounced⟩ := ih fun transition mem =>
        undisturbed transition (List.mem_append_left _ mem)
      rw [taken_concat, begun_concat, afterAll_concat]
      refine debounced_move (drafted_run setup moves).1 positive debounced (undisturbed _ ?_)
      exact List.mem_append_right _ (List.mem_singleton_self _)

/-- Whether all that is to start by a time has had its chance. -/
def IsOver (world : World) (time : Int) : Prop :=
  time < world.now ∨ time = world.now ∧ world.IsCalm

theorem begins_iff_isDue (positive : 0 < window)
    (debounced : Debounced window world.now taken begun world.desk pending) {time : Int}
    (ended : world.IsOver time) :
    (∃ start ∈ begun, start.time = time) ↔ IsDue window taken time := by
  constructor
  · rintro ⟨start, mem, rfl⟩
    exact (debounced.right start mem).1
  · intro due
    have late : time ≤ world.now := ended.elim Int.le_of_lt fun now => Int.le_of_eq now.1
    refine (debounced.complete time late due).resolve_right ?_
    rintro rfl
    rcases ended with ended | ⟨rfl, calm⟩
    · cases debounced.stage <;> omega
    · exact Int.lt_irrefl _ (lt_of_calm positive calm debounced.stage _ rfl)

/-! ## Refreshes -/

/-- Whether a debounce has been in force and is so no longer. -/
structure IsSpent (number : Nat) (world : World) : Prop where
  number_lt : number < world.controller.nextJob
  debounce_ne : world.controller.debounce ≠ some number

theorem isSpent_move {number : Nat} (drafted : world.Drafted) (spent : world.IsSpent number)
    (move : Move) : (world.move move).1.IsSpent number where
  number_lt := Nat.lt_of_lt_of_le spent.number_lt (nextJob_le_move drafted.steady.sound move)
  debounce_ne := by
    have kept {requests : List Request} {desk : Desk} (drafts : world.Drafts move requests desk) :
        desk.debounce ≠ some number := by
      cases drafts with
      | edit => exact fun eq => Nat.ne_of_gt spent.number_lt (Option.some.inj eq)
      | close | closeWindow | refresh => exact fun eq => nomatch eq
      | rest | call | retry | openWindow | start | skip | ignore => exact spent.debounce_ne
    exact kept (drafts_move drafted move)

theorem isSpent_run {number : Nat} (drafted : world.Drafted) (spent : world.IsSpent number)
    (moves : List Move) :
    ∀ transition ∈ world.run moves, transition.before.Drafted ∧
      transition.before.IsSpent number :=
  (invariant (motive := fun world => world.Drafted ∧ world.IsSpent number)
    (fun _ move h => ⟨drafted_move h.1 move, isSpent_move h.1 h.2 move⟩) moves
    ⟨drafted, spent⟩).2

end World

theorem Controller.requested_of_refresh {controller : Controller}
    (silent : controller.notices = []) (isOpen : controller.isClosed = false) {code : String}
    (taken : controller.code = some code) (caller : String) :
    (controller.refresh caller).notices.filterMap Notice.requested? =
        [⟨code, controller.version + 1, controller.requestOptions, .caller caller⟩] ∧
      (controller.refresh caller).debounce = none := by
  have refreshes : controller.refresh caller =
      controller.callOffDebounce.request (.caller caller) := if_neg (by simp [isOpen, taken])
  have released := controller.callOffDebounce_eq
  have taken' : controller.callOffDebounce.code = some code := by
    rw [released]
    exact taken
  rw [refreshes, request_eq _ _ taken', released]
  refine ⟨?_, rfl⟩
  simp only [silent, List.nil_append, List.filterMap_append, filterMap_hurry]
  rfl

namespace Transition

variable {transition : Transition} {job : Job}

theorem move_of_performs (performs : transition.Performs job) :
    ∃ index, transition.before.move transition.move =
      (transition.before.without index).act (·.perform job) := by
  obtain ⟨index, task, move_eq, found, late, rfl⟩ := performs
  refine ⟨index, ?_⟩
  rw [move_eq, World.move, World.work, found]
  exact if_pos late

/-- A refresh starts one request at once, and what was in force is so no longer. -/
theorem starts_of_refresh (silent : transition.before.controller.notices = []) {caller : String}
    (performs : transition.Performs (.refresh caller))
    (isOpen : transition.before.controller.isClosed = false) {code : String}
    (taken : transition.before.controller.code = some code) :
    (∃ request, transition.notices.filterMap Notice.requested? = [request] ∧
        request.code = code) ∧
      transition.after.controller.debounce = none := by
  obtain ⟨index, move_eq⟩ := move_of_performs performs
  obtain ⟨requests, released⟩ :=
    Controller.requested_of_refresh silent isOpen taken caller
  rw [notices, after, move_eq, World.act_notices, World.act_controller]
  exact ⟨⟨_, requests, rfl⟩, released⟩

/-- The job of a debounce that is not in force starts no request and spawns none. -/
theorem silent_of_isSpent (silent : transition.before.controller.notices = []) {number : Nat}
    (spent : transition.before.IsSpent number) (isOf : job.debounce? = some number)
    (performs : transition.Performs job) :
    transition.notices.filterMap Notice.requested? = [] ∧
      transition.notices.countP Notice.isSpawn = 0 := by
  obtain ⟨index, move_eq⟩ := move_of_performs performs
  have ends : transition.before.controller.perform job =
      transition.before.controller.finish number := by
    cases job <;> cases isOf <;> exact if_neg spent.debounce_ne
  obtain ⟨given, given_eq, -, requests, spawned⟩ :=
    (transition.before.controller.aside_finish number none).adds
  rw [notices, move_eq, World.act_notices,
    show (transition.before.without index).controller = transition.before.controller from rfl,
    ends, given_eq, silent, List.nil_append]
  exact ⟨requests, spawned⟩

end Transition

namespace World

/-- Two edits, the second half a second after the first, and the request that follows them. -/
def hastyEdits : List Move :=
  [.edit "a", .work 0, .pass 500000, .edit "b", .work 0, .work 0, .pass 1000000, .work 0, .work 0]

/-- A refresh while a debounce is in force, which then ends. -/
def hastyRefresh : List Move :=
  [.edit "a", .work 0, .refresh "", .work 1, .work 0]

end World

end ComponentPreview
