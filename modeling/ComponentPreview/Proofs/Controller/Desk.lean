import ComponentPreview.Proofs.Controller.Draft

/-!
# The desk of a world

The desk of a world is what there is of drafts: the source, the debounce in force with its task, the
requests that were spawned and the refreshes that were called for. It is said here once what a move
makes of the desk and which requests it starts.
-/

namespace ComponentPreview

structure Desk where
  code : Option String
  isClosed : Bool
  debounce : Option Nat
  /-- The tasks of the debounce in force. -/
  timers : List Appointment
  /-- How many requests were spawned and have not started. -/
  spawned : Nat
  /-- How many refreshes were called for and have not begun. -/
  calls : Nat

namespace World

def timers (world : World) : List Appointment :=
  world.tasks.filter fun task => task.job.isFor world.controller.debounce

def desk (world : World) : Desk where
  code := world.controller.code
  isClosed := world.controller.isClosed
  debounce := world.controller.debounce
  timers := world.timers
  spawned := world.count Job.isRequest
  calls := world.count Job.isRefresh

/-- The requests that a move starts and the desk after it. -/
inductive Drafts (world : World) : Move → List Request → Desk → Prop
  | rest (move : Move) : (world.controller.isClosed = true ∨ ∀ code, move ≠ .edit code) →
      Drafts world move [] world.desk
  | edit (code : String) : world.controller.isClosed = false →
      Drafts world (.edit code) []
        { world.desk with
          code := some code
          debounce := some world.controller.nextJob
          timers := [⟨world.now, .openDebounce world.controller.nextJob⟩] }
  | close : Drafts world .close []
      { world.desk with isClosed := true, debounce := none, timers := [] }
  | call (caller : String) : Drafts world (.refresh caller) []
      { world.desk with calls := world.desk.calls + 1 }
  | retry (message : LifecycleMessage) (count : Nat) : Drafts world (.message message) []
      { world.desk with spawned := world.desk.spawned + count }
  | openWindow (index number : Nat) (due : Int) : world.controller.debounce = some number →
      world.timers = [⟨due, .openDebounce number⟩] → due ≤ world.now →
      Drafts world (.work index) []
        { world.desk with
          timers := [⟨world.now + world.controller.debounceTime.microseconds,
            .closeDebounce number⟩] }
  | closeWindow (index number : Nat) (due : Int) : world.controller.debounce = some number →
      world.timers = [⟨due, .closeDebounce number⟩] → due ≤ world.now →
      Drafts world (.work index) []
        { world.desk with
          debounce := none
          timers := []
          spawned := world.desk.spawned + 1 }
  | start (index spawned : Nat) (request : Request) : world.desk.spawned = spawned + 1 →
      world.controller.isClosed = false → world.controller.code = some request.code →
      Drafts world (.work index) [request] { world.desk with spawned }
  | skip (index spawned : Nat) : world.desk.spawned = spawned + 1 →
      world.controller.isClosed = true ∨ world.controller.code = none →
      Drafts world (.work index) [] { world.desk with spawned }
  | refresh (index calls : Nat) (request : Request) : world.desk.calls = calls + 1 →
      world.controller.isClosed = false → world.controller.code = some request.code →
      Drafts world (.work index) [request]
        { world.desk with debounce := none, timers := [], calls }
  | ignore (index calls : Nat) : world.desk.calls = calls + 1 →
      world.controller.isClosed = true ∨ world.controller.code = none →
      Drafts world (.work index) [] { world.desk with calls }

/-- Every debounce among the tasks was given its number. -/
def Dealt (world : World) : Prop :=
  ∀ task ∈ world.tasks, ∀ number, task.job.debounce? = some number →
    number < world.controller.nextJob

/-- What does not depend on the desk: debounces are dealt in order, and the objection is given once
and for all. -/
structure Inherits (objection : Json → Option Breakdown) (world : World) : Prop where
  dealt : world.Dealt
  objection_eq : world.controller.objection = objection

/-- The debounce in force, if there is one, has one task. -/
structure Drafted (world : World) : Prop where
  steady : world.Steady
  dealt : world.Dealt
  timers_eq : ∀ number, world.controller.debounce = some number →
    ∃ due, world.timers = [⟨due, .openDebounce number⟩] ∨
      world.timers = [⟨due, .closeDebounce number⟩]

theorem drafted_start (setup : Setup) : (start setup).Drafted where
  steady := steady_start setup
  dealt := by simp [Dealt, start]
  timers_eq := by simp [start, Setup.controller]

end World

namespace Controller

/-- A controller about to act that has so far only hurried what it no longer wants. -/
structure Releases (before middle : Controller) : Prop where
  objection_eq : middle.objection = before.objection
  nextJob_eq : middle.nextJob = before.nextJob
  hurries : ∀ notice ∈ middle.notices, ∃ number, notice = .hurry number ∧
    middle.debounce ≠ some number

variable {before middle after : Controller} {requests : List Request} {spawned : Nat}

theorem Releases.refl (silent : before.notices = []) : Releases before before :=
  ⟨rfl, rfl, by simp [silent]⟩

theorem releases_callOffDebounce (silent : before.notices = []) :
    Releases before before.callOffDebounce := by
  rw [before.callOffDebounce_eq]
  refine ⟨rfl, rfl, ?_⟩
  intro notice mem
  simp only [silent, List.nil_append, Option.mem_toList, Option.map_eq_some_iff] at mem
  obtain ⟨number, -, rfl⟩ := mem
  exact ⟨number, rfl, by simp⟩

theorem Numbered.callOffDebounce (numbered : before.Numbered) :
    before.callOffDebounce.Numbered := by
  rw [before.callOffDebounce_eq]
  exact ⟨numbered.deadline_lt, by simp, by simp⟩

/-- What the notices come to when an operation follows. -/
theorem Releases.sums (releases : Releases before middle)
    (aside : Aside requests spawned middle after) :
    (∀ notice ∈ after.notices, notice.LeavesDraft after.debounce) ∧
      after.notices.filterMap Notice.requested? = requests ∧
      after.notices.countP Notice.isSpawn = spawned := by
  obtain ⟨notices, notices_eq, leaves, requests_eq, spawned_eq⟩ := aside.adds
  rw [notices_eq, aside.debounce_eq]
  refine ⟨?_, ?_, ?_⟩
  · intro notice mem
    rcases List.mem_append.1 mem with mem | mem
    · obtain ⟨number, rfl, apart⟩ := releases.hurries notice mem
      exact apart
    · exact leaves notice mem
  · have silent : middle.notices.filterMap Notice.requested? = [] := by
      rw [List.filterMap_eq_nil_iff]
      intro notice mem
      obtain ⟨number, rfl, -⟩ := releases.hurries notice mem
      rfl
    rw [List.filterMap_append, requests_eq, silent, List.nil_append]
  · have silent : middle.notices.countP Notice.isSpawn = 0 := by
      rw [List.countP_eq_zero]
      intro notice mem
      obtain ⟨number, rfl, -⟩ := releases.hurries notice mem
      exact Bool.false_ne_true
    rw [List.countP_append, spawned_eq, silent, Nat.zero_add]

theorem isClosed_close (controller : Controller) : controller.close.isClosed = true := by
  cases isClosed : controller.isClosed with
  | true => rw [controller.close_of_closed isClosed, isClosed]
  | false => rw [controller.close_eq isClosed]

end Controller

namespace World

variable {world : World} {action : Controller → Controller}

theorem timers_act
    (leaves : ∀ notice ∈ (action world.controller).notices,
      notice.LeavesDraft (action world.controller).debounce) :
    (world.act action).1.timers =
      world.tasks.filter fun task => task.job.isFor (action world.controller).debounce := by
  have unhurried : ∀ number, .hurry number ∈ (action world.controller).notices →
      ∀ job : Job, job.isFor (action world.controller).debounce = true →
        job.number? ≠ some number := by
    intro number mem job isFor meant
    have apart : (action world.controller).debounce ≠ some number := leaves _ mem
    cases debounce : (action world.controller).debounce with
    | none =>
        rw [debounce, Job.isFor_none] at isFor
        exact Bool.false_ne_true isFor
    | some other =>
        rw [debounce, Job.isFor_some] at isFor
        rw [Job.number?_of_debounce? isFor] at meant
        exact apart (debounce.trans meant)
  rw [timers, act_controller]
  refine (filter_tasks_act unhurried).trans ?_
  -- No notice gives a task of a debounce.
  have ungiven : ((action world.controller).notices.filterMap (Notice.task? world.now)).filter
      (fun task => task.job.isFor (action world.controller).debounce) = [] := by
    rw [List.filter_eq_nil_iff]
    intro task mem isFor
    obtain ⟨notice, mem, given⟩ := List.mem_filterMap.1 mem
    have job_eq : notice.job? = some task.job := by
      cases notice <;> cases given <;> rfl
    have none := ((leaves notice mem).debounce?_eq job_eq).1
    simp [Job.isFor, none] at isFor
  rw [ungiven, List.append_nil]

theorem desk_act
    (leaves : ∀ notice ∈ (action world.controller).notices,
      notice.LeavesDraft (action world.controller).debounce) :
    (world.act action).1.desk =
      { code := (action world.controller).code
        isClosed := (action world.controller).isClosed
        debounce := (action world.controller).debounce
        timers := world.tasks.filter fun task => task.job.isFor (action world.controller).debounce
        spawned := world.desk.spawned + (action world.controller).notices.countP Notice.isSpawn
        calls := world.desk.calls } := by
  have calls : (world.act action).1.count Job.isRefresh = world.count Job.isRefresh := by
    have uncalled : (action world.controller).notices.countP
        (fun notice => notice.job?.any Job.isRefresh) = 0 := by
      rw [List.countP_eq_zero]
      intro notice mem called
      obtain ⟨job, given, isRefresh⟩ := (Option.any_eq_true ..).1 called
      rw [((leaves notice mem).debounce?_eq given).2] at isRefresh
      exact Bool.false_ne_true isRefresh
    rw [count_act, uncalled, Nat.add_zero]
  rw [desk, timers_act leaves, calls, count_act, act_controller]
  rfl

theorem dealt_act (dealt : world.Dealt)
    (nextJob_le : world.controller.nextJob ≤ (action world.controller).nextJob)
    (given : ∀ notice ∈ (action world.controller).notices, ∀ job, notice.job? = some job →
      ∀ number, job.debounce? = some number → number < (action world.controller).nextJob) :
    (world.act action).1.Dealt := by
  intro task mem number isOf
  rw [act_controller]
  rcases tasks_foldl_heed mem with ⟨old, old_mem, job_eq, -⟩ | ⟨notice, mem, job_eq⟩
  · exact Nat.lt_of_lt_of_le (dealt old old_mem number (job_eq ▸ isOf)) nextJob_le
  · exact given notice mem task.job job_eq number isOf

/-- What becomes of the desk when what is in force is released and then an operation follows that
leaves the draft alone. -/
theorem act_of_aside (action : Controller → Controller) (dealt : world.Dealt)
    {middle : Controller} {requests : List Request} {spawned : Nat}
    (releases : world.controller.Releases middle)
    (aside : Controller.Aside requests spawned middle (action world.controller)) :
    (world.act action).1.desk =
        { code := middle.code
          isClosed := middle.isClosed
          debounce := middle.debounce
          timers := world.tasks.filter fun task => task.job.isFor middle.debounce
          spawned := world.desk.spawned + spawned
          calls := world.desk.calls } ∧
      (world.act action).2.filterMap Notice.requested? = requests ∧
      (world.act action).1.Inherits world.controller.objection := by
  obtain ⟨leaves, requests_eq, spawned_eq⟩ := releases.sums aside
  refine ⟨?_, requests_eq, ?_, ?_⟩
  · rw [desk_act leaves, spawned_eq, aside.code_eq, aside.isClosed_eq, aside.debounce_eq]
  · refine dealt_act dealt (releases.nextJob_eq ▸ aside.nextJob_le) ?_
    intro notice mem job given number isOf
    rw [((leaves notice mem).debounce?_eq given).1] at isOf
    cases isOf
  · rw [act_controller]
    exact aside.objection_eq.trans releases.objection_eq

/-- The same when all that is in force stays so. -/
theorem act_of_aside_of_silent (action : Controller → Controller) (dealt : world.Dealt)
    (silent : world.controller.notices = [])
    {requests : List Request} {spawned : Nat}
    (aside : Controller.Aside requests spawned world.controller (action world.controller)) :
    (world.act action).1.desk = { world.desk with spawned := world.desk.spawned + spawned } ∧
      (world.act action).2.filterMap Notice.requested? = requests ∧
      (world.act action).1.Inherits world.controller.objection :=
  act_of_aside action dealt (.refl silent) aside

theorem desk_task (world : World) (task : Appointment) :
    { world with tasks := world.tasks ++ [task] }.desk =
      { world.desk with
        timers := world.timers ++
          if task.job.isFor world.controller.debounce then [task] else []
        spawned := world.desk.spawned + if task.job.isRequest then 1 else 0
        calls := world.desk.calls + if task.job.isRefresh then 1 else 0 } := by
  have timers : { world with tasks := world.tasks ++ [task] }.timers = world.timers ++
      if task.job.isFor world.controller.debounce then [task] else [] := by
    simp [World.timers, List.filter_append, List.filter_cons]
  have count (p : Job → Bool) : { world with tasks := world.tasks ++ [task] }.count p =
      world.count p + if p task.job then 1 else 0 := by
    cases h : p task.job <;> simp [World.count, List.countP_append, h]
  rw [desk, timers, count, count]
  rfl

section Edit

variable (silent : world.controller.notices = []) (isOpen : world.controller.isClosed = false)
  (code : String)

include silent isOpen

theorem notices_edit :
    (world.controller.edit code).notices =
      (world.controller.debounce.map Notice.hurry).toList ++
        [.post (.openDebounce world.controller.nextJob)] := by
  rw [world.controller.edit_eq isOpen code]
  simp [Controller.taking, Controller.note, silent]

theorem timers_edit (dealt : world.Dealt) (debounce_lt : ∀ number,
      world.controller.debounce = some number → number < world.controller.nextJob) :
    (world.act (·.edit code)).1.timers =
      [⟨world.now, .openDebounce world.controller.nextJob⟩] := by
  have notices := notices_edit silent isOpen code
  have debounce : (world.act (·.edit code)).1.controller.debounce =
      some world.controller.nextJob := by
    rw [act_controller, world.controller.edit_eq isOpen code]
    rfl
  rw [World.timers, debounce]
  refine (filter_tasks_act ?_).trans ?_
  · intro number mem job isFor meant
    rw [notices] at mem
    rw [Job.number?_of_debounce? (Job.isFor_some.1 isFor)] at meant
    simp only [List.mem_append, Option.mem_toList, Option.map_eq_some_iff, List.mem_singleton,
      reduceCtorEq, or_false, Notice.hurry.injEq] at mem
    obtain ⟨old, inForce, rfl⟩ := mem
    exact Nat.ne_of_gt (debounce_lt old inForce) (Option.some.inj meant)
  · have old : world.tasks.filter
        (fun task => task.job.isFor (some world.controller.nextJob)) = [] := by
      rw [List.filter_eq_nil_iff]
      intro task mem isFor
      exact Nat.lt_irrefl _ (dealt task mem _ (Job.isFor_some.1 isFor))
    have meant : (Job.openDebounce world.controller.nextJob).isFor
        (some world.controller.nextJob) = true := Job.isFor_some.2 rfl
    rw [old, notices]
    cases world.controller.debounce <;>
      simp [List.filterMap_cons, Notice.task?, meant]

theorem desk_edit (dealt : world.Dealt) (debounce_lt : ∀ number,
      world.controller.debounce = some number → number < world.controller.nextJob) :
    (world.act (·.edit code)).1.desk =
      { world.desk with
        code := some code
        debounce := some world.controller.nextJob
        timers := [⟨world.now, .openDebounce world.controller.nextJob⟩] } := by
  have count (p : Job → Bool) (other : ∀ number, p (.openDebounce number) = false) :
      (world.act (·.edit code)).1.count p = world.count p := by
    rw [count_act, notices_edit silent isOpen code]
    cases world.controller.debounce <;> simp [Notice.job?, other, count]
  rw [desk, timers_edit silent isOpen code dealt debounce_lt, count _ fun _ => rfl,
    count _ fun _ => rfl, act_controller, world.controller.edit_eq isOpen code]
  rfl

end Edit

/-! ## Moves -/

/-- Whether what a move comes to is one of the cases. -/
def Follows (world : World) (move : Move) (next : World × List Notice) : Prop :=
  world.Drafts move (next.2.filterMap Notice.requested?) next.1.desk ∧
    next.1.Inherits world.controller.objection

theorem follows_of_aside (action : Controller → Controller) {base : World}
    (desk_eq : base.desk = world.desk)
    (objection_eq : base.controller.objection = world.controller.objection) (dealt : base.Dealt)
    (silent : base.controller.notices = [])
    (aside : Controller.Aside [] 0 base.controller (action base.controller)) {move : Move}
    (untaken : world.controller.isClosed = true ∨ ∀ code, move ≠ .edit code) :
    world.Follows move (base.act action) := by
  obtain ⟨desk, requests, inherits⟩ := act_of_aside_of_silent action dealt silent aside
  refine ⟨?_, inherits.dealt, inherits.objection_eq.trans objection_eq⟩
  rw [requests, desk, desk_eq]
  exact .rest move untaken

section Work

/-- A world where one task is taken out. -/
def without (world : World) (index : Nat) : World :=
  { world with tasks := world.tasks.eraseIdx index }

variable {index : Nat} {task : Appointment}

theorem count_eraseIdx (p : Job → Bool) (found : world.tasks[index]? = some task) :
    world.count p = (world.without index).count p +
      if p task.job then 1 else 0 :=
  countP_eraseIdx _ found

theorem desk_eraseIdx (found : world.tasks[index]? = some task)
    (other : task.job.isFor world.controller.debounce = false) :
    (world.without index).desk =
      { world.desk with
        spawned := (world.without index).desk.spawned
        calls := (world.without index).desk.calls } := by
  have timers : (world.without index).timers = world.timers :=
    filter_eraseIdx_of_false found other
  rw [desk, timers]
  rfl

theorem desk_eraseIdx_of_rest (found : world.tasks[index]? = some task)
    (other : task.job.isFor world.controller.debounce = false)
    (unspawned : task.job.isRequest = false) (uncalled : task.job.isRefresh = false) :
    (world.without index).desk = world.desk := by
  have spawned := count_eraseIdx Job.isRequest found
  have calls := count_eraseIdx Job.isRefresh found
  simp only [unspawned, uncalled, Bool.false_eq_true, if_false, Nat.add_zero] at spawned calls
  rw [desk_eraseIdx found other, desk, spawned, calls]
  rfl

/-- The task of the debounce in force is done. -/
theorem desk_eraseIdx_of_timer (drafted : world.Drafted)
    (found : world.tasks[index]? = some task) {number : Nat}
    (inForce : world.controller.debounce = some number)
    (isOf : task.job.debounce? = some number) :
    world.timers = [task] ∧
      (world.without index).desk = { world.desk with timers := [] } := by
  have isFor : task.job.isFor world.controller.debounce = true := by
    rw [inForce]
    exact Job.isFor_some.2 isOf
  obtain ⟨due, single⟩ := drafted.timers_eq number inForce
  obtain ⟨only, single⟩ : ∃ only, world.timers = [only] := by
    rcases single with single | single <;> exact ⟨_, single⟩
  obtain ⟨rfl, none⟩ := filter_eraseIdx_of_singleton found isFor single
  have timers : (world.without index).timers = [] := none
  have unspawned : only.job.isRequest = false := by
    cases h : only.job <;> simp_all [Job.debounce?, Job.isRequest]
  have uncalled : only.job.isRefresh = false := by
    cases h : only.job <;> simp_all [Job.debounce?, Job.isRefresh]
  have spawned := count_eraseIdx Job.isRequest found
  have calls := count_eraseIdx Job.isRefresh found
  simp only [unspawned, uncalled, Bool.false_eq_true, if_false, Nat.add_zero] at spawned calls
  refine ⟨single, ?_⟩
  rw [desk, timers, desk, spawned, calls]
  rfl

theorem Dealt.eraseIdx (dealt : world.Dealt) (index : Nat) :
    (world.without index).Dealt :=
  fun task mem => dealt task (List.mem_of_mem_eraseIdx mem)

/-- A job that is for no draft is done. -/
theorem follows_work_of_aside (drafted : world.Drafted) (found : world.tasks[index]? = some task)
    (other : task.job.isFor world.controller.debounce = false)
    (unspawned : task.job.isRequest = false) (uncalled : task.job.isRefresh = false)
    (aside : Controller.Aside [] 0 world.controller (world.controller.perform task.job)) :
    world.Follows (.work index)
      ((world.without index).act (·.perform task.job)) :=
  follows_of_aside (·.perform task.job) (desk_eraseIdx_of_rest found other unspawned uncalled) rfl
    (drafted.dealt.eraseIdx index) drafted.steady.sound.silent aside
    (.inr fun _ => Move.noConfusion)

theorem follows_openDebounce (drafted : world.Drafted) {number : Nat} {due : Int}
    (found : world.tasks[index]? = some ⟨due, .openDebounce number⟩) (late : due ≤ world.now) :
    world.Follows (.work index)
      ((world.without index).act
        (·.perform (.openDebounce number))) := by
  by_cases inForce : world.controller.debounce = some number
  case neg =>
    refine follows_work_of_aside drafted found ?_ rfl rfl ?_
    · exact Job.isFor_of_ne rfl inForce
    · rw [Controller.perform, Controller.openDebounce, if_neg inForce]
      exact Controller.aside_finish _ _ _
  obtain ⟨timers, desk_eq⟩ := desk_eraseIdx_of_timer drafted found inForce rfl
  have opens : (world.without index).controller.openDebounce number =
      (world.without index).controller.note
        (.hold world.controller.debounceTime.microseconds (.closeDebounce number)) :=
    if_pos inForce
  have isFor :
      (Job.closeDebounce number).isFor (world.without index).controller.debounce = true := by
    rw [show (world.without index).controller.debounce = some number from inForce]
    exact Job.isFor_some.2 rfl
  have held : ((world.without index).heed
      (.hold world.controller.debounceTime.microseconds (.closeDebounce number))).desk =
        { (world.without index).desk with
          timers := (world.without index).desk.timers ++
            [⟨world.now + world.controller.debounceTime.microseconds,
              .closeDebounce number⟩] } := by
    rw [heed, desk_task, if_pos isFor]
    rfl
  have silent : (world.without index).controller.notices = [] := drafted.steady.sound.silent
  rw [act_of_note (·.perform (.openDebounce number)) silent opens]
  refine ⟨?_, ?_, rfl⟩
  · rw [held, desk_eq]
    exact .openWindow index number due inForce timers late
  · intro task mem other isOf
    rcases List.mem_append.1 mem with mem | mem
    · exact drafted.dealt task (List.mem_of_mem_eraseIdx mem) other isOf
    · obtain rfl := List.mem_singleton.1 mem
      obtain rfl : number = other := Option.some.inj isOf
      exact drafted.steady.sound.numbered.debounce_lt number inForce

theorem follows_closeDebounce (drafted : world.Drafted) {number : Nat} {due : Int}
    (found : world.tasks[index]? = some ⟨due, .closeDebounce number⟩) (late : due ≤ world.now) :
    world.Follows (.work index)
      ((world.without index).act
        (·.perform (.closeDebounce number))) := by
  by_cases inForce : world.controller.debounce = some number
  case neg =>
    refine follows_work_of_aside drafted found ?_ rfl rfl ?_
    · exact Job.isFor_of_ne rfl inForce
    · rw [Controller.perform, Controller.closeDebounce, if_neg inForce]
      exact Controller.aside_finish _ _ _
  obtain ⟨timers, desk_eq⟩ := desk_eraseIdx_of_timer drafted found inForce rfl
  have closes : world.controller.closeDebounce number =
      { world.controller with debounce := none }.spawn.finish number :=
    if_pos inForce
  have releases : world.controller.Releases { world.controller with debounce := none } :=
    ⟨rfl, rfl, by simp [drafted.steady.sound.silent]⟩
  have aside : Controller.Aside [] 1 { world.controller with debounce := none }
      (world.controller.perform (.closeDebounce number)) := by
    rw [Controller.perform, closes]
    exact (Controller.aside_spawn _).andThen (Controller.aside_finish _ _ _)
  obtain ⟨desk, requests, inherits⟩ :=
    act_of_aside (·.perform (.closeDebounce number)) (drafted.dealt.eraseIdx index) releases aside
  refine ⟨?_, inherits⟩
  rw [requests, desk, desk_eq]
  simp only [Job.isFor_none, List.filter_false]
  exact .closeWindow index number due inForce timers late

theorem follows_request (drafted : world.Drafted) {number : Nat} {due : Int}
    (found : world.tasks[index]? = some ⟨due, .request number⟩) :
    world.Follows (.work index) ((world.without index).act (·.perform (.request number))) := by
  have desk_eq := desk_eraseIdx found rfl
  have spawned : world.desk.spawned = (world.without index).desk.spawned + 1 :=
    count_eraseIdx Job.isRequest found
  have calls : world.desk.calls = (world.without index).desk.calls :=
    count_eraseIdx Job.isRefresh found
  rw [← calls] at desk_eq
  have silent : (world.without index).controller.notices = [] := drafted.steady.sound.silent
  have numbered : (world.without index).controller.Numbered := drafted.steady.sound.numbered
  have dealt := drafted.dealt.eraseIdx index
  have undisturbed : world.controller.isCalledOff (.job number) = false := by
    simp [Controller.isCalledOff, drafted.steady.calledOff_eq]
  rcases (world.without index).controller.perform_request_cases number with
    ⟨idle, ends⟩ | ⟨source, isOpen, code, starts⟩
  · have idle : world.controller.isClosed = true ∨ world.controller.code = none :=
      idle.imp_right (·.resolve_left (Bool.eq_false_iff.1 undisturbed))
    have aside := Controller.aside_finish (world.without index).controller number none
    rw [← ends] at aside
    obtain ⟨desk, requests, inherits⟩ :=
      act_of_aside_of_silent (·.perform (.request number)) dealt silent aside
    refine ⟨?_, inherits⟩
    rw [requests, desk, desk_eq]
    exact .skip index _ spawned idle
  · have aside := Controller.aside_request numbered (.job number) code
    rw [← starts] at aside
    obtain ⟨desk, requests, inherits⟩ :=
      act_of_aside_of_silent (·.perform (.request number)) dealt silent aside
    refine ⟨?_, inherits⟩
    rw [requests, desk, desk_eq]
    exact .start index _ ⟨source, _, _, _⟩ spawned isOpen code

theorem follows_refresh (drafted : world.Drafted) {caller : String} {due : Int}
    (found : world.tasks[index]? = some ⟨due, .refresh caller⟩) :
    world.Follows (.work index) ((world.without index).act (·.perform (.refresh caller))) := by
  have desk_eq := desk_eraseIdx found rfl
  have spawned : world.desk.spawned = (world.without index).desk.spawned :=
    count_eraseIdx Job.isRequest found
  have calls : world.desk.calls = (world.without index).desk.calls + 1 :=
    count_eraseIdx Job.isRefresh found
  rw [← spawned] at desk_eq
  have silent : (world.without index).controller.notices = [] := drafted.steady.sound.silent
  have numbered : (world.without index).controller.Numbered := drafted.steady.sound.numbered
  have dealt := drafted.dealt.eraseIdx index
  rcases (world.without index).controller.refresh_cases caller with
    ⟨idle, returns⟩ | ⟨source, isOpen, code, released, refreshes⟩
  · have aside : Controller.Aside [] 0 (world.without index).controller
        ((world.without index).controller.perform (.refresh caller)) := by
      rw [Controller.perform, returns]
      exact (Controller.Aside.refl _).note rfl
    obtain ⟨desk, requests, inherits⟩ :=
      act_of_aside_of_silent (·.perform (.refresh caller)) dealt silent aside
    refine ⟨?_, inherits⟩
    rw [requests, desk, desk_eq]
    exact .ignore index _ calls idle
  -- The debounce in force is released first, and the request starts without it.
  · have aside := Controller.aside_request numbered.callOffDebounce (.caller caller) released
    rw [← refreshes] at aside
    obtain ⟨desk, requests, inherits⟩ := act_of_aside (·.perform (.refresh caller)) dealt
      (Controller.releases_callOffDebounce silent) aside
    refine ⟨?_, inherits⟩
    rw [requests, desk, desk_eq, (world.without index).controller.callOffDebounce_eq]
    simp only [Job.isFor_none, List.filter_false]
    exact .refresh index _ ⟨source, _, _, _⟩ calls isOpen code

theorem follows_work (drafted : world.Drafted) (found : world.tasks[index]? = some task)
    (late : task.due ≤ world.now) :
    world.Follows (.work index) ((world.without index).act (·.perform task.job)) := by
  have numbered := drafted.steady.sound.numbered
  obtain ⟨due, job⟩ := task
  cases job with
  | openDebounce number => exact follows_openDebounce drafted found late
  | closeDebounce number => exact follows_closeDebounce drafted found late
  | request number => exact follows_request drafted found
  | refresh caller => exact follows_refresh drafted found
  | answer version asker answer =>
      refine follows_work_of_aside drafted found rfl rfl rfl ?_
      simp only [Controller.perform]
      split
      · exact Controller.aside_endFor _ _ _
      · exact (Controller.aside_receive numbered version answer).andThen
          (Controller.aside_endFor _ _ _)
  | retire number =>
      exact follows_work_of_aside drafted found rfl rfl rfl (.of_eq rfl rfl rfl rfl rfl rfl)
  | openDeadline number version =>
      exact follows_work_of_aside drafted found rfl rfl rfl
        (Controller.aside_openDeadline number version)
  | closeDeadline number version =>
      exact follows_work_of_aside drafted found rfl rfl rfl
        (Controller.aside_closeDeadline numbered number version)
  | attend waiter =>
      exact follows_work_of_aside drafted found rfl rfl rfl (Controller.aside_attend waiter)

end Work

theorem follows_rest (drafted : world.Drafted) {move : Move}
    (untaken : world.controller.isClosed = true ∨ ∀ code, move ≠ .edit code) :
    world.Follows move (world, []) :=
  ⟨.rest move untaken, drafted.dealt, rfl⟩

theorem follows_close (drafted : world.Drafted) :
    world.Follows .close (world.act Controller.close) := by
  have silent := drafted.steady.sound.silent
  cases isClosed : world.controller.isClosed with
  | true =>
      refine follows_of_aside Controller.close rfl rfl drafted.dealt silent ?_ (.inl isClosed)
      rw [world.controller.close_of_closed isClosed]
      exact .refl _
  | false =>
      have closed := world.controller.close_eq isClosed
      -- All that closing says is that jobs are hurried and that it is closed.
      have said : ∀ notice ∈ (world.controller.close).notices,
          (∃ number, notice = .hurry number) ∨ notice = .closed := by
        rw [closed]
        simp only [silent, List.nil_append, List.mem_append, Option.mem_toList,
          Option.map_eq_some_iff, List.mem_map, List.mem_singleton]
        rintro notice (((⟨number, -, rfl⟩ | ⟨number, -, rfl⟩) | ⟨number, -, rfl⟩) | rfl)
        · exact .inl ⟨number, rfl⟩
        · exact .inl ⟨number, rfl⟩
        · exact .inl ⟨number, rfl⟩
        · exact .inr rfl
      have debounce : (world.controller.close).debounce = none := by rw [closed]
      have leaves : ∀ notice ∈ (world.controller.close).notices,
          notice.LeavesDraft (world.controller.close).debounce := by
        intro notice mem
        rw [debounce]
        rcases said notice mem with ⟨number, rfl⟩ | rfl
        · exact fun inForce => nomatch inForce
        · trivial
      have unspawned : (world.controller.close).notices.countP Notice.isSpawn = 0 := by
        rw [List.countP_eq_zero]
        intro notice mem
        rcases said notice mem with ⟨number, rfl⟩ | rfl <;> exact Bool.false_ne_true
      have unrequested : (world.controller.close).notices.filterMap Notice.requested? = [] := by
        rw [List.filterMap_eq_nil_iff]
        intro notice mem
        rcases said notice mem with ⟨number, rfl⟩ | rfl <;> rfl
      refine ⟨?_, ?_, by rw [act_controller, closed]⟩
      · rw [act_notices, unrequested, desk_act leaves, debounce, unspawned, closed]
        simp only [Job.isFor_none, List.filter_false]
        exact .close
      · refine dealt_act drafted.dealt (Nat.le_of_eq (by rw [closed])) ?_
        intro notice mem job given
        rcases said notice mem with ⟨number, rfl⟩ | rfl <;> cases given

theorem follows_edit (drafted : world.Drafted) (code : String) :
    world.Follows (.edit code) (world.act (·.edit code)) := by
  have silent := drafted.steady.sound.silent
  have debounce_lt := drafted.steady.sound.numbered.debounce_lt
  cases isClosed : world.controller.isClosed with
  | true =>
      refine follows_of_aside (·.edit code) rfl rfl drafted.dealt silent ?_ (.inl isClosed)
      rw [Controller.edit, if_pos isClosed]
      exact .refl _
  | false =>
      have edited := world.controller.edit_eq isClosed code
      have said : ∀ notice ∈ (world.controller.edit code).notices,
          (∃ number, notice = .hurry number) ∨
            notice = .post (.openDebounce world.controller.nextJob) := by
        rw [edited]
        simp only [Controller.taking, Controller.note, silent, List.nil_append, List.mem_append,
          Option.mem_toList, Option.map_eq_some_iff, List.mem_singleton]
        rintro notice (⟨number, -, rfl⟩ | rfl)
        · exact .inl ⟨number, rfl⟩
        · exact .inr rfl
      have unrequested : (world.controller.edit code).notices.filterMap Notice.requested? = [] := by
        rw [List.filterMap_eq_nil_iff]
        intro notice mem
        rcases said notice mem with ⟨number, rfl⟩ | rfl <;> rfl
      refine ⟨?_, ?_, by rw [act_controller, edited]; rfl⟩
      · rw [act_notices, unrequested, desk_edit silent isClosed code drafted.dealt debounce_lt]
        exact .edit code isClosed
      · have nextJob : (world.controller.edit code).nextJob = world.controller.nextJob + 1 := by
          rw [edited]
          rfl
        refine dealt_act drafted.dealt (nextJob ▸ Nat.le_succ _) ?_
        intro notice mem job given number isOf
        rcases said notice mem with ⟨number, rfl⟩ | rfl
        · cases given
        · cases given
          cases isOf
          exact nextJob ▸ Nat.lt_succ_self _

theorem follows_call (drafted : world.Drafted) (caller : String) :
    world.Follows (.refresh caller) (world.act (·.note (.post (.refresh caller)))) := by
  rw [act_of_note (·.note (.post (.refresh caller))) drafted.steady.sound.silent rfl]
  refine ⟨?_, ?_, rfl⟩
  · rw [heed, desk_task]
    have other : (Job.refresh caller).isFor world.controller.debounce = false := rfl
    simp only [other, Bool.false_eq_true, if_false, List.append_nil]
    exact .call caller
  · intro task mem number isOf
    rcases List.mem_append.1 mem with mem | mem
    · exact drafted.dealt task mem number isOf
    · obtain rfl := List.mem_singleton.1 mem
      cases isOf

/-- What a move can do to the desk. -/
theorem follows_move (drafted : world.Drafted) (move : Move) :
    world.Follows move (world.move move) := by
  have silent := drafted.steady.sound.silent
  have numbered := drafted.steady.sound.numbered
  have dealt := drafted.dealt
  cases move with
  | pass span => exact ⟨.rest (.pass span) (.inr fun _ => Move.noConfusion), dealt, rfl⟩
  | edit code => exact follows_edit drafted code
  | refresh caller => exact follows_call drafted caller
  | fullscreen =>
      exact follows_of_aside Controller.fullscreen rfl rfl dealt silent Controller.aside_fullscreen
        (.inr fun _ => Move.noConfusion)
  | close => exact follows_close drafted
  | message message =>
      obtain ⟨spawned, aside⟩ := Controller.aside_handle numbered message
      obtain ⟨desk, requests, inherits⟩ :=
        act_of_aside_of_silent (·.handle message) dealt silent aside
      refine ⟨?_, inherits⟩
      rw [World.move, requests, desk]
      exact .retry message spawned
  | await waiter poll =>
      refine follows_of_aside
        (fun controller => (controller.await waiter poll).note (.post (.attend waiter))) rfl
        rfl dealt silent ?_ (.inr fun _ => Move.noConfusion)
      exact (Controller.aside_await waiter poll).note rfl
  | work index =>
      have untaken : ∀ code, Move.work index ≠ .edit code := fun _ => Move.noConfusion
      simp only [World.move, work]
      split
      · next task found =>
          split
          · next late => exact follows_work drafted found late
          · exact follows_rest drafted (.inr untaken)
      · exact follows_rest drafted (.inr untaken)
  | answer index answer =>
      have untaken : ∀ code, Move.answer index answer ≠ .edit code := fun _ => Move.noConfusion
      simp only [World.move, World.answer]
      split
      · next request found =>
          have same : desk { world with awaited := world.awaited.eraseIdx index } = world.desk :=
            rfl
          refine follows_of_aside (·.perform (.answer request.version request.asker answer)) same
            rfl dealt silent ?_ (.inr untaken)
          simp only [Controller.perform]
          split
          · exact Controller.aside_endFor _ _ _
          · exact (Controller.aside_receive numbered _ answer).andThen
              (Controller.aside_endFor _ _ _)
      · exact follows_rest drafted (.inr untaken)

theorem drafts_move (drafted : world.Drafted) (move : Move) :
    world.Drafts move ((world.move move).2.filterMap Notice.requested?) (world.move move).1.desk :=
  (follows_move drafted move).1

theorem Drafts.timers_eq {move : Move} {requests : List Request} {desk : Desk}
    (drafts : world.Drafts move requests desk) (drafted : world.Drafted) {number : Nat}
    (inForce : desk.debounce = some number) :
    ∃ due, desk.timers = [⟨due, .openDebounce number⟩] ∨
      desk.timers = [⟨due, .closeDebounce number⟩] := by
  cases drafts with
  | edit code isOpen =>
      cases inForce
      exact ⟨_, .inl rfl⟩
  | openWindow index other due inForce' timers late =>
      obtain rfl : other = number := Option.some.inj (inForce'.symm.trans inForce)
      exact ⟨_, .inr rfl⟩
  | close | closeWindow | refresh => cases inForce
  | rest | call | retry | start | skip | ignore => exact drafted.timers_eq number inForce

theorem drafted_move (drafted : world.Drafted) (move : Move) : (world.move move).1.Drafted where
  steady := steady_move drafted.steady move
  dealt := (follows_move drafted move).2.dealt
  timers_eq _ inForce := (drafts_move drafted move).timers_eq drafted inForce

theorem objection_move (drafted : world.Drafted) (move : Move) :
    (world.move move).1.controller.objection = world.controller.objection :=
  (follows_move drafted move).2.objection_eq

theorem nextJob_le_move (sound : world.Sound) (move : Move) :
    world.controller.nextJob ≤ (world.move move).1.controller.nextJob := by
  rcases move_cases sound.silent move with
    ⟨span, eq⟩ | ⟨action, eq, keeps⟩ | ⟨tasks, awaited, job, -, eq⟩
  · simp [eq]
  · rw [eq, act_controller]
    exact keeps.nextJob_le
  · rw [eq, act_controller]
    by_cases opening : ∃ number version, job = .openDeadline number version
    · obtain ⟨number, version, rfl⟩ := opening
      have same : (world.controller.perform (.openDeadline number version)).nextJob =
          world.controller.nextJob := by
        rw [Controller.perform, Controller.openDeadline_eq]
      exact Nat.le_of_eq same.symm
    · exact (Controller.keeps_perform sound.silent job fun number version eq =>
        opening ⟨number, version, eq⟩).nextJob_le

theorem drafted_run (setup : Setup) (moves : List Move) :
    ((start setup).afterAll moves).Drafted ∧
      ∀ transition ∈ (start setup).run moves, transition.before.Drafted :=
  invariant (motive := Drafted) (fun _ move drafted => drafted_move drafted move) moves
    (drafted_start setup)

end World

end ComponentPreview
