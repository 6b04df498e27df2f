import ComponentPreview.Proofs.Controller.Desk

/-!
# The watch over a rendering

A version that is rendering is watched: a deadline is in force for it, and it has one task. It is
said here once what a move does to the watch, as long as nothing is found wrong with the metadata of
an answer.
-/

namespace ComponentPreview

namespace Job

/-- The deadline whose time a job begins or ends, and the version it is for. -/
def deadline? : Job → Option (Nat × Nat)
  | openDeadline number version | closeDeadline number version => some (number, version)
  | _ => none

/-- Whether a job is for the deadline in force. -/
def isOf (deadline : Option Nat) (job : Job) : Bool :=
  job.deadline?.any fun (number, _) => deadline == some number

theorem isOf_none (job : Job) : job.isOf none = false := by
  cases h : job.deadline? <;> simp [isOf, h]

theorem isOf_iff {job : Job} {number version : Nat} (h : job.deadline? = some (number, version))
    (deadline : Option Nat) : job.isOf deadline = true ↔ deadline = some number := by
  simp [isOf, h]

theorem isOf_of_none {job : Job} (h : job.deadline? = none) (deadline : Option Nat) :
    job.isOf deadline = false := by
  simp [isOf, h]

theorem number?_of_isOf {job : Job} {deadline : Option Nat} (h : job.isOf deadline = true) :
    job.number? = deadline := by
  cases job <;> simp_all [isOf, deadline?, number?]

end Job

namespace Notice

def hurried? : Notice → Option Nat
  | hurry number => some number
  | _ => none

def isDeadline (notice : Notice) : Bool :=
  notice.job?.any (·.deadline?.isSome)

theorem isDeadline_of_isPlain {notice : Notice} (h : notice.isPlain = true) :
    notice.isDeadline = false ∧ notice.hurried? = none := by
  match notice with
  | .post job | .hold _ job =>
      cases job <;> simp_all [isPlain, Job.isPlain, isDeadline, job?, Job.deadline?, hurried?]
  | .hurry _ | .changed .. | .requested _ | .shown .. | .closed => simp [isPlain] at h
  | .returned .. | .settled .. | .gaveUp .. | .fullscreen => exact ⟨rfl, rfl⟩

end Notice

/-- What a watch depends on. -/
structure Vigil where
  isClosed : Bool
  phase : Phase
  version : Nat
  renderTime : Milliseconds
  deadline : Option Nat

namespace Controller

def vigil (controller : Controller) : Vigil where
  isClosed := controller.isClosed
  phase := controller.phase
  version := controller.version
  renderTime := controller.renderTime
  deadline := controller.deadline

def hurries (controller : Controller) : List Nat :=
  controller.notices.filterMap Notice.hurried?

def deadlines (controller : Controller) : List Notice :=
  controller.notices.filter Notice.isDeadline

/-- What an operation of an open controller without notices makes of the watch. -/
inductive Minds (before after : Controller) : Prop
  | close : after.isClosed = true → Minds before after
  | bide : after.vigil = before.vigil → after.hurries ⊆ before.debounce.toList →
      after.deadlines = [] → Minds before after
  | drop (phase : Phase) (version : Nat) :
      after.vigil = { before.vigil with phase, version, deadline := none } →
      phase ≠ .rendering →
      (version = before.version ∧ (phase = .ready ∨ phase = .errored ∨ phase = before.phase) ∨
        version = before.version + 1) →
      before.deadline.toList ⊆ after.hurries →
      after.hurries ⊆ before.debounce.toList ++ before.deadline.toList →
      after.deadlines = [] → Minds before after
  | arm (renderTime : Milliseconds) :
      after.vigil = { before.vigil with
        phase := .rendering
        renderTime
        deadline := some before.nextJob } →
      before.phase ≠ .rendering → after.hurries = [] →
      after.deadlines = [.post (.openDeadline before.nextJob before.version)] → Minds before after

variable {before after last : Controller}

theorem Quiet.vigil_eq (quiet : Quiet before after) : after.vigil = before.vigil := by
  have same := quiet.course_eq
  simp only [course, Course.mk.injEq] at same
  obtain ⟨-, version, phase, -, -, -, isClosed, deadline, renderTime, -⟩ := same
  rw [vigil, vigil, version, phase, isClosed, deadline, renderTime]

theorem Quiet.hurries_eq (quiet : Quiet before after) : after.hurries = before.hurries := by
  obtain ⟨notices, eq, plain⟩ := quiet.adds
  have none : notices.filterMap Notice.hurried? = [] :=
    List.filterMap_eq_nil_iff.2 fun notice mem =>
      (Notice.isDeadline_of_isPlain (plain notice mem)).2
  rw [hurries, eq, List.filterMap_append, none, List.append_nil, hurries]

theorem Quiet.deadlines_eq (quiet : Quiet before after) : after.deadlines = before.deadlines := by
  obtain ⟨notices, eq, plain⟩ := quiet.adds
  have none : notices.filter Notice.isDeadline = [] := by
    rw [List.filter_eq_nil_iff]
    intro notice mem
    rw [(Notice.isDeadline_of_isPlain (plain notice mem)).1]
    exact Bool.false_ne_true
  rw [deadlines, eq, List.filter_append, none, List.append_nil, deadlines]

namespace Minds

theorem trans_quiet (minds : before.Minds after) (quiet : Quiet after last) :
    before.Minds last := by
  have vigil_eq := quiet.vigil_eq
  have hurries_eq := quiet.hurries_eq
  have deadlines_eq := quiet.deadlines_eq
  cases minds with
  | close closed => exact .close ((congrArg Vigil.isClosed vigil_eq).trans closed)
  | bide same hurried none =>
      exact .bide (vigil_eq.trans same) (hurries_eq ▸ hurried) (deadlines_eq.trans none)
  | drop phase version same resting newer dropped hurried none =>
      exact .drop phase version (vigil_eq.trans same) resting newer (hurries_eq ▸ dropped)
        (hurries_eq ▸ hurried) (deadlines_eq.trans none)
  | arm renderTime same resting hurried given =>
      exact .arm renderTime (vigil_eq.trans same) resting (hurries_eq.trans hurried)
        (deadlines_eq.trans given)

theorem refl (silent : before.notices = []) : before.Minds before :=
  .bide rfl (by simp [hurries, silent]) (by simp [deadlines, silent])

end Minds

theorem Quiet.minds (quiet : Quiet before after) (silent : before.notices = []) :
    before.Minds after :=
  (Minds.refl silent).trans_quiet quiet

theorem filterMap_hurried (number : Option Nat) :
    (number.map Notice.hurry).toList.filterMap Notice.hurried? = number.toList := by
  cases number <;> rfl

theorem filter_isDeadline_hurry (number : Option Nat) :
    (number.map Notice.hurry).toList.filter Notice.isDeadline = [] := by
  cases number <;> rfl

/-- The deadline in force is called off, perhaps after the debounce, and then all is told. -/
theorem Minds.of_drop {phase : Phase} {version : Nat} (freed : Option Nat) {told : List Notice}
    (vigil_eq : after.vigil = { before.vigil with phase, version, deadline := none })
    (resting : phase ≠ .rendering)
    (newer : version = before.version ∧
        (phase = .ready ∨ phase = .errored ∨ phase = before.phase) ∨
      version = before.version + 1)
    (inForce : freed.toList ⊆ before.debounce.toList)
    (notices_eq : after.notices = (freed.map Notice.hurry).toList ++
      (before.deadline.map Notice.hurry).toList ++ told)
    (unhurried : told.filterMap Notice.hurried? = [])
    (ungiven : told.filter Notice.isDeadline = []) : before.Minds after := by
  have hurries_eq : after.hurries = freed.toList ++ before.deadline.toList := by
    rw [hurries, notices_eq, List.filterMap_append, List.filterMap_append, unhurried,
      List.append_nil, filterMap_hurried, filterMap_hurried]
  refine .drop phase version vigil_eq resting newer ?_ ?_ ?_
  · rw [hurries_eq]
    exact List.subset_append_right _ _
  · rw [hurries_eq]
    exact List.append_subset.2 ⟨fun _ mem => List.mem_append_left _ (inForce mem),
      List.subset_append_right _ _⟩
  · rw [deadlines, notices_eq, List.filter_append, List.filter_append, ungiven,
      filter_isDeadline_hurry, filter_isDeadline_hurry]
    rfl

/-! ## Operations -/

theorem minds_request (silent : before.notices = []) (asker : Asker) :
    before.Minds (before.request asker) := by
  cases code : before.code with
  | none => exact (before.quiet_request asker code).minds silent
  | some source =>
      rw [before.request_eq asker code, silent]
      refine .of_drop none rfl Phase.noConfusion (.inr rfl) (List.nil_subset _) rfl ?_ ?_
      all_goals rfl

theorem minds_fail (silent : before.notices = []) (kind : FailureKind) (message : Json)
    (version : Nat) (suggestions : List Json)
    (heard : isAnnounced message = true ∨ before.phase ≠ .rendering) :
    before.Minds (before.fail kind message version suggestions) := by
  by_cases failed : version ∈ before.failed
  · rw [before.fail_of_mem failed]
    exact .refl silent
  rw [before.fail_eq failed, silent]
  refine .of_drop none rfl ?_ ?_ (List.nil_subset _) rfl ?_ ?_
  · split
    · exact Phase.noConfusion
    · next unannounced => exact heard.resolve_left unannounced
  · split
    · exact .inl ⟨rfl, .inr (.inl rfl)⟩
    · exact .inl ⟨rfl, .inr (.inr rfl)⟩
  all_goals split <;> rfl

theorem minds_ready (silent : before.notices = []) :
    before.Minds (before.callOffDeadline.enter .ready) := by
  rw [ready_eq, silent]
  refine .of_drop none rfl Phase.noConfusion (.inl ⟨rfl, .inl rfl⟩) (List.nil_subset _) rfl ?_ ?_
  all_goals rfl

/-- Nothing is found wrong with the metadata of an answer. -/
def IsContent (controller : Controller) : Prop :=
  ∀ metadata, controller.objection metadata = none

theorem notices_display (silent : before.notices = []) (version : Nat) :
    (before.display version).hurries = [] ∧
      (before.display version).deadlines = [.post (.openDeadline before.nextJob version)] := by
  rw [display_eq, hurries, deadlines, silent]
  dsimp only
  split <;> exact ⟨rfl, rfl⟩

theorem minds_accept (silent : before.notices = []) (content : before.IsContent)
    (resting : before.phase ≠ .rendering) (body : Json) :
    before.Minds (before.accept before.version body) := by
  rw [accept_eq]
  split
  · exact .bide rfl (by simp [hurries, silent]) (by simp [deadlines, silent])
  · next limits _ =>
      rw [if_neg (by simp [content (metadataOf body)])]
      have taken : (before.takeOver body limits).notices = [] := silent
      obtain ⟨hurries, deadlines⟩ := notices_display taken before.version
      refine .arm (before.takeOver body limits).renderTime ?_ resting hurries deadlines
      rw [display_eq]
      rfl

theorem minds_receive (silent : before.notices = []) (content : before.IsContent) {version : Nat}
    (resting : version = before.version → before.phase ≠ .rendering) (answer : Answer) :
    before.Minds (before.receive version answer) := by
  rcases before.receive_cases version answer with
    ⟨body, rfl, welcome⟩ | same | ⟨-, newest, -, kind, message, suggestions, failing⟩
  · rw [before.receive_of_welcome welcome]
    obtain rfl : version = before.version := welcome.isNewest
    exact minds_accept silent content (resting rfl) body
  · rw [same]
    exact .refl silent
  · rw [failing]
    exact minds_fail silent kind message version suggestions (.inr (resting newest))

theorem minds_handle (silent : before.notices = []) (message : LifecycleMessage) :
    before.Minds (before.handle message) := by
  rcases before.handle_cases message with
    same | ⟨name, timestamp, -, -, -, ready⟩ | ⟨error, -, -, fails⟩
  · rw [same]
    exact .refl silent
  · rw [ready]
    exact minds_ready silent
  · rw [fails]
    exact (minds_fail silent _ _ _ _ (.inl rfl)).trans_quiet (quiet_seed _ _)

theorem minds_edit (silent : before.notices = []) (isOpen : before.isClosed = false)
    (code : String) : before.Minds (before.edit code) := by
  rw [before.edit_eq isOpen]
  refine .bide rfl ?_ ?_
  · rw [hurries, taking, note, silent, List.nil_append, List.filterMap_append, filterMap_hurried]
    exact List.append_nil _ ▸ List.Subset.refl _
  · rw [deadlines, taking, note, silent, List.nil_append, List.filter_append,
      filter_isDeadline_hurry]
    rfl

theorem minds_refresh (silent : before.notices = []) (caller : String) :
    before.Minds (before.refresh caller) := by
  rcases before.refresh_cases caller with ⟨-, returns⟩ | ⟨code, -, -, found, requests⟩
  · rw [returns]
    exact ((Quiet.refl before).note rfl).minds silent
  · rw [requests, request_eq _ _ found, callOffDebounce_eq, silent]
    refine .of_drop before.debounce rfl Phase.noConfusion (.inr rfl) (List.Subset.refl _) rfl ?_ ?_
    all_goals rfl

theorem minds_close : before.Minds before.close :=
  .close before.isClosed_close

/-- Every job but those of deadlines, which an open controller does. -/
theorem minds_perform (silent : before.notices = []) (content : before.IsContent) {job : Job}
    (other : job.deadline? = none)
    (resting : ∀ version asker answer, job = .answer version asker answer →
      version = before.version → before.phase ≠ .rendering) :
    before.Minds (before.perform job) := by
  cases job with
  | openDebounce number => exact (before.quiet_openDebounce number).minds silent
  | closeDebounce number => exact (before.quiet_closeDebounce number).minds silent
  | request number =>
      simp only [perform]
      split
      · exact (quiet_finish _ _ _).minds silent
      · exact minds_request silent _
  | refresh caller => exact minds_refresh silent caller
  | answer version asker answer =>
      simp only [perform]
      split
      · exact (quiet_endFor _ _ _).minds silent
      · exact (minds_receive silent content (resting version asker answer rfl) answer).trans_quiet
          (quiet_endFor _ _ _)
  | retire number =>
      have quiet : Quiet before (before.perform (.retire number)) := .of_eq rfl rfl rfl rfl
      exact quiet.minds silent
  | openDeadline | closeDeadline => cases other
  | attend waiter => exact (before.quiet_attend waiter).minds silent

end Controller

/-! ## Moves -/

namespace World

/-- The tasks of the deadline in force. -/
def watched (world : World) : List Appointment :=
  world.tasks.filter fun task => task.job.isOf world.controller.deadline

/-- The numbers that a move hurries, and the watch after it. -/
inductive Watches (world : World) : Move → List Nat → Vigil → List Appointment → Prop
  | close (move : Move) (hurried : List Nat) (vigil : Vigil) (watched : List Appointment) :
      vigil.isClosed = true → Watches world move hurried vigil watched
  | bide (move : Move) (hurried : List Nat) : hurried ⊆ world.controller.debounce.toList →
      Watches world move hurried world.controller.vigil world.watched
  | drop (move : Move) (hurried : List Nat) (phase : Phase) (version : Nat) : phase ≠ .rendering →
      (version = world.controller.version ∧
          (phase = .ready ∨ phase = .errored ∨ phase = world.controller.phase) ∨
        version = world.controller.version + 1) →
      world.controller.deadline.toList ⊆ hurried →
      hurried ⊆ world.controller.debounce.toList ++ world.controller.deadline.toList →
      Watches world move hurried
        { world.controller.vigil with phase, version, deadline := none } []
  | arm (move : Move) (renderTime : Milliseconds) : world.controller.phase ≠ .rendering →
      Watches world move []
        { world.controller.vigil with
          phase := .rendering
          renderTime
          deadline := some world.controller.nextJob }
        [⟨world.now, .openDeadline world.controller.nextJob world.controller.version⟩]
  | open (index number : Nat) (due : Int) : world.controller.deadline = some number →
      world.watched = [⟨due, .openDeadline number world.controller.version⟩] → due ≤ world.now →
      Watches world (.work index) [] world.controller.vigil
        [⟨world.now + world.controller.renderTime.microseconds,
          .closeDeadline number world.controller.version⟩]
  | expire (index number : Nat) (due : Int) : world.controller.deadline = some number →
      world.watched = [⟨due, .closeDeadline number world.controller.version⟩] → due ≤ world.now →
      Watches world (.work index) []
        { world.controller.vigil with phase := .errored, deadline := none } []

/-- What holds of an open session whose jobs with the numbers were hurried: there is a deadline in
force while it is rendering, which has one task, and no other deadline is left unhurried. -/
structure Watchful (hurried : List Nat) (world : World) : Prop where
  dead : ∀ task ∈ world.tasks, ∀ number version, task.job.deadline? = some (number, version) →
    world.controller.deadline ≠ some number → number ∈ hurried
  alive : ∀ number, world.controller.deadline = some number → number ∉ hurried
  hurried_lt : ∀ number ∈ hurried, number < world.controller.nextJob
  single : ∀ number, world.controller.deadline = some number → ∃ due,
    world.watched = [⟨due, .openDeadline number world.controller.version⟩] ∨
      world.watched = [⟨due, .closeDeadline number world.controller.version⟩]
  armed : world.controller.phase = .rendering → world.controller.deadline ≠ none

/-- What a move does to the watch, and to the jobs of all other deadlines. -/
structure Minded (world : World) (move : Move) (next : World × List Notice) : Prop where
  watches : world.Watches move (next.2.filterMap Notice.hurried?) next.1.controller.vigil
    next.1.watched
  others : next.1.controller.isClosed = false → ∀ task ∈ next.1.tasks, ∀ number version,
    task.job.deadline? = some (number, version) → next.1.controller.deadline ≠ some number →
    number ∈ next.2.filterMap Notice.hurried? ∨
      ∃ old ∈ world.tasks, old.job = task.job ∧ world.controller.deadline ≠ some number

variable {world : World} {action : Controller → Controller}

theorem Watchful.dealt {hurried : List Nat} (watchful : world.Watchful hurried)
    (off : world.controller.deadline = none) : ∀ task ∈ world.tasks, ∀ number version,
      task.job.deadline? = some (number, version) → number < world.controller.nextJob :=
  fun task mem number version isFor =>
    watchful.hurried_lt number (watchful.dead task mem number version isFor (by simp [off]))

theorem watched_of_none (h : world.controller.deadline = none) : world.watched = [] := by
  rw [watched, h]
  simp [Job.isOf_none]

/-- Of the tasks that notices give, those for a deadline are given by the notices for deadlines. -/
theorem filter_given (notices : List Notice) (now : Int) (deadline : Option Nat) :
    (notices.filterMap (Notice.task? now)).filter (fun task => task.job.isOf deadline) =
      ((notices.filter Notice.isDeadline).filterMap (Notice.task? now)).filter
        fun task => task.job.isOf deadline := by
  induction notices with
  | nil => rfl
  | cons notice notices ih =>
      rw [List.filter_cons]
      cases isDeadline : notice.isDeadline with
      | true => cases h : notice.task? now <;> simp [h, List.filter_cons, ih]
      | false =>
          have other : ∀ task, notice.task? now = some task → task.job.isOf deadline = false := by
            intro task given
            refine Job.isOf_of_none ?_ deadline
            cases notice <;> cases given <;>
              simpa [Notice.isDeadline, Notice.job?] using isDeadline
          cases h : notice.task? now with
          | none => simpa [h] using ih
          | some task => simpa [h, List.filter_cons, other task h] using ih

theorem watched_act
    (unhurried : ∀ number, (action world.controller).deadline = some number →
      number ∉ (action world.controller).hurries) :
    (world.act action).1.watched =
      world.tasks.filter (fun task => task.job.isOf (action world.controller).deadline) ++
        ((action world.controller).deadlines.filterMap (Notice.task? world.now)).filter
          fun task => task.job.isOf (action world.controller).deadline := by
  have spared : ∀ number, .hurry number ∈ (action world.controller).notices → ∀ job : Job,
      job.isOf (action world.controller).deadline = true → job.number? ≠ some number := by
    intro number mem job isOf meant
    rw [Job.number?_of_isOf isOf] at meant
    exact unhurried number meant (List.mem_filterMap.2 ⟨_, mem, rfl⟩)
  rw [watched, act_controller]
  refine (filter_tasks_act spared).trans ?_
  rw [filter_given]
  rfl

/-- A task for a deadline after an operation was there before, or the operation sets that
deadline. -/
theorem mem_tasks_act {task : Appointment} (h : task ∈ (world.act action).1.tasks)
    {number version : Nat} (isFor : task.job.deadline? = some (number, version)) :
    (∃ old ∈ world.tasks, old.job = task.job) ∨
      ∃ notice ∈ (action world.controller).deadlines, notice.job? = some task.job := by
  rcases tasks_foldl_heed h with ⟨old, mem, job_eq, -⟩ | ⟨notice, mem, given⟩
  · exact .inl ⟨old, mem, job_eq.symm⟩
  · have isDeadline : notice.isDeadline = true := by
      simp [Notice.isDeadline, given, isFor]
    exact .inr ⟨notice, List.mem_filter.2 ⟨mem, isDeadline⟩, given⟩

theorem vigil_act : (world.act action).1.controller.vigil = (action world.controller).vigil := by
  rw [act_controller]
  rfl

theorem watched_of_bide (numbered : world.controller.Numbered)
    (same : (action world.controller).deadline = world.controller.deadline)
    (hurries : (action world.controller).hurries ⊆ world.controller.debounce.toList)
    (none : (action world.controller).deadlines = []) :
    (world.act action).1.watched = world.watched := by
  have unhurried : ∀ number, (action world.controller).deadline = some number →
      number ∉ (action world.controller).hurries := by
    intro number inForce mem
    rw [same] at inForce
    exact numbered.apart number inForce (Option.mem_toList.1 (hurries mem))
  rw [watched_act unhurried, none, same]
  exact List.append_nil _

theorem watched_of_arm
    (dealt : ∀ task ∈ world.tasks, ∀ number version,
      task.job.deadline? = some (number, version) → number < world.controller.nextJob)
    (on : (action world.controller).deadline = some world.controller.nextJob)
    (none : (action world.controller).hurries = [])
    (given : (action world.controller).deadlines =
      [.post (.openDeadline world.controller.nextJob world.controller.version)]) :
    (world.act action).1.watched =
      [⟨world.now, .openDeadline world.controller.nextJob world.controller.version⟩] := by
  have old : world.tasks.filter
      (fun task => task.job.isOf (some world.controller.nextJob)) = [] := by
    rw [List.filter_eq_nil_iff]
    intro task mem isOf
    cases isFor : task.job.deadline? with
    | none => simp [Job.isOf, isFor] at isOf
    | some pair =>
        obtain ⟨number, version⟩ := pair
        have number_eq := Option.some.inj ((Job.isOf_iff isFor _).1 isOf)
        have number_lt := dealt task mem number version isFor
        omega
  have new : (Job.openDeadline world.controller.nextJob world.controller.version).isOf
      (some world.controller.nextJob) = true := (Job.isOf_iff rfl _).2 rfl
  rw [watched_act (by simp [none]), given, on, old]
  simp [Notice.task?, new]

/-- What an operation of a world does to the watch. -/
theorem minded_act (numbered : world.controller.Numbered)
    (resting : world.controller.phase ≠ .rendering → world.controller.deadline = none)
    (dealt : world.controller.deadline = none → ∀ task ∈ world.tasks, ∀ number version,
      task.job.deadline? = some (number, version) → number < world.controller.nextJob)
    (move : Move) (minds : world.controller.Minds (action world.controller)) :
    world.Minded move (world.act action) := by
  have hurried : (world.act action).2.filterMap Notice.hurried? =
      (action world.controller).hurries := rfl
  have vigil : (world.act action).1.controller.vigil = (action world.controller).vigil := vigil_act
  have deadline : (world.act action).1.controller.deadline = (action world.controller).deadline :=
    congrArg Vigil.deadline vigil
  cases minds with
  | close closed =>
      have closed : (world.act action).1.controller.vigil.isClosed = true := by
        rw [vigil]
        exact closed
      refine ⟨.close _ _ _ _ closed, ?_⟩
      intro isOpen
      exact absurd (closed.symm.trans isOpen) Bool.noConfusion
  | bide same hurries none =>
      have deadline_eq : (action world.controller).deadline = world.controller.deadline :=
        congrArg Vigil.deadline same
      refine ⟨?_, ?_⟩
      · rw [hurried, vigil, same, watched_of_bide numbered deadline_eq hurries none]
        exact .bide move _ hurries
      · intro _ task mem number version isFor other
        rw [deadline, deadline_eq] at other
        rcases mem_tasks_act mem isFor with ⟨old, mem, job_eq⟩ | ⟨notice, given, -⟩
        · exact .inr ⟨old, mem, job_eq, other⟩
        · simp [none] at given
  | drop phase version same resting' newer dropped hurries none =>
      have off : (action world.controller).deadline = Option.none := congrArg Vigil.deadline same
      refine ⟨?_, ?_⟩
      · rw [hurried, vigil, same, watched_of_none (deadline.trans off)]
        exact .drop move _ phase version resting' newer dropped hurries
      · intro _ task mem number version isFor _
        rcases mem_tasks_act mem isFor with ⟨old, mem, job_eq⟩ | ⟨notice, given, -⟩
        -- The deadline that was in force is called off with the move.
        · by_cases inForce : world.controller.deadline = some number
          · exact .inl (dropped (Option.mem_toList.2 inForce))
          · exact .inr ⟨old, mem, job_eq, inForce⟩
        · simp [none] at given
  | arm renderTime same resting' none given =>
      have on : (action world.controller).deadline = some world.controller.nextJob :=
        congrArg Vigil.deadline same
      have off := resting resting'
      refine ⟨?_, ?_⟩
      · rw [hurried, vigil, same, none, watched_of_arm (dealt off) on none given]
        exact .arm move renderTime resting'
      · intro _ task mem number version isFor other
        rw [deadline, on] at other
        rcases mem_tasks_act mem isFor with ⟨old, mem, job_eq⟩ | ⟨notice, mem, job_eq⟩
        · exact .inr ⟨old, mem, job_eq, by simp [off]⟩
        · rw [given, List.mem_singleton] at mem
          rw [mem] at job_eq
          rw [← Option.some.inj job_eq] at isFor
          exact absurd (congrArg some (congrArg Prod.fst (Option.some.inj isFor))) other

theorem minded_rest (world : World) (move : Move) : world.Minded move (world, []) where
  watches := .bide move [] (List.nil_subset _)
  others _ task mem _ _ _ other := .inr ⟨task, mem, rfl, other⟩

/-- The watch does not depend on the requests that are awaited, nor on a task for no deadline in
force. -/
theorem Minded.of_base {base : World} (now_eq : base.now = world.now)
    (controller_eq : base.controller = world.controller) (watched_eq : base.watched = world.watched)
    (tasks_subset : ∀ task ∈ base.tasks, task ∈ world.tasks) {move : Move}
    {next : World × List Notice} (minded : base.Minded move next) : world.Minded move next where
  watches := by
    have kept {hurried : List Nat} {vigil : Vigil} {watched : List Appointment}
        (watches : base.Watches move hurried vigil watched) :
        world.Watches move hurried vigil watched := by
      obtain ⟨now, controller, tasks, awaited⟩ := base
      dsimp only at now_eq controller_eq
      subst now_eq controller_eq
      cases watches with
      | close _ _ _ _ closed => exact .close _ _ _ _ closed
      | bide _ _ hurries =>
          rw [watched_eq]
          exact .bide move _ hurries
      | drop _ _ phase version resting newer dropped hurries =>
          exact .drop move _ phase version resting newer dropped hurries
      | arm _ renderTime resting => exact .arm move renderTime resting
      | «open» index number due inForce single late =>
          exact .open index number due inForce (watched_eq ▸ single) late
      | expire index number due inForce single late =>
          exact .expire index number due inForce (watched_eq ▸ single) late
    exact kept minded.watches
  others isOpen task mem number version isFor off := by
    refine (minded.others isOpen task mem number version isFor off).imp_right ?_
    rintro ⟨old, mem, job_eq, other⟩
    exact ⟨old, tasks_subset old mem, job_eq, controller_eq ▸ other⟩

/-- What an operation does to the watch, perhaps once a task for no deadline in force or a request
was taken away. -/
theorem minded_act_of_base (world base : World) (action : Controller → Controller)
    {hurried : List Nat} (now_eq : base.now = world.now)
    (controller_eq : base.controller = world.controller) (watched_eq : base.watched = world.watched)
    (tasks_subset : ∀ task ∈ base.tasks, task ∈ world.tasks) (steady : world.Steady)
    (watchful : world.Watchful hurried) (move : Move)
    (minds : world.controller.Minds (action world.controller)) :
    world.Minded move (base.act action) := by
  refine .of_base now_eq controller_eq watched_eq tasks_subset (minded_act ?_ ?_ ?_ move ?_)
  all_goals rw [controller_eq]
  · exact steady.sound.numbered
  · exact steady.disarmed
  · exact fun off task mem => watchful.dealt off task (tasks_subset task mem)
  · exact minds

section Work

variable {index : Nat} {task : Appointment}

/-- The task of the deadline in force is the one that is taken away. -/
theorem watched_without {hurried : List Nat} (watchful : world.Watchful hurried)
    (found : world.tasks[index]? = some task) {number version : Nat}
    (inForce : world.controller.deadline = some number)
    (isFor : task.job.deadline? = some (number, version)) :
    world.watched = [task] ∧ version = world.controller.version ∧
      (world.without index).watched = [] := by
  have isOf : task.job.isOf world.controller.deadline = true := (Job.isOf_iff isFor _).2 inForce
  obtain ⟨only, single, only_eq⟩ : ∃ only, world.watched = [only] ∧
      only.job.deadline? = some (number, world.controller.version) := by
    obtain ⟨due, single | single⟩ := watchful.single number inForce
    · exact ⟨_, single, rfl⟩
    · exact ⟨_, single, rfl⟩
  obtain ⟨rfl, none⟩ := filter_eraseIdx_of_singleton found isOf single
  rw [isFor] at only_eq
  exact ⟨single, congrArg Prod.snd (Option.some.inj only_eq), none⟩

theorem minded_openDeadline {hurried : List Nat} (silent : world.controller.notices = [])
    (watchful : world.Watchful hurried) {number version : Nat} {due : Int}
    (found : world.tasks[index]? = some ⟨due, .openDeadline number version⟩)
    (late : due ≤ world.now) (inForce : world.controller.deadline = some number) :
    world.Minded (.work index)
      ((world.without index).act (·.perform (.openDeadline number version))) := by
  obtain ⟨single, rfl, gone⟩ := watched_without watchful found inForce rfl
  have silent : (world.without index).controller.notices = [] := silent
  have opens : (world.without index).controller.openDeadline number world.controller.version =
      (world.without index).controller.note (.hold world.controller.renderTime.microseconds
        (.closeDeadline number world.controller.version)) := if_pos inForce
  rw [act_of_note (·.perform (.openDeadline number world.controller.version)) silent opens]
  have watched : ((world.without index).heed (.hold world.controller.renderTime.microseconds
      (.closeDeadline number world.controller.version))).watched =
        [⟨world.now + world.controller.renderTime.microseconds,
          .closeDeadline number world.controller.version⟩] := by
    have isOf : (Job.closeDeadline number world.controller.version).isOf
        (world.without index).controller.deadline = true := (Job.isOf_iff rfl _).2 inForce
    refine (List.filter_append ..).trans ?_
    refine (congrArg (· ++ _) gone).trans ?_
    rw [List.nil_append]
    refine List.filter_cons_of_pos ?_
    exact isOf
  refine ⟨?_, ?_⟩
  · rw [watched]
    exact .open index number due inForce single late
  · intro _ task mem other version isFor off
    rcases List.mem_append.1 mem with mem | mem
    · exact .inr ⟨task, List.mem_of_mem_eraseIdx mem, rfl, off⟩
    · rw [List.mem_singleton.1 mem] at isFor
      have number_eq : number = other := congrArg Prod.fst (Option.some.inj isFor)
      exact absurd (number_eq ▸ inForce) off

/-- A deadline in force that ends fails the version that renders, with no word to the clock. -/
theorem expires (steady : world.Steady) (isOpen : world.controller.isClosed = false) {number : Nat}
    (inForce : world.controller.deadline = some number) :
    let after := world.controller.perform (.closeDeadline number world.controller.version)
    after.hurries = [] ∧ after.deadlines = [] ∧
      after.vigil = { world.controller.vigil with phase := .errored, deadline := none } := by
  have rendering : world.controller.phase = .rendering :=
    steady.armed_rendering (by simp [inForce])
  have unfailed : world.controller.version ∉ world.controller.failed :=
    steady.resting_unfailed (by rw [rendering]; rfl)
  have fails := Controller.fail_eq { world.controller with deadline := none } unfailed .runtime
    (.str (Controller.timeoutMessage world.controller.renderTime)) []
  have performs : world.controller.perform (.closeDeadline number world.controller.version) =
      Controller.fail { world.controller with deadline := none } .runtime
        (.str (Controller.timeoutMessage world.controller.renderTime))
        world.controller.version [] := by
    have current : world.controller.isCurrent world.controller.version = true :=
      (world.controller.isCurrent_iff _).2 ⟨isOpen, rfl⟩
    refine (if_pos inForce).trans (if_pos ?_)
    rw [Bool.and_eq_true]
    exact ⟨current, beq_iff_eq.2 rendering⟩
  dsimp only
  rw [performs, fails, Controller.hurries, Controller.deadlines, steady.sound.silent]
  exact ⟨rfl, rfl, rfl⟩

theorem minded_closeDeadline {hurried : List Nat} (steady : world.Steady)
    (isOpen : world.controller.isClosed = false) (watchful : world.Watchful hurried)
    {number version : Nat} {due : Int}
    (found : world.tasks[index]? = some ⟨due, .closeDeadline number version⟩)
    (late : due ≤ world.now) (inForce : world.controller.deadline = some number) :
    world.Minded (.work index)
      ((world.without index).act (·.perform (.closeDeadline number version))) := by
  obtain ⟨single, rfl, gone⟩ := watched_without watchful found inForce rfl
  obtain ⟨hurries, deadlines, vigil⟩ := expires steady isOpen inForce
  have same : (world.without index).controller = world.controller := rfl
  have after_vigil : ((world.without index).act
      (·.perform (.closeDeadline number world.controller.version))).1.controller.vigil =
        { world.controller.vigil with phase := .errored, deadline := none } := by
    rw [act_controller]
    exact vigil
  refine ⟨?_, ?_⟩
  · rw [after_vigil, watched_of_none (congrArg Vigil.deadline after_vigil), act_notices, same]
    rw [show List.filterMap Notice.hurried? _ = [] from hurries]
    exact .expire index number due inForce single late
  · intro _ task mem other version isFor _
    rcases mem_tasks_act mem isFor with ⟨old, mem, job_eq⟩ | ⟨notice, given, -⟩
    · refine .inr ⟨old, List.mem_of_mem_eraseIdx mem, job_eq, ?_⟩
      -- The only task of that deadline is the one that was done.
      intro same
      rw [← job_eq] at isFor
      have isOf : old.job.isOf world.controller.deadline = true := (Job.isOf_iff isFor _).2 same
      have listed : old ∈ (world.without index).watched := List.mem_filter.2 ⟨mem, isOf⟩
      rw [gone] at listed
      cases listed
    · rw [same, deadlines] at given
      cases given

theorem minded_work {hurried : List Nat} (steady : world.Steady)
    (content : world.controller.IsContent) (isOpen : world.controller.isClosed = false)
    (watchful : world.Watchful hurried) (found : world.tasks[index]? = some task)
    (late : task.due ≤ world.now) :
    world.Minded (.work index) ((world.without index).act (·.perform task.job)) := by
  have silent := steady.sound.silent
  have acts (off : task.job.isOf world.controller.deadline = false)
      (minds : world.controller.Minds (world.controller.perform task.job)) :
      world.Minded (.work index) ((world.without index).act (·.perform task.job)) :=
    minded_act_of_base world (world.without index) (·.perform task.job) rfl rfl
      (filter_eraseIdx_of_false found off)
      (fun _ => List.mem_of_mem_eraseIdx) steady watchful _ minds
  have idles {number version : Nat} (isFor : task.job.deadline? = some (number, version))
      (other : world.controller.deadline ≠ some number)
      (same : world.controller.perform task.job = world.controller) :
      world.Minded (.work index) ((world.without index).act (·.perform task.job)) := by
    refine acts ?_ (same.symm ▸ .refl silent)
    rw [Bool.eq_false_iff]
    exact fun isOf => other ((Job.isOf_iff isFor _).1 isOf)
  obtain ⟨due, job⟩ := task
  cases job with
  | openDeadline number version =>
      by_cases inForce : world.controller.deadline = some number
      · exact minded_openDeadline silent watchful found late inForce
      · exact idles rfl inForce (if_neg inForce)
  | closeDeadline number version =>
      by_cases inForce : world.controller.deadline = some number
      · exact minded_closeDeadline steady isOpen watchful found late inForce
      · exact idles rfl inForce (if_neg inForce)
  | answer version asker answer =>
      exact absurd rfl (steady.sound.answerless _ (List.mem_of_getElem? found) version asker answer)
  | openDebounce | closeDebounce | request | refresh | retire | attend =>
      refine acts (Job.isOf_of_none rfl _) ?_
      exact Controller.minds_perform silent content rfl fun _ _ _ eq => nomatch eq

end Work

/-- What a move of an open session does to the watch. -/
theorem minded_move {hurried : List Nat} (steady : world.Steady)
    (content : world.controller.IsContent) (isOpen : world.controller.isClosed = false)
    (watchful : world.Watchful hurried) (move : Move) :
    world.Minded move (world.move move) := by
  have silent := steady.sound.silent
  have acts (action : Controller → Controller)
      (minds : world.controller.Minds (action world.controller)) :
      world.Minded move (world.act action) :=
    minded_act_of_base world world action rfl rfl rfl (fun _ mem => mem) steady watchful move minds
  cases move with
  | pass span =>
      exact ⟨.bide _ [] (List.nil_subset _), fun _ task mem _ _ _ other =>
        .inr ⟨task, mem, rfl, other⟩⟩
  | edit code => exact acts (·.edit code) (Controller.minds_edit silent isOpen code)
  | refresh caller =>
      exact acts (·.note (.post (.refresh caller)))
        (((Controller.Quiet.refl _).note rfl).minds silent)
  | fullscreen => exact acts _ ((Controller.quiet_fullscreen _).minds silent)
  | close => exact acts _ Controller.minds_close
  | message message => exact acts (·.handle message) (Controller.minds_handle silent message)
  | await waiter poll =>
      exact acts (fun controller => (controller.await waiter poll).note (.post (.attend waiter)))
        (((Controller.quiet_await _ waiter poll).note rfl).minds silent)
  | work index =>
      simp only [World.move, work]
      split
      · next task found =>
          split
          · next late => exact minded_work steady content isOpen watchful found late
          · exact minded_rest _ _
      · exact minded_rest _ _
  | answer index answer =>
      simp only [World.move, World.answer]
      split
      · next request found =>
          refine minded_act_of_base world { world with awaited := world.awaited.eraseIdx index }
            (·.perform (.answer request.version request.asker answer)) rfl rfl rfl
            (fun _ mem => mem) steady watchful _ ?_
          refine Controller.minds_perform silent content rfl ?_
          rintro _ _ _ ⟨⟩ newest
          exact steady.not_rendering_of_awaited (List.mem_of_getElem? found) newest
      · exact minded_rest _ _

end World

end ComponentPreview
