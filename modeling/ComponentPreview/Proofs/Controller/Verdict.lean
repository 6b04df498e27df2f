import ComponentPreview.Proofs.Controller.Steady

/-!
# Verdicts on a version

A version is rendering once its answer has been accepted and until its sandbox reports. Only a
report that comes while it is rendering counts: a version whose answer is good becomes ready just
when its sandbox reports after the answer and before the render time has gone by.
-/

namespace ComponentPreview

namespace Transition

/-- The newest version's answer arrives, a success with metadata of the right shape. -/
def Succeeds (transition : Transition) (version : Nat) : Prop :=
  ∃ index body request,
    transition.move = .answer index (.ok body) ∧
    transition.before.awaited[index]? = some request ∧
    request.version = version ∧
    version = transition.before.controller.version ∧
    transition.before.controller.isClosed = false ∧
    (body.get "success").isTruthy = true ∧
    (Controller.limitsOf? body).isSome = true

def Hears (transition : Transition) (version : Nat) (message : LifecycleMessage) : Prop :=
  transition.move = .message message ∧
    transition.before.controller.course.Heeds message ∧
    transition.before.controller.version = version

def HearsReady (transition : Transition) (version : Nat) : Prop :=
  ∃ message name timestamp, transition.Hears version message ∧
    message.event = .ready name timestamp

def HearsError (transition : Transition) (version : Nat) : Prop :=
  ∃ message error, transition.Hears version message ∧ message.event = .error error

def Reaches (transition : Transition) (version : Nat) : Prop :=
  transition.after.controller.phase = .ready ∧ transition.after.controller.version = version

instance (transition : Transition) (version : Nat) : Decidable (transition.Reaches version) :=
  inferInstanceAs (Decidable (_ ∧ _))

def TimesOut (transition : Transition) (version : Nat) : Prop :=
  ∃ metadata time suggestions, .changed .errored version metadata
    (some ⟨.runtime, .str (Controller.timeoutMessage time), version, suggestions⟩) ∈
      transition.notices

variable {transition : Transition} {version : Nat}

/-- What is to blame when a version newly fails without an error of its sandbox. -/
theorem blame_cases (steady : transition.before.Steady) (calm : ¬transition.HearsError version)
    (old : version ∉ transition.before.controller.failed)
    (new : version ∈ transition.after.controller.failed) :
    version = transition.before.controller.version ∧
      ((transition.after.Answered version ∧
          ∃ request ∈ transition.before.awaited, request.version = version) ∨
        (transition.before.controller.phase = .rendering ∧
          ∃ number, transition.before.controller.deadline = some number ∧
            ∃ task ∈ transition.before.tasks,
              task.job = .closeDeadline number version ∧
                task.due ≤ transition.before.now)) := by
  have effect := World.effect_of_sound steady.sound transition.move
  rcases effect.failed_cases with same | ⟨kind, message, blames, failed_eq⟩
  · have same : transition.after.controller.failed = transition.before.controller.failed := same
    exact absurd (same ▸ new) old
  have newest : version = transition.before.controller.version := by
    have new : version ∈ (transition.before.move transition.move).1.controller.course.failed := new
    rw [failed_eq, List.mem_cons] at new
    exact new.resolve_right old
  refine ⟨newest, ?_⟩
  subst newest
  generalize given : transition.before.occasion transition.move = occasion at blames
  cases blames with
  | answer answer =>
      exact .inl (World.answered_of_occasion steady.ordered given)
  | error message error heeds event =>
      exact absurd ⟨message, error, ⟨World.message_of_occasion given, heeds, rfl⟩, event⟩ calm
  | deadline number armed rendering =>
      obtain ⟨task, mem, job, due⟩ := World.task_of_occasion given
      exact .inr ⟨rendering, number, armed, task, mem, job, due⟩

theorem failed_of_timesOut (sound : transition.before.Sound)
    (timesOut : transition.TimesOut version) : version ∈ transition.after.controller.failed := by
  obtain ⟨metadata, time, suggestions, given⟩ := timesOut
  have effect := World.effect_of_sound sound transition.move
  have news : Notice.changed .errored version metadata
      (some ⟨.runtime, .str (Controller.timeoutMessage time), version, suggestions⟩) ∈
        transition.notices.filter Notice.isNews := List.mem_filter.2 ⟨given, rfl⟩
  exact effect.failed_of_errored news

end Transition

namespace World

variable {world : World} {version : Nat}

/-- No answer is left for a version that has been answered. -/
theorem not_handed (steady : world.Steady) (answered : world.Answered version) (move : Move)
    (answer : Answer) : world.occasion move ≠ .answer version answer := by
  intro given
  obtain ⟨index, request, -, found, version_eq⟩ := answer_of_occasion steady.sound given
  exact answered.not_awaited request (List.mem_of_getElem? found) version_eq

theorem failed_answered_move (steady : world.Steady)
    (h : version ∈ world.controller.failed → world.Answered version) {move : Move}
    (calm : ¬(Transition.mk world move).HearsError version)
    (new : version ∈ (world.move move).1.controller.failed) :
    (world.move move).1.Answered version := by
  by_cases old : version ∈ world.controller.failed
  · exact answered_move steady.sound (h old) move
  · have steady' : (Transition.mk world move).before.Steady := steady
    obtain ⟨newest, ⟨answered, -⟩ | ⟨rendering, -⟩⟩ :=
      Transition.blame_cases steady' calm old new
    · exact answered
    · have rendering : world.controller.phase = .rendering := rendering
      have resting : world.controller.phase.isResting = true := by
        rw [rendering]
        rfl
      have newest : version = world.controller.version := newest
      rw [newest]
      exact answered_move steady.sound (steady.resting_answered resting) move

/-- A version whose answer has been accepted: while it is the newest it rests or has failed. -/
structure Accepted (version : Nat) (world : World) : Prop where
  steady : world.Steady
  answered : world.Answered version
  resting_or_failed : world.controller.version = version →
    world.controller.phase.isResting = true ∨ version ∈ world.controller.failed

theorem newest_of_last (sound : world.Sound) (version_le : version ≤ world.controller.version)
    {move : Move} (last : (world.move move).1.controller.version = version) :
    version = world.controller.version :=
  Nat.le_antisymm version_le (last ▸ version_le_move sound move)

theorem accepted_move (accepted : world.Accepted version) (move : Move) :
    (world.move move).1.Accepted version where
  steady := steady_move accepted.steady move
  answered := answered_move accepted.steady.sound accepted.answered move
  resting_or_failed := by
    intro last
    have newest := newest_of_last accepted.steady.sound accepted.answered.version_le last
    subst newest
    have stays := (effect_of_sound accepted.steady.sound move).stays_resting
      (not_handed accepted.steady accepted.answered move) last (accepted.resting_or_failed rfl)
    exact stays.imp_right fun failed => last ▸ failed

/-- A version that is accepted at a time and has not yet had its full render time. -/
structure Timely (version : Nat) (start : Int) (renderTime : Milliseconds) (world : World) :
    Prop where
  accepted : world.Accepted version
  start_le : start ≤ world.now
  renderTime_eq : world.controller.version = version → world.controller.renderTime = renderTime
  patient : world.controller.version = version →
    world.Patient (start + renderTime.microseconds)
  failed_late : world.controller.version = version → version ∈ world.controller.failed →
    start + renderTime.microseconds ≤ world.now

/-- A version that has become ready, as long as no error of its sandbox comes. -/
structure Done (version : Nat) (world : World) : Prop where
  accepted : world.Accepted version
  ready : world.controller.version = version → world.controller.phase = .ready
  unfailed : version ∉ world.controller.failed

theorem timely_move {start : Int} {renderTime : Milliseconds}
    (timely : world.Timely version start renderTime) {move : Move}
    (calm : ¬(Transition.mk world move).HearsError version) :
    (world.move move).1.Timely version start renderTime := by
  have accepted := timely.accepted
  have now_le := now_le_move world move
  refine ⟨accepted_move accepted move, Int.le_trans timely.start_le now_le, ?_, ?_, ?_⟩
  all_goals
    intro last
    have newest := newest_of_last accepted.steady.sound accepted.answered.version_le last
    subst newest
  case refine_1 =>
    have same := (effect_of_sound accepted.steady.sound move).renderTime_eq
      (not_handed accepted.steady accepted.answered move)
    exact same.trans (timely.renderTime_eq rfl)
  case refine_2 =>
    refine patient_move accepted.steady.sound (timely.patient rfl) ?_ move
    rw [timely.renderTime_eq rfl]
    exact Int.add_le_add_right timely.start_le _
  case refine_3 =>
    intro new
    refine Int.le_trans ?_ now_le
    by_cases old : world.controller.version ∈ world.controller.failed
    · exact timely.failed_late rfl old
    · have steady : (Transition.mk world move).before.Steady := accepted.steady
      obtain ⟨-, ⟨-, request, mem, version_eq⟩ | ⟨-, number, armed, task, mem, job, due⟩⟩ :=
        Transition.blame_cases steady calm old new
      · exact absurd version_eq (accepted.answered.not_awaited request mem)
      · exact Int.le_trans (timely.patient rfl task mem number _ job armed) due

theorem done_move (done : world.Done version) {move : Move}
    (calm : ¬(Transition.mk world move).HearsError version) :
    (world.move move).1.Done version := by
  have accepted := done.accepted
  have steady : (Transition.mk world move).before.Steady := accepted.steady
  have unfailed : version ∉ (world.move move).1.controller.failed := by
    intro new
    obtain ⟨newest, ⟨-, request, mem, version_eq⟩ | ⟨rendering, -⟩⟩ :=
      Transition.blame_cases steady calm done.unfailed new
    · exact accepted.answered.not_awaited request mem version_eq
    · have rendering : world.controller.phase = .rendering := rendering
      rw [done.ready newest.symm] at rendering
      cases rendering
  refine ⟨accepted_move accepted move, ?_, unfailed⟩
  intro last
  have newest := newest_of_last accepted.steady.sound accepted.answered.version_le last
  subst newest
  exact (effect_of_sound accepted.steady.sound move).stays_ready
    (not_handed accepted.steady accepted.answered move) last unfailed (done.ready rfl)

end World

namespace Controller

theorem course_perform_answer {controller : Controller} (calledOff_eq : controller.calledOff = [])
    (version : Nat) (asker : Asker) (answer : Answer) :
    (controller.perform (.answer version asker answer)).course =
      (controller.receive version answer).course := by
  have wanted : controller.isCalledOff asker = false := by
    cases asker <;> simp [isCalledOff, calledOff_eq]
  simp only [perform, wanted, Bool.false_eq_true, if_false]
  rw [(quiet_endFor _ _ _).course_eq]

end Controller

namespace World

variable {world : World} {index : Nat} {request : Request}

theorem move_answer (found : world.awaited[index]? = some request) (answer : Answer) :
    world.move (.answer index answer) =
      { world with awaited := world.awaited.eraseIdx index }.act
        (·.perform (.answer request.version request.asker answer)) := by
  simp only [World.move, World.answer, found]

theorem course_answer (steady : world.Steady) (found : world.awaited[index]? = some request)
    (answer : Answer) :
    (world.move (.answer index answer)).1.controller.course =
      (world.controller.receive request.version answer).course := by
  rw [move_answer found, course_act]
  exact Controller.course_perform_answer steady.calledOff_eq _ _ _

end World

namespace Transition

variable {transition : Transition} {version : Nat}

/-- A good answer to the newest version sets it rendering. -/
theorem course_of_succeeds (steady : transition.before.Steady)
    (succeeds : transition.Succeeds version)
    (unfailed : version ∉ transition.before.controller.failed) :
    transition.after.controller.phase = .rendering ∧
      transition.after.controller.version = version ∧
      transition.after.controller.failed = transition.before.controller.failed := by
  obtain ⟨world, move⟩ := transition
  obtain ⟨index, body, request, rfl, found, request_eq, newest, isOpen, success, limited⟩ :=
    succeeds
  dsimp only at *
  have welcome : world.controller.course.Welcomes request.version body :=
    ⟨isOpen, request_eq.trans newest, request_eq ▸ unfailed, success⟩
  have course_eq : (world.move (.answer index (.ok body))).1.controller.course =
      (world.controller.accept request.version body).course := by
    rw [World.course_answer steady found, Controller.receive_of_welcome _ welcome]
  rw [Controller.course_accept, limited] at course_eq
  exact ⟨congrArg Course.phase course_eq, (congrArg Course.version course_eq).trans newest.symm,
    congrArg Course.failed course_eq⟩

/-- A good answer sets a version rendering and gives it its render time. -/
theorem timely_of_succeeds (steady : transition.before.Steady)
    (succeeds : transition.Succeeds version)
    (unfailed : version ∉ transition.before.controller.failed) :
    transition.after.controller.phase = .rendering ∧
      transition.after.controller.version = version ∧
      version ∉ transition.after.controller.failed ∧
      transition.after.Timely version transition.before.now
        transition.after.controller.renderTime := by
  obtain ⟨phase_eq, version_eq, failed_eq⟩ := course_of_succeeds steady succeeds unfailed
  have unfailed' : version ∉ transition.after.controller.failed := failed_eq ▸ unfailed
  obtain ⟨world, move⟩ := transition
  obtain ⟨index, body, request, rfl, found, request_eq, newest, -, -, -⟩ := succeeds
  dsimp only at *
  have mem : request ∈ world.awaited := List.mem_of_getElem? found
  refine ⟨phase_eq, version_eq, unfailed', ?_⟩
  refine ⟨⟨World.steady_move steady _, ?_, ?_⟩, World.now_le_move _ _, fun _ => rfl, ?_, ?_⟩
  · exact request_eq ▸ World.answered_of_answer steady.ordered found _
  · intro _
    rw [phase_eq]
    exact .inl rfl
  · intro _
    -- No deadline was in force before, for the version was still awaited.
    have disarmed : world.controller.deadline = none :=
      steady.disarmed (steady.not_rendering_of_awaited mem (request_eq.trans newest))
    have sound : World.Sound { world with awaited := world.awaited.eraseIdx index } :=
      steady.sound.of_tasks_subset fun _ mem => mem
    rw [after, World.move_answer found]
    refine World.patient_act sound ?_ (Controller.keeps_perform sound.silent _ ?_)
    · intro task mem number version job armed
      rw [disarmed] at armed
      cases armed
    · intro number version
      exact Job.noConfusion
  · intro _ failed
    exact absurd failed unfailed'

/-- A version that rests becomes ready when its sandbox says so. -/
theorem reaches_of_hearsReady (accepted : transition.before.Accepted version)
    (hears : transition.HearsReady version)
    (unfailed : version ∉ transition.before.controller.failed) : transition.Reaches version := by
  obtain ⟨message, name, timestamp, ⟨move_eq, heeds, newest⟩, event⟩ := hears
  have resting := (accepted.resting_or_failed newest).resolve_right unfailed
  have course_eq : transition.after.controller.course =
      (transition.before.controller.handle message).course := by
    rw [after, move_eq]
    exact World.course_act _
  rw [Controller.handle_of_heeds _ heeds, event] at course_eq
  dsimp only at course_eq
  split at course_eq
  · rw [Controller.course_ready] at course_eq
    exact ⟨congrArg Course.phase course_eq, (congrArg Course.version course_eq).trans newest⟩
  · next other =>
      have ready : transition.before.controller.phase = .ready := by
        cases phase : transition.before.controller.phase with
        | ready => rfl
        | rendering => exact absurd phase other
        | idle | requesting | errored =>
            rw [phase] at resting
            cases resting
      exact ⟨(congrArg Course.phase course_eq).trans ready,
        (congrArg Course.version course_eq).trans newest⟩

end Transition

namespace World

variable {world : World} {version : Nat}

theorem exists_hearsReady_of_reaches (steady : world.Steady)
    (h : ¬(world.controller.phase = .ready ∧ world.controller.version = version))
    {moves : List Move} (reaches : ∃ transition ∈ world.run moves, transition.Reaches version) :
    ∃ transition ∈ world.run moves, transition.HearsReady version ∧
      version ∉ transition.before.controller.failed := by
  induction moves generalizing world with
  | nil =>
      obtain ⟨_, mem, -⟩ := reaches
      cases mem
  | cons move moves ih =>
      by_cases now : (Transition.mk world move).Reaches version
      · refine ⟨⟨world, move⟩, List.mem_cons_self, ?_⟩
        rcases (effect_of_sound steady.sound move).ready_cases now.1 with
          ⟨ready, version_eq⟩ |
          ⟨rendering, version_eq, message, name, timestamp, given, heeds, event⟩
        · exact absurd ⟨ready, version_eq.symm.trans now.2⟩ h
        · have newest : world.controller.version = version := version_eq.symm.trans now.2
          have resting : world.controller.phase.isResting = true := by
            have rendering : world.controller.phase = .rendering := rendering
            rw [rendering]
            rfl
          refine ⟨⟨message, name, timestamp, ⟨message_of_occasion given, heeds, newest⟩, event⟩, ?_⟩
          exact newest ▸ steady.resting_unfailed resting
      · obtain ⟨transition, mem, reached⟩ := reaches
        rw [run, List.mem_cons] at mem
        have later := mem.resolve_left fun same => now (same ▸ reached)
        obtain ⟨other, mem', hears⟩ := ih (steady_move steady move) now ⟨transition, later, reached⟩
        exact ⟨other, List.mem_cons_of_mem _ mem', hears⟩

theorem steady_run (setup : Setup) (moves : List Move) :
    ((start setup).afterAll moves).Steady ∧
      ∀ transition ∈ (start setup).run moves, transition.before.Steady :=
  invariant (motive := Steady) (fun _ move steady => steady_move steady move) moves
    (steady_start setup)

/-- Without an error of its sandbox a version has not failed when its answer comes. -/
theorem unfailed_of_awaited {setup : Setup} {moves : List Move}
    (calm : ∀ transition ∈ (start setup).run moves, ¬transition.HearsError version)
    (awaited : ∃ request ∈ ((start setup).afterAll moves).awaited, request.version = version) :
    version ∉ ((start setup).afterAll moves).controller.failed := by
  have kept := run_induction
    (motive := fun world => world.Steady ∧
      (version ∈ world.controller.failed → world.Answered version))
    (fun world move h calm =>
      ⟨steady_move h.1 move, failed_answered_move h.1 h.2 calm⟩)
    ⟨steady_start setup, fun failed => nomatch failed⟩ calm
  intro failed
  obtain ⟨request, mem, version_eq⟩ := awaited
  exact (kept.1.2 failed).not_awaited request mem version_eq

theorem not_reaches_of_awaited {setup : Setup} {moves : List Move}
    (awaited : ∃ request ∈ ((start setup).afterAll moves).awaited, request.version = version) :
    ∀ transition ∈ (start setup).run moves, ¬transition.Reaches version := by
  rintro transition mem ⟨ready, newest⟩
  have steady : transition.after.Steady := steady_move ((steady_run setup moves).2 transition mem) _
  have resting : transition.after.controller.phase.isResting = true := by
    rw [ready]
    rfl
  obtain ⟨before, after, moves_eq, before_eq⟩ := exists_split_of_mem_run mem
  have last : (start setup).afterAll moves = transition.after.afterAll after := by
    rw [moves_eq, afterAll_append, ← before_eq]
    rfl
  have answered := (answered_run steady.sound (steady.resting_answered resting) after).1
  rw [← last, newest] at answered
  obtain ⟨request, mem, version_eq⟩ := awaited
  exact answered.not_awaited request mem version_eq

theorem failed_run (sound : world.Sound) (failed : version ∈ world.controller.failed)
    (moves : List Move) : version ∈ (world.afterAll moves).controller.failed := by
  refine (invariant (motive := fun world => world.Sound ∧ version ∈ world.controller.failed)
    ?_ moves ⟨sound, failed⟩).1.2
  rintro world move ⟨sound, failed⟩
  exact ⟨sound_move sound move, (effect_of_sound sound move).failed_subset failed⟩

theorem failed_of_timesOut (sound : world.Sound) {moves : List Move} {transition : Transition}
    (mem : transition ∈ world.run moves) (timesOut : transition.TimesOut version) :
    version ∈ (world.afterAll moves).controller.failed := by
  obtain ⟨earlier, later, rfl, before_eq⟩ := exists_split_of_mem_run mem
  have sound_before : transition.before.Sound := by
    rw [before_eq]
    exact (invariant (motive := Sound) (fun _ move sound => sound_move sound move) earlier sound).1
  have last : world.afterAll (earlier ++ transition.move :: later) =
      transition.after.afterAll later := by
    rw [afterAll_append, ← before_eq]
    rfl
  rw [last]
  exact failed_run (sound_move sound_before _)
    (Transition.failed_of_timesOut sound_before timesOut) later

/-- A report that comes while an accepted version rests makes it ready for good. -/
theorem done_of_hearsReady (accepted : world.Accepted version) {moves : List Move}
    (calm : ∀ transition ∈ world.run moves, ¬transition.HearsError version)
    (heard : ∃ transition ∈ world.run moves, transition.HearsReady version ∧
      version ∉ transition.before.controller.failed) :
    (∃ transition ∈ world.run moves, transition.Reaches version) ∧
      version ∉ (world.afterAll moves).controller.failed := by
  obtain ⟨transition, mem, hears, early⟩ := heard
  have accepted_before := (invariant (motive := Accepted version)
    (fun _ move accepted => accepted_move accepted move) moves accepted).2 transition mem
  have reaches := transition.reaches_of_hearsReady accepted_before hears early
  refine ⟨⟨transition, mem, reaches⟩, ?_⟩
  have accepted_after : transition.after.Accepted version := accepted_move accepted_before _
  have resting : transition.after.controller.phase.isResting = true := by
    rw [reaches.1]
    rfl
  have done : transition.after.Done version :=
    ⟨accepted_after, fun _ => reaches.1,
      reaches.2 ▸ accepted_after.steady.resting_unfailed resting⟩
  obtain ⟨earlier, later, rfl, before_eq⟩ := exists_split_of_mem_run mem
  have run_eq : world.run (earlier ++ transition.move :: later) =
      world.run earlier ++ transition :: transition.after.run later := by
    rw [run_append, ← before_eq]
    rfl
  have last : world.afterAll (earlier ++ transition.move :: later) =
      transition.after.afterAll later := by
    rw [afterAll_append, ← before_eq]
    rfl
  have calm_after : ∀ other ∈ transition.after.run later, ¬other.HearsError version := by
    intro other mem'
    refine calm other ?_
    rw [run_eq]
    exact List.mem_append_right _ (List.mem_cons_of_mem _ mem')
  rw [last]
  exact (run_induction (motive := Done version) (fun _ _ done calm => done_move done calm)
    done calm_after).1.unfailed

/-- Within the render time an accepted version does not fail without an error of its sandbox. -/
theorem unfailed_in_time {start : Int} {renderTime : Milliseconds}
    (timely : world.Timely version start renderTime) {moves : List Move}
    (calm : ∀ transition ∈ world.run moves, ¬transition.HearsError version)
    {transition : Transition} (mem : transition ∈ world.run moves)
    (hears : transition.HearsReady version)
    (early : transition.before.now < start + renderTime.microseconds) :
    version ∉ transition.before.controller.failed := by
  obtain ⟨message, name, timestamp, ⟨-, -, newest⟩, -⟩ := hears
  have kept := (run_induction (motive := fun world => world.Timely version start renderTime)
    (fun _ _ timely calm => timely_move timely calm) timely calm).2 transition mem
  intro failed
  exact absurd (kept.failed_late newest failed) (Int.not_le.2 early)

/-- A version whose good answer comes while it is the newest, and for which no error is reported,
becomes ready and does not time out just when its sandbox reports after that answer and before the
version has failed; a report within the render time is early enough. A report that comes before the
answer is lost. -/
theorem ready_iff_heard_after_answer (setup : Setup) (earlier later : List Move) (move : Move)
    (version : Nat)
    (succeeds : (Transition.mk ((start setup).afterAll earlier) move).Succeeds version)
    (calm : ∀ transition ∈ (start setup).run (earlier ++ move :: later),
      ¬transition.HearsError version) :
    let answered : Transition := ⟨(start setup).afterAll earlier, move⟩
    let run := (start setup).run (earlier ++ move :: later)
    (((∃ transition ∈ run, transition.Reaches version) ∧
        ∀ transition ∈ run, ¬transition.TimesOut version) ↔
      ∃ transition ∈ answered.after.run later, transition.HearsReady version ∧
        version ∉ transition.before.controller.failed) ∧
    ((∃ transition ∈ run, transition.Reaches version) →
      version ∉ ((start setup).afterAll (earlier ++ move :: later)).controller.failed) ∧
    ∀ transition ∈ answered.after.run later, transition.HearsReady version →
      transition.before.now <
        answered.before.now + answered.after.controller.renderTime.microseconds →
      version ∉ transition.before.controller.failed := by
  intro answered run
  have run_eq : run = (start setup).run earlier ++ answered :: answered.after.run later :=
    run_append earlier (move :: later)
  have last_eq :
      (start setup).afterAll (earlier ++ move :: later) = answered.after.afterAll later :=
    afterAll_append earlier (move :: later)
  have calm : ∀ transition ∈ run, ¬transition.HearsError version := calm
  rw [run_eq] at calm
  have calm_later : ∀ transition ∈ answered.after.run later, ¬transition.HearsError version :=
    fun transition mem => calm _ (List.mem_append_right _ (List.mem_cons_of_mem _ mem))
  have awaited : ∃ request ∈ answered.before.awaited, request.version = version := by
    obtain ⟨index, body, request, -, found, request_eq, -⟩ := succeeds
    exact ⟨request, List.mem_of_getElem? found, request_eq⟩
  have unfailed : version ∉ answered.before.controller.failed :=
    unfailed_of_awaited (fun transition mem => calm _ (List.mem_append_left _ mem)) awaited
  obtain ⟨rendering, -, -, timely⟩ :=
    answered.timely_of_succeeds (steady_run setup earlier).1 succeeds unfailed
  have not_ready : answered.after.controller.phase ≠ .ready := by
    rw [rendering]
    exact Phase.noConfusion
  -- Before the answer the version was not ready, so what follows the answer decides.
  have heard : (∃ transition ∈ run, transition.Reaches version) →
      ∃ transition ∈ answered.after.run later, transition.HearsReady version ∧
        version ∉ transition.before.controller.failed := by
    rintro ⟨transition, mem, reaches⟩
    refine exists_hearsReady_of_reaches timely.accepted.steady (fun ready => not_ready ready.1)
      ⟨transition, ?_, reaches⟩
    rw [run_eq, List.mem_append, List.mem_cons] at mem
    rcases mem with mem | rfl | mem
    · exact absurd reaches (not_reaches_of_awaited awaited transition mem)
    · exact absurd reaches.1 not_ready
    · exact mem
  have done := done_of_hearsReady timely.accepted calm_later
  refine ⟨⟨fun verdict => heard verdict.1, ?_⟩, ?_, ?_⟩
  · intro hears
    obtain ⟨⟨transition, mem, reaches⟩, unfailed⟩ := done hears
    refine ⟨⟨transition, ?_, reaches⟩, ?_⟩
    · rw [run_eq]
      exact List.mem_append_right _ (List.mem_cons_of_mem _ mem)
    · intro transition mem timesOut
      rw [← last_eq] at unfailed
      exact unfailed (failed_of_timesOut (sound_start setup) mem timesOut)
  · intro reaches
    rw [last_eq]
    exact (done (heard reaches)).2
  · exact fun transition mem => unfailed_in_time timely calm_later mem

theorem calm_of_moves {moves : List Move}
    (h : ∀ message, .message message ∈ moves → ∀ error, message.event ≠ .error error)
    (version : Nat) : ∀ transition ∈ world.run moves, ¬transition.HearsError version := by
  rintro transition mem ⟨message, error, ⟨move_eq, -, -⟩, event⟩
  obtain ⟨earlier, later, moves_eq, -⟩ := exists_split_of_mem_run mem
  refine h message ?_ error event
  rw [moves_eq, ← move_eq]
  exact List.mem_append_right _ List.mem_cons_self

/-- The moves by which a session of its own asks for a first version. -/
def firstRequest : List Move :=
  [.edit "x", .refresh "", .work 1]

def firstReport : Move :=
  .message ⟨"s", some 1, .ready none none⟩

def firstAnswer : Move :=
  .answer 0 (.ok (.obj [("success", .bool true), ("previewHTML", .str "<p></p>")]))

/-- The deadline of the first version begins and ends. -/
def firstDeadline : List Move :=
  [.work 1, .pass 5000000, .work 1]

theorem ready_after_answer_is_heard :
    ∃ transition ∈ (start { session := "s" }).run
      (firstRequest ++ firstAnswer :: firstReport :: firstDeadline), transition.Reaches 1 := by
  refine ((ready_iff_heard_after_answer _ firstRequest (firstReport :: firstDeadline) firstAnswer 1
    ⟨0, _, _, rfl, rfl, rfl, rfl, rfl, rfl, rfl⟩ ?_).1.2 ?_).1
  · refine calm_of_moves ?_ 1
    simp [firstRequest, firstAnswer, firstReport, firstDeadline]
  · refine ⟨_, List.mem_cons_self, ⟨_, none, none, ⟨rfl, ⟨rfl, rfl, ?_⟩, rfl⟩, rfl⟩, ?_⟩
    · rintro version ⟨⟩
      rfl
    · exact List.not_mem_nil

/-- The page reports before its answer comes, and nothing else happens until it times out. -/
theorem ready_before_answer_is_lost :
    ∃ (setup : Setup) (earlier later : List Move) (move : Move) (version : Nat),
      let answered : Transition := ⟨(start setup).afterAll earlier, move⟩
      let run := (start setup).run (earlier ++ move :: later)
      (∃ transition ∈ (start setup).run earlier, transition.HearsReady version) ∧
      answered.Succeeds version ∧
      (∀ transition ∈ run, ¬transition.HearsError version) ∧
      (∀ transition ∈ answered.after.run later,
        transition.after.controller.version = version ∧
          transition.after.controller.isClosed = false) ∧
      (∀ transition ∈ run, ¬transition.Reaches version) ∧
      ∃ transition ∈ run, transition.TimesOut version := by
  refine ⟨{ session := "s" }, firstRequest ++ [firstReport], firstDeadline, firstAnswer, 1,
    ?_, ?_, ?_, ?_, ?_, ?_⟩
  · refine ⟨_, List.mem_of_getElem? (i := 3) rfl, ⟨"s", some 1, .ready none none⟩, none, none,
      ⟨rfl, ⟨rfl, rfl, ?_⟩, rfl⟩, rfl⟩
    rintro version ⟨⟩
    rfl
  · exact ⟨0, _, _, rfl, rfl, rfl, rfl, rfl, rfl, rfl⟩
  · refine calm_of_moves ?_ 1
    simp [firstRequest, firstAnswer, firstReport, firstDeadline]
  · decide
  · decide
  · exact ⟨_, List.mem_of_getElem? (i := 7) rfl, .obj [], .count 5000, [],
      List.mem_of_getElem? (i := 0) rfl⟩

end World

end ComponentPreview
