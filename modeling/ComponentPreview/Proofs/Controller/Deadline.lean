import ComponentPreview.Proofs.Controller.Effect

/-!
# Deadlines among the tasks

A deadline has a number of its own, which no debounce shares, so that calling off a debounce never
hurries a deadline that is still wanted. A deadline that is not hurried ends when the render time
has gone by since its rendering began, and not before.
-/

namespace ComponentPreview

namespace Notice

/-- Whether a notice leaves a deadline to run its time and hands over no answer. -/
def Spares (deadline : Option Nat) : Notice → Prop
  | post (.answer ..) | hold _ (.answer ..) => False
  | post (.closeDeadline ..) | hold _ (.closeDeadline ..) => False
  | hurry number => deadline ≠ some number
  | _ => True

theorem spares_of_isPlain {notice : Notice} (h : notice.isPlain = true) (deadline : Option Nat) :
    notice.Spares deadline := by
  match notice with
  | .post job | .hold _ job => cases job <;> simp_all [isPlain, Job.isPlain, Spares]
  | .hurry _ | .changed .. | .requested _ | .shown .. | .closed => simp [isPlain] at h
  | .returned .. | .settled .. | .gaveUp .. | .fullscreen => trivial

def job? : Notice → Option Job
  | post job | hold _ job => some job
  | _ => none

theorem not_spares_of_job {notice : Notice} {number version : Nat} {deadline : Option Nat}
    (h : notice.job? = some (.closeDeadline number version)) : ¬notice.Spares deadline := by
  cases notice <;> simp_all [job?, Spares]

theorem not_spares_of_answer {notice : Notice} {version : Nat} {asker : Asker} {answer : Answer}
    {deadline : Option Nat} (h : notice.job? = some (.answer version asker answer)) :
    ¬notice.Spares deadline := by
  cases notice <;> simp_all [job?, Spares]

end Notice

namespace Controller

structure Numbered (controller : Controller) : Prop where
  deadline_lt : ∀ number, controller.deadline = some number → number < controller.nextJob
  debounce_lt : ∀ number, controller.debounce = some number → number < controller.nextJob
  apart : ∀ number, controller.deadline = some number → controller.debounce ≠ some number

/-- An operation of a controller without notices that keeps its numbers in order. -/
structure Keeps (before after : Controller) : Prop where
  numbered : before.Numbered → after.Numbered
  spares : before.Numbered → ∀ notice ∈ after.notices, notice.Spares after.deadline
  nextJob_le : before.nextJob ≤ after.nextJob
  deadline_fresh : ∀ number, after.deadline = some number →
    before.deadline = some number ∨ before.nextJob ≤ number

namespace Keeps

variable {before after last : Controller}

theorem of_same (deadline_eq : after.deadline = before.deadline)
    (debounce_eq : after.debounce = before.debounce) (nextJob_eq : after.nextJob = before.nextJob)
    (spares : ∀ notice ∈ after.notices, notice.Spares after.deadline) : Keeps before after where
  numbered numbered := by
    refine ⟨?_, ?_, ?_⟩
    · rw [deadline_eq, nextJob_eq]
      exact numbered.deadline_lt
    · rw [debounce_eq, nextJob_eq]
      exact numbered.debounce_lt
    · rw [deadline_eq, debounce_eq]
      exact numbered.apart
  spares _ := spares
  nextJob_le := Nat.le_of_eq nextJob_eq.symm
  deadline_fresh number h := .inl (deadline_eq ▸ h)

theorem of_disarmed (deadline_eq : after.deadline = none)
    (debounce_eq : ∀ number, after.debounce = some number → before.debounce = some number)
    (nextJob_eq : after.nextJob = before.nextJob)
    (spares : ∀ notice ∈ after.notices, notice.Spares none) : Keeps before after where
  numbered numbered := by
    refine ⟨by simp [deadline_eq], ?_, by simp [deadline_eq]⟩
    intro number h
    rw [nextJob_eq]
    exact numbered.debounce_lt number (debounce_eq number h)
  spares _ := by rwa [deadline_eq]
  nextJob_le := Nat.le_of_eq nextJob_eq.symm
  deadline_fresh := by simp [deadline_eq]

theorem refl (h : before.notices = []) : Keeps before before :=
  of_same rfl rfl rfl (by simp [h])

theorem trans_quiet (keeps : Keeps before after) (quiet : Quiet after last) :
    Keeps before last := by
  have deadline_eq : last.deadline = after.deadline := congrArg Course.deadline quiet.course_eq
  obtain ⟨notices, notices_eq, plain⟩ := quiet.adds
  refine ⟨fun numbered => ⟨?_, ?_, ?_⟩, ?_, Nat.le_trans keeps.nextJob_le quiet.nextJob_le, ?_⟩
  · intro number h
    exact Nat.lt_of_lt_of_le ((keeps.numbered numbered).deadline_lt number (deadline_eq ▸ h))
      quiet.nextJob_le
  · intro number h
    exact Nat.lt_of_lt_of_le
      ((keeps.numbered numbered).debounce_lt number (quiet.debounce_eq number h)) quiet.nextJob_le
  · intro number h debounce
    exact (keeps.numbered numbered).apart number (deadline_eq ▸ h)
      (quiet.debounce_eq number debounce)
  · intro numbered notice mem
    rw [notices_eq, List.mem_append] at mem
    rcases mem with mem | mem
    · exact deadline_eq ▸ keeps.spares numbered notice mem
    · exact Notice.spares_of_isPlain (plain notice mem) _
  · intro number h
    exact keeps.deadline_fresh number (deadline_eq ▸ h)

end Keeps

variable {before after : Controller}

theorem Quiet.keeps (quiet : Quiet before after) (h : before.notices = []) : Keeps before after :=
  (Keeps.refl h).trans_quiet quiet

theorem spares_hurry (number : Option Nat) :
    ∀ notice ∈ (number.map Notice.hurry).toList, notice.Spares none := by
  cases number <;> simp [Notice.Spares]

theorem keeps_request (h : before.notices = []) (asker : Asker) :
    Keeps before (before.request asker) := by
  cases code : before.code with
  | none => exact (before.quiet_request asker code).keeps h
  | some source =>
      rw [before.request_eq asker code]
      refine .of_disarmed rfl (fun _ h => h) rfl ?_
      simp only [h, List.nil_append, List.mem_append]
      rintro notice (hurried | new)
      · exact spares_hurry _ notice hurried
      · simp only [List.mem_cons, List.not_mem_nil, or_false] at new
        rcases new with rfl | rfl <;> trivial

theorem keeps_fail (h : before.notices = []) (kind : FailureKind) (message : Json) (version : Nat)
    (suggestions : List Json) : Keeps before (before.fail kind message version suggestions) := by
  by_cases failed : version ∈ before.failed
  · rw [fail_of_mem _ failed]
    exact .refl h
  · rw [fail_eq _ failed]
    refine .of_disarmed rfl (fun _ h => h) rfl ?_
    simp only [h, List.nil_append, List.mem_append]
    rintro notice (hurried | new)
    · exact spares_hurry _ notice hurried
    · split at new
      · rw [List.mem_singleton] at new
        subst new
        trivial
      · cases new

theorem keeps_display (h : before.notices = []) (version : Nat) :
    Keeps before (before.display version) := by
  rw [display_eq]
  refine ⟨fun numbered => ⟨?_, ?_, ?_⟩, ?_, Nat.le_succ _, ?_⟩
  · rintro number ⟨⟩
    exact Nat.lt_succ_self _
  · intro number h
    exact Nat.lt_succ_of_lt (numbered.debounce_lt number h)
  · rintro number ⟨⟩ debounce
    exact Nat.lt_irrefl _ (numbered.debounce_lt _ debounce)
  · intro _ notice mem
    simp only [h, List.nil_append, List.mem_append, List.mem_singleton] at mem
    rcases mem with (rfl | shown) | rfl
    · trivial
    · split at shown
      · cases shown
      · rw [List.mem_singleton] at shown
        subst shown
        trivial
    · trivial
  · rintro number ⟨⟩
    exact .inr (Nat.le_refl _)

theorem keeps_accept (h : before.notices = []) (version : Nat) (body : Json) :
    Keeps before (before.accept version body) := by
  rw [accept_eq]
  split
  · exact .of_same rfl rfl rfl (by simp [h])
  · next limits _ =>
      have taken : Keeps before (before.takeOver body limits) :=
        .of_same rfl rfl rfl (by simp [takeOver, adoptLimits, h])
      split
      · refine .of_same rfl rfl rfl ?_
        simp [takeOver, adoptLimits, enter, note, h, Notice.Spares]
      · have silent : (before.takeOver body limits).notices = [] := h
        have shown := keeps_display silent version
        exact ⟨fun numbered => shown.numbered (taken.numbered numbered),
          fun numbered => shown.spares (taken.numbered numbered), shown.nextJob_le,
          shown.deadline_fresh⟩

theorem keeps_receive (h : before.notices = []) (version : Nat) (answer : Answer) :
    Keeps before (before.receive version answer) := by
  rcases before.receive_cases version answer with
    ⟨body, rfl, welcome⟩ | same | ⟨-, -, -, kind, message, suggestions, failing⟩
  · rw [before.receive_of_welcome welcome]
    exact keeps_accept h version body
  · rw [same]
    exact .refl h
  · rw [failing]
    exact keeps_fail h kind message version suggestions

theorem keeps_handle (h : before.notices = []) (message : LifecycleMessage) :
    Keeps before (before.handle message) := by
  rcases before.handle_cases message with
    same | ⟨name, timestamp, -, -, -, ready⟩ | ⟨error, -, -, fails⟩
  · rw [same]
    exact .refl h
  · rw [ready, ready_eq]
    refine .of_disarmed rfl (fun _ h => h) rfl ?_
    simp only [h, List.nil_append, List.mem_append, List.mem_singleton]
    rintro notice (hurried | rfl)
    · exact spares_hurry _ notice hurried
    · trivial
  · rw [fails]
    exact (keeps_fail h _ _ _ _).trans_quiet (quiet_seed _ _)

theorem keeps_close (h : before.notices = []) : Keeps before before.close := by
  cases isClosed : before.isClosed with
  | true =>
      rw [before.close_of_closed isClosed]
      exact .refl h
  | false =>
      rw [before.close_eq isClosed]
      refine .of_disarmed rfl (by simp) rfl ?_
      simp only [h, List.nil_append, List.mem_append, List.mem_singleton, List.mem_map]
      rintro notice (((hurried | hurried) | ⟨number, -, rfl⟩) | rfl)
      · exact spares_hurry _ notice hurried
      · exact spares_hurry _ notice hurried
      · simp [Notice.Spares]
      · trivial

theorem keeps_edit (h : before.notices = []) (code : String) : Keeps before (before.edit code) := by
  cases isClosed : before.isClosed with
  | true =>
      rw [edit, if_pos isClosed]
      exact .refl h
  | false =>
      rw [before.edit_eq isClosed]
      refine ⟨fun numbered => ⟨?_, ?_, ?_⟩, ?_, Nat.le_succ _, fun _ h => .inl h⟩
      · intro number h
        exact Nat.lt_succ_of_lt (numbered.deadline_lt number h)
      · rintro number ⟨⟩
        exact Nat.lt_succ_self _
      · rintro number h ⟨⟩
        exact Nat.lt_irrefl _ (numbered.deadline_lt _ h)
      · intro numbered notice mem
        simp only [taking, note, h, List.nil_append, List.mem_append, List.mem_singleton,
          Option.mem_toList, Option.map_eq_some_iff] at mem
        rcases mem with ⟨number, debounce, rfl⟩ | rfl
        · exact fun deadline => numbered.apart number deadline debounce
        · trivial

theorem keeps_refresh (h : before.notices = []) (caller : String) :
    Keeps before (before.refresh caller) := by
  rcases before.refresh_cases caller with ⟨-, returns⟩ | ⟨code, -, -, found, requests⟩
  · rw [returns]
    exact ((Quiet.refl before).note rfl).keeps h
  · rw [requests, request_eq _ _ found, callOffDebounce_eq]
    refine .of_disarmed rfl (by simp) rfl ?_
    simp only [h, List.nil_append, List.mem_append]
    rintro notice ((hurried | hurried) | new)
    · exact spares_hurry _ notice hurried
    · exact spares_hurry _ notice hurried
    · simp only [List.mem_cons, List.not_mem_nil, or_false] at new
      rcases new with rfl | rfl <;> trivial

theorem keeps_closeDeadline (h : before.notices = []) (number version : Nat) :
    Keeps before (before.closeDeadline number version) := by
  have disarmed : Keeps before { before with deadline := none } :=
    .of_disarmed rfl (fun _ h => h) rfl (by simp [h])
  rcases before.closeDeadline_cases number version with same | disarms | ⟨-, -, -, -, fails⟩
  · rw [same]
    exact .refl h
  · rw [disarms]
    exact disarmed
  · have silent : Controller.notices { before with deadline := none } = [] := h
    have failing :=
      keeps_fail silent .runtime (.str (timeoutMessage before.renderTime)) version []
    rw [fails]
    refine ⟨fun numbered => failing.numbered (disarmed.numbered numbered),
      fun numbered => failing.spares (disarmed.numbered numbered), failing.nextJob_le, ?_⟩
    intro number found
    exact (failing.deadline_fresh number found).imp (fun armed => nomatch armed) id

theorem keeps_perform (h : before.notices = []) (job : Job)
    (other : ∀ number version, job ≠ .openDeadline number version) :
    Keeps before (before.perform job) := by
  cases job with
  | openDebounce number => exact (before.quiet_openDebounce number).keeps h
  | closeDebounce number => exact (before.quiet_closeDebounce number).keeps h
  | request number =>
      simp only [perform]
      split
      · exact (quiet_finish _ _ _).keeps h
      · exact keeps_request h _
  | refresh caller => exact keeps_refresh h caller
  | answer version asker answer =>
      simp only [perform]
      split
      · exact (quiet_endFor _ _ _).keeps h
      · exact (keeps_receive h version answer).trans_quiet (quiet_endFor _ _ _)
  | retire number => exact .of_same rfl rfl rfl (by simp [perform, h])
  | openDeadline number version => exact absurd rfl (other number version)
  | closeDeadline number version => exact keeps_closeDeadline h number version
  | attend waiter => exact (before.quiet_attend waiter).keeps h

end Controller

namespace World

/-- A task once a notice was taken up was there before, and then it keeps its time unless it was
hurried, or the notice gave it. -/
theorem tasks_heed {world : World} {notice : Notice} {task : Appointment}
    (h : task ∈ (world.heed notice).tasks) :
    (∃ old ∈ world.tasks, task.job = old.job ∧
      (task.due = old.due ∨ ∃ number, old.job.number? = some number ∧ notice = .hurry number)) ∨
    notice.job? = some task.job := by
  cases notice with
  | post job | hold delay job =>
      simp only [heed, List.mem_append, List.mem_singleton] at h
      rcases h with mem | rfl
      · exact .inl ⟨task, mem, rfl, .inl rfl⟩
      · exact .inr rfl
  | hurry number =>
      simp only [heed, List.mem_map] at h
      obtain ⟨old, mem, rfl⟩ := h
      refine .inl ⟨old, mem, ?_⟩
      unfold Appointment.hurried
      split
      case isTrue meant => exact ⟨rfl, .inr ⟨number, meant, rfl⟩⟩
      case isFalse => exact ⟨rfl, .inl rfl⟩
  | _ => exact .inl ⟨task, h, rfl, .inl rfl⟩

theorem tasks_foldl_heed {world : World} {notices : List Notice} {task : Appointment}
    (h : task ∈ (notices.foldl heed world).tasks) :
    (∃ old ∈ world.tasks, task.job = old.job ∧
      (task.due = old.due ∨ ∃ number, old.job.number? = some number ∧ .hurry number ∈ notices)) ∨
    ∃ notice ∈ notices, notice.job? = some task.job := by
  induction notices generalizing world with
  | nil => exact .inl ⟨task, h, rfl, .inl rfl⟩
  | cons notice notices ih =>
      rcases ih h with ⟨last, mem, job_eq, due⟩ | ⟨giver, mem, given⟩
      case inr => exact .inr ⟨giver, List.mem_cons_of_mem _ mem, given⟩
      rcases tasks_heed mem with ⟨old, old_mem, old_job_eq, old_due⟩ | given
      case inr => exact .inr ⟨notice, List.mem_cons_self, job_eq ▸ given⟩
      refine .inl ⟨old, old_mem, job_eq.trans old_job_eq, ?_⟩
      rcases due with due | ⟨number, meant, hurried⟩
      · rcases old_due with old_due | ⟨number, meant, rfl⟩
        · exact .inl (due.trans old_due)
        · exact .inr ⟨number, meant, List.mem_cons_self⟩
      · exact .inr ⟨number, old_job_eq ▸ meant, List.mem_cons_of_mem _ hurried⟩

/-- What holds of every world: nothing is left to say, the numbers are in order, and no answer waits
among the tasks. -/
structure Sound (world : World) : Prop where
  silent : world.controller.notices = []
  numbered : world.controller.Numbered
  answerless : ∀ task ∈ world.tasks, ∀ version asker answer,
    task.job ≠ .answer version asker answer
  closing_lt : ∀ task ∈ world.tasks, ∀ number version,
    task.job = .closeDeadline number version → number < world.controller.nextJob

/-- Whether the deadline that is in force does not end before a time. -/
def Patient (floor : Int) (world : World) : Prop :=
  ∀ task ∈ world.tasks, ∀ number version, task.job = .closeDeadline number version →
    world.controller.deadline = some number → floor ≤ task.due

theorem sound_start (setup : Setup) : (start setup).Sound where
  silent := rfl
  numbered := by constructor <;> simp [start, Setup.controller]
  answerless := by simp [start]
  closing_lt := by simp [start]

variable {world : World}

theorem Sound.of_tasks_subset {tasks : List Appointment} {awaited : List Request}
    (sound : world.Sound) (h : ∀ task ∈ tasks, task ∈ world.tasks) :
    Sound { world with tasks, awaited } where
  silent := sound.silent
  numbered := sound.numbered
  answerless task mem := sound.answerless task (h task mem)
  closing_lt task mem := sound.closing_lt task (h task mem)

theorem sound_act (sound : world.Sound) {action : Controller → Controller}
    (keeps : world.controller.Keeps (action world.controller)) : (world.act action).1.Sound where
  silent := by simp
  numbered := by
    have numbered := keeps.numbered sound.numbered
    rw [act_controller]
    exact ⟨numbered.deadline_lt, numbered.debounce_lt, numbered.apart⟩
  answerless task mem version asker answer job := by
    rcases tasks_foldl_heed mem with ⟨old, old_mem, job_eq, -⟩ | ⟨notice, given, job_eq⟩
    · exact sound.answerless old old_mem version asker answer (job_eq ▸ job)
    · exact Notice.not_spares_of_answer (job_eq.trans (congrArg some job))
        (keeps.spares sound.numbered notice given)
  closing_lt task mem number version job := by
    rw [act_controller]
    rcases tasks_foldl_heed mem with ⟨old, old_mem, job_eq, -⟩ | ⟨notice, given, job_eq⟩
    · exact Nat.lt_of_lt_of_le (sound.closing_lt old old_mem number version (job_eq ▸ job))
        keeps.nextJob_le
    · exact absurd (keeps.spares sound.numbered notice given)
        (Notice.not_spares_of_job (job_eq.trans (congrArg some job)))

theorem patient_act {floor : Int} (sound : world.Sound) (patient : world.Patient floor)
    {action : Controller → Controller}
    (keeps : world.controller.Keeps (action world.controller)) :
    (world.act action).1.Patient floor := by
  intro task mem number version job armed
  rw [act_controller] at armed
  rcases tasks_foldl_heed mem with ⟨old, old_mem, job_eq, due⟩ | ⟨notice, given, job_eq⟩
  case inr =>
    exact absurd (keeps.spares sound.numbered notice given)
      (Notice.not_spares_of_job (job_eq.trans (congrArg some job)))
  have old_job : old.job = .closeDeadline number version := job_eq ▸ job
  rcases due with due | ⟨hurried, meant, given⟩
  · rw [due]
    refine patient old old_mem number version old_job ?_
    refine (keeps.deadline_fresh number armed).resolve_right (Nat.not_le_of_lt ?_)
    exact sound.closing_lt old old_mem number version old_job
  · rw [old_job] at meant
    obtain rfl : number = hurried := Option.some.inj meant
    exact absurd armed (keeps.spares sound.numbered _ given)

theorem tasks_act_openDeadline (silent : world.controller.notices = []) (number version : Nat) :
    (world.act (·.perform (.openDeadline number version))).1.tasks = world.tasks ++
      if world.controller.deadline = some number then
        [⟨world.now + world.controller.renderTime.microseconds, .closeDeadline number version⟩]
      else [] := by
  by_cases armed : world.controller.deadline = some number <;>
    simp [act, Controller.perform, Controller.openDeadline_eq, Controller.flush, silent, armed,
      heed]

theorem controller_act_openDeadline (silent : world.controller.notices = [])
    (number version : Nat) :
    (world.act (·.perform (.openDeadline number version))).1.controller = world.controller := by
  simp [Controller.perform, Controller.openDeadline_eq, ← silent]

theorem sound_act_perform (sound : world.Sound) (job : Job) :
    (world.act (·.perform job)).1.Sound := by
  by_cases opening : ∃ number version, job = .openDeadline number version
  case neg =>
    refine sound_act sound (Controller.keeps_perform sound.silent job ?_)
    exact fun number version eq => opening ⟨number, version, eq⟩
  obtain ⟨number, version, rfl⟩ := opening
  have tasks_eq := tasks_act_openDeadline sound.silent number version
  have same := controller_act_openDeadline sound.silent number version
  refine ⟨same ▸ sound.silent, same ▸ sound.numbered, ?_, ?_⟩
  · intro task mem version' asker answer
    rw [tasks_eq, List.mem_append] at mem
    rcases mem with mem | mem
    · exact sound.answerless task mem version' asker answer
    · split at mem
      · rw [List.mem_singleton] at mem
        simp [mem]
      · cases mem
  · intro task mem number' version' job
    rw [same]
    rw [tasks_eq, List.mem_append] at mem
    rcases mem with mem | mem
    · exact sound.closing_lt task mem number' version' job
    · split at mem
      case isTrue armed =>
        rw [List.mem_singleton] at mem
        rw [mem] at job
        cases job
        exact sound.numbered.deadline_lt number armed
      case isFalse => cases mem

theorem patient_act_perform {floor : Int} (sound : world.Sound) (patient : world.Patient floor)
    (h : floor ≤ world.now + world.controller.renderTime.microseconds) (job : Job) :
    (world.act (·.perform job)).1.Patient floor := by
  by_cases opening : ∃ number version, job = .openDeadline number version
  case neg =>
    refine patient_act sound patient (Controller.keeps_perform sound.silent job ?_)
    exact fun number version eq => opening ⟨number, version, eq⟩
  obtain ⟨number, version, rfl⟩ := opening
  intro task mem number' version' job armed
  rw [controller_act_openDeadline sound.silent] at armed
  rw [tasks_act_openDeadline sound.silent, List.mem_append] at mem
  rcases mem with mem | mem
  · exact patient task mem number' version' job armed
  · split at mem
    · rw [List.mem_singleton] at mem
      rw [mem]
      exact h
    · cases mem

/-- A move lets time pass, or something comes from outside, or a job is done that was among the
tasks or is an answer. -/
theorem move_cases (silent : world.controller.notices = []) (move : Move) :
    (∃ span : Nat, world.move move = ({ world with now := world.now + span }, [])) ∨
    (∃ action, world.move move = world.act action ∧
      world.controller.Keeps (action world.controller)) ∨
    ∃ tasks awaited job, (∀ task ∈ tasks, task ∈ world.tasks) ∧
      world.move move = { world with tasks, awaited }.act (·.perform job) := by
  have idle : ∃ span : Nat, (world, ([] : List Notice)) =
      ({ world with now := world.now + span }, []) := ⟨0, by simp⟩
  cases move with
  | pass span => exact .inl ⟨span, rfl⟩
  | edit code => exact .inr (.inl ⟨(·.edit code), rfl, Controller.keeps_edit silent code⟩)
  | refresh caller =>
      exact .inr (.inl ⟨(·.note (.post (.refresh caller))), rfl,
        ((Controller.Quiet.refl _).note rfl).keeps silent⟩)
  | fullscreen => exact .inr (.inl ⟨_, rfl, (Controller.quiet_fullscreen _).keeps silent⟩)
  | close => exact .inr (.inl ⟨_, rfl, Controller.keeps_close silent⟩)
  | message message =>
      exact .inr (.inl ⟨(·.handle message), rfl, Controller.keeps_handle silent message⟩)
  | await waiter poll =>
      exact .inr (.inl
        ⟨fun controller => (controller.await waiter poll).note (.post (.attend waiter)), rfl,
          ((Controller.quiet_await _ waiter poll).note rfl).keeps silent⟩)
  | work index =>
      simp only [World.move, work]
      split
      · next task found =>
          split
          · refine .inr (.inr ⟨_, world.awaited, task.job, ?_, rfl⟩)
            exact fun task mem => List.mem_of_mem_eraseIdx mem
          · exact .inl idle
      · exact .inl idle
  | answer index answer =>
      simp only [World.move, World.answer]
      split
      · next request found =>
          exact .inr (.inr ⟨world.tasks, _, .answer request.version request.asker answer,
            fun _ mem => mem, rfl⟩)
      · exact .inl idle

theorem sound_move (sound : world.Sound) (move : Move) : (world.move move).1.Sound := by
  rcases move_cases sound.silent move with
    ⟨span, eq⟩ | ⟨action, eq, keeps⟩ | ⟨tasks, awaited, job, subset, eq⟩
  · rw [eq]
    exact ⟨sound.silent, sound.numbered, sound.answerless, sound.closing_lt⟩
  · rw [eq]
    exact sound_act sound keeps
  · rw [eq]
    exact sound_act_perform (sound.of_tasks_subset subset) job

theorem patient_move {floor : Int} (sound : world.Sound) (patient : world.Patient floor)
    (h : floor ≤ world.now + world.controller.renderTime.microseconds) (move : Move) :
    (world.move move).1.Patient floor := by
  rcases move_cases sound.silent move with
    ⟨span, eq⟩ | ⟨action, eq, keeps⟩ | ⟨tasks, awaited, job, subset, eq⟩
  · rw [eq]
    exact patient
  · rw [eq]
    exact patient_act sound patient keeps
  · rw [eq]
    exact patient_act_perform (sound.of_tasks_subset subset)
      (fun task mem => patient task (subset task mem)) h job

end World

end ComponentPreview
