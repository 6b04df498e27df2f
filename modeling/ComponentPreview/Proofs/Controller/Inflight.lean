import ComponentPreview.Proofs.Controller.Retry
import ComponentPreview.Proofs.Controller.Verdict

/-!
# Requests in flight

A request that was spawned is in flight until it is struck off, and it is struck off only after it
has ended. So as long as it has not started, and as long as its answer is awaited, it is in flight.
-/

namespace ComponentPreview

namespace Job

/-- The number that a job brings to its end, other than that of a request or a deadline. -/
def spent? : Job → Option Nat
  | openDebounce number | closeDebounce number | retire number => some number
  | _ => none

/-- The number that may come to its end when a job is done. -/
def ended? : Job → Option Nat
  | openDebounce number | closeDebounce number | request number => some number
  | answer _ (.job number) _ => some number
  | _ => none

end Job

namespace Notice

/-- Whether a notice is for someone who waits. -/
def isReply : Notice → Bool
  | returned .. | settled .. | gaveUp .. => true
  | _ => false

def spent? (notice : Notice) : Option Nat :=
  notice.job?.bind Job.spent?

end Notice

namespace Controller

/-- The notices for those who wait. -/
def replies (controller : Controller) : List Notice :=
  controller.notices.filter Notice.isReply

/-- An operation that gives some replies. What it spawns comes to those in flight, and the jobs that
it gives spend none but some numbers. -/
structure Tends (spent : List Nat) (replies : List Notice) (before after : Controller) : Prop where
  adds : ∃ notices, after.notices = before.notices ++ notices ∧
    after.inflight = before.inflight ++ notices.filterMap Notice.spawned? ∧
    notices.filter Notice.isReply = replies ∧
    ∀ number ∈ notices.filterMap Notice.spent?, number ∈ spent

namespace Tends

variable {first second third : Controller} {spent : List Nat} {replies replies' : List Notice}

theorem of_eq (notices_eq : second.notices = first.notices)
    (inflight_eq : second.inflight = first.inflight) : Tends spent [] first second :=
  ⟨[], by simp [notices_eq, inflight_eq]⟩

theorem refl (controller : Controller) : Tends spent [] controller controller :=
  of_eq rfl rfl

/-- Notices by which nothing is spawned, spent or replied. -/
theorem of_notices {notices : List Notice} (notices_eq : second.notices = first.notices ++ notices)
    (inflight_eq : second.inflight = first.inflight)
    (plain : ∀ notice ∈ notices, notice.spawned? = none ∧ notice.isReply = false ∧
      notice.spent? = none) : Tends spent [] first second := by
  have unspawned : notices.filterMap Notice.spawned? = [] :=
    List.filterMap_eq_nil_iff.2 fun notice mem => (plain notice mem).1
  have unspent : notices.filterMap Notice.spent? = [] :=
    List.filterMap_eq_nil_iff.2 fun notice mem => (plain notice mem).2.2
  refine ⟨notices, notices_eq, by rw [inflight_eq, unspawned, List.append_nil], ?_, ?_⟩
  · exact List.filter_eq_nil_iff.2 fun notice mem => Bool.eq_false_iff.1 (plain notice mem).2.1
  · simp [unspent]

theorem trans (left : Tends spent replies first second)
    (right : Tends spent replies' second third) :
    Tends spent (replies ++ replies') first third := by
  obtain ⟨earlier, notices_eq, inflight_eq, replies_eq, spends⟩ := left.adds
  obtain ⟨later, notices_eq', inflight_eq', replies_eq', spends'⟩ := right.adds
  refine ⟨earlier ++ later, ?_, ?_, ?_, ?_⟩
  · rw [notices_eq', notices_eq, List.append_assoc]
  · rw [inflight_eq', inflight_eq, List.filterMap_append, List.append_assoc]
  · rw [List.filter_append, replies_eq, replies_eq']
  · intro number mem
    rw [List.filterMap_append] at mem
    exact (List.mem_append.1 mem).elim (spends number) (spends' number)

/-- Followed by an operation that replies to nobody. -/
theorem andThen (left : Tends spent replies first second) (right : Tends spent [] second third) :
    Tends spent replies first third := by
  simpa using left.trans right

theorem note (tends : Tends spent replies first second) {notice : Notice}
    (plain : notice.spawned? = none ∧ notice.isReply = false ∧ notice.spent? = none) :
    Tends spent replies first (second.note notice) :=
  tends.andThen (of_notices rfl rfl (by simpa using plain))

theorem weaken {spent' : List Nat} (tends : Tends spent replies first second)
    (subset : spent ⊆ spent') : Tends spent' replies first second := by
  obtain ⟨notices, notices_eq, inflight_eq, replies_eq, spends⟩ := tends.adds
  exact ⟨notices, notices_eq, inflight_eq, replies_eq, fun number mem => subset (spends number mem)⟩

end Tends

variable {controller : Controller} {spent : List Nat}

theorem plain_hurry (number : Option Nat) :
    ∀ notice ∈ (number.map Notice.hurry).toList, notice.spawned? = none ∧ notice.isReply = false ∧
      notice.spent? = none := by
  intro notice mem
  obtain ⟨hurried, -, rfl⟩ := Option.map_eq_some_iff.1 (Option.mem_toList.1 mem)
  exact ⟨rfl, rfl, rfl⟩

theorem tends_foldl_attend (waiters : List Waiter) (controller : Controller) :
    Tends spent [] controller (waiters.foldl
      (fun controller waiter => controller.note (.post (.attend waiter.name))) controller) := by
  induction waiters generalizing controller with
  | nil => exact .refl _
  | cons waiter waiters ih => exact ((Tends.refl controller).note ⟨rfl, rfl, rfl⟩).andThen (ih _)

theorem tends_finish (controller : Controller) (number : Nat) (breakdown : Option Breakdown) :
    Tends [number] [] controller (controller.finish number breakdown) := by
  unfold finish
  refine Tends.andThen ?_ (tends_foldl_attend _ _)
  split
  · refine Tends.andThen (.of_eq rfl rfl) ⟨[.post (.retire number)], rfl, ?_, rfl, ?_⟩
    · exact (List.append_nil _).symm
    · exact fun _ mem => mem
  · exact .of_eq rfl rfl

theorem tends_spawn (controller : Controller) : Tends spent [] controller controller.spawn :=
  ⟨[.post (.request controller.nextJob)], rfl, rfl, rfl, fun _ mem => nomatch mem⟩

theorem tends_request (asker : Asker) {code : String} (h : controller.code = some code) :
    Tends spent [] controller (controller.request asker) := by
  rw [controller.request_eq asker h]
  refine .of_notices (List.append_assoc _ _ _) rfl ?_
  intro notice mem
  rcases List.mem_append.1 mem with mem | mem
  · exact plain_hurry _ notice mem
  · simp only [List.mem_cons, List.not_mem_nil, or_false] at mem
    rcases mem with rfl | rfl <;> exact ⟨rfl, rfl, rfl⟩

theorem tends_fail (kind : FailureKind) (message : Json) (version : Nat)
    (suggestions : List Json) :
    Tends spent [] controller (controller.fail kind message version suggestions) := by
  by_cases failed : version ∈ controller.failed
  · rw [controller.fail_of_mem failed]
    exact .refl _
  rw [controller.fail_eq failed]
  refine .of_notices (List.append_assoc _ _ _) rfl ?_
  intro notice mem
  rcases List.mem_append.1 mem with mem | mem
  · exact plain_hurry _ notice mem
  · split at mem
    · obtain rfl := List.mem_singleton.1 mem
      exact ⟨rfl, rfl, rfl⟩
    · cases mem

theorem tends_display (controller : Controller) (version : Nat) :
    Tends spent [] controller (controller.display version) := by
  rw [controller.display_eq]
  refine .of_notices (by rw [List.append_assoc, List.append_assoc]) rfl ?_
  intro notice mem
  split at mem <;> simp at mem <;> rcases mem with rfl | rfl | rfl <;> exact ⟨rfl, rfl, rfl⟩

theorem tends_accept (version : Nat) (body : Json) :
    Tends spent [] controller (controller.accept version body) := by
  rw [accept_eq]
  split
  · exact .of_eq rfl rfl
  · next limits _ =>
      have taken : Tends spent [] controller (controller.takeOver body limits) := .of_eq rfl rfl
      split
      · have entered : Tends spent [] (controller.takeOver body limits)
            ((controller.takeOver body limits).enter .rendering) :=
          .of_notices rfl rfl (by simp [Notice.spawned?, Notice.spent?, Notice.job?,
            Notice.isReply])
        exact taken.andThen entered
      · exact taken.andThen (tends_display _ version)

theorem tends_receive (version : Nat) (answer : Answer) :
    Tends spent [] controller (controller.receive version answer) := by
  rcases controller.receive_cases version answer with
    ⟨body, rfl, welcome⟩ | same | ⟨-, -, -, kind, message, suggestions, failing⟩
  · rw [controller.receive_of_welcome welcome]
    exact tends_accept version body
  · rw [same]
    exact .refl _
  · rw [failing]
    exact tends_fail kind message version suggestions

/-! ## What comes from outside -/

/-- Taking source spends a number of its own. -/
theorem tends_edit (controller : Controller) (code : String) :
    ∃ spent, Tends spent [] controller (controller.edit code) ∧
      ∀ number ∈ spent, number = controller.nextJob ∧ number < (controller.edit code).nextJob := by
  cases isClosed : controller.isClosed with
  | true =>
      rw [edit, if_pos isClosed]
      exact ⟨[], .refl _, List.forall_mem_nil _⟩
  | false =>
      rw [controller.edit_eq isClosed]
      have taken : Tends [controller.nextJob] [] controller (controller.taking code) :=
        .of_notices rfl rfl (plain_hurry _)
      refine ⟨_, taken.andThen ⟨[.post (.openDebounce controller.nextJob)], rfl, ?_, rfl, ?_⟩, ?_⟩
      · exact (List.append_nil _).symm
      · exact fun _ mem => mem
      · intro number mem
        obtain rfl := List.mem_singleton.1 mem
        exact ⟨rfl, Nat.lt_succ_self _⟩

theorem tends_fullscreen : Tends spent [] controller controller.fullscreen := by
  unfold fullscreen
  split
  · exact .refl _
  · exact ⟨[.fullscreen], rfl, (List.append_nil _).symm, rfl, fun _ mem => nomatch mem⟩

theorem tends_close : Tends spent [] controller controller.close := by
  cases isClosed : controller.isClosed with
  | true =>
      rw [controller.close_of_closed isClosed]
      exact .refl _
  | false =>
      rw [controller.close_eq isClosed]
      refine .of_notices (by rw [List.append_assoc, List.append_assoc, List.append_assoc]) rfl ?_
      simp only [List.mem_append, List.mem_map, List.mem_singleton]
      rintro notice (mem | mem | ⟨number, -, rfl⟩ | rfl)
      · exact plain_hurry _ notice mem
      · exact plain_hurry _ notice mem
      · exact ⟨rfl, rfl, rfl⟩
      · exact ⟨rfl, rfl, rfl⟩

theorem tends_seed (message : String) : Tends spent [] controller (controller.seed message) := by
  rcases controller.seed_cases message with same | ⟨name, seeds⟩
  · rw [same]
    exact .refl _
  · have seeded : Tends spent [] controller
        { controller with seeded := controller.seeded ++ [name] } := .of_eq rfl rfl
    rw [seeds]
    exact seeded.andThen (tends_spawn _)

theorem tends_handle (message : LifecycleMessage) :
    Tends spent [] controller (controller.handle message) := by
  rcases controller.handle_cases message with
    same | ⟨name, timestamp, -, -, -, ready⟩ | ⟨error, -, -, fails⟩
  · rw [same]
    exact .refl _
  · rw [ready, ready_eq]
    refine .of_notices (List.append_assoc _ _ _) rfl ?_
    intro notice mem
    rcases List.mem_append.1 mem with mem | mem
    · exact plain_hurry _ notice mem
    · obtain rfl := List.mem_singleton.1 mem
      exact ⟨rfl, rfl, rfl⟩
  · rw [fails]
    exact (tends_fail _ _ _ _).andThen (tends_seed _)

theorem tends_await (waiter : String) (poll : Int) :
    Tends spent [] controller (controller.await waiter poll) :=
  .of_eq rfl rfl

/-! ## Jobs -/

/-- A controller in which nothing is under way and the newest version has its verdict. -/
structure IsSettled (controller : Controller) : Prop where
  debounce_eq : controller.debounce = none
  inflight_eq : controller.inflight = []
  isVerdict : controller.phase = .ready ∨ controller.phase = .errored

/-- Whom a controller replies to when it does a job, and what. -/
inductive Replies (before : Controller) : Job → List Notice → Prop
  | silent (job : Job) : Replies before job []
  | returned (job : Job) (caller : String) (breakdown : Option Breakdown) :
      Replies before job [.returned caller breakdown]
  | settled (name waiter : String) :
      (before.isClosed = false → before.IsSettled) →
      Replies before (.attend name) [.settled waiter before.phase]
  | gaveUp (name waiter : String) (breakdown : Breakdown) :
      Replies before (.attend name) [.gaveUp waiter breakdown]

theorem tends_endFor (controller : Controller) (breakdown : Option Breakdown) (asker : Asker)
    (job : Job)
    (ends : ∀ number, asker = .job number → number ∈ spent) :
    ∃ replies, Tends spent replies controller (controller.endFor breakdown asker) ∧
      controller.Replies job replies := by
  cases asker with
  | job number =>
      refine ⟨[], (tends_finish _ number breakdown).weaken ?_, .silent _⟩
      simpa using ends number rfl
  | caller name =>
      exact ⟨_, ⟨[.returned name breakdown], rfl, (List.append_nil _).symm, rfl,
        fun _ mem => nomatch mem⟩, .returned _ name breakdown⟩

/-- Nothing is pending when a waiter has its verdict. -/
theorem isSettled_of_pending (idle : controller.pending = [])
    (verdict : controller.hasVerdict = true) : controller.IsSettled := by
  simp only [pending, List.append_eq_nil_iff, Option.toList_eq_nil_iff] at idle
  simp only [hasVerdict, Bool.and_eq_true, Bool.or_eq_true, beq_iff_eq, List.isEmpty_iff]
    at verdict
  exact ⟨idle.1, verdict.2, verdict.1⟩

theorem tends_attend (name : String) :
    ∃ replies, Tends spent replies controller (controller.attend name) ∧
      controller.Replies (.attend name) replies := by
  obtain ⟨waiters, told, attends, attend_eq⟩ := controller.attend_cases name
  have set : Tends spent [] controller { controller with waiters } := .of_eq rfl rfl
  rw [attend_eq]
  cases attends with
  | nothing =>
      rw [List.append_nil]
      exact ⟨[], set, .silent _⟩
  | later => exact ⟨[], set.note ⟨rfl, rfl, rfl⟩, .silent _⟩
  | gaveUp waiter breakdown =>
      exact ⟨_, ⟨[.gaveUp waiter breakdown], rfl, (List.append_nil _).symm, rfl,
        fun _ mem => nomatch mem⟩, .gaveUp name waiter breakdown⟩
  | settled waiter idle =>
      refine ⟨_, ⟨[.settled waiter controller.phase], rfl, (List.append_nil _).symm, rfl,
        fun _ mem => nomatch mem⟩, .settled name waiter fun isOpen => ?_⟩
      exact isSettled_of_pending (idle isOpen).1 (idle isOpen).2

theorem tends_openDebounce (number : Nat) :
    Tends [number] [] controller (controller.openDebounce number) := by
  unfold openDebounce
  split
  · exact ⟨[.hold controller.debounceTime.microseconds (.closeDebounce number)], rfl,
      (List.append_nil _).symm, rfl, fun _ mem => mem⟩
  · exact tends_finish _ _ _

theorem tends_closeDebounce (number : Nat) :
    Tends [number] [] controller (controller.closeDebounce number) := by
  unfold closeDebounce
  split
  · have released : Tends [number] [] controller { controller with debounce := none } :=
      .of_eq rfl rfl
    exact (released.andThen (tends_spawn _)).andThen (tends_finish _ _ _)
  · exact tends_finish _ _ _

theorem tends_openDeadline (number version : Nat) :
    Tends spent [] controller (controller.openDeadline number version) := by
  rw [openDeadline_eq]
  refine .of_notices rfl rfl fun notice mem => ?_
  split at mem
  · obtain rfl := List.mem_singleton.1 mem
    exact ⟨rfl, rfl, rfl⟩
  · cases mem

theorem tends_closeDeadline (number version : Nat) :
    Tends spent [] controller (controller.closeDeadline number version) := by
  have disarmed : Tends spent [] controller { controller with deadline := none } := .of_eq rfl rfl
  rcases controller.closeDeadline_cases number version with
    same | disarms | ⟨-, -, -, -, fails⟩
  · rw [same]
    exact .refl _
  · rw [disarms]
    exact disarmed
  · rw [fails]
    exact disarmed.andThen (tends_fail _ _ _ _)

/-- A refresh replies at once when there is nothing to request. -/
theorem tends_refresh (caller : String) :
    ∃ replies, Tends spent replies controller (controller.refresh caller) ∧
      controller.Replies (.refresh caller) replies := by
  rcases controller.refresh_cases caller with ⟨-, returns⟩ | ⟨code, -, -, found, requests⟩
  · rw [returns]
    exact ⟨_, ⟨[.returned caller none], rfl, (List.append_nil _).symm, rfl,
      fun _ mem => nomatch mem⟩, .returned _ caller none⟩
  · have released : Tends spent [] controller controller.callOffDebounce := by
      rw [callOffDebounce_eq]
      exact .of_notices rfl rfl (plain_hurry _)
    rw [requests]
    exact ⟨[], released.andThen (tends_request _ found), .silent _⟩

/-- Doing a job spends at most the number that the job ends; that of a request only if it does not
start. -/
def Spends (before : Controller) (job : Job) (after : Controller) : Prop :=
  ∃ spent replies, Tends spent replies before after ∧ before.Replies job replies ∧
    ∀ number ∈ spent, job.ended? = some number ∧
      (job = .request number → after = before.finish number)

theorem Spends.of_free {job : Job} {after : Controller}
    (tends : ∃ replies, Tends [] replies controller after ∧ controller.Replies job replies) :
    controller.Spends job after := by
  obtain ⟨replies, tends, given⟩ := tends
  exact ⟨[], replies, tends, given, fun _ mem => nomatch mem⟩

theorem Spends.of_ended {job : Job} {number : Nat} {after : Controller} {replies : List Notice}
    (tends : Tends [number] replies controller after) (given : controller.Replies job replies)
    (ended : job.ended? = some number)
    (finished : job = .request number → after = controller.finish number) :
    controller.Spends job after := by
  refine ⟨_, replies, tends, given, fun other mem => ?_⟩
  obtain rfl := List.mem_singleton.1 mem
  exact ⟨ended, finished⟩

theorem spends_request (number : Nat) :
    controller.Spends (.request number) (controller.perform (.request number)) := by
  have finishes : controller.Spends (.request number) (controller.finish number) :=
    .of_ended (tends_finish _ _ _) (.silent _) rfl fun _ => rfl
  rcases controller.perform_request_cases number with ⟨-, ends⟩ | ⟨source, -, code, requests⟩
  · rw [ends]
    exact finishes
  · rw [requests]
    exact .of_free ⟨[], tends_request _ code, .silent _⟩

theorem tends_answer (spent : List Nat) (version : Nat) (asker : Asker) (answer : Answer)
    (ends : ∀ number, asker = .job number → number ∈ spent) :
    ∃ replies, Tends spent replies controller
        (controller.perform (.answer version asker answer)) ∧
      controller.Replies (.answer version asker answer) replies := by
  simp only [perform]
  split
  · exact tends_endFor controller none asker _ ends
  · obtain ⟨replies, tends, given⟩ := tends_endFor (controller.receive version answer)
      (controller.breakdown? version answer) asker (.answer version asker answer) ends
    refine ⟨replies, (tends_receive version answer).trans tends, ?_⟩
    cases given with
    | silent => exact .silent _
    | returned _ caller breakdown => exact .returned _ caller breakdown

theorem spends_answer (version : Nat) (asker : Asker) (answer : Answer) :
    controller.Spends (.answer version asker answer)
      (controller.perform (.answer version asker answer)) := by
  cases asker with
  | job number =>
      obtain ⟨replies, tends, given⟩ :=
        controller.tends_answer [number] version (.job number) answer (by simp)
      exact .of_ended tends given rfl Job.noConfusion
  | caller name => exact .of_free (tends_answer [] version (.caller name) answer (by simp))

/-- What doing a job spends and replies. Only what has ended is retired. -/
theorem spends_perform (job : Job) (kept : ∀ number, job ≠ .retire number) :
    controller.Spends job (controller.perform job) := by
  cases job with
  | openDebounce number =>
      exact .of_ended (tends_openDebounce number) (.silent _) rfl Job.noConfusion
  | closeDebounce number =>
      exact .of_ended (tends_closeDebounce number) (.silent _) rfl Job.noConfusion
  | request number => exact spends_request number
  | refresh caller => exact .of_free (tends_refresh caller)
  | answer version asker answer => exact spends_answer version asker answer
  | retire number => exact absurd rfl (kept number)
  | openDeadline number version =>
      exact .of_free ⟨[], tends_openDeadline number version, .silent _⟩
  | closeDeadline number version =>
      exact .of_free ⟨[], tends_closeDeadline number version, .silent _⟩
  | attend waiter => exact .of_free (tends_attend waiter)

/-- A job that ends its number starts no request. -/
theorem unstarted_perform (silent : controller.notices = []) (numbered : controller.Numbered)
    {job : Job} {number : Nat} (ended : job.ended? = some number)
    (finished : job = .request number → controller.perform job = controller.finish number) :
    (controller.perform job).orders.started = [] := by
  have performed := performed_perform silent numbered job
  generalize controller.perform job = after at performed finished
  cases performed with
  | rest _ _ _ orders_eq | elapse _ _ _ orders_eq | drop _ _ orders_eq => rw [orders_eq]
  | start other =>
      obtain rfl : other = number := Option.some.inj ended
      rw [finished rfl, (controller.aside_finish other none).orders_of_silent silent]
  | refresh => cases ended

/-- A controller that had no notices replies what its operation does. -/
theorem Tends.replies_eq {after : Controller} {replies : List Notice}
    (tends : Tends spent replies controller after) (silent : controller.notices = []) :
    after.replies = replies := by
  obtain ⟨notices, notices_eq, -, replies_eq, -⟩ := tends.adds
  rw [Controller.replies, notices_eq, silent, List.nil_append, replies_eq]

theorem replies_perform (silent : controller.notices = []) (job : Job) :
    controller.Replies job (controller.perform job).replies := by
  by_cases retires : ∃ number, job = .retire number
  · obtain ⟨number, rfl⟩ := retires
    rw [replies, perform, silent]
    exact .silent _
  · obtain ⟨spent, replies, tends, given, -⟩ :=
      spends_perform job fun number retired => retires ⟨number, retired⟩
    exact tends.replies_eq silent ▸ given

end Controller

/-! ## What moves deal with -/

namespace Transition.Deals

variable {transition : Transition} {orders : Orders} {queued : List Nat} {seeds : Seeds}
  (deals : transition.Deals orders queued seeds)

include deals

theorem queued_subset : queued ⊆ transition.before.queued := by
  cases deals with
  | drop number _ perm | start number _ _ perm =>
      exact fun other mem => perm.symm.subset (List.mem_cons_of_mem _ mem)
  | rest | elapse | seed | refresh => exact fun _ mem => mem

/-- Only what was spawned starts under a number. -/
theorem started_subset : orders.started.filterMap Request.job? ⊆ transition.before.queued := by
  cases deals with
  | start number _ request perm asker_eq =>
      intro other mem
      obtain rfl : other = number := by simpa [Request.job?, asker_eq] using mem
      exact perm.symm.subset List.mem_cons_self
  | refresh caller request _ asker_eq => simp [Request.job?, asker_eq]
  | rest | elapse | seed | drop => exact List.nil_subset _

theorem spawned_eq : ∀ number ∈ orders.spawned, number = transition.before.controller.nextJob := by
  cases deals with
  | elapse | seed => exact fun _ mem => List.mem_singleton.1 mem
  | rest | drop | start | refresh => exact fun _ mem => nomatch mem

end Transition.Deals

namespace World

/-- The numbers of the requests that were spawned and have not ended. -/
def ongoing (world : World) : List Nat :=
  world.queued ++ world.awaited.filterMap Request.job?

variable {world : World}

theorem mem_ongoing_act {base : World} {action : Controller → Controller} {number : Nat}
    (mem : number ∈ (base.act action).1.ongoing) :
    number ∈ base.ongoing ∨ number ∈ (action base.controller).orders.spawned ∨
      number ∈ (action base.controller).orders.started.filterMap Request.job? := by
  rw [ongoing, queued_act, act_awaited, List.filterMap_append] at mem
  simp only [ongoing, List.mem_append] at mem ⊢
  rcases mem with (queued | spawned) | (awaited | started)
  · exact .inl (.inl queued)
  · exact .inr (.inl spawned)
  · exact .inl (.inr awaited)
  · exact .inr (.inr started)

/-- What was spawned and has not ended is in flight, and no task is about to end it otherwise. -/
structure Tracked (world : World) : Prop where
  inflight : world.ongoing ⊆ world.controller.inflight
  apart : ∀ task ∈ world.tasks, ∀ number, task.job.spent? = some number →
    number ∉ world.ongoing ∧ number < world.controller.nextJob

theorem tracked_start (setup : Setup) : (start setup).Tracked where
  inflight := List.nil_subset _
  apart := by simp [start]

/-- The same for what is left of a world when something is taken out of it. -/
theorem tracked_of_act {base : World} {move : Move} (tracked : world.Tracked)
    (sound : world.Sound) (action : Controller → Controller)
    (move_eq : world.move move = base.act action)
    (controller_eq : base.controller = world.controller)
    (tasks : ∀ task ∈ base.tasks, task ∈ world.tasks) (ongoing : base.ongoing ⊆ world.ongoing)
    {spent : List Nat} {replies : List Notice}
    (tends : Controller.Tends spent replies base.controller (action base.controller))
    (apart : ∀ number ∈ spent, number ∉ (base.act action).1.ongoing ∧
      number < (action base.controller).nextJob) :
    (world.move move).1.Tracked := by
  obtain ⟨queued, deals, -, -⟩ := renews_move sound move
  have silent : base.controller.notices = [] := controller_eq ▸ sound.silent
  have nextJob_le := nextJob_le_move sound move
  have orders_eq : (Transition.mk world move).orders = (action base.controller).orders := by
    rw [Transition.orders, Transition.notices, move_eq]
    rfl
  rw [orders_eq] at deals
  obtain ⟨notices, notices_eq, inflight_eq, -, spends⟩ := tends.adds
  rw [silent, List.nil_append] at notices_eq
  rw [move_eq] at nextJob_le ⊢
  have spawned_eq : notices.filterMap Notice.spawned? =
      (action base.controller).orders.spawned := by rw [Controller.orders, notices_eq]; rfl
  -- What is alive after the move was so before it, or it is spawned by it.
  have alive : ∀ number ∈ (base.act action).1.ongoing,
      number ∈ world.ongoing ∨ number ∈ (action base.controller).orders.spawned := by
    intro number mem
    rcases mem_ongoing_act mem with old | spawned | started
    · exact .inl (ongoing old)
    · exact .inr spawned
    · exact .inl (List.mem_append_left _ (deals.started_subset started))
  refine ⟨?_, ?_⟩
  · intro number mem
    rw [act_controller]
    dsimp only
    rw [inflight_eq, controller_eq, spawned_eq]
    exact (alive number mem).elim
      (fun old => List.mem_append_left _ (tracked.inflight old)) (List.mem_append_right _)
  · intro task mem number isOf
    rcases tasks_foldl_heed mem with ⟨old, old_mem, job_eq, -⟩ | ⟨notice, given, job_eq⟩
    · obtain ⟨dead, number_lt⟩ := tracked.apart old (tasks old old_mem) number (job_eq ▸ isOf)
      refine ⟨fun mem => ?_, Nat.lt_of_lt_of_le number_lt nextJob_le⟩
      rcases alive number mem with old | spawned
      · exact dead old
      · exact Nat.ne_of_lt number_lt (deals.spawned_eq number spawned)
    · rw [act_controller]
      refine apart number (spends number ?_)
      have given : notice ∈ (action base.controller).notices := given
      rw [notices_eq] at given
      refine List.mem_filterMap.2 ⟨notice, given, ?_⟩
      rw [Notice.spent?, job_eq]
      exact isOf

theorem tracked_of_perform {base : World} {move : Move} (tracked : world.Tracked)
    (sound : world.Sound) (job : Job) (move_eq : world.move move = base.act (·.perform job))
    (controller_eq : base.controller = world.controller)
    (tasks : ∀ task ∈ base.tasks, task ∈ world.tasks) (ongoing : base.ongoing ⊆ world.ongoing)
    (kept : ∀ number, job ≠ .retire number)
    (ended : ∀ number, job.ended? = some number →
      number ∉ base.ongoing ∧ number < world.controller.nextJob) :
    (world.move move).1.Tracked := by
  obtain ⟨queued, deals, -, -⟩ := renews_move sound move
  have nextJob_le := nextJob_le_move sound move
  have orders_eq : (Transition.mk world move).orders =
      (base.controller.perform job).orders := by
    rw [Transition.orders, Transition.notices, move_eq]
    rfl
  rw [orders_eq] at deals
  rw [move_eq, act_controller] at nextJob_le
  obtain ⟨spent, replies, tends, -, ends⟩ := base.controller.spends_perform job kept
  refine tracked_of_act tracked sound (·.perform job) move_eq controller_eq tasks ongoing tends ?_
  intro number mem
  obtain ⟨isEnded, finished⟩ := ends number mem
  have unstarted := Controller.unstarted_perform (controller_eq ▸ sound.silent)
    (controller_eq ▸ sound.numbered) isEnded finished
  obtain ⟨dead, number_lt⟩ := ended number isEnded
  refine ⟨fun mem => ?_, Nat.lt_of_lt_of_le number_lt nextJob_le⟩
  rcases mem_ongoing_act mem with old | spawned | started
  · exact dead old
  · exact Nat.ne_of_lt number_lt (deals.spawned_eq number spawned)
  · rw [unstarted] at started
    cases started

theorem tracked_of_aside {move : Move} (tracked : world.Tracked) (sound : world.Sound)
    (action : Controller → Controller) (move_eq : world.move move = world.act action)
    (tends : Controller.Tends [] [] world.controller (action world.controller)) :
    (world.move move).1.Tracked :=
  tracked_of_act tracked sound action move_eq rfl (fun _ mem => mem) (List.Subset.refl _) tends
    fun _ mem => nomatch mem

theorem ongoing_without {index : Nat} {task : Appointment}
    (found : world.tasks[index]? = some task) :
    world.ongoing.Perm (task.job.request?.toList ++ (world.without index).ongoing) := by
  rw [ongoing, ongoing, ← List.append_assoc]
  exact (queued_without found).append_right _

theorem ongoing_answered {index : Nat} {request : Request}
    (found : world.awaited[index]? = some request) :
    world.ongoing.Perm
      (request.job?.toList ++ ongoing { world with awaited := world.awaited.eraseIdx index }) := by
  have perm := (perm_cons_eraseIdx found).filterMap Request.job?
  have split (others : List Request) : (request :: others).filterMap Request.job? =
      request.job?.toList ++ others.filterMap Request.job? := by
    cases h : request.job? <;> simp [h]
  rw [split] at perm
  exact (perm.append_left _).trans (List.perm_append_comm_assoc _ _ _)

/-- What is struck off has ended before. -/
theorem tracked_retire {index number : Nat} {due : Int} (tracked : world.Tracked)
    (silent : world.controller.notices = [])
    (found : world.tasks[index]? = some ⟨due, .retire number⟩) :
    ((world.without index).act (·.perform (.retire number))).1.Tracked := by
  have after : ((world.without index).act (·.perform (.retire number))).1 =
      { world.without index with
        controller :=
          { world.controller with
            inflight := world.controller.inflight.erase number
            notices := [] } } := by
    simp [act, Controller.perform, Controller.flush, without, silent]
  have ongoing : (world.without index).ongoing ⊆ world.ongoing := fun other mem =>
    (ongoing_without found).symm.subset (List.mem_append_right _ mem)
  obtain ⟨dead, -⟩ := tracked.apart _ (List.mem_of_getElem? found) number rfl
  rw [after]
  refine ⟨fun other mem => ?_, fun task mem other isOf => ?_⟩
  · have alive : other ∈ world.ongoing := ongoing mem
    refine (List.mem_erase_of_ne ?_).2 (tracked.inflight alive)
    rintro rfl
    exact dead alive
  · obtain ⟨dead, other_lt⟩ := tracked.apart task (List.mem_of_mem_eraseIdx mem) other isOf
    exact ⟨fun alive => dead (ongoing alive), other_lt⟩

theorem tracked_work (tracked : world.Tracked) (sound : world.Sound) (nodup : world.ongoing.Nodup)
    (ongoing_lt : ∀ number ∈ world.ongoing, number < world.controller.nextJob) (index : Nat) :
    (world.move (.work index)).1.Tracked := by
  cases found : world.tasks[index]? with
  | none =>
      simp only [World.move, World.work, found]
      exact tracked
  | some task =>
      by_cases late : task.due ≤ world.now
      case neg =>
        simp only [World.move, World.work, found, if_neg late]
        exact tracked
      obtain ⟨due, job⟩ := task
      have move_eq : world.move (.work index) =
          (world.without index).act (·.perform job) := by
        simp only [World.move, World.work, found, if_pos late]
        rfl
      have perm := ongoing_without found
      have ongoing : (world.without index).ongoing ⊆ world.ongoing := fun number mem =>
        perm.symm.subset (List.mem_append_right _ mem)
      have mem := List.mem_of_getElem? found
      by_cases retired : ∃ number, job = .retire number
      case pos =>
        obtain ⟨number, rfl⟩ := retired
        rw [move_eq]
        exact tracked_retire tracked sound.silent found
      refine tracked_of_perform tracked sound job move_eq rfl
        (fun _ mem => List.mem_of_mem_eraseIdx mem) ongoing
        (fun number retires => retired ⟨number, retires⟩) ?_
      intro number isEnded
      cases job with
      | request other =>
          obtain rfl : other = number := Option.some.inj isEnded
          have alive : other ∈ world.ongoing := perm.symm.subset List.mem_cons_self
          refine ⟨?_, ongoing_lt other alive⟩
          exact (List.nodup_cons.1 (perm.nodup_iff.1 nodup)).1
      | openDebounce other | closeDebounce other =>
          obtain rfl : other = number := Option.some.inj isEnded
          obtain ⟨dead, number_lt⟩ := tracked.apart _ mem other rfl
          exact ⟨fun alive => dead (ongoing alive), number_lt⟩
      | answer version asker answer =>
          exact absurd rfl (sound.answerless _ mem version asker answer)
      | refresh | retire | openDeadline | closeDeadline | attend => cases isEnded

theorem tracked_move (tracked : world.Tracked) (sound : world.Sound) (nodup : world.ongoing.Nodup)
    (ongoing_lt : ∀ number ∈ world.ongoing, number < world.controller.nextJob) (move : Move) :
    (world.move move).1.Tracked := by
  cases move with
  | pass span => exact ⟨tracked.inflight, tracked.apart⟩
  | edit code =>
      obtain ⟨spent, tends, fresh⟩ := world.controller.tends_edit code
      refine tracked_of_act tracked sound (·.edit code) rfl rfl (fun _ mem => mem)
        (List.Subset.refl _) tends fun number mem => ?_
      obtain ⟨rfl, number_lt⟩ := fresh number mem
      refine ⟨fun mem => ?_, number_lt⟩
      rcases mem_ongoing_act mem with old | new
      · exact Nat.lt_irrefl _ (ongoing_lt _ old)
      · rw [Controller.orders_edit sound.silent] at new
        simp at new
  | refresh caller =>
      exact tracked_of_aside tracked sound (·.note (.post (.refresh caller))) rfl
        ((Controller.Tends.refl _).note ⟨rfl, rfl, rfl⟩)
  | fullscreen =>
      exact tracked_of_aside tracked sound Controller.fullscreen rfl Controller.tends_fullscreen
  | close => exact tracked_of_aside tracked sound Controller.close rfl Controller.tends_close
  | message message =>
      exact tracked_of_aside tracked sound (·.handle message) rfl (Controller.tends_handle message)
  | await waiter poll =>
      exact tracked_of_aside tracked sound
        (fun controller => (controller.await waiter poll).note (.post (.attend waiter))) rfl
        ((Controller.tends_await waiter poll).note ⟨rfl, rfl, rfl⟩)
  | work index => exact tracked_work tracked sound nodup ongoing_lt index
  | answer index answer =>
      cases found : world.awaited[index]? with
      | none =>
          simp only [World.move, World.answer, found]
          exact tracked
      | some request =>
          have perm := ongoing_answered found
          refine tracked_of_perform tracked sound (.answer request.version request.asker answer)
            (move_answer found answer) rfl (fun _ mem => mem)
            (fun number mem => perm.symm.subset (List.mem_append_right _ mem))
            (fun number => Job.noConfusion) ?_
          intro number isEnded
          have job_eq : request.job? = some number := by
            cases asker : request.asker <;> simp_all [Job.ended?, Request.job?]
          rw [job_eq] at perm
          refine ⟨?_, ongoing_lt number (perm.symm.subset List.mem_cons_self)⟩
          exact (List.nodup_cons.1 (perm.nodup_iff.1 nodup)).1

/-! ## Runs -/

theorem awaited_sublist (setup : Setup) (moves : List Move) :
    ((start setup).afterAll moves).awaited.Sublist ((start setup).requests moves) := by
  induction moves using List.reverseRecOn with
  | nil => exact List.Sublist.refl _
  | append_singleton moves move ih =>
      rw [requests_concat, afterAll_concat, awaited_move]
      exact ((remaining_sublist move).trans ih).append (List.Sublist.refl _)

/-- The numbers that are alive are different, and all of them were given. -/
theorem ongoing_subperm (setup : Setup) (moves : List Move) :
    ((start setup).afterAll moves).ongoing.Subperm
      (((start setup).spawns moves).map Spawn.number) := by
  have awaited := (awaited_sublist setup moves).filterMap Request.job?
  have retried := retried_afterAll setup moves
  refine (List.perm_append_comm.subperm.trans ?_).trans retried.subperm
  exact (awaited.append (List.Sublist.refl _)).subperm

theorem ongoing_nodup (setup : Setup) (moves : List Move) :
    ((start setup).afterAll moves).ongoing.Nodup := by
  obtain ⟨numbers, perm, sublist⟩ := ongoing_subperm setup moves
  exact perm.nodup_iff.1 ((retried_afterAll setup moves).numbers_nodup.sublist sublist)

theorem ongoing_lt (setup : Setup) (moves : List Move) :
    ∀ number ∈ ((start setup).afterAll moves).ongoing,
      number < ((start setup).afterAll moves).controller.nextJob := by
  intro number mem
  obtain ⟨spawn, given, rfl⟩ := List.mem_map.1 ((ongoing_subperm setup moves).subset mem)
  exact (retried_afterAll setup moves).number_lt spawn given

/-- In every run what was spawned and has not ended is in flight. -/
theorem tracked_afterAll (setup : Setup) (moves : List Move) :
    ((start setup).afterAll moves).Tracked := by
  induction moves using List.reverseRecOn with
  | nil => exact tracked_start setup
  | append_singleton moves move ih =>
      rw [afterAll_concat]
      exact tracked_move ih (drafted_run setup moves).1.steady.sound (ongoing_nodup setup moves)
        (ongoing_lt setup moves) move

end World

end ComponentPreview
