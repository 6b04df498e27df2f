import ComponentPreview.Proofs.Controller.Closing
import ComponentPreview.Proofs.Controller.Failure
import ComponentPreview.Proofs.Controller.Inflight

/-!
# Settled verdicts

Someone who waits for the verdict on a session that stays open is told one only when nothing is left
that could change it: no debounce is in force, and every request that was spawned has started, with
a later version than the one it was spawned in, and has been answered. So a version whose error
spawned a retry is no longer the newest by then, and what is told is the verdict on the newest.
-/

namespace ComponentPreview

/-! ## Announcements -/

/-- The phase that a notice announces, and for which version. -/
def Notice.changed? : Notice → Option (Phase × Nat)
  | changed phase version _ _ => some (phase, version)
  | _ => none

theorem Notice.filterMap_changed_news (notices : List Notice) :
    (notices.filter isNews).filterMap changed? = notices.filterMap changed? := by
  refine filterMap_news ?_ notices
  intro notice unnoticed
  cases notice <;> simp_all [changed?]

/-- Every change of the phase and every new version is announced. -/
theorem Effect.changed_cases {before after : Course} {occasion : Occasion} {news : List Notice}
    (effect : Effect before occasion news after) :
    (news.filterMap Notice.changed? = [] ∧ after.phase = before.phase ∧
      after.version = before.version) ∨
    news.filterMap Notice.changed? = [(after.phase, after.version)] := by
  cases effect with
  | request | ready => exact .inr rfl
  | fail kind message metadata suggestions isOpen unfailed blames =>
      cases announced : Controller.isAnnounced message with
      | true => exact .inr rfl
      | false => exact .inl ⟨rfl, rfl, rfl⟩
  | accept body isShown deadline renderTime given welcome unlimited =>
      cases limits : Controller.limitsOf? body with
      | none => exact .inl ⟨by cases isShown <;> rfl, rfl, rfl⟩
      | some _ => exact .inr (by cases isShown <;> rfl)
  | quiet | close | disarm => exact .inl ⟨rfl, rfl, rfl⟩

namespace World

def announced (world : World) (moves : List Move) : List (Phase × Nat) :=
  (world.run moves).flatMap fun transition => transition.notices.filterMap Notice.changed?

theorem announced_concat {world : World} (moves : List Move) (move : Move) :
    world.announced (moves ++ [move]) = world.announced moves ++
      (Transition.mk (world.afterAll moves) move).notices.filterMap Notice.changed? := by
  rw [announced, run_concat, List.flatMap_append, List.flatMap_singleton]
  rfl

/-- What was announced last is what holds. -/
theorem last_announced (setup : Setup) (moves : List Move) :
    (((start setup).announced moves).getLast?).getD (.idle, 0) =
      (((start setup).afterAll moves).controller.phase,
        ((start setup).afterAll moves).controller.version) := by
  induction moves using List.reverseRecOn with
  | nil => rfl
  | append_singleton moves move ih =>
      have cases := (effect_of_sound (steady_run setup moves).1.sound move).changed_cases
      rw [Notice.filterMap_changed_news] at cases
      rw [announced_concat, afterAll_concat, Transition.notices]
      rcases cases with ⟨none, phase_eq, version_eq⟩ | one
      · rw [none, List.append_nil, ih]
        exact Prod.ext phase_eq.symm version_eq.symm
      · rw [one, List.getLast?_concat]
        rfl

/-! ## Sessions that have not begun -/

variable {world : World}

theorem requests_length (setup : Setup) (moves : List Move) :
    ((start setup).requests moves).length =
      ((start setup).afterAll moves).controller.version := by
  have last := (versions_requests (ordered_start setup).sound moves).2
  rw [last]
  exact (Nat.zero_add _).symm

theorem awaited_eq_nil {setup : Setup} {moves : List Move}
    (unrequested : ((start setup).afterAll moves).controller.version = 0) :
    ((start setup).afterAll moves).awaited = [] := by
  have none := List.length_eq_zero_iff.1 ((requests_length setup moves).trans unrequested)
  exact List.sublist_nil.1 (none ▸ awaited_sublist setup moves)

end World

/-- An idle session takes no notice of messages. -/
theorem Controller.handle_of_idle {controller : Controller} (idle : controller.phase = .idle)
    (message : LifecycleMessage) : controller.handle message = controller := by
  by_cases heeds : controller.course.Heeds message
  · rw [controller.handle_of_heeds heeds]
    cases message.event with
    | ready name timestamp => exact if_neg (by simp [idle])
    | error error => exact if_pos idle
  · exact controller.handle_of_not_heeds heeds

namespace World

variable {world : World}

/-- An idle session in which no answer is awaited stays idle until a request starts. -/
theorem idle_move (sound : world.Sound) (idle : world.controller.phase = .idle)
    (unawaited : world.awaited = []) {move : Move}
    (same : (world.move move).1.controller.version = world.controller.version) :
    (world.move move).1.controller.phase = .idle := by
  by_cases heard : ∃ message, move = .message message
  case pos =>
    obtain ⟨message, rfl⟩ := heard
    rw [World.move, act_controller, Controller.handle_of_idle idle]
    exact idle
  have effect := effect_of_sound sound move
  have unanswered (version : Nat) (answer : Answer) :
      world.occasion move ≠ .answer version answer := by
    intro given
    obtain ⟨index, request, -, found, -⟩ := answer_of_occasion sound given
    rw [unawaited] at found
    cases found
  have phase_eq : (world.move move).1.controller.phase =
      (world.move move).1.controller.course.phase := rfl
  have version_eq : (world.move move).1.controller.course.version =
      world.controller.course.version := same
  rw [phase_eq]
  generalize (world.move move).1.controller.course = after at effect version_eq
  generalize (world.move move).2.filter Notice.isNews = news at effect
  generalize given : world.occasion move = occasion at effect
  cases effect with
  | request => exact absurd version_eq (Nat.succ_ne_self _)
  | ready message _ _ _ same => exact absurd ⟨message, message_of_occasion (given.trans same)⟩ heard
  | fail kind message metadata suggestions isOpen unfailed blames =>
      cases blames with
      | answer answer => exact absurd given (unanswered _ _)
      | error message => exact absurd ⟨message, message_of_occasion given⟩ heard
      | deadline number _ rendering => exact absurd (idle.symm.trans rendering) Phase.noConfusion
  | accept body _ _ _ same => exact absurd (given.trans same) (unanswered _ _)
  | quiet | close | disarm => exact idle

theorem phase_of_unrequested (setup : Setup) (moves : List Move) :
    ((start setup).afterAll moves).controller.version = 0 →
      ((start setup).afterAll moves).controller.phase = .idle := by
  induction moves using List.reverseRecOn with
  | nil => exact fun _ => rfl
  | append_singleton moves move ih =>
      rw [afterAll_concat]
      intro unrequested
      have sound := (steady_run setup moves).1.sound
      have before : ((start setup).afterAll moves).controller.version = 0 :=
        Nat.le_zero.1 (unrequested ▸ version_le_move sound move)
      exact idle_move sound (ih before) (awaited_eq_nil before) (unrequested.trans before.symm)

/-- Without source no debounce comes into force and no request starts. -/
theorem Drafts.of_none {move : Move} {requests : List Request} {desk : Desk}
    (drafts : world.Drafts move requests desk) (none : desk.code = none)
    (unforced : world.controller.code = .none → world.controller.debounce = .none) :
    world.controller.code = .none ∧ desk.debounce = .none ∧ requests = [] := by
  cases drafts with
  | edit => cases none
  | start _ _ _ _ _ taken | refresh _ _ _ _ _ taken => exact nomatch taken.symm.trans none
  | close | closeWindow => exact ⟨none, rfl, rfl⟩
  | rest | call | retry | openWindow | skip | ignore => exact ⟨none, unforced none, rfl⟩

end World

/-- While a session is idle and no debounce is in force, nothing is spawned. -/
theorem Transition.Deals.spawned_of_idle {transition : Transition} {orders : Orders}
    {queued : List Nat} {seeds : Seeds} (deals : transition.Deals orders queued seeds)
    (idle : transition.before.controller.phase = .idle)
    (unforced : transition.before.controller.debounce = none) : orders.spawned = [] := by
  cases deals with
  | elapse elapses =>
      unfold Transition.elapses at elapses
      split at elapses
      · simp [unforced] at elapses
      · cases elapses
  | seed name reported =>
      unfold Transition.symbol? at reported
      split at reported
      · next message _ =>
          unfold Controller.symbol? at reported
          split at reported
          · cases reported
          · simp [idle] at reported
      · cases reported
  | rest | drop | start | refresh => rfl

namespace World

/-- A session that has taken no source is as it was at its start. -/
structure Bare (world : World) : Prop where
  version_eq : world.controller.version = 0
  debounce_eq : world.controller.debounce = none
  queued_eq : world.queued = []

theorem bare_of_none (setup : Setup) (moves : List Move) :
    ((start setup).afterAll moves).controller.code = none →
      ((start setup).afterAll moves).Bare := by
  induction moves using List.reverseRecOn with
  | nil => exact fun _ => ⟨rfl, rfl, rfl⟩
  | append_singleton moves move ih =>
      rw [afterAll_concat]
      intro none
      have drafted := (drafted_run setup moves).1
      have sound := drafted.steady.sound
      obtain ⟨before, debounce_eq, unrequested⟩ :=
        (drafts_move drafted move).of_none none fun code => (ih code).debounce_eq
      have bare := ih before
      refine ⟨?_, debounce_eq, ?_⟩
      · rcases requested_move sound move with ⟨-, same⟩ | ⟨request, one, -⟩
        · exact same.trans bare.version_eq
        · rw [unrequested] at one
          cases one
      · obtain ⟨queued, deals, perm, -⟩ := renews_move sound move
        have left : queued = [] := List.subset_nil.1 (bare.queued_eq ▸ deals.queued_subset)
        have unspawned := deals.spawned_of_idle (phase_of_unrequested setup moves bare.version_eq)
          bare.debounce_eq
        rw [left, unspawned] at perm
        exact perm.eq_nil

end World

/-! ## Spawned requests start -/

/-- A spawned request is left, or it starts, or one is dropped and no other is spawned. -/
theorem Transition.Deals.left_or_started {transition : Transition} {orders : Orders}
    {queued : List Nat} {seeds : Seeds} (deals : transition.Deals orders queued seeds)
    {number : Nat} (mem : number ∈ transition.before.queued) :
    number ∈ queued ∨ (∃ request ∈ orders.started, request.asker = .job number) ∨
      orders = ⟨[], []⟩ ∧ queued.length < transition.before.queued.length := by
  cases deals with
  | drop other _ perm =>
      exact .inr (.inr ⟨rfl, perm.length_eq ▸ Nat.lt_succ_self _⟩)
  | start other _ request perm asker_eq =>
      rcases List.mem_cons.1 (perm.subset mem) with rfl | left
      · exact .inr (.inl ⟨request, List.mem_singleton_self _, asker_eq⟩)
      · exact .inl left
  | rest | elapse | seed | refresh => exact .inl mem

namespace World

variable {world : World}

theorem length_queued (world : World) : world.queued.length = world.desk.spawned := by
  have same : (fun task : Appointment => task.job.request?.isSome) =
      fun task => task.job.isRequest := by
    funext task
    cases task.job <;> rfl
  rw [queued, List.length_filterMap_eq_countP, same]
  rfl

/-- In an open session with source no spawned request is dropped. -/
theorem Drafts.spawned_le {move : Move} {desk : Desk} (drafts : world.Drafts move [] desk)
    (isOpen : world.controller.isClosed = false) (taken : world.controller.code ≠ none) :
    world.desk.spawned ≤ desk.spawned := by
  cases drafts with
  | skip _ _ _ idle => exact absurd (idle.resolve_left (by simp [isOpen])) taken
  | retry | closeWindow => exact Nat.le_add_right _ _
  | rest | edit | close | call | openWindow | ignore => exact Nat.le_refl _

theorem queued_or_started (drafted : world.Drafted) (isOpen : world.controller.isClosed = false)
    (taken : world.controller.code ≠ none) (move : Move) {number : Nat}
    (mem : number ∈ world.queued) :
    number ∈ (world.move move).1.queued ∨
      ∃ request ∈ (Transition.mk world move).orders.started, request.asker = .job number := by
  obtain ⟨queued, deals, perm, -⟩ := renews_move drafted.steady.sound move
  rcases deals.left_or_started mem with left | started | ⟨none, fewer⟩
  · exact .inl (perm.symm.subset (List.mem_append_left _ left))
  · exact .inr started
  · have drafts := drafts_move drafted move
    rw [show (world.move move).2.filterMap Notice.requested? = [] from
      congrArg Orders.started none] at drafts
    have more := drafts.spawned_le isOpen taken
    rw [none, List.append_nil] at perm
    have after : (world.move move).1.queued.length = queued.length := perm.length_eq
    rw [← length_queued, ← length_queued, after] at more
    exact absurd fewer (Nat.not_lt_of_le more)

/-- Every request that was spawned so far is still to start, or has started with a later version
than that in which it was spawned. -/
def Accounts (run : List Transition) (requests : List Request) (world : World) : Prop :=
  ∀ cause ∈ run, cause.before.controller.version ≤ world.controller.version ∧
    ∀ spawn ∈ cause.spawns, spawn.number ∈ world.queued ∨
      ∃ request ∈ requests, request.asker = .job spawn.number ∧
        cause.before.controller.version < request.version

theorem accounts_concat {run : List Transition} {requests : List Request}
    (drafted : world.Drafted) (isOpen : world.controller.isClosed = false)
    (taken : world.controller.code = none → world.queued = [])
    (accounts : world.Accounts run requests) (move : Move) :
    (world.move move).1.Accounts (run ++ [⟨world, move⟩])
      (requests ++ (Transition.mk world move).orders.started) := by
  have sound := drafted.steady.sound
  have version_le := version_le_move sound move
  intro cause mem
  rcases List.mem_append.1 mem with mem | last
  · obtain ⟨cause_le, spawned⟩ := accounts cause mem
    refine ⟨Nat.le_trans cause_le version_le, fun spawn given => ?_⟩
    rcases spawned spawn given with queued | ⟨request, started, asker_eq, later⟩
    · have taken : world.controller.code ≠ none := fun none => by
        rw [taken none] at queued
        cases queued
      rcases queued_or_started drafted isOpen taken move queued with
        still | ⟨request, started, asker_eq⟩
      · exact .inl still
      · refine .inr ⟨request, List.mem_append_right _ started, asker_eq, ?_⟩
        -- What starts has the version above the newest so far.
        rcases requested_move sound move with ⟨none, -⟩ | ⟨one, one_eq, version_eq, -⟩
        · rw [show (Transition.mk world move).orders.started = [] from none] at started
          cases started
        · rw [show (Transition.mk world move).orders.started = [one] from one_eq] at started
          rw [List.mem_singleton.1 started, version_eq]
          exact Nat.lt_succ_of_le cause_le
    · exact .inr ⟨request, List.mem_append_left _ started, asker_eq, later⟩
  · obtain rfl := List.mem_singleton.1 last
    refine ⟨version_le, fun spawn given => .inl ?_⟩
    obtain ⟨number, spawned, rfl⟩ := List.mem_map.1 given
    obtain ⟨queued, -, perm, -⟩ := renews_move sound move
    exact perm.symm.subset (List.mem_append_right _ spawned)

theorem accounts_afterAll (setup : Setup) (moves : List Move) :
    ((start setup).afterAll moves).controller.isClosed = false →
      ((start setup).afterAll moves).Accounts ((start setup).run moves)
        ((start setup).requests moves) := by
  induction moves using List.reverseRecOn with
  | nil => exact fun _ _ mem => nomatch mem
  | append_singleton moves move ih =>
      rw [afterAll_concat, run_concat, requests_concat]
      intro isOpen
      have drafted := (drafted_run setup moves).1
      have isOpen := isOpen_of_move drafted.steady.sound isOpen
      exact accounts_concat drafted isOpen (fun none => (bare_of_none setup moves none).queued_eq)
        (ih isOpen) move

end World

/-! ## Verdicts -/

namespace Controller

variable {controller : Controller}

/-- Attending to a waiter changes nothing but who waits. -/
theorem attend_eq (controller : Controller) (name : String) :
    ∃ waiters notices, controller.attend name = { controller with waiters, notices } := by
  obtain ⟨waiters, told, -, attend_eq⟩ := controller.attend_cases name
  exact ⟨_, _, attend_eq⟩

/-- A verdict is only told when a waiter is attended to, and then it is the phase. -/
theorem settled_perform (silent : controller.notices = []) {job : Job} {waiter : String}
    {phase : Phase} (settled : .settled waiter phase ∈ (controller.perform job).notices) :
    phase = controller.phase ∧ (controller.isClosed = false → controller.IsSettled) ∧
      ∃ waiters notices, controller.perform job = { controller with waiters, notices } := by
  have given := replies_perform silent job
  have mem : .settled waiter phase ∈ (controller.perform job).replies :=
    List.mem_filter.2 ⟨settled, rfl⟩
  generalize (controller.perform job).replies = replies at given mem
  cases given with
  | settled name waiter idle =>
      cases List.mem_singleton.1 mem
      exact ⟨rfl, idle, controller.attend_eq name⟩
  | silent => cases mem
  | returned | gaveUp => cases List.mem_singleton.1 mem

/-- Whether all that a waiter has to wait for first has ended, and nothing of it broke down. -/
def IsFree (controller : Controller) (name : String) : Prop :=
  ∃ waiter, controller.waiters.find? (·.name == name) = some waiter ∧
    waiter.watched.dropWhile controller.hasEnded = [] ∧
    controller.breakdownAmong waiter.watched = none

/-- Who is attended to and has nothing to wait for is told the verdict of a settled controller. -/
theorem IsSettled.settled_attend (settled : controller.IsSettled) {name : String}
    (free : controller.IsFree name) :
    .settled name controller.phase ∈ (controller.attend name).notices := by
  obtain ⟨waiter, found, ended, unbroken⟩ := free
  have isNamed : (waiter.name == name) = true :=
    List.find?_some (p := fun waiter : Waiter => waiter.name == name) found
  have name_eq := eq_of_beq isNamed
  have told (other : Controller) (same : other.phase = controller.phase) :
      .settled name controller.phase ∈ (other.settle waiter).notices := by
    rw [settle, name_eq, same]
    exact List.mem_append_right _ (List.mem_singleton_self _)
  have none : controller.pending = [] := by
    simp [pending, settled.debounce_eq, settled.inflight_eq]
  have verdict (waiter : Waiter) : (controller.setWaiter waiter).hasVerdict = true := by
    simp [hasVerdict, setWaiter, settled.isVerdict, settled.inflight_eq]
  rw [attend, found]
  dsimp only
  rw [unbroken]
  dsimp only
  split
  · exact told _ rfl
  · rw [ended, if_pos List.isEmpty_nil, suspend, none, if_neg (by simp),
      if_pos (verdict _)]
    exact told _ rfl

end Controller

namespace World

variable {world : World}

/-- Only doing a job replies to someone who waits. -/
theorem replies_move (silent : world.controller.notices = []) (move : Move) :
    (∀ notice ∈ (world.move move).2, notice.isReply = false) ∨
    ∃ base job, base.controller = world.controller ∧
      world.move move = World.act (·.perform job) base := by
  have silently (spent : List Nat) (action : Controller → Controller)
      (move_eq : world.move move = world.act action)
      (tends : Controller.Tends spent [] world.controller (action world.controller)) :
      ∀ notice ∈ (world.move move).2, notice.isReply = false := by
    have none := tends.replies_eq silent
    rw [Controller.replies, List.filter_eq_nil_iff] at none
    rw [move_eq]
    exact fun notice mem => Bool.eq_false_iff.2 (none notice mem)
  cases move with
  | pass span => exact .inl (List.forall_mem_nil _)
  | edit code =>
      obtain ⟨spent, tends, -⟩ := world.controller.tends_edit code
      exact .inl (silently spent (·.edit code) rfl tends)
  | refresh caller =>
      refine .inl (silently [] (·.note (.post (.refresh caller))) rfl ?_)
      exact (Controller.Tends.refl _).note ⟨rfl, rfl, rfl⟩
  | fullscreen => exact .inl (silently [] Controller.fullscreen rfl Controller.tends_fullscreen)
  | close => exact .inl (silently [] Controller.close rfl Controller.tends_close)
  | message message =>
      exact .inl (silently [] (·.handle message) rfl (Controller.tends_handle message))
  | await waiter poll =>
      refine .inl (silently []
        (fun controller => (controller.await waiter poll).note (.post (.attend waiter))) rfl ?_)
      exact (Controller.tends_await waiter poll).note ⟨rfl, rfl, rfl⟩
  | work index =>
      cases found : world.tasks[index]? with
      | none =>
          simp only [World.move, work, found]
          exact .inl (List.forall_mem_nil _)
      | some task =>
          by_cases late : task.due ≤ world.now
          · simp only [World.move, work, found, if_pos late]
            exact .inr ⟨world.without index, task.job, rfl, rfl⟩
          · simp only [World.move, work, found, if_neg late]
            exact .inl (List.forall_mem_nil _)
  | answer index answer =>
      cases found : world.awaited[index]? with
      | none =>
          simp only [World.move, World.answer, found]
          exact .inl (List.forall_mem_nil _)
      | some request =>
          exact .inr ⟨{ world with awaited := world.awaited.eraseIdx index }, _, rfl,
            move_answer found answer⟩

theorem settled_move (silent : world.controller.notices = []) {move : Move} {waiter : String}
    {phase : Phase} (settled : .settled waiter phase ∈ (world.move move).2) :
    phase = world.controller.phase ∧
      (world.controller.isClosed = false → world.controller.IsSettled) ∧
      ∃ waiters notices,
        (world.move move).1.controller = { world.controller with waiters, notices } := by
  rcases replies_move silent move with none | ⟨base, job, controller_eq, move_eq⟩
  · exact absurd (none _ settled) Bool.noConfusion
  rw [move_eq] at settled ⊢
  rw [act_notices, controller_eq] at settled
  obtain ⟨phase_eq, idle, waiters, notices, same⟩ := Controller.settled_perform silent settled
  refine ⟨phase_eq, idle, waiters, [], ?_⟩
  rw [act_controller, controller_eq, same]

/-- The same for a waiter whose turn has come. -/
theorem settled_of_isFree {index : Nat} {due : Int} {name : String}
    (found : world.tasks[index]? = some ⟨due, .attend name⟩) (late : due ≤ world.now)
    (free : world.controller.IsFree name) (settled : world.controller.IsSettled) :
    .settled name world.controller.phase ∈ (world.move (.work index)).2 := by
  have move_eq : world.move (.work index) =
      (world.without index).act (·.perform (.attend name)) := by
    simp only [World.move, work, found, if_pos late]
    rfl
  rw [move_eq, act_notices]
  exact settled.settled_attend free

/-- Whether a verdict is final for what a run has asked of a session: it is that of the newest
version, no debounce is in force, and every request that was spawned has started since, with a later
version, and is not awaited any more. So in the newest version none was spawned. -/
structure IsFinal (run : List Transition) (requests : List Request)
    (announced : List (Phase × Nat)) (phase : Phase) (world : World) : Prop where
  isVerdict : phase = .ready ∨ phase = .errored
  phase_eq : world.controller.phase = phase
  newest : requests.map Request.version = List.range' 1 world.controller.version
  announced_eq : announced.getLast? = some (phase, world.controller.version)
  errored_iff : phase = .errored ↔ world.controller.version ∈ world.controller.failed
  debounce_eq : world.controller.debounce = none
  answered : ∀ cause ∈ run, ∀ spawn ∈ cause.spawns, ∃ request ∈ requests,
    request.asker = .job spawn.number ∧
      cause.before.controller.version < request.version ∧ request ∉ world.awaited
  retried : ∀ cause ∈ run, cause.spawns ≠ [] →
    cause.before.controller.version < world.controller.version

theorem Accounts.started {run : List Transition} {requests : List Request}
    (accounts : world.Accounts run requests) (ended : world.ongoing = []) {cause : Transition}
    (mem : cause ∈ run) {spawn : Spawn} (spawned : spawn ∈ cause.spawns) :
    ∃ request ∈ requests, request.asker = .job spawn.number ∧
      cause.before.controller.version < request.version ∧ request ∉ world.awaited := by
  have dead : spawn.number ∉ world.ongoing := by simp [ended]
  obtain ⟨request, started, asker_eq, later⟩ :=
    ((accounts cause mem).2 spawn spawned).resolve_left fun queued =>
      dead (List.mem_append_left _ queued)
  refine ⟨request, started, asker_eq, later, fun awaited => ?_⟩
  refine dead (List.mem_append_right _ (List.mem_filterMap.2 ⟨request, awaited, ?_⟩))
  rw [Request.job?, asker_eq]

theorem IsFinal.of_accounts {run : List Transition} {requests : List Request}
    {announced : List (Phase × Nat)} (steady : world.Steady)
    (coherent : world.controller.course.Coherent)
    (newest : requests.map Request.version = List.range' 1 world.controller.version)
    (last : announced.getLast?.getD (.idle, 0) =
      (world.controller.phase, world.controller.version))
    (accounts : world.Accounts run requests) (ended : world.ongoing = [])
    (debounce_eq : world.controller.debounce = none)
    (isVerdict : world.controller.phase = .ready ∨ world.controller.phase = .errored) :
    world.IsFinal run requests announced world.controller.phase where
  isVerdict := isVerdict
  phase_eq := rfl
  newest := newest
  announced_eq := by
    cases found : announced.getLast? with
    | none =>
        rw [found] at last
        have idle : Phase.idle = world.controller.phase := congrArg Prod.fst last
        rw [← idle] at isVerdict
        simp at isVerdict
    | some change =>
        rw [found] at last
        exact congrArg some last
  errored_iff := by
    refine ⟨coherent.failed_of_errored, fun failed => isVerdict.resolve_left fun ready => ?_⟩
    exact steady.resting_unfailed (by rw [ready]; rfl) failed
  debounce_eq := debounce_eq
  answered := fun _ mem _ spawned => accounts.started ended mem spawned
  retried := by
    intro cause mem some
    obtain ⟨spawn, spawned⟩ := List.exists_mem_of_ne_nil _ some
    obtain ⟨request, started, -, later, -⟩ := accounts.started ended mem spawned
    have given : request.version ∈ List.range' 1 world.controller.version :=
      newest ▸ List.mem_map_of_mem started
    rw [List.mem_range'_1] at given
    omega

theorem isFinal_of_settled (setup : Setup) (moves : List Move) (move : Move) {waiter : String}
    {phase : Phase} (isOpen : ((start setup).afterAll moves).controller.isClosed = false)
    (settled : .settled waiter phase ∈ (((start setup).afterAll moves).move move).2) :
    ((start setup).afterAll (moves ++ [move])).IsFinal ((start setup).run (moves ++ [move]))
      ((start setup).requests (moves ++ [move])) ((start setup).announced (moves ++ [move]))
      phase := by
  obtain ⟨rfl, idle, waiters, notices, same⟩ :=
    settled_move (steady_run setup moves).1.sound.silent settled
  obtain ⟨debounce_eq, inflight_eq, isVerdict⟩ := idle isOpen
  rw [← afterAll_concat] at same
  have phase_eq : ((start setup).afterAll moves).controller.phase =
      ((start setup).afterAll (moves ++ [move])).controller.phase := by rw [same]
  have ended : ((start setup).afterAll (moves ++ [move])).ongoing = [] := by
    have inflight := (tracked_afterAll setup (moves ++ [move])).inflight
    rw [same] at inflight
    exact List.subset_nil.1 (inflight_eq ▸ inflight)
  rw [phase_eq] at isVerdict ⊢
  refine .of_accounts (steady_run setup _).1 (coherent_run setup _).1
    (documents_are_fresh setup _).1 (last_announced setup _) (accounts_afterAll setup _ ?_)
    ended ?_ isVerdict
  · rw [same]
    exact isOpen
  · rw [same]
    exact debounce_eq

end World

end ComponentPreview
