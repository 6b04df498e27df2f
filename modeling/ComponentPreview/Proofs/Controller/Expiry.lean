import ComponentPreview.Proofs.Controller.Closing
import ComponentPreview.Proofs.Controller.Debounce
import ComponentPreview.Proofs.Controller.Watch

/-!
# Deadlines that pass

A version that is rendering has a deadline, and no other version has one that was not called off.
When its time has gone by that version is no longer rendering, and a deadline of an older version
does nothing when it ends.
-/

namespace ComponentPreview

namespace Effect

variable {before after : Course} {occasion : Occasion} {news : List Notice}

/-- A version is set rendering by its answer. -/
theorem rendering_cases (effect : Effect before occasion news after)
    (rendering : after.phase = .rendering) :
    before.phase = .rendering ∨ ∃ answer, occasion = .answer before.version answer := by
  cases effect with
  | request => cases rendering
  | ready => cases rendering
  | fail =>
      dsimp only at rendering
      split at rendering
      · cases rendering
      · exact .inl rendering
  | accept body _ _ _ given => exact .inr ⟨.ok body, given⟩
  | _ => exact .inl rendering

/-- No deadline is in force once a session is closed. -/
theorem disarmed (effect : Effect before occasion news after)
    (old : before.isClosed = true → before.deadline = none) (closed : after.isClosed = true) :
    after.deadline = none := by
  cases effect with
  | quiet => exact old closed
  | accept _ _ _ _ _ welcome => simp [welcome.isOpen] at closed
  | request | ready | fail | close | disarm => rfl

end Effect

namespace World

variable {world : World} {move : Move} {hurried : List Nat}

namespace Watches

variable {new : List Nat} {vigil : Vigil} {watched : List Appointment}

theorem hurried_lt (watches : world.Watches move new vigil watched)
    (isOpen : vigil.isClosed = false) (numbered : world.controller.Numbered) :
    ∀ number ∈ new, number < world.controller.nextJob := by
  intro number mem
  have listed : number ∈ world.controller.debounce.toList ++ world.controller.deadline.toList := by
    cases watches with
    | close _ _ _ _ closed => simp [closed] at isOpen
    | bide _ _ hurries => exact List.mem_append_left _ (hurries mem)
    | drop _ _ _ _ _ _ _ hurries => exact hurries mem
    | arm | «open» | expire => cases mem
  rcases List.mem_append.1 listed with mem | mem
  · exact numbered.debounce_lt number (Option.mem_toList.1 mem)
  · exact numbered.deadline_lt number (Option.mem_toList.1 mem)

theorem alive (watches : world.Watches move new vigil watched) (isOpen : vigil.isClosed = false)
    (numbered : world.controller.Numbered) (watchful : world.Watchful hurried) {number : Nat}
    (inForce : vigil.deadline = some number) : number ∉ hurried ++ new := by
  rw [List.mem_append, not_or]
  cases watches with
  | close _ _ _ _ closed => simp [closed] at isOpen
  | bide _ _ hurries =>
      refine ⟨watchful.alive number inForce, fun mem => ?_⟩
      exact numbered.apart number inForce (Option.mem_toList.1 (hurries mem))
  | drop | expire => cases inForce
  | arm =>
      obtain rfl : world.controller.nextJob = number := Option.some.inj inForce
      exact ⟨fun mem => Nat.lt_irrefl _ (watchful.hurried_lt _ mem), List.not_mem_nil⟩
  | «open» => exact ⟨watchful.alive number inForce, List.not_mem_nil⟩

theorem single (watches : world.Watches move new vigil watched) (isOpen : vigil.isClosed = false)
    (watchful : world.Watchful hurried) {number : Nat}
    (inForce : vigil.deadline = some number) :
    ∃ due, watched = [⟨due, .openDeadline number vigil.version⟩] ∨
      watched = [⟨due, .closeDeadline number vigil.version⟩] := by
  cases watches with
  | close _ _ _ _ closed => simp [closed] at isOpen
  | bide => exact watchful.single number inForce
  | drop | expire => cases inForce
  | arm =>
      obtain rfl : world.controller.nextJob = number := Option.some.inj inForce
      exact ⟨_, .inl rfl⟩
  | «open» _ other _ inForce' =>
      obtain rfl : other = number := Option.some.inj (inForce'.symm.trans inForce)
      exact ⟨_, .inr rfl⟩

theorem armed (watches : world.Watches move new vigil watched) (isOpen : vigil.isClosed = false)
    (watchful : world.Watchful hurried) (rendering : vigil.phase = .rendering) :
    vigil.deadline ≠ none := by
  cases watches with
  | close _ _ _ _ closed => simp [closed] at isOpen
  | bide | «open» => exact watchful.armed rendering
  | drop _ _ _ _ resting => exact absurd rendering resting
  | arm => exact Option.some_ne_none _
  | expire => cases rendering

end Watches

theorem watchful_move (drafted : world.Drafted) (content : world.controller.IsContent)
    (watchful : world.Watchful hurried) (move : Move)
    (isOpen : (world.move move).1.controller.isClosed = false) :
    (world.move move).1.Watchful (hurried ++ (world.move move).2.filterMap Notice.hurried?) := by
  have sound := drafted.steady.sound
  have minded := minded_move drafted.steady content (isOpen_of_move sound isOpen) watchful move
  have watches := minded.watches
  refine ⟨?_, fun _ => watches.alive isOpen sound.numbered watchful, ?_,
    fun _ => watches.single isOpen watchful, watches.armed isOpen watchful⟩
  · intro task mem number version isFor off
    rcases minded.others isOpen task mem number version isFor off with new | ⟨old, mem, same, off⟩
    · exact List.mem_append_right _ new
    · exact List.mem_append_left _ (watchful.dead old mem number version (same ▸ isFor) off)
  · intro number mem
    refine Nat.lt_of_lt_of_le ?_ (nextJob_le_move sound move)
    rcases List.mem_append.1 mem with mem | mem
    · exact watchful.hurried_lt number mem
    · exact watches.hurried_lt isOpen sound.numbered number mem

/-- The numbers of the jobs that a run calls off. -/
def hurries (world : World) (moves : List Move) : List Nat :=
  (world.run moves).flatMap fun transition => transition.notices.filterMap Notice.hurried?

theorem hurries_concat (moves : List Move) (move : Move) :
    world.hurries (moves ++ [move]) =
      world.hurries moves ++ ((world.afterAll moves).move move).2.filterMap Notice.hurried? := by
  rw [hurries, run_concat, List.flatMap_append, List.flatMap_singleton]
  rfl

theorem isContent_afterAll {setup : Setup} (content : ∀ metadata, setup.objection metadata = none)
    (moves : List Move) : ((start setup).afterAll moves).controller.IsContent := by
  refine (invariant (motive := fun world => world.Drafted ∧ world.controller.IsContent) ?_ moves
    ⟨drafted_start setup, content⟩).1.2
  rintro world move ⟨drafted, content⟩
  refine ⟨drafted_move drafted move, ?_⟩
  rw [Controller.IsContent, objection_move drafted move]
  exact content

theorem watchful_afterAll {setup : Setup} (content : ∀ metadata, setup.objection metadata = none)
    (moves : List Move) (isOpen : ((start setup).afterAll moves).controller.isClosed = false) :
    ((start setup).afterAll moves).Watchful ((start setup).hurries moves) := by
  induction moves using List.reverseRecOn with
  | nil =>
      refine ⟨?_, ?_, ?_, ?_, ?_⟩
      all_goals simp [start, Setup.controller, afterAll, hurries, run]
  | append_singleton moves move ih =>
      rw [afterAll_concat] at isOpen
      have drafted := (drafted_run setup moves).1
      rw [afterAll_concat, hurries_concat]
      exact watchful_move drafted (isContent_afterAll content moves)
        (ih (isOpen_of_move drafted.steady.sound isOpen)) move isOpen

/-- The tasks for deadlines that have not been called off. -/
def live (hurried : List Nat) (world : World) : List Appointment :=
  world.tasks.filter fun task => task.job.deadline?.any fun (number, _) => number ∉ hurried

theorem live_eq_watched (watchful : world.Watchful hurried) :
    world.live hurried = world.watched := by
  refine List.filter_congr fun task mem => ?_
  cases isFor : task.job.deadline? with
  | none => simp [Job.isOf, isFor]
  | some pair =>
      obtain ⟨number, version⟩ := pair
      -- A deadline has not been called off just when it is the one in force.
      by_cases inForce : world.controller.deadline = some number
      · simp [Job.isOf, isFor, inForce, watchful.alive number inForce]
      · simp [Job.isOf, isFor, inForce, watchful.dead task mem number version isFor inForce]

/-- What is live of an open session: nothing, or one task for its newest version, which is
rendering. -/
theorem live_cases (steady : world.Steady) (watchful : world.Watchful hurried) :
    (world.controller.phase ≠ .rendering ∧ world.live hurried = []) ∨
      world.controller.phase = .rendering ∧ ∃ task number, world.live hurried = [task] ∧
        world.controller.deadline = some number ∧
        task.job.deadline? = some (number, world.controller.version) := by
  rw [live_eq_watched watchful]
  by_cases rendering : world.controller.phase = .rendering
  · right
    obtain ⟨number, inForce⟩ := Option.ne_none_iff_exists'.1 (watchful.armed rendering)
    obtain ⟨due, single | single⟩ := watchful.single number inForce
    · exact ⟨rendering, _, number, single, inForce, rfl⟩
    · exact ⟨rendering, _, number, single, inForce, rfl⟩
  · exact .inl ⟨rendering, watched_of_none (steady.disarmed rendering)⟩

/-! ## The time of a rendering -/

/-- Whether time may pass: a deadline in force begins at once and ends in time. -/
def IsPrompt (world : World) (span : Nat) : Prop :=
  ∀ task ∈ world.watched, world.now + span ≤ task.due

instance (world : World) (span : Nat) : Decidable (world.IsPrompt span) :=
  inferInstanceAs (Decidable (∀ task ∈ world.watched, world.now + span ≤ task.due))

/-- Whether all that a deadline in force has to do by a time is done. -/
def IsPast (limit : Int) (world : World) : Prop :=
  limit < world.now ∨ limit = world.now ∧ ∀ task ∈ world.watched, world.now < task.due

instance (limit : Int) (world : World) : Decidable (world.IsPast limit) :=
  inferInstanceAs (Decidable (_ ∨ _ ∧ ∀ task ∈ world.watched, world.now < task.due))

end World

namespace Transition

def IsPrompt (transition : Transition) : Prop :=
  match transition.move with
  | .pass span => transition.before.IsPrompt span
  | _ => True

instance (transition : Transition) : Decidable transition.IsPrompt :=
  match transition with
  | ⟨before, .pass span⟩ => inferInstanceAs (Decidable (before.IsPrompt span))
  | ⟨_, .edit _⟩ | ⟨_, .refresh _⟩ | ⟨_, .fullscreen⟩ | ⟨_, .close⟩ | ⟨_, .message _⟩
  | ⟨_, .await ..⟩ | ⟨_, .work _⟩ | ⟨_, .answer ..⟩ => inferInstanceAs (Decidable True)

def BeginsRendering (transition : Transition) : Prop :=
  transition.before.controller.phase ≠ .rendering ∧
    transition.after.controller.phase = .rendering

instance (transition : Transition) : Decidable transition.BeginsRendering :=
  inferInstanceAs (Decidable (_ ∧ _))

end Transition

/-- When a length of time that begins at a time is over; one below zero is over at once. -/
def Milliseconds.endFrom (begin : Int) (time : Milliseconds) : Int :=
  begin + max 0 time.microseconds

/-- What has become of a version that has rendered since a time, with a render time. -/
inductive Vigil.Fate (version : Nat) (since : Int) (time : Milliseconds) (now : Int)
    (vigil : Vigil) (watched : List Appointment) : Prop
  | outdated : version < vigil.version → Fate version since time now vigil watched
  | settled : version = vigil.version → vigil.phase = .ready ∨ vigil.phase = .errored →
      Fate version since time now vigil watched
  | opened (number : Nat) : version = vigil.version → vigil.phase = .rendering →
      vigil.renderTime = time → watched = [⟨since, .openDeadline number version⟩] → now = since →
      Fate version since time now vigil watched
  | held (number : Nat) : version = vigil.version → vigil.phase = .rendering →
      watched = [⟨since + time.microseconds, .closeDeadline number version⟩] →
      now ≤ time.endFrom since → Fate version since time now vigil watched

namespace Vigil.Fate

variable {version : Nat} {since now : Int} {time : Milliseconds} {vigil : Vigil}
  {watched : List Appointment}

theorem phase_cases (fate : vigil.Fate version since time now watched) :
    version < vigil.version ∨ version = vigil.version ∧
      (vigil.phase = .rendering ∨ vigil.phase = .ready ∨ vigil.phase = .errored) := by
  cases fate with
  | outdated newer => exact .inl newer
  | settled newest verdict => exact .inr ⟨newest, .inr verdict⟩
  | opened _ newest rendering | held _ newest rendering => exact .inr ⟨newest, .inl rendering⟩

theorem version_le (fate : vigil.Fate version since time now watched) :
    version ≤ vigil.version := by
  rcases fate.phase_cases with newer | ⟨newest, -⟩
  · exact Nat.le_of_lt newer
  · exact Nat.le_of_eq newest

/-- Time passes, but not beyond that of the deadline in force. -/
theorem pass (fate : vigil.Fate version since time now watched) {later : Int}
    (forward : now ≤ later) (prompt : ∀ task ∈ watched, later ≤ task.due) :
    vigil.Fate version since time later watched := by
  cases fate with
  | outdated newer => exact .outdated newer
  | settled newest verdict => exact .settled newest verdict
  | opened number newest rendering time_eq single now_eq =>
      have early := prompt _ (single ▸ List.mem_singleton_self _)
      dsimp only at early
      exact .opened number newest rendering time_eq single (by omega)
  | held number newest rendering single =>
      have early := prompt _ (single ▸ List.mem_singleton_self _)
      dsimp only at early
      exact .held number newest rendering single (by rw [Milliseconds.endFrom]; omega)

/-- When its time is over and all is done, a version has left rendering. -/
theorem left_of_past (fate : vigil.Fate version since time now watched)
    (past : time.endFrom since < now ∨
      time.endFrom since = now ∧ ∀ task ∈ watched, now < task.due) :
    version < vigil.version ∨ version = vigil.version ∧
      (vigil.phase = .ready ∨ vigil.phase = .errored) := by
  cases fate with
  | outdated newer => exact .inl newer
  | settled newest verdict => exact .inr ⟨newest, verdict⟩
  | opened number _ _ _ single now_eq =>
      exfalso
      rcases past with past | ⟨-, undone⟩
      · rw [Milliseconds.endFrom] at past
        omega
      · have late := undone _ (single ▸ List.mem_singleton_self _)
        dsimp only at late
        omega
  | held number _ _ single early =>
      exfalso
      rcases past with past | ⟨ended, undone⟩
      · omega
      · have late := undone _ (single ▸ List.mem_singleton_self _)
        dsimp only at late
        rw [Milliseconds.endFrom] at ended
        omega

end Vigil.Fate

namespace World

variable {world : World} {move : Move} {hurried new : List Nat} {vigil : Vigil}
  {watched : List Appointment} {version : Nat} {since : Int} {time : Milliseconds}

/-- A version that has left rendering does not come back to it, and one that has not is still within
its time. -/
theorem fate_of_watches (watches : world.Watches move new vigil watched)
    (isOpen : vigil.isClosed = false)
    (kept : version = world.controller.version → vigil.version = version →
      vigil.phase = .rendering → world.controller.phase = .rendering)
    (fate : world.controller.vigil.Fate version since time world.now world.watched) :
    vigil.Fate version since time world.now watched := by
  cases watches with
  | close _ _ _ _ closed => simp [closed] at isOpen
  | bide => exact fate
  | drop _ _ phase _ resting newer =>
      rcases newer with ⟨rfl, verdict⟩ | rfl
      · rcases fate.phase_cases with newer | ⟨newest, old⟩
        · exact .outdated newer
        · refine .settled newest ?_
          rcases verdict with ready | errored | same
          · exact .inl ready
          · exact .inr errored
          · have old := old.resolve_left fun rendering => resting (same.trans rendering)
            exact old.imp same.trans same.trans
      · exact .outdated (Nat.lt_succ_of_le fate.version_le)
  | arm _ _ resting =>
      rcases fate.phase_cases with newer | ⟨newest, -⟩
      · exact .outdated newer
      -- Nothing but its answer sets a version rendering, and that came before.
      · exact absurd (kept newest newest.symm rfl) resting
  | «open» _ number due _ single late =>
      cases fate with
      | outdated newer => exact .outdated newer
      | settled newest verdict => exact .settled newest verdict
      | opened _ newest rendering time_eq _ now_eq =>
          have time_eq : world.controller.renderTime = time := time_eq
          have newest' : version = world.controller.version := newest
          rw [time_eq, now_eq, ← newest']
          refine .held number newest rendering rfl ?_
          rw [Milliseconds.endFrom]
          omega
      | held _ _ _ single' =>
          rw [single] at single'
          simp at single'
  | expire =>
      rcases fate.phase_cases with newer | ⟨newest, -⟩
      · exact .outdated newer
      · exact .settled newest (.inr rfl)

/-- A version is set rendering once only. -/
theorem rendering_of_answered (steady : world.Steady) (answered : world.Answered version)
    (newest : version = world.controller.version)
    (rendering : (world.move move).1.controller.phase = .rendering) :
    world.controller.phase = .rendering := by
  rcases (effect_of_sound steady.sound move).rendering_cases rendering with same | ⟨answer, given⟩
  · exact same
  · rw [newest] at answered
    exact absurd given (not_handed steady answered move answer)

theorem fate_move (drafted : world.Drafted) (content : world.controller.IsContent)
    (watchful : world.Watchful hurried) (answered : world.Answered version)
    (isOpen : (world.move move).1.controller.isClosed = false)
    (prompt : (Transition.mk world move).IsPrompt)
    (fate : world.controller.vigil.Fate version since time world.now world.watched) :
    (world.move move).1.controller.vigil.Fate version since time (world.move move).1.now
      (world.move move).1.watched := by
  by_cases passes : ∃ span, move = .pass span
  · obtain ⟨span, rfl⟩ := passes
    exact fate.pass (Int.le_add_of_nonneg_right (Int.natCast_nonneg span)) prompt
  · rw [now_move fun span eq => passes ⟨span, eq⟩]
    have isOpen' := isOpen_of_move drafted.steady.sound isOpen
    have watches := (minded_move drafted.steady content isOpen' watchful move).watches
    refine fate_of_watches watches isOpen ?_ fate
    exact fun newest _ rendering => rendering_of_answered drafted.steady answered newest rendering

/-- A version begins to render with a deadline that is to begin at once. -/
theorem fate_of_begins (drafted : world.Drafted) (content : world.controller.IsContent)
    (watchful : world.Watchful hurried)
    (isOpen : (world.move move).1.controller.isClosed = false)
    (begins : (Transition.mk world move).BeginsRendering) :
    (world.move move).1.controller.vigil.Fate (world.move move).1.controller.version world.now
      (world.move move).1.controller.renderTime (world.move move).1.now
      (world.move move).1.watched := by
  obtain ⟨resting, rendering⟩ := begins
  have stays : ∀ span, move ≠ .pass span := by
    rintro span rfl
    exact resting rendering
  rw [now_move stays]
  have isOpen' := isOpen_of_move drafted.steady.sound isOpen
  have armed {new : List Nat} {vigil : Vigil} {watched : List Appointment}
      (watches : world.Watches move new vigil watched) (isOpen : vigil.isClosed = false)
      (rendering : vigil.phase = .rendering) :
      vigil.Fate vigil.version world.now vigil.renderTime world.now watched := by
    cases watches with
    | close _ _ _ _ closed => simp [closed] at isOpen
    | bide | «open» => exact absurd rendering resting
    | drop _ _ _ _ resting => exact absurd rendering resting
    | arm => exact .opened _ rfl rfl rfl rfl rfl
    | expire => cases rendering
  exact armed (minded_move drafted.steady content isOpen' watchful move).watches isOpen rendering

theorem fate_afterAll {setup : Setup} (content : ∀ metadata, setup.objection metadata = none)
    {earlier later : List Move} {begun : Transition}
    (begun_eq : begun = ⟨(start setup).afterAll earlier, move⟩) (begins : begun.BeginsRendering)
    (prompt : ∀ transition ∈ begun.after.run later, transition.IsPrompt)
    (isOpen : (begun.after.afterAll later).controller.isClosed = false) :
    (begun.after.afterAll later).controller.vigil.Fate begun.after.controller.version
      begun.before.now begun.after.controller.renderTime (begun.after.afterAll later).now
      (begun.after.afterAll later).watched := by
  subst begun_eq
  have drafted := (drafted_run setup earlier).1
  -- From the last move backwards: what holds of the whole run so far is known of each prefix.
  induction later using List.reverseRecOn with
  | nil =>
      have isOpen' := isOpen_of_move drafted.steady.sound isOpen
      exact fate_of_begins drafted (isContent_afterAll content earlier)
        (watchful_afterAll content earlier isOpen') isOpen begins
  | append_singleton later next ih =>
      have reached : (Transition.mk ((start setup).afterAll earlier) move).after.afterAll later =
          (start setup).afterAll (earlier ++ move :: later) :=
        (afterAll_append earlier (move :: later)).symm
      rw [run_append] at prompt
      rw [afterAll_concat] at isOpen ⊢
      have drafted' := (drafted_run setup (earlier ++ move :: later)).1
      have content' := isContent_afterAll content (earlier ++ move :: later)
      have watchful := watchful_afterAll content (earlier ++ move :: later)
      rw [← reached] at drafted' content' watchful
      have isOpen' := isOpen_of_move drafted'.steady.sound isOpen
      have steady := steady_move drafted.steady move
      have answered : (Transition.mk ((start setup).afterAll earlier) move).after.Answered
          (Transition.mk ((start setup).afterAll earlier) move).after.controller.version :=
        steady.resting_answered (congrArg Phase.isResting begins.2)
      refine fate_move drafted' content' (watchful isOpen')
        (answered_run steady.sound answered later).1 isOpen (prompt _ ?_) (ih ?_ isOpen')
      · exact List.mem_append_right _ (List.mem_singleton_self _)
      · exact fun transition mem => prompt transition (List.mem_append_left _ mem)

/-! ## Deadlines of older versions -/

theorem disarmed_of_closed (setup : Setup) (moves : List Move) :
    ∀ transition ∈ (start setup).run moves, transition.before.controller.isClosed = true →
      transition.before.controller.deadline = none := by
  refine fun transition mem => ((invariant (motive := fun world => world.Sound ∧
    (world.controller.isClosed = true → world.controller.deadline = none)) ?_ moves
    ⟨sound_start setup, fun _ => rfl⟩).2 transition mem).2
  rintro world move ⟨sound, old⟩
  exact ⟨sound_move sound move, (effect_of_sound sound move).disarmed old⟩

end World

/-- The job of a deadline that is not in force does nothing. -/
theorem Transition.idle_of_disarmed {transition : Transition}
    (silent : transition.before.controller.notices = []) {job : Job} {number version : Nat}
    (isFor : job.deadline? = some (number, version))
    (off : transition.before.controller.deadline ≠ some number)
    (performs : transition.Performs job) :
    transition.notices = [] ∧ transition.after.controller = transition.before.controller := by
  obtain ⟨index, move_eq⟩ := move_of_performs performs
  have same : (transition.before.without index).controller.perform job =
      transition.before.controller := by
    cases job <;> cases isFor <;> exact if_neg off
  rw [notices, after, move_eq, World.act_notices, World.act_controller, same]
  refine ⟨silent, ?_⟩
  rw [← silent]

namespace World

/-- The deadline in force is for the newest version. -/
theorem newest_of_performs {world : World} {move : Move} {hurried : List Nat}
    (watchful : world.Watchful hurried) {job : Job} {number version : Nat}
    (isFor : job.deadline? = some (number, version))
    (performs : (Transition.mk world move).Performs job)
    (inForce : world.controller.deadline = some number) :
    version = world.controller.version := by
  obtain ⟨index, task, -, found, -, rfl⟩ := performs
  exact (watched_without watchful found inForce isFor).2.1

/-- The first version of a session of its own begins to render. -/
def firstRendering : Transition :=
  ⟨(start { session := "s" }).afterAll firstRequest, firstAnswer⟩

/-- The deadline of the first version begins, and there is a second one before it ends. -/
def supersedingRequest : List Move :=
  [.work 1, .refresh "", .work 2]

end World

end ComponentPreview
