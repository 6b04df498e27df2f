import ComponentPreview.Proofs.Controller.Freshness

/-!
# Versions at rest

A version is at rest once its answer has been accepted: it is rendering or ready. Such a version is
no longer awaited and has not failed, and only one that is rendering has a deadline.
-/

namespace ComponentPreview

namespace World

theorem now_le_move (world : World) (move : Move) : world.now ≤ (world.move move).1.now := by
  cases move with
  | pass span => exact Int.le_add_of_nonneg_right (Int.natCast_nonneg span)
  | work index =>
      simp only [World.move, work]
      split
      · split <;> simp
      · exact Int.le_refl _
  | answer index answer =>
      simp only [World.move, World.answer]
      split <;> simp
  | _ => simp [World.move]

/-- A version that has been accepted is no longer awaited and has not failed, and only while it is
rendering is there a deadline. -/
structure Steady (world : World) : Prop where
  ordered : world.Ordered
  calledOff_eq : world.controller.calledOff = []
  resting_answered : world.controller.phase.isResting = true →
    world.Answered world.controller.version
  resting_unfailed : world.controller.phase.isResting = true →
    world.controller.version ∉ world.controller.failed
  armed_rendering : world.controller.deadline ≠ none → world.controller.phase = .rendering

theorem steady_start (setup : Setup) : (start setup).Steady where
  ordered := ordered_start setup
  calledOff_eq := rfl
  resting_answered := by simp [start, Setup.controller, Phase.isResting]
  resting_unfailed := by simp [start, Setup.controller, Phase.isResting]
  armed_rendering := by simp [start, Setup.controller]

variable {world : World}

theorem Steady.sound (steady : world.Steady) : world.Sound :=
  steady.ordered.sound

theorem Steady.not_resting_of_awaited (steady : world.Steady) {request : Request}
    (mem : request ∈ world.awaited) (newest : request.version = world.controller.version) :
    world.controller.phase.isResting = false := by
  cases resting : world.controller.phase.isResting with
  | false => rfl
  | true => exact absurd newest ((steady.resting_answered resting).not_awaited request mem)

theorem Steady.not_rendering_of_awaited (steady : world.Steady) {request : Request}
    (mem : request ∈ world.awaited) (newest : request.version = world.controller.version) :
    world.controller.phase ≠ .rendering := fun rendering => by
  have restless := steady.not_resting_of_awaited mem newest
  rw [rendering] at restless
  cases restless

theorem Steady.disarmed (steady : world.Steady) (idle : world.controller.phase ≠ .rendering) :
    world.controller.deadline = none :=
  Classical.byContradiction fun armed => idle (steady.armed_rendering armed)

/-- After an answer to the newest version, that version is not awaited. -/
theorem answered_of_occasion (ordered : world.Ordered) {move : Move} {version : Nat}
    {answer : Answer} (h : world.occasion move = .answer version answer) :
    (world.move move).1.Answered version ∧
      ∃ request ∈ world.awaited, request.version = version := by
  obtain ⟨index, request, rfl, found, rfl⟩ := answer_of_occasion ordered.sound h
  exact ⟨answered_of_answer ordered found answer, request, List.mem_of_getElem? found, rfl⟩

theorem steady_move (steady : world.Steady) (move : Move) : (world.move move).1.Steady := by
  have effect := effect_of_sound steady.sound move
  have rests := effect.rests (world.move move).1.Answered
    (by
      intro answer given
      obtain ⟨answered, request, mem, newest⟩ := answered_of_occasion steady.ordered given
      exact ⟨steady.not_resting_of_awaited mem newest, answered⟩)
    (by
      intro resting
      have answered := steady.resting_answered resting
      exact ⟨answered_move steady.sound answered move, steady.resting_unfailed resting⟩)
  exact ⟨ordered_move steady.ordered move, effect.calledOff_eq.trans steady.calledOff_eq,
    fun resting => (rests resting).1, fun resting => (rests resting).2,
    effect.armed steady.armed_rendering⟩

theorem message_of_occasion {move : Move} {message : LifecycleMessage}
    (h : world.occasion move = .message message) : move = .message message := by
  cases move with
  | message other =>
      cases h
      rfl
  | answer index answer =>
      simp only [occasion] at h
      split at h <;> cases h
  | work index =>
      simp only [occasion] at h
      split at h
      · next task found =>
          split at h
          · cases job : task.job <;> rw [job] at h <;> cases h
          · cases h
      · cases h
  | _ => cases h

theorem task_of_occasion {move : Move} {number version : Nat}
    (h : world.occasion move = .deadline number version) :
    ∃ task ∈ world.tasks, task.job = .closeDeadline number version ∧ task.due ≤ world.now := by
  cases move with
  | work index =>
      simp only [occasion] at h
      split at h
      · next task found =>
          split at h
          · next due =>
              refine ⟨task, List.mem_of_getElem? found, ?_, due⟩
              cases job : task.job <;> rw [job] at h <;> cases h
              rfl
          · cases h
      · cases h
  | answer index answer =>
      simp only [occasion] at h
      split at h <;> cases h
  | _ => cases h

end World

end ComponentPreview
