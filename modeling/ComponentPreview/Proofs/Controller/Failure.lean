import ComponentPreview.Proofs.Controller.Verdict
import Mathlib.Data.List.Induction

/-!
# Failures

A version fails once and for good, and what is told of its failure is told once. Its session has
then the phase of an error, unless the version failed by a refusal whose message is neither a text
nor a list: such a failure is recorded but not announced, and the phase is left as it was.
-/

namespace ComponentPreview

namespace Course

/-- The newest version has failed just when a failure is recorded, and it is the failure of that
version. -/
structure Coherent (course : Course) : Prop where
  failed_le : ∀ version ∈ course.failed, version ≤ course.version
  failed_of_errored : course.phase = .errored → course.version ∈ course.failed
  failure_isSome_iff : course.failure.isSome = true ↔ course.version ∈ course.failed
  version_of_failure : ∀ failure, course.failure = some failure → failure.version = course.version

end Course

namespace Notice

/-- The version of which a notice says that it has failed. -/
def errored? : Notice → Option Nat
  | changed .errored version _ _ => some version
  | _ => none

theorem filterMap_errored_news (notices : List Notice) :
    (notices.filter isNews).filterMap errored? = notices.filterMap errored? := by
  refine filterMap_news ?_ notices
  intro notice unnoticed
  cases notice <;> simp_all [errored?]

end Notice

namespace Effect

variable {before after : Course} {occasion : Occasion} {news : List Notice}

theorem coherent (effect : Effect before occasion news after) (coherent : before.Coherent) :
    after.Coherent := by
  cases effect with
  | request request metadata isOpen version_eq =>
      have unfailed : before.version + 1 ∉ before.failed :=
        fun failed => Nat.not_succ_le_self _ (coherent.failed_le _ failed)
      refine ⟨?_, ?_, ?_, ?_⟩
      · intro version failed
        exact Nat.le_succ_of_le (coherent.failed_le version failed)
      · exact Phase.noConfusion
      · simp [unfailed]
      · simp
  | ready message name timestamp metadata given heeds event rendering =>
      exact ⟨coherent.failed_le, Phase.noConfusion, coherent.failure_isSome_iff,
        coherent.version_of_failure⟩
  | fail kind message metadata suggestions isOpen unfailed blames =>
      refine ⟨?_, fun _ => List.mem_cons_self, ?_, ?_⟩
      · intro version failed
        rcases List.mem_cons.1 failed with rfl | failed
        · exact Nat.le_refl _
        · exact coherent.failed_le version failed
      · simp
      · rintro failure ⟨⟩
        rfl
  | accept body isShown deadline renderTime given welcome unlimited =>
      refine ⟨coherent.failed_le, ?_, coherent.failure_isSome_iff, coherent.version_of_failure⟩
      dsimp only
      split
      · exact Phase.noConfusion
      · exact coherent.failed_of_errored
  | quiet => exact coherent
  | close | disarm =>
      exact ⟨coherent.failed_le, coherent.failed_of_errored, coherent.failure_isSome_iff,
        coherent.version_of_failure⟩

/-- Either nothing is told of a failure and no version comes to have the phase of an error, or it is
told of the newest version, which had not failed before. -/
theorem errored_cases (effect : Effect before occasion news after) :
    (news.filterMap Notice.errored? = [] ∧
      (after.phase = .errored → before.phase = .errored ∧ after.version = before.version)) ∨
    (news.filterMap Notice.errored? = [before.version] ∧ before.version ∉ before.failed ∧
      after.phase = .errored ∧ after.version = before.version) := by
  cases effect with
  | request => exact .inl ⟨rfl, Phase.noConfusion⟩
  | ready => exact .inl ⟨rfl, Phase.noConfusion⟩
  | fail kind message metadata suggestions isOpen unfailed blames =>
      cases announced : Controller.isAnnounced message with
      | true => exact .inr ⟨rfl, unfailed, rfl, rfl⟩
      | false => exact .inl ⟨rfl, fun errored => ⟨errored, rfl⟩⟩
  | accept body isShown deadline renderTime given welcome unlimited =>
      refine .inl ⟨?_, ?_⟩
      · cases isShown <;> split <;> rfl
      · dsimp only
        split
        · exact Phase.noConfusion
        · exact fun errored => ⟨errored, rfl⟩
  | _ => exact .inl ⟨rfl, fun errored => ⟨errored, rfl⟩⟩

/-- Where the newest version has failed, either that is not new and the phase is the same, or it is
new, and unless it has the phase of an error an answer is to blame. -/
theorem newest_failed_cases (effect : Effect before occasion news after)
    (coherent : before.Coherent)
    (rested : before.phase.isResting = true → before.version ∉ before.failed)
    (failed : after.version ∈ after.failed) :
    (before.version ∈ before.failed ∧ after.version = before.version ∧
      after.phase = before.phase) ∨
    after.phase = .errored ∨
    (before.version ∉ before.failed ∧ before.isClosed = false ∧ after.version = before.version ∧
      ∃ answer, occasion = .answer before.version answer) := by
  cases effect with
  | request => exact absurd (coherent.failed_le _ failed) (Nat.not_succ_le_self _)
  | ready message name timestamp metadata given heeds event rendering =>
      exact absurd failed (rested (by rw [rendering]; rfl))
  | fail kind message metadata suggestions isOpen unfailed blames =>
      cases blames with
      | answer answer => exact .inr (.inr ⟨unfailed, isOpen, rfl, answer, rfl⟩)
      | error | deadline => exact .inr (.inl rfl)
  | accept body isShown deadline renderTime given welcome unlimited =>
      exact absurd failed welcome.hasNotFailed
  | _ => exact .inl ⟨failed, rfl, rfl⟩

theorem stays_unannounced (effect : Effect before occasion news after) {version : Nat}
    (failed : version ∈ before.failed)
    (unannounced : before.version = version → before.phase ≠ .errored)
    (newest : after.version = version) : after.phase ≠ .errored := by
  rcases effect.errored_cases with ⟨-, entered⟩ | ⟨-, unfailed, -, version_eq⟩
  · intro errored
    obtain ⟨errored_before, version_eq⟩ := entered errored
    exact unannounced (version_eq.symm.trans newest) errored_before
  · rw [version_eq.symm.trans newest] at unfailed
    exact absurd failed unfailed

end Effect

namespace Controller

/-- Whether an answer is a refusal that gives reasons but no message that can be announced. -/
def isMute : Answer → Bool
  | .ok (.obj fields) =>
      let body := Json.obj fields
      !(body.get "success").isTruthy && (elements? (body.get "suggestions")).isSome &&
        ((body.get "error").isTruthy && !isAnnounced (body.get "error"))
  | _ => false

variable (controller : Controller)

/-- Receiving an answer for the newest version makes it fail, with a message that can be announced
just when the answer is not mute, or neither is the answer mute nor has the version failed. -/
theorem receive_verdict {version : Nat} (current : controller.isCurrent version = true)
    (unfailed : version ∉ controller.failed) (answer : Answer) :
    (isMute answer = false ∧ version ∉ (controller.receive version answer).failed) ∨
    ∃ kind message suggestions,
      controller.receive version answer = controller.fail kind message version suggestions ∧
        isAnnounced message = !isMute answer := by
  match answer with
  | .error (.transport reason) =>
      exact .inr ⟨.transport, .str reason, [], by simp [receive, current], rfl⟩
  | .ok (.obj fields) =>
      obtain ⟨isOpen, newest⟩ := (controller.isCurrent_iff version).1 current
      by_cases success : (Json.get "success" (.obj fields)).isTruthy = true
      · refine .inl ⟨by simp [isMute, success], ?_⟩
        have welcome : controller.course.Welcomes version (.obj fields) :=
          ⟨isOpen, newest, unfailed, success⟩
        have failed_eq : (controller.accept version (.obj fields)).failed = controller.failed :=
          congrArg Course.failed (controller.course_accept version (.obj fields))
        rw [controller.receive_of_welcome welcome, failed_eq]
        exact unfailed
      · rw [controller.receive_refusal current unfailed success, reject]
        cases listed : elements? (Json.get "suggestions" (.obj fields)) with
        | none => exact .inl ⟨by simp [isMute, listed], unfailed⟩
        | some suggestions =>
            refine .inr ⟨_, _, suggestions, rfl, ?_⟩
            simp only [isMute, success, listed]
            split
            · next stated => simp [stated]
            · next silent => simp [silent, isAnnounced]
  | .error (.broken _) => exact .inl ⟨rfl, by simpa [receive] using unfailed⟩
  | .ok .null | .ok (.bool _) | .ok (.int _) | .ok (.num _) | .ok (.str _) | .ok (.arr _) =>
      exact .inl ⟨rfl, by simpa [receive] using unfailed⟩

end Controller

namespace Transition

/-- The newest version's answer arrives, a refusal whose message cannot be announced, and the
version has not failed before. -/
def FailsMutely (transition : Transition) (version : Nat) : Prop :=
  ∃ index answer request,
    transition.move = .answer index answer ∧
    transition.before.awaited[index]? = some request ∧
    request.version = version ∧
    version = transition.before.controller.version ∧
    transition.before.controller.isClosed = false ∧
    version ∉ transition.before.controller.failed ∧
    Controller.isMute answer = true

def errors (transition : Transition) : List Nat :=
  transition.notices.filterMap Notice.errored?

variable {transition : Transition} {version : Nat}

theorem errors_cases (sound : transition.before.Sound) :
    (transition.errors = [] ∧ (transition.after.controller.phase = .errored →
      transition.before.controller.phase = .errored ∧
        transition.after.controller.version = transition.before.controller.version)) ∨
    (transition.errors = [transition.before.controller.version] ∧
      transition.before.controller.version ∉ transition.before.controller.failed ∧
      transition.after.controller.phase = .errored ∧
      transition.after.controller.version = transition.before.controller.version) := by
  have cases := (World.effect_of_sound sound transition.move).errored_cases
  rw [Notice.filterMap_errored_news] at cases
  exact cases

theorem ready_cases (sound : transition.before.Sound)
    (ready : transition.after.controller.phase = .ready) :
    (transition.before.controller.phase = .ready ∧
      transition.after.controller.version = transition.before.controller.version) ∨
    (transition.before.controller.phase = .rendering ∧
      transition.HearsReady transition.after.controller.version) := by
  rcases (World.effect_of_sound sound transition.move).ready_cases ready with
    same | ⟨rendering, version_eq, message, name, timestamp, given, heeds, event⟩
  · exact .inl same
  · refine .inr ⟨rendering, message, name, timestamp, ?_, event⟩
    exact ⟨World.message_of_occasion given, heeds, version_eq.symm⟩

theorem failed_of_failsMutely (steady : transition.before.Steady)
    (mutely : transition.FailsMutely version) :
    version ∈ transition.after.controller.failed ∧
      transition.after.controller.phase = transition.before.controller.phase := by
  obtain ⟨world, move⟩ := transition
  obtain ⟨index, answer, request, rfl, found, rfl, newest, isOpen, unfailed, isMute⟩ := mutely
  dsimp only at *
  have current : world.controller.isCurrent request.version = true :=
    (world.controller.isCurrent_iff _).2 ⟨isOpen, newest⟩
  have course_eq := World.course_answer steady found answer
  rcases world.controller.receive_verdict current unfailed answer with
    ⟨spoken, -⟩ | ⟨kind, message, suggestions, fails, announced⟩
  · rw [isMute] at spoken
    cases spoken
  · rw [isMute] at announced
    rw [fails, Controller.course_fail _ unfailed, announced] at course_eq
    have failed_eq : (world.move (.answer index answer)).1.controller.failed =
        request.version :: world.controller.failed := congrArg Course.failed course_eq
    refine ⟨?_, congrArg Course.phase course_eq⟩
    rw [after, failed_eq]
    exact List.mem_cons_self

/-- Where the newest version has failed, that is not new, or it has the phase of an error, or it
fails mutely. -/
theorem newest_failed_cases (steady : transition.before.Steady)
    (coherent : transition.before.controller.course.Coherent)
    (failed : transition.after.controller.version ∈ transition.after.controller.failed) :
    (transition.before.controller.version ∈ transition.before.controller.failed ∧
      transition.after.controller.version = transition.before.controller.version ∧
      transition.after.controller.phase = transition.before.controller.phase) ∨
    transition.after.controller.phase = .errored ∨
    transition.FailsMutely transition.after.controller.version := by
  obtain ⟨world, move⟩ := transition
  dsimp only at *
  have effect := World.effect_of_sound steady.sound move
  rcases effect.newest_failed_cases coherent steady.resting_unfailed failed with
    old | errored | ⟨unfailed, isOpen, version_eq, answer, given⟩
  · exact .inl old
  · exact .inr (.inl errored)
  obtain ⟨index, request, rfl, found, newest⟩ := World.answer_of_occasion steady.sound given
  have newest : request.version = world.controller.version := newest
  have unfailed : request.version ∉ world.controller.failed := newest ▸ unfailed
  have version_eq : request.version = (world.move (.answer index answer)).1.controller.version :=
    newest.trans version_eq.symm
  have current : world.controller.isCurrent request.version = true :=
    (world.controller.isCurrent_iff _).2 ⟨isOpen, newest⟩
  have course_eq := World.course_answer steady found answer
  right
  rcases world.controller.receive_verdict current unfailed answer with
    ⟨-, still⟩ | ⟨kind, message, suggestions, fails, announced⟩
  · have failed_eq : (world.move (.answer index answer)).1.controller.failed =
        (world.controller.receive request.version answer).failed :=
      congrArg Course.failed course_eq
    rw [← failed_eq, version_eq] at still
    exact absurd failed still
  · cases isMute : Controller.isMute answer with
    | true =>
        exact .inr ⟨index, answer, request, rfl, found, version_eq, version_eq ▸ newest, isOpen,
          version_eq ▸ unfailed, isMute⟩
    | false =>
        rw [isMute] at announced
        rw [fails, Controller.course_fail _ unfailed, announced] at course_eq
        exact .inl (congrArg Course.phase course_eq)

end Transition

namespace World

variable {world : World} {version : Nat}

def errors (world : World) (moves : List Move) : List Nat :=
  (world.run moves).flatMap Transition.errors

theorem coherent_start (setup : Setup) : (start setup).controller.course.Coherent where
  failed_le := by simp [start, Setup.controller, Controller.course]
  failed_of_errored := by simp [start, Setup.controller, Controller.course]
  failure_isSome_iff := by simp [start, Setup.controller, Controller.course]
  version_of_failure := by simp [start, Setup.controller, Controller.course]

theorem coherent_run (setup : Setup) (moves : List Move) :
    ((start setup).afterAll moves).controller.course.Coherent ∧
      ∀ transition ∈ (start setup).run moves, transition.before.controller.course.Coherent := by
  have kept := invariant
    (motive := fun world => world.Sound ∧ world.controller.course.Coherent)
    (fun _ move h => ⟨sound_move h.1 move, (effect_of_sound h.1 move).coherent h.2⟩) moves
    ⟨sound_start setup, coherent_start setup⟩
  exact ⟨kept.1.2, fun transition mem => (kept.2 transition mem).2⟩

theorem errored_of_failed (setup : Setup) (moves : List Move)
    (failed : ((start setup).afterAll moves).controller.version ∈
      ((start setup).afterAll moves).controller.failed) :
    ((start setup).afterAll moves).controller.phase = .errored ∨
      ∃ transition ∈ (start setup).run moves,
        transition.FailsMutely ((start setup).afterAll moves).controller.version := by
  induction moves using List.reverseRecOn with
  | nil => cases failed
  | append_singleton moves move ih =>
      let last : Transition := ⟨(start setup).afterAll moves, move⟩
      have last_eq : (start setup).afterAll (moves ++ [move]) = last.after :=
        afterAll_concat moves move
      have run_eq : (start setup).run (moves ++ [move]) = (start setup).run moves ++ [last] :=
        run_concat moves move
      have steady : last.before.Steady := (steady_run setup moves).1
      have coherent : last.before.controller.course.Coherent := (coherent_run setup moves).1
      rw [last_eq] at failed
      rw [last_eq, run_eq]
      rcases Transition.newest_failed_cases steady coherent failed with
        ⟨old, version_eq, phase_eq⟩ | errored | mutely
      · rw [version_eq]
        refine (ih old).imp phase_eq.trans ?_
        rintro ⟨transition, mem, mutely⟩
        exact ⟨transition, List.mem_append_left _ mem, mutely⟩
      · exact .inl errored
      · exact .inr ⟨last, List.mem_append_right _ List.mem_cons_self, mutely⟩

theorem not_errored_of_failsMutely {setup : Setup} {moves : List Move} {transition : Transition}
    (mem : transition ∈ (start setup).run moves) (mutely : transition.FailsMutely version)
    (newest : ((start setup).afterAll moves).controller.version = version) :
    ((start setup).afterAll moves).controller.phase ≠ .errored := by
  have steady := (steady_run setup moves).2 transition mem
  have coherent := (coherent_run setup moves).2 transition mem
  obtain ⟨failed, phase_eq⟩ := Transition.failed_of_failsMutely steady mutely
  obtain ⟨index, answer, request, -, -, -, version_eq, -, unfailed, -⟩ := mutely
  have unannounced : transition.after.controller.phase ≠ .errored := by
    rw [phase_eq]
    intro errored
    rw [version_eq] at unfailed
    exact unfailed (coherent.failed_of_errored errored)
  obtain ⟨earlier, later, rfl, before_eq⟩ := exists_split_of_mem_run mem
  have last : (start setup).afterAll (earlier ++ transition.move :: later) =
      transition.after.afterAll later := by
    rw [afterAll_append, ← before_eq]
    rfl
  rw [last] at newest ⊢
  -- A failed version is never announced later, so both are kept together to the end of the run.
  refine (invariant (motive := fun world => world.Sound ∧ version ∈ world.controller.failed ∧
    (world.controller.version = version → world.controller.phase ≠ .errored)) ?_ later
    ⟨sound_move steady.sound _, failed, fun _ => unannounced⟩).1.2.2 newest
  rintro world move ⟨sound, failed, unannounced⟩
  have effect := effect_of_sound sound move
  exact ⟨sound_move sound move, effect.failed_subset failed,
    effect.stays_unannounced failed unannounced⟩

theorem pairwise_errors (sound : world.Sound) (coherent : world.controller.course.Coherent)
    (moves : List Move) :
    (world.errors moves).Pairwise (· < ·) ∧ ∀ version ∈ world.errors moves,
      world.controller.version ≤ version ∧ version ∉ world.controller.failed := by
  induction moves generalizing world with
  | nil => exact ⟨.nil, fun _ mem => nomatch mem⟩
  | cons move moves ih =>
      let first : Transition := ⟨world, move⟩
      have effect := effect_of_sound sound move
      obtain ⟨ascending, fresh⟩ := ih (sound_move sound move) (effect.coherent coherent)
      have unfolded : world.errors (move :: moves) =
          first.errors ++ (world.move move).1.errors moves := rfl
      have later : ∀ version ∈ (world.move move).1.errors moves,
          world.controller.version ≤ version ∧ version ∉ world.controller.failed := by
        intro version mem
        obtain ⟨version_le, unfailed⟩ := fresh version mem
        exact ⟨Nat.le_trans (version_le_move sound move) version_le,
          fun failed => unfailed (effect.failed_subset failed)⟩
      have sound_first : first.before.Sound := sound
      rw [unfolded]
      rcases Transition.errors_cases sound_first with ⟨none, -⟩ | ⟨one, unfailed, errored, same⟩
      · rw [none, List.nil_append]
        exact ⟨ascending, later⟩
      · have newest : world.controller.version = first.after.controller.version := same.symm
        have failed : first.after.controller.version ∈ first.after.controller.failed :=
          (effect.coherent coherent).failed_of_errored errored
        -- The version that fails now is no longer fresh, so that those after it are above it.
        have above : ∀ version ∈ (world.move move).1.errors moves,
            world.controller.version < version := by
          intro version mem
          obtain ⟨version_le, unfailed⟩ := fresh version mem
          refine Nat.lt_of_le_of_ne (later version mem).1 ?_
          rintro rfl
          exact unfailed (newest ▸ failed)
        rw [one, List.singleton_append]
        refine ⟨List.pairwise_cons.2 ⟨above, ascending⟩, ?_⟩
        intro version mem
        rcases List.mem_cons.1 mem with rfl | mem
        · exact ⟨Nat.le_refl _, unfailed⟩
        · exact later version mem

/-- A session has the phase of an error just when its newest version has failed, other than mutely;
then and only then a failure is recorded, that of the newest version. Each version gets the phase of
an error at most once, it becomes ready only while it is rendering and when its sandbox says so, and
once it has failed it neither renders nor becomes ready. -/
theorem failures_are_final (setup : Setup) (moves : List Move) :
    let run := (start setup).run moves
    let last := ((start setup).afterAll moves).controller
    (last.phase = .errored ↔ last.version ∈ last.failed ∧
      ∀ transition ∈ run, ¬transition.FailsMutely last.version) ∧
    (last.failure.isSome = true ↔ last.version ∈ last.failed) ∧
    (∀ failure, last.failure = some failure → failure.version = last.version) ∧
    (∀ transition ∈ run,
      (transition.after.controller.phase = .errored →
        transition.before.controller.phase = .errored ∧
            transition.after.controller.version = transition.before.controller.version ∨
          transition.errors = [transition.after.controller.version]) ∧
      (transition.after.controller.phase = .ready →
        transition.before.controller.phase = .ready ∧
            transition.after.controller.version = transition.before.controller.version ∨
          transition.before.controller.phase = .rendering ∧
            transition.HearsReady transition.after.controller.version)) ∧
    ((start setup).errors moves).Pairwise (· < ·) ∧
    ∀ earlier, earlier <+: moves → ∀ version ∈ ((start setup).afterAll earlier).controller.failed,
      last.version = version → last.phase ≠ .rendering ∧ last.phase ≠ .ready := by
  intro run last
  have coherent := (coherent_run setup moves).1
  have steady := (steady_run setup moves).1
  refine ⟨⟨?_, ?_⟩, coherent.failure_isSome_iff, coherent.version_of_failure, ?_,
    (pairwise_errors (sound_start setup) (coherent_start setup) moves).1, ?_⟩
  · intro errored
    refine ⟨coherent.failed_of_errored errored, ?_⟩
    intro transition mem mutely
    exact not_errored_of_failsMutely mem mutely rfl errored
  · rintro ⟨failed, announced⟩
    rcases errored_of_failed setup moves failed with errored | ⟨transition, mem, mutely⟩
    · exact errored
    · exact absurd mutely (announced transition mem)
  · intro transition mem
    have sound := ((steady_run setup moves).2 transition mem).sound
    refine ⟨?_, Transition.ready_cases sound⟩
    intro errored
    rcases Transition.errors_cases sound with ⟨-, old⟩ | ⟨one, -, -, same⟩
    · exact .inl (old errored)
    · exact .inr (by rw [one, same])
  · rintro earlier ⟨later, rfl⟩ version failed newest
    have failed_last := failed_run (steady_run setup earlier).1.sound failed later
    rw [← afterAll_append, ← newest] at failed_last
    have restless : last.phase.isResting ≠ true :=
      fun resting => steady.resting_unfailed resting failed_last
    constructor <;> intro phase_eq <;> exact restless (by rw [phase_eq]; rfl)

/-- A refusal by which a version fails and a failure is recorded, with the phase left as it was. -/
theorem mute_refusal_is_unannounced :
    ∃ (setup : Setup) (moves : List Move),
      let last := ((start setup).afterAll moves).controller
      last.isClosed = false ∧ last.version ∈ last.failed ∧ last.failure.isSome = true ∧
        last.phase = .requesting := by
  refine ⟨{ session := "s" }, firstRequest ++
    [.answer 0 (.ok (.obj [("success", .bool false), ("error", .int 5)]))], rfl, ?_, rfl, rfl⟩
  exact List.mem_cons_self

end World

end ComponentPreview
