import ComponentPreview.Proofs.Controller.Course
import ComponentPreview.Proofs.Controller.Run

/-!
# What one move can do

Whatever the order of moves, one of them changes the course of a session in one of seven ways:
nothing happens, a request starts, the sandbox is ready, a version fails, an answer is accepted,
the session is closed, or a deadline goes by that nobody waits for.
-/

namespace ComponentPreview

/-- What reaches a controller in a move: an answer, a message, the end of a deadline, or none of
these. -/
inductive Occasion
  | answer (version : Nat) (answer : Answer)
  | message (message : LifecycleMessage)
  | deadline (number version : Nat)
  | other

def Job.occasion : Job → Occasion
  | answer version _ result => .answer version result
  | closeDeadline number version => .deadline number version
  | _ => .other

/-- Why the newest version fails: its answer says so or does not come, its sandbox reports an error,
or its deadline passes while it is rendering. -/
inductive Course.Blames (course : Course) : Occasion → FailureKind → Json → Prop
  | answer (answer : Answer) (kind : FailureKind) (message : Json) :
      course.Blames (.answer course.version answer) kind message
  | error (message : LifecycleMessage) (error : RenderError) :
      course.Heeds message → message.event = .error error →
      course.Blames (.message message) .runtime (.str error.message)
  | deadline (number : Nat) :
      course.deadline = some number → course.phase = .rendering →
      course.Blames (.deadline number course.version) .runtime
        (.str (Controller.timeoutMessage course.renderTime))

/-- The news of a move and the course after it. -/
inductive Effect (before : Course) (occasion : Occasion) : List Notice → Course → Prop
  | quiet : Effect before occasion [] before
  | request (request : Request) (metadata : Json) :
      before.isClosed = false → request.version = before.version + 1 →
      Effect before occasion
        [.changed .requesting (before.version + 1) metadata none, .requested request]
        { before with
          version := before.version + 1
          phase := .requesting
          failure := none
          deadline := none }
  | ready (message : LifecycleMessage) (name timestamp : Option String) (metadata : Json) :
      occasion = .message message → before.Heeds message →
      message.event = .ready name timestamp → before.phase = .rendering →
      Effect before occasion [.changed .ready before.version metadata before.failure]
        { before with phase := .ready, deadline := none }
  | fail (kind : FailureKind) (message metadata : Json) (suggestions : List Json) :
      before.isClosed = false → before.version ∉ before.failed →
      before.Blames occasion kind message →
      Effect before occasion
        (if Controller.isAnnounced message then
          [.changed .errored before.version metadata
            (some ⟨kind, message, before.version, suggestions⟩)]
        else [])
        { before with
          failed := before.version :: before.failed
          deadline := none
          failure := some ⟨kind, message, before.version, suggestions⟩
          phase := if Controller.isAnnounced message then .errored else before.phase }
  | accept (body : Json) (isShown : Bool) (deadline : Option Nat) (renderTime : Milliseconds) :
      occasion = .answer before.version (.ok body) → before.Welcomes before.version body →
      (Controller.limitsOf? body = none → deadline = before.deadline) →
      Effect before occasion
        ((if (Controller.limitsOf? body).isSome then
            [.changed .rendering before.version (Controller.metadataOf body) before.failure]
          else []) ++
          if isShown then [.shown before.version (body.get "previewHTML")] else [])
        { before with
          document := body.get "previewHTML"
          phase := if (Controller.limitsOf? body).isSome then .rendering else before.phase
          renderTime
          deadline }
  | close :
      before.isClosed = false →
      Effect before occasion [.closed] { before with isClosed := true, deadline := none }
  | disarm : Effect before occasion [] { before with deadline := none }

/-- Whether the newest version has been accepted and not failed. -/
def Phase.isResting : Phase → Bool
  | rendering | ready => true
  | idle | requesting | errored => false

namespace Effect

variable {before after : Course} {occasion : Occasion} {news : List Notice}

theorem calledOff_eq (effect : Effect before occasion news after) :
    after.calledOff = before.calledOff := by
  cases effect <;> rfl

/-- A version that newly fails is the newest, and something is to blame. -/
theorem failed_cases (effect : Effect before occasion news after) :
    after.failed = before.failed ∨
    ∃ kind message, before.Blames occasion kind message ∧
      after.failed = before.version :: before.failed := by
  cases effect with
  | fail kind message metadata suggestions isOpen unfailed blames =>
      exact .inr ⟨kind, message, blames, rfl⟩
  | _ => exact .inl rfl

theorem failed_subset (effect : Effect before occasion news after) :
    before.failed ⊆ after.failed := by
  rcases effect.failed_cases with same | ⟨_, _, -, failed_eq⟩
  · rw [same]
    exact List.Subset.refl _
  · rw [failed_eq]
    exact List.subset_cons_self _ _

theorem failed_of_errored (effect : Effect before occasion news after) {version : Nat}
    {metadata : Json} {failure : Option Failure}
    (given : .changed .errored version metadata failure ∈ news) : version ∈ after.failed := by
  cases effect with
  | fail kind message metadata suggestions isOpen unfailed blames =>
      split at given
      · rw [List.mem_singleton] at given
        cases given
        exact List.mem_cons_self
      · cases given
  | accept body isShown deadline renderTime answered welcome unlimited =>
      rw [List.mem_append] at given
      rcases given with given | given <;> split at given <;> simp at given
  | _ => simp at given

/-- Only a version whose answer has been handed over comes to rest, and it has not failed. -/
theorem rests (isAnswered : Nat → Prop) (effect : Effect before occasion news after)
    (handed : ∀ answer, occasion = .answer before.version answer →
      before.phase.isResting = false ∧ isAnswered before.version)
    (rested : before.phase.isResting = true →
      isAnswered before.version ∧ before.version ∉ before.failed)
    (resting : after.phase.isResting = true) :
    isAnswered after.version ∧ after.version ∉ after.failed := by
  cases effect with
  | request => cases resting
  | ready message name timestamp metadata given heeds event rendering =>
      exact rested (by rw [rendering]; rfl)
  | fail kind message metadata suggestions isOpen unfailed blames =>
      dsimp only at resting
      split at resting
      · cases resting
      · next unannounced =>
          -- Only an answer can bring a message that cannot be announced.
          cases blames with
          | answer answer =>
              rw [(handed answer rfl).1] at resting
              cases resting
          | error | deadline => exact absurd rfl unannounced
  | accept body isShown deadline renderTime given welcome unlimited =>
      exact ⟨(handed _ given).2, welcome.hasNotFailed⟩
  | _ => exact rested resting

/-- Once its answer has been handed over, the newest version rests until it fails. -/
theorem stays_resting (effect : Effect before occasion news after)
    (handed : ∀ answer, occasion ≠ .answer before.version answer)
    (newest : after.version = before.version)
    (resting : before.phase.isResting = true ∨ before.version ∈ before.failed) :
    after.phase.isResting = true ∨ after.version ∈ after.failed := by
  cases effect with
  | request => exact absurd newest (Nat.succ_ne_self _)
  | ready => exact .inl rfl
  | fail => exact .inr List.mem_cons_self
  | accept body isShown deadline renderTime given => exact absurd given (handed _)
  | _ => exact resting

theorem stays_ready (effect : Effect before occasion news after)
    (handed : ∀ answer, occasion ≠ .answer before.version answer)
    (newest : after.version = before.version) (unfailed : before.version ∉ after.failed)
    (ready : before.phase = .ready) : after.phase = .ready := by
  cases effect with
  | request => exact absurd newest (Nat.succ_ne_self _)
  | ready => rfl
  | fail => exact absurd List.mem_cons_self unfailed
  | accept body isShown deadline renderTime given => exact absurd given (handed _)
  | _ => exact ready

theorem renderTime_eq (effect : Effect before occasion news after)
    (handed : ∀ answer, occasion ≠ .answer before.version answer) :
    after.renderTime = before.renderTime := by
  cases effect with
  | accept body isShown deadline renderTime given => exact absurd given (handed _)
  | _ => rfl

/-- The newest version becomes ready only when its sandbox says so while it is rendering. -/
theorem ready_cases (effect : Effect before occasion news after)
    (ready : after.phase = .ready) :
    (before.phase = .ready ∧ after.version = before.version) ∨
    (before.phase = .rendering ∧ after.version = before.version ∧
      ∃ message name timestamp, occasion = .message message ∧ before.Heeds message ∧
        message.event = .ready name timestamp) := by
  cases effect with
  | request => cases ready
  | ready message name timestamp metadata given heeds event rendering =>
      exact .inr ⟨rendering, rfl, message, name, timestamp, given, heeds, event⟩
  | fail =>
      dsimp only at ready
      split at ready
      · cases ready
      · exact .inl ⟨ready, rfl⟩
  | accept =>
      dsimp only at ready
      split at ready
      · cases ready
      · exact .inl ⟨ready, rfl⟩
  | _ => exact .inl ⟨ready, rfl⟩

theorem armed (effect : Effect before occasion news after)
    (old : before.deadline ≠ none → before.phase = .rendering)
    (armed : after.deadline ≠ none) : after.phase = .rendering := by
  cases effect with
  | accept body isShown deadline renderTime given welcome unlimited =>
      dsimp only
      cases limits : Controller.limitsOf? body with
      | none =>
          rw [unlimited limits] at armed
          exact old armed
      | some _ => rfl
  | quiet => exact old armed
  | _ => exact absurd rfl armed

end Effect

/-- Whether a controller without news came to an effect. -/
def Controller.Comes (before after : Controller) (occasion : Occasion) : Prop :=
  Effect before.course occasion after.news after.course

namespace Controller

variable {before after : Controller} {occasion : Occasion}

theorem Quiet.comes (quiet : Quiet before after) (h : before.news = []) :
    before.Comes after occasion := by
  rw [Comes, quiet.news_eq, quiet.course_eq, h]
  exact .quiet

theorem Comes.trans_quiet {last : Controller} (comes : before.Comes after occasion)
    (quiet : Quiet after last) : before.Comes last occasion := by
  rw [Comes, quiet.news_eq, quiet.course_eq]
  exact comes

theorem comes_request (h : before.news = []) (isOpen : before.isClosed = false) (asker : Asker) :
    before.Comes (before.request asker) occasion := by
  cases code : before.code with
  | none => exact (before.quiet_request asker code).comes h
  | some source =>
      rw [Comes, before.course_request asker code, before.news_request asker code, h]
      exact .request ⟨source, before.version + 1, before.requestOptions, asker⟩ before.metadata
        isOpen rfl

theorem comes_fail (h : before.news = []) (isOpen : before.isClosed = false) (kind : FailureKind)
    (message : Json) (suggestions : List Json)
    (blames : before.course.Blames occasion kind message) :
    before.Comes (before.fail kind message before.version suggestions) occasion := by
  by_cases failed : before.version ∈ before.failed
  · rw [fail_of_mem _ failed]
    exact (Quiet.refl before).comes h
  · rw [Comes, before.course_fail failed, before.news_fail failed, h]
    exact .fail kind message before.metadata suggestions isOpen failed blames

theorem comes_receive (h : before.news = []) (version : Nat) (answer : Answer) :
    before.Comes (before.receive version answer) (.answer version answer) := by
  rcases before.receive_cases version answer with
    ⟨body, rfl, welcome⟩ | same | ⟨isOpen, newest, -, kind, message, suggestions, failing⟩
  · rw [before.receive_of_welcome welcome]
    obtain rfl : version = before.version := welcome.isNewest
    rw [Comes, before.course_accept, before.news_accept, h]
    refine .accept body _ _ _ rfl welcome ?_
    intro none
    simp [isTimed, none, course]
  · rw [same]
    exact (Quiet.refl before).comes h
  · subst newest
    rw [failing]
    exact comes_fail h isOpen kind message suggestions (.answer answer kind message)

theorem comes_handle (h : before.news = []) (message : LifecycleMessage) :
    before.Comes (before.handle message) (.message message) := by
  rcases before.handle_cases message with
    same | ⟨name, timestamp, heeds, event, rendering, ready⟩ | ⟨error, heeds, event, fails⟩
  · rw [same]
    exact (Quiet.refl before).comes h
  · rw [ready, Comes, before.course_ready, before.news_ready, h]
    exact .ready message name timestamp before.metadata rfl heeds event rendering
  · have blames : before.course.Blames (.message message) .runtime (.str error.message) :=
      .error message error heeds event
    rw [fails]
    exact (comes_fail h heeds.isOpen _ _ _ blames).trans_quiet (quiet_seed _ _)

theorem comes_close (h : before.news = []) : before.Comes before.close occasion := by
  cases isClosed : before.isClosed with
  | true =>
      rw [before.close_of_closed isClosed]
      exact (Quiet.refl before).comes h
  | false =>
      rw [Comes, before.course_close isClosed, before.news_close isClosed, h]
      exact .close isClosed

theorem comes_refresh (h : before.news = []) (caller : String) :
    before.Comes (before.refresh caller) occasion := by
  rcases before.refresh_cases caller with ⟨-, returns⟩ | ⟨code, isOpen, -, -, requests⟩
  · rw [returns]
    exact ((Quiet.refl before).note rfl).comes h
  · have course_eq : before.callOffDebounce.course = before.course := by
      rw [callOffDebounce_eq]
      rfl
    have news : before.callOffDebounce.news = [] := by
      rw [callOffDebounce_eq]
      simpa [Controller.news, List.filter_append] using h
    have isOpen' : before.callOffDebounce.isClosed = false := by
      rw [callOffDebounce_eq]
      exact isOpen
    have comes : before.callOffDebounce.Comes (before.callOffDebounce.request (.caller caller))
        occasion := comes_request news isOpen' (.caller caller)
    rw [Comes, course_eq] at comes
    rw [requests]
    exact comes

theorem comes_closeDeadline (h : before.news = []) (number version : Nat) :
    before.Comes (before.closeDeadline number version) (.deadline number version) := by
  have disarmed : ∀ occasion, before.Comes { before with deadline := none } occasion := by
    intro occasion
    have same : Controller.news { before with deadline := none } = [] := h
    rw [Comes, same]
    exact .disarm
  rcases before.closeDeadline_cases number version with
    same | disarms | ⟨armed, isOpen, rfl, rendering, fails⟩
  · rw [same]
    exact (Quiet.refl before).comes h
  · rw [disarms]
    exact disarmed _
  · rw [fails]
    by_cases failed : before.version ∈ before.failed
    · rw [fail_of_mem { before with deadline := none } failed]
      exact disarmed _
    · rw [Comes, course_fail { before with deadline := none } failed,
        news_fail { before with deadline := none } failed]
      have same : Controller.news { before with deadline := none } = [] := h
      rw [same]
      have blames : before.course.Blames (.deadline number before.version) .runtime
          (.str (timeoutMessage before.renderTime)) := .deadline number armed rendering
      exact .fail .runtime _ before.metadata [] isOpen failed blames

theorem comes_perform (h : before.news = []) (job : Job) :
    before.Comes (before.perform job) job.occasion := by
  cases job with
  | openDebounce number => exact (before.quiet_openDebounce number).comes h
  | closeDebounce number => exact (before.quiet_closeDebounce number).comes h
  | request number =>
      simp only [perform]
      split
      case isTrue => exact (quiet_finish _ _ _).comes h
      case isFalse may =>
        simp only [Bool.or_eq_true, not_or, Bool.not_eq_true] at may
        exact comes_request h may.1 _
  | refresh caller => exact comes_refresh h caller
  | answer version asker answer =>
      simp only [perform]
      split
      · exact (quiet_endFor _ _ _).comes h
      · exact (comes_receive h version answer).trans_quiet (quiet_endFor _ _ _)
  | retire number => exact (Quiet.of_eq rfl rfl rfl rfl).comes h
  | openDeadline number version =>
      simp only [perform]
      rw [Comes, openDeadline_eq]
      have none : before.notices.filter Notice.isNews = [] := h
      have same : news { before with
          notices := before.notices ++
            if before.deadline = some number then
              [.hold before.renderTime.microseconds (.closeDeadline number version)]
            else [] } = [] := by
        dsimp only [news]
        rw [List.filter_append, none]
        split <;> rfl
      rw [same]
      exact .quiet
  | closeDeadline number version => exact comes_closeDeadline h number version
  | attend waiter => exact (before.quiet_attend waiter).comes h

theorem comes_edit (h : before.news = []) (code : String) :
    before.Comes (before.edit code) occasion := by
  cases isClosed : before.isClosed with
  | true =>
      rw [edit, if_pos isClosed]
      exact (Quiet.refl before).comes h
  | false =>
      rw [before.edit_eq isClosed]
      have news : (before.taking code).news = [] := by
        simpa [Controller.news, taking, List.filter_append] using h
      have comes : before.Comes (before.taking code) occasion := by
        rw [Comes, news]
        exact .quiet
      exact comes.trans_quiet ((Quiet.refl _).note rfl)

end Controller

namespace World

variable (world : World)

theorem controller_foldl_heed (notices : List Notice) :
    (notices.foldl heed world).controller = world.controller := by
  induction notices generalizing world with
  | nil => rfl
  | cons notice notices ih =>
      rw [List.foldl_cons, ih]
      cases notice <;> rfl

theorem now_foldl_heed (notices : List Notice) : (notices.foldl heed world).now = world.now := by
  induction notices generalizing world with
  | nil => rfl
  | cons notice notices ih =>
      rw [List.foldl_cons, ih]
      cases notice <;> rfl

theorem awaited_foldl_heed (notices : List Notice) :
    (notices.foldl heed world).awaited =
      world.awaited ++ notices.filterMap Notice.requested? := by
  induction notices generalizing world with
  | nil => simp
  | cons notice notices ih =>
      rw [List.foldl_cons, ih]
      cases notice <;> simp [heed, Notice.requested?, List.filterMap_cons]

variable {world}

def occasion (world : World) : Move → Occasion
  | .answer index answer =>
      match world.awaited[index]? with
      | some request => .answer request.version answer
      | none => .other
  | .message message => .message message
  | .work index =>
      match world.tasks[index]? with
      | some task => if task.due ≤ world.now then task.job.occasion else .other
      | none => .other
  | _ => .other

@[simp] theorem act_controller (action : Controller → Controller) :
    (world.act action).1.controller = { action world.controller with notices := [] } := by
  simp [act, Controller.flush, controller_foldl_heed]

@[simp] theorem act_now (action : Controller → Controller) :
    (world.act action).1.now = world.now := by
  simp [act, now_foldl_heed]

@[simp] theorem act_awaited (action : Controller → Controller) :
    (world.act action).1.awaited =
      world.awaited ++ (world.act action).2.filterMap Notice.requested? := by
  simp [act, Controller.flush, awaited_foldl_heed]

@[simp] theorem act_notices (action : Controller → Controller) :
    (world.act action).2 = (action world.controller).notices := rfl

theorem course_act (action : Controller → Controller) :
    (world.act action).1.controller.course = (action world.controller).course := by
  rw [act_controller]
  rfl

theorem effect_act (action : Controller → Controller) {occasion : Occasion}
    (comes : world.controller.Comes (action world.controller) occasion) :
    Effect world.controller.course occasion ((world.act action).2.filter Notice.isNews)
      (world.act action).1.controller.course := by
  rw [course_act, act_notices]
  exact comes

/-- Every move of a world without pending notices has one of the effects. -/
theorem effect_move (h : world.controller.notices = []) (move : Move) :
    Effect world.controller.course (world.occasion move)
      ((world.move move).2.filter Notice.isNews) (world.move move).1.controller.course := by
  have news : world.controller.news = [] := by simp [Controller.news, h]
  cases move with
  | pass span => exact .quiet
  | edit code => exact effect_act _ (Controller.comes_edit news code)
  | refresh caller =>
      exact effect_act _ (((Controller.Quiet.refl _).note rfl).comes news)
  | fullscreen => exact effect_act _ ((Controller.quiet_fullscreen _).comes news)
  | close => exact effect_act _ (Controller.comes_close news)
  | message message => exact effect_act _ (Controller.comes_handle news message)
  | await waiter poll =>
      exact effect_act _ (((Controller.quiet_await _ waiter poll).note rfl).comes news)
  | work index =>
      simp only [World.move, work, occasion]
      cases found : world.tasks[index]? with
      | none => exact .quiet
      | some task =>
          by_cases due : task.due ≤ world.now
          · simp only [due, if_true]
            exact @effect_act { world with tasks := world.tasks.eraseIdx index }
              (·.perform task.job) _ (Controller.comes_perform news task.job)
          · simp only [due, if_false]
            exact .quiet
  | answer index answer =>
      simp only [World.move, World.answer, occasion]
      cases found : world.awaited[index]? with
      | none => exact .quiet
      | some request =>
          exact @effect_act { world with awaited := world.awaited.eraseIdx index }
            (·.perform (.answer request.version request.asker answer)) _
            (Controller.comes_perform news (.answer request.version request.asker answer))

end World

end ComponentPreview
