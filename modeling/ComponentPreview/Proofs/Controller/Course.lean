import ComponentPreview.Controller.Step

/-!
# The course of a session

The course of a controller is what its versions have come to, without the bookkeeping of its jobs.
For each operation it is said here what becomes of the course and which news the operation gives:
the notices that tell of a change, a request, a document on show or the end. Most operations leave
the course alone and give no news.
-/

namespace ComponentPreview

structure Course where
  session : String
  version : Nat
  phase : Phase
  document : Json
  failure : Option Failure
  failed : List Nat
  isClosed : Bool
  deadline : Option Nat
  renderTime : Milliseconds
  calledOff : List Nat

namespace Course

variable (course : Course)

/-- Whether the body of an answer is a success that counts. -/
structure Welcomes (version : Nat) (body : Json) : Prop where
  isOpen : course.isClosed = false
  isNewest : version = course.version
  hasNotFailed : version ∉ course.failed
  isSuccess : (body.get "success").isTruthy = true

/-- Whether a message counts: it is for this session and for the newest version, or for none. -/
structure Heeds (message : LifecycleMessage) : Prop where
  isOpen : course.isClosed = false
  session_eq : message.session = course.session
  version_eq : ∀ version, message.version = some version → version = (course.version : Int)

end Course

/-- Whether a job can neither set a deadline nor take an answer. -/
def Job.isPlain : Job → Bool
  | openDeadline .. | closeDeadline .. | answer .. => false
  | _ => true

namespace Notice

/-- Whether a notice tells more than which jobs are to be done. -/
@[simp] def isNews : Notice → Bool
  | changed .. | requested _ | shown .. | closed => true
  | post _ | hold .. | hurry _ | fullscreen | returned .. | settled .. | gaveUp .. => false

def requested? : Notice → Option Request
  | requested request => some request
  | _ => none

def shown? : Notice → Option (Nat × Json)
  | shown version document => some (version, document)
  | _ => none

/-- Whether a notice is about jobs and waiters alone and hurries nothing, so that it says nothing of
deadlines. -/
def isPlain : Notice → Bool
  | post job => job.isPlain
  | hold _ job => job.isPlain
  | returned .. | settled .. | gaveUp .. | fullscreen => true
  | _ => false

theorem isNews_of_isPlain {notice : Notice} (h : notice.isPlain = true) :
    notice.isNews = false := by
  cases notice <;> simp_all [isPlain, isNews]

end Notice

namespace Controller

def course (controller : Controller) : Course where
  session := controller.session
  version := controller.version
  phase := controller.phase
  document := controller.document
  failure := controller.failure
  failed := controller.failed
  isClosed := controller.isClosed
  deadline := controller.deadline
  renderTime := controller.renderTime
  calledOff := controller.calledOff

def news (controller : Controller) : List Notice :=
  controller.notices.filter Notice.isNews

/-- An operation that leaves the course alone, starts no debounce and gives only plain notices. -/
structure Quiet (before after : Controller) : Prop where
  course_eq : after.course = before.course
  adds : ∃ notices, after.notices = before.notices ++ notices ∧ ∀ notice ∈ notices, notice.isPlain
  nextJob_le : before.nextJob ≤ after.nextJob
  debounce_eq : ∀ number, after.debounce = some number → before.debounce = some number

namespace Quiet

variable {first second third : Controller}

theorem refl (controller : Controller) : Quiet controller controller :=
  ⟨rfl, ⟨[], by simp⟩, Nat.le_refl _, fun _ h => h⟩

theorem trans (left : Quiet first second) (right : Quiet second third) : Quiet first third where
  course_eq := right.course_eq.trans left.course_eq
  adds := by
    obtain ⟨earlier, earlier_eq, plain⟩ := left.adds
    obtain ⟨later, later_eq, plain'⟩ := right.adds
    refine ⟨earlier ++ later, by rw [later_eq, earlier_eq, List.append_assoc], ?_⟩
    intro notice h
    exact (List.mem_append.1 h).elim (plain notice) (plain' notice)
  nextJob_le := Nat.le_trans left.nextJob_le right.nextJob_le
  debounce_eq := fun number h => left.debounce_eq number (right.debounce_eq number h)

theorem of_eq (course_eq : second.course = first.course)
    (notices_eq : second.notices = first.notices)
    (nextJob_eq : second.nextJob = first.nextJob) (debounce_eq : second.debounce = first.debounce) :
    Quiet first second :=
  ⟨course_eq, ⟨[], by simp [notices_eq]⟩, Nat.le_of_eq nextJob_eq.symm,
    fun _ h => debounce_eq ▸ h⟩

theorem note (quiet : Quiet first second) {notice : Notice} (h : notice.isPlain = true) :
    Quiet first (second.note notice) := by
  refine quiet.trans ⟨rfl, ⟨[notice], rfl, by simpa using h⟩, Nat.le_refl _, fun _ h => h⟩

theorem news_eq (quiet : Quiet first second) : second.news = first.news := by
  obtain ⟨notices, eq, plain⟩ := quiet.adds
  have none : notices.filter Notice.isNews = [] := by
    rw [List.filter_eq_nil_iff]
    intro notice h
    rw [Notice.isNews_of_isPlain (plain notice h)]
    exact Bool.false_ne_true
  rw [news, news, eq, List.filter_append, none, List.append_nil]

end Quiet

variable (controller : Controller)

/-! ## Notices -/

theorem callOff_eq (number : Option Nat) :
    controller.callOff number =
      { controller with notices := controller.notices ++ (number.map Notice.hurry).toList } := by
  cases number <;> simp [callOff, note]

theorem callOffDebounce_eq :
    controller.callOffDebounce =
      { controller with
        debounce := none
        notices := controller.notices ++ (controller.debounce.map Notice.hurry).toList } := by
  rw [callOffDebounce, callOff_eq]

theorem callOffDeadline_eq :
    controller.callOffDeadline =
      { controller with
        deadline := none
        notices := controller.notices ++ (controller.deadline.map Notice.hurry).toList } := by
  rw [callOffDeadline, callOff_eq]

@[simp] theorem filter_hurry (number : Option Nat) :
    (number.map Notice.hurry).toList.filter Notice.isNews = [] := by
  cases number <;> rfl

/-! ## Ends and beginnings of jobs -/

theorem quiet_foldl_attend (waiters : List Waiter) :
    Quiet controller (waiters.foldl
      (fun controller waiter => controller.note (.post (.attend waiter.name))) controller) := by
  induction waiters generalizing controller with
  | nil => exact .refl _
  | cons waiter waiters ih => exact ((Quiet.refl controller).note rfl).trans (ih _)

theorem quiet_finish (number : Nat) (breakdown : Option Breakdown) :
    Quiet controller (controller.finish number breakdown) := by
  unfold finish
  refine Quiet.trans ?_ (quiet_foldl_attend _ _)
  split
  · refine Quiet.note ?_ rfl
    exact .of_eq rfl rfl rfl rfl
  · exact .of_eq rfl rfl rfl rfl

theorem quiet_endFor (breakdown : Option Breakdown) (asker : Asker) :
    Quiet controller (controller.endFor breakdown asker) := by
  cases asker with
  | job number => exact controller.quiet_finish number breakdown
  | caller name => exact (Quiet.refl controller).note rfl

theorem quiet_spawn : Quiet controller controller.spawn := by
  refine Quiet.note ?_ rfl
  exact ⟨rfl, ⟨[], by simp⟩, Nat.le_succ _, fun _ h => h⟩

/-! ## Requests -/

theorem request_eq (asker : Asker) {code : String} (h : controller.code = some code) :
    controller.request asker =
      { controller with
        version := controller.version + 1
        phase := .requesting
        failure := none
        deadline := none
        notices := controller.notices ++ (controller.deadline.map Notice.hurry).toList ++
          [.changed .requesting (controller.version + 1) controller.metadata none,
            .requested ⟨code, controller.version + 1, controller.requestOptions, asker⟩] } := by
  simp [request, h, callOffDeadline_eq, enter, note, requestOptions]

theorem course_request (asker : Asker) {code : String} (h : controller.code = some code) :
    (controller.request asker).course =
      { controller.course with
        version := controller.version + 1
        phase := .requesting
        failure := none
        deadline := none } := by
  rw [controller.request_eq asker h]
  rfl

theorem news_request (asker : Asker) {code : String} (h : controller.code = some code) :
    (controller.request asker).news = controller.news ++
      [.changed .requesting (controller.version + 1) controller.metadata none,
        .requested ⟨code, controller.version + 1, controller.requestOptions, asker⟩] := by
  simp [controller.request_eq asker h, news, List.filter_append]

theorem quiet_request (asker : Asker) (h : controller.code = none) :
    Quiet controller (controller.request asker) := by
  rw [request, h]
  exact controller.quiet_endFor none asker

/-! ## Answers -/

theorem fail_of_mem {version : Nat} (h : version ∈ controller.failed) (kind : FailureKind)
    (message : Json) (suggestions : List Json) :
    controller.fail kind message version suggestions = controller := by
  simp [fail, h]

theorem fail_eq {version : Nat} (h : version ∉ controller.failed) (kind : FailureKind)
    (message : Json) (suggestions : List Json) :
    controller.fail kind message version suggestions =
      { controller with
        failed := version :: controller.failed
        deadline := none
        failure := some ⟨kind, message, version, suggestions⟩
        phase := if isAnnounced message then .errored else controller.phase
        notices := controller.notices ++ (controller.deadline.map Notice.hurry).toList ++
          if isAnnounced message then
            [.changed .errored controller.version controller.metadata
              (some ⟨kind, message, version, suggestions⟩)]
          else [] } := by
  by_cases announced : isAnnounced message <;>
    simp [fail, h, announced, callOffDeadline_eq, enter, note]

theorem course_fail {version : Nat} (h : version ∉ controller.failed) (kind : FailureKind)
    (message : Json) (suggestions : List Json) :
    (controller.fail kind message version suggestions).course =
      { controller.course with
        failed := version :: controller.failed
        deadline := none
        failure := some ⟨kind, message, version, suggestions⟩
        phase := if isAnnounced message then .errored else controller.phase } := by
  rw [controller.fail_eq h]
  rfl

theorem news_fail {version : Nat} (h : version ∉ controller.failed) (kind : FailureKind)
    (message : Json) (suggestions : List Json) :
    (controller.fail kind message version suggestions).news = controller.news ++
      if isAnnounced message then
        [.changed .errored controller.version controller.metadata
          (some ⟨kind, message, version, suggestions⟩)]
      else [] := by
  by_cases announced : isAnnounced message <;>
    simp [controller.fail_eq h, announced, news, List.filter_append]

/-- The limits that the body of a success holds; none if it does not have the shape of one. -/
def limitsOf? (body : Json) : Option Json :=
  (fieldsOf? (metadataOf body)).bind fun fields => fieldsOf? (fields.get "limits")

def renderTimeFrom (body : Json) : Milliseconds :=
  match limitsOf? body with
  | some limits => (controller.adoptLimits limits).renderTime
  | none => controller.renderTime

def isTimed (body : Json) : Bool :=
  (limitsOf? body).isSome && (controller.objection (metadataOf body)).isNone

theorem display_eq (version : Nat) :
    controller.display version =
      { controller with
        phase := .rendering
        nextJob := controller.nextJob + 1
        deadline := some controller.nextJob
        notices := controller.notices ++
          [.changed .rendering controller.version controller.metadata controller.failure] ++
          (if controller.document.isNull then [] else [.shown version controller.document]) ++
          [.post (.openDeadline controller.nextJob version)] } := by
  cases isNull : controller.document.isNull <;> simp [display, enter, note, isNull]

/-- Takes over the document of a body, its metadata and its limits. -/
def takeOver (body limits : Json) : Controller :=
  { controller with
    document := body.get "previewHTML"
    metadata := metadataOf body }.adoptLimits limits

theorem accept_eq (version : Nat) (body : Json) :
    controller.accept version body =
      match limitsOf? body with
      | none =>
          { controller with document := body.get "previewHTML", metadata := metadataOf body }
      | some limits =>
          if (controller.objection (metadataOf body)).isSome then
            (controller.takeOver body limits).enter .rendering
          else (controller.takeOver body limits).display version := rfl

theorem course_accept (version : Nat) (body : Json) :
    (controller.accept version body).course =
      { controller.course with
        document := body.get "previewHTML"
        phase := if (limitsOf? body).isSome then .rendering else controller.phase
        renderTime := controller.renderTimeFrom body
        deadline := if controller.isTimed body then some controller.nextJob
          else controller.deadline } := by
  rw [accept_eq]
  cases limits : limitsOf? body with
  | none => simp [course, renderTimeFrom, isTimed, limits]
  | some limits =>
      cases objection : controller.objection (metadataOf body) with
      | some breakdown =>
          simp [course, takeOver, adoptLimits, renderTimeFrom, isTimed, limits, objection, enter,
            note]
      | none =>
          simp [course, takeOver, adoptLimits, renderTimeFrom, isTimed, limits, objection,
            display_eq]

theorem news_accept (version : Nat) (body : Json) :
    (controller.accept version body).news = controller.news ++
      (if (limitsOf? body).isSome then
        [.changed .rendering controller.version (metadataOf body) controller.failure] else []) ++
      (if controller.isTimed body && !(body.get "previewHTML").isNull then
        [.shown version (body.get "previewHTML")] else []) := by
  rw [accept_eq]
  cases limits : limitsOf? body with
  | none => simp [news, isTimed, limits]
  | some limits =>
      cases objection : controller.objection (metadataOf body) with
      | some breakdown =>
          simp [news, takeOver, adoptLimits, isTimed, limits, objection, enter, note,
            List.filter_append]
      | none =>
          cases isNull : (body.get "previewHTML").isNull <;>
            simp [news, takeOver, adoptLimits, isTimed, limits, objection, display_eq, isNull,
              List.filter_append, List.filter_cons]

theorem isCurrent_iff (version : Nat) :
    controller.isCurrent version = true ↔
      controller.isClosed = false ∧ version = controller.version := by
  simp [isCurrent]

theorem receive_of_welcome {version : Nat} {body : Json}
    (h : controller.course.Welcomes version body) :
    controller.receive version (.ok body) = controller.accept version body := by
  have current := (controller.isCurrent_iff version).2 ⟨h.isOpen, h.isNewest⟩
  have success := h.isSuccess
  have unfailed : version ∉ controller.failed := h.hasNotFailed
  match body with
  | .obj fields => simp [receive, current, unfailed, success]
  | .null | .bool _ | .int _ | .num _ | .str _ | .arr _ => simp [Json.get, Json.isTruthy] at success

theorem reject_cases (version : Nat) (body : Json) :
    controller.reject version body = controller ∨
      ∃ kind message suggestions,
        controller.reject version body = controller.fail kind message version suggestions := by
  simp only [reject]
  split
  · exact .inr ⟨_, _, _, rfl⟩
  · exact .inl rfl

theorem receive_refusal {version : Nat} {fields : List (String × Json)}
    (current : controller.isCurrent version = true) (unfailed : version ∉ controller.failed)
    (refused : ¬(Json.get "success" (.obj fields)).isTruthy = true) :
    controller.receive version (.ok (.obj fields)) = controller.reject version (.obj fields) := by
  simp [receive, current, unfailed, refused]

/-- Receiving an answer comes to a success that counts, to nothing, or to the first failure of the
newest version. -/
theorem receive_cases (version : Nat) (answer : Answer) :
    (∃ body, answer = .ok body ∧ controller.course.Welcomes version body) ∨
    controller.receive version answer = controller ∨
    (controller.isClosed = false ∧ version = controller.version ∧ version ∉ controller.failed ∧
      ∃ kind message suggestions, controller.receive version answer =
        controller.fail kind message version suggestions) := by
  by_cases current : controller.isCurrent version = true
  case neg => exact .inr (.inl (by simp [receive, current]))
  obtain ⟨isOpen, newest⟩ := (controller.isCurrent_iff version).1 current
  by_cases failed : version ∈ controller.failed
  · refine .inr (.inl ?_)
    match answer with
    | .error (.transport reason) => simp [receive, fail, failed]
    | .error (.broken _) => simp [receive]
    | .ok (.obj fields) => simp [receive, failed]
    | .ok .null | .ok (.bool _) | .ok (.int _) | .ok (.num _) | .ok (.str _) | .ok (.arr _) =>
        simp [receive]
  · match answer with
    | .error (.transport reason) =>
        exact .inr (.inr ⟨isOpen, newest, failed, .transport, .str reason, [],
          by simp [receive, current]⟩)
    | .ok (.obj fields) =>
        by_cases success : (Json.get "success" (.obj fields)).isTruthy = true
        · exact .inl ⟨_, rfl, isOpen, newest, failed, success⟩
        · rw [receive_refusal _ current failed success]
          exact .inr ((controller.reject_cases version (.obj fields)).imp_right fun rejected =>
            ⟨isOpen, newest, failed, rejected⟩)
    | .error (.broken _) => exact .inr (.inl (by simp [receive]))
    | .ok .null | .ok (.bool _) | .ok (.int _) | .ok (.num _) | .ok (.str _) | .ok (.arr _) =>
        exact .inr (.inl (by simp [receive]))

/-! ## What comes from outside -/

def taking (code : String) : Controller :=
  { controller with
    code := some code
    nextJob := controller.nextJob + 1
    debounce := some controller.nextJob
    unfinished := controller.unfinished ++ [controller.nextJob]
    notices := controller.notices ++ (controller.debounce.map Notice.hurry).toList }

theorem edit_eq (h : controller.isClosed = false) (code : String) :
    controller.edit code =
      (controller.taking code).note (.post (.openDebounce controller.nextJob)) := by
  rw [edit, if_neg (by simp [h]), callOffDebounce_eq]
  rfl

theorem quiet_fullscreen : Quiet controller controller.fullscreen := by
  unfold fullscreen
  split
  · exact .refl _
  · refine Quiet.note ?_ rfl
    exact .of_eq rfl rfl rfl rfl

theorem quiet_await (waiter : String) (poll : Int) :
    Quiet controller (controller.await waiter poll) :=
  .of_eq rfl rfl rfl rfl

theorem seed_cases (message : String) :
    controller.seed message = controller ∨ ∃ name,
      controller.seed message =
        { controller with seeded := controller.seeded ++ [name] }.spawn := by
  unfold seed
  split
  case h_1 => exact .inl rfl
  case h_2 name _ =>
    split
    case isTrue => exact .inl rfl
    case isFalse => exact .inr ⟨name, rfl⟩

theorem quiet_seed (message : String) : Quiet controller (controller.seed message) := by
  rcases controller.seed_cases message with same | ⟨name, seeds⟩
  · rw [same]
    exact .refl _
  · rw [seeds]
    refine Quiet.trans ?_ (quiet_spawn _)
    exact .of_eq rfl rfl rfl rfl

theorem handle_of_not_heeds {message : LifecycleMessage} (h : ¬controller.course.Heeds message) :
    controller.handle message = controller := by
  unfold handle
  refine if_pos ?_
  cases isClosed : controller.isClosed with
  | true => simp
  | false =>
      by_cases own : message.session = controller.session
      · cases named : message.version with
        | none => exact absurd ⟨isClosed, own, by simp [named]⟩ h
        | some version =>
            have stale : version ≠ (controller.version : Int) := by
              rintro rfl
              exact h ⟨isClosed, own, by simp [named, course]⟩
            simp [stale]
      · simp [own]

theorem handle_of_heeds {message : LifecycleMessage} (h : controller.course.Heeds message) :
    controller.handle message =
      match message.event with
      | .ready _ _ =>
          if controller.phase = .rendering then controller.callOffDeadline.enter .ready
          else controller
      | .error error =>
          if controller.phase = .idle then controller
          else
            (controller.fail .runtime (.str error.message) controller.version []).seed
              error.message := by
  unfold handle
  refine if_neg ?_
  have isOpen : controller.isClosed = false := h.isOpen
  have own : message.session = controller.session := h.session_eq
  cases named : message.version with
  | none => simp [isOpen, own]
  | some version =>
      have newest : version = (controller.version : Int) := h.version_eq version named
      simp [isOpen, own, newest]

/-- What a message can do: nothing, set the page ready, or fail it and have it seeded. -/
theorem handle_cases (message : LifecycleMessage) :
    controller.handle message = controller ∨
      (∃ name timestamp, controller.course.Heeds message ∧ message.event = .ready name timestamp ∧
        controller.phase = .rendering ∧
        controller.handle message = controller.callOffDeadline.enter .ready) ∨
      ∃ error, controller.course.Heeds message ∧ message.event = .error error ∧
        controller.handle message =
          (controller.fail .runtime (.str error.message) controller.version []).seed
            error.message := by
  by_cases heeds : controller.course.Heeds message
  case neg => exact .inl (controller.handle_of_not_heeds heeds)
  rw [controller.handle_of_heeds heeds]
  cases message.event with
  | ready name timestamp =>
      dsimp only
      split
      case isTrue rendering => exact .inr (.inl ⟨name, timestamp, heeds, rfl, rendering, rfl⟩)
      case isFalse => exact .inl rfl
  | error error =>
      dsimp only
      split
      case isTrue => exact .inl rfl
      case isFalse => exact .inr (.inr ⟨error, heeds, rfl, rfl⟩)

/-- A refresh returns at once, or it requests the source and calls the debounce off. -/
theorem refresh_cases (caller : String) :
    (controller.isClosed = true ∨ controller.code = none) ∧
        controller.refresh caller = controller.note (.returned caller none) ∨
      ∃ code, controller.isClosed = false ∧ controller.code = some code ∧
        controller.callOffDebounce.code = some code ∧
        controller.refresh caller = controller.callOffDebounce.request (.caller caller) := by
  unfold refresh
  split
  case isTrue idle =>
    rw [Bool.or_eq_true, Option.isNone_iff_eq_none] at idle
    exact .inl ⟨idle, rfl⟩
  case isFalse may =>
    simp only [Bool.or_eq_true, not_or, Bool.not_eq_true, Option.isNone_eq_false_iff,
      Option.isSome_iff_exists] at may
    obtain ⟨isOpen, code, found⟩ := may
    have kept : controller.callOffDebounce.code = controller.code := by rw [callOffDebounce_eq]
    exact .inr ⟨code, isOpen, found, kept.trans found, rfl⟩

/-- The job of a request just ends, or it makes the request. -/
theorem perform_request_cases (number : Nat) :
    (controller.isClosed = true ∨ controller.isCalledOff (.job number) = true ∨
          controller.code = none) ∧
        controller.perform (.request number) = controller.finish number ∨
      ∃ code, controller.isClosed = false ∧ controller.code = some code ∧
        controller.perform (.request number) = controller.request (.job number) := by
  rw [perform]
  split
  case isTrue idle =>
    rw [Bool.or_eq_true] at idle
    exact .inl ⟨idle.imp_right .inl, rfl⟩
  case isFalse may =>
    simp only [Bool.or_eq_true, not_or, Bool.not_eq_true] at may
    cases code : controller.code with
    | none =>
        have ends : controller.request (.job number) = controller.finish number := by
          rw [request, code]
          rfl
        exact .inl ⟨.inr (.inr rfl), ends⟩
    | some source => exact .inr ⟨source, may.1, rfl, rfl⟩

/-- What the end of a deadline can do: nothing, disarm it, or fail the version that renders too. -/
theorem closeDeadline_cases (number version : Nat) :
    controller.closeDeadline number version = controller ∨
      controller.closeDeadline number version = { controller with deadline := none } ∨
      controller.deadline = some number ∧ controller.isClosed = false ∧
        version = controller.version ∧ controller.phase = .rendering ∧
        controller.closeDeadline number version =
          fail { controller with deadline := none } .runtime
            (.str (timeoutMessage controller.renderTime)) version [] := by
  unfold closeDeadline
  split
  case isFalse => exact .inl rfl
  case isTrue armed =>
    dsimp only
    split
    case isFalse => exact .inr (.inl rfl)
    case isTrue due =>
      rw [Bool.and_eq_true, beq_iff_eq, isCurrent_iff] at due
      obtain ⟨⟨isOpen, newest⟩, rendering⟩ := due
      exact .inr (.inr ⟨armed, isOpen, newest, rendering, rfl⟩)

theorem ready_eq :
    controller.callOffDeadline.enter .ready =
      { controller with
        phase := .ready
        deadline := none
        notices := controller.notices ++ (controller.deadline.map Notice.hurry).toList ++
          [.changed .ready controller.version controller.metadata controller.failure] } := by
  simp [callOffDeadline_eq, enter, note]

theorem course_ready :
    (controller.callOffDeadline.enter .ready).course =
      { controller.course with phase := .ready, deadline := none } := by
  rw [ready_eq]
  rfl

theorem news_ready :
    (controller.callOffDeadline.enter .ready).news = controller.news ++
      [.changed .ready controller.version controller.metadata controller.failure] := by
  simp [ready_eq, news, List.filter_append]

theorem close_of_closed (h : controller.isClosed = true) : controller.close = controller := by
  simp [close, h]

theorem foldl_hurry_eq (numbers : List Nat) :
    numbers.foldl (fun controller number => controller.note (.hurry number)) controller =
      { controller with notices := controller.notices ++ numbers.map Notice.hurry } := by
  induction numbers generalizing controller with
  | nil => simp
  | cons number numbers ih =>
      rw [List.foldl_cons, ih]
      simp [note]

theorem close_eq (h : controller.isClosed = false) :
    controller.close =
      { controller with
        isClosed := true
        debounce := none
        deadline := none
        notices := controller.notices ++ (controller.debounce.map Notice.hurry).toList ++
          (controller.deadline.map Notice.hurry).toList ++ controller.inflight.map Notice.hurry ++
          [.closed] } := by
  unfold close
  rw [if_neg (by simp [h]), callOffDebounce_eq, callOffDeadline_eq]
  dsimp only
  rw [foldl_hurry_eq]
  rfl

theorem filter_map_hurry (numbers : List Nat) :
    (numbers.map Notice.hurry).filter Notice.isNews = [] := by
  simp [List.filter_eq_nil_iff]

theorem course_close (h : controller.isClosed = false) :
    controller.close.course = { controller.course with isClosed := true, deadline := none } := by
  rw [close_eq _ h]
  rfl

theorem news_close (h : controller.isClosed = false) :
    controller.close.news = controller.news ++ [.closed] := by
  simp [close_eq _ h, news, List.filter_append, filter_map_hurry, List.filter_cons]

/-! ## Waiting -/

/-- What a controller has to tell when it attends to a waiter. -/
inductive Attends (controller : Controller) : List Notice → Prop
  | nothing : Attends controller []
  | later (waiter : String) (poll : Int) : Attends controller [.hold poll (.attend waiter)]
  | gaveUp (waiter : String) (breakdown : Breakdown) :
      Attends controller [.gaveUp waiter breakdown]
  | settled (waiter : String) :
      (controller.isClosed = false → controller.pending = [] ∧ controller.hasVerdict = true) →
      Attends controller [.settled waiter controller.phase]

theorem suspend_cases (waiter : Waiter) :
    ∃ waiters told, controller.Attends told ∧ controller.suspend waiter =
      { controller with waiters, notices := controller.notices ++ told } := by
  let set := controller.setWaiter { waiter with watched := controller.pending }
  have waits : set = { controller with
      waiters := set.waiters, notices := controller.notices ++ [] } := by
    rw [List.append_nil]
    rfl
  unfold suspend
  dsimp only
  split
  case isTrue => exact ⟨set.waiters, [], .nothing, waits⟩
  case isFalse none =>
    have idle : controller.pending = [] := by simpa using none
    split
    case isTrue verdict =>
      exact ⟨(set.settle waiter).waiters, _, .settled waiter.name fun _ => ⟨idle, verdict⟩, rfl⟩
    case isFalse => exact ⟨set.waiters, _, .later waiter.name waiter.poll, rfl⟩

/-- Attending to a waiter changes nothing but who waits, and tells at most one thing. -/
theorem attend_cases (name : String) :
    ∃ waiters told, controller.Attends told ∧ controller.attend name =
      { controller with waiters, notices := controller.notices ++ told } := by
  have same : controller = { controller with notices := controller.notices ++ [] } := by
    rw [List.append_nil]
  unfold attend
  split
  case h_1 => exact ⟨controller.waiters, [], .nothing, same⟩
  case h_2 waiter _ =>
    split
    case h_1 breakdown _ =>
      exact ⟨(controller.giveUp waiter breakdown).waiters, _, .gaveUp waiter.name breakdown, rfl⟩
    case h_2 =>
      dsimp only
      split
      case isTrue ended =>
        refine ⟨(controller.settle waiter).waiters, _, .settled waiter.name fun isOpen => ?_, rfl⟩
        simp [isOpen] at ended
      case isFalse =>
        split
        case isTrue => exact controller.suspend_cases waiter
        case isFalse =>
          let watched := waiter.watched.dropWhile controller.hasEnded
          refine ⟨(controller.setWaiter { waiter with watched }).waiters, [], .nothing, ?_⟩
          rw [List.append_nil]
          rfl

theorem quiet_attend (name : String) : Quiet controller (controller.attend name) := by
  obtain ⟨waiters, told, attends, attend_eq⟩ := controller.attend_cases name
  have set : Quiet controller { controller with waiters } := .of_eq rfl rfl rfl rfl
  rw [attend_eq]
  cases attends with
  | nothing =>
      rw [List.append_nil]
      exact set
  | later | gaveUp | settled => exact set.note rfl

/-! ## Jobs -/

theorem quiet_openDebounce (number : Nat) : Quiet controller (controller.openDebounce number) := by
  unfold openDebounce
  split
  · exact (Quiet.refl _).note rfl
  · exact quiet_finish _ _ _

theorem quiet_closeDebounce (number : Nat) :
    Quiet controller (controller.closeDebounce number) := by
  unfold closeDebounce
  split
  · refine (Quiet.trans ?_ (quiet_spawn _)).trans (quiet_finish _ _ _)
    exact ⟨rfl, ⟨[], by simp⟩, Nat.le_refl _, by simp⟩
  · exact quiet_finish _ _ _

theorem openDeadline_eq (number version : Nat) :
    controller.openDeadline number version =
      { controller with
        notices := controller.notices ++
          if controller.deadline = some number then
            [.hold controller.renderTime.microseconds (.closeDeadline number version)]
          else [] } := by
  unfold openDeadline
  split <;> simp [note]

end Controller

end ComponentPreview
