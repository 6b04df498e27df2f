import ComponentPreview.Proofs.Controller.Inflight

/-!
# What a controller stands by

Jobs and messages leave a controller that nobody waits for with the session, the source and the
callers that it had. What they give rise to neither ends the program nor hands over an answer, and
what they request is the source that the controller has (`serves_perform`).
-/

namespace ComponentPreview

def Job.isAnswer : Job → Bool
  | answer .. => true
  | _ => false

namespace Notice

/-- A notice that ends nothing: it hands over no answer, and who is replied to has one. -/
def IsCalm : Notice → Prop
  | post job | hold _ job => job.isAnswer = false
  | returned _ breakdown => breakdown = none
  | settled .. | gaveUp .. => False
  | _ => True

theorem isCalm_hurry (number : Option Nat) :
    ∀ notice ∈ (number.map hurry).toList, notice.IsCalm := by
  intro notice mem
  obtain ⟨hurried, -, rfl⟩ := Option.map_eq_some_iff.1 (Option.mem_toList.1 mem)
  trivial

end Notice

/-- What of a controller only edits, interrupts, closing and waiting change. -/
structure Stance where
  session : String
  isClosed : Bool
  calledOff : List Nat
  objection : Json → Option Breakdown
  waiters : List Waiter

namespace Controller

def stance (controller : Controller) : Stance where
  session := controller.session
  isClosed := controller.isClosed
  calledOff := controller.calledOff
  objection := controller.objection
  waiters := controller.waiters

/-- An operation that makes some requests and leaves the source, its debounce and the stance
alone. -/
structure Carries (requests : List Request) (before after : Controller) : Prop where
  stance_eq : after.stance = before.stance
  code_eq : after.code = before.code
  debounce_eq : after.debounce = before.debounce
  adds : ∃ notices, after.notices = before.notices ++ notices ∧
    (∀ notice ∈ notices, notice.IsCalm) ∧ notices.filterMap Notice.requested? = requests

namespace Carries

variable {first second third : Controller} {requests requests' : List Request}

theorem of_eq (stance_eq : second.stance = first.stance) (code_eq : second.code = first.code)
    (debounce_eq : second.debounce = first.debounce)
    (notices_eq : second.notices = first.notices) : Carries [] first second :=
  ⟨stance_eq, code_eq, debounce_eq, [], by simp [notices_eq]⟩

theorem refl (controller : Controller) : Carries [] controller controller :=
  of_eq rfl rfl rfl rfl

/-- Followed by an operation that requests nothing. -/
theorem andThen (left : Carries requests first second) (right : Carries [] second third) :
    Carries requests first third where
  stance_eq := right.stance_eq.trans left.stance_eq
  code_eq := right.code_eq.trans left.code_eq
  debounce_eq := right.debounce_eq.trans left.debounce_eq
  adds := by
    obtain ⟨earlier, earlier_eq, calm, requests_eq⟩ := left.adds
    obtain ⟨later, later_eq, calm', requests_eq'⟩ := right.adds
    refine ⟨earlier ++ later, by rw [later_eq, earlier_eq, List.append_assoc], ?_, ?_⟩
    · intro notice mem
      exact (List.mem_append.1 mem).elim (calm notice) (calm' notice)
    · rw [List.filterMap_append, requests_eq, requests_eq', List.append_nil]

theorem told_of_silent (carries : Carries requests first second) (silent : first.notices = []) :
    (∀ notice ∈ second.notices, notice.IsCalm) ∧
      second.notices.filterMap Notice.requested? = requests := by
  obtain ⟨notices, notices_eq, told⟩ := carries.adds
  rw [notices_eq, silent, List.nil_append]
  exact told

theorem mem_notices (carries : Carries requests first second) {notice : Notice}
    (mem : notice ∈ first.notices) : notice ∈ second.notices := by
  obtain ⟨notices, notices_eq, -⟩ := carries.adds
  rw [notices_eq]
  exact List.mem_append_left _ mem

theorem note (carries : Carries requests first second) {notice : Notice} (calm : notice.IsCalm)
    (unrequested : notice.requested? = none) : Carries requests first (second.note notice) :=
  carries.andThen ⟨rfl, rfl, rfl, [notice], rfl, by simpa using calm, by simp [unrequested]⟩

/-- The deadline in force is called off, and then all is told. -/
theorem of_told {after : Controller} {told : List Notice}
    (bare : Carries [] first { after with notices := first.notices })
    (notices_eq : after.notices =
      first.notices ++ (first.deadline.map Notice.hurry).toList ++ told)
    (calm : ∀ notice ∈ told, notice.IsCalm)
    (requests_eq : told.filterMap Notice.requested? = requests) : Carries requests first after where
  stance_eq := bare.stance_eq
  code_eq := bare.code_eq
  debounce_eq := bare.debounce_eq
  adds := by
    refine ⟨_, notices_eq.trans (List.append_assoc _ _ _), ?_, ?_⟩
    · intro notice mem
      exact (List.mem_append.1 mem).elim (Notice.isCalm_hurry _ notice) (calm notice)
    · rw [List.filterMap_append, filterMap_hurry, requests_eq, List.nil_append]

end Carries

variable (controller : Controller)

theorem carries_foldl_attend (waiters : List Waiter) :
    Carries [] controller (waiters.foldl
      (fun controller waiter => controller.note (.post (.attend waiter.name))) controller) := by
  induction waiters generalizing controller with
  | nil => exact .refl _
  | cons waiter waiters ih =>
      have noted : Carries [] controller (controller.note (.post (.attend waiter.name))) :=
        (Carries.refl controller).note rfl rfl
      exact noted.andThen (ih _)

theorem carries_finish (number : Nat) (breakdown : Option Breakdown) :
    Carries [] controller (controller.finish number breakdown) := by
  unfold finish
  refine Carries.andThen ?_ (carries_foldl_attend _ _)
  split
  · refine Carries.note ?_ rfl rfl
    exact .of_eq rfl rfl rfl rfl
  · exact .of_eq rfl rfl rfl rfl

theorem carries_endFor (asker : Asker) : Carries [] controller (controller.endFor none asker) := by
  cases asker with
  | job number => exact controller.carries_finish number none
  | caller name => exact (Carries.refl controller).note rfl rfl

theorem carries_spawn : Carries [] controller controller.spawn := by
  unfold spawn
  refine Carries.note ?_ rfl rfl
  exact .of_eq rfl rfl rfl rfl

theorem carries_request (asker : Asker) {code : String} (h : controller.code = some code) :
    Carries [⟨code, controller.version + 1, controller.requestOptions, asker⟩] controller
      (controller.request asker) := by
  rw [controller.request_eq asker h]
  refine .of_told (.of_eq rfl rfl rfl rfl) rfl ?_ rfl
  intro notice mem
  simp only [List.mem_cons, List.not_mem_nil, or_false] at mem
  rcases mem with rfl | rfl <;> trivial

theorem carries_fail (kind : FailureKind) (message : Json) (version : Nat)
    (suggestions : List Json) :
    Carries [] controller (controller.fail kind message version suggestions) := by
  by_cases failed : version ∈ controller.failed
  · rw [controller.fail_of_mem failed]
    exact .refl _
  · rw [controller.fail_eq failed]
    refine .of_told (.of_eq rfl rfl rfl rfl) rfl ?_ ?_
    · intro notice mem
      split at mem
      · obtain rfl := List.mem_singleton.1 mem
        trivial
      · cases mem
    · split <;> rfl

theorem carries_display (version : Nat) : Carries [] controller (controller.display version) := by
  rw [controller.display_eq]
  refine ⟨rfl, rfl, rfl, _, by rw [List.append_assoc, List.append_assoc], ?_, ?_⟩
  · intro notice mem
    split at mem <;> simp at mem <;> rcases mem with rfl | rfl | rfl <;> trivial
  · split <;> rfl

theorem carries_accept (version : Nat) (body : Json) :
    Carries [] controller (controller.accept version body) := by
  rw [accept_eq]
  split
  · exact .of_eq rfl rfl rfl rfl
  · next limits _ =>
      have taken : Carries [] controller (controller.takeOver body limits) :=
        .of_eq rfl rfl rfl rfl
      split
      · refine (taken.andThen ?_).note trivial rfl
        exact .of_eq rfl rfl rfl rfl
      · exact taken.andThen (carries_display _ version)

theorem carries_receive (version : Nat) (answer : Answer) :
    Carries [] controller (controller.receive version answer) := by
  rcases controller.receive_cases version answer with
    ⟨body, rfl, welcome⟩ | same | ⟨-, -, -, kind, message, suggestions, failing⟩
  · rw [controller.receive_of_welcome welcome]
    exact controller.carries_accept version body
  · rw [same]
    exact .refl _
  · rw [failing]
    exact controller.carries_fail kind message version suggestions

theorem carries_seed (message : String) : Carries [] controller (controller.seed message) := by
  rcases controller.seed_cases message with same | ⟨name, seeds⟩
  · rw [same]
    exact .refl _
  · have seeded : Carries [] controller
        { controller with seeded := controller.seeded ++ [name] } := .of_eq rfl rfl rfl rfl
    rw [seeds]
    exact seeded.andThen (carries_spawn _)

theorem carries_handle (message : LifecycleMessage) :
    Carries [] controller (controller.handle message) := by
  rcases controller.handle_cases message with
    same | ⟨name, timestamp, -, -, -, ready⟩ | ⟨error, -, -, fails⟩
  · rw [same]
    exact .refl _
  · rw [ready, ready_eq]
    refine .of_told (.of_eq rfl rfl rfl rfl) rfl ?_ rfl
    intro notice mem
    obtain rfl := List.mem_singleton.1 mem
    trivial
  · rw [fails]
    exact (controller.carries_fail _ _ _ _).andThen (carries_seed _ _)

theorem carries_fullscreen : Carries [] controller controller.fullscreen := by
  unfold fullscreen
  split
  · exact .refl _
  · refine Carries.note ?_ trivial rfl
    exact .of_eq rfl rfl rfl rfl

theorem carries_openDebounce (number : Nat) :
    Carries [] controller (controller.openDebounce number) := by
  unfold openDebounce
  split
  · exact (Carries.refl _).note rfl rfl
  · exact carries_finish _ _ _

theorem carries_openDeadline (number version : Nat) :
    Carries [] controller (controller.openDeadline number version) := by
  unfold openDeadline
  split
  · exact (Carries.refl _).note rfl rfl
  · exact .refl _

theorem carries_closeDeadline (number version : Nat) :
    Carries [] controller (controller.closeDeadline number version) := by
  have disarmed : Carries [] controller { controller with deadline := none } :=
    .of_eq rfl rfl rfl rfl
  rcases controller.closeDeadline_cases number version with
    same | disarms | ⟨-, -, -, -, fails⟩
  · rw [same]
    exact .refl _
  · rw [disarms]
    exact disarmed
  · rw [fails]
    exact disarmed.andThen (carries_fail _ _ _ _ _)

theorem notices_edit (silent : controller.notices = []) (isOpen : controller.isClosed = false)
    (code : String) : (controller.edit code).notices =
      (controller.debounce.map Notice.hurry).toList ++
        [.post (.openDebounce controller.nextJob)] := by
  rw [controller.edit_eq isOpen, note, taking, silent]
  rfl

/-! ## What is requested -/

/-- An operation that leaves the stance and the source alone: it makes a request of the source, or
it leaves the debounce alone too, or it has a request spawned. -/
structure Serves (before after : Controller) : Prop where
  stance_eq : after.stance = before.stance
  code_eq : after.code = before.code
  calm : ∀ notice ∈ after.notices, notice.IsCalm
  sends : (∃ request, after.notices.filterMap Notice.requested? = [request] ∧
      after.code = some request.code) ∨
    after.notices.filterMap Notice.requested? = [] ∧ (after.debounce = before.debounce ∨
      ∃ number, .post (.request number) ∈ after.notices)

variable {controller} {after : Controller}

theorem Carries.serves (carries : Carries [] controller after) (silent : controller.notices = []) :
    controller.Serves after := by
  obtain ⟨calm, requests_eq⟩ := carries.told_of_silent silent
  exact ⟨carries.stance_eq, carries.code_eq, calm,
    .inr ⟨requests_eq, .inl carries.debounce_eq⟩⟩

/-- A request after an operation that leaves the source alone. -/
theorem Carries.serves_of_request {middle : Controller} {request : Request}
    (carries : Carries [request] middle after) (stance_eq : middle.stance = controller.stance)
    (code_eq : middle.code = controller.code) (calm : ∀ notice ∈ middle.notices, notice.IsCalm)
    (unrequested : middle.notices.filterMap Notice.requested? = [])
    (h : controller.code = some request.code) : controller.Serves after := by
  obtain ⟨notices, notices_eq, calm', requests_eq⟩ := carries.adds
  refine ⟨carries.stance_eq.trans stance_eq, carries.code_eq.trans code_eq, ?_,
    .inl ⟨request, ?_, (carries.code_eq.trans code_eq).trans h⟩⟩
  · intro notice mem
    rw [notices_eq] at mem
    exact (List.mem_append.1 mem).elim (calm notice) (calm' notice)
  · rw [notices_eq, List.filterMap_append, unrequested, requests_eq, List.nil_append]

theorem serves_request (silent : controller.notices = []) (asker : Asker) :
    controller.Serves (controller.request asker) := by
  cases code : controller.code with
  | none =>
      rw [request, code]
      exact (controller.carries_endFor asker).serves silent
  | some source =>
      exact (controller.carries_request asker code).serves_of_request rfl rfl (by simp [silent])
        (by simp [silent]) code

/-- Who asks for a refresh of some source has it requested. -/
theorem request_refresh (isOpen : controller.isClosed = false) {code : String}
    (h : controller.code = some code) (caller : String) :
    ∃ version options, Carries [⟨code, version, options, .caller caller⟩]
      controller.callOffDebounce (controller.refresh caller) := by
  have same : controller.refresh caller = controller.callOffDebounce.request (.caller caller) := by
    rw [refresh, isOpen, h]
    rfl
  have code_eq : controller.callOffDebounce.code = some code := by
    rw [callOffDebounce_eq]
    exact h
  rw [same]
  exact ⟨_, _, carries_request _ _ code_eq⟩

theorem requested_refresh (silent : controller.notices = []) (isOpen : controller.isClosed = false)
    {code : String} (h : controller.code = some code) (caller : String) : ∃ version options,
      (controller.refresh caller).notices.filterMap Notice.requested? =
        [⟨code, version, options, .caller caller⟩] := by
  obtain ⟨version, options, carries⟩ := controller.request_refresh isOpen h caller
  obtain ⟨notices, notices_eq, -, requests_eq⟩ := carries.adds
  refine ⟨version, options, ?_⟩
  rw [notices_eq, callOffDebounce_eq, silent, List.filterMap_append, List.nil_append,
    filterMap_hurry, requests_eq]
  rfl

theorem serves_refresh (silent : controller.notices = []) (isOpen : controller.isClosed = false)
    (caller : String) : controller.Serves (controller.refresh caller) := by
  cases code : controller.code with
  | none =>
      have replied : Carries [] controller (controller.note (.returned caller none)) :=
        (Carries.refl controller).note rfl rfl
      rw [refresh, code, Option.isNone_none, Bool.or_true, if_pos rfl]
      exact replied.serves silent
  | some source =>
      obtain ⟨version, options, carries⟩ := controller.request_refresh isOpen code caller
      have hurries : controller.callOffDebounce.notices =
          (controller.debounce.map Notice.hurry).toList := by
        rw [callOffDebounce_eq, silent]
        rfl
      refine carries.serves_of_request ?_ ?_ ?_ ?_ code
      · rw [callOffDebounce_eq]
        rfl
      · rw [callOffDebounce_eq]
      · rw [hurries]
        exact Notice.isCalm_hurry _
      · rw [hurries]
        exact filterMap_hurry _

theorem serves_closeDebounce (silent : controller.notices = []) (number : Nat) :
    controller.Serves (controller.closeDebounce number) := by
  unfold closeDebounce
  split
  · have spawns := carries_spawn { controller with debounce := none }
    have finishes :=
      carries_finish (Controller.spawn { controller with debounce := none }) number none
    have spawned : .post (.request controller.nextJob) ∈
        (Controller.spawn { controller with debounce := none }).notices := by
      simp [spawn, note]
    have carries := spawns.andThen finishes
    obtain ⟨calm, requests_eq⟩ := carries.told_of_silent silent
    exact ⟨carries.stance_eq, carries.code_eq, calm,
      .inr ⟨requests_eq, .inr ⟨_, finishes.mem_notices spawned⟩⟩⟩
  · exact (controller.carries_finish number none).serves silent

/-- Once the debounce in force is closed there is none. -/
theorem debounce_closeDebounce {number : Nat} (h : controller.debounce = some number) :
    (controller.closeDebounce number).debounce = none := by
  rw [closeDebounce, if_pos h]
  exact (carries_finish _ number none).debounce_eq.trans (carries_spawn _).debounce_eq

/-! ## Jobs -/

/-- An answer that says nothing, or has the shape of a verdict whose metadata can be reported. -/
def IsVerdict (objection : Json → Option Breakdown) : Answer → Prop
  | .error (.transport _) => True
  | .ok (.obj fields) =>
      if (Json.get "success" (.obj fields)).isTruthy then
        flawOfSuccess (.obj fields) = none ∧ objection (metadataOf (.obj fields)) = none
      else flawOfRefusal (.obj fields) = none
  | _ => False

theorem breakdown?_eq_none {answer : Answer} (verdict : IsVerdict controller.objection answer)
    (version : Nat) : controller.breakdown? version answer = none := by
  unfold IsVerdict at verdict
  split at verdict
  · rfl
  · rw [breakdown?]
    split
    · rfl
    · split at verdict
      · next success =>
          rw [if_pos success, verdict.1, verdict.2]
          rfl
      · next failure => rw [if_neg failure, verdict]
  · cases verdict

/-- What a job has to be for the controller to serve it: an answer is a verdict. -/
def Admits (controller : Controller) : Job → Prop
  | .answer _ _ answer => IsVerdict controller.objection answer
  | _ => True

/-- A controller that nobody waits for, whose session is open and whose requests all stand. -/
structure IsServing (controller : Controller) : Prop where
  isOpen : controller.isClosed = false
  calledOff_eq : controller.calledOff = []
  waiters_eq : controller.waiters = []

namespace IsServing

variable (serving : controller.IsServing)

include serving

theorem isCalledOff_eq (asker : Asker) : controller.isCalledOff asker = false := by
  cases asker <;> simp [isCalledOff, serving.calledOff_eq]

theorem attend_eq (name : String) : controller.attend name = controller := by
  rw [attend, serving.waiters_eq]
  rfl

theorem perform_request (number : Nat) :
    controller.perform (.request number) = controller.request (.job number) := by
  simp [perform, serving.isOpen, serving.isCalledOff_eq]

theorem perform_answer {answer : Answer} (verdict : IsVerdict controller.objection answer)
    (version : Nat) (asker : Asker) : controller.perform (.answer version asker answer) =
      (controller.receive version answer).endFor none asker := by
  simp [perform, serving.isCalledOff_eq, breakdown?_eq_none verdict]

theorem serves_perform (silent : controller.notices = []) {job : Job}
    (admitted : controller.Admits job) : controller.Serves (controller.perform job) := by
  cases job with
  | openDebounce number => exact (controller.carries_openDebounce number).serves silent
  | closeDebounce number => exact serves_closeDebounce silent number
  | request number =>
      rw [serving.perform_request]
      exact serves_request silent _
  | refresh caller => exact serves_refresh silent serving.isOpen caller
  | answer version asker answer =>
      have carries := (controller.carries_receive version answer).andThen (carries_endFor _ asker)
      rw [serving.perform_answer admitted]
      exact carries.serves silent
  | retire number =>
      have carries : Carries [] controller (controller.perform (.retire number)) :=
        .of_eq rfl rfl rfl rfl
      exact carries.serves silent
  | openDeadline number version =>
      exact (controller.carries_openDeadline number version).serves silent
  | closeDeadline number version =>
      exact (controller.carries_closeDeadline number version).serves silent
  | attend waiter =>
      rw [perform, serving.attend_eq]
      exact (Carries.refl controller).serves silent

end IsServing

end Controller

end ComponentPreview
