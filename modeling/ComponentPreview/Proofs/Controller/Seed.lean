import ComponentPreview.Proofs.Controller.Desk

/-!
# Seeded symbols

Only an error that counts seeds a symbol, the one that it reports, and only when that was not seeded
before. It is then that a request is spawned beside those that debounces spawn at their end.
-/

namespace ComponentPreview

def Job.request? : Job → Option Nat
  | request number => some number
  | _ => none

def Notice.spawned? (notice : Notice) : Option Nat :=
  notice.job?.bind Job.request?

theorem Notice.filterMap_spawned {notices : List Notice} (h : notices.countP Notice.isSpawn = 0) :
    notices.filterMap Notice.spawned? = [] := by
  rw [List.filterMap_eq_nil_iff]
  intro notice mem
  have unspawned := List.countP_eq_zero.1 h notice mem
  cases given : notice.job? with
  | none => simp [spawned?, given]
  | some job => cases job <;> simp_all [spawned?, isSpawn, Job.request?, Job.isRequest]

/-- What is said of requests: which ones start, and the numbers of those that are spawned. -/
structure Orders where
  started : List Request
  spawned : List Nat

def Orders.ofNotices (notices : List Notice) : Orders where
  started := notices.filterMap Notice.requested?
  spawned := notices.filterMap Notice.spawned?

theorem Orders.ofNotices_of_unordered {notices : List Notice}
    (unordered : ∀ notice ∈ notices, notice.requested? = none ∧ notice.spawned? = none) :
    ofNotices notices = ⟨[], []⟩ := by
  rw [ofNotices, List.filterMap_eq_nil_iff.2 fun notice mem => (unordered notice mem).1,
    List.filterMap_eq_nil_iff.2 fun notice mem => (unordered notice mem).2]

/-- What a controller knows of symbols: whether it seeds any, and those that it has seeded. -/
structure Seeds where
  autoStub : Bool
  symbols : List String

namespace Controller

variable (controller : Controller)

def seeds : Seeds :=
  ⟨controller.autoStub, controller.seeded⟩

def orders : Orders :=
  .ofNotices controller.notices

/-! ## What leaves the seeds alone -/

theorem seeds_foldl_attend (waiters : List Waiter) :
    (waiters.foldl (fun controller waiter => controller.note (.post (.attend waiter.name)))
      controller).seeds = controller.seeds := by
  induction waiters generalizing controller with
  | nil => rfl
  | cons waiter waiters ih => exact ih _

theorem seeds_finish (number : Nat) (breakdown : Option Breakdown) :
    (controller.finish number breakdown).seeds = controller.seeds := by
  unfold finish
  rw [seeds_foldl_attend]
  split <;> rfl

theorem seeds_endFor (breakdown : Option Breakdown) (asker : Asker) :
    (controller.endFor breakdown asker).seeds = controller.seeds := by
  cases asker with
  | job number => exact controller.seeds_finish number breakdown
  | caller name => rfl

theorem seeds_request (asker : Asker) : (controller.request asker).seeds = controller.seeds := by
  cases code : controller.code with
  | none =>
      rw [request, code]
      exact controller.seeds_endFor none asker
  | some code' =>
      rw [controller.request_eq asker code]
      rfl

theorem seeds_fail (kind : FailureKind) (message : Json) (version : Nat)
    (suggestions : List Json) :
    (controller.fail kind message version suggestions).seeds = controller.seeds := by
  by_cases failed : version ∈ controller.failed
  · rw [controller.fail_of_mem failed]
  · rw [controller.fail_eq failed]
    rfl

theorem seeds_accept (version : Nat) (body : Json) :
    (controller.accept version body).seeds = controller.seeds := by
  rw [accept_eq]
  split
  · rfl
  · split
    · rfl
    · rw [display_eq]
      rfl

theorem seeds_receive (version : Nat) (answer : Answer) :
    (controller.receive version answer).seeds = controller.seeds := by
  rcases controller.receive_cases version answer with
    ⟨body, rfl, welcome⟩ | same | ⟨-, -, -, kind, message, suggestions, failing⟩
  · rw [controller.receive_of_welcome welcome]
    exact controller.seeds_accept version body
  · rw [same]
  · rw [failing]
    exact controller.seeds_fail kind message version suggestions

theorem seeds_closeDeadline (number version : Nat) :
    (controller.closeDeadline number version).seeds = controller.seeds := by
  rcases controller.closeDeadline_cases number version with
    same | disarms | ⟨-, -, -, -, fails⟩
  · rw [same]
  · rw [disarms]
    rfl
  · rw [fails]
    exact seeds_fail _ _ _ _ _

theorem seeds_attend (name : String) : (controller.attend name).seeds = controller.seeds := by
  obtain ⟨waiters, told, -, attend_eq⟩ := controller.attend_cases name
  rw [attend_eq]
  rfl

theorem seeds_perform (job : Job) : (controller.perform job).seeds = controller.seeds := by
  cases job with
  | openDebounce number =>
      simp only [perform, openDebounce]
      split
      · rfl
      · exact controller.seeds_finish number none
  | closeDebounce number =>
      simp only [perform, closeDebounce]
      split
      · exact seeds_finish _ number none
      · exact controller.seeds_finish number none
  | request number =>
      simp only [perform]
      split
      · exact controller.seeds_finish number none
      · exact controller.seeds_request (.job number)
  | refresh caller =>
      simp only [perform, refresh]
      split
      · rfl
      · rw [seeds_request, callOffDebounce_eq]
        rfl
  | answer version asker answer =>
      simp only [perform]
      split
      · exact controller.seeds_endFor none asker
      · rw [seeds_endFor, seeds_receive]
  | retire number => rfl
  | openDeadline number version =>
      rw [perform, openDeadline_eq]
      rfl
  | closeDeadline number version => exact controller.seeds_closeDeadline number version
  | attend waiter => exact controller.seeds_attend waiter

theorem seeds_edit (code : String) : (controller.edit code).seeds = controller.seeds := by
  cases isClosed : controller.isClosed with
  | true => rw [edit, if_pos isClosed]
  | false =>
      rw [controller.edit_eq isClosed code]
      rfl

theorem seeds_close : controller.close.seeds = controller.seeds := by
  cases isClosed : controller.isClosed with
  | true => rw [controller.close_of_closed isClosed]
  | false =>
      rw [controller.close_eq isClosed]
      rfl

theorem seeds_fullscreen : controller.fullscreen.seeds = controller.seeds := by
  unfold fullscreen
  split <;> rfl

theorem Aside.orders_eq {before after : Controller} {requests : List Request}
    (aside : Aside requests 0 before after) :
    after.orders = ⟨before.orders.started ++ requests, before.orders.spawned⟩ := by
  obtain ⟨notices, notices_eq, -, requests_eq, unspawned⟩ := aside.adds
  rw [orders, notices_eq, Orders.ofNotices, List.filterMap_append, List.filterMap_append,
    requests_eq, Notice.filterMap_spawned unspawned, List.append_nil]
  rfl

theorem Aside.orders_of_silent {before after : Controller} {requests : List Request}
    (aside : Aside requests 0 before after) (silent : before.notices = []) :
    after.orders = ⟨requests, []⟩ := by
  rw [aside.orders_eq, orders, silent]
  rfl

theorem orders_spawn :
    controller.spawn.orders =
      ⟨controller.orders.started, controller.orders.spawned ++ [controller.nextJob]⟩ := by
  simp [spawn, note, orders, Orders.ofNotices, Notice.requested?, Notice.spawned?, Notice.job?,
    Job.request?]

/-! ## Errors that count -/

/-- Whether a message counts. -/
def hears (message : LifecycleMessage) : Bool :=
  !controller.isClosed && message.session == controller.session &&
    message.version.all (· == (controller.version : Int))

theorem hears_iff (message : LifecycleMessage) :
    controller.hears message = true ↔ controller.course.Heeds message := by
  simp only [hears, Bool.and_eq_true, Bool.not_eq_true', beq_iff_eq, Option.all_eq_true]
  exact ⟨fun ⟨⟨isOpen, own⟩, newest⟩ => ⟨isOpen, own, newest⟩,
    fun heeds => ⟨⟨heeds.isOpen, heeds.session_eq⟩, heeds.version_eq⟩⟩

/-- The symbol that a message reports as undefined, if it is an error that counts. -/
def symbol? (message : LifecycleMessage) : Option String :=
  match message.event with
  | .ready _ _ => none
  | .error error =>
      if controller.hears message && controller.phase != .idle then
        undefinedSymbol? error.message.toList
      else none

variable {controller}

/-- What handling a message does: it seeds a symbol that is reported for the first time and spawns
a request, or else it does neither. -/
inductive Handled (before : Controller) (message : LifecycleMessage) (after : Controller) : Prop
  | seed (name : String) : before.symbol? message = some name → name ∉ before.seeded →
      after.seeds = ⟨before.autoStub, before.seeded ++ [name]⟩ →
      after.orders = ⟨[], [before.nextJob]⟩ → before.nextJob < after.nextJob →
      Handled before message after
  | rest : (before.autoStub = true →
        ∀ name, before.symbol? message = some name → name ∈ before.seeded) →
      after.seeds = before.seeds → after.orders = ⟨[], []⟩ → Handled before message after

/-- Seeding after a failure, for an error whose symbol is reported. -/
theorem handled_seed (silent : controller.notices = []) {failed : Controller}
    (aside : Aside [] 0 controller failed) (seeds_eq : failed.seeds = controller.seeds)
    (nextJob_eq : failed.nextJob = controller.nextJob) {message : LifecycleMessage} {text : String}
    (reported : controller.symbol? message = undefinedSymbol? text.toList) :
    controller.Handled message (failed.seed text) := by
  have orders := aside.orders_of_silent silent
  have autoStub_eq : failed.autoStub = controller.autoStub := congrArg Seeds.autoStub seeds_eq
  have seeded_eq : failed.seeded = controller.seeded := congrArg Seeds.symbols seeds_eq
  unfold seed
  split
  · next unnamed =>
      refine .rest (fun _ name named => ?_) seeds_eq orders
      rw [reported, unnamed] at named
      cases named
  · next name named =>
      split
      · next known =>
          refine .rest (fun on other named' => ?_) seeds_eq orders
          obtain rfl : name = other :=
            Option.some.inj (named.symm.trans (reported.symm.trans named'))
          rw [autoStub_eq, seeded_eq] at known
          simpa [on] using known
      · next new =>
          simp only [Bool.or_eq_true, List.contains_iff_mem, not_or] at new
          refine .seed name (reported.trans named) (seeded_eq ▸ new.2) ?_ ?_ ?_
          · rw [← autoStub_eq, ← seeded_eq]
            rfl
          · rw [orders_spawn, ← nextJob_eq]
            exact congrArg
              (fun given => Orders.mk given.started (given.spawned ++ [failed.nextJob])) orders
          · exact nextJob_eq ▸ Nat.lt_succ_self _

theorem handled_handle (silent : controller.notices = []) (numbered : controller.Numbered)
    (message : LifecycleMessage) : controller.Handled message (controller.handle message) := by
  have unchanged (unreported : controller.symbol? message = none) :
      controller.Handled message controller :=
    .rest (fun _ name reported => nomatch unreported.symm.trans reported) rfl
      ((Aside.refl _).orders_of_silent silent)
  by_cases heeds : controller.course.Heeds message
  case neg =>
    have unheard : controller.hears message = false :=
      Bool.eq_false_iff.2 (mt (controller.hears_iff message).1 heeds)
    rw [controller.handle_of_not_heeds heeds]
    refine unchanged ?_
    unfold symbol?
    split
    · rfl
    · simp [unheard]
  have heard := (controller.hears_iff message).2 heeds
  rw [controller.handle_of_heeds heeds]
  cases event : message.event with
  | ready name timestamp =>
      have unreported : controller.symbol? message = none := by rw [symbol?, event]
      dsimp only
      split
      · rw [ready_eq]
        refine .rest (fun _ name reported => nomatch unreported.symm.trans reported) rfl ?_
        rw [orders, silent]
        cases controller.deadline <;> rfl
      · exact unchanged unreported
  | error error =>
      dsimp only
      split
      · next idle => exact unchanged (by simp [symbol?, event, idle])
      · next busy =>
          have nextJob_eq : (controller.fail .runtime (.str error.message) controller.version
              []).nextJob = controller.nextJob := by
            by_cases failed : controller.version ∈ controller.failed
            · rw [controller.fail_of_mem failed]
            · rw [controller.fail_eq failed]
          exact handled_seed silent (aside_fail numbered _ _ _ _) (seeds_fail _ _ _ _ _) nextJob_eq
            (by simp [symbol?, event, heard, busy])

end Controller

end ComponentPreview
