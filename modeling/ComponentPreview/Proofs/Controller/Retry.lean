import ComponentPreview.Proofs.Controller.Debounce
import ComponentPreview.Proofs.Controller.Seed
import Mathlib.Data.List.Nodup
import Mathlib.Data.List.Perm.Subperm

/-!
# Retries

A request starts because of a refresh, or because it was spawned before: at the end of a debounce,
or when a symbol was seeded. Each that is spawned has a number of its own and starts at most once,
so a symbol is retried at most once, and requests are as few as what they start for.
-/

namespace ComponentPreview

namespace Controller

variable {controller : Controller}

/-! ## What operations order -/

theorem orders_edit (silent : controller.notices = []) (code : String) :
    (controller.edit code).orders = ⟨[], []⟩ := by
  cases isClosed : controller.isClosed with
  | true =>
      rw [edit, if_pos isClosed, orders, silent]
      rfl
  | false =>
      rw [controller.edit_eq isClosed, orders, note, taking, silent]
      cases controller.debounce <;> rfl

theorem orders_close (silent : controller.notices = []) : controller.close.orders = ⟨[], []⟩ := by
  cases isClosed : controller.isClosed with
  | true =>
      rw [controller.close_of_closed isClosed, orders, silent]
      rfl
  | false =>
      rw [controller.close_eq isClosed, orders, silent]
      refine Orders.ofNotices_of_unordered ?_
      simp only [List.nil_append, List.mem_append, Option.mem_toList, Option.map_eq_some_iff,
        List.mem_map, List.mem_singleton]
      rintro notice (((⟨number, -, rfl⟩ | ⟨number, -, rfl⟩) | ⟨number, -, rfl⟩) | rfl) <;>
        exact ⟨rfl, rfl⟩

/-- What doing a job orders: a debounce in force spawns a request at its end, a spawned request
starts or is dropped, and a refresh starts one. -/
inductive Performed (before : Controller) : Job → Controller → Prop
  | rest (job : Job) (after : Controller) : job.request? = none → after.orders = ⟨[], []⟩ →
      Performed before job after
  | elapse (number : Nat) (after : Controller) : before.debounce = some number →
      after.orders = ⟨[], [before.nextJob]⟩ → before.nextJob < after.nextJob →
      Performed before (.closeDebounce number) after
  | drop (number : Nat) (after : Controller) : after.orders = ⟨[], []⟩ →
      Performed before (.request number) after
  | start (number : Nat) (code : String) (after : Controller) :
      after.orders =
        ⟨[⟨code, before.version + 1, before.requestOptions, .job number⟩], []⟩ →
      Performed before (.request number) after
  | refresh (caller code : String) (after : Controller) : before.isClosed = false →
      before.code = some code →
      after.orders =
        ⟨[⟨code, before.version + 1, before.requestOptions, .caller caller⟩], []⟩ →
      Performed before (.refresh caller) after

section Perform

variable (silent : controller.notices = []) (numbered : controller.Numbered)

include silent

theorem Performed.of_aside {job : Job} {after : Controller} (other : job.request? = none)
    (aside : Aside [] 0 controller after) : controller.Performed job after :=
  .rest job after other (aside.orders_of_silent silent)

theorem performed_closeDebounce (number : Nat) :
    controller.Performed (.closeDebounce number) (controller.closeDebounce number) := by
  unfold closeDebounce
  split
  · next inForce =>
      have ends := aside_finish { controller with debounce := none }.spawn number none
      refine .elapse number _ inForce ?_ (Nat.lt_of_succ_le ends.nextJob_le)
      rw [ends.orders_eq, orders_spawn, orders, silent]
      rfl
  · exact .of_aside silent rfl (controller.aside_finish number none)

include numbered

theorem performed_request (number : Nat) :
    controller.Performed (.request number) (controller.perform (.request number)) := by
  rcases controller.perform_request_cases number with ⟨-, ends⟩ | ⟨source, -, code, requests⟩
  · rw [ends]
    exact .drop number _ ((controller.aside_finish number none).orders_of_silent silent)
  · rw [requests]
    exact .start number source _
      ((aside_request numbered (.job number) code).orders_of_silent silent)

theorem performed_refresh (caller : String) :
    controller.Performed (.refresh caller) (controller.refresh caller) := by
  rcases controller.refresh_cases caller with ⟨-, returns⟩ | ⟨source, isOpen, code, taken, requests⟩
  · rw [returns]
    exact .of_aside silent rfl ((Aside.refl controller).note rfl)
  · have aside := aside_request numbered.callOffDebounce (.caller caller) taken
    rw [requests]
    refine .refresh caller source _ isOpen code ?_
    rw [aside.orders_eq, controller.callOffDebounce_eq, orders, silent]
    cases controller.debounce <;> rfl

theorem performed_perform (job : Job) : controller.Performed job (controller.perform job) := by
  cases job with
  | openDebounce number =>
      simp only [perform, openDebounce]
      split
      · refine .rest _ _ rfl ?_
        rw [note, orders, silent]
        rfl
      · exact .of_aside silent rfl (controller.aside_finish number none)
  | closeDebounce number => exact performed_closeDebounce silent number
  | request number => exact performed_request silent numbered number
  | refresh caller => exact performed_refresh silent numbered caller
  | answer version asker answer =>
      refine .of_aside silent rfl ?_
      simp only [perform]
      split
      · exact aside_endFor _ _ _
      · exact (aside_receive numbered version answer).andThen (aside_endFor _ _ _)
  | retire number => exact .of_aside silent rfl (.of_eq rfl rfl rfl rfl rfl rfl)
  | openDeadline number version => exact .of_aside silent rfl (aside_openDeadline number version)
  | closeDeadline number version =>
      exact .of_aside silent rfl (aside_closeDeadline numbered number version)
  | attend waiter => exact .of_aside silent rfl (aside_attend waiter)

end Perform

end Controller

def Request.job? (request : Request) : Option Nat :=
  match request.asker with
  | .job number => some number
  | .caller _ => none

namespace World

/-- The numbers of the requests that were spawned and have not started. -/
def queued (world : World) : List Nat :=
  world.tasks.filterMap fun task => task.job.request?

variable {world : World}

theorem queued_foldl_heed (notices : List Notice) :
    (notices.foldl heed world).queued =
      world.queued ++ (Orders.ofNotices notices).spawned := by
  induction notices generalizing world with
  | nil => exact (List.append_nil _).symm
  | cons notice notices ih =>
      have one : (world.heed notice).queued = world.queued ++ notice.spawned?.toList := by
        cases notice with
        | hurry number =>
            have same : (fun task : Appointment => task.job.request?) ∘
                Appointment.hurried world.now number = fun task => task.job.request? := by
              funext task
              rw [Function.comp_apply, Appointment.job_hurried]
            rw [queued, heed, List.filterMap_map, same]
            exact (List.append_nil _).symm
        | post job | hold delay job => 
            cases h : job.request? <;>
              simp [queued, heed, Notice.spawned?, Notice.job?, List.filterMap_append, h]
        | _ => exact (List.append_nil _).symm
      rw [List.foldl_cons, ih, one, List.append_assoc, Orders.ofNotices, Orders.ofNotices]
      cases h : notice.spawned? <;> simp [h]

theorem queued_act (action : Controller → Controller) :
    (world.act action).1.queued =
      world.queued ++ (action world.controller).orders.spawned :=
  queued_foldl_heed _

/-- A task that is taken out leaves the spawned requests as they are, or is the one of them that it
is for. -/
theorem queued_without {index : Nat} {task : Appointment}
    (found : world.tasks[index]? = some task) :
    world.queued.Perm (task.job.request?.toList ++ (world.without index).queued) := by
  have perm := (perm_cons_eraseIdx found).filterMap fun task => task.job.request?
  cases h : task.job.request? <;> simpa [queued, without, h] using perm

end World

/-! ## What moves order -/

/-- A request that was spawned, and the symbol for which it was: none at the end of a debounce. -/
structure Spawn where
  number : Nat
  symbol : Option String

/-- Whether a request was spawned for a symbol. -/
def Request.retries (spawns : List Spawn) (name : String) (request : Request) : Bool :=
  spawns.any fun spawn => spawn.symbol == some name && request.asker == .job spawn.number

theorem Request.retries_iff {spawns : List Spawn} {name : String} {request : Request} :
    request.retries spawns name = true ↔
      ∃ spawn ∈ spawns, spawn.symbol = some name ∧ request.asker = .job spawn.number := by
  simp [retries]

def Orders.spawns (orders : Orders) (symbol : Option String) : List Spawn :=
  orders.spawned.map fun number => ⟨number, symbol⟩

namespace Transition

def orders (transition : Transition) : Orders :=
  .ofNotices transition.notices

/-- The job that is done, if its time has come. -/
def performed? (transition : Transition) : Option Job :=
  match transition.move with
  | .work index =>
      (transition.before.tasks[index]?.filter (·.due ≤ transition.before.now)).map (·.job)
  | _ => none

/-- Whether a refresh comes to a request. -/
def refreshes (transition : Transition) : Bool :=
  transition.performed?.any Job.isRefresh && !transition.before.controller.isClosed &&
    transition.before.controller.code.isSome

/-- Whether the window of the debounce in force has elapsed. -/
def elapses (transition : Transition) : Bool :=
  match transition.performed? with
  | some (.closeDebounce number) => transition.before.controller.debounce == some number
  | _ => false

/-- The symbol that an error is accepted for. -/
def symbol? (transition : Transition) : Option String :=
  match transition.move with
  | .message message => transition.before.controller.symbol? message
  | _ => none

def spawns (transition : Transition) : List Spawn :=
  transition.orders.spawns transition.symbol?

variable {transition : Transition}

theorem symbol?_of_elapses (elapses : transition.elapses = true) : transition.symbol? = none := by
  obtain ⟨before, move⟩ := transition
  cases move with
  | message message => cases elapses
  | _ => rfl

/-- What a move orders, which of the requests spawned before are left, and which symbols are seeded
after it. -/
inductive Deals (transition : Transition) : Orders → List Nat → Seeds → Prop
  | rest : Deals transition ⟨[], []⟩ transition.before.queued transition.before.controller.seeds
  | elapse : transition.elapses = true →
      Deals transition ⟨[], [transition.before.controller.nextJob]⟩ transition.before.queued
        transition.before.controller.seeds
  | seed (name : String) : transition.symbol? = some name →
      name ∉ transition.before.controller.seeded →
      Deals transition ⟨[], [transition.before.controller.nextJob]⟩ transition.before.queued
        ⟨transition.before.controller.autoStub, transition.before.controller.seeded ++ [name]⟩
  | drop (number : Nat) (queued : List Nat) :
      transition.before.queued.Perm (number :: queued) →
      Deals transition ⟨[], []⟩ queued transition.before.controller.seeds
  | start (number : Nat) (queued : List Nat) (request : Request) :
      transition.before.queued.Perm (number :: queued) → request.asker = .job number →
      request.options = transition.before.controller.requestOptions →
      Deals transition ⟨[request], []⟩ queued transition.before.controller.seeds
  | refresh (caller : String) (request : Request) : transition.refreshes = true →
      request.asker = .caller caller →
      request.options = transition.before.controller.requestOptions →
      Deals transition ⟨[request], []⟩ transition.before.queued transition.before.controller.seeds

/-- What a move comes to, given which of the requests spawned before are left. -/
structure Renews (transition : Transition) (queued : List Nat) : Prop where
  deals : transition.Deals transition.orders queued transition.after.controller.seeds
  perm : transition.after.queued.Perm (queued ++ transition.orders.spawned)
  spawned_lt : ∀ number ∈ transition.orders.spawned,
    number < transition.after.controller.nextJob

theorem renews_of_act {world : World} (action : Controller → Controller)
    (move_eq : transition.before.move transition.move = world.act action) {queued : List Nat}
    (perm : world.queued.Perm queued) {orders : Orders}
    (orders_eq : (action world.controller).orders = orders)
    (deals : transition.Deals orders queued (action world.controller).seeds)
    (spawned_lt : ∀ number ∈ orders.spawned, number < (action world.controller).nextJob) :
    transition.Renews queued := by
  have given : transition.orders = orders := by
    rw [Transition.orders, notices, move_eq, World.act_notices]
    exact orders_eq
  refine ⟨?_, ?_, ?_⟩
  · rw [given, after, move_eq, World.act_controller]
    exact deals
  · rw [given, after, move_eq, World.queued_act, orders_eq]
    exact perm.append_right _
  · rw [given, after, move_eq, World.act_controller]
    exact spawned_lt

theorem renews_of_rest {world : World} (action : Controller → Controller)
    (move_eq : transition.before.move transition.move = world.act action)
    (perm : world.queued.Perm transition.before.queued)
    (orders_eq : (action world.controller).orders = ⟨[], []⟩)
    (seeds_eq : (action world.controller).seeds = transition.before.controller.seeds) :
    transition.Renews transition.before.queued := by
  refine renews_of_act action move_eq perm orders_eq ?_ (by simp)
  rw [seeds_eq]
  exact .rest

theorem renews_of_idle (idle : transition.before.move transition.move = (transition.before, [])) :
    transition.Renews transition.before.queued := by
  have given : transition.orders = ⟨[], []⟩ := by
    rw [orders, notices, idle]
    rfl
  refine ⟨?_, ?_, ?_⟩
  · rw [given, after, idle]
    exact .rest
  · rw [given, after, idle, List.append_nil]
  · simp [given]

end Transition

namespace World

variable {world : World}

theorem renews_message (sound : world.Sound) (message : LifecycleMessage) :
    (Transition.mk world (.message message)).Renews world.queued := by
  have handled := Controller.handled_handle sound.silent sound.numbered message
  cases handled with
  | seed name reported new seeds_eq orders_eq nextJob_lt =>
      refine Transition.renews_of_act (·.handle message) rfl (.refl _) orders_eq ?_ ?_
      · rw [seeds_eq]
        exact .seed name reported new
      · simpa using nextJob_lt
  | rest _ seeds_eq orders_eq =>
      exact Transition.renews_of_rest (·.handle message) rfl (.refl _) orders_eq seeds_eq

/-- The task is taken out before its job is done, so a spawned request is not left when it starts or
is dropped. -/
theorem renews_work (sound : world.Sound) (index : Nat) :
    ∃ queued, (Transition.mk world (.work index)).Renews queued := by
  cases found : world.tasks[index]? with
  | none =>
      refine ⟨_, Transition.renews_of_idle ?_⟩
      simp only [World.move, World.work, found]
  | some task =>
      by_cases late : task.due ≤ world.now
      case neg =>
        refine ⟨_, Transition.renews_of_idle ?_⟩
        simp only [World.move, World.work, found, if_neg late]
      obtain ⟨due, job⟩ := task
      have move_eq : world.move (.work index) =
          (world.without index).act (·.perform job) := by
        simp only [World.move, World.work, found, if_pos late]
        rfl
      have performs : (Transition.mk world (.work index)).performed? = some job := by
        simp [Transition.performed?, found, late]
      have queued := queued_without found
      have seeds_eq := world.controller.seeds_perform job
      have deals {orders : Orders} {left : List Nat}
          (perm : (world.without index).queued.Perm left)
          (orders_eq : (world.controller.perform job).orders = orders)
          (deals : (Transition.mk world (.work index)).Deals orders left world.controller.seeds)
          (spawned_lt : ∀ number ∈ orders.spawned,
            number < (world.controller.perform job).nextJob) :
          ∃ queued, (Transition.mk world (.work index)).Renews queued :=
        ⟨left, Transition.renews_of_act (·.perform job) move_eq perm orders_eq
          (seeds_eq.symm ▸ deals) spawned_lt⟩
      have done := Controller.performed_perform sound.silent sound.numbered job
      cases done with
      | rest _ _ other orders_eq =>
          rw [other] at queued
          exact deals queued.symm orders_eq .rest (by simp)
      | elapse number _ inForce orders_eq nextJob_lt =>
          refine deals queued.symm orders_eq (.elapse ?_) (by simpa using nextJob_lt)
          simp [Transition.elapses, performs, inForce]
      | drop number _ orders_eq =>
          exact deals (.refl _) orders_eq (.drop number _ queued) (by simp)
      | start number code _ orders_eq =>
          exact deals (.refl _) orders_eq (.start number _ _ queued rfl rfl) (by simp)
      | refresh caller code _ isOpen taken orders_eq =>
          refine deals queued.symm orders_eq (.refresh caller _ ?_ rfl rfl) (by simp)
          simp [Transition.refreshes, performs, Job.isRefresh, isOpen, taken]

/-- What a move can do for requests. -/
theorem renews_move (sound : world.Sound) (move : Move) :
    ∃ queued, (Transition.mk world move).Renews queued := by
  have silent := sound.silent
  have rests (action : Controller → Controller) (move_eq : world.move move = world.act action)
      (orders_eq : (action world.controller).orders = ⟨[], []⟩)
      (seeds_eq : (action world.controller).seeds = world.controller.seeds) :
      ∃ queued, (Transition.mk world move).Renews queued :=
    ⟨_, Transition.renews_of_rest action move_eq (.refl _) orders_eq seeds_eq⟩
  cases move with
  | pass span => exact ⟨world.queued, .rest, (List.append_nil _).symm ▸ .refl _, nofun⟩
  | edit code =>
      exact rests (·.edit code) rfl (Controller.orders_edit silent code)
        (world.controller.seeds_edit code)
  | refresh caller =>
      refine rests (·.note (.post (.refresh caller))) rfl ?_ rfl
      rw [Controller.orders, Controller.note, silent]
      rfl
  | fullscreen =>
      exact rests Controller.fullscreen rfl
        (Controller.aside_fullscreen.orders_of_silent silent) world.controller.seeds_fullscreen
  | close =>
      exact rests Controller.close rfl (Controller.orders_close silent) world.controller.seeds_close
  | message message => exact ⟨_, renews_message sound message⟩
  | await waiter poll =>
      exact rests (fun controller => (controller.await waiter poll).note (.post (.attend waiter)))
        rfl (((Controller.aside_await waiter poll).note rfl).orders_of_silent silent) rfl
  | work index => exact renews_work sound index
  | answer index answer =>
      cases found : world.awaited[index]? with
      | none =>
          refine ⟨_, Transition.renews_of_idle ?_⟩
          simp only [World.move, World.answer, found]
      | some request =>
          have move_eq : world.move (.answer index answer) =
              ({ world with awaited := world.awaited.eraseIdx index } : World).act
                (·.perform (.answer request.version request.asker answer)) := by
            simp only [World.move, World.answer, found]
          refine ⟨_, Transition.renews_of_rest _ move_eq (.refl _) ?_
            (Controller.seeds_perform _ _)⟩
          have done := Controller.performed_perform silent sound.numbered
            (.answer request.version request.asker answer)
          cases done with
          | rest _ _ _ orders_eq => exact orders_eq

/-! ## Runs -/

def spawns (world : World) (moves : List Move) : List Spawn :=
  (world.run moves).flatMap Transition.spawns

/-- The requests that a run starts because a symbol was reported. -/
def retries (world : World) (moves : List Move) (name : String) : List Request :=
  (world.requests moves).filter (·.retries (world.spawns moves) name)

theorem requests_concat (moves : List Move) (move : Move) :
    world.requests (moves ++ [move]) =
      world.requests moves ++ (Transition.mk (world.afterAll moves) move).orders.started := by
  rw [requests, run_concat, List.flatMap_append, List.flatMap_singleton]
  rfl

theorem spawns_concat (moves : List Move) (move : Move) :
    world.spawns (moves ++ [move]) =
      world.spawns moves ++ (Transition.mk (world.afterAll moves) move).spawns := by
  rw [spawns, run_concat, List.flatMap_append, List.flatMap_singleton]
  rfl

end World

theorem length_eq_filterMap_add {α β : Type} (f : α → Option β) (items : List α) :
    items.length = (items.filterMap f).length + items.countP (fun item => (f item).isNone) := by
  rw [List.length_filterMap_eq_countP, List.length_eq_countP_add_countP fun item => (f item).isSome]
  congr 2
  funext item
  cases f item <;> rfl

/-- What a run so far has come to: requests that were spawned under numbers of their own, each of
them started at most once. -/
structure Retried (run : List Transition) (requests : List Request) (spawns : List Spawn)
    (world : World) : Prop where
  symbols_eq : spawns.filterMap Spawn.symbol = world.controller.seeded
  symbols_nodup : world.controller.seeded.Nodup
  numbers_nodup : (spawns.map Spawn.number).Nodup
  number_lt : ∀ spawn ∈ spawns, spawn.number < world.controller.nextJob
  subperm : (requests.filterMap Request.job? ++ world.queued).Subperm (spawns.map Spawn.number)
  elapsed_le : spawns.countP (·.symbol.isNone) ≤ run.countP Transition.elapses
  called_le : requests.countP (·.job?.isNone) ≤ run.countP Transition.refreshes

namespace Retried

variable {run : List Transition} {requests : List Request} {spawns : List Spawn}
  {transition : Transition} {orders : Orders} {queued : List Nat} {seeds : Seeds}
  (retried : Retried run requests spawns transition.before)
  (deals : transition.Deals orders queued seeds)

include retried deals

theorem symbols_step :
    (spawns ++ orders.spawns transition.symbol?).filterMap Spawn.symbol = seeds.symbols ∧
      seeds.symbols.Nodup := by
  have kept : spawns.filterMap Spawn.symbol = transition.before.controller.seeds.symbols ∧
      transition.before.controller.seeds.symbols.Nodup :=
    ⟨retried.symbols_eq, retried.symbols_nodup⟩
  cases deals with
  | elapse elapses =>
      simpa [Orders.spawns, Transition.symbol?_of_elapses elapses] using kept
  | seed name reported new =>
      refine ⟨by simp [Orders.spawns, reported, retried.symbols_eq], ?_⟩
      refine List.nodup_append.2 ⟨retried.symbols_nodup, by simp, ?_⟩
      rintro symbol mem other last rfl
      exact new (List.mem_singleton.1 last ▸ mem)
  | rest | drop | start | refresh => simpa [Orders.spawns] using kept

theorem numbers_nodup_step :
    (spawns.map Spawn.number ++ orders.spawned).Nodup := by
  cases deals with
  | elapse | seed =>
      -- The number of the next job is above all that were given.
      refine List.nodup_append.2 ⟨retried.numbers_nodup, by simp, ?_⟩
      rintro number mem fresh last rfl
      obtain rfl := List.mem_singleton.1 last
      obtain ⟨spawn, mem, same⟩ := List.mem_map.1 mem
      exact Nat.ne_of_lt (retried.number_lt spawn mem) same
  | rest | drop | start | refresh => simpa using retried.numbers_nodup

/-- A spawned request that starts is one of those that were left, and so is one that is dropped. -/
theorem subperm_step :
    ((requests ++ orders.started).filterMap Request.job? ++ (queued ++ orders.spawned)).Subperm
      (spawns.map Spawn.number ++ orders.spawned) := by
  have subperm := retried.subperm
  cases deals with
  | rest => simpa using subperm
  | elapse | seed =>
      rw [List.append_nil, ← List.append_assoc]
      exact subperm.append (.refl _)
  | drop number _ perm =>
      rw [List.append_nil, List.append_nil, List.append_nil]
      have fewer : queued.Subperm transition.before.queued :=
        (List.sublist_cons_self number queued).subperm.trans perm.symm.subperm
      exact ((List.Subperm.refl _).append fewer).trans subperm
  | start number _ request perm asker_eq =>
      have asked : [request].filterMap Request.job? = [number] := by
        simp [Request.job?, asker_eq]
      rw [List.append_nil, List.append_nil, List.filterMap_append, asked, List.append_assoc]
      exact (perm.symm.append_left _).subperm.trans subperm
  | refresh caller request _ asker_eq =>
      have unasked : [request].filterMap Request.job? = [] := by
        simp [Request.job?, asker_eq]
      rw [List.append_nil, List.append_nil, List.filterMap_append, unasked, List.append_nil]
      exact subperm

theorem elapsed_le_step :
    (spawns ++ orders.spawns transition.symbol?).countP
        (·.symbol.isNone) ≤
      (run ++ [transition]).countP Transition.elapses := by
  have elapsed_le := retried.elapsed_le
  rw [List.countP_append, List.countP_append]
  refine Nat.add_le_add elapsed_le ?_
  cases deals with
  | elapse elapses => simp [Orders.spawns, Transition.symbol?_of_elapses elapses, elapses]
  | seed name reported => simp [Orders.spawns, reported]
  | rest | drop | start | refresh => simp [Orders.spawns]

theorem called_le_step :
    (requests ++ orders.started).countP (·.job?.isNone) ≤
      (run ++ [transition]).countP Transition.refreshes := by
  rw [List.countP_append, List.countP_append]
  refine Nat.add_le_add retried.called_le ?_
  cases deals with
  | start number _ request perm asker_eq => simp [Request.job?, asker_eq]
  | refresh caller request refreshes asker_eq => simp [Request.job?, asker_eq, refreshes]
  | rest | drop | elapse | seed => simp

end Retried

namespace World

theorem retried_start (setup : Setup) : Retried [] [] [] (start setup) where
  symbols_eq := rfl
  symbols_nodup := .nil
  numbers_nodup := .nil
  number_lt := nofun
  subperm := .refl _
  elapsed_le := Nat.le_refl 0
  called_le := Nat.le_refl 0

theorem retried_move {transition : Transition} {run : List Transition} {requests : List Request}
    {spawns : List Spawn} (sound : transition.before.Sound)
    (retried : Retried run requests spawns transition.before) :
    Retried (run ++ [transition]) (requests ++ transition.orders.started)
      (spawns ++ transition.spawns) transition.after := by
  obtain ⟨queued, deals, perm, spawned_lt⟩ := renews_move sound transition.move
  have numbers_eq : (spawns ++ transition.spawns).map Spawn.number =
      spawns.map Spawn.number ++ transition.orders.spawned := by
    simp [Transition.spawns, Orders.spawns, Function.comp_def]
  obtain ⟨symbols_eq, symbols_nodup⟩ := retried.symbols_step deals
  refine ⟨symbols_eq, symbols_nodup, ?_, ?_, ?_, retried.elapsed_le_step deals,
    retried.called_le_step deals⟩
  · rw [numbers_eq]
    exact retried.numbers_nodup_step deals
  · intro spawn mem
    rcases List.mem_append.1 mem with old | new
    · exact Nat.lt_of_lt_of_le (retried.number_lt spawn old)
        (nextJob_le_move sound transition.move)
    · obtain ⟨number, given, rfl⟩ := List.mem_map.1 new
      exact spawned_lt number given
  · rw [numbers_eq]
    exact ((perm.append_left _).subperm).trans (retried.subperm_step deals)

theorem retried_afterAll (setup : Setup) (moves : List Move) :
    Retried ((start setup).run moves) ((start setup).requests moves) ((start setup).spawns moves)
      ((start setup).afterAll moves) := by
  induction moves using List.reverseRecOn with
  | nil => exact retried_start setup
  | append_singleton moves move ih =>
      rw [run_concat, requests_concat, spawns_concat, afterAll_concat]
      exact retried_move (drafted_run setup moves).1.steady.sound ih

end World

namespace Retried

variable {run : List Transition} {requests : List Request} {spawns : List Spawn} {world : World}
  (retried : Retried run requests spawns world)

include retried

theorem length_asked_le :
    (requests.filterMap Request.job?).length ≤ spawns.length := by
  have le := retried.subperm.length_le
  rw [List.length_append, List.length_map] at le
  exact Nat.le_trans (Nat.le_add_right _ _) le

theorem length_le :
    requests.length ≤ run.countP Transition.refreshes + run.countP Transition.elapses +
      world.controller.seeded.length := by
  have asked := retried.length_asked_le
  have elapsed := retried.elapsed_le
  have called := retried.called_le
  have seeded := congrArg List.length retried.symbols_eq
  rw [length_eq_filterMap_add Request.job? requests]
  rw [length_eq_filterMap_add Spawn.symbol spawns, seeded] at asked
  omega

theorem origin : ∀ request ∈ requests, (∃ caller, request.asker = .caller caller) ∨
    ∃ spawn ∈ spawns, request.asker = .job spawn.number := by
  intro request mem
  cases asker : request.asker with
  | caller caller => exact .inl ⟨caller, rfl⟩
  | job number =>
      have asked : number ∈ requests.filterMap Request.job? :=
        List.mem_filterMap.2 ⟨request, mem, by simp [Request.job?, asker]⟩
      have known := retried.subperm.subset (List.mem_append_left _ asked)
      obtain ⟨spawn, mem, rfl⟩ := List.mem_map.1 known
      exact .inr ⟨spawn, mem, rfl⟩

theorem asked_nodup : (requests.filterMap Request.job?).Nodup := by
  obtain ⟨numbers, perm, sublist⟩ := retried.subperm
  have nodup := perm.nodup_iff.1 (retried.numbers_nodup.sublist sublist)
  exact nodup.sublist (List.sublist_append_left _ _)

/-- At most one request is spawned for a symbol, since it is seeded only once. -/
theorem length_spawns_for_le (name : String) :
    (spawns.filter fun spawn => spawn.symbol == some name).length ≤ 1 := by
  rw [← List.countP_eq_length_filter, ← List.count_filterMap, retried.symbols_eq]
  exact List.nodup_iff_count_le_one.1 retried.symbols_nodup name

theorem length_retries_le (name : String) :
    (requests.filter (·.retries spawns name)).length ≤ 1 := by
  have numbered : ∀ request ∈ requests.filter (·.retries spawns name),
      ∃ spawn ∈ spawns.filter fun spawn => spawn.symbol == some name,
        request.job? = some spawn.number := by
    intro request mem
    obtain ⟨spawn, mem, symbol, asker⟩ := Request.retries_iff.1 (List.mem_filter.1 mem).2
    exact ⟨spawn, by simp [mem, symbol], by rw [Request.job?, asker]⟩
  have nodup := retried.asked_nodup.sublist
    ((List.filter_sublist (p := (·.retries spawns name))).filterMap Request.job?)
  have spawned : (requests.filter (·.retries spawns name)).filterMap Request.job? ⊆
      (spawns.filter fun spawn => spawn.symbol == some name).map Spawn.number := by
    intro number mem
    obtain ⟨request, mem, asked⟩ := List.mem_filterMap.1 mem
    obtain ⟨spawn, known, job⟩ := numbered request mem
    exact List.mem_map.2 ⟨spawn, known, Option.some.inj (job.symm.trans asked)⟩
  calc (requests.filter (·.retries spawns name)).length
      = ((requests.filter (·.retries spawns name)).filterMap Request.job?).length := by
        rw [List.length_filterMap_eq_countP, eq_comm, List.countP_eq_length]
        intro request mem
        obtain ⟨spawn, -, job⟩ := numbered request mem
        rw [job, Option.isSome_some]
    _ ≤ ((spawns.filter fun spawn => spawn.symbol == some name).map Spawn.number).length :=
        (nodup.subperm spawned).length_le
    _ ≤ 1 := by
        rw [List.length_map]
        exact retried.length_spawns_for_le name

end Retried

/-! ## Seeded symbols are carried on -/

theorem Controller.get?_requestOptions {controller : Controller} {name : String}
    (mem : name ∈ controller.seeded) :
    Named.get? "stubs" controller.requestOptions = some (.ofStrings controller.seeded) := by
  rw [requestOptions, if_neg (by simpa using List.ne_nil_of_mem mem)]
  exact Named.get?_put_self ..

namespace Transition

variable {transition : Transition} {orders : Orders} {queued : List Nat} {seeds : Seeds}

theorem Deals.autoStub_eq (deals : transition.Deals orders queued seeds) :
    seeds.autoStub = transition.before.controller.autoStub := by
  cases deals <;> rfl

theorem Deals.subset (deals : transition.Deals orders queued seeds) :
    transition.before.controller.seeded ⊆ seeds.symbols := by
  cases deals with
  | seed => exact List.subset_append_left _ _
  | rest | elapse | drop | start | refresh => exact List.Subset.refl _

theorem Deals.options_eq (deals : transition.Deals orders queued seeds) :
    ∀ request ∈ orders.started,
      request.options = transition.before.controller.requestOptions := by
  intro request mem
  cases deals with
  | start _ _ started _ _ options_eq | refresh _ started _ _ options_eq =>
      obtain rfl := List.mem_singleton.1 mem
      exact options_eq
  | rest | elapse | seed | drop => cases mem

/-- With stubs on, the symbol of an error that is accepted is seeded. -/
theorem seeded_of_symbol (sound : transition.before.Sound)
    (on : transition.before.controller.autoStub = true) {name : String}
    (reported : transition.symbol? = some name) :
    name ∈ transition.after.controller.seeded := by
  obtain ⟨before, move⟩ := transition
  cases move with
  | message message =>
      have seeded : (World.move before (.message message)).1.controller.seeded =
          (before.controller.handle message).seeded := by
        rw [World.move, World.act_controller]
      rw [after, seeded]
      have handled := Controller.handled_handle sound.silent sound.numbered message
      cases handled with
      | seed other named _ seeds_eq =>
          obtain rfl : other = name := Option.some.inj (named.symm.trans reported)
          rw [show (before.controller.handle message).seeded = _ from
            congrArg Seeds.symbols seeds_eq]
          exact List.mem_append_right _ (List.mem_singleton_self _)
      | rest known seeds_eq =>
          rw [show (before.controller.handle message).seeded = _ from
            congrArg Seeds.symbols seeds_eq]
          exact known on name reported
  | _ => cases reported

end Transition

namespace World

variable {world : World}

theorem autoStub_run (sound : world.Sound) (moves : List Move) :
    ∀ transition ∈ world.run moves, transition.before.Sound ∧
      transition.before.controller.autoStub = world.controller.autoStub := by
  refine (invariant (motive := fun other => other.Sound ∧
    other.controller.autoStub = world.controller.autoStub) ?_ moves ⟨sound, rfl⟩).2
  rintro other move ⟨sound, same⟩
  obtain ⟨queued, renews⟩ := renews_move sound move
  exact ⟨sound_move sound move, renews.deals.autoStub_eq.trans same⟩

theorem seeded_run (sound : world.Sound) {name : String} (mem : name ∈ world.controller.seeded)
    (moves : List Move) :
    ∀ transition ∈ world.run moves, transition.before.Sound ∧
      name ∈ transition.before.controller.seeded := by
  refine (invariant (motive := fun other => other.Sound ∧ name ∈ other.controller.seeded) ?_
    moves ⟨sound, mem⟩).2
  rintro other move ⟨sound, mem⟩
  obtain ⟨queued, renews⟩ := renews_move sound move
  exact ⟨sound_move sound move, renews.deals.subset mem⟩

/-- What has been seeded is sent with every request from then on. -/
theorem stubs_of_seeded (sound : world.Sound) {name : String}
    (mem : name ∈ world.controller.seeded) (moves : List Move) :
    ∀ request ∈ world.requests moves, ∃ names,
      Named.get? "stubs" request.options = some (.ofStrings names) ∧ name ∈ names := by
  intro request started
  obtain ⟨transition, run, started⟩ := List.mem_flatMap.1 started
  obtain ⟨sound, mem⟩ := seeded_run sound mem moves transition run
  obtain ⟨queued, renews⟩ := renews_move sound transition.move
  rw [renews.deals.options_eq request started]
  exact ⟨_, Controller.get?_requestOptions mem, mem⟩

/-- In every run no symbol is seeded twice and one request is spawned for each, and no more requests
start than refreshes come to one, debounces elapse and symbols are seeded. However often a symbol is
reported, at most one request starts for it, and from when it is seeded every request has it among
its stubs. With stubs on, every symbol of an error that is accepted is seeded. -/
theorem retries_are_bounded (setup : Setup) (moves : List Move) :
    ((start setup).afterAll moves).controller.seeded.Nodup ∧
    ((start setup).spawns moves).filterMap Spawn.symbol =
      ((start setup).afterAll moves).controller.seeded ∧
    ((start setup).requests moves).length ≤
      ((start setup).run moves).countP Transition.refreshes +
        ((start setup).run moves).countP Transition.elapses +
        ((start setup).afterAll moves).controller.seeded.length ∧
    (∀ request ∈ (start setup).requests moves, (∃ caller, request.asker = .caller caller) ∨
      ∃ spawn ∈ (start setup).spawns moves, request.asker = .job spawn.number) ∧
    (∀ name, ((start setup).retries moves name).length ≤ 1) ∧
    (∀ earlier later, moves = earlier ++ later →
      ∀ name ∈ ((start setup).afterAll earlier).controller.seeded,
        ∀ request ∈ ((start setup).afterAll earlier).requests later, ∃ names,
          Named.get? "stubs" request.options = some (.ofStrings names) ∧ name ∈ names) ∧
    (setup.autoStub = true → ∀ transition ∈ (start setup).run moves, ∀ name,
      transition.symbol? = some name → name ∈ transition.after.controller.seeded) := by
  have retried := retried_afterAll setup moves
  refine ⟨retried.symbols_nodup, retried.symbols_eq, retried.length_le, retried.origin,
    retried.length_retries_le, ?_, ?_⟩
  · rintro earlier later - name mem
    exact stubs_of_seeded (drafted_run setup earlier).1.steady.sound mem later
  · intro on transition mem name reported
    obtain ⟨sound, same⟩ := autoStub_run (sound_start setup) moves transition mem
    exact Transition.seeded_of_symbol sound (same.trans on) reported

/-- An error that reports the same symbol for a version. -/
def report (version : Int) : Move :=
  .message ⟨"s", some version, .error ⟨"Card is not defined", none, none, none, none, none⟩⟩

/-- A symbol is reported for a version and again for its retry, and then there is a refresh. -/
def repeatedReports : List Move :=
  [.edit "a", .work 0, .pass 1000000, .work 0, .work 0, report 1, .work 0, report 2, .refresh "",
    .work 0]

theorem repeated_reports_are_retried_once :
    ((start { session := "s" }).retries repeatedReports "Card").length ≤ 1 ∧
    (∃ transition ∈ (start { session := "s" }).run repeatedReports,
      transition.symbol? = some "Card" ∧ "Card" ∈ transition.after.controller.seeded) ∧
    ∃ request ∈ (start { session := "s" }).requests repeatedReports,
      request.version = 3 ∧ ∃ names,
        Named.get? "stubs" request.options = some (.ofStrings names) ∧ "Card" ∈ names := by
  obtain ⟨-, -, -, -, once, sent, seeded⟩ :=
    retries_are_bounded { session := "s" } repeatedReports
  refine ⟨once "Card", ⟨_, List.mem_of_getElem? (i := 5) rfl, rfl, ?_⟩,
    ⟨_, List.mem_of_getElem? (i := 2) rfl, rfl, ?_⟩⟩
  · exact seeded rfl _ (List.mem_of_getElem? (i := 5) rfl) "Card" rfl
  · exact sent (repeatedReports.take 6) (repeatedReports.drop 6) rfl "Card"
      (List.mem_singleton_self _) _ (List.mem_of_getElem? (i := 1) rfl)

end World

end ComponentPreview
