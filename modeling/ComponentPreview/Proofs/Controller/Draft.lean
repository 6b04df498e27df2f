import ComponentPreview.Proofs.Controller.Task

/-!
# Drafts

Source that was taken waits in a debounce, then in a request that was spawned, until a request with
it starts. The desk of a world is what there is of that, and most moves leave it as it is.
-/

namespace ComponentPreview

namespace Job

/-- The debounce whose time a job begins or ends. -/
def debounce? : Job → Option Nat
  | openDebounce number | closeDebounce number => some number
  | _ => none

def isRequest : Job → Bool
  | request _ => true
  | _ => false

def isRefresh : Job → Bool
  | refresh _ => true
  | _ => false

/-- Whether a job is for the debounce in force. -/
def isFor (debounce : Option Nat) (job : Job) : Bool :=
  job.debounce?.isSome && job.debounce? == debounce

theorem isFor_some {number : Nat} {job : Job} :
    job.isFor (some number) = true ↔ job.debounce? = some number := by
  cases h : job.debounce? <;> simp [isFor, h]

theorem isFor_none (job : Job) : job.isFor none = false := by
  cases h : job.debounce? <;> simp [isFor, h]

theorem isFor_of_ne {number : Nat} {debounce : Option Nat} {job : Job}
    (h : job.debounce? = some number) (other : debounce ≠ some number) :
    job.isFor debounce = false := by
  rw [isFor, h, Option.isSome_some, Bool.true_and, beq_eq_false_iff_ne]
  exact other.symm

theorem number?_of_debounce? {job : Job} {number : Nat} (h : job.debounce? = some number) :
    job.number? = some number := by
  cases job <;> simp_all [debounce?, number?]

end Job

namespace Notice

/-- Whether a notice neither hurries a debounce nor gives a job for one, and calls for no
refresh. -/
def LeavesDraft (debounce : Option Nat) : Notice → Prop
  | post job | hold _ job => job.debounce? = none ∧ job.isRefresh = false
  | hurry number => debounce ≠ some number
  | _ => True

def isSpawn (notice : Notice) : Bool :=
  notice.job?.any Job.isRequest

/-- Whether a notice has to do with no draft at all. -/
def isAside : Notice → Bool
  | post job | hold _ job => job.debounce?.isNone && !job.isRefresh && !job.isRequest
  | hurry _ | requested _ => false
  | _ => true

variable {notice : Notice}

theorem leavesDraft_of_isAside (h : notice.isAside = true) (debounce : Option Nat) :
    notice.LeavesDraft debounce := by
  cases notice <;> simp_all [isAside, LeavesDraft]

theorem requested?_of_isAside (h : notice.isAside = true) : notice.requested? = none := by
  cases notice <;> simp_all [isAside, requested?]

theorem isSpawn_of_isAside (h : notice.isAside = true) : notice.isSpawn = false := by
  cases notice <;> simp_all [isAside, isSpawn, job?]

theorem LeavesDraft.debounce?_eq {debounce : Option Nat} (leaves : notice.LeavesDraft debounce)
    {job : Job} (h : notice.job? = some job) : job.debounce? = none ∧ job.isRefresh = false := by
  cases notice <;> simp_all [job?, LeavesDraft]

end Notice

namespace Controller

/-- An operation that starts some requests and spawns others, but leaves the draft and its debounce
alone. -/
structure Aside (requests : List Request) (spawned : Nat) (before after : Controller) : Prop where
  objection_eq : after.objection = before.objection
  code_eq : after.code = before.code
  isClosed_eq : after.isClosed = before.isClosed
  debounce_eq : after.debounce = before.debounce
  nextJob_le : before.nextJob ≤ after.nextJob
  adds : ∃ notices, after.notices = before.notices ++ notices ∧
    (∀ notice ∈ notices, notice.LeavesDraft before.debounce) ∧
    notices.filterMap Notice.requested? = requests ∧ notices.countP Notice.isSpawn = spawned

namespace Aside

variable {first second third : Controller} {requests requests' : List Request}
  {spawned spawned' : Nat}

theorem of_eq (objection_eq : second.objection = first.objection)
    (code_eq : second.code = first.code) (isClosed_eq : second.isClosed = first.isClosed)
    (debounce_eq : second.debounce = first.debounce) (nextJob_eq : second.nextJob = first.nextJob)
    (notices_eq : second.notices = first.notices) : Aside [] 0 first second :=
  ⟨objection_eq, code_eq, isClosed_eq, debounce_eq, Nat.le_of_eq nextJob_eq.symm, [],
    by simp [notices_eq]⟩

theorem refl (controller : Controller) : Aside [] 0 controller controller :=
  of_eq rfl rfl rfl rfl rfl rfl

theorem trans (left : Aside requests spawned first second)
    (right : Aside requests' spawned' second third) :
    Aside (requests ++ requests') (spawned + spawned') first third where
  objection_eq := right.objection_eq.trans left.objection_eq
  code_eq := right.code_eq.trans left.code_eq
  isClosed_eq := right.isClosed_eq.trans left.isClosed_eq
  debounce_eq := right.debounce_eq.trans left.debounce_eq
  nextJob_le := Nat.le_trans left.nextJob_le right.nextJob_le
  adds := by
    obtain ⟨earlier, earlier_eq, leaves, requests_eq, spawned_eq⟩ := left.adds
    obtain ⟨later, later_eq, leaves', requests_eq', spawned_eq'⟩ := right.adds
    rw [left.debounce_eq] at leaves'
    refine ⟨earlier ++ later, by rw [later_eq, earlier_eq, List.append_assoc], ?_, ?_, ?_⟩
    · intro notice mem
      exact (List.mem_append.1 mem).elim (leaves notice) (leaves' notice)
    · rw [List.filterMap_append, requests_eq, requests_eq']
    · rw [List.countP_append, spawned_eq, spawned_eq']

/-- Followed by an operation that starts and spawns nothing. -/
theorem andThen (left : Aside requests spawned first second) (right : Aside [] 0 second third) :
    Aside requests spawned first third := by
  simpa using left.trans right

theorem note (aside : Aside requests spawned first second) {notice : Notice}
    (h : notice.isAside = true) : Aside requests spawned first (second.note notice) := by
  refine aside.andThen ⟨rfl, rfl, rfl, rfl, Nat.le_refl _, [notice], rfl, ?_, ?_, ?_⟩
  · simpa using Notice.leavesDraft_of_isAside h _
  · simpa using Notice.requested?_of_isAside h
  · simp [Notice.isSpawn_of_isAside h]

end Aside

variable {controller : Controller}

/-- Hurrying a deadline leaves the debounce in force alone. -/
theorem Numbered.leaves_hurry (numbered : controller.Numbered) :
    ∀ notice ∈ (controller.deadline.map Notice.hurry).toList,
      notice.LeavesDraft controller.debounce := by
  intro notice mem
  obtain ⟨number, armed, rfl⟩ := Option.map_eq_some_iff.1 (Option.mem_toList.1 mem)
  exact numbered.apart number armed

theorem filterMap_hurry (number : Option Nat) :
    (number.map Notice.hurry).toList.filterMap Notice.requested? = [] := by
  cases number <;> rfl

theorem countP_hurry (number : Option Nat) :
    (number.map Notice.hurry).toList.countP Notice.isSpawn = 0 := by
  cases number <;> rfl

/-- The deadline in force is called off, and then all is told. -/
theorem Aside.of_told (numbered : controller.Numbered) {after : Controller} {told : List Notice}
    {requests : List Request}
    (bare : Aside [] 0 controller { after with notices := controller.notices })
    (notices_eq : after.notices =
      controller.notices ++ (controller.deadline.map Notice.hurry).toList ++ told)
    (leaves : ∀ notice ∈ told, notice.LeavesDraft controller.debounce)
    (requests_eq : told.filterMap Notice.requested? = requests)
    (unspawned : told.countP Notice.isSpawn = 0) : Aside requests 0 controller after where
  objection_eq := bare.objection_eq
  code_eq := bare.code_eq
  isClosed_eq := bare.isClosed_eq
  debounce_eq := bare.debounce_eq
  nextJob_le := bare.nextJob_le
  adds := by
    refine ⟨_, notices_eq.trans (List.append_assoc _ _ _), ?_, ?_, ?_⟩
    · intro notice mem
      exact (List.mem_append.1 mem).elim (numbered.leaves_hurry notice) (leaves notice)
    · rw [List.filterMap_append, filterMap_hurry, requests_eq, List.nil_append]
    · rw [List.countP_append, countP_hurry, unspawned]

variable (controller)

theorem aside_foldl_attend (waiters : List Waiter) :
    Aside [] 0 controller (waiters.foldl
      (fun controller waiter => controller.note (.post (.attend waiter.name))) controller) := by
  induction waiters generalizing controller with
  | nil => exact .refl _
  | cons waiter waiters ih => exact ((Aside.refl controller).note rfl).andThen (ih _)

theorem aside_finish (number : Nat) (breakdown : Option Breakdown) :
    Aside [] 0 controller (controller.finish number breakdown) := by
  unfold finish
  refine Aside.andThen ?_ (aside_foldl_attend _ _)
  split
  · refine Aside.note ?_ rfl
    exact .of_eq rfl rfl rfl rfl rfl rfl
  · exact .of_eq rfl rfl rfl rfl rfl rfl

theorem aside_endFor (breakdown : Option Breakdown) (asker : Asker) :
    Aside [] 0 controller (controller.endFor breakdown asker) := by
  cases asker with
  | job number => exact controller.aside_finish number breakdown
  | caller name => exact (Aside.refl controller).note rfl

theorem aside_spawn : Aside [] 1 controller controller.spawn := by
  refine ⟨rfl, rfl, rfl, rfl, Nat.le_succ _, [.post (.request controller.nextJob)], rfl, ?_, rfl,
    rfl⟩
  intro notice mem
  obtain rfl := List.mem_singleton.1 mem
  exact ⟨rfl, rfl⟩

variable {controller}

theorem aside_request (numbered : controller.Numbered) (asker : Asker) {code : String}
    (h : controller.code = some code) :
    Aside [⟨code, controller.version + 1, controller.requestOptions, asker⟩] 0 controller
      (controller.request asker) := by
  rw [controller.request_eq asker h]
  refine .of_told numbered (.of_eq rfl rfl rfl rfl rfl rfl) rfl ?_ rfl rfl
  intro notice mem
  simp only [List.mem_cons, List.not_mem_nil, or_false] at mem
  rcases mem with rfl | rfl <;> trivial

theorem aside_fail (numbered : controller.Numbered) (kind : FailureKind) (message : Json)
    (version : Nat) (suggestions : List Json) :
    Aside [] 0 controller (controller.fail kind message version suggestions) := by
  by_cases failed : version ∈ controller.failed
  · rw [controller.fail_of_mem failed]
    exact .refl _
  rw [controller.fail_eq failed]
  refine .of_told numbered (.of_eq rfl rfl rfl rfl rfl rfl) rfl ?_ ?_ ?_
  · intro notice mem
    split at mem
    · obtain rfl := List.mem_singleton.1 mem
      trivial
    · cases mem
  · split <;> rfl
  · split <;> rfl

theorem aside_display (version : Nat) : Aside [] 0 controller (controller.display version) := by
  rw [controller.display_eq]
  refine ⟨rfl, rfl, rfl, rfl, Nat.le_succ _, _,
    by rw [List.append_assoc, List.append_assoc], ?_, ?_, ?_⟩
  · intro notice mem
    refine Notice.leavesDraft_of_isAside ?_ _
    split at mem <;> simp at mem <;> rcases mem with rfl | rfl | rfl <;> rfl
  · split <;> rfl
  · split <;> rfl

theorem aside_accept (version : Nat) (body : Json) :
    Aside [] 0 controller (controller.accept version body) := by
  rw [accept_eq]
  split
  · exact .of_eq rfl rfl rfl rfl rfl rfl
  · next limits _ =>
      have taken : Aside [] 0 controller (controller.takeOver body limits) :=
        .of_eq rfl rfl rfl rfl rfl rfl
      split
      · refine (taken.andThen ?_).note rfl
        exact .of_eq rfl rfl rfl rfl rfl rfl
      · exact taken.andThen (aside_display version)

theorem aside_receive (numbered : controller.Numbered) (version : Nat) (answer : Answer) :
    Aside [] 0 controller (controller.receive version answer) := by
  rcases controller.receive_cases version answer with
    ⟨body, rfl, welcome⟩ | same | ⟨-, -, -, kind, message, suggestions, failing⟩
  · rw [controller.receive_of_welcome welcome]
    exact aside_accept version body
  · rw [same]
    exact .refl _
  · rw [failing]
    exact aside_fail numbered kind message version suggestions

theorem aside_seed (controller : Controller) (message : String) :
    ∃ spawned, Aside [] spawned controller (controller.seed message) := by
  rcases controller.seed_cases message with same | ⟨name, seeds⟩
  · rw [same]
    exact ⟨0, .refl _⟩
  · have seeded : Aside [] 0 controller
        { controller with seeded := controller.seeded ++ [name] } :=
      .of_eq rfl rfl rfl rfl rfl rfl
    rw [seeds]
    exact ⟨_, seeded.trans (aside_spawn _)⟩

theorem aside_handle (numbered : controller.Numbered) (message : LifecycleMessage) :
    ∃ spawned, Aside [] spawned controller (controller.handle message) := by
  rcases controller.handle_cases message with
    same | ⟨name, timestamp, -, -, -, ready⟩ | ⟨error, -, -, fails⟩
  · rw [same]
    exact ⟨0, .refl _⟩
  · rw [ready, ready_eq]
    refine ⟨0, .of_told numbered (.of_eq rfl rfl rfl rfl rfl rfl) rfl ?_ rfl rfl⟩
    intro notice mem
    obtain rfl := List.mem_singleton.1 mem
    trivial
  · rw [fails]
    obtain ⟨spawned, seeded⟩ := aside_seed
      (controller.fail .runtime (.str error.message) controller.version []) error.message
    refine ⟨spawned, ?_⟩
    simpa using (aside_fail numbered _ _ _ _).trans seeded

theorem aside_fullscreen : Aside [] 0 controller controller.fullscreen := by
  unfold fullscreen
  split
  · exact .refl _
  · refine Aside.note ?_ rfl
    exact .of_eq rfl rfl rfl rfl rfl rfl

theorem aside_await (waiter : String) (poll : Int) :
    Aside [] 0 controller (controller.await waiter poll) :=
  .of_eq rfl rfl rfl rfl rfl rfl

theorem aside_openDeadline (number version : Nat) :
    Aside [] 0 controller (controller.openDeadline number version) := by
  unfold openDeadline
  split
  · exact (Aside.refl _).note rfl
  · exact .refl _

theorem aside_closeDeadline (numbered : controller.Numbered) (number version : Nat) :
    Aside [] 0 controller (controller.closeDeadline number version) := by
  have disarmed : Aside [] 0 controller { controller with deadline := none } :=
    .of_eq rfl rfl rfl rfl rfl rfl
  rcases controller.closeDeadline_cases number version with
    same | disarms | ⟨-, -, -, -, fails⟩
  · rw [same]
    exact .refl _
  · rw [disarms]
    exact disarmed
  · rw [fails]
    refine disarmed.andThen (aside_fail ?_ _ _ _ _)
    exact ⟨by simp, numbered.debounce_lt, by simp⟩

theorem aside_attend (name : String) : Aside [] 0 controller (controller.attend name) := by
  obtain ⟨waiters, told, attends, attend_eq⟩ := controller.attend_cases name
  have set : Aside [] 0 controller { controller with waiters } := .of_eq rfl rfl rfl rfl rfl rfl
  rw [attend_eq]
  cases attends with
  | nothing =>
      rw [List.append_nil]
      exact set
  | later | gaveUp | settled => exact set.note rfl

end Controller

end ComponentPreview
