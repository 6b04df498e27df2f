import ComponentPreview.Proofs.Controller.Stance
import ComponentPreview.Proofs.Lifecycle.Bus
import ComponentPreview.Proofs.Schedule
import ComponentPreview.Terminal.Program

/-!
# Watching a file

While a program watches its file and nobody quits, all errands but those that read or write the
file go on with what it has read: they leave the source and the file alone, give up no work, and
what they call for is the source that the controller has.
-/

namespace ComponentPreview

open Controller (IsVerdict)

/-- What can happen without an end to the watching and without a change to another file. -/
def Happening.IsPlain (path : String) : Happening → Prop
  | write name _ | delete name => name = path
  | line text => text ≠ some "q"
  | frame _ | hangUp => True
  | interrupt => False

def Happening.isWrite : Happening → Bool
  | write .. => true
  | _ => false

namespace Errand

def isWrite : Errand → Bool
  | .happening fact => fact.isWrite
  | _ => false

def isReply : Errand → Bool
  | reply .. => true
  | _ => false

/-- Whether an errand reads or changes files. -/
def touchesFiles : Errand → Bool
  | start | look | happening (.write ..) | happening (.delete _) => true
  | _ => false

theorem isWrite_of_isNumber {errand : Errand} {number : Nat}
    (meant : errand.isNumber number = true) : errand.isWrite = false := by
  cases errand with
  | happening => cases meant
  | _ => rfl

end Errand

namespace Terminal

/-- What errands a program has that watches since `start`. -/
def Befits (start : Terminal) : Errand → Prop
  | .control job => job.isAnswer = false
  | .reply request outcome =>
      IsVerdict Report.objection (start.answerOf request outcome.delivery)
  | .happening happening => happening.IsPlain start.path
  | _ => True

/-- A program whose file may be missing, whose requests are all answered with verdicts, and whose
session is open, with nobody waiting. -/
structure Hosts (service : Service) (start : Terminal) : Prop where
  isServing : start.controller.IsServing
  objection_eq : start.controller.objection = Report.objection
  missing : File.locate start.path (start.files.filter (·.name != start.path)) =
    .error (.missing start.path)
  verdicts : ∀ now request, IsVerdict Report.objection
    (start.answerOf request (service now (start.callOf request)).delivery)

/-- A program that watches since `start`. -/
structure Watches (start terminal : Terminal) : Prop where
  command_eq : terminal.command = .watch
  path_eq : terminal.path = start.path
  client_eq : terminal.client = start.client
  stance_eq : terminal.controller.stance = start.controller.stance
  silent : terminal.controller.notices = []
  uninterrupted : terminal.isInterrupted = false
  unended : terminal.ending = none
  noQuit : some "q" ∉ terminal.lines.items
  others_eq : terminal.files.filter (·.name != start.path) =
    start.files.filter (·.name != start.path)
  befits : terminal.schedule.All (Befits start)
  ordered : terminal.schedule.Ordered

/-- Whether the newest call was for the source that the controller has. -/
def Sent (terminal : Terminal) : Prop :=
  ∃ call, terminal.calls.getLast? = some call ∧ terminal.controller.code = some call.code

/-- A move of a watching program that leaves the files alone and gives up no work. -/
structure Moves (start before after : Terminal) : Prop where
  watches : Watches start after
  continues : Schedule.Continues (Befits start) Errand.isWrite before.schedule after.schedule
  files_eq : after.files = before.files

/-- A move that goes on with what was read. -/
structure GoesOn (start before after : Terminal) : Prop extends Moves start before after where
  seen_eq : after.seen = before.seen
  code_eq : after.controller.code = before.controller.code
  sends : after.Sent ∨ after.calls = before.calls ∧
    (after.controller.debounce = before.controller.debounce ∨
      ∃ number, after.schedule.DueBy after.schedule.now (.control (.request number)))

variable {service : Service} {start terminal first second third : Terminal}

theorem Moves.trans (left : Moves start first second) (right : Moves start second third) :
    Moves start first third where
  watches := right.watches
  continues := left.continues.trans right.continues
  files_eq := right.files_eq.trans left.files_eq

theorem Sent.of_eq (sent : first.Sent) (calls_eq : second.calls = first.calls)
    (code_eq : second.controller.code = first.controller.code) : second.Sent := by
  rw [Sent, calls_eq, code_eq]
  exact sent

theorem GoesOn.trans (left : GoesOn start first second) (right : GoesOn start second third) :
    GoesOn start first third where
  toMoves := left.toMoves.trans right.toMoves
  seen_eq := right.seen_eq.trans left.seen_eq
  code_eq := right.code_eq.trans left.code_eq
  sends := by
    rcases right.sends with sent | ⟨calls_eq, served⟩
    · exact .inl sent
    · rcases left.sends with sent | ⟨calls_eq', served'⟩
      · exact .inl (sent.of_eq calls_eq right.code_eq)
      · refine .inr ⟨calls_eq.trans calls_eq', ?_⟩
        rcases served with debounce_eq | posted
        · rcases served' with debounce_eq' | ⟨number, posted⟩
          · exact .inl (debounce_eq.trans debounce_eq')
          · refine .inr ⟨number, ?_⟩
            rw [right.continues.now_eq]
            exact right.continues.dueBy posted
        · exact .inr posted

/-! ## Taking up notices -/

/-- What a notice leaves a program to do. -/
def IsTold (terminal : Terminal) : Notice → Prop
  | .post job => terminal.schedule.DueBy terminal.schedule.now (.control job)
  | .hold delay job =>
      terminal.schedule.DueBy (terminal.schedule.now + max 0 delay) (.control job)
  | .requested request => ∃ limit outcome, terminal.schedule.DueBy limit (.reply request outcome)
  | _ => True

theorem IsTold.moves {notice : Notice} (told : first.IsTold notice)
    (moves : Moves start first second) : second.IsTold notice := by
  have now_eq := moves.continues.now_eq
  cases notice with
  | post | hold =>
      rw [IsTold, now_eq]
      exact moves.continues.dueBy told
  | requested request =>
      obtain ⟨limit, outcome, pending⟩ := told
      exact ⟨limit, outcome, moves.continues.dueBy pending⟩
  | _ => trivial

/-- What a program makes of notices. -/
structure Heeds (start before : Terminal) (notices : List Notice) (after : Terminal) : Prop
    extends Moves start before after where
  controller_eq : after.controller = before.controller
  seen_eq : after.seen = before.seen
  calls_eq : after.calls = before.calls ++
    (notices.filterMap Notice.requested?).map start.callOf
  told : ∀ notice ∈ notices, after.IsTold notice

section Watching

variable (watches : Watches start terminal)

include watches

theorem Watches.session_eq : terminal.session = start.session :=
  congrArg Stance.session watches.stance_eq

theorem Watches.callOf_eq (request : Request) : terminal.callOf request = start.callOf request := by
  rw [callOf, callOf, watches.session_eq]

theorem Watches.answerOf_eq (request : Request) (delivery : Delivery) :
    terminal.answerOf request delivery = start.answerOf request delivery := by
  rw [answerOf, answerOf, watches.callOf_eq, watches.client_eq]

theorem moves_schedule {schedule : Schedule Errand}
    (continues : Schedule.Continues (Befits start) Errand.isWrite terminal.schedule schedule) :
    Moves start terminal { terminal with schedule } where
  watches := { watches with
    befits := continues.all watches.befits
    ordered := continues.ordered watches.ordered }
  continues := continues
  files_eq := rfl

theorem moves_heed {notice : Notice} (calm : notice.IsCalm) :
    Moves start terminal
      { terminal with schedule := terminal.schedule.heed .control Errand.isNumber notice } := by
  apply moves_schedule watches
  cases notice with
  | post job => exact .post _ calm rfl
  | hold delay job => exact .hold _ delay calm rfl
  | hurry number => exact .hurry _ fun _ => Errand.isWrite_of_isNumber
  | _ => exact .refl _

theorem heeds_request (hosts : Hosts service start) (request : Request) :
    Heeds start terminal [.requested request] (terminal.send service request) := by
  let outcome := service terminal.schedule.now (terminal.callOf request)
  have verdict : Befits start (.reply request outcome) := by
    have verdict := hosts.verdicts terminal.schedule.now request
    rw [← watches.callOf_eq] at verdict
    exact verdict
  have continues : Schedule.Continues (Befits start) Errand.isWrite terminal.schedule
      (terminal.schedule.hold outcome.delay (.reply request outcome)) :=
    .hold _ outcome.delay verdict rfl
  refine ⟨⟨?_, continues, rfl⟩, rfl, rfl, ?_, ?_⟩
  · exact { (moves_schedule watches continues).watches with }
  · exact congrArg (terminal.calls ++ [·]) (watches.callOf_eq request)
  · intro notice mem
    obtain rfl := List.mem_singleton.1 mem
    exact ⟨_, outcome, Schedule.dueBy_of_works (Schedule.works_hold _ _ _) le_rfl⟩

theorem heeds_heed (hosts : Hosts service start) {notice : Notice} (calm : notice.IsCalm) :
    Heeds start terminal [notice] (terminal.heed service notice) := by
  have moves := moves_heed watches calm
  cases notice with
  | post job =>
      refine ⟨moves, rfl, rfl, (List.append_nil _).symm, ?_⟩
      intro notice mem
      obtain rfl := List.mem_singleton.1 mem
      exact terminal.schedule.dueBy_post (.control job)
  | hold delay job =>
      refine ⟨moves, rfl, rfl, (List.append_nil _).symm, ?_⟩
      intro notice mem
      obtain rfl := List.mem_singleton.1 mem
      have held := terminal.schedule.dueBy_hold (.control job) (le_max_right 0 delay)
        (le_max_left 0 delay)
      rw [← terminal.schedule.now_hold delay (.control job)] at held
      exact held
  | requested request => exact heeds_request watches hosts request
  | settled | gaveUp => cases calm
  | _ =>
      refine ⟨⟨{ moves.watches with }, moves.continues, rfl⟩, rfl, rfl,
        (List.append_nil _).symm, ?_⟩
      intro notice mem
      obtain rfl := List.mem_singleton.1 mem
      trivial

end Watching

theorem Heeds.cons {notice : Notice} {notices : List Notice}
    (left : Heeds start first [notice] second) (right : Heeds start second notices third) :
    Heeds start first (notice :: notices) third where
  toMoves := left.toMoves.trans right.toMoves
  controller_eq := right.controller_eq.trans left.controller_eq
  seen_eq := right.seen_eq.trans left.seen_eq
  calls_eq := by
    rw [right.calls_eq, left.calls_eq, List.append_assoc, ← List.map_append,
      ← List.filterMap_append]
    rfl
  told := by
    intro other mem
    rcases List.mem_cons.1 mem with rfl | mem
    · exact (left.told _ (List.mem_singleton_self _)).moves right.toMoves
    · exact right.told other mem

theorem heeds_foldl (hosts : Hosts service start) (watches : Watches start terminal)
    {notices : List Notice} (calm : ∀ notice ∈ notices, notice.IsCalm) :
    Heeds start terminal notices (notices.foldl (heed service) terminal) := by
  induction notices generalizing terminal with
  | nil => exact ⟨⟨watches, .refl _, rfl⟩, rfl, rfl, (List.append_nil _).symm, by simp⟩
  | cons notice notices ih =>
      obtain ⟨quiet, calm⟩ := List.forall_mem_cons.1 calm
      have heeded : Heeds start terminal [notice] (terminal.heed service notice) :=
        heeds_heed watches hosts quiet
      exact heeded.cons (ih heeded.watches calm)

/-! ## What the controller does -/

/-- What a program makes of a controller that has acted. -/
structure Acts (start before : Terminal) (controller : Controller) (after : Terminal) : Prop
    extends Moves start before after where
  controller_eq : after.controller = { controller with notices := [] }
  seen_eq : after.seen = before.seen
  calls_eq : after.calls = before.calls ++
    (controller.notices.filterMap Notice.requested?).map start.callOf
  told : ∀ notice ∈ controller.notices, after.IsTold notice

section Act

variable (action : Controller → Controller) (hosts : Hosts service start)
  (watches : Watches start terminal)

include hosts watches

theorem acts_act
    (stance_eq : (action terminal.controller).stance = terminal.controller.stance)
    (calm : ∀ notice ∈ (action terminal.controller).notices, notice.IsCalm) :
    Acts start terminal (action terminal.controller) (terminal.act service action).1 := by
  have watches' : Watches start
      { terminal with controller := { action terminal.controller with notices := [] } } :=
    { watches with
      stance_eq := stance_eq.trans watches.stance_eq
      silent := rfl }
  have heeds := heeds_foldl hosts watches' calm
  exact ⟨⟨heeds.watches, heeds.continues, heeds.files_eq⟩, heeds.controller_eq, heeds.seen_eq,
    heeds.calls_eq, heeds.told⟩

theorem acts_of_serves (serves : terminal.controller.Serves (action terminal.controller)) :
    Acts start terminal (action terminal.controller) (terminal.act service action).1 :=
  acts_act action hosts watches serves.stance_eq serves.calm

end Act

theorem Acts.sent {controller : Controller} (acts : Acts start first controller second)
    {request : Request}
    (requests_eq : controller.notices.filterMap Notice.requested? = [request])
    (code_eq : controller.code = some request.code) : second.Sent := by
  have calls_eq := acts.calls_eq
  rw [requests_eq, List.map_singleton] at calls_eq
  refine ⟨_, by rw [calls_eq, List.getLast?_concat], ?_⟩
  rw [acts.controller_eq]
  exact code_eq

theorem Acts.goesOn {controller : Controller} (acts : Acts start first controller second)
    (serves : first.controller.Serves controller) : GoesOn start first second where
  toMoves := acts.toMoves
  seen_eq := acts.seen_eq
  code_eq := by
    rw [acts.controller_eq]
    exact serves.code_eq
  sends := by
    rcases serves.sends with ⟨request, requests_eq, code_eq⟩ | ⟨requests_eq, served⟩
    · exact .inl (acts.sent requests_eq code_eq)
    · refine .inr ⟨?_, served.imp ?_ ?_⟩
      · rw [acts.calls_eq, requests_eq]
        exact List.append_nil _
      · intro debounce_eq
        rw [acts.controller_eq]
        exact debounce_eq
      · rintro ⟨number, posted⟩
        exact ⟨number, acts.told _ posted⟩

theorem goesOn_act (action : Controller → Controller) (hosts : Hosts service start)
    (watches : Watches start terminal)
    (serves : terminal.controller.Serves (action terminal.controller)) :
    GoesOn start terminal (terminal.act service action).1 :=
  (acts_of_serves action hosts watches serves).goesOn serves

/-! ## Errands -/

/-- The same for a program that differs only in what it prints and what it hears. -/
theorem GoesOn.of_eq (watches : Watches start second)
    (schedule_eq : second.schedule = first.schedule) (files_eq : second.files = first.files)
    (seen_eq : second.seen = first.seen)
    (controller_eq : second.controller = first.controller) (calls_eq : second.calls = first.calls) :
    GoesOn start first second where
  watches := watches
  continues := schedule_eq ▸ .refl _
  files_eq := files_eq
  seen_eq := seen_eq
  code_eq := congrArg Controller.code controller_eq
  sends := .inr ⟨calls_eq, .inl (congrArg Controller.debounce controller_eq)⟩

section Errands

variable (watches : Watches start terminal)

include watches

theorem goesOn_refl : GoesOn start terminal terminal :=
  .of_eq watches rfl rfl rfl rfl rfl

theorem goesOn_schedule {schedule : Schedule Errand}
    (continues : Schedule.Continues (Befits start) Errand.isWrite terminal.schedule schedule) :
    GoesOn start terminal { terminal with schedule } where
  toMoves := moves_schedule watches continues
  seen_eq := rfl
  code_eq := rfl
  sends := .inr ⟨rfl, .inl rfl⟩

theorem goesOn_post {errand : Errand} (given : Befits start errand)
    (free : errand.isWrite = false) : GoesOn start terminal (terminal.post errand) :=
  goesOn_schedule watches (.post _ given free)

theorem goesOn_hold (delay : Int) {errand : Errand} (given : Befits start errand)
    (free : errand.isWrite = false) : GoesOn start terminal (terminal.hold delay errand) :=
  goesOn_schedule watches (.hold _ delay given free)

theorem goesOn_alarm (delay : Int) {errand : Errand} (given : Befits start errand)
    (free : errand.isWrite = false) : GoesOn start terminal (terminal.alarm delay errand) :=
  goesOn_schedule watches (.alarm _ delay given free)

theorem goesOn_print (text : String) : GoesOn start terminal (terminal.print text) :=
  .of_eq { watches with } rfl rfl rfl rfl rfl

theorem goesOn_frames (frames : Inbox (Option Frame)) :
    GoesOn start terminal { terminal with frames } :=
  .of_eq { watches with } rfl rfl rfl rfl rfl

theorem goesOn_lines {lines : Inbox (Option String)} (noQuit : some "q" ∉ lines.items) :
    GoesOn start terminal { terminal with lines } :=
  .of_eq { watches with noQuit } rfl rfl rfl rfl rfl

theorem goesOn_closeConsole : GoesOn start terminal terminal.closeConsole :=
  goesOn_lines watches List.not_mem_nil

theorem goesOn_opened : GoesOn start terminal { terminal with lines := .opened } :=
  goesOn_lines watches List.not_mem_nil

/-! ### The relay -/

theorem goesOn_dial : GoesOn start terminal terminal.dial := by
  have dialed : GoesOn start terminal
      { terminal with dialed := terminal.dialed ++ [terminal.client.relayUrl terminal.session] } :=
    .of_eq { watches with } rfl rfl rfl rfl rfl
  unfold dial
  dsimp only
  split
  · exact dialed.trans (goesOn_frames dialed.watches .opened)
  · next refusals _ =>
      refine dialed.trans (GoesOn.trans ?_ (goesOn_hold ?_ relayPause trivial rfl))
      · exact .of_eq { dialed.watches with } rfl rfl rfl rfl rfl
      · exact { dialed.watches with }

theorem goesOn_takeFrame (frame : Option Frame) :
    GoesOn start terminal (terminal.takeFrame frame) := by
  unfold takeFrame
  dsimp only
  have put := goesOn_frames watches (terminal.frames.put frame).1
  split
  · exact put.trans (goesOn_post put.watches trivial rfl)
  · exact put

theorem goesOn_takeLine {line : Option String} (noQuit : line ≠ some "q") :
    GoesOn start terminal (terminal.takeLine line) := by
  have noQuit' : some "q" ∉ (terminal.lines.put line).1.items := by
    by_cases absent : terminal.lines.reader = .absent
    · rw [Inbox.put_of_absent absent]
      exact watches.noQuit
    · rw [Inbox.items_put absent]
      simp [watches.noQuit, Ne.symm noQuit]
  unfold takeLine
  dsimp only
  have put := goesOn_lines watches noQuit'
  split
  · exact put.trans (goesOn_post put.watches trivial rfl)
  · exact put

end Errands

section Services

variable (hosts : Hosts service start) (watches : Watches start terminal)

include hosts watches

theorem Watches.isServing : terminal.controller.IsServing where
  isOpen := (congrArg Stance.isClosed watches.stance_eq).trans hosts.isServing.isOpen
  calledOff_eq := (congrArg Stance.calledOff watches.stance_eq).trans hosts.isServing.calledOff_eq
  waiters_eq := (congrArg Stance.waiters watches.stance_eq).trans hosts.isServing.waiters_eq

theorem Watches.objection_eq : terminal.controller.objection = Report.objection :=
  (congrArg Stance.objection watches.stance_eq).trans hosts.objection_eq

theorem goesOn_publish (message : LifecycleMessage) :
    GoesOn start terminal (terminal.publish service message) := by
  refine Bus.deliver_induction (GoesOn start terminal) (fun _ middle goesOn => ?_) _
    (goesOn_refl watches)
  have carries := middle.controller.carries_handle message
  exact goesOn.trans
    (goesOn_act (·.handle message) hosts goesOn.watches (carries.serves goesOn.watches.silent))

theorem goesOn_takeFrames (frames : List (Option Frame)) :
    GoesOn start terminal (takeFrames service frames terminal) := by
  induction frames generalizing terminal with
  | nil => exact goesOn_frames watches _
  | cons frame frames ih =>
      have closed := goesOn_frames watches {}
      have redials : GoesOn start terminal ({ terminal with frames := {} }.hold relayPause .dial) :=
        closed.trans (goesOn_hold closed.watches relayPause trivial rfl)
      cases frame with
      | none => exact redials
      | some frame =>
          unfold takeFrames
          split
          · exact closed
          · exact redials
          · split
            · next message _ =>
                have published := goesOn_publish hosts watches message
                exact published.trans (ih published.watches)
            · exact ih watches

/-! ### The console -/

theorem goesOn_obey {line : String} (noQuit : line ≠ "q") :
    GoesOn start terminal (terminal.obey service line).1 := by
  unfold obey
  split
  · have isOpen := (watches.isServing hosts).isOpen
    have serves := Controller.serves_refresh watches.silent isOpen consoleCaller
    exact goesOn_act (·.refresh consoleCaller) hosts watches serves
  · have carries := terminal.controller.carries_fullscreen
    exact goesOn_act _ hosts watches (carries.serves watches.silent)
  · exact absurd rfl noQuit
  · exact goesOn_refl watches
  · exact goesOn_print watches _

theorem goesOn_readFrom {lines : List (Option String)} (noQuit : some "q" ∉ lines) :
    GoesOn start terminal (readFrom service lines terminal) := by
  induction lines generalizing terminal with
  | nil => exact goesOn_opened watches
  | cons line lines ih =>
      have noQuit' : some "q" ∉ lines := by
        simp_all
      cases line with
      | none => exact goesOn_closeConsole watches
      | some line =>
          have obeyed : GoesOn start terminal (terminal.obey service line).1 := by
            apply goesOn_obey hosts watches
            rintro rfl
            exact noQuit List.mem_cons_self
          rw [readFrom]
          dsimp only
          split
          · exact obeyed.trans (goesOn_lines obeyed.watches noQuit')
          · split
            · exact obeyed.trans (goesOn_closeConsole obeyed.watches)
            · exact obeyed.trans (ih obeyed.watches noQuit')

/-! ### Answers -/

theorem goesOn_goOn (caller : String) :
    GoesOn start terminal (terminal.goOn service (caller, none)) := by
  unfold goOn
  split
  · dsimp only
    rw [resume, watches.command_eq]
    exact goesOn_hold watches filePause trivial rfl
  · split
    · split
      · exact goesOn_closeConsole watches
      · exact goesOn_readFrom hosts watches watches.noQuit
    · exact goesOn_refl watches

theorem goesOn_foldl_goOn {returned : List (String × Option Breakdown)}
    (calm : ∀ entry ∈ returned, entry.2 = none) :
    GoesOn start terminal (returned.foldl (goOn service) terminal) := by
  induction returned generalizing terminal with
  | nil => exact goesOn_refl watches
  | cons entry returned ih =>
      obtain ⟨quiet, others⟩ := List.forall_mem_cons.1 calm
      obtain ⟨caller, breakdown⟩ := entry
      obtain rfl : breakdown = none := quiet
      have goesOn := goesOn_goOn hosts watches caller
      exact goesOn.trans (ih goesOn.watches others)

/-- The command looks at the file again once it has its answer. -/
theorem look_foldl_goOn {returned : List (String × Option Breakdown)}
    (calm : ∀ entry ∈ returned, entry.2 = none) (mem : (mainCaller, none) ∈ returned) :
    (returned.foldl (goOn service) terminal).schedule.DueBy
      (terminal.schedule.now + filePause) .look := by
  induction returned generalizing terminal with
  | nil => cases mem
  | cons entry returned ih =>
      obtain ⟨quiet, others⟩ := List.forall_mem_cons.1 calm
      obtain ⟨caller, breakdown⟩ := entry
      obtain rfl : breakdown = none := quiet
      have goesOn := goesOn_goOn hosts watches caller
      rcases List.mem_cons.1 mem with same | mem
      · cases same
        have resumed : (terminal.goOn service (mainCaller, none)) =
            terminal.hold filePause .look := by
          rw [goOn, if_pos rfl]
          dsimp only
          rw [resume, watches.command_eq]
        have rest := goesOn_foldl_goOn hosts goesOn.watches others
        apply rest.continues.dueBy
        rw [resumed]
        exact terminal.schedule.dueBy_hold .look le_rfl (by decide)
      · have looks := ih goesOn.watches others mem
        rw [goesOn.continues.now_eq] at looks
        exact looks

section Work

variable {action : Controller → Controller}
  (serves : terminal.controller.Serves (action terminal.controller))

include serves

omit hosts watches in
variable (service action) in
theorem breakdown_of_returned (entry) (mem : entry ∈ (terminal.act service action).2) :
    entry.2 = none := by
  obtain ⟨notice, mem, same⟩ := List.mem_filterMap.1 mem
  have calm := serves.calm notice mem
  cases notice with
  | returned caller breakdown =>
      cases same
      exact calm
  | _ => cases same

theorem goesOn_work : GoesOn start terminal (terminal.work service action) := by
  have acted := goesOn_act action hosts watches serves
  have calm := breakdown_of_returned service action serves
  exact acted.trans (goesOn_foldl_goOn hosts acted.watches calm)

theorem look_work (mem : .returned mainCaller none ∈ (action terminal.controller).notices) :
    (terminal.work service action).schedule.DueBy (terminal.schedule.now + filePause) .look := by
  have acted := goesOn_act action hosts watches serves
  have returned : (mainCaller, none) ∈ (terminal.act service action).2 :=
    List.mem_filterMap.2 ⟨_, mem, rfl⟩
  rw [← acted.continues.now_eq]
  exact look_foldl_goOn hosts acted.watches (breakdown_of_returned service action serves) returned

end Work

/-- Before its answer is taken, a request has the verdict of the sandbox announced. -/
theorem takeReply_eq (request : Request) (outcome : Outcome) : ∃ middle,
    GoesOn start terminal middle ∧ terminal.takeReply service request outcome =
      middle.work service (·.perform
        (.answer request.version request.asker (start.answerOf request outcome.delivery))) := by
  unfold takeReply
  dsimp only
  split
  · next delay text _ =>
      have announced : GoesOn start terminal
          (terminal.alarm delay (.happening (.frame (.text text)))) :=
        goesOn_alarm watches delay trivial rfl
      rw [if_neg (by simp [(watches.isServing hosts).isCalledOff_eq])]
      exact ⟨_, announced, by rw [announced.watches.answerOf_eq]⟩
  · exact ⟨_, goesOn_refl watches, by rw [watches.answerOf_eq]⟩

theorem serves_answer {request : Request} {outcome : Outcome}
    (befits : Befits start (.reply request outcome)) :
    terminal.controller.Serves (terminal.controller.perform
      (.answer request.version request.asker (start.answerOf request outcome.delivery))) := by
  apply (watches.isServing hosts).serves_perform watches.silent
  rw [Controller.Admits, watches.objection_eq hosts]
  exact befits

theorem goesOn_takeReply {request : Request} {outcome : Outcome}
    (befits : Befits start (.reply request outcome)) :
    GoesOn start terminal (terminal.takeReply service request outcome) := by
  obtain ⟨middle, goesOn, same⟩ := takeReply_eq hosts watches request outcome
  rw [same]
  have serves := serves_answer hosts goesOn.watches befits
  exact goesOn.trans (goesOn_work hosts goesOn.watches serves)

theorem look_takeReply {request : Request} {outcome : Outcome}
    (befits : Befits start (.reply request outcome)) (asker : request.asker = .caller mainCaller) :
    (terminal.takeReply service request outcome).schedule.DueBy
      (terminal.schedule.now + filePause) .look := by
  obtain ⟨middle, goesOn, same⟩ := takeReply_eq hosts watches request outcome
  have serves := serves_answer hosts goesOn.watches befits
  rw [same, ← goesOn.continues.now_eq]
  apply look_work hosts goesOn.watches serves
  have verdict : IsVerdict middle.controller.objection
      (start.answerOf request outcome.delivery) := by
    rw [goesOn.watches.objection_eq hosts]
    exact befits
  rw [(goesOn.watches.isServing hosts).perform_answer verdict, asker]
  exact List.mem_append_right _ (List.mem_singleton_self _)

/-! ### All errands but those that touch files -/

omit hosts in
theorem goesOn_face {happening : Happening} (plain : happening.IsPlain start.path)
    (apart : (Errand.happening happening).touchesFiles = false) :
    GoesOn start terminal (terminal.face service happening) := by
  cases happening with
  | write | delete => cases apart
  | frame | hangUp => exact goesOn_takeFrame watches _
  | line => exact goesOn_takeLine watches plain
  | interrupt => cases plain

theorem serves_job {job : Job} (free : job.isAnswer = false) :
    terminal.controller.Serves (terminal.controller.perform job) := by
  apply (watches.isServing hosts).serves_perform watches.silent
  cases job with
  | answer => cases free
  | _ => trivial

theorem goesOn_perform {errand : Errand} (befits : Befits start errand)
    (apart : errand.touchesFiles = false) :
    GoesOn start terminal (terminal.perform service errand) := by
  have uninterrupted : ¬(terminal.isInterrupted && errand.isMain) := by
    simp [watches.uninterrupted]
  unfold perform
  rw [if_neg uninterrupted]
  cases errand with
  | start | look => cases apart
  | control job => exact goesOn_work hosts watches (serves_job hosts watches befits)
  | reply request outcome => exact goesOn_takeReply hosts watches befits
  | dial => exact goesOn_dial watches
  | readFrames => exact goesOn_takeFrames hosts watches _
  | openConsole => exact goesOn_opened watches
  | readLines => exact goesOn_readFrom hosts watches watches.noQuit
  | happening happening => exact goesOn_face watches befits apart

end Services

end Terminal

end ComponentPreview
