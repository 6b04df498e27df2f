import ComponentPreview.Proofs.Controller.Settling
import ComponentPreview.Proofs.Lifecycle.Bus
import ComponentPreview.Proofs.Schedule
import ComponentPreview.Terminal.Program

/-!
# Rendering for a browser

`render` with a browser ends with the verdict on the newest version that it has requested. What it
takes up of notices is said once for all of them; each errand keeps what holds of a rendering, and
those that end one end it with an error, with the verdict or because it was interrupted.
-/

namespace ComponentPreview

namespace Notice

/-- How a notice ends a program. -/
def ending? : Notice → Option (Except ProgramError Nat)
  | settled _ phase => some (.ok (if phase = .ready then 0 else 1))
  | gaveUp _ breakdown => some (.error (.broken breakdown))
  | _ => none

def returned? : Notice → Option (String × Option Breakdown)
  | returned caller breakdown => some (caller, breakdown)
  | _ => none

theorem isReply_of_ending? {notice : Notice} {ending : Except ProgramError Nat}
    (ends : notice.ending? = some ending) : notice.isReply = true := by
  cases notice with
  | settled | gaveUp => rfl
  | _ => cases ends

theorem filterMap_returned_replies (notices : List Notice) :
    (notices.filter isReply).filterMap returned? = notices.filterMap returned? := by
  rw [List.filterMap_filter]
  congr 1
  funext notice
  cases notice <;> rfl

end Notice

namespace Controller

variable {controller : Controller}

/-- An operation that starts no request, or one with the version above the newest. -/
def Advances (before after : Controller) : Prop :=
  (after.notices.filterMap Notice.requested? = [] ∧ after.version = before.version) ∨
    ∃ request, after.notices.filterMap Notice.requested? = [request] ∧
      request.version = before.version + 1 ∧ after.version = before.version + 1

theorem Comes.advances {after : Controller} {occasion : Occasion}
    (comes : controller.Comes after occasion) : controller.Advances after := by
  have cases := Effect.requested_cases comes
  rw [Controller.news, Notice.filterMap_requested_news] at cases
  rcases cases with none | ⟨request, one, version_eq, same, -⟩
  · exact .inl none
  · exact .inr ⟨request, one, version_eq, same⟩

theorem advances_perform (silent : controller.notices = []) (job : Job) :
    controller.Advances (controller.perform job) :=
  (comes_perform (by rw [news, silent]; rfl) job).advances

/-- Only someone who waits for a verdict ends the program, and a verdict is the phase. -/
theorem verdict_perform (silent : controller.notices = []) (job : Job) {notice : Notice}
    (mem : notice ∈ (controller.perform job).replies) {code : Nat}
    (ends : notice.ending? = some (.ok code)) :
    code = 0 ↔ (controller.perform job).phase = .ready := by
  have given := replies_perform silent job
  generalize (controller.perform job).replies = replies at given mem
  cases given with
  | silent => cases mem
  | returned | gaveUp =>
      obtain rfl := List.mem_singleton.1 mem
      cases ends
  | settled name waiter =>
      obtain rfl := List.mem_singleton.1 mem
      obtain ⟨waiters, notices, same⟩ := controller.attend_eq name
      obtain rfl : (if controller.phase = .ready then 0 else 1) = code := by
        simpa [Notice.ending?] using ends
      have phase_eq : (controller.perform (.attend name)).phase = controller.phase := by
        rw [perform, same]
      rw [phase_eq]
      split <;> simp_all

theorem ending_refresh (silent : controller.notices = []) {caller : String} {notice : Notice}
    (mem : notice ∈ (controller.refresh caller).replies) : notice.ending? = none := by
  have given := replies_perform silent (.refresh caller)
  rw [perform] at given
  generalize (controller.refresh caller).replies = replies at given mem
  cases given with
  | silent => cases mem
  | returned =>
      obtain rfl := List.mem_singleton.1 mem
      rfl

end Controller

namespace Browser

variable (browser : Browser) (session : String)

theorem isUsed_visit (url : String) : (browser.visit url).isUsed = browser.isUsed := by
  unfold visit
  split <;> rfl

theorem isUsed_present : (browser.present session).isUsed = browser.isUsed := by
  unfold present
  split
  · rfl
  · exact isUsed_visit _ _

theorem isUsed_fullscreen : (browser.fullscreen session).isUsed = browser.isUsed :=
  isUsed_visit _ _

end Browser

/-- Looking at the file is left to `watch`. -/
def Schedule.Lookless (schedule : Schedule Errand) : Prop :=
  schedule.All fun errand => errand ≠ .look

theorem Schedule.lookless_heed {schedule : Schedule Errand} (lookless : schedule.Lookless)
    (notice : Notice) : (schedule.heed .control Errand.isNumber notice).Lookless := by
  cases notice with
  | post => exact all_post lookless Errand.noConfusion
  | hold delay => exact all_hold lookless delay Errand.noConfusion
  | hurry => exact all_hurry lookless _
  | _ => exact lookless

namespace Terminal

variable {service : Service} {terminal : Terminal}

/-! ## Taking up notices -/

/-- What a program keeps that takes up notices, and what these make of it. -/
structure TakesUp (before : Terminal) (notices : List Notice) (after : Terminal) : Prop where
  command_eq : after.command = before.command
  controller_eq : after.controller = before.controller
  isUsed_eq : after.browser.isUsed = before.browser.isUsed
  isInterrupted_eq : after.isInterrupted = before.isInterrupted
  lookless : before.schedule.Lookless → after.schedule.Lookless
  versions_eq : after.calls.map PreviewCall.version = before.calls.map PreviewCall.version ++
    (notices.filterMap Notice.requested?).map fun request => (request.version : Int)
  ending_eq : after.ending = before.ending.or (notices.findSome? Notice.ending?)

theorem takesUp_browse {schedule : Schedule Errand} {notice : Notice}
    (lookless : terminal.schedule.Lookless → schedule.Lookless)
    (unrequested : notice.requested? = none) (unending : notice.ending? = none)
    (action : Browser → Browser) (same : ∀ browser, (action browser).isUsed = browser.isUsed) :
    TakesUp terminal [notice] ({ terminal with schedule }.browse action) where
  command_eq := rfl
  controller_eq := rfl
  isUsed_eq := same _
  isInterrupted_eq := rfl
  lookless := lookless
  versions_eq := by simp [unrequested, browse, print]
  ending_eq := by simp [unending, browse, print]

theorem takesUp_heed (notice : Notice) :
    TakesUp terminal [notice] (terminal.heed service notice) := by
  have lookless (held : terminal.schedule.Lookless) :
      (terminal.schedule.heed .control Errand.isNumber notice).Lookless :=
    Schedule.lookless_heed held notice
  cases notice with
  | requested request =>
      refine ⟨rfl, rfl, rfl, rfl, fun held => ?_, ?_, (Option.or_none).symm⟩
      · exact Schedule.all_hold (lookless held) _ Errand.noConfusion
      · exact List.map_append
  | shown => exact takesUp_browse lookless rfl rfl _ (·.isUsed_present _)
  | fullscreen => exact takesUp_browse lookless rfl rfl _ (·.isUsed_fullscreen _)
  | closed =>
      have browsed : TakesUp terminal [.closed] _ :=
        takesUp_browse lookless rfl rfl Browser.close fun _ => rfl
      exact ⟨rfl, rfl, rfl, rfl, lookless, browsed.versions_eq, browsed.ending_eq⟩
  | _ =>
      refine ⟨rfl, rfl, rfl, rfl, lookless, (List.append_nil _).symm, ?_⟩
      simp [heed, print, stop, fall, finish, Notice.ending?]

theorem takesUp_foldl (notices : List Notice) (terminal : Terminal) :
    TakesUp terminal notices (notices.foldl (heed service) terminal) := by
  induction notices generalizing terminal with
  | nil => exact ⟨rfl, rfl, rfl, rfl, id, (List.append_nil _).symm, (Option.or_none).symm⟩
  | cons notice notices ih =>
      have first : TakesUp terminal [notice] (terminal.heed service notice) := takesUp_heed notice
      have rest := ih (terminal.heed service notice)
      exact {
        command_eq := rest.command_eq.trans first.command_eq
        controller_eq := rest.controller_eq.trans first.controller_eq
        isUsed_eq := rest.isUsed_eq.trans first.isUsed_eq
        isInterrupted_eq := rest.isInterrupted_eq.trans first.isInterrupted_eq
        lookless := rest.lookless ∘ first.lookless
        versions_eq := by
          rw [List.foldl_cons, rest.versions_eq, first.versions_eq, List.append_assoc,
            ← List.map_append, ← List.filterMap_append]
          rfl
        ending_eq := by
          rw [List.foldl_cons, rest.ending_eq, first.ending_eq, Option.or_assoc]
          congr 1
          rw [List.findSome?_cons]
          cases h : notice.ending? <;> simp [h] }

/-! ## What holds of a rendering -/

/-- A program that renders for a browser: each version that was requested has been called for. -/
structure Renders (terminal : Terminal) : Prop where
  command_eq : terminal.command = .render
  isUsed : terminal.browser.isUsed = true
  silent : terminal.controller.notices = []
  lookless : terminal.schedule.Lookless
  versions_eq : terminal.calls.map PreviewCall.version =
    (List.range' 1 terminal.controller.version).map fun version : Nat => (version : Int)

/-- A rendering that has not ended. -/
structure IsRendering (terminal : Terminal) : Prop extends Renders terminal where
  unended : terminal.ending = none

/-- A rendering that succeeds, if it ends without an error or an interrupt, just when the sandbox is
ready with the newest version. -/
structure Concludes (terminal : Terminal) : Prop extends Renders terminal where
  verdict : terminal.isInterrupted = false → ∀ code, terminal.ending = some (.ok code) →
    (code = 0 ↔ terminal.controller.phase = .ready)

theorem IsRendering.concludes (rendering : terminal.IsRendering) : terminal.Concludes where
  toRenders := rendering.toRenders
  verdict := by
    intro _ code ended
    rw [rendering.unended] at ended
    cases ended

/-- The same for a program that differs only in what it prints and reads. -/
theorem IsRendering.of_eq {after : Terminal} (rendering : terminal.IsRendering)
    (command_eq : after.command = terminal.command) (browser_eq : after.browser = terminal.browser)
    (controller_eq : after.controller = terminal.controller)
    (calls_eq : after.calls = terminal.calls) (ending_eq : after.ending = terminal.ending)
    (lookless : after.schedule.Lookless) : after.IsRendering where
  command_eq := command_eq.trans rendering.command_eq
  isUsed := browser_eq ▸ rendering.isUsed
  silent := controller_eq ▸ rendering.silent
  lookless := lookless
  versions_eq := by rw [calls_eq, controller_eq, rendering.versions_eq]
  unended := ending_eq.trans rendering.unended

/-! ## What the controller does -/

section Act

variable {action : Controller → Controller}

theorem takesUp_act (action : Controller → Controller) :
    TakesUp { terminal with controller := { action terminal.controller with notices := [] } }
      (action terminal.controller).notices (terminal.act service action).1 :=
  takesUp_foldl _ _

theorem phase_act : (terminal.act service action).1.controller.phase =
    (action terminal.controller).phase := by
  rw [(takesUp_act action).controller_eq]

theorem returned_act : (terminal.act service action).2 =
    (action terminal.controller).replies.filterMap Notice.returned? := by
  rw [Controller.replies, Notice.filterMap_returned_replies]
  rfl

theorem renders_act (renders : terminal.Renders)
    (advances : terminal.controller.Advances (action terminal.controller)) :
    (terminal.act service action).1.Renders := by
  have takes : TakesUp _ _ (terminal.act service action).1 := takesUp_act action
  refine ⟨takes.command_eq.trans renders.command_eq, takes.isUsed_eq.trans renders.isUsed, ?_,
    takes.lookless renders.lookless, ?_⟩
  · rw [takes.controller_eq]
  · rw [takes.versions_eq, takes.controller_eq]
    dsimp only
    rcases advances with ⟨none, same⟩ | ⟨request, one, version_eq, next⟩
    · rw [none, same, renders.versions_eq]
      exact List.append_nil _
    · rw [one, next, renders.versions_eq, List.range'_1_concat, List.map_append, List.map_singleton,
        List.map_singleton, version_eq, Nat.add_comm 1]

theorem rendering_act (rendering : terminal.IsRendering)
    (advances : terminal.controller.Advances (action terminal.controller))
    (unending : ∀ notice ∈ (action terminal.controller).replies, notice.ending? = none) :
    (terminal.act service action).1.IsRendering where
  toRenders := renders_act rendering.toRenders advances
  unended := by
    rw [(takesUp_act action).ending_eq, rendering.unended, Option.none_or,
      List.findSome?_eq_none_iff]
    intro notice mem
    by_contra ends
    obtain ⟨ending, ends⟩ := Option.ne_none_iff_exists'.1 ends
    rw [unending notice (List.mem_filter.2 ⟨mem, Notice.isReply_of_ending? ends⟩)] at ends
    cases ends

theorem concludes_act (rendering : terminal.IsRendering)
    (advances : terminal.controller.Advances (action terminal.controller))
    (verdict : ∀ notice ∈ (action terminal.controller).replies, ∀ code,
      notice.ending? = some (.ok code) →
        (code = 0 ↔ (action terminal.controller).phase = .ready)) :
    (terminal.act service action).1.Concludes where
  toRenders := renders_act rendering.toRenders advances
  verdict := by
    intro _ code ended
    rw [(takesUp_act action).ending_eq, rendering.unended, Option.none_or] at ended
    obtain ⟨notice, mem, ends⟩ := List.exists_of_findSome?_eq_some ended
    rw [phase_act]
    exact verdict notice (List.mem_filter.2 ⟨mem, Notice.isReply_of_ending? ends⟩) code ends

end Act

section Operations

variable (rendering : terminal.IsRendering)

include rendering

theorem IsRendering.news_eq : terminal.controller.news = [] := by
  rw [Controller.news, rendering.silent]
  rfl

theorem rendering_edit (code : String) : (terminal.act service (·.edit code)).1.IsRendering := by
  have comes : terminal.controller.Comes (terminal.controller.edit code) .other :=
    Controller.comes_edit rendering.news_eq code
  obtain ⟨spent, tends, -⟩ := terminal.controller.tends_edit code
  refine rendering_act rendering comes.advances ?_
  rw [tends.replies_eq rendering.silent]
  exact fun _ mem => nomatch mem

theorem rendering_refresh (caller : String) :
    (terminal.act service (·.refresh caller)).1.IsRendering :=
  rendering_act rendering (Controller.advances_perform rendering.silent (.refresh caller))
    fun _ mem => Controller.ending_refresh rendering.silent mem

/-- An operation that replies to nobody. -/
theorem rendering_of_comes {action : Controller → Controller} {occasion : Occasion}
    (comes : terminal.controller.Comes (action terminal.controller) occasion)
    (tends : Controller.Tends [] [] terminal.controller (action terminal.controller)) :
    (terminal.act service action).1.IsRendering := by
  refine rendering_act rendering comes.advances ?_
  rw [tends.replies_eq rendering.silent]
  exact fun _ mem => nomatch mem

theorem rendering_handle (message : LifecycleMessage) :
    (terminal.act service (·.handle message)).1.IsRendering :=
  rendering_of_comes rendering (Controller.comes_handle rendering.news_eq message)
    (Controller.tends_handle message)

theorem rendering_close : (terminal.act service Controller.close).1.IsRendering := by
  have comes : terminal.controller.Comes terminal.controller.close .other :=
    Controller.comes_close rendering.news_eq
  exact rendering_of_comes rendering comes Controller.tends_close

theorem rendering_fullscreen : (terminal.act service Controller.fullscreen).1.IsRendering := by
  have comes : terminal.controller.Comes terminal.controller.fullscreen .other :=
    terminal.controller.quiet_fullscreen.comes rendering.news_eq
  exact rendering_of_comes rendering comes Controller.tends_fullscreen

theorem rendering_callOffRequest (number : Nat) :
    (terminal.act service (·.callOffRequest number)).1.IsRendering := by
  have silent := rendering.silent
  refine rendering_act rendering (.inl ⟨?_, rfl⟩) ?_
  · simp [Controller.callOffRequest, Controller.note, silent, Notice.requested?]
  · simp [Controller.callOffRequest, Controller.note, Controller.replies, silent, Notice.isReply]

end Operations

/-! ## Errands -/

section Errands

variable (rendering : terminal.IsRendering)

include rendering

theorem rendering_post {errand : Errand} (other : errand ≠ .look) :
    (terminal.post errand).IsRendering :=
  rendering.of_eq rfl rfl rfl rfl rfl (Schedule.all_post rendering.lookless other)

theorem rendering_hold (delay : Int) {errand : Errand} (other : errand ≠ .look) :
    (terminal.hold delay errand).IsRendering :=
  rendering.of_eq rfl rfl rfl rfl rfl (Schedule.all_hold rendering.lookless delay other)

theorem rendering_alarm (delay : Int) {errand : Errand} (other : errand ≠ .look) :
    (terminal.alarm delay errand).IsRendering :=
  rendering.of_eq rfl rfl rfl rfl rfl (Schedule.all_alarm rendering.lookless delay other)

theorem rendering_print (text : String) : (terminal.print text).IsRendering :=
  rendering.of_eq rfl rfl rfl rfl rfl rendering.lookless

theorem rendering_frames (frames : Inbox (Option Frame)) :
    { terminal with frames }.IsRendering :=
  rendering.of_eq rfl rfl rfl rfl rfl rendering.lookless

theorem rendering_lines (lines : Inbox (Option String)) : { terminal with lines }.IsRendering :=
  rendering.of_eq rfl rfl rfl rfl rfl rendering.lookless

theorem concludes_fall (error : ProgramError) : (terminal.fall error).Concludes where
  toRenders := { rendering.toRenders with }
  verdict := by
    intro _ code ended
    simp [fall, finish, rendering.unended] at ended

/-! ### The console -/

theorem rendering_obey (line : String) : (terminal.obey service line).1.IsRendering := by
  unfold obey
  split
  · exact rendering_refresh rendering consoleCaller
  · exact rendering_fullscreen rendering
  · exact rendering_close rendering
  · exact rendering
  · exact rendering_print rendering _

theorem rendering_readFrom (lines : List (Option String)) :
    (readFrom service lines terminal).IsRendering := by
  induction lines generalizing terminal with
  | nil => exact rendering_lines rendering _
  | cons line lines ih =>
      cases line with
      | none => exact rendering_lines rendering _
      | some line =>
          have obeyed : (terminal.obey service line).1.IsRendering := rendering_obey rendering line
          rw [readFrom]
          dsimp only
          split
          · exact rendering_lines obeyed _
          · split
            · exact rendering_lines obeyed _
            · exact ih obeyed

/-! ### The relay -/

theorem rendering_dial : terminal.dial.IsRendering := by
  unfold dial
  dsimp only
  split
  · exact rendering.of_eq rfl rfl rfl rfl rfl rendering.lookless
  · exact rendering.of_eq rfl rfl rfl rfl rfl
      (Schedule.all_hold rendering.lookless relayPause Errand.noConfusion)

theorem rendering_publish (message : LifecycleMessage) :
    (terminal.publish service message).IsRendering :=
  Bus.deliver_induction IsRendering (fun _ _ rendering => rendering_handle rendering message) _
    rendering

theorem rendering_takeFrames (frames : List (Option Frame)) :
    (takeFrames service frames terminal).IsRendering := by
  induction frames generalizing terminal with
  | nil => exact rendering_frames rendering _
  | cons frame frames ih =>
      have redials : ({ terminal with frames := {} }.hold relayPause .dial).IsRendering :=
        rendering_hold (rendering_frames rendering {}) relayPause Errand.noConfusion
      cases frame with
      | none => exact redials
      | some frame =>
          unfold takeFrames
          split
          · exact rendering_frames rendering _
          · exact redials
          · split
            · exact ih (rendering_publish rendering _)
            · exact ih rendering

/-! ### Happenings -/

theorem rendering_takeFrame (frame : Option Frame) : (terminal.takeFrame frame).IsRendering := by
  unfold takeFrame
  dsimp only
  split
  · exact rendering_post (rendering_frames rendering _) Errand.noConfusion
  · exact rendering_frames rendering _

theorem rendering_takeLine (line : Option String) : (terminal.takeLine line).IsRendering := by
  unfold takeLine
  dsimp only
  split
  · exact rendering_post (rendering_lines rendering _) Errand.noConfusion
  · exact rendering_lines rendering _

theorem rendering_interrupt : (terminal.interrupt service).IsRendering := by
  unfold interrupt
  split
  · split
    · exact rendering
    · exact rendering_callOffRequest rendering _
  · exact rendering.of_eq rfl rfl rfl rfl rfl (Schedule.all_hurry rendering.lookless _)

theorem rendering_face (happening : Happening) :
    (terminal.face service happening).IsRendering := by
  cases happening with
  | write | delete => exact rendering.of_eq rfl rfl rfl rfl rfl rendering.lookless
  | frame | hangUp => exact rendering_takeFrame rendering _
  | line => exact rendering_takeLine rendering _
  | interrupt => exact rendering_interrupt rendering

/-! ### The command -/

theorem concludes_resume : (terminal.resume service).Concludes := by
  have silent : (terminal.controller.await mainCaller verdictPause).notices = [] :=
    rendering.silent
  have quiet := (terminal.controller.quiet_await mainCaller verdictPause).trans
    (Controller.quiet_attend _ mainCaller)
  have comes : terminal.controller.Comes _ .other := quiet.comes rendering.news_eq
  rw [resume, rendering.command_eq]
  dsimp only
  rw [if_pos rendering.isUsed]
  exact concludes_act rendering comes.advances
    fun notice mem code => Controller.verdict_perform silent (.attend mainCaller) mem

theorem concludes_goOn (returned : String × Option Breakdown) :
    (terminal.goOn service returned).Concludes := by
  unfold goOn
  split
  · split
    · exact concludes_resume rendering
    · exact concludes_fall rendering _
  · split
    · split
      · exact (rendering_lines rendering _).concludes
      · exact (rendering_readFrom rendering _).concludes
    · exact rendering.concludes

/-- Who is replied to either goes on or has the verdict. -/
theorem concludes_work (job : Job) : (terminal.work service (·.perform job)).Concludes := by
  have advances := Controller.advances_perform rendering.silent job
  have concludes : (terminal.act service (·.perform job)).1.Concludes :=
    concludes_act rendering advances
      fun notice mem code => Controller.verdict_perform rendering.silent job mem
  have given := Controller.replies_perform rendering.silent job
  rw [work]
  dsimp only
  rw [returned_act]
  generalize replies_eq : (terminal.controller.perform job).replies = replies at given
  cases given with
  | silent | settled | gaveUp => exact concludes
  | returned caller breakdown =>
      refine concludes_goOn (rendering_act rendering advances ?_) _
      rw [replies_eq]
      exact fun notice mem => List.mem_singleton.1 mem ▸ rfl

theorem concludes_takeReply (request : Request) (outcome : Outcome) :
    (terminal.takeReply service request outcome).Concludes := by
  unfold takeReply
  dsimp only
  split
  · split
    · exact concludes_work rendering _
    · exact concludes_work (rendering_alarm rendering _ Errand.noConfusion) _
  · exact concludes_work rendering _

theorem concludes_startRender : (terminal.startRender service).Concludes := by
  unfold startRender
  split
  · exact concludes_fall rendering _
  · next code _ =>
      have warned := rendering_print rendering terminal.warnings
      dsimp only
      refine (rendering_refresh (rendering_edit ?_ code) mainCaller).concludes
      split
      · exact rendering_post warned Errand.noConfusion
      · exact warned

theorem concludes_abort (interrupted : terminal.isInterrupted = true) :
    (terminal.abort service).Concludes where
  toRenders := { (rendering_print (rendering_close rendering) "\n").toRenders with }
  verdict := by
    have same : (terminal.abort service).isInterrupted = true :=
      (takesUp_act Controller.close).isInterrupted_eq.trans interrupted
    rw [same]
    exact fun interrupted => absurd interrupted Bool.noConfusion

theorem concludes_perform {errand : Errand} (other : errand ≠ .look) :
    (terminal.perform service errand).Concludes := by
  unfold perform
  split
  · next interrupted =>
      exact concludes_abort rendering (Bool.and_eq_true_iff.1 interrupted).1
  · cases errand with
    | start =>
        dsimp only
        rw [rendering.command_eq]
        exact concludes_startRender rendering
    | control job => exact concludes_work rendering job
    | reply request outcome => exact concludes_takeReply rendering request outcome
    | look => exact absurd rfl other
    | dial => exact (rendering_dial rendering).concludes
    | readFrames => exact (rendering_takeFrames rendering _).concludes
    | openConsole => exact (rendering_lines rendering _).concludes
    | readLines => exact (rendering_readFrom rendering _).concludes
    | happening happening => exact (rendering_face rendering happening).concludes

end Errands

/-! ## Runs -/

theorem concludes_run (bound : Nat) (concludes : terminal.Concludes) :
    (run service Schedule.wake? bound terminal).Concludes := by
  induction bound generalizing terminal with
  | zero => exact concludes
  | succ bound ih =>
      rw [run]
      split
      · exact concludes
      · next unended =>
          have rendering : terminal.IsRendering :=
            ⟨concludes.toRenders, Option.not_isSome_iff_eq_none.1 unended⟩
          have scheduled {schedule : Schedule Errand} (lookless : schedule.Lookless) :
              { terminal with schedule }.IsRendering :=
            rendering.of_eq rfl rfl rfl rfl rfl lookless
          split
          · next errand schedule turn =>
              obtain ⟨lookless, other⟩ := Schedule.all_turn? rendering.lookless turn
              exact ih (concludes_perform (scheduled lookless) (other errand rfl))
          · next schedule turn =>
              exact ih (scheduled (Schedule.all_turn? rendering.lookless turn).1).concludes
          · split
            · next schedule woken =>
                exact ih (scheduled (Schedule.all_wake? rendering.lookless woken)).concludes
            · exact concludes

/-- What happens outside is not for the program to look at the file. -/
theorem lookless_alarms (happenings : List (Int × Happening)) {schedule : Schedule Errand}
    (lookless : schedule.Lookless) :
    (happenings.foldl (fun (schedule : Schedule Errand) (time, happening) =>
      schedule.alarm time (.happening happening)) schedule).Lookless := by
  induction happenings generalizing schedule with
  | nil => exact lookless
  | cons happening happenings ih => exact ih (Schedule.all_alarm lookless _ Errand.noConfusion)

theorem rendering_prepare {setting : Setting} {arguments : Arguments} {path : String}
    (prepared : prepare setting arguments .render path = .ok terminal)
    (opens : arguments.opensBrowser = true) : terminal.IsRendering := by
  have idle : ({} : Schedule Errand).Lookless := fun _ mem => absurd mem (Multiset.notMem_zero _)
  unfold prepare at prepared
  dsimp only at prepared
  cases called : Client.forService (Terminal.apiUrl setting.environment arguments.apiUrl)
      (some (Terminal.socketUrl (Terminal.apiUrl setting.environment arguments.apiUrl))) with
  | error error =>
      rw [called] at prepared
      cases prepared
  | ok client =>
      rw [called] at prepared
      cases prepared
      exact ⟨⟨rfl, opens, rfl,
        Schedule.all_post (lookless_alarms setting.happenings idle) Errand.noConfusion, rfl⟩, rfl⟩

/-- A program that ends before it runs has failed and has requested nothing. -/
theorem launchCommand_cases {setting : Setting} {arguments : Arguments} {path : String}
    {launch : Launch} (launched : launchCommand setting arguments .render path = .ok launch) :
    (∃ result, launch = .ended result ∧ result.exitCode = 1 ∧ result.calls = []) ∨
    ∃ terminal, launch = .running terminal ∧
      prepare setting arguments .render (File.canonicalPath path) = .ok terminal := by
  unfold launchCommand at launched
  dsimp only at launched
  split at launched
  · split at launched
    · cases launched
      exact .inl ⟨_, rfl, rfl, rfl⟩
    · cases launched
  · cases prepared : prepare setting arguments .render (File.canonicalPath path) with
    | error error =>
        rw [prepared] at launched
        cases launched
    | ok terminal =>
        rw [prepared] at launched
        cases launched
        exact .inr ⟨terminal, rfl, rfl⟩

/-- In every run a verdict that is told while the session is open is final for what was asked of it,
and who waits is told one when their turn comes and nothing is left that they have to wait for.
So `render` with a browser, if neither an error nor an interrupt ends it, has succeeded just when
the sandbox is ready with the newest version, and it has requested all versions up to that one. -/
theorem settled_verdict_is_final :
    (∀ (setup : Setup) (moves : List Move) (move : Move) (waiter : String) (phase : Phase),
      ((World.start setup).afterAll moves).controller.isClosed = false →
      .settled waiter phase ∈ (((World.start setup).afterAll moves).move move).2 →
      ((World.start setup).afterAll (moves ++ [move])).IsFinal
        ((World.start setup).run (moves ++ [move])) ((World.start setup).requests (moves ++ [move]))
        ((World.start setup).announced (moves ++ [move])) phase) ∧
    (∀ (setup : Setup) (moves : List Move) (index : Nat) (due : Int) (waiter : String),
      ((World.start setup).afterAll moves).tasks[index]? = some ⟨due, .attend waiter⟩ →
      due ≤ ((World.start setup).afterAll moves).now →
      ((World.start setup).afterAll moves).controller.IsFree waiter →
      ((World.start setup).afterAll moves).controller.IsSettled →
      .settled waiter ((World.start setup).afterAll moves).controller.phase ∈
        (((World.start setup).afterAll moves).move (.work index)).2) ∧
    ∀ (setting : Setting) (arguments : Arguments) (path : String),
      arguments.opensBrowser = true →
      (∀ result, launchCommand setting arguments .render path = .ok (.ended result) →
        result.exitCode = 1 ∧ result.calls = []) ∧
      ∀ terminal, launchCommand setting arguments .render path = .ok (.running terminal) →
        ∀ (service : Service) (bound code : Nat),
          (run service Schedule.wake? bound terminal).isInterrupted = false →
          (run service Schedule.wake? bound terminal).ending = some (.ok code) →
          (code = 0 ↔ (run service Schedule.wake? bound terminal).controller.phase = .ready) ∧
          (run service Schedule.wake? bound terminal).calls.map PreviewCall.version =
            (List.range' 1 (run service Schedule.wake? bound terminal).controller.version).map
              fun version : Nat => (version : Int) := by
  refine ⟨fun setup moves move waiter phase => World.isFinal_of_settled setup moves move,
    fun setup moves index due waiter => World.settled_of_isFree,
    fun setting arguments path opens => ⟨fun result launched => ?_, fun terminal launched => ?_⟩⟩
  · rcases launchCommand_cases launched with ⟨other, same, failed⟩ | ⟨terminal, same, -⟩
    · cases same
      exact failed
    · cases same
  · rcases launchCommand_cases launched with ⟨result, same, -⟩ | ⟨other, same, prepared⟩
    · cases same
    · cases same
      intro service bound code uninterrupted ended
      have concludes : (run service Schedule.wake? bound terminal).Concludes :=
        concludes_run bound (rendering_prepare prepared opens).concludes
      exact ⟨concludes.verdict uninterrupted code ended, concludes.versions_eq⟩

/-- A body with a document. -/
def documentBody : Json :=
  .obj [("success", .bool true), ("previewHTML", .str "x")]

/-- What the sandbox says of a version: a symbol is missing from the first one. -/
def reportOf (version : Int) : LifecycleMessage where
  session := "s"
  version := version
  event :=
    if version = 1 then .error ⟨"Header is not defined", none, none, none, none, none⟩
    else .ready none none

/-- A version fails for want of a symbol while someone waits, and its retry becomes ready. -/
def retriedMoves : List Move :=
  [.edit "a", .refresh "main", .work 1, .answer 0 (.ok documentBody), .message (reportOf 1),
    .await "main" 50000, .work 3, .work 2, .answer 0 (.ok documentBody), .message (reportOf 2),
    .work 3]

/-- A service at which the same happens to a program. -/
def retriedService : Service := fun _ call =>
  { delay := 0
    delivery := .ok ⟨200, Utf8.encode (documentBody.print true).toList⟩
    verdict := some (1, (reportOf call.version).encode.print true) }

def retriedSetting : Setting :=
  { files := [⟨"a", 0, []⟩] }

/-- A file that begins with a byte with which no text does. -/
def undecodableSetting : Setting :=
  { files := [⟨"a", 0, [255]⟩] }

def retriedLaunch : Except ProgramError Launch :=
  launchCommand retriedSetting { session := some "s" } .render "a"

/-- Whether a program that was launched succeeds with the second version. -/
def succeedsRetried : Except ProgramError Launch → Bool
  | .ok (.running terminal) =>
      let last := run retriedService Schedule.wake? 40 terminal
      !last.isInterrupted && last.ending.any (fun ending => ending.toOption == some 0) &&
        last.controller.version == 2
  | _ => false

theorem verdict_of_retry_is_final :
    ((World.start { session := "s" }).afterAll (retriedMoves ++ [.work 3])).IsFinal
      ((World.start { session := "s" }).run (retriedMoves ++ [.work 3]))
      ((World.start { session := "s" }).requests (retriedMoves ++ [.work 3]))
      ((World.start { session := "s" }).announced (retriedMoves ++ [.work 3])) .ready ∧
    (∃ result, launchCommand undecodableSetting {} .render "a" = .ok (.ended result) ∧
      result.exitCode = 1 ∧ result.calls = []) ∧
    ∃ terminal, retriedLaunch = .ok (.running terminal) ∧
      (run retriedService Schedule.wake? 40 terminal).ending = some (.ok 0) ∧
      (run retriedService Schedule.wake? 40 terminal).controller.phase = .ready ∧
      (run retriedService Schedule.wake? 40 terminal).calls.map PreviewCall.version = [1, 2] := by
  obtain ⟨isFinal, told, renders⟩ := settled_verdict_is_final
  have free : ((World.start { session := "s" }).afterAll retriedMoves).controller.IsFree "main" :=
    ⟨⟨"main", 50000, [2]⟩, rfl, rfl, rfl⟩
  have settled := told { session := "s" } retriedMoves 3 0 "main" rfl (by decide) free
    ⟨rfl, rfl, .inl rfl⟩
  have fault : File.read (File.canonicalPath "a") undecodableSetting.files =
      .error (.undecodable ⟨0, 1, 255, .startByte⟩) := by
    decide +kernel
  obtain ⟨result, failed⟩ : ∃ result,
      launchCommand undecodableSetting {} .render "a" = .ok (.ended result) := by
    unfold launchCommand
    dsimp only
    rw [fault]
    exact ⟨_, rfl⟩
  refine ⟨isFinal _ retriedMoves (.work 3) "main" .ready rfl settled,
    ⟨result, failed, (renders undecodableSetting {} "a" rfl).1 _ failed⟩, ?_⟩
  have evaluated : succeedsRetried retriedLaunch = true := by decide +kernel
  have renders := (renders retriedSetting { session := some "s" } "a" rfl).2
  rw [← retriedLaunch] at renders
  generalize retriedLaunch = launched at evaluated renders
  obtain error | ended | terminal := launched
  · cases evaluated
  · cases evaluated
  · simp only [succeedsRetried, Bool.and_eq_true, Bool.not_eq_true', beq_iff_eq] at evaluated
    obtain ⟨⟨uninterrupted, succeeded⟩, version_eq⟩ := evaluated
    have ended : (run retriedService Schedule.wake? 40 terminal).ending = some (.ok 0) := by
      rcases ending : (run retriedService Schedule.wake? 40 terminal).ending with _ | error | code
      · simp [ending] at succeeded
      · simp [ending, Except.toOption] at succeeded
      · simpa [ending, Except.toOption] using succeeded
    obtain ⟨ready, versions_eq⟩ := renders terminal rfl retriedService 40 0 uninterrupted ended
    rw [version_eq] at versions_eq
    exact ⟨terminal, rfl, ended, ready.1 rfl, versions_eq⟩

end Terminal

end ComponentPreview
