import ComponentPreview.Proofs.Controller.Desk
import ComponentPreview.Proofs.Controller.Session
import ComponentPreview.Proofs.Controller.Verdict
import ComponentPreview.Proofs.Lifecycle.Bus

/-!
# Closing

A session that is closed stays as it is. Nothing is told or requested any more, whatever still
waits to be done, and no message on the bus reaches it.
-/

namespace ComponentPreview

namespace Effect

variable {before after : Course} {occasion : Occasion} {news : List Notice}

/-- Once a session is closed there is no news, and of its course only the deadline may still go. -/
theorem of_closed (effect : Effect before occasion news after) (closed : before.isClosed = true) :
    news = [] ∧ after = { before with deadline := after.deadline } := by
  cases effect with
  | quiet | disarm => exact ⟨rfl, rfl⟩
  | request _ _ isOpen | fail _ _ _ _ isOpen | close isOpen => simp [closed] at isOpen
  | ready _ _ _ _ _ heeds => simp [heeds.isOpen] at closed
  | accept _ _ _ _ _ welcome => simp [welcome.isOpen] at closed

end Effect

/-- What all the requests and messages of a session have come to. -/
structure Standing where
  phase : Phase
  version : Nat
  code : Option String
  document : Json
  failure : Option Failure

def Controller.standing (controller : Controller) : Standing where
  phase := controller.phase
  version := controller.version
  code := controller.code
  document := controller.document
  failure := controller.failure

/-- Closing itself changes nothing but that the session is closed. -/
theorem Controller.standing_close (controller : Controller) :
    controller.close.standing = controller.standing := by
  cases isClosed : controller.isClosed with
  | true => rw [controller.close_of_closed isClosed]
  | false =>
      rw [controller.close_eq isClosed]
      rfl

namespace World

variable {world : World}

/-- Whether a session is closed and stands as it did then. -/
structure IsOverWith (standing : Standing) (world : World) : Prop where
  drafted : world.Drafted
  isClosed : world.controller.isClosed = true
  standing_eq : world.controller.standing = standing

theorem isOpen_of_move (sound : world.Sound) {move : Move}
    (isOpen : (world.move move).1.controller.isClosed = false) :
    world.controller.isClosed = false := by
  rw [← Bool.not_eq_true]
  intro closed
  have same := congrArg Course.isClosed ((effect_of_sound sound move).of_closed closed).2
  have still : (world.move move).1.controller.isClosed = world.controller.isClosed := same
  rw [isOpen, closed] at still
  cases still

theorem code_move_of_closed (drafted : world.Drafted)
    (closed : world.controller.isClosed = true) (move : Move) :
    (world.move move).1.controller.code = world.controller.code := by
  have kept {requests : List Request} {desk : Desk} (drafts : world.Drafts move requests desk) :
      desk.code = world.controller.code := by
    cases drafts with
    | edit code isOpen => simp [closed] at isOpen
    | _ => rfl
  exact kept (drafts_move drafted move)

theorem isOverWith_move {standing : Standing} (ended : world.IsOverWith standing) (move : Move) :
    (∀ notice ∈ (world.move move).2, notice.isNews = false) ∧
      (world.move move).1.IsOverWith standing := by
  obtain ⟨silent, same⟩ :=
    (effect_of_sound ended.drafted.steady.sound move).of_closed ended.isClosed
  have code := code_move_of_closed ended.drafted ended.isClosed move
  refine ⟨?_, drafted_move ended.drafted move, ?_, ?_⟩
  · intro notice mem
    exact Bool.eq_false_iff.2 (List.filter_eq_nil_iff.1 silent notice mem)
  · exact (congrArg Course.isClosed same).trans ended.isClosed
  · have phase := congrArg Course.phase same
    have version := congrArg Course.version same
    have document := congrArg Course.document same
    have failure := congrArg Course.failure same
    dsimp only [Controller.course] at phase version document failure
    rw [← ended.standing_eq, Controller.standing, Controller.standing, phase, version, code,
      document, failure]

theorem isOverWith_close (drafted : world.Drafted) :
    (world.move .close).1.IsOverWith world.controller.standing where
  drafted := drafted_move drafted .close
  isClosed := by
    rw [World.move, act_controller]
    exact world.controller.isClosed_close
  standing_eq := by
    rw [World.move, act_controller]
    exact world.controller.standing_close

theorem isOverWith_run {standing : Standing} (ended : world.IsOverWith standing)
    (moves : List Move) : ∀ transition ∈ world.run moves, transition.before.IsOverWith standing :=
  (invariant (motive := fun world => world.IsOverWith standing)
    (fun _ move ended => (isOverWith_move ended move).2) moves ended).2

end World

/-! ## The bus -/

namespace Session

variable {backend : Backend} {session : Session}

section Invariant

variable {motive : Session → Prop}
  (scheduled : ∀ session schedule, motive session → motive { session with schedule })
  (acted : ∀ session action, motive session →
    (session.controller.news = [] →
      ∃ occasion, session.controller.Comes (action session.controller) occasion) →
    motive (act backend action session))

include scheduled acted

theorem invariant_settle (bound : Nat) {session : Session} (h : motive session) :
    motive (settle backend bound session) := by
  induction bound generalizing session with
  | zero => exact h
  | succ bound ih =>
      rw [settle]
      split
      · exact h
      · exact ih (scheduled _ _ h)
      · next job schedule _ =>
          refine ih (acted _ _ (scheduled _ _ h) ?_)
          exact fun silent => ⟨_, Controller.comes_perform silent job⟩

theorem invariant_advance (stop : Int) (bound : Nat) {session : Session} (h : motive session) :
    motive (advance backend stop bound session) := by
  induction bound generalizing session with
  | zero => exact h
  | succ bound ih =>
      rw [advance]
      split
      · exact scheduled _ _ h
      · exact ih (invariant_settle scheduled acted _ (scheduled _ _ h))

theorem invariant_takeAtOnce (input : Input) {session : Session} (h : motive session) :
    motive (session.takeAtOnce backend input) := by
  have handled (message : LifecycleMessage) (session : Session) (h : motive session) :
      motive (act backend (·.handle message) session) :=
    acted session _ h fun silent => ⟨_, Controller.comes_handle silent message⟩
  cases input with
  | edit code =>
      exact acted session (·.edit code) h fun silent =>
        ⟨.other, Controller.comes_edit silent code⟩
  | refresh =>
      exact acted session (·.note (.post (.refresh ""))) h fun silent =>
        ⟨.other, ((Controller.Quiet.refl _).note rfl).comes silent⟩
  | fullscreen =>
      exact acted session _ h fun silent => ⟨.other, (Controller.quiet_fullscreen _).comes silent⟩
  | close => exact acted session _ h fun silent => ⟨.other, Controller.comes_close silent⟩
  | message message =>
      rw [takeAtOnce, publish, Bus.publish, Bus.deliver_eq_foldl]
      generalize session.bus.subscribers message.session = subscribers
      induction subscribers generalizing session with
      | nil => exact h
      | cons subscriber subscribers ih => exact ih (handled message session h)
  | direct message => exact handled message session h
  | wait name poll =>
      exact acted session
        (fun controller => (controller.await name poll).note (.post (.attend name))) h
        fun silent => ⟨.other, ((Controller.quiet_await _ name poll).note rfl).comes silent⟩
  | advance span => exact invariant_advance scheduled acted _ _ h

/-- What the schedule keeps, and all that a controller does, holds throughout a session. -/
theorem invariant (inputs : List Input) {session : Session} (h : motive session) :
    motive (session.run backend inputs) := by
  induction inputs generalizing session with
  | nil => exact h
  | cons input inputs ih =>
      exact ih (invariant_settle scheduled acted _ (invariant_takeAtOnce scheduled acted input h))

end Invariant

/-- What a notice makes of the bus. -/
def relay (name : String) (bus : Bus String) : Notice → Bus String
  | .closed => bus.unsubscribe name name
  | _ => bus

theorem foldl_heed_eq (backend : Backend) (notices : List Notice) (session : Session) :
    (notices.foldl (heed backend) session).controller = session.controller ∧
      (notices.foldl (heed backend) session).bus =
        (notices.filter Notice.isNews).foldl (relay session.controller.session) session.bus := by
  induction notices generalizing session with
  | nil => exact ⟨rfl, rfl⟩
  | cons notice notices ih =>
      obtain ⟨controller, bus⟩ := ih (session.heed backend notice)
      have same : (session.heed backend notice).controller = session.controller := by
        cases notice <;> rfl
      refine ⟨controller.trans same, bus.trans ?_⟩
      rw [same, List.filter_cons]
      cases notice <;> rfl

theorem controller_act (session : Session) (action : Controller → Controller) :
    (act backend action session).controller = { action session.controller with notices := [] } :=
  (foldl_heed_eq backend _ _).1

theorem bus_act (session : Session) (action : Controller → Controller) :
    (act backend action session).bus =
      (action session.controller).news.foldl (relay (action session.controller).session)
        session.bus :=
  (foldl_heed_eq backend _ _).2

/-- Whether the bus has the controller as its only subscriber until the session is closed, and none
from then on. -/
structure Listens (name : String) (session : Session) : Prop where
  news_eq : session.controller.news = []
  name_eq : session.controller.session = name
  bus_eq : session.bus =
    if session.controller.isClosed then .empty else Bus.empty.subscribe name name

theorem listens_start (setup : Setup) :
    (start setup.controller).Listens setup.controller.session :=
  ⟨rfl, rfl, rfl⟩

theorem foldl_relay {name : String} {before after : Course} {occasion : Occasion}
    {news : List Notice} (effect : Effect before occasion news after) :
    news.foldl (relay name)
        (if before.isClosed then .empty else Bus.empty.subscribe name name) =
      if after.isClosed then .empty else Bus.empty.subscribe name name := by
  cases effect with
  | close isOpen =>
      simp [isOpen, relay, Bus.unsubscribe, Bus.subscribe, Bus.empty, Bus.setSubscribers,
        Bus.subscribers]
  | fail kind message =>
      by_cases announced : Controller.isAnnounced message = true <;> simp [announced, relay]
  | accept body isShown =>
      cases (Controller.limitsOf? body).isSome <;> cases isShown <;> rfl
  | quiet | request | ready | disarm => rfl

theorem listens_act {name : String} (listens : session.Listens name)
    {action : Controller → Controller} {occasion : Occasion}
    (comes : session.controller.Comes (action session.controller) occasion) :
    (act backend action session).Listens name := by
  have same : (action session.controller).session = session.controller.session := by
    have kept {news : List Notice} {after : Course}
        (effect : Effect session.controller.course occasion news after) :
        after.session = session.controller.session := by
      cases effect <;> rfl
    exact kept comes
  refine ⟨by rw [controller_act]; rfl, ?_, ?_⟩
  · rw [controller_act]
    exact same.trans listens.name_eq
  · rw [bus_act, same, listens.name_eq, listens.bus_eq, controller_act]
    exact foldl_relay comes

theorem Listens.scheduled {name : String} (session : Session) (schedule : Schedule Job)
    (listens : session.Listens name) : Listens name { session with schedule } :=
  ⟨listens.news_eq, listens.name_eq, listens.bus_eq⟩

theorem listens_run (backend : Backend) {name : String} (listens : session.Listens name)
    (inputs : List Input) : (session.run backend inputs).Listens name := by
  refine invariant Listens.scheduled ?_ inputs listens
  intro session action listens comes
  obtain ⟨occasion, comes⟩ := comes listens.news_eq
  exact listens_act listens comes

/-- Whether a session is closed, so that the bus has no subscriber. -/
structure IsSevered (name : String) (session : Session) : Prop where
  listens : session.Listens name
  isClosed : session.controller.isClosed = true

theorem isSevered_act {name : String} (session : Session) (action : Controller → Controller)
    (severed : session.IsSevered name)
    (comes : session.controller.news = [] →
      ∃ occasion, session.controller.Comes (action session.controller) occasion) :
    (act backend action session).IsSevered name := by
  obtain ⟨occasion, comes⟩ := comes severed.listens.news_eq
  refine ⟨listens_act severed.listens comes, ?_⟩
  have closed := congrArg Course.isClosed (Effect.of_closed comes severed.isClosed).2
  rw [controller_act]
  exact closed.trans severed.isClosed

theorem IsSevered.scheduled {name : String} (session : Session) (schedule : Schedule Job)
    (severed : session.IsSevered name) : IsSevered name { session with schedule } :=
  ⟨severed.listens.scheduled session schedule, severed.isClosed⟩

theorem isSevered_run (backend : Backend) {name : String} (severed : session.IsSevered name)
    (inputs : List Input) :
    (session.run backend inputs).IsSevered name :=
  invariant IsSevered.scheduled isSevered_act inputs severed

theorem isSevered_close (backend : Backend) {name : String} (listens : session.Listens name) :
    (session.take backend .close).IsSevered name := by
  have comes : session.controller.Comes session.controller.close .other :=
    Controller.comes_close listens.news_eq
  have closed : (session.takeAtOnce backend .close).IsSevered name := by
    refine ⟨listens_act listens comes, ?_⟩
    rw [takeAtOnce, controller_act]
    exact session.controller.isClosed_close
  exact invariant_settle IsSevered.scheduled isSevered_act _ closed

theorem publish_of_isSevered {name : String} (severed : session.IsSevered name)
    (message : LifecycleMessage) : publish backend session message = (session, 0) := by
  have bus := severed.listens.bus_eq
  rw [severed.isClosed, if_pos rfl] at bus
  rw [publish, Bus.publish, bus]
  rfl

end Session

/-- Once a session is closed, whatever it is doing then and whatever still comes, nothing is
requested, shown or told any more, what it has come to stays, and the bus delivers nothing to it. -/
theorem close_is_final (setup : Setup) :
    (∀ earlier later, ∀ transition ∈
        ((World.start setup).afterAll (earlier ++ [.close])).run later,
      (∀ notice ∈ transition.notices, notice.isNews = false) ∧
        transition.after.controller.isClosed = true ∧
        transition.after.controller.standing =
          ((World.start setup).afterAll earlier).controller.standing) ∧
    ∀ backend earlier later message,
      Session.publish backend
          ((Session.start setup.controller).run backend (earlier ++ .close :: later)) message =
        ((Session.start setup.controller).run backend (earlier ++ .close :: later), 0) := by
  refine ⟨?_, ?_⟩
  · intro earlier later transition mem
    have drafted := (World.drafted_run setup earlier).1
    rw [World.afterAll_append] at mem
    have ended := World.isOverWith_run (World.isOverWith_close drafted) later transition mem
    obtain ⟨silent, ended⟩ := World.isOverWith_move ended transition.move
    exact ⟨silent, ended.isClosed, ended.standing_eq⟩
  · intro backend earlier later message
    have listens := Session.listens_run backend (Session.listens_start setup) earlier
    have severed := Session.isSevered_run backend (Session.isSevered_close backend listens) later
    rw [Session.run, List.foldl_append]
    exact Session.publish_of_isSevered severed message

/-- The answer to a request that was awaited when its session was closed changes nothing. -/
theorem answer_after_close_is_lost :
    let closed := (World.start { session := "s" }).afterAll (World.firstRequest ++ [.close])
    (∀ notice ∈ (Transition.mk closed World.firstAnswer).notices, notice.isNews = false) ∧
      (closed.move World.firstAnswer).1.controller.standing =
        ((World.start { session := "s" }).afterAll World.firstRequest).controller.standing := by
  have final := (close_is_final { session := "s" }).1 World.firstRequest [World.firstAnswer] _
    List.mem_cons_self
  exact ⟨final.1, final.2.2⟩

end ComponentPreview
