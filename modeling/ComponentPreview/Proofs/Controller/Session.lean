import ComponentPreview.Controller.Session
import ComponentPreview.Proofs.Controller.Run
import ComponentPreview.Proofs.Schedule

/-!
# Sessions are runs

A session does the jobs of a controller in one order and gets its answers from one backend. Whatever
it does a world does too by some moves, so that what holds in every run of a world holds of every
session.
-/

namespace ComponentPreview

/-- Each element is related to one in the middle and that to one at the end. -/
theorem rel_comp {α β γ : Type} {r : α → β → Prop} {q : β → γ → Prop} {first : Multiset α}
    {middle : Multiset β} {last : Multiset γ} (h : Multiset.Rel r first middle)
    (h' : Multiset.Rel q middle last) :
    Multiset.Rel (fun a c => ∃ b, r a b ∧ q b c) first last := by
  induction h generalizing last with
  | zero =>
      rw [Multiset.rel_zero_left.1 h']
      exact .zero
  | cons related others ih =>
      obtain ⟨c, rest, related', others', rfl⟩ := Multiset.rel_cons_left.1 h'
      exact .cons ⟨_, related, related'⟩ (ih others')

/-! ## Worlds that mirror a session -/

/-- What a world has to do: a task, or an answer to a request. -/
inductive Duty
  | work (task : Appointment)
  | reply (request : Request)

namespace Duty

/-- The work is the task, which may be done by then, or an answer to the request. -/
def Covers : Duty → Int × Job → Prop
  | work task, entry => task.job = entry.2 ∧ task.due ≤ entry.1
  | reply request, entry => ∃ answer, entry.2 = .answer request.version request.asker answer

def hurried (now : Int) (number : Nat) : Duty → Duty
  | work task => .work (task.hurried now number)
  | reply request => .reply request

theorem covers_hurried {now : Int} {number : Nat} {duty : Duty} {entry entry' : Int × Job}
    (covers : duty.Covers entry') (late : now ≤ entry.1) (same : entry.2 = entry'.2)
    (time : entry.1 = entry'.1 ∨ Session.isNumber entry.2 number = true ∧ entry.1 = now) :
    (duty.hurried now number).Covers entry := by
  cases duty with
  | reply request => exact covers.imp fun answer eq => same.trans eq
  | work task =>
      obtain ⟨job, due⟩ := covers
      simp only [hurried, Appointment.hurried]
      split
      · exact ⟨job.trans same.symm, late⟩
      · next other =>
          refine ⟨job.trans same.symm, ?_⟩
          rcases time with time | ⟨meant, -⟩
          · exact time ▸ due
          · rw [Session.isNumber, same, ← job, beq_iff_eq] at meant
            exact absurd meant other

end Duty

namespace World

def duties (world : World) : Multiset Duty :=
  (world.tasks : Multiset Appointment).map .work + (world.awaited : Multiset Request).map .reply

theorem duties_task (world : World) (task : Appointment) :
    { world with tasks := world.tasks ++ [task] }.duties = .work task ::ₘ world.duties := by
  rw [duties, ← Multiset.coe_add, Multiset.coe_singleton,
    add_comm (world.tasks : Multiset Appointment), Multiset.singleton_add, Multiset.map_cons,
    Multiset.cons_add]
  rfl

theorem duties_awaited (world : World) (request : Request) :
    { world with awaited := world.awaited ++ [request] }.duties =
      .reply request ::ₘ world.duties := by
  rw [duties, ← Multiset.coe_add, Multiset.coe_singleton,
    add_comm (world.awaited : Multiset Request), Multiset.singleton_add, Multiset.map_cons,
    Multiset.add_cons]
  rfl

theorem duties_hurried (world : World) (number : Nat) :
    { world with tasks := world.tasks.map (Appointment.hurried world.now number) }.duties =
      world.duties.map (Duty.hurried world.now number) := by
  rw [duties, duties, Multiset.map_add, Multiset.map_map, Multiset.map_map, ← Multiset.map_coe,
    Multiset.map_map]
  congr 1

theorem duties_eraseIdx_tasks {world : World} {task : Appointment} {index : Nat}
    (found : world.tasks[index]? = some task) :
    world.duties = .work task ::ₘ { world with tasks := world.tasks.eraseIdx index }.duties := by
  obtain ⟨inside, rfl⟩ := List.getElem?_eq_some_iff.1 found
  have perm := Multiset.coe_eq_coe.2 (List.getElem_cons_eraseIdx_perm inside)
  rw [duties, ← perm, ← Multiset.cons_coe, Multiset.map_cons, Multiset.cons_add]
  rfl

theorem duties_eraseIdx_awaited {world : World} {request : Request} {index : Nat}
    (found : world.awaited[index]? = some request) :
    world.duties =
      .reply request ::ₘ { world with awaited := world.awaited.eraseIdx index }.duties := by
  obtain ⟨inside, rfl⟩ := List.getElem?_eq_some_iff.1 found
  have perm := Multiset.coe_eq_coe.2 (List.getElem_cons_eraseIdx_perm inside)
  rw [duties, ← perm, ← Multiset.cons_coe, Multiset.map_cons, Multiset.add_cons]
  rfl

theorem exists_index_of_work {world : World} {task : Appointment} (h : .work task ∈ world.duties) :
    ∃ index : Nat, world.tasks[index]? = some task := by
  rcases Multiset.mem_add.1 h with h | h
  · obtain ⟨other, mem, eq⟩ := Multiset.mem_map.1 h
    cases eq
    exact List.mem_iff_getElem?.1 mem
  · obtain ⟨other, -, eq⟩ := Multiset.mem_map.1 h
    cases eq

theorem exists_index_of_reply {world : World} {request : Request}
    (h : .reply request ∈ world.duties) : ∃ index : Nat, world.awaited[index]? = some request := by
  rcases Multiset.mem_add.1 h with h | h
  · obtain ⟨other, -, eq⟩ := Multiset.mem_map.1 h
    cases eq
  · obtain ⟨other, mem, eq⟩ := Multiset.mem_map.1 h
    cases eq
    exact List.mem_iff_getElem?.1 mem

/-- A world that has the controller of a session and, by now, all its work to do. -/
structure Mirrors (world : World) (session : Session) : Prop where
  now : world.now = session.schedule.now
  controller : world.controller = session.controller
  works : Multiset.Rel (fun entry duty => duty.Covers entry) session.schedule.works world.duties

end World

namespace Session

variable {backend : Backend} {world : World} {session : Session}

theorem mirrors_heed (mirrors : world.Mirrors session) (notice : Notice) :
    (world.heed notice).Mirrors (session.heed backend notice) := by
  obtain ⟨now, controller, works⟩ := mirrors
  cases notice with
  | post job =>
      refine ⟨now, controller, ?_⟩
      change Multiset.Rel _ (session.schedule.post job).works _
      rw [World.heed, Schedule.works_post, World.duties_task]
      exact .cons ⟨rfl, Int.le_of_eq now⟩ works
  | hold delay job =>
      refine ⟨now.trans (Schedule.now_hold ..).symm, controller, ?_⟩
      · change Multiset.Rel _ (session.schedule.hold delay job).works _
        rw [World.heed, Schedule.works_hold, World.duties_task, now]
        exact .cons ⟨rfl, Int.le_max_right _ _⟩ works
  | hurry number =>
      refine ⟨now, controller, ?_⟩
      change Multiset.Rel _ (session.schedule.hurry fun job => isNumber job number).works _
      rw [World.heed, World.duties_hurried, Multiset.rel_map_right]
      refine (rel_comp (session.schedule.works_hurry _) works).mono ?_
      rintro entry mem duty - ⟨entry', ⟨same, time⟩, covers⟩
      have late := Schedule.now_le_of_mem_works mem
      rw [now]
      exact duty.covers_hurried covers late same time
  | requested request =>
      refine ⟨now.trans (Schedule.now_hold ..).symm, controller, ?_⟩
      · change Multiset.Rel _ (session.schedule.hold _ _).works _
        rw [World.heed, Schedule.works_hold, World.duties_awaited]
        exact .cons ⟨_, rfl⟩ works
  | changed | shown | fullscreen | closed | returned | settled | gaveUp =>
      exact ⟨now, controller, works⟩

theorem mirrors_foldl_heed (notices : List Notice) (mirrors : world.Mirrors session) :
    (notices.foldl World.heed world).Mirrors (notices.foldl (heed backend) session) := by
  induction notices generalizing world session with
  | nil => exact mirrors
  | cons notice notices ih => exact ih (mirrors_heed mirrors notice)

theorem mirrors_act (action : Controller → Controller) (mirrors : world.Mirrors session) :
    (world.act action).1.Mirrors (session.act backend action) := by
  rw [World.act, act, mirrors.controller]
  exact mirrors_foldl_heed _ ⟨mirrors.now, rfl, mirrors.works⟩

def said (session : Session) : List Notice :=
  session.remarks.map Remark.notice

theorem said_heed (session : Session) (notice : Notice) :
    (session.heed backend notice).said = session.said ++ [notice] := by
  cases notice <;> exact List.map_append

theorem said_act (action : Controller → Controller) (mirrors : world.Mirrors session) :
    (session.act backend action).said = session.said ++ (world.act action).2 := by
  have each (notices : List Notice) (session : Session) :
      (notices.foldl (heed backend) session).said = session.said ++ notices := by
    induction notices generalizing session with
    | nil => exact (List.append_nil _).symm
    | cons notice notices ih =>
        rw [List.foldl_cons, ih, said_heed, List.append_assoc, List.singleton_append]
  rw [World.act, act, mirrors.controller]
  exact each _ _

theorem now_heed (session : Session) (notice : Notice) :
    (session.heed backend notice).schedule.now = session.schedule.now := by
  cases notice with
  | hold delay job => exact Schedule.now_hold ..
  | requested request => exact Schedule.now_hold ..
  | _ => rfl

theorem now_act (session : Session) (action : Controller → Controller) :
    (session.act backend action).schedule.now = session.schedule.now := by
  have each (notices : List Notice) (session : Session) :
      (notices.foldl (heed backend) session).schedule.now = session.schedule.now := by
    induction notices generalizing session with
    | nil => rfl
    | cons notice notices ih => exact (ih _).trans (now_heed session notice)
  exact each _ _

/-! ## Moves of a session -/

/-- Each world that mirrors the one session has moves by which it mirrors the other, and the moves
give the notices that are remarked meanwhile. -/
def LeadsTo (session next : Session) : Prop :=
  ∀ world : World, world.Mirrors session → ∃ moves, (world.afterAll moves).Mirrors next ∧
    next.said = session.said ++ (world.run moves).flatMap Transition.notices

theorem LeadsTo.refl (session : Session) : session.LeadsTo session :=
  fun _ mirrors => ⟨[], mirrors, (List.append_nil _).symm⟩

theorem LeadsTo.trans {first middle last : Session} (h : first.LeadsTo middle)
    (h' : middle.LeadsTo last) : first.LeadsTo last := by
  intro world mirrors
  obtain ⟨moves, mirrors', said⟩ := h world mirrors
  obtain ⟨moves', mirrors'', said'⟩ := h' _ mirrors'
  refine ⟨moves ++ moves', ?_, ?_⟩
  · rwa [World.afterAll_append]
  · rw [said', said, World.run_append, List.flatMap_append, List.append_assoc]

theorem leadsTo_of_move {next : Session} (h : ∀ world : World, world.Mirrors session →
      ∃ move, (world.move move).1.Mirrors next ∧ next.said = session.said ++ (world.move move).2) :
    session.LeadsTo next := by
  intro world mirrors
  obtain ⟨move, mirrors', said⟩ := h world mirrors
  refine ⟨[move], mirrors', ?_⟩
  rw [said]
  simp [World.run, Transition.notices]

theorem leadsTo_act (action : Controller → Controller) (move : Move)
    (h : ∀ world : World, world.move move = world.act action) :
    session.LeadsTo (session.act backend action) :=
  leadsTo_of_move fun world mirrors =>
    ⟨move, h world ▸ mirrors_act action mirrors, h world ▸ said_act action mirrors⟩

/-- Work that is taken up is a task that may be done, or the answer to a request. -/
theorem leadsTo_perform {job : Job} {schedule : Schedule Job}
    (now : schedule.now = session.schedule.now)
    (works : session.schedule.works = (session.schedule.now, job) ::ₘ schedule.works) :
    session.LeadsTo (act backend (·.perform job) { session with schedule }) := by
  refine leadsTo_of_move fun world mirrors => ?_
  have covered := mirrors.works
  rw [works] at covered
  obtain ⟨duty, rest, covers, others, duties⟩ := Multiset.rel_cons_left.1 covered
  have present : duty ∈ world.duties := duties ▸ Multiset.mem_cons_self duty rest
  cases duty with
  | work task =>
      obtain ⟨index, found⟩ := World.exists_index_of_work present
      obtain ⟨rfl, due⟩ := covers
      have left := World.duties_eraseIdx_tasks found
      rw [duties, Multiset.cons_inj_right] at left
      have mirrors' : World.Mirrors { world with tasks := world.tasks.eraseIdx index }
          { session with schedule } :=
        ⟨mirrors.now.trans now.symm, mirrors.controller, left ▸ others⟩
      have move_eq : world.move (.work index) =
          World.act (·.perform task.job) { world with tasks := world.tasks.eraseIdx index } := by
        rw [World.move, World.work, found]
        exact if_pos (mirrors.now ▸ due)
      exact ⟨.work index, move_eq ▸ mirrors_act _ mirrors', move_eq ▸ said_act _ mirrors'⟩
  | reply request =>
      obtain ⟨index, found⟩ := World.exists_index_of_reply present
      obtain ⟨answer, rfl⟩ := covers
      have left := World.duties_eraseIdx_awaited found
      rw [duties, Multiset.cons_inj_right] at left
      have mirrors' : World.Mirrors { world with awaited := world.awaited.eraseIdx index }
          { session with schedule } :=
        ⟨mirrors.now.trans now.symm, mirrors.controller, left ▸ others⟩
      have move_eq : world.move (.answer index answer) =
          World.act (·.perform (.answer request.version request.asker answer))
            { world with awaited := world.awaited.eraseIdx index } := by
        rw [World.move, World.answer, found]
      exact ⟨.answer index answer, move_eq ▸ mirrors_act _ mirrors', move_eq ▸ said_act _ mirrors'⟩

theorem leadsTo_schedule {schedule : Schedule Job} (now : schedule.now = session.schedule.now)
    (works : session.schedule.works = schedule.works) :
    session.LeadsTo { session with schedule } :=
  fun _ mirrors => ⟨[], ⟨mirrors.now.trans now.symm, mirrors.controller, works ▸ mirrors.works⟩,
    (List.append_nil _).symm⟩

theorem leadsTo_later {now : Int} (later : session.schedule.now ≤ now) :
    session.LeadsTo { session with schedule := { session.schedule with now } } := by
  intro world mirrors
  refine ⟨[.pass (now - session.schedule.now).toNat], ⟨?_, mirrors.controller, ?_⟩, ?_⟩
  · change world.now + ((now - session.schedule.now).toNat : Int) = now
    rw [mirrors.now]
    omega
  · refine (rel_comp (session.schedule.works_later later) mirrors.works).mono ?_
    rintro entry - duty - ⟨entry', ⟨same, due⟩, covers⟩
    cases duty with
    | work task => exact ⟨covers.1.trans same.symm, covers.2.trans due⟩
    | reply request => exact covers.imp fun answer eq => same.trans eq
  · exact (List.append_nil _).symm

theorem leadsTo_settle (bound : Nat) (session : Session) :
    session.LeadsTo (settle backend bound session) := by
  induction bound generalizing session with
  | zero => exact .refl session
  | succ bound ih =>
      rw [settle]
      split
      · exact .refl session
      · next schedule turn =>
          obtain ⟨now, works⟩ := Schedule.works_turn? turn
          exact (leadsTo_schedule now (works.trans (zero_add _))).trans (ih _)
      · next job schedule turn =>
          obtain ⟨now, works⟩ := Schedule.works_turn? turn
          exact (leadsTo_perform now works).trans (ih _)

theorem now_settle (bound : Nat) (session : Session) :
    (settle backend bound session).schedule.now = session.schedule.now := by
  induction bound generalizing session with
  | zero => rfl
  | succ bound ih =>
      rw [settle]
      split
      · rfl
      · next schedule turn => exact (ih _).trans (Schedule.works_turn? turn).1
      · next job schedule turn =>
          rw [ih, now_act]
          exact (Schedule.works_turn? turn).1

theorem leadsTo_advance {stop : Int} (bound : Nat) {session : Session}
    (forward : session.schedule.now ≤ stop) :
    session.LeadsTo (advance backend stop bound session) := by
  induction bound generalizing session with
  | zero => exact .refl session
  | succ bound ih =>
      rw [advance]
      split
      · exact leadsTo_later forward
      · next schedule woken =>
          obtain ⟨wakes, early⟩ := Option.filter_eq_some_iff.1 woken
          obtain ⟨first, -, rfl⟩ := Option.map_eq_some_iff.1 wakes
          refine ((leadsTo_later (Int.le_max_left _ _)).trans (leadsTo_settle _ _)).trans (ih ?_)
          rw [now_settle]
          exact of_decide_eq_true early

theorem leadsTo_publish (message : LifecycleMessage) :
    session.LeadsTo (publish backend session message).1 := by
  have each (subscribers : List String) (session : Session) (count : Nat) :
      session.LeadsTo (subscribers.foldl (fun (state, delivered) _ =>
        (act backend (·.handle message) state, delivered + 1)) (session, count)).1 := by
    induction subscribers generalizing session count with
    | nil => exact .refl session
    | cons subscriber subscribers ih =>
        exact (leadsTo_act (·.handle message) (.message message) fun _ => rfl).trans (ih _ _)
  exact each _ session 0

/-- Whether an input does not turn time back. -/
def Input.isForward : Input → Bool
  | .advance span => decide (0 ≤ span)
  | _ => true

theorem leadsTo_take (session : Session) {input : Input} (forward : input.isForward = true) :
    session.LeadsTo (session.take backend input) := by
  refine .trans ?_ (leadsTo_settle _ _)
  cases input with
  | edit code => exact leadsTo_act (·.edit code) (.edit code) fun _ => rfl
  | refresh => exact leadsTo_act (·.note (.post (.refresh ""))) (.refresh "") fun _ => rfl
  | fullscreen => exact leadsTo_act Controller.fullscreen .fullscreen fun _ => rfl
  | close => exact leadsTo_act Controller.close .close fun _ => rfl
  | message message => exact leadsTo_publish message
  | direct message => exact leadsTo_act (·.handle message) (.message message) fun _ => rfl
  | wait name poll =>
      exact leadsTo_act (fun controller => (controller.await name poll).note (.post (.attend name)))
        (.await name poll) fun _ => rfl
  | advance span =>
      have later := of_decide_eq_true forward
      exact leadsTo_advance _ (by omega)

theorem leadsTo_run (session : Session) {inputs : List Input}
    (forward : ∀ input ∈ inputs, input.isForward = true) :
    session.LeadsTo (session.run backend inputs) := by
  induction inputs generalizing session with
  | nil => exact .refl session
  | cons input inputs ih =>
      obtain ⟨first, others⟩ := List.forall_mem_cons.1 forward
      exact (leadsTo_take session first).trans (ih _ others)

/-- Whatever a session does from its start on, with any backend, is a run of a world. -/
theorem exists_run (setup : Setup) (backend : Backend) {inputs : List Input}
    (forward : ∀ input ∈ inputs, input.isForward = true) :
    ∃ moves, ((World.start setup).afterAll moves).Mirrors
        ((start setup.controller).run backend inputs) ∧
      ((start setup.controller).run backend inputs).said =
        ((World.start setup).run moves).flatMap Transition.notices :=
  leadsTo_run (start setup.controller) forward (World.start setup) ⟨rfl, rfl, .zero⟩

end Session

end ComponentPreview
