import ComponentPreview.Controller.Step

/-!
# Runs of a controller

A world holds a controller, the jobs it has posted and the requests that still wait for an answer.
Its moves come in any order: time passes, something happens outside, a job whose time has come is
done, or a request is answered, whichever it is and whatever the answer. So every order of jobs
and every delay of answers is a sequence of moves.
-/

namespace ComponentPreview

structure Setup where
  session : String
  options : List (String × Json) := []
  objection : Json → Option Breakdown := fun _ => none
  autoStub : Bool := true
  debounceTime : Milliseconds := .count 1000
  renderTime : Milliseconds := .count 5000

def Setup.controller (setup : Setup) : Controller where
  session := setup.session
  options := setup.options
  objection := setup.objection
  autoStub := setup.autoStub
  debounceTime := setup.debounceTime
  renderTime := setup.renderTime

/-- A job and the time before which it is not done. -/
structure Appointment where
  due : Int
  job : Job

def Appointment.hurried (now : Int) (number : Nat) (task : Appointment) : Appointment :=
  if task.job.number? = some number then { task with due := now } else task

structure World where
  now : Int := 0
  controller : Controller
  tasks : List Appointment := []
  /-- The requests that have not been answered. -/
  awaited : List Request := []

inductive Move
  | pass (span : Nat)
  | edit (code : String)
  | refresh (caller : String)
  | fullscreen
  | close
  | message (message : LifecycleMessage)
  | await (waiter : String) (poll : Int)
  /-- The job at a place among the tasks is done, if its time has come. -/
  | work (index : Nat)
  /-- The request at a place among those awaited is answered. -/
  | answer (index : Nat) (answer : Answer)

namespace World

def start (setup : Setup) : World :=
  { controller := setup.controller }

def heed (world : World) : Notice → World
  | .post job => { world with tasks := world.tasks ++ [⟨world.now, job⟩] }
  | .hold delay job => { world with tasks := world.tasks ++ [⟨world.now + delay, job⟩] }
  | .hurry number => { world with tasks := world.tasks.map (Appointment.hurried world.now number) }
  | .requested request => { world with awaited := world.awaited ++ [request] }
  | _ => world

/-- Lets the controller act and takes up its notices. -/
def act (action : Controller → Controller) (world : World) : World × List Notice :=
  let (controller, notices) := (action world.controller).flush
  (notices.foldl heed { world with controller }, notices)

def work (world : World) (index : Nat) : World × List Notice :=
  match world.tasks[index]? with
  | some task =>
      if task.due ≤ world.now then
        { world with tasks := world.tasks.eraseIdx index }.act (·.perform task.job)
      else (world, [])
  | none => (world, [])

def answer (world : World) (index : Nat) (answer : Answer) : World × List Notice :=
  match world.awaited[index]? with
  | some request =>
      { world with awaited := world.awaited.eraseIdx index }.act
        (·.perform (.answer request.version request.asker answer))
  | none => (world, [])

def move (world : World) : Move → World × List Notice
  | .pass span => ({ world with now := world.now + span }, [])
  | .edit code => world.act (·.edit code)
  | .refresh caller => world.act (·.note (.post (.refresh caller)))
  | .fullscreen => world.act Controller.fullscreen
  | .close => world.act Controller.close
  | .message message => world.act (·.handle message)
  | .await waiter poll => world.act fun controller =>
      (controller.await waiter poll).note (.post (.attend waiter))
  | .work index => world.work index
  | .answer index answer => world.answer index answer

end World

/-- One move of a run and the world in which it is made. -/
structure Transition where
  before : World
  move : Move

namespace Transition

def after (transition : Transition) : World :=
  (transition.before.move transition.move).1

def notices (transition : Transition) : List Notice :=
  (transition.before.move transition.move).2

end Transition

namespace World

def run (world : World) : List Move → List Transition
  | [] => []
  | move :: moves => ⟨world, move⟩ :: run (world.move move).1 moves

def afterAll (world : World) (moves : List Move) : World :=
  moves.foldl (fun world move => (world.move move).1) world

variable {world : World}

theorem run_append (earlier later : List Move) :
    world.run (earlier ++ later) = world.run earlier ++ (world.afterAll earlier).run later := by
  induction earlier generalizing world with
  | nil => rfl
  | cons move earlier ih =>
      rw [List.cons_append, run, run, ih, List.cons_append]
      rfl

theorem afterAll_append (earlier later : List Move) :
    world.afterAll (earlier ++ later) = (world.afterAll earlier).afterAll later :=
  List.foldl_append

theorem run_concat (moves : List Move) (move : Move) :
    world.run (moves ++ [move]) = world.run moves ++ [⟨world.afterAll moves, move⟩] :=
  run_append moves [move]

theorem afterAll_concat (moves : List Move) (move : Move) :
    world.afterAll (moves ++ [move]) = ((world.afterAll moves).move move).1 :=
  afterAll_append moves [move]

theorem exists_split_of_mem_run {moves : List Move} {transition : Transition}
    (h : transition ∈ world.run moves) :
    ∃ earlier later, moves = earlier ++ transition.move :: later ∧
      transition.before = world.afterAll earlier := by
  induction moves generalizing world with
  | nil => cases h
  | cons move moves ih =>
      rw [run, List.mem_cons] at h
      rcases h with rfl | h
      · exact ⟨[], moves, rfl, rfl⟩
      · obtain ⟨earlier, later, moves_eq, before_eq⟩ := ih h
        exact ⟨move :: earlier, later, by rw [moves_eq]; rfl, before_eq⟩

/-- What every guarded move keeps holds throughout a run of guarded moves. -/
theorem run_induction {motive : World → Prop} {guard : Transition → Prop}
    (step : ∀ world move, motive world → guard ⟨world, move⟩ → motive (world.move move).1)
    {moves : List Move} (h : motive world)
    (guarded : ∀ transition ∈ world.run moves, guard transition) :
    motive (world.afterAll moves) ∧ ∀ transition ∈ world.run moves, motive transition.before := by
  induction moves generalizing world with
  | nil => exact ⟨h, fun _ mem => nomatch mem⟩
  | cons move moves ih =>
      have next := step world move h (guarded _ List.mem_cons_self)
      obtain ⟨last, each⟩ := ih next fun transition mem =>
        guarded transition (List.mem_cons_of_mem _ mem)
      refine ⟨last, ?_⟩
      intro transition mem
      rw [run, List.mem_cons] at mem
      rcases mem with rfl | mem
      · exact h
      · exact each transition mem

theorem invariant {motive : World → Prop}
    (step : ∀ world move, motive world → motive (world.move move).1) (moves : List Move)
    (h : motive world) :
    motive (world.afterAll moves) ∧ ∀ transition ∈ world.run moves, motive transition.before := by
  have unguarded : ∀ transition ∈ world.run moves, (fun _ : Transition => True) transition :=
    fun _ _ => True.intro
  exact run_induction (fun world move kept _ => step world move kept) h unguarded

end World

end ComponentPreview
