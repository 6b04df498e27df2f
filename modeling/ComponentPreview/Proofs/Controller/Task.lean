import ComponentPreview.Proofs.Controller.Steady
import Mathlib.Data.List.Perm.Basic

/-!
# Tasks of a kind

A move takes at most one task away and adds those that its notices give. What is said here of the
tasks of one kind holds for the debounce in force as for the deadline in force: all of them stay as
they are, unless one of them is done, given or hurried.
-/

namespace ComponentPreview

section Lists

variable {α : Type} {items : List α} {index : Nat} {item : α}

theorem perm_cons_eraseIdx (found : items[index]? = some item) :
    items.Perm (item :: items.eraseIdx index) := by
  obtain ⟨inside, rfl⟩ := List.getElem?_eq_some_iff.1 found
  exact (List.getElem_cons_eraseIdx_perm inside).symm

theorem countP_eraseIdx (p : α → Bool) (found : items[index]? = some item) :
    items.countP p = (items.eraseIdx index).countP p + if p item then 1 else 0 := by
  rw [(perm_cons_eraseIdx found).countP_eq p, List.countP_cons]

theorem filter_eraseIdx_of_false {p : α → Bool} (found : items[index]? = some item)
    (h : p item = false) : (items.eraseIdx index).filter p = items.filter p := by
  induction items generalizing index with
  | nil => rfl
  | cons first items ih =>
      cases index with
      | zero =>
          obtain rfl : first = item := by simpa using found
          simp [h]
      | succ index =>
          have found : items[index]? = some item := by simpa using found
          rw [List.eraseIdx_cons_succ, List.filter_cons, List.filter_cons, ih found]

/-- The only item of a kind is taken away. -/
theorem filter_eraseIdx_of_singleton {p : α → Bool} {only : α}
    (found : items[index]? = some item) (h : p item = true) (single : items.filter p = [only]) :
    only = item ∧ (items.eraseIdx index).filter p = [] := by
  have perm := (perm_cons_eraseIdx found).filter p
  rw [single, List.filter_cons_of_pos h] at perm
  have same := List.singleton_perm.1 perm
  simp only [List.cons.injEq] at same
  exact ⟨same.1, same.2.symm⟩

end Lists

/-- The task that a notice gives. -/
def Notice.task? (now : Int) : Notice → Option Appointment
  | post job => some ⟨now, job⟩
  | hold delay job => some ⟨now + delay, job⟩
  | _ => none

theorem Appointment.job_hurried (now : Int) (number : Nat) (task : Appointment) :
    (task.hurried now number).job = task.job := by
  unfold hurried
  split <;> rfl

namespace World

/-- How many tasks are of a kind. -/
def count (p : Job → Bool) (world : World) : Nat :=
  world.tasks.countP fun task => p task.job

variable {world : World} {notices : List Notice}

theorem now_heed (world : World) (notice : Notice) : (world.heed notice).now = world.now := by
  cases notice <;> rfl

theorem tasks_heed_eq (world : World) (notice : Notice) :
    (world.heed notice).tasks =
      (match notice with
        | .hurry number => world.tasks.map (Appointment.hurried world.now number)
        | _ => world.tasks) ++ (notice.task? world.now).toList := by
  cases notice <;> simp [heed, Notice.task?]

theorem count_heed (p : Job → Bool) (world : World) (notice : Notice) :
    (world.heed notice).count p = world.count p + if notice.job?.any p then 1 else 0 := by
  cases notice with
  | post job | hold delay job =>
      cases h : p job <;> simp [count, heed, Notice.job?, List.countP_append, h]
  | hurry number =>
      have same : (fun task : Appointment => p task.job) ∘ Appointment.hurried world.now number =
          fun task => p task.job := by
        funext task
        rw [Function.comp_apply, Appointment.job_hurried]
      simp [count, heed, Notice.job?, List.countP_map, same]
  | _ => rfl

theorem count_foldl_heed (p : Job → Bool) (world : World) (notices : List Notice) :
    (notices.foldl heed world).count p =
      world.count p + notices.countP fun notice => notice.job?.any p := by
  induction notices generalizing world with
  | nil => rfl
  | cons notice notices ih =>
      rw [List.foldl_cons, ih, count_heed, List.countP_cons]
      omega

/-- Tasks of a kind of which none is hurried. -/
theorem filter_tasks_foldl_heed {p : Job → Bool}
    (spared : ∀ number, .hurry number ∈ notices → ∀ job, p job = true → job.number? ≠ some number)
    (world : World) :
    (notices.foldl heed world).tasks.filter (fun task => p task.job) =
      world.tasks.filter (fun task => p task.job) ++
        (notices.filterMap (Notice.task? world.now)).filter fun task => p task.job := by
  induction notices generalizing world with
  | nil => simp
  | cons notice notices ih =>
      have kept : (world.heed notice).tasks.filter (fun task => p task.job) =
          world.tasks.filter (fun task => p task.job) ++
            (notice.task? world.now).toList.filter fun task => p task.job := by
        rw [tasks_heed_eq, List.filter_append]
        congr 1
        split
        · next number =>
            rw [List.filter_map]
            have same : (fun task : Appointment => p task.job) ∘
                Appointment.hurried world.now number = fun task => p task.job := by
              funext task
              rw [Function.comp_apply, Appointment.job_hurried]
            rw [same]
            refine (List.map_congr_left fun task mem => ?_).trans (List.map_id _)
            have meant := (List.mem_filter.1 mem).2
            exact if_neg (spared number List.mem_cons_self task.job meant)
        · rfl
      have given : (notice :: notices).filterMap (Notice.task? world.now) =
          (notice.task? world.now).toList ++ notices.filterMap (Notice.task? world.now) := by
        cases h : notice.task? world.now <;> simp [h]
      rw [List.foldl_cons, ih fun number mem => spared number (List.mem_cons_of_mem _ mem), kept,
        now_heed, List.append_assoc, ← List.filter_append, given]

variable {action : Controller → Controller}

theorem count_act (p : Job → Bool) :
    (world.act action).1.count p = world.count p +
      (action world.controller).notices.countP fun notice => notice.job?.any p :=
  count_foldl_heed ..

theorem filter_tasks_act {p : Job → Bool}
    (spared : ∀ number, .hurry number ∈ (action world.controller).notices →
      ∀ job, p job = true → job.number? ≠ some number) :
    (world.act action).1.tasks.filter (fun task => p task.job) =
      world.tasks.filter (fun task => p task.job) ++
        ((action world.controller).notices.filterMap (Notice.task? world.now)).filter
          fun task => p task.job :=
  filter_tasks_foldl_heed spared _

theorem act_of_note (action : Controller → Controller) (silent : world.controller.notices = [])
    {notice : Notice} (h : action world.controller = world.controller.note notice) :
    world.act action = (world.heed notice, [notice]) := by
  have same : { world.controller with notices := [] } = world.controller := by rw [← silent]
  have flushed : (action world.controller).flush = (world.controller, [notice]) := by
    rw [h, Controller.note, silent, Controller.flush, List.nil_append]
    exact congrArg (·, [notice]) same
  rw [act, flushed]
  rfl

end World

end ComponentPreview
