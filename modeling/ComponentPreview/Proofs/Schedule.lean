import ComponentPreview.Schedule
import Mathlib.Data.Multiset.Bind

/-!
# The work of a schedule

All that a schedule has to do, wherever it stands: in the round, posted for the next one or held. A
turn takes at most one piece of work out of it; posting and holding put one in; hurrying and the
passing of time change only from when on it can be done.

What is held stands in order of time, so that time never moves past anything that is due. Work that
is pending by some time stays so until it is done, whatever else is given and hurried.
-/

namespace ComponentPreview

namespace Schedule

variable {ι : Type} {schedule schedule' : Schedule ι} {isMeant : ι → Bool}

def turnWork : Turn ι → ι
  | .perform work | .wake work => work

/-- What is left of the round and what is posted for the next. -/
def ready (schedule : Schedule ι) : Multiset ι :=
  ↑(schedule.round.map turnWork) + ↑schedule.posted

/-- All work of a schedule, each with the time before which it cannot be done. -/
def works (schedule : Schedule ι) : Multiset (Int × ι) :=
  schedule.ready.map (schedule.now, ·) +
    (schedule.held : Multiset (Held ι)).map fun entry =>
      (max schedule.now entry.due, entry.work)

theorem works_post (schedule : Schedule ι) (work : ι) :
    (schedule.post work).works = (schedule.now, work) ::ₘ schedule.works := by
  have ready_eq : (schedule.post work).ready = work ::ₘ schedule.ready := by
    rw [ready, post, ← Multiset.coe_add, Multiset.coe_singleton, ← add_assoc, add_comm,
      Multiset.singleton_add, ready]
  rw [works, ready_eq, Multiset.map_cons, Multiset.cons_add]
  rfl

theorem insert_perm (entry : Held ι) (held : List (Held ι)) :
    (insert entry held).Perm (entry :: held) := by
  induction held with
  | nil => exact .refl _
  | cons other held ih =>
      rw [insert]
      split
      · exact (ih.cons other).trans (.swap _ _ _)
      · exact .refl _

theorem now_hold (schedule : Schedule ι) (delay : Int) (work : ι) :
    (schedule.hold delay work).now = schedule.now := by
  unfold hold
  split <;> rfl

theorem works_insert (schedule : Schedule ι) (entry : Held ι) :
    { schedule with held := insert entry schedule.held }.works =
      (max schedule.now entry.due, entry.work) ::ₘ schedule.works := by
  rw [works, Multiset.coe_eq_coe.2 (insert_perm _ _), ← Multiset.cons_coe, Multiset.map_cons,
    Multiset.add_cons]
  rfl

theorem works_alarm (schedule : Schedule ι) (delay : Int) (work : ι) :
    (schedule.alarm delay work).works =
      (max schedule.now (schedule.now + delay), work) ::ₘ schedule.works :=
  schedule.works_insert _

theorem works_hold (schedule : Schedule ι) (delay : Int) (work : ι) :
    (schedule.hold delay work).works =
      (max schedule.now (schedule.now + delay), work) ::ₘ schedule.works := by
  unfold hold
  split
  · exact schedule.works_insert _
  · next none => rw [works_post, max_eq_left (by omega)]

theorem now_le_of_mem_works {entry : Int × ι} (h : entry ∈ schedule.works) :
    schedule.now ≤ entry.1 := by
  rcases Multiset.mem_add.1 h with h | h
  · obtain ⟨work, -, rfl⟩ := Multiset.mem_map.1 h
    exact Int.le_refl _
  · obtain ⟨held, -, rfl⟩ := Multiset.mem_map.1 h
    exact Int.le_max_left _ _

/-- The sleepers that are hurried leave the round and are posted. -/
theorem hurried_round (isMeant : ι → Bool) (round : List (Turn ι)) :
    (↑((round.filter fun turn => !turn.sleeper?.any isMeant).map turnWork) : Multiset ι) +
      ↑((round.filterMap Turn.sleeper?).filter isMeant) = ↑(round.map turnWork) := by
  induction round with
  | nil => rfl
  | cons turn round ih =>
      cases turn with
      | perform work =>
          rw [List.filter_cons_of_pos rfl, List.filterMap_cons_none rfl, List.map_cons,
            List.map_cons, ← Multiset.cons_coe, ← Multiset.cons_coe, Multiset.cons_add, ih]
      | wake work =>
          rw [List.filterMap_cons_some (f := Turn.sleeper?) rfl]
          cases meant : isMeant work with
          | true =>
              rw [List.filter_cons_of_neg (by simp [Turn.sleeper?, meant]),
                List.filter_cons_of_pos meant, List.map_cons, ← Multiset.cons_coe,
                ← Multiset.cons_coe, Multiset.add_cons, ih]
              rfl
          | false =>
              rw [List.filter_cons_of_pos (by simp [Turn.sleeper?, meant]),
                List.filter_cons_of_neg (by simp [meant]), List.map_cons, List.map_cons,
                ← Multiset.cons_coe, ← Multiset.cons_coe, Multiset.cons_add, ih]

/-- What is hurried can be done now; all else stays as it was. -/
theorem works_hurry (schedule : Schedule ι) (isMeant : ι → Bool) :
    Multiset.Rel (fun entry entry' => entry.2 = entry'.2 ∧
        (entry.1 = entry'.1 ∨ isMeant entry.2 = true ∧ entry.1 = schedule.now))
      (schedule.hurry isMeant).works schedule.works := by
  let hurried := schedule.held.filter fun entry => entry.isSleeper && isMeant entry.work
  let kept := schedule.held.filter fun entry => !(entry.isSleeper && isMeant entry.work)
  have ready_eq : (schedule.hurry isMeant).ready =
      schedule.ready + (hurried : Multiset (Held ι)).map Held.work := by
    let waking := (schedule.round.filterMap Turn.sleeper?).filter isMeant
    let staying := (schedule.round.filter fun turn => !turn.sleeper?.any isMeant).map turnWork
    change (staying : Multiset ι) + ↑(schedule.posted ++ waking ++ hurried.map Held.work) = _
    rw [ready, ← hurried_round isMeant schedule.round, ← Multiset.coe_add, ← Multiset.coe_add,
      Multiset.map_coe, ← add_assoc, ← add_assoc, add_right_comm (staying : Multiset ι)]
  have held_eq : (schedule.held : Multiset (Held ι)) = ↑hurried + ↑kept := by
    rw [Multiset.coe_add, Multiset.coe_eq_coe]
    exact (List.filter_append_perm _ _).symm
  have same (works : Multiset (Int × ι)) : Multiset.Rel (fun entry entry' => entry.2 = entry'.2 ∧
      (entry.1 = entry'.1 ∨ isMeant entry.2 = true ∧ entry.1 = schedule.now)) works works :=
    Multiset.rel_refl_of_refl_on fun _ _ => ⟨rfl, .inl rfl⟩
  rw [works, works, ready_eq, held_eq, Multiset.map_add, Multiset.map_add, add_assoc]
  refine .add (same _) (.add ?_ (same _))
  rw [Multiset.map_map, Multiset.rel_map]
  refine Multiset.rel_refl_of_refl_on fun entry mem => ⟨rfl, .inr ⟨?_, rfl⟩⟩
  have meant := (List.mem_filter.1 (Multiset.mem_coe.1 mem)).2
  exact (Bool.and_eq_true_iff.1 meant).2

/-- Later, nothing can be done earlier. -/
theorem works_later (schedule : Schedule ι) {now : Int} (later : schedule.now ≤ now) :
    Multiset.Rel (fun entry entry' => entry.2 = entry'.2 ∧ entry'.1 ≤ entry.1)
      { schedule with now }.works schedule.works := by
  refine .add ?_ ?_
  · rw [Multiset.rel_map]
    exact Multiset.rel_refl_of_refl_on fun _ _ => ⟨rfl, later⟩
  · rw [Multiset.rel_map]
    exact Multiset.rel_refl_of_refl_on fun _ _ => ⟨rfl, max_le_max_right _ later⟩

theorem works_begin? (h : schedule.begin? = some schedule') (empty : schedule.round = []) :
    schedule'.now = schedule.now ∧ schedule'.works = schedule.works := by
  rw [begin?, List.span_eq_takeWhile_dropWhile] at h
  dsimp only at h
  split at h
  · cases h
  · cases h
    refine ⟨rfl, ?_⟩
    let due := schedule.held.takeWhile fun entry => decide (entry.due ≤ schedule.now)
    let later := schedule.held.dropWhile fun entry => decide (entry.due ≤ schedule.now)
    have held_eq : (schedule.held : Multiset (Held ι)) = ↑due + ↑later := by
      rw [Multiset.coe_add, List.takeWhile_append_dropWhile]
    have turns : (schedule.posted.map Turn.perform ++ due.map Turn.ofHeld).map turnWork =
        schedule.posted ++ due.map Held.work := by
      rw [List.map_append, List.map_map, List.map_map]
      congr 1
      · exact List.map_id _
      · refine List.map_congr_left fun entry _ => ?_
        rw [Function.comp_apply, Turn.ofHeld]
        split <;> rfl
    have now_eq : due.map (fun entry => (max schedule.now entry.due, entry.work)) =
        due.map fun entry => (schedule.now, entry.work) := by
      refine List.map_congr_left fun entry mem => ?_
      have isDue := List.all_eq_true.1 List.all_takeWhile entry mem
      rw [max_eq_left (of_decide_eq_true isDue)]
    have ready_eq : (↑(schedule.posted ++ due.map Held.work) + ↑([] : List ι) : Multiset ι) =
        schedule.ready + (due : Multiset (Held ι)).map Held.work := by
      rw [ready, empty, List.map_nil, Multiset.coe_nil, add_zero, zero_add, ← Multiset.coe_add,
        Multiset.map_coe]
    change ((↑((schedule.posted.map Turn.perform ++ due.map Turn.ofHeld).map turnWork) +
      ↑([] : List ι) : Multiset ι)).map (schedule.now, ·) +
      (later : Multiset (Held ι)).map (fun entry => (max schedule.now entry.due, entry.work)) = _
    rw [turns, ready_eq, works, held_eq, Multiset.map_add, Multiset.map_add, Multiset.map_map,
      add_assoc]
    congr 2
    rw [Multiset.map_coe, Multiset.map_coe, now_eq]
    rfl

/-- A turn takes up one piece of work or none. -/
theorem works_turn? {work? : Option ι} (h : schedule.turn? = some (work?, schedule')) :
    schedule'.now = schedule.now ∧
      schedule.works = (work?.toList.map (schedule.now, ·) : List (Int × ι)) + schedule'.works := by
  unfold turn? at h
  split at h
  · next work round eq =>
      cases h
      refine ⟨rfl, ?_⟩
      rw [works, works, ready, ready, eq, List.map_cons, ← Multiset.cons_coe, Multiset.cons_add,
        Multiset.map_cons, Multiset.cons_add]
      rfl
  · next work round eq =>
      cases h
      refine ⟨rfl, ?_⟩
      rw [works_post, works, works, ready, ready, eq, List.map_cons, ← Multiset.cons_coe,
        Multiset.cons_add, Multiset.map_cons, Multiset.cons_add]
      exact (zero_add _).symm
  · next eq =>
      obtain ⟨begun, begins, same⟩ := Option.map_eq_some_iff.1 h
      cases same
      obtain ⟨now, works⟩ := works_begin? begins eq
      exact ⟨now, by simp [works]⟩

/-! ## Work of a kind -/

/-- Whether all the work of a schedule is of a kind. -/
def All (p : ι → Prop) (schedule : Schedule ι) : Prop :=
  ∀ entry ∈ schedule.works, p entry.2

variable {p : ι → Prop} {work : ι}

theorem all_post (all : schedule.All p) (h : p work) : (schedule.post work).All p := by
  intro entry mem
  rw [works_post, Multiset.mem_cons] at mem
  rcases mem with rfl | mem
  · exact h
  · exact all entry mem

theorem all_hold (all : schedule.All p) (delay : Int) (h : p work) :
    (schedule.hold delay work).All p := by
  intro entry mem
  rw [works_hold, Multiset.mem_cons] at mem
  rcases mem with rfl | mem
  · exact h
  · exact all entry mem

theorem all_alarm (all : schedule.All p) (delay : Int) (h : p work) :
    (schedule.alarm delay work).All p := by
  intro entry mem
  rw [works_alarm, Multiset.mem_cons] at mem
  rcases mem with rfl | mem
  · exact h
  · exact all entry mem

theorem all_hurry (all : schedule.All p) (isMeant : ι → Bool) :
    (schedule.hurry isMeant).All p := by
  intro entry mem
  obtain ⟨entry', mem', same, -⟩ :=
    Multiset.exists_mem_of_rel_of_mem (schedule.works_hurry isMeant) mem
  exact same ▸ all entry' mem'

theorem all_turn? (all : schedule.All p) {work? : Option ι}
    (h : schedule.turn? = some (work?, schedule')) : schedule'.All p ∧ ∀ work ∈ work?, p work := by
  obtain ⟨-, works_eq⟩ := works_turn? h
  refine ⟨fun entry mem => all entry ?_, fun work taken => all (schedule.now, work) ?_⟩
  · rw [works_eq]
    exact Multiset.mem_add.2 (.inr mem)
  · rw [works_eq, Option.mem_def.1 taken]
    exact Multiset.mem_add.2 (.inl (Multiset.mem_coe.2 (List.mem_singleton_self _)))

theorem all_wake? (all : schedule.All p) (h : schedule.wake? = some schedule') :
    schedule'.All p := by
  obtain ⟨first, -, rfl⟩ := Option.map_eq_some_iff.1 h
  intro entry mem
  obtain ⟨entry', mem', same, -⟩ :=
    Multiset.exists_mem_of_rel_of_mem (schedule.works_later (le_max_left _ first.due)) mem
  exact same ▸ all entry' mem'

end Schedule

/-! ## When work is due -/

namespace Schedule

variable {ι : Type} {schedule schedule' : Schedule ι} {limit limit' : Int} {work : ι}

def Ordered (schedule : Schedule ι) : Prop :=
  schedule.held.Pairwise fun entry entry' => entry.due ≤ entry'.due

/-- Whether some work is pending that can be done by a time. -/
def DueBy (limit : Int) (work : ι) (schedule : Schedule ι) : Prop :=
  ∃ due, due ≤ limit ∧ (due, work) ∈ schedule.works

/-- Whether nothing is left that can be done by a time. -/
def IsDoneBy (limit : Int) (schedule : Schedule ι) : Prop :=
  ∀ entry ∈ schedule.works, limit < entry.1

theorem DueBy.mono (pending : schedule.DueBy limit work) (le : limit ≤ limit') :
    schedule.DueBy limit' work := by
  obtain ⟨due, early, mem⟩ := pending
  exact ⟨due, Int.le_trans early le, mem⟩

theorem DueBy.now_le (pending : schedule.DueBy limit work) : schedule.now ≤ limit := by
  obtain ⟨due, early, mem⟩ := pending
  have := now_le_of_mem_works mem
  omega

theorem DueBy.not_isDoneBy (pending : schedule.DueBy limit work) : ¬schedule.IsDoneBy limit := by
  obtain ⟨due, early, mem⟩ := pending
  intro done
  have := done _ mem
  omega

/-- Work that is pending stays so, unless it is what a turn takes up. -/
theorem DueBy.turn? (pending : schedule.DueBy limit work) {work? : Option ι}
    (h : schedule.turn? = some (work?, schedule')) :
    schedule'.DueBy limit work ∨ work? = some work ∧ schedule.now ≤ limit := by
  obtain ⟨due, early, mem⟩ := pending
  rw [(works_turn? h).2, Multiset.mem_add, Multiset.mem_coe] at mem
  rcases mem with mem | mem
  · obtain ⟨taken, mem, same⟩ := List.mem_map.1 mem
    cases same
    exact .inr ⟨Option.mem_toList.1 mem, early⟩
  · exact .inl ⟨due, early, mem⟩

theorem DueBy.of_works_eq (pending : schedule.DueBy limit work)
    (works_eq : schedule'.works = schedule.works) : schedule'.DueBy limit work := by
  rw [DueBy, works_eq]
  exact pending

theorem dueBy_of_works {due : Int} {works : Multiset (Int × ι)}
    (works_eq : schedule.works = (due, work) ::ₘ works) (early : due ≤ limit) :
    schedule.DueBy limit work := by
  refine ⟨due, early, ?_⟩
  rw [works_eq]
  exact Multiset.mem_cons_self _ _

theorem dueBy_post (schedule : Schedule ι) (work : ι) :
    (schedule.post work).DueBy schedule.now work :=
  dueBy_of_works (schedule.works_post work) (Int.le_refl _)

theorem dueBy_hold (schedule : Schedule ι) {delay : Int} (work : ι) (early : delay ≤ limit)
    (nonneg : 0 ≤ limit) : (schedule.hold delay work).DueBy (schedule.now + limit) work := by
  apply dueBy_of_works (schedule.works_hold delay work)
  omega

/-! ## Order -/

theorem ordered_insert {held : List (Held ι)} (entry : Held ι)
    (ordered : held.Pairwise fun entry entry' => entry.due ≤ entry'.due) :
    (insert entry held).Pairwise fun entry entry' => entry.due ≤ entry'.due := by
  induction held with
  | nil => simp [insert]
  | cons first held ih =>
      obtain ⟨least, ordered⟩ := List.pairwise_cons.1 ordered
      rw [insert]
      split
      · next early =>
          refine List.pairwise_cons.2 ⟨?_, ih ordered⟩
          intro other mem
          rcases mem_insert.1 mem with rfl | mem
          · exact early
          · exact least other mem
      · next late =>
          refine List.pairwise_cons.2 ⟨?_, List.pairwise_cons.2 ⟨least, ordered⟩⟩
          intro other mem
          rcases List.mem_cons.1 mem with rfl | mem
          · omega
          · have := least other mem
            omega

theorem ordered_hold (ordered : schedule.Ordered) (delay : Int) (work : ι) :
    (schedule.hold delay work).Ordered := by
  unfold hold
  split
  · exact ordered_insert _ ordered
  · exact ordered

theorem ordered_turn? (ordered : schedule.Ordered) {work? : Option ι}
    (h : schedule.turn? = some (work?, schedule')) : schedule'.Ordered := by
  unfold turn? at h
  split at h
  · cases h
    exact ordered
  · cases h
    exact ordered
  · obtain ⟨begun, begins, same⟩ := Option.map_eq_some_iff.1 h
    cases same
    rw [begin?, List.span_eq_takeWhile_dropWhile] at begins
    dsimp only at begins
    split at begins
    · cases begins
    · cases begins
      exact ordered.sublist (List.dropWhile_sublist _)

/-- Nothing is due when time moves on. -/
theorem idle_of_turn? (idle : schedule.turn? = none) :
    schedule.ready = 0 ∧ ∀ first ∈ schedule.held.head?, schedule.now < first.due := by
  unfold turn? at idle
  split at idle
  · cases idle
  · cases idle
  · next empty =>
      rw [Option.map_eq_none_iff, begin?, List.span_eq_takeWhile_dropWhile] at idle
      dsimp only at idle
      split at idle
      · next none =>
          simp only [List.isEmpty_iff, List.append_eq_nil_iff, List.map_eq_nil_iff] at none
          refine ⟨by simp [ready, empty, none.1], ?_⟩
          intro first mem
          cases held : schedule.held with
          | nil => simp [held] at mem
          | cons entry others =>
              rw [held] at mem none
              obtain rfl := Option.some.inj mem
              by_contra early
              simp [Int.not_lt.1 early] at none
      · cases idle

/-- The passing of time leaves all work as it is. -/
theorem works_wake? (ordered : schedule.Ordered) (idle : schedule.turn? = none)
    (h : schedule.wake? = some schedule') :
    schedule.now ≤ schedule'.now ∧ schedule'.works = schedule.works := by
  obtain ⟨first, head, rfl⟩ := Option.map_eq_some_iff.1 h
  obtain ⟨empty, late⟩ := idle_of_turn? idle
  have later := late first head
  refine ⟨Int.le_max_left _ _, ?_⟩
  rw [works, works]
  change (schedule.ready.map _ + _) = _
  rw [empty, Multiset.map_zero, Multiset.map_zero, zero_add, zero_add]
  apply Multiset.map_congr rfl
  intro entry mem
  have least : first.due ≤ entry.due := by
    cases held : schedule.held with
    | nil => simp [held] at head
    | cons other others =>
        rw [held] at mem head
        obtain rfl := Option.some.inj head
        rw [Ordered, held] at ordered
        rcases List.mem_cons.1 (Multiset.mem_coe.1 mem) with rfl | mem
        · exact Int.le_refl _
        · exact (List.pairwise_cons.1 ordered).1 entry mem
  have same : max (max schedule.now first.due) entry.due = max schedule.now entry.due := by
    omega
  exact Prod.ext same rfl

/-! ## Going on -/

/-- A schedule once it has been given more work of a kind and some of its work was hurried, none of
it fixed. -/
structure Continues (p : ι → Prop) (isFixed : ι → Bool) (before after : Schedule ι) : Prop where
  now_eq : after.now = before.now
  ordered : before.Ordered → after.Ordered
  all : before.All p → after.All p
  dueBy : ∀ {limit work}, before.DueBy limit work → after.DueBy limit work
  fixed_eq : after.works.filter (isFixed ·.2) = before.works.filter (isFixed ·.2)

namespace Continues

variable {p : ι → Prop} {isFixed : ι → Bool} {first second third : Schedule ι}

theorem refl (schedule : Schedule ι) : Continues p isFixed schedule schedule :=
  ⟨rfl, id, id, id, rfl⟩

theorem trans (left : Continues p isFixed first second) (right : Continues p isFixed second third) :
    Continues p isFixed first third where
  now_eq := right.now_eq.trans left.now_eq
  ordered := right.ordered ∘ left.ordered
  all := right.all ∘ left.all
  dueBy := right.dueBy ∘ left.dueBy
  fixed_eq := right.fixed_eq.trans left.fixed_eq

theorem of_works {due : Int} (now_eq : second.now = first.now)
    (ordered : first.Ordered → second.Ordered)
    (works_eq : second.works = (due, work) ::ₘ first.works) (given : p work)
    (free : isFixed work = false) : Continues p isFixed first second where
  now_eq := now_eq
  ordered := ordered
  all := by
    intro all entry mem
    rw [works_eq, Multiset.mem_cons] at mem
    rcases mem with rfl | mem
    · exact given
    · exact all entry mem
  dueBy := by
    rintro limit other ⟨due', early, mem⟩
    refine ⟨due', early, ?_⟩
    rw [works_eq]
    exact Multiset.mem_cons_of_mem mem
  fixed_eq := by
    rw [works_eq, Multiset.filter_cons_of_neg]
    simp [free]

theorem post (schedule : Schedule ι) (given : p work) (free : isFixed work = false) :
    Continues p isFixed schedule (schedule.post work) :=
  of_works rfl id (schedule.works_post work) given free

theorem hold (schedule : Schedule ι) (delay : Int) (given : p work) (free : isFixed work = false) :
    Continues p isFixed schedule (schedule.hold delay work) :=
  of_works (schedule.now_hold delay work) (fun ordered => ordered_hold ordered delay work)
    (schedule.works_hold delay work) given free

theorem alarm (schedule : Schedule ι) (delay : Int) (given : p work)
    (free : isFixed work = false) : Continues p isFixed schedule (schedule.alarm delay work) :=
  of_works rfl (ordered_insert _) (schedule.works_alarm delay work) given free

private theorem filter_eq_of_rel {r : Int × ι → Int × ι → Prop} {works works' : Multiset (Int × ι)}
    (rel : Multiset.Rel r works works') (same : ∀ entry entry', r entry entry' →
      entry.2 = entry'.2 ∧ (isFixed entry.2 = true → entry.1 = entry'.1)) :
    works.filter (isFixed ·.2) = works'.filter (isFixed ·.2) := by
  induction rel with
  | zero => rfl
  | @cons entry entry' others others' related _ ih =>
      obtain ⟨work_eq, due_eq⟩ := same entry entry' related
      cases fixed : isFixed entry.2 with
      | true =>
          obtain rfl : entry = entry' := Prod.ext (due_eq fixed) work_eq
          simp [fixed, ih]
      | false =>
          have fixed' : isFixed entry'.2 = false := work_eq ▸ fixed
          simp [fixed, fixed', ih]

theorem hurry (schedule : Schedule ι) {isMeant : ι → Bool}
    (free : ∀ work, isMeant work = true → isFixed work = false) :
    Continues p isFixed schedule (schedule.hurry isMeant) where
  now_eq := rfl
  ordered ordered := ordered.sublist List.filter_sublist
  all all := all_hurry all isMeant
  dueBy := by
    rintro limit work ⟨due, early, mem⟩
    obtain ⟨⟨due', work'⟩, mem', same, times⟩ :=
      Multiset.exists_mem_of_rel_of_mem (Multiset.rel_flip.2 (schedule.works_hurry isMeant)) mem
    obtain rfl : work' = work := same
    have present := now_le_of_mem_works mem
    refine ⟨due', ?_, mem'⟩
    simp only at times
    omega
  fixed_eq := by
    refine filter_eq_of_rel (schedule.works_hurry isMeant) ?_
    rintro entry entry' ⟨work_eq, same | ⟨meant, -⟩⟩
    · exact ⟨work_eq, fun _ => same⟩
    · refine ⟨work_eq, fun fixed => ?_⟩
      rw [free _ meant] at fixed
      cases fixed

end Continues

end Schedule

end ComponentPreview
