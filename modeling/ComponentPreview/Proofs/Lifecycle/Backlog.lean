import ComponentPreview.Lifecycle.Bus

/-!
# What becomes of the items of a backlog

What is pushed to a backlog stands behind what it holds, and its readers take from the front. So
items leave in the order in which they came, and those that are left are the latest. An item leaves
without being taken only to make room, and then the backlog is full of newer ones.
-/

namespace ComponentPreview.Backlog

variable {α : Type}

/-- An item that is pushed to a full backlog takes the place of the oldest, and all that the backlog
then holds is newer than that one. -/
theorem push_cases (backlog : Backlog α) (item : α) :
    backlog.items.length < capacity ∧ (backlog.push item).items = backlog.items ++ [item] ∨
      ∃ oldest, backlog.items ++ [item] = oldest :: (backlog.push item).items ∧
        capacity ≤ (backlog.push item).items.length := by
  unfold push
  split
  · next room => exact .inl ⟨room, rfl⟩
  · next full =>
      obtain ⟨items⟩ := backlog
      cases items with
      | nil =>
          have room : 0 < capacity := by decide
          exact absurd room full
      | cons oldest items =>
          refine .inr ⟨oldest, rfl, ?_⟩
          simpa using full

theorem take_zero (backlog : Backlog α) : backlog.take 0 = ([], backlog) :=
  rfl

theorem handed_append_rest (backlog : Backlog α) (count : Nat) :
    backlog.items = (backlog.take count).1 ++ (backlog.take count).2.items :=
  (List.take_append_drop count backlog.items).symm

theorem length_take_le (backlog : Backlog α) (count : Nat) :
    (backlog.take count).2.items.length ≤ backlog.items.length := by
  simp [take]

inductive Fate
  | taken
  | dropped
  deriving DecidableEq, Repr

/-- A backlog with all that was pushed to it and all that was taken from it. -/
structure Ledger (α : Type) where
  backlog : Backlog α := .empty
  pushed : List α := []
  taken : List α := []

namespace Ledger

def push (ledger : Ledger α) (item : α) : Ledger α :=
  { ledger with backlog := ledger.backlog.push item, pushed := ledger.pushed ++ [item] }

def take (ledger : Ledger α) (count : Nat) : Ledger α :=
  { ledger with
    backlog := (ledger.backlog.take count).2
    taken := ledger.taken ++ (ledger.backlog.take count).1 }

/-- Whether each item that was pushed was taken, in turn, or dropped, or is still there, behind all
that are gone; an item was dropped only after as many newer ones came as the backlog can hold. -/
structure Balanced (ledger : Ledger α) : Prop where
  bounded : ledger.backlog.items.length ≤ capacity
  account : ∃ gone : List (α × Fate),
    ledger.pushed = gone.map Prod.fst ++ ledger.backlog.items ∧
    ledger.taken = (gone.filter (·.2 = .taken)).map Prod.fst ∧
    ∀ index item, gone[index]? = some (item, .dropped) → index + capacity < ledger.pushed.length

theorem balanced_empty : ({} : Ledger α).Balanced where
  bounded := Nat.zero_le _
  account := ⟨[], rfl, rfl, fun _ _ found => nomatch found⟩

variable {ledger : Ledger α}

theorem Balanced.push (balanced : ledger.Balanced) (item : α) : (ledger.push item).Balanced := by
  refine ⟨length_push_le _ _ balanced.bounded, ?_⟩
  obtain ⟨gone, pushed_eq, taken_eq, late⟩ := balanced.account
  obtain ⟨-, items_eq⟩ | ⟨oldest, items_eq, full⟩ := push_cases ledger.backlog item
  · refine ⟨gone, ?_, taken_eq, ?_⟩
    · simp only [Ledger.push, pushed_eq, items_eq, List.append_assoc]
    · intro index other found
      have := late index other found
      simp only [Ledger.push, List.length_append]
      omega
  · refine ⟨gone ++ [(oldest, .dropped)], ?_, ?_, ?_⟩
    · simp only [Ledger.push, pushed_eq, items_eq, List.append_assoc, List.map_append,
        List.map_cons, List.map_nil, List.singleton_append]
    · simpa [Ledger.push] using taken_eq
    · intro index other found
      have index_le : index ≤ gone.length := by
        have := (List.getElem?_eq_some_iff.1 found).1
        simp only [List.length_append, List.length_singleton] at this
        omega
      -- The item that makes room now is the last that is gone; behind it are those on hold.
      have length_eq := congrArg List.length items_eq
      have pushed_length := congrArg List.length pushed_eq
      simp only [List.length_append, List.length_cons, List.length_nil, List.length_map]
        at length_eq pushed_length
      simp only [Ledger.push, List.length_append, List.length_singleton]
      omega

theorem Balanced.take (balanced : ledger.Balanced) (count : Nat) :
    (ledger.take count).Balanced := by
  refine ⟨Nat.le_trans (length_take_le _ _) balanced.bounded, ?_⟩
  obtain ⟨gone, pushed_eq, taken_eq, late⟩ := balanced.account
  refine ⟨gone ++ (ledger.backlog.take count).1.map (·, .taken), ?_, ?_, ?_⟩
  · rw [List.map_append, List.map_map, List.append_assoc]
    change ledger.pushed = _ ++ (List.map id _ ++ _)
    rw [List.map_id, pushed_eq]
    exact congrArg _ (handed_append_rest _ _)
  · have all : ((ledger.backlog.take count).1.map (·, Fate.taken)).filter (·.2 = .taken) =
        (ledger.backlog.take count).1.map (·, .taken) := by
      rw [List.filter_eq_self]
      simp
    rw [List.filter_append, List.map_append, all, List.map_map]
    change ledger.taken ++ _ = _ ++ List.map id _
    rw [List.map_id, taken_eq]
  · intro index item found
    refine late index item ?_
    rw [List.getElem?_append] at found
    split at found
    · exact found
    · simp at found

end Ledger

end ComponentPreview.Backlog
