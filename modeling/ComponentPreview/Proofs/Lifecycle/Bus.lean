import ComponentPreview.Lifecycle.Bus

/-!
# Subscribers of a bus

Subscribing and unsubscribing touch the subscribers of one session. A session without subscribers is
not kept, so that a bus without subscribers is empty.
-/

namespace ComponentPreview.Bus

variable {κ σ : Type}

/-- Whether each session is kept once, and only with subscribers. -/
structure Tidy (bus : Bus κ) : Prop where
  nodup : (bus.sessions.map Prod.fst).Nodup
  inhabited : ∀ entry ∈ bus.sessions, entry.2 ≠ []

theorem tidy_empty : (empty : Bus κ).Tidy :=
  ⟨List.nodup_nil, fun _ mem => nomatch mem⟩

theorem mem_setSubscribers {session : String} {present : List κ}
    {sessions : List (String × List κ)} {entry : String × List κ}
    (h : entry ∈ setSubscribers session present sessions) :
    entry ∈ sessions ∨ entry = (session, present) ∧ present ≠ [] := by
  induction sessions with
  | nil =>
      cases present with
      | nil => cases h
      | cons first rest => exact .inr ⟨List.mem_singleton.1 h, List.cons_ne_nil _ _⟩
  | cons kept sessions ih =>
      by_cases same : kept.1 == session
      · cases present with
        | nil =>
            simp only [setSubscribers, same, if_true, List.isEmpty_nil] at h
            exact .inl (List.mem_cons_of_mem _ h)
        | cons first rest =>
            simp only [setSubscribers, same, if_true, List.isEmpty_cons, Bool.false_eq_true,
              if_false] at h
            rcases List.mem_cons.1 h with rfl | mem
            · exact .inr ⟨rfl, List.cons_ne_nil _ _⟩
            · exact .inl (List.mem_cons_of_mem _ mem)
      · simp only [setSubscribers, same, Bool.false_eq_true, if_false] at h
        rcases List.mem_cons.1 h with rfl | mem
        · exact .inl List.mem_cons_self
        · exact (ih mem).imp_left (List.mem_cons_of_mem _)

theorem nodup_setSubscribers {sessions : List (String × List κ)}
    (nodup : (sessions.map Prod.fst).Nodup) (session : String) (present : List κ) :
    ((setSubscribers session present sessions).map Prod.fst).Nodup := by
  induction sessions with
  | nil => cases present <;> simp [setSubscribers]
  | cons kept sessions ih =>
      obtain ⟨name, old⟩ := kept
      obtain ⟨unlike, nodup⟩ := List.nodup_cons.1 nodup
      by_cases same : name = session
      · subst same
        cases present with
        | nil => simpa [setSubscribers] using nodup
        | cons first rest =>
            simp only [setSubscribers, beq_self_eq_true, if_true, List.isEmpty_cons,
              Bool.false_eq_true, if_false, List.map_cons]
            exact List.nodup_cons.2 ⟨unlike, nodup⟩
      · simp only [setSubscribers, beq_iff_eq, same, if_false, List.map_cons, List.nodup_cons]
        refine ⟨?_, ih nodup⟩
        intro mem
        obtain ⟨entry, mem, fst_eq⟩ := List.mem_map.1 mem
        rcases mem_setSubscribers mem with mem | ⟨rfl, -⟩
        · have listed : entry.1 ∈ sessions.map Prod.fst := List.mem_map_of_mem mem
          exact unlike (fst_eq ▸ listed)
        · exact same fst_eq.symm

theorem find?_of_not_mem {sessions : List (String × List κ)} {session : String}
    (h : session ∉ sessions.map Prod.fst) : sessions.find? (·.1 == session) = none := by
  rw [List.find?_eq_none]
  intro entry mem
  rw [beq_iff_eq]
  rintro rfl
  exact h (List.mem_map_of_mem mem)

theorem find?_setSubscribers_self {sessions : List (String × List κ)}
    (nodup : (sessions.map Prod.fst).Nodup) (session : String) (present : List κ) :
    (setSubscribers session present sessions).find? (·.1 == session) =
      if present.isEmpty then none else some (session, present) := by
  induction sessions with
  | nil => cases present <;> simp [setSubscribers]
  | cons kept sessions ih =>
      obtain ⟨name, old⟩ := kept
      obtain ⟨unlike, nodup⟩ := List.nodup_cons.1 nodup
      by_cases same : name = session
      · subst same
        cases present with
        | nil =>
            have missing := find?_of_not_mem unlike
            simpa [setSubscribers] using missing
        | cons first rest => simp [setSubscribers]
      · simpa [setSubscribers, same] using ih nodup

theorem find?_setSubscribers_of_ne {session other : String} (different : other ≠ session)
    (present : List κ) (sessions : List (String × List κ)) :
    (setSubscribers session present sessions).find? (·.1 == other) =
      sessions.find? (·.1 == other) := by
  induction sessions with
  | nil => cases present <;> simp [setSubscribers, Ne.symm different]
  | cons kept sessions ih =>
      obtain ⟨name, old⟩ := kept
      by_cases same : name = session
      · subst same
        cases present <;> simp [setSubscribers, Ne.symm different]
      · by_cases meant : name = other
        · subst meant
          simp [setSubscribers, same]
        · simpa [setSubscribers, same, meant] using ih

variable {bus : Bus κ}

theorem tidy_setSubscribers (tidy : bus.Tidy) (session : String) (present : List κ) :
    Tidy ⟨setSubscribers session present bus.sessions⟩ where
  nodup := nodup_setSubscribers tidy.nodup session present
  inhabited := by
    intro entry mem
    rcases mem_setSubscribers mem with mem | ⟨rfl, inhabited⟩
    · exact tidy.inhabited entry mem
    · exact inhabited

theorem subscribers_setSubscribers (tidy : bus.Tidy) (session other : String) (present : List κ) :
    subscribers ⟨setSubscribers session present bus.sessions⟩ other =
      if other = session then present else bus.subscribers other := by
  unfold subscribers
  dsimp only
  by_cases own : other = session
  · subst own
    rw [find?_setSubscribers_self tidy.nodup, if_pos rfl]
    cases present <;> rfl
  · rw [find?_setSubscribers_of_ne own, if_neg own]

theorem subscribers_subscribe (tidy : bus.Tidy) (session other : String) (subscriber : κ) :
    (bus.subscribe session subscriber).subscribers other =
      if other = session then bus.subscribers session ++ [subscriber]
      else bus.subscribers other :=
  subscribers_setSubscribers tidy session other _

theorem subscribers_unsubscribe [BEq κ] (tidy : bus.Tidy) (session other : String)
    (subscriber : κ) :
    (bus.unsubscribe session subscriber).subscribers other =
      if other = session then (bus.subscribers session).erase subscriber
      else bus.subscribers other :=
  subscribers_setSubscribers tidy session other _

theorem count_subscribe_of_ne [BEq κ] [LawfulBEq κ] (tidy : bus.Tidy) {subscriber other : κ}
    (different : other ≠ subscriber) (session name : String) :
    ((bus.subscribe session other).subscribers name).count subscriber =
      (bus.subscribers name).count subscriber := by
  rw [subscribers_subscribe tidy]
  split
  · next own => simp [own, different]
  · rfl

theorem count_unsubscribe_le [BEq κ] (tidy : bus.Tidy) (session name : String)
    (other subscriber : κ) :
    ((bus.unsubscribe session other).subscribers name).count subscriber ≤
      (bus.subscribers name).count subscriber := by
  rw [subscribers_unsubscribe tidy]
  split
  · next own => exact own ▸ List.erase_sublist.count_le subscriber
  · exact Nat.le_refl _

theorem count_unsubscribe_of_ne [BEq κ] [LawfulBEq κ] (tidy : bus.Tidy) {subscriber other : κ}
    (different : other ≠ subscriber) (session name : String) :
    ((bus.unsubscribe session other).subscribers name).count subscriber =
      (bus.subscribers name).count subscriber := by
  rw [subscribers_unsubscribe tidy]
  split
  · next own => rw [own, List.count_erase_of_ne (Ne.symm different)]
  · rfl

theorem not_mem_of_subscribers (tidy : bus.Tidy) {session : String}
    (h : bus.subscribers session = []) : session ∉ bus.sessions.map Prod.fst := by
  intro mem
  unfold subscribers at h
  cases found : bus.sessions.find? (·.1 == session) with
  | none =>
      obtain ⟨entry, kept, rfl⟩ := List.mem_map.1 mem
      have differs := List.find?_eq_none.1 found entry kept
      simp at differs
  | some entry =>
      rw [found] at h
      exact tidy.inhabited entry (List.mem_of_find?_eq_some found) h

/-- A session is kept just while it has subscribers. -/
theorem mem_sessions_iff (tidy : bus.Tidy) (session : String) :
    session ∈ bus.sessions.map Prod.fst ↔ 0 < bus.count session := by
  rw [count, List.length_pos_iff]
  constructor
  · intro mem none
    exact not_mem_of_subscribers tidy none mem
  · intro present
    refine Classical.byContradiction fun missing => present ?_
    simp [subscribers, find?_of_not_mem missing]

theorem deliver_eq_foldl (react : κ → σ → σ × Bool) (subscribers : List κ) (state : σ) :
    (deliver react subscribers state).1 =
      subscribers.foldl (fun state subscriber => (react subscriber state).1) state := by
  unfold deliver
  generalize 0 = count
  induction subscribers generalizing state count with
  | nil => rfl
  | cons subscriber subscribers ih => exact ih _ _

/-- One call of a delivery, with the count so far. -/
def callNext (react : κ → σ → σ × Bool) (progress : σ × Nat) (subscriber : κ) : σ × Nat :=
  ((react subscriber progress.1).1,
    if (react subscriber progress.1).2 then progress.2 + 1 else progress.2)

theorem foldl_callNext (react : κ → σ → σ × Bool) (subscribers : List κ) (state : σ)
    (count : Nat) :
    subscribers.foldl (callNext react) (state, count) =
      ((deliver react subscribers state).1, (deliver react subscribers state).2 + count) := by
  induction subscribers generalizing state count with
  | nil => simp [deliver]
  | cons subscriber subscribers ih =>
      have first : deliver react (subscriber :: subscribers) state =
          subscribers.foldl (callNext react) (callNext react (state, 0) subscriber) := rfl
      rw [first, List.foldl_cons, callNext, callNext, ih, ih]
      cases (react subscriber state).2 <;> simp [Nat.add_assoc, Nat.add_comm 1]

/-- The first subscriber is called, and then the others. -/
theorem deliver_cons (react : κ → σ → σ × Bool) (subscriber : κ) (subscribers : List κ)
    (state : σ) :
    deliver react (subscriber :: subscribers) state =
      ((deliver react subscribers (react subscriber state).1).1,
        (deliver react subscribers (react subscriber state).1).2 +
          if (react subscriber state).2 then 1 else 0) :=
  foldl_callNext react subscribers _ _

/-- What every call keeps is kept by a delivery. -/
theorem deliver_induction {react : κ → σ → σ × Bool} (motive : σ → Prop)
    (step : ∀ subscriber state, motive state → motive (react subscriber state).1)
    (subscribers : List κ) {state : σ} (h : motive state) :
    motive (deliver react subscribers state).1 := by
  rw [deliver_eq_foldl]
  induction subscribers generalizing state with
  | nil => exact h
  | cons subscriber subscribers ih => exact ih (step subscriber state h)

/-- Two deliveries go alike if each of their calls does. -/
theorem deliver_rel {react : κ → σ → σ × Bool} (related : σ → σ → Prop)
    (step : ∀ subscriber first second, related first second →
      related (react subscriber first).1 (react subscriber second).1 ∧
        (react subscriber first).2 = (react subscriber second).2)
    (subscribers : List κ) {first second : σ} (h : related first second) :
    related (deliver react subscribers first).1 (deliver react subscribers second).1 ∧
      (deliver react subscribers first).2 = (deliver react subscribers second).2 := by
  unfold deliver
  generalize 0 = count
  induction subscribers generalizing first second count with
  | nil => exact ⟨h, rfl⟩
  | cons subscriber subscribers ih =>
      obtain ⟨h, same⟩ := step subscriber first second h
      simp only [List.foldl_cons, same]
      exact ih h _

theorem deliver_keeps {τ : Type} (read : σ → τ) (react : κ → σ → σ × Bool)
    (keeps : ∀ subscriber state, read (react subscriber state).1 = read state)
    (subscribers : List κ) (state : σ) :
    read (deliver react subscribers state).1 = read state := by
  rw [deliver_eq_foldl]
  induction subscribers generalizing state with
  | nil => rfl
  | cons subscriber subscribers ih => exact (ih _).trans (keeps subscriber state)

end ComponentPreview.Bus
