import ComponentPreview.Service.Store

/-!
# Looking up sessions

For each operation on a store it is said here what it does to the entry of a session. No operation
touches the entries of the other sessions, except that old ones are dropped.
-/

namespace ComponentPreview.Store

/-- Whether no session has two entries. -/
def Distinct (store : Store) : Prop :=
  (store.entries.map StoredPreview.session).Nodup

variable {store : Store} {session other : String}

theorem session_of_find? {entry : StoredPreview} (h : store.find? session = some entry) :
    entry.session = session := by
  have same := List.find?_some h
  exact eq_of_beq same

theorem not_mem_of_find? (h : store.find? session = none) :
    session ∉ store.entries.map StoredPreview.session := by
  intro mem
  obtain ⟨entry, present, rfl⟩ := List.mem_map.1 mem
  have differs := List.find?_eq_none.1 h entry present
  simp at differs

theorem find?_of_mem (distinct : store.Distinct) {entry : StoredPreview}
    (mem : entry ∈ store.entries) : store.find? entry.session = some entry := by
  obtain ⟨entries⟩ := store
  simp only [Distinct, find?] at distinct mem ⊢
  induction entries with
  | nil => cases mem
  | cons first entries ih =>
      obtain ⟨unlike, distinct⟩ := List.nodup_cons.1 distinct
      rcases List.mem_cons.1 mem with rfl | mem
      · simp
      · have other : first.session ≠ entry.session := by
          intro same
          apply unlike
          rw [same]
          exact List.mem_map_of_mem mem
        simp [other, ih distinct mem]

/-! ## Entries that are made -/

theorem find?_ensure_self (now : Instant) :
    (store.ensure session now).find? session =
      some ((store.find? session).getD (fresh session now)) := by
  unfold ensure
  split
  · next entry found => rw [found, Option.getD_some]
  · next missing =>
      simp only [find?] at missing ⊢
      rw [List.find?_append, missing]
      simp [fresh]

theorem find?_ensure_of_ne (different : other ≠ session) (now : Instant) :
    (store.ensure session now).find? other = store.find? other := by
  unfold ensure
  split
  · rfl
  · simp only [find?]
    rw [List.find?_append]
    simp [fresh, Ne.symm different]

theorem distinct_ensure (distinct : store.Distinct) (session : String) (now : Instant) :
    (store.ensure session now).Distinct := by
  unfold ensure
  split
  · exact distinct
  · next missing =>
      rw [Distinct, List.map_append, List.nodup_append]
      refine ⟨distinct, by simp, ?_⟩
      rintro _ mem _ new rfl
      rw [List.map_singleton, List.mem_singleton] at new
      subst new
      exact not_mem_of_find? missing mem

/-! ## Entries that are changed -/

section Update

variable {change : StoredPreview → StoredPreview}
  (keeps : ∀ entry, (change entry).session = entry.session)

include keeps

theorem find?_update :
    (store.update session change).find? other = (store.find? other).map fun entry =>
      if entry.session == session then change entry else entry := by
  have same : ((fun entry : StoredPreview => entry.session == other) ∘ fun entry =>
      if entry.session == session then change entry else entry) =
        fun entry => entry.session == other := by
    funext entry
    dsimp only [Function.comp_apply]
    split
    · rw [keeps]
    · rfl
  rw [find?, update, List.find?_map, same, find?]

theorem find?_update_self :
    (store.update session change).find? session = (store.find? session).map change := by
  rw [find?_update keeps]
  cases found : store.find? session with
  | none => rfl
  | some entry => simp [session_of_find? found]

theorem find?_update_of_ne (different : other ≠ session) :
    (store.update session change).find? other = store.find? other := by
  rw [find?_update keeps]
  cases found : store.find? other with
  | none => rfl
  | some entry => simp [session_of_find? found, different]

theorem distinct_update (distinct : store.Distinct) (session : String) :
    (store.update session change).Distinct := by
  have names : (store.update session change).entries.map StoredPreview.session =
      store.entries.map StoredPreview.session := by
    rw [update, List.map_map]
    refine List.map_congr_left fun entry _ => ?_
    dsimp only [Function.comp_apply]
    split
    · exact keeps entry
    · rfl
  rw [Distinct, names]
  exact distinct

end Update

theorem find?_setRegistry_self (registry : Registry) :
    (store.setRegistry session registry).find? session =
      (store.find? session).map fun entry => { entry with registry } :=
  find?_update_self fun _ => rfl

theorem find?_setRegistry_of_ne (different : other ≠ session) (registry : Registry) :
    (store.setRegistry session registry).find? other = store.find? other :=
  find?_update_of_ne (fun _ => rfl) different

theorem distinct_setRegistry (distinct : store.Distinct) (session : String) (registry : Registry) :
    (store.setRegistry session registry).Distinct := by
  have kept : ∀ entry : StoredPreview, { entry with registry }.session = entry.session :=
    fun _ => rfl
  exact distinct_update kept distinct session

theorem setRegistry_registryOf (distinct : store.Distinct) (session : String) :
    store.setRegistry session (store.registryOf session) = store := by
  have same : store.entries.map (fun entry => if entry.session == session then
      { entry with registry := store.registryOf session } else entry) = store.entries := by
    refine (List.map_congr_left fun entry mem => ?_).trans (List.map_id _)
    split
    · next own =>
        have found := find?_of_mem distinct mem
        rw [eq_of_beq own] at found
        simp [registryOf, found]
    · rfl
  rw [setRegistry, update, same]

def record (version : Int) (document : Document) (now : Instant) (entry : StoredPreview) :
    StoredPreview :=
  { entry with version, document := some document, updatedAt := now }

theorem record_session (version : Int) (document : Document) (now : Instant)
    (entry : StoredPreview) : (record version document now entry).session = entry.session := rfl

theorem save_eq (store : Store) (session : String) (version : Int) (document : Document)
    (now : Instant) :
    (store.save session version document now).1 =
      if version < ((store.find? session).getD (fresh session now)).version then
        store.ensure session now
      else (store.ensure session now).update session (record version document now) := by
  unfold save
  dsimp only
  rw [find?_ensure_self now, Option.any_some]
  by_cases stale : version < ((store.find? session).getD (fresh session now)).version
  · rw [if_pos stale, if_pos (decide_eq_true stale)]
  · rw [if_neg stale, if_neg (by simpa using stale)]
    rfl

/-- A document is recorded unless the entry has a newer version. -/
theorem find?_save_self (version : Int) (document : Document) (now : Instant) :
    let entry := (store.find? session).getD (fresh session now)
    (store.save session version document now).1.find? session =
      some (if version < entry.version then entry else record version document now entry) := by
  intro entry
  rw [save_eq]
  split
  · exact find?_ensure_self now
  · rw [find?_update_self (record_session version document now), find?_ensure_self now]
    rfl

/-- A document renews the entry it is recorded in. -/
theorem exists_find?_save {old : StoredPreview} (found : store.find? session = some old)
    (version : Int) (document : Document) (now : Instant) :
    ∃ entry, (store.save session version document now).1.find? session = some entry ∧
      entry.updatedAt = if version < old.version then old.updatedAt else now := by
  refine ⟨_, find?_save_self version document now, ?_⟩
  rw [found, Option.getD_some]
  split <;> rfl

theorem find?_save_of_ne (different : other ≠ session) (version : Int) (document : Document)
    (now : Instant) :
    (store.save session version document now).1.find? other = store.find? other := by
  rw [save_eq]
  split
  · exact find?_ensure_of_ne different now
  · rw [find?_update_of_ne (record_session version document now) different,
      find?_ensure_of_ne different]

theorem distinct_save (distinct : store.Distinct) (session : String) (version : Int)
    (document : Document) (now : Instant) :
    (store.save session version document now).1.Distinct := by
  have ensured := distinct_ensure distinct session now
  rw [save_eq]
  split
  · exact ensured
  · exact distinct_update (record_session version document now) ensured session

/-! ## Entries that are dropped -/

theorem find?_dropBefore (distinct : store.Distinct) (session : String) (cutoff : Instant) :
    (store.dropBefore cutoff).1.find? session =
      (store.find? session).filter fun entry => cutoff ≤ entry.updatedAt := by
  obtain ⟨entries⟩ := store
  simp only [Distinct, find?, dropBefore] at distinct ⊢
  induction entries with
  | nil => rfl
  | cons entry entries ih =>
      obtain ⟨unlike, distinct⟩ := List.nodup_cons.1 distinct
      by_cases same : entry.session = session
      · subst same
        by_cases recent : cutoff ≤ entry.updatedAt
        · simp [recent, Option.filter]
        · have missing : (entries.filter fun entry => cutoff ≤ entry.updatedAt).find?
              (·.session == entry.session) = none := by
            rw [List.find?_eq_none]
            intro later mem
            simp only [beq_iff_eq]
            intro same
            exact unlike (same ▸ List.mem_map_of_mem (List.mem_filter.1 mem).1)
          simp [recent, missing, Option.filter]
      · have rest := ih distinct
        by_cases recent : cutoff ≤ entry.updatedAt
        · simpa [List.find?_cons, recent, same] using rest
        · simpa [List.find?_cons, recent, same] using rest

theorem find?_dropBefore_cases (distinct : store.Distinct) (session : String)
    (cutoff : Instant) :
    (store.dropBefore cutoff).1.find? session = none ∨
      (store.dropBefore cutoff).1.find? session = store.find? session := by
  rw [find?_dropBefore distinct]
  cases store.find? session with
  | none => exact .inl rfl
  | some entry =>
      rw [Option.filter]
      split
      · exact .inr rfl
      · exact .inl rfl

theorem distinct_dropBefore (distinct : store.Distinct) (cutoff : Instant) :
    (store.dropBefore cutoff).1.Distinct :=
  distinct.sublist (List.filter_sublist.map StoredPreview.session)

end ComponentPreview.Store
