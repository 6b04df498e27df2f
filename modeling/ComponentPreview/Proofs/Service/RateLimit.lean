import ComponentPreview.Service.RateLimit
import Mathlib.Data.List.Induction

/-!
# What a rate limit admits

Checks of any keys come one after the other, with cleanups in between that go back at least as far
as the window. What the limiter still knows of a key is all that a check has to count: the checks of
that key that were admitted within the window. A window that would begin before there are dates has
no verdict and leaves no trace.
-/

namespace ComponentPreview.RateLimiter

inductive Call
  | check (time : Instant) (key : String) (maximum : Int)
  /-- What is older than a number of minutes is forgotten. -/
  | cleanUp (time : Instant) (minutes : Int)
  deriving DecidableEq, Repr

namespace Call

def time : Call → Instant
  | check time _ _ | cleanUp time _ => time

def isCheckOf (key : String) : Call → Bool
  | check _ other _ => other == key
  | cleanUp .. => false

end Call

/-- Checks a key with a window of a number of minutes, which must begin at a date. -/
def checkWithin (limiter : RateLimiter) (window : Int) (key : String) (maximum : Int)
    (now : Instant) : Except Instant.DateError (RateLimiter × Bool) :=
  (Instant.ago window now).map fun cutoff => limiter.check key maximum cutoff now

def verdict (limiter : RateLimiter) (window : Int) (key : String) (maximum : Int)
    (now : Instant) : Except Instant.DateError Bool :=
  (limiter.checkWithin window key maximum now).map Prod.snd

/-- The limiter after a call. One that has no date to go by changes nothing. -/
def take (window : Int) (limiter : RateLimiter) : Call → RateLimiter
  | .check time key maximum =>
      match limiter.checkWithin window key maximum time with
      | .ok (limiter, _) => limiter
      | .error _ => limiter
  | .cleanUp time minutes =>
      match Instant.ago minutes time with
      | .ok cutoff => limiter.forgetUntil cutoff
      | .error _ => limiter

def afterAll (window : Int) (limiter : RateLimiter) (calls : List Call) : RateLimiter :=
  calls.foldl (take window) limiter

/-- The time of a call that is a check of the key and is admitted. -/
def admission? (window : Int) (key : String) (limiter : RateLimiter) : Call → Option Instant
  | .check time other maximum =>
      if other = key ∧ limiter.verdict window other maximum time = .ok true then some time else none
  | .cleanUp .. => none

/-- When checks of a key are admitted in the course of some calls. -/
def admissions (window : Int) (key : String) : RateLimiter → List Call → List Instant
  | _, [] => []
  | limiter, call :: calls =>
      (limiter.admission? window key call).toList ++
        admissions window key (limiter.take window call) calls

variable {limiter : RateLimiter} {window : Int} {key other : String} {time : Instant}
  {calls : List Call}

theorem afterAll_append (earlier later : List Call) :
    limiter.afterAll window (earlier ++ later) =
      (limiter.afterAll window earlier).afterAll window later :=
  List.foldl_append

theorem admissions_append (earlier later : List Call) :
    limiter.admissions window key (earlier ++ later) =
      limiter.admissions window key earlier ++
        (limiter.afterAll window earlier).admissions window key later := by
  induction earlier generalizing limiter with
  | nil => rfl
  | cons call earlier ih =>
      rw [List.cons_append, admissions, admissions, ih, List.append_assoc]
      rfl

theorem admissions_concat (calls : List Call) (call : Call) :
    limiter.admissions window key (calls ++ [call]) =
      limiter.admissions window key calls ++
        ((limiter.afterAll window calls).admission? window key call).toList := by
  rw [admissions_append, admissions, admissions, List.append_nil]

theorem mem_of_mem_admissions (h : time ∈ limiter.admissions window key calls) :
    ∃ call ∈ calls, call.time = time := by
  induction calls generalizing limiter with
  | nil => cases h
  | cons call calls ih =>
      rw [admissions, List.mem_append] at h
      rcases h with now | later
      · refine ⟨call, List.mem_cons_self, ?_⟩
        cases call with
        | cleanUp => cases now
        | check =>
            rw [admission?] at now
            split at now
            · exact (Option.mem_toList.1 now |> Option.some.inj)
            · cases now
      · obtain ⟨other, mem, eq⟩ := ih later
        exact ⟨other, List.mem_cons_of_mem _ mem, eq⟩

/-! ## What is remembered of a key -/

/-- Whether no key is remembered twice. -/
def Distinct (limiter : RateLimiter) : Prop :=
  (limiter.admitted.map Prod.fst).Nodup

theorem timesOf_setTimes_self (key : String) (times : List Instant)
    (entries : List (String × List Instant)) :
    (RateLimiter.mk (setTimes key times entries)).timesOf key = times := by
  induction entries with
  | nil => simp [timesOf, setTimes]
  | cons entry entries ih =>
      by_cases same : entry.1 = key
      · simp [timesOf, setTimes, same]
      · simpa [timesOf, setTimes, same] using ih

theorem timesOf_setTimes_of_ne (different : other ≠ key) (times : List Instant)
    (entries : List (String × List Instant)) :
    (RateLimiter.mk (setTimes key times entries)).timesOf other =
      (RateLimiter.mk entries).timesOf other := by
  induction entries with
  | nil => simp [timesOf, setTimes, Ne.symm different]
  | cons entry entries ih =>
      by_cases same : entry.1 = key
      · simp [timesOf, setTimes, same, Ne.symm different]
      · by_cases meant : entry.1 = other
        · simp [timesOf, setTimes, meant, different]
        · simpa [timesOf, setTimes, same, meant] using ih

theorem mem_keys_setTimes {times : List Instant} {entries : List (String × List Instant)}
    (h : other ∈ (setTimes key times entries).map Prod.fst) :
    other = key ∨ other ∈ entries.map Prod.fst := by
  induction entries with
  | nil => exact .inl (by simpa [setTimes] using h)
  | cons entry entries ih =>
      by_cases same : entry.1 = key
      · simpa [setTimes, same] using h
      · simp only [setTimes, beq_iff_eq, same, if_false, List.map_cons, List.mem_cons] at h ⊢
        rcases h with first | rest
        · exact .inr (.inl first)
        · exact (ih rest).imp id .inr

theorem distinct_setTimes (distinct : limiter.Distinct) (key : String) (times : List Instant) :
    (RateLimiter.mk (setTimes key times limiter.admitted)).Distinct := by
  obtain ⟨entries⟩ := limiter
  unfold Distinct at distinct ⊢
  dsimp only at distinct ⊢
  induction entries with
  | nil => simp [setTimes]
  | cons entry entries ih =>
      obtain ⟨unlike, distinct⟩ := List.nodup_cons.1 distinct
      by_cases same : entry.1 = key
      · subst same
        simp only [setTimes, beq_self_eq_true, if_true, List.map_cons]
        exact List.nodup_cons.2 ⟨unlike, distinct⟩
      · simp only [setTimes, beq_iff_eq, same, if_false, List.map_cons]
        refine List.nodup_cons.2 ⟨fun mem => ?_, ih distinct⟩
        exact (mem_keys_setTimes mem).elim same unlike

theorem distinct_forgetUntil (distinct : limiter.Distinct) (cutoff : Instant) :
    (limiter.forgetUntil cutoff).Distinct := by
  have kept : ((limiter.admitted.map fun entry =>
      (entry.1, entry.2.filter (cutoff < ·))).map Prod.fst).Nodup := by
    rw [List.map_map]
    exact distinct
  exact kept.sublist (List.filter_sublist.map _)

theorem timesOf_of_not_mem (h : key ∉ limiter.admitted.map Prod.fst) :
    limiter.timesOf key = [] := by
  have missing : limiter.admitted.find? (·.1 == key) = none := by
    rw [List.find?_eq_none]
    intro entry mem
    rw [beq_iff_eq]
    rintro rfl
    exact h (List.mem_map_of_mem mem)
  rw [timesOf, missing]
  rfl

theorem mem_keys_of_mem_keys_forgetUntil {cutoff : Instant}
    (h : key ∈ (limiter.forgetUntil cutoff).admitted.map Prod.fst) :
    key ∈ limiter.admitted.map Prod.fst := by
  obtain ⟨entry, mem, rfl⟩ := List.mem_map.1 h
  obtain ⟨old, old_mem, rfl⟩ := List.mem_map.1 (List.mem_filter.1 mem).1
  have listed : old.1 ∈ limiter.admitted.map Prod.fst := List.mem_map_of_mem old_mem
  exact listed

theorem timesOf_forgetUntil (distinct : limiter.Distinct) (cutoff : Instant) (key : String) :
    (limiter.forgetUntil cutoff).timesOf key = (limiter.timesOf key).filter (cutoff < ·) := by
  obtain ⟨entries⟩ := limiter
  unfold Distinct at distinct
  dsimp only at distinct
  induction entries with
  | nil => rfl
  | cons entry entries ih =>
      obtain ⟨name, times⟩ := entry
      obtain ⟨unlike, rest_distinct⟩ := List.nodup_cons.1 distinct
      by_cases same : name = key
      · subst same
        cases left : (times.filter (cutoff < ·)).isEmpty with
        | false => simp [timesOf, forgetUntil, left]
        | true =>
            -- The entry is dropped, and no other has its key.
            have missing : (forgetUntil ⟨entries⟩ cutoff).timesOf name = [] :=
              timesOf_of_not_mem fun mem => unlike (mem_keys_of_mem_keys_forgetUntil mem)
            rw [List.isEmpty_iff] at left
            simpa [timesOf, forgetUntil, left] using missing
      · have rest := ih rest_distinct
        cases left : (times.filter (cutoff < ·)).isEmpty with
        | false => simpa [timesOf, forgetUntil, left, same] using rest
        | true => simpa [timesOf, forgetUntil, left, same] using rest

def keys (limiter : RateLimiter) : List String :=
  limiter.admitted.map Prod.fst

/-- Whether an admission of a key is remembered. -/
def Recalls (limiter : RateLimiter) (key : String) (admitted : Instant) : Prop :=
  ∃ times, (key, times) ∈ limiter.admitted ∧ admitted ∈ times

/-- Whether of each key that is remembered an admission is. -/
def KnowsTimes (limiter : RateLimiter) : Prop :=
  ∀ entry ∈ limiter.admitted, entry.2 ≠ []

theorem KnowsTimes.exists_recalls (known : limiter.KnowsTimes) (mem : key ∈ limiter.keys) :
    ∃ admitted, limiter.Recalls key admitted := by
  obtain ⟨⟨name, times⟩, present, rfl⟩ := List.mem_map.1 mem
  obtain ⟨admitted, admitted_mem⟩ := List.exists_mem_of_ne_nil _ (known _ present)
  exact ⟨admitted, times, present, admitted_mem⟩

theorem recalls_of_mem_timesOf {admitted : Instant} (mem : admitted ∈ limiter.timesOf key) :
    limiter.Recalls key admitted := by
  rw [timesOf] at mem
  cases found : limiter.admitted.find? (·.1 == key) with
  | none => simp [found] at mem
  | some entry =>
      have same := List.find?_some found
      obtain rfl : entry.1 = key := eq_of_beq same
      rw [found] at mem
      exact ⟨entry.2, List.mem_of_find?_eq_some found, mem⟩

theorem mem_setTimes {times : List Instant} {entries : List (String × List Instant)}
    {entry : String × List Instant} (mem : entry ∈ setTimes key times entries) :
    entry = (key, times) ∨ entry ∈ entries := by
  induction entries with
  | nil => exact .inl (List.mem_singleton.1 mem)
  | cons first entries ih =>
      by_cases same : first.1 = key
      · simp only [setTimes, same, beq_self_eq_true, if_true, List.mem_cons] at mem
        exact mem.imp_right (List.mem_cons_of_mem _)
      · simp only [setTimes, beq_iff_eq, same, if_false, List.mem_cons] at mem
        rcases mem with rfl | mem
        · exact .inr List.mem_cons_self
        · exact (ih mem).imp_right (List.mem_cons_of_mem _)

theorem mem_keys_setTimes_of_mem (key : String) (times : List Instant)
    {entries : List (String × List Instant)} (mem : other ∈ entries.map Prod.fst) :
    other ∈ (setTimes key times entries).map Prod.fst := by
  induction entries with
  | nil => cases mem
  | cons first entries ih =>
      by_cases same : first.1 = key
      · simpa [setTimes, same] using mem
      · simp only [setTimes, beq_iff_eq, same, if_false, List.map_cons, List.mem_cons] at mem ⊢
        exact mem.imp_right ih

section Check

variable {maximum : Int} {cutoff now : Instant}

theorem mem_keys_check (mem : other ∈ limiter.keys) :
    other ∈ (limiter.check key maximum cutoff now).1.keys := by
  unfold check
  dsimp only
  split <;> exact mem_keys_setTimes_of_mem _ _ mem

/-- A check brings nothing to mind but itself, and that only if it admits. -/
theorem recalls_check {admitted : Instant}
    (recalls : (limiter.check key maximum cutoff now).1.Recalls other admitted) :
    limiter.Recalls other admitted ∨
      (limiter.check key maximum cutoff now).2 = true ∧ other = key ∧ admitted = now := by
  have recent {time : Instant} (mem : time ∈ (limiter.timesOf key).filter (cutoff < ·)) :
      limiter.Recalls key time :=
    recalls_of_mem_timesOf (List.mem_filter.1 mem).1
  unfold check at recalls ⊢
  dsimp only at recalls ⊢
  split at recalls
  · obtain ⟨times, mem, admitted_mem⟩ := recalls
    rcases mem_setTimes mem with entry_eq | mem
    · obtain ⟨rfl, rfl⟩ := Prod.mk.inj entry_eq
      exact .inl (recent admitted_mem)
    · exact .inl ⟨times, mem, admitted_mem⟩
  · next free =>
      rw [if_neg free]
      obtain ⟨times, mem, admitted_mem⟩ := recalls
      rcases mem_setTimes mem with entry_eq | mem
      · obtain ⟨rfl, rfl⟩ := Prod.mk.inj entry_eq
        rcases List.mem_append.1 admitted_mem with admitted_mem | admitted_mem
        · exact .inl (recent admitted_mem)
        · exact .inr ⟨rfl, rfl, List.mem_singleton.1 admitted_mem⟩
      · exact .inl ⟨times, mem, admitted_mem⟩

theorem knowsTimes_check (known : limiter.KnowsTimes) (positive : 1 ≤ maximum) :
    (limiter.check key maximum cutoff now).1.KnowsTimes := by
  unfold check
  dsimp only
  split
  · next full =>
      intro entry mem
      rcases mem_setTimes mem with rfl | mem
      · intro none
        dsimp only at none
        rw [none, List.length_nil] at full
        omega
      · exact known entry mem
  · intro entry mem
    rcases mem_setTimes mem with rfl | mem
    · exact List.concat_ne_nil _ _
    · exact known entry mem

end Check

theorem recalls_forgetUntil {cutoff admitted : Instant} :
    (limiter.forgetUntil cutoff).Recalls key admitted ↔
      limiter.Recalls key admitted ∧ cutoff < admitted := by
  unfold Recalls forgetUntil
  constructor
  · rintro ⟨times, mem, admitted_mem⟩
    obtain ⟨entry, entry_mem, entry_eq⟩ := List.mem_map.1 (List.mem_filter.1 mem).1
    obtain ⟨rfl, rfl⟩ := Prod.mk.inj entry_eq
    obtain ⟨admitted_mem, recent⟩ := List.mem_filter.1 admitted_mem
    exact ⟨⟨entry.2, entry_mem, admitted_mem⟩, of_decide_eq_true recent⟩
  · rintro ⟨⟨times, mem, admitted_mem⟩, recent⟩
    have left : admitted ∈ times.filter (cutoff < ·) :=
      List.mem_filter.2 ⟨admitted_mem, decide_eq_true recent⟩
    refine ⟨_, List.mem_filter.2 ⟨List.mem_map_of_mem mem, ?_⟩, left⟩
    simpa using ⟨admitted, admitted_mem, recent⟩

theorem knowsTimes_forgetUntil (cutoff : Instant) : (limiter.forgetUntil cutoff).KnowsTimes := by
  intro entry mem
  simpa using (List.mem_filter.1 mem).2

/-! ## One call -/

theorem eq_of_ago {count : Int} {cutoff : Instant} (h : Instant.ago count time = .ok cutoff) :
    cutoff = time - Instant.minutes count := by
  unfold Instant.ago at h
  dsimp only at h
  split at h
  · cases h
  · split at h
    · cases h
    · split at h
      · cases h
      · exact (Except.ok.inj h).symm

/-- What lies some minutes back is a date unless it is too far back or ahead. -/
theorem exists_ago_iff {count : Int} :
    (∃ cutoff, Instant.ago count time = .ok cutoff) ↔
      (-999999999 ≤ count / 1440 ∧ count / 1440 ≤ 999999999) ∧
        Instant.first ≤ time - Instant.minutes count ∧
        time - Instant.minutes count ≤ Instant.last := by
  simp only [Instant.ago, Bool.or_eq_true, decide_eq_true_eq]
  split
  · simp only [reduceCtorEq, exists_false, false_iff]
    omega
  · split
    · simp only [reduceCtorEq, exists_false, false_iff]
      omega
    · split
      · next out =>
          simp only [reduceCtorEq, exists_false, false_iff]
          rintro ⟨-, first_le, le_last⟩
          exact out.elim (Int.not_lt.2 first_le) (Int.not_lt.2 le_last)
      · next within =>
          rw [not_or, Int.not_lt, Int.not_lt] at within
          simp only [Except.ok.injEq, exists_eq', true_iff]
          exact ⟨by omega, within⟩

theorem minutes_le_minutes {count count' : Int} (h : count ≤ count') :
    Instant.minutes count ≤ Instant.minutes count' :=
  Int.mul_le_mul_of_nonneg_right h (by decide)

theorem verdict_eq (limiter : RateLimiter) (window : Int) (key : String) (maximum : Int)
    (now : Instant) :
    limiter.verdict window key maximum now = (Instant.ago window now).map fun cutoff =>
      decide (((limiter.timesOf key).countP (cutoff < ·) : Int) < maximum) := by
  rw [verdict, checkWithin]
  cases Instant.ago window now with
  | error error => rfl
  | ok cutoff =>
      simp only [Except.map, check, List.countP_eq_length_filter]
      split
      · next full => simp [Int.not_lt.2 full]
      · next free => simp [Int.not_le.1 free]

/-- A check that is admitted is added to what is recent of its key; nothing else is touched. -/
theorem timesOf_take_check {cutoff : Instant} (dated : Instant.ago window time = .ok cutoff)
    (key : String) (maximum : Int) (other : String) :
    (limiter.take window (.check time key maximum)).timesOf other =
      if key = other then
        (limiter.timesOf key).filter (cutoff < ·) ++
          (limiter.admission? window other (.check time key maximum)).toList
      else limiter.timesOf other := by
  have verdict_eq := limiter.verdict_eq window key maximum time
  rw [dated, Except.map, List.countP_eq_length_filter] at verdict_eq
  rw [take, checkWithin, dated, Except.map, check]
  by_cases same : key = other
  · subst same
    rw [if_pos rfl, admission?, verdict_eq]
    dsimp only
    split
    · next full =>
        rw [timesOf_setTimes_self]
        simp [Int.not_lt.2 full]
    · next free =>
        rw [timesOf_setTimes_self]
        simp [Int.not_le.1 free]
  · rw [if_neg same]
    dsimp only
    split <;> exact timesOf_setTimes_of_ne (Ne.symm same) _ _

theorem distinct_take (distinct : limiter.Distinct) (call : Call) :
    (limiter.take window call).Distinct := by
  cases call with
  | check time key maximum =>
      rw [take, checkWithin]
      cases Instant.ago window time with
      | error => exact distinct
      | ok cutoff =>
          dsimp only [Except.map, check]
          split <;> exact distinct_setTimes distinct _ _
  | cleanUp time minutes =>
      rw [take]
      split
      · exact distinct_forgetUntil distinct _
      · exact distinct

/-! ## Calls in order -/

/-- Calls in the order of time, whose cleanups go back at least as far as the window. -/
structure Orderly (window : Int) (calls : List Call) : Prop where
  timely : calls.Pairwise (·.time ≤ ·.time)
  lenient : ∀ time minutes, .cleanUp time minutes ∈ calls → window ≤ minutes

namespace Orderly

variable {earlier later : List Call} {call : Call}

theorem sublist (orderly : Orderly window later) (h : earlier.Sublist later) :
    Orderly window earlier where
  timely := orderly.timely.sublist h
  lenient time minutes mem := orderly.lenient time minutes (h.subset mem)

theorem of_append (orderly : Orderly window (earlier ++ later)) : Orderly window earlier :=
  orderly.sublist (List.sublist_append_left _ _)

theorem time_le (orderly : Orderly window (earlier ++ call :: later)) :
    ∀ other ∈ earlier, other.time ≤ call.time :=
  fun other mem =>
    (List.pairwise_append.1 orderly.timely).2.2 other mem call List.mem_cons_self

end Orderly

theorem distinct_afterAll (calls : List Call) : (empty.afterAll window calls).Distinct := by
  induction calls using List.reverseRecOn with
  | nil => exact List.nodup_nil
  | append_singleton calls call ih =>
      rw [afterAll_append]
      exact distinct_take ih call

theorem filter_lt_filter_lt {cutoff cutoff' : Instant} (later : cutoff ≤ cutoff')
    (times : List Instant) :
    (times.filter (cutoff < ·)).filter (cutoff' < ·) = times.filter (cutoff' < ·) := by
  rw [List.filter_filter]
  refine List.filter_congr fun time _ => ?_
  simp only [Bool.and_eq_left_iff_imp, decide_eq_true_eq]
  exact fun recent => Int.lt_of_le_of_lt later recent

/-- Of each key all admissions are remembered that are later than a moment at which no window of a
call began later. -/
theorem filter_timesOf_afterAll (orderly : Orderly window calls) {cutoff : Instant}
    (begun : ∀ call ∈ calls, call.time - Instant.minutes window ≤ cutoff) (key : String) :
    ((empty.afterAll window calls).timesOf key).filter (cutoff < ·) =
      (empty.admissions window key calls).filter (cutoff < ·) := by
  induction calls using List.reverseRecOn with
  | nil => rfl
  | append_singleton calls call ih =>
      have same := ih orderly.of_append fun call mem => begun call (List.mem_append_left _ mem)
      have started : call.time - Instant.minutes window ≤ cutoff :=
        begun call (List.mem_append_right _ List.mem_cons_self)
      rw [afterAll_append, admissions_concat, List.filter_append, ← same]
      change ((take window _ call).timesOf key).filter _ = _
      cases call with
      | check time other maximum =>
          cases dated : Instant.ago window time with
          | error error =>
              simp [take, admission?, verdict, checkWithin, dated, Except.map]
          | ok first =>
              obtain rfl := eq_of_ago dated
              rw [timesOf_take_check dated]
              split
              · next same =>
                  have started : time - Instant.minutes window ≤ cutoff := started
                  rw [List.filter_append, same, filter_lt_filter_lt started]
              · next different => simp [admission?, different]
      | cleanUp time minutes =>
          have wide := orderly.lenient time minutes (List.mem_append_right _ List.mem_cons_self)
          rw [take]
          cases dated : Instant.ago minutes time with
          | error error => simp [admission?]
          | ok first =>
              obtain rfl := eq_of_ago dated
              have earlier : time - Instant.minutes minutes ≤ cutoff :=
                Int.le_trans (Int.sub_le_sub_left (minutes_le_minutes wide) time) started
              dsimp only
              rw [timesOf_forgetUntil (distinct_afterAll calls), filter_lt_filter_lt earlier]
              simp [admission?]

/-- A check counts the admissions of its key within its window. -/
theorem verdict_afterAll (orderly : Orderly window calls)
    (late : ∀ call ∈ calls, call.time ≤ time) (key : String) (maximum : Int) :
    (empty.afterAll window calls).verdict window key maximum time =
      (Instant.ago window time).map fun cutoff =>
        decide (((empty.admissions window key calls).countP (cutoff < ·) : Int) < maximum) := by
  rw [verdict_eq]
  cases dated : Instant.ago window time with
  | error error => rfl
  | ok cutoff =>
      obtain rfl := eq_of_ago dated
      have begun : ∀ call ∈ calls,
          call.time - Instant.minutes window ≤ time - Instant.minutes window :=
        fun call mem => Int.sub_le_sub_right (late call mem) _
      simp only [Except.map, List.countP_eq_length_filter,
        filter_timesOf_afterAll orderly begun key]

/-- Other keys and cleanups make no difference to a key. -/
theorem admissions_filter_isCheckOf (orderly : Orderly window calls) (key : String) :
    empty.admissions window key (calls.filter (Call.isCheckOf key)) =
      empty.admissions window key calls := by
  induction calls using List.reverseRecOn with
  | nil => rfl
  | append_singleton calls call ih =>
      have same := ih orderly.of_append
      rw [List.filter_append, admissions_append, admissions_concat, same]
      congr 1
      cases call with
      | cleanUp time minutes => rfl
      | check time other maximum =>
          by_cases meant : other = key
          · subst meant
            have late : ∀ call ∈ calls, call.time ≤ time := orderly.time_le
            have late_filter : ∀ call ∈ calls.filter (Call.isCheckOf other), call.time ≤ time :=
              fun call mem => late call (List.mem_filter.1 mem).1
            have alike : List.filter (Call.isCheckOf other) [.check time other maximum] =
                [.check time other maximum] := by simp [Call.isCheckOf]
            rw [alike, admissions, admissions, List.append_nil, admission?, admission?,
              verdict_afterAll (orderly.of_append.sublist List.filter_sublist) late_filter,
              verdict_afterAll orderly.of_append late, same]
          · have none : List.filter (Call.isCheckOf key) [.check time other maximum] = [] := by
              simp [Call.isCheckOf, meant]
            rw [none, admissions, admission?, if_neg fun both => meant both.1]
            rfl

theorem verdict_filter_isCheckOf (orderly : Orderly window calls)
    (late : ∀ call ∈ calls, call.time ≤ time) (key : String) (maximum : Int) :
    (empty.afterAll window (calls.filter (Call.isCheckOf key))).verdict window key maximum time =
      (empty.afterAll window calls).verdict window key maximum time := by
  have late_filter : ∀ call ∈ calls.filter (Call.isCheckOf key), call.time ≤ time :=
    fun call mem => late call (List.mem_filter.1 mem).1
  rw [verdict_afterAll (orderly.sublist List.filter_sublist) late_filter,
    verdict_afterAll orderly late, admissions_filter_isCheckOf orderly]

/-- With one limit throughout, moments that lie less than a window apart see no more admissions of a
key than the limit. -/
theorem countP_admissions_le (orderly : Orderly window calls) {maximum : Int}
    (constant : ∀ time other, .check time key other ∈ calls → other = maximum)
    {isWithin : Instant → Bool} (close : ∀ first last, isWithin first = true →
      isWithin last = true → last - Instant.minutes window < first) :
    ((empty.admissions window key calls).countP isWithin : Int) ≤ max maximum 0 := by
  induction calls using List.reverseRecOn with
  | nil => exact Int.le_max_right _ _
  | append_singleton calls call ih =>
      have few := ih orderly.of_append fun time other mem =>
        constant time other (List.mem_append_left _ mem)
      rw [admissions_concat]
      cases call with
      | cleanUp time minutes => simpa [admission?] using few
      | check time other limit =>
          rw [admission?]
          split
          case isFalse => simpa using few
          case isTrue admitted =>
            obtain ⟨rfl, admitted⟩ := admitted
            obtain rfl := constant time limit (List.mem_append_right _ List.mem_cons_self)
            have late : ∀ call ∈ calls, call.time ≤ time := orderly.time_le
            cases within : isWithin time with
            | false => simpa [within] using few
            | true =>
                -- All that was admitted close to now is within the window of this check.
                rw [verdict_afterAll orderly.of_append late] at admitted
                cases dated : Instant.ago window time with
                | error error => simp [dated, Except.map] at admitted
                | ok cutoff =>
                    obtain rfl := eq_of_ago dated
                    simp only [dated, Except.map, Except.ok.injEq, decide_eq_true_eq] at admitted
                    have counted : (empty.admissions window other calls).countP isWithin ≤
                        (empty.admissions window other calls).countP
                          (time - Instant.minutes window < ·) := by
                      refine List.countP_mono_left fun first _ isFirst => ?_
                      exact decide_eq_true (close first time isFirst within)
                    rw [List.countP_append]
                    simp only [Option.toList_some, List.countP_singleton, within, if_true]
                    omega

/-- A check is admitted just when its window begins at a date and fewer checks of its key than its
limit were admitted within it. Where there is no such date the check has no verdict. Cleanups that
go back at least as far as the window and checks of other keys change no verdict, and with one limit
throughout no stretch as long as the window holds more admissions of a key. -/
theorem admits_iff_fewer_within_window (window : Int) (calls : List Call)
    (orderly : Orderly window calls) :
    (∀ earlier time key maximum later, calls = earlier ++ .check time key maximum :: later →
      let verdict := (empty.afterAll window earlier).verdict window key maximum time
      let count : Nat := (empty.admissions window key earlier).countP fun admitted =>
        time - Instant.minutes window < admitted ∧ admitted ≤ time
      let isDated := ∃ cutoff, Instant.ago window time = .ok cutoff
      (verdict = .ok true ↔ isDated ∧ (count : Int) < maximum) ∧
      (verdict = .ok false ↔ isDated ∧ maximum ≤ (count : Int)) ∧
      verdict = (empty.afterAll window (earlier.filter (Call.isCheckOf key))).verdict window key
        maximum time) ∧
    ∀ key maximum, (∀ time other, .check time key other ∈ calls → other = maximum) →
      ∀ start : Instant,
        let finish := start + Instant.minutes window
        let admitted := empty.admissions window key calls
        ((admitted.countP fun time => start < time ∧ time ≤ finish : Nat) : Int) ≤ max maximum 0 ∧
        ((admitted.countP fun time => start ≤ time ∧ time < finish : Nat) : Int) ≤
          max maximum 0 := by
  refine ⟨?_, ?_⟩
  · rintro earlier time key maximum later rfl verdict count isDated
    have late : ∀ call ∈ earlier, call.time ≤ time := orderly.time_le
    have orderly := orderly.of_append
    have count_eq : count = (empty.admissions window key earlier).countP
        (time - Instant.minutes window < ·) := by
      refine List.countP_congr fun admitted mem => ?_
      obtain ⟨call, present, rfl⟩ := mem_of_mem_admissions mem
      simp [late call present]
    have verdict_eq : verdict = (Instant.ago window time).map fun _ =>
        decide ((count : Int) < maximum) := by
      refine (verdict_afterAll orderly late key maximum).trans ?_
      cases dated : Instant.ago window time with
      | error error => rfl
      | ok cutoff =>
          rw [count_eq, eq_of_ago dated]
          rfl
    refine ⟨?_, ?_, (verdict_filter_isCheckOf orderly late key maximum).symm⟩
    all_goals
      rw [verdict_eq]
      cases dated : Instant.ago window time with
      | error error => simp [isDated, dated, Except.map]
      | ok cutoff => simp [isDated, dated, Except.map]
  · intro key maximum constant start finish admitted
    constructor
    all_goals
      refine countP_admissions_le orderly constant fun first last isFirst isLast => ?_
      simp only [decide_eq_true_eq, Bool.decide_and, Bool.and_eq_true, finish] at isFirst isLast
      grind

/-- Two checks of one key with a limit of one a minute, of another key and a cleanup. -/
def minuteOfCalls : List Call :=
  [.check 0 "a" 1, .check 0 "b" 1, .check 59999999 "a" 1, .cleanUp 59999999 1]

/-- The first check counts as long as its minute lasts, and no longer at its very end. -/
theorem check_counts_for_its_minute :
    Orderly 1 (minuteOfCalls ++ [.check 60000000 "a" 1]) ∧
      (empty.afterAll 1 [.check 0 "a" 1, .check 0 "b" 1]).verdict 1 "a" 1 59999999 = .ok false ∧
      (empty.afterAll 1 minuteOfCalls).verdict 1 "a" 1 60000000 = .ok true := by
  have orderly : Orderly 1 (minuteOfCalls ++ [.check 60000000 "a" 1]) := by
    refine ⟨by decide, ?_⟩
    simp [minuteOfCalls]
  have verdicts := (admits_iff_fewer_within_window 1 _ orderly).1
  refine ⟨orderly, ?_, ?_⟩
  · exact (verdicts _ _ _ _ [.cleanUp 59999999 1, .check 60000000 "a" 1] rfl).2.1.2
      ⟨⟨_, rfl⟩, by decide⟩
  · exact (verdicts minuteOfCalls _ _ _ [] rfl).1.2 ⟨⟨_, rfl⟩, by decide⟩

/-- No check was admitted before and the limit is one, but a window of two thousand million minutes
would begin before there are dates. -/
theorem undated_window_has_no_verdict :
    (((empty.admissions 2000000000 "a" []).countP fun admitted =>
      0 - Instant.minutes 2000000000 < admitted ∧ admitted ≤ 0 : Nat) : Int) < 1 ∧
    (empty.afterAll 2000000000 []).verdict 2000000000 "a" 1 0 = .error .outOfRange :=
  ⟨by decide, rfl⟩

end ComponentPreview.RateLimiter
