import ComponentPreview.Proofs.Lifecycle.Bus
import Mathlib.Data.List.Induction
import Mathlib.Data.List.Nodup
import Mathlib.Data.List.TakeWhile

/-!
# Subscriptions

Whoever subscribes to a bus gets a call that ends the subscription, and may make it more than once.
The call knows its session and its callback, not its place among the subscribers: it takes away the
first of the session's callbacks that equals its own. So the subscriptions of a session stand for
themselves just as long as no such call meets an equal callback that is not its own.
-/

namespace ComponentPreview

variable {κ : Type}

inductive Bus.Call (κ : Type)
  | subscribe (session : String) (callback : κ)
  /-- Ends the subscription with a number. -/
  | unsubscribe (number : Nat)
  deriving DecidableEq, Repr

/-- The callbacks that a message of a session is handed to, in order. -/
def Bus.reached (bus : Bus κ) (session : String) : List κ :=
  (Bus.publish (fun _ => bus) (fun callback calls => (calls ++ [callback], true)) session []).1

theorem Bus.reached_eq (bus : Bus κ) (session : String) :
    bus.reached session = bus.subscribers session := by
  have collect : ∀ (callbacks calls : List κ),
      callbacks.foldl (fun calls callback => calls ++ [callback]) calls = calls ++ callbacks := by
    intro callbacks
    induction callbacks with
    | nil => simp
    | cons callback callbacks ih => simp [ih]
  rw [reached, publish, deliver_eq_foldl, collect, List.nil_append]

structure Subscription (κ : Type) where
  session : String
  callback : κ
  ended : Bool := false
  deriving DecidableEq, Repr

namespace Subscription

/-- What a subscription is to and for. -/
def target (subscription : Subscription κ) : String × κ :=
  (subscription.session, subscription.callback)

def finish (subscription : Subscription κ) : Subscription κ :=
  { subscription with ended := true }

/-- The callbacks of the subscriptions of a session that have not been ended. -/
def standing (session : String) (subscriptions : List (Subscription κ)) : List κ :=
  (subscriptions.filter fun subscription =>
    subscription.session == session && !subscription.ended).map callback

theorem standing_append (session : String) (earlier later : List (Subscription κ)) :
    standing session (earlier ++ later) = standing session earlier ++ standing session later := by
  simp [standing]

theorem standing_cons (session : String) (subscription : Subscription κ)
    (subscriptions : List (Subscription κ)) :
    standing session (subscription :: subscriptions) =
      if subscription.session = session ∧ subscription.ended = false then
        subscription.callback :: standing session subscriptions
      else standing session subscriptions := by
  by_cases own : subscription.session = session
  · cases ended : subscription.ended <;> simp [standing, own, ended]
  · simp [standing, own]

theorem mem_map_target_of_mem_standing {session : String} {callback : κ}
    {subscriptions : List (Subscription κ)} (h : callback ∈ standing session subscriptions) :
    (session, callback) ∈ subscriptions.map target := by
  simp only [standing, List.mem_map, List.mem_filter, Bool.and_eq_true, beq_iff_eq] at h
  obtain ⟨subscription, ⟨mem, rfl, -⟩, rfl⟩ := h
  exact List.mem_map_of_mem mem

theorem map_target_modify_finish (subscriptions : List (Subscription κ)) (number : Nat) :
    (subscriptions.modify number finish).map target = subscriptions.map target := by
  induction subscriptions generalizing number with
  | nil => simp
  | cons subscription subscriptions ih =>
      cases number with
      | zero => simp [finish, target]
      | succ number => simp [ih]

end Subscription

/-- A bus with the subscriptions that were made to it, in order. -/
structure Switchboard (κ : Type) where
  bus : Bus κ := .empty
  subscriptions : List (Subscription κ) := []

namespace Switchboard

open Subscription

section

variable [BEq κ]

def take (board : Switchboard κ) : Bus.Call κ → Switchboard κ
  | .subscribe session callback =>
      { bus := board.bus.subscribe session callback
        subscriptions := board.subscriptions ++ [{ session, callback }] }
  | .unsubscribe number =>
      match board.subscriptions[number]? with
      | some subscription =>
          { bus := board.bus.unsubscribe subscription.session subscription.callback
            subscriptions := board.subscriptions.modify number finish }
      | none => board

def afterAll (calls : List (Bus.Call κ)) : Switchboard κ :=
  calls.foldl take {}

theorem afterAll_concat (calls : List (Bus.Call κ)) (call : Bus.Call κ) :
    afterAll (calls ++ [call]) = (afterAll calls).take call := by
  simp [afterAll]

theorem tidy_take {board : Switchboard κ} (tidy : board.bus.Tidy) (call : Bus.Call κ) :
    (board.take call).bus.Tidy := by
  cases call with
  | subscribe session callback => exact Bus.tidy_setSubscribers tidy _ _
  | unsubscribe number =>
      rw [take]
      split
      · exact Bus.tidy_setSubscribers tidy _ _
      · exact tidy

end

/-- Whether messages reach the callbacks of the subscriptions that have not been ended. -/
def IsIndividual (board : Switchboard κ) : Prop :=
  ∀ session, board.bus.reached session = standing session board.subscriptions

/-- Whether the call that ends a subscription takes away what its own subscription stands for, and
nothing if it was ended before. Of equal callbacks the first goes, which makes no difference if no
other one stands in between. -/
def EndsOwn [BEq κ] (board : Switchboard κ) (number : Nat) : Prop :=
  ∀ subscription, board.subscriptions[number]? = some subscription →
    if subscription.ended then
      subscription.callback ∉ standing subscription.session board.subscriptions
    else
      ∀ other ∈ (standing subscription.session (board.subscriptions.take number)).dropWhile
        (· != subscription.callback), other = subscription.callback

/-! ## One call -/

theorem append_cons_eq_cons_append_iff (callback : κ) (before after : List κ) :
    before ++ callback :: after = callback :: (before ++ after) ↔
      ∀ other ∈ before, other = callback := by
  induction before with
  | nil => simp
  | cons first before ih =>
      constructor
      · intro same
        simp only [List.cons_append, List.cons.injEq] at same
        obtain ⟨rfl, same⟩ := same
        simpa using ih.1 same
      · intro alike
        obtain ⟨rfl, alike⟩ := List.forall_mem_cons.1 alike
        rw [List.cons_append, List.cons_append, ih.2 alike]

section

variable [BEq κ] [LawfulBEq κ]

theorem erase_append_cons_eq_iff (callback : κ) (before after : List κ) :
    (before ++ callback :: after).erase callback = before ++ after ↔
      ∀ other ∈ before.dropWhile (· != callback), other = callback := by
  induction before with
  | nil => simp
  | cons first before ih =>
      by_cases same : first = callback
      · subst same
        simpa using append_cons_eq_cons_append_iff first before after
      · simpa [same] using ih

end

variable {board : Switchboard κ} {number : Nat} {subscription : Subscription κ}

/-- The subscriptions before and after one that is ended. -/
theorem exists_split (found : board.subscriptions[number]? = some subscription) :
    ∃ after, board.subscriptions = board.subscriptions.take number ++ subscription :: after ∧
      board.subscriptions.modify number finish =
        board.subscriptions.take number ++ subscription.finish :: after := by
  obtain ⟨lt, rfl⟩ := List.getElem?_eq_some_iff.1 found
  refine ⟨board.subscriptions.drop (number + 1), ?_, ?_⟩
  · rw [← List.drop_eq_getElem_cons lt, List.take_append_drop]
  · exact List.modify_eq_take_cons_drop lt

variable [BEq κ]

theorem isIndividual_subscribe (tidy : board.bus.Tidy) (individual : board.IsIndividual)
    (session : String) (callback : κ) :
    (board.take (.subscribe session callback)).IsIndividual := by
  intro other
  have same := individual other
  rw [Bus.reached_eq] at same ⊢
  rw [take, Bus.subscribers_subscribe tidy, standing_append]
  split
  · next own =>
      subst own
      simp [same, standing]
  · next different => simp [same, standing, Ne.symm different]

theorem take_unsubscribe (found : board.subscriptions[number]? = some subscription) :
    board.take (.unsubscribe number) =
      { bus := board.bus.unsubscribe subscription.session subscription.callback
        subscriptions := board.subscriptions.modify number finish } := by
  rw [take, found]

/-- A call that ends a subscription takes one callback of its session away, if any, and the
subscriptions of the other sessions stand as before. -/
theorem isIndividual_unsubscribe_iff_erase (tidy : board.bus.Tidy) (individual : board.IsIndividual)
    (found : board.subscriptions[number]? = some subscription) :
    (board.take (.unsubscribe number)).IsIndividual ↔
      (standing subscription.session board.subscriptions).erase subscription.callback =
        standing subscription.session (board.subscriptions.modify number finish) := by
  obtain ⟨after, before_eq, after_eq⟩ := exists_split found
  rw [take_unsubscribe found]
  constructor
  · intro individual'
    have own := individual' subscription.session
    rw [Bus.reached_eq, Bus.subscribers_unsubscribe tidy, if_pos rfl] at own
    rw [← individual, Bus.reached_eq, own]
  · intro erased session
    have same := individual session
    rw [Bus.reached_eq] at same ⊢
    rw [Bus.subscribers_unsubscribe tidy]
    split
    · next own =>
        subst own
        rw [same, erased]
    · next different =>
        rw [same, after_eq]
        nth_rewrite 1 [before_eq]
        simp [standing_append, standing_cons, finish, Ne.symm different]

section

variable [LawfulBEq κ]

theorem isIndividual_unsubscribe_iff (tidy : board.bus.Tidy) (individual : board.IsIndividual) :
    (board.take (.unsubscribe number)).IsIndividual ↔ board.EndsOwn number := by
  cases found : board.subscriptions[number]? with
  | none =>
      have same : board.take (.unsubscribe number) = board := by rw [take, found]
      simp [EndsOwn, found, same, individual]
  | some subscription =>
      rw [isIndividual_unsubscribe_iff_erase tidy individual found]
      obtain ⟨after, before_eq, after_eq⟩ := exists_split found
      cases ended : subscription.ended with
      | true =>
          have same : subscription.finish = subscription := by
            rw [finish, ← ended]
          rw [after_eq, same, ← before_eq, List.erase_eq_self_iff]
          simp [EndsOwn, found, ended]
      | false =>
          rw [after_eq]
          nth_rewrite 1 [before_eq]
          rw [standing_append, standing_append, standing_cons, standing_cons,
            if_pos ⟨rfl, ended⟩, if_neg (by simp [finish]), erase_append_cons_eq_iff]
          simp [EndsOwn, found, ended]

end

/-! ## Calls in a row -/

/-- The sessions and callbacks of the subscriptions that calls make. -/
def made (calls : List (Bus.Call κ)) : List (String × κ) :=
  calls.filterMap fun
    | .subscribe session callback => some (session, callback)
    | .unsubscribe _ => none

theorem tidy_afterAll (calls : List (Bus.Call κ)) : (afterAll calls).bus.Tidy := by
  induction calls using List.reverseRecOn with
  | nil => exact Bus.tidy_empty
  | append_singleton calls call ih =>
      rw [afterAll_concat]
      exact tidy_take ih call

theorem isIndividual_nil : (afterAll [] : Switchboard κ).IsIndividual := by
  intro session
  rw [Bus.reached_eq]
  rfl

theorem map_target_afterAll (calls : List (Bus.Call κ)) :
    (afterAll calls).subscriptions.map target = made calls := by
  induction calls using List.reverseRecOn with
  | nil => rfl
  | append_singleton calls call ih =>
      rw [afterAll_concat, made, List.filterMap_append, ← made, ← ih]
      cases call with
      | subscribe session callback => simp [take, target]
      | unsubscribe number =>
          rw [take]
          split
          · simp [map_target_modify_finish]
          · simp

variable [LawfulBEq κ]

/-- Where no session has equal callbacks, every call ends its own subscription. -/
theorem endsOwn_of_nodup {calls : List (Bus.Call κ)} (nodup : (made calls).Nodup) (number : Nat) :
    (afterAll calls).EndsOwn number := by
  intro subscription found
  obtain ⟨after, split_eq, -⟩ := exists_split found
  rw [← map_target_afterAll, split_eq, List.map_append, List.map_cons] at nodup
  have unlike := (List.nodup_middle.1 nodup).notMem
  rw [← List.map_append] at unlike
  split
  · next ended =>
      intro mem
      rw [split_eq, standing_append, standing_cons, if_neg (by simp [ended]),
        ← standing_append] at mem
      exact unlike (mem_map_target_of_mem_standing mem)
  · have absent : subscription.callback ∉ standing subscription.session
        ((afterAll calls).subscriptions.take number) := by
      intro mem
      apply unlike
      rw [List.map_append]
      exact List.mem_append_left _ (mem_map_target_of_mem_standing mem)
    have skipped : (standing subscription.session
        ((afterAll calls).subscriptions.take number)).dropWhile
          (· != subscription.callback) = [] := by
      rw [List.dropWhile_eq_nil_iff]
      intro other mem
      rw [bne_iff_ne]
      rintro rfl
      exact absent mem
    simp [skipped]

theorem isIndividual_of_endsOwn {calls : List (Bus.Call κ)}
    (own : ∀ earlier number later, calls = earlier ++ .unsubscribe number :: later →
      (afterAll earlier).EndsOwn number) : (afterAll calls).IsIndividual := by
  induction calls using List.reverseRecOn with
  | nil => exact isIndividual_nil
  | append_singleton calls call ih =>
      have individual := ih fun earlier number later same =>
        own earlier number (later ++ [call]) (by simp [same])
      rw [afterAll_concat]
      cases call with
      | subscribe session callback =>
          exact isIndividual_subscribe (tidy_afterAll calls) individual session callback
      | unsubscribe number =>
          apply (isIndividual_unsubscribe_iff (tidy_afterAll calls) individual).2
          exact own calls number [] rfl

/-- In the course of any calls messages reach the callbacks of the subscriptions that have not been
ended, in order, just as long as each call that ends a subscription takes away what is its own. That
is so if no callback is subscribed to a session twice. -/
theorem individual_iff_ends_own (calls : List (Bus.Call κ)) :
    ((∀ earlier later, calls = earlier ++ later → (afterAll earlier).IsIndividual) ↔
      ∀ earlier number later, calls = earlier ++ .unsubscribe number :: later →
        (afterAll earlier).EndsOwn number) ∧
    ((made calls).Nodup →
      ∀ earlier later, calls = earlier ++ later → (afterAll earlier).IsIndividual) := by
  constructor
  · constructor
    · rintro individual earlier number later rfl
      apply (isIndividual_unsubscribe_iff (tidy_afterAll earlier)
        (individual earlier _ rfl)).1
      rw [← afterAll_concat]
      exact individual (earlier ++ [.unsubscribe number]) later (by simp)
    · rintro own earlier later rfl
      apply isIndividual_of_endsOwn
      rintro first number rest rfl
      exact own first number (rest ++ later) (by simp)
  · rintro nodup earlier later rfl
    apply isIndividual_of_endsOwn
    rintro first number rest rfl
    apply endsOwn_of_nodup
    rw [made, List.append_assoc, List.filterMap_append] at nodup
    exact (List.nodup_append.1 nodup).1

/-- Two callbacks, one of them in two sessions, and a call that is made twice. -/
theorem repeated_end_changes_nothing :
    let calls : List (Bus.Call Nat) := [.subscribe "s" 0, .subscribe "s" 1, .subscribe "t" 0,
      .unsubscribe 0, .unsubscribe 0]
    (made calls).Nodup ∧ (afterAll calls).bus.reached "s" = [1] ∧
      (afterAll calls).bus.reached "t" = [0] := by
  intro calls
  have nodup : (made calls).Nodup := by decide
  have individual := (individual_iff_ends_own calls).2 nodup calls [] (by simp)
  exact ⟨nodup, individual "s", individual "t"⟩

/-- A callback is subscribed twice, and the call that ends the first subscription is made twice. -/
theorem repeated_end_takes_another :
    let calls : List (Bus.Call Nat) :=
      [.subscribe "s" 0, .subscribe "s" 0, .unsubscribe 0, .unsubscribe 0]
    standing "s" (afterAll calls).subscriptions = [0] ∧ (afterAll calls).bus.reached "s" = [] := by
  decide

end Switchboard

end ComponentPreview
