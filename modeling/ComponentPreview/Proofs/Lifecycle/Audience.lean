import ComponentPreview.Lifecycle.Audience
import ComponentPreview.Proofs.Lifecycle.Bus

/-!
# Listeners that come and go

Each listener of an audience has a number. It keeps its places on the bus whatever the others do,
unless its subscription is ended by name, from outside or by a listener that is told a message; and
only those who hear a message have it in their records or backlogs.
-/

namespace ComponentPreview.Audience

/-- What happens to an audience from outside. -/
inductive Step
  | subscribe (id : String) (listener : Listener)
  | subscribeAgain (id session other : String)
  | unsubscribe (id : String)
  | publish (message : LifecycleMessage)
  | drain (id : String) (count : Option Nat)

def take (audience : Audience) : Step → Audience
  | .subscribe id listener => audience.subscribe id listener
  | .subscribeAgain id session other => audience.subscribeAgain id session other
  | .unsubscribe id => audience.unsubscribe id
  | .publish message => (audience.publish message).1
  | .drain id count => (audience.drain id count).2

def takeAll (audience : Audience) (steps : List Step) : Audience :=
  steps.foldl take audience

theorem takeAll_concat (audience : Audience) (steps : List Step) (step : Step) :
    audience.takeAll (steps ++ [step]) = (audience.takeAll steps).take step := by
  simp [takeAll]

/-- The number of the listener that a name stands for. -/
def numberOf? (audience : Audience) (id : String) : Option Nat :=
  (audience.subscriptions.get? id).map Prod.snd

/-- Whether a step subscribes the listener with a number once more. -/
def Step.Copies (audience : Audience) (number : Nat) : Step → Prop
  | .subscribeAgain _ _ other => audience.numberOf? other = some number
  | _ => False

/-- Whether a step asks for the end of a subscription of the listener with a number, itself or
through one of those who hear it. -/
def Step.Ends (audience : Audience) (number : Nat) : Step → Prop
  | .unsubscribe id => audience.numberOf? id = some number
  | .publish message =>
      ∃ other ∈ audience.bus.subscribers message.session,
        ∃ listener, audience.listeners[other]? = some listener ∧
          ∃ id ∈ listener.drops, audience.numberOf? id = some number
  | _ => False

/-! ## Listeners -/

theorem listener_subscribe (audience : Audience) (id : String) (listener : Listener) :
    (audience.subscribe id listener).listeners[audience.listeners.length]? = some listener := by
  simp [subscribe]

theorem listeners_unsubscribe (audience : Audience) (id : String) :
    (audience.unsubscribe id).listeners = audience.listeners := by
  unfold unsubscribe
  split <;> rfl

theorem listeners_foldl_unsubscribe (audience : Audience) (ids : List String) :
    (ids.foldl unsubscribe audience).listeners = audience.listeners := by
  induction ids generalizing audience with
  | nil => rfl
  | cons id ids ih => exact (ih _).trans (listeners_unsubscribe audience id)

/-- The listener that is told a message takes it, and a new one may come. -/
theorem listeners_react (message : LifecycleMessage) (number : Nat) (audience : Audience) :
    ∃ added : List Listener, (∀ listener ∈ added, listener.drops = []) ∧
      (react message number audience).1.listeners =
        audience.listeners.modify number (·.take message) ++ added := by
  unfold react
  split
  · next missing =>
      rw [List.getElem?_eq_none_iff] at missing
      refine ⟨[], List.forall_mem_nil _, ?_⟩
      rw [List.modify_eq_self missing, List.append_nil]
  · next listener found =>
      split
      · exact ⟨[], List.forall_mem_nil _, (List.append_nil _).symm⟩
      split
      · exact ⟨[], List.forall_mem_nil _, (List.append_nil _).symm⟩
      cases listener.adds with
      | none =>
          refine ⟨[], List.forall_mem_nil _, ?_⟩
          rw [List.append_nil]
          exact listeners_foldl_unsubscribe _ _
      | some id =>
          simp only [Option.elim_some, subscribeNew]
          split
          · refine ⟨[], List.forall_mem_nil _, ?_⟩
            rw [List.append_nil]
            exact listeners_foldl_unsubscribe _ _
          · refine ⟨[{ session := listener.session }], by simp, ?_⟩
            rw [subscribe, listeners_foldl_unsubscribe]

theorem listener_react {audience : Audience} {number : Nat} {listener : Listener}
    (found : audience.listeners[number]? = some listener) (message : LifecycleMessage)
    (other : Nat) :
    (react message other audience).1.listeners[number]? =
      some (if other = number then listener.take message else listener) := by
  obtain ⟨added, -, listeners_eq⟩ := listeners_react message other audience
  have known : number < (audience.listeners.modify other (·.take message)).length := by
    rw [List.length_modify]
    exact (List.getElem?_eq_some_iff.1 found).1
  rw [listeners_eq, List.getElem?_append_left known, List.getElem?_modify, found]
  rfl

/-- Whoever hears a message still ends what it would have ended before. -/
theorem drops_react {audience : Audience} {message : LifecycleMessage} {number other : Nat}
    {listener : Listener}
    (found : (react message number audience).1.listeners[other]? = some listener) :
    listener.drops = [] ∨
      ∃ old, audience.listeners[other]? = some old ∧ listener.drops = old.drops := by
  obtain ⟨added, fresh, listeners_eq⟩ := listeners_react message number audience
  rw [listeners_eq, List.getElem?_append] at found
  split at found
  · rw [List.getElem?_modify, Option.map_eq_map, Option.map_eq_some_iff] at found
    obtain ⟨old, found, rfl⟩ := found
    refine .inr ⟨old, found, ?_⟩
    split
    · unfold Listener.take
      split
      · rfl
      · split <;> rfl
    · rfl
  · exact .inl (fresh listener (List.mem_of_getElem? found))

/-- A listener takes a message as often as it is called. -/
theorem listener_deliver {audience : Audience} {number : Nat} {listener : Listener}
    (found : audience.listeners[number]? = some listener) (message : LifecycleMessage)
    (numbers : List Nat) :
    (Bus.deliver (react message) numbers audience).1.listeners[number]? =
      some ((numbers.filter (· == number)).foldl (fun listener _ => listener.take message)
        listener) := by
  rw [Bus.deliver_eq_foldl]
  induction numbers generalizing audience listener with
  | nil => exact found
  | cons other numbers ih =>
      rw [List.foldl_cons, ih (listener_react found message other)]
      by_cases own : other = number
      · simp [own]
      · simp [own]

/-! ## Numbers -/

/-- Whether the bus and the names know only listeners that are there. -/
structure Sound (audience : Audience) : Prop where
  tidy : audience.bus.Tidy
  subscribed : ∀ session, ∀ number ∈ audience.bus.subscribers session,
    number < audience.listeners.length
  named : ∀ id number, audience.numberOf? id = some number → number < audience.listeners.length

theorem sound_empty : ({} : Audience).Sound where
  tidy := Bus.tidy_empty
  subscribed _ _ mem := nomatch mem
  named _ _ found := nomatch found

namespace Sound

variable {audience : Audience}

theorem listeners (sound : audience.Sound) {listeners : List Listener}
    (length_eq : listeners.length = audience.listeners.length) :
    Sound { audience with listeners } where
  tidy := sound.tidy
  subscribed session number mem := length_eq ▸ sound.subscribed session number mem
  named id number found := length_eq ▸ sound.named id number found

theorem subscribe_known (sound : audience.Sound) (id session : String) {number : Nat}
    {listeners : List Listener} (known : number < listeners.length)
    (longer : audience.listeners.length ≤ listeners.length) :
    Sound
      { bus := audience.bus.subscribe session number
        listeners
        subscriptions := audience.subscriptions.put id (session, number) } where
  tidy := Bus.tidy_setSubscribers sound.tidy _ _
  subscribed name other mem := by
    rw [Bus.subscribers_subscribe sound.tidy] at mem
    split at mem
    · rcases List.mem_append.1 mem with mem | mem
      · exact Nat.lt_of_lt_of_le (sound.subscribed _ _ mem) longer
      · exact List.mem_singleton.1 mem ▸ known
    · exact Nat.lt_of_lt_of_le (sound.subscribed _ _ mem) longer
  named name other found := by
    by_cases same : name = id
    · rw [numberOf?, same, Named.get?_put_self] at found
      exact Option.some.inj found ▸ known
    · rw [numberOf?, Named.get?_put_of_ne same] at found
      exact Nat.lt_of_lt_of_le (sound.named name other found) longer

theorem subscribe (sound : audience.Sound) (id : String) (listener : Listener) :
    (audience.subscribe id listener).Sound := by
  refine sound.subscribe_known id _ ?_ ?_
  · simp
  · simp

theorem unsubscribe (sound : audience.Sound) (id : String) : (audience.unsubscribe id).Sound := by
  unfold Audience.unsubscribe
  split
  · next session number found =>
      refine ⟨Bus.tidy_setSubscribers sound.tidy _ _, ?_, sound.named⟩
      intro name other mem
      rw [Bus.subscribers_unsubscribe sound.tidy] at mem
      split at mem
      · exact sound.subscribed _ _ (List.mem_of_mem_erase mem)
      · exact sound.subscribed _ _ mem
  · exact sound

theorem foldl_unsubscribe (sound : audience.Sound) (ids : List String) :
    (ids.foldl Audience.unsubscribe audience).Sound := by
  induction ids generalizing audience with
  | nil => exact sound
  | cons id ids ih => exact ih (sound.unsubscribe id)

theorem react (sound : audience.Sound) (message : LifecycleMessage) (number : Nat) :
    (react message number audience).1.Sound := by
  unfold Audience.react
  split
  · exact sound
  · next listener found =>
      have taken : Sound
          { audience with listeners := audience.listeners.modify number (·.take message) } :=
        sound.listeners (List.length_modify ..)
      split
      · exact taken
      split
      · exact taken
      have ended := taken.foldl_unsubscribe listener.drops
      cases listener.adds with
      | none => exact ended
      | some id =>
          simp only [Option.elim_some, subscribeNew]
          split
          · exact ended
          · exact ended.subscribe id _

theorem take (sound : audience.Sound) (step : Step) : (audience.take step).Sound := by
  cases step with
  | subscribe id listener => exact sound.subscribe id listener
  | subscribeAgain id session other =>
      unfold Audience.take subscribeAgain
      dsimp only
      split
      · next name number found =>
          refine sound.subscribe_known id session (sound.named other number ?_) (Nat.le_refl _)
          rw [numberOf?, found]
          rfl
      · exact sound.subscribe id _
  | unsubscribe id => exact sound.unsubscribe id
  | publish message =>
      exact Bus.deliver_induction Sound (fun number _ sound => sound.react message number) _ sound
  | drain id count =>
      unfold Audience.take drain
      dsimp only
      split
      · exact sound.listeners (List.length_set ..)
      · exact sound

theorem takeAll (sound : audience.Sound) (steps : List Step) : (audience.takeAll steps).Sound := by
  induction steps generalizing audience with
  | nil => exact sound
  | cons step steps ih => exact ih (sound.take step)

end Sound

/-! ## Subscriptions -/

/-- Whether a listener is on the bus no more often than before and has no new names. If `firm`, it
has all its places. -/
structure Passes (number : Nat) (firm : Prop) (before after : Audience) : Prop where
  tidy : after.bus.Tidy
  known : number < after.listeners.length
  count_le : ∀ session,
    (after.bus.subscribers session).count number ≤ (before.bus.subscribers session).count number
  le_count : firm → ∀ session,
    (before.bus.subscribers session).count number ≤ (after.bus.subscribers session).count number
  named : ∀ id session, after.subscriptions.get? id = some (session, number) →
    before.subscriptions.get? id = some (session, number)

namespace Passes

variable {number : Nat} {firm : Prop} {before audience : Audience}

theorem refl (tidy : audience.bus.Tidy) (known : number < audience.listeners.length) :
    Passes number firm audience audience :=
  ⟨tidy, known, fun _ => Nat.le_refl _, fun _ _ => Nat.le_refl _, fun _ _ => id⟩

theorem listeners (passes : Passes number firm before audience) {listeners : List Listener}
    (length_eq : listeners.length = audience.listeners.length) :
    Passes number firm before { audience with listeners } :=
  { passes with known := length_eq ▸ passes.known }

/-- Another listener is subscribed. -/
theorem subscribe_of_ne (passes : Passes number firm before audience) {other : Nat}
    (different : other ≠ number) (id session : String) {listeners : List Listener}
    (longer : audience.listeners.length ≤ listeners.length) :
    Passes number firm before
      { bus := audience.bus.subscribe session other
        listeners
        subscriptions := audience.subscriptions.put id (session, other) } where
  tidy := Bus.tidy_setSubscribers passes.tidy _ _
  known := Nat.lt_of_lt_of_le passes.known longer
  count_le name := by
    rw [Bus.count_subscribe_of_ne passes.tidy different]
    exact passes.count_le name
  le_count spared name := by
    rw [Bus.count_subscribe_of_ne passes.tidy different]
    exact passes.le_count spared name
  named name other own := by
    by_cases same : name = id
    · rw [same, Named.get?_put_self] at own
      exact absurd (congrArg Prod.snd (Option.some.inj own)) different
    · rw [Named.get?_put_of_ne same] at own
      exact passes.named name other own

theorem subscribe (passes : Passes number firm before audience) (id : String)
    (listener : Listener) : Passes number firm before (audience.subscribe id listener) := by
  refine passes.subscribe_of_ne (Nat.ne_of_gt passes.known) id _ ?_
  rw [List.length_append]
  exact Nat.le_add_right _ _

theorem subscribeNew (passes : Passes number firm before audience) (session id : String) :
    Passes number firm before (audience.subscribeNew session id) := by
  unfold Audience.subscribeNew
  split
  · exact passes
  · exact passes.subscribe id _

theorem unsubscribe (passes : Passes number firm before audience) {id : String}
    (spared : firm → before.numberOf? id ≠ some number) :
    Passes number firm before (audience.unsubscribe id) := by
  unfold Audience.unsubscribe
  split
  · next session other found =>
      refine { passes with tidy := Bus.tidy_setSubscribers passes.tidy _ _, count_le := ?_,
                           le_count := ?_ }
      · intro name
        exact Nat.le_trans (Bus.count_unsubscribe_le passes.tidy _ _ _ _) (passes.count_le name)
      · intro stays name
        have different : other ≠ number := by
          rintro rfl
          apply spared stays
          rw [numberOf?, passes.named id session found]
          rfl
        rw [Bus.count_unsubscribe_of_ne passes.tidy different]
        exact passes.le_count stays name
  · exact passes

theorem foldl_unsubscribe (passes : Passes number firm before audience) {ids : List String}
    (spared : firm → ∀ id ∈ ids, before.numberOf? id ≠ some number) :
    Passes number firm before (ids.foldl Audience.unsubscribe audience) := by
  induction ids generalizing audience with
  | nil => exact passes
  | cons id ids ih =>
      refine ih (passes.unsubscribe fun stays => spared stays id List.mem_cons_self) ?_
      intro stays other mem
      exact spared stays other (List.mem_cons_of_mem _ mem)

theorem react (passes : Passes number firm before audience) (message : LifecycleMessage)
    {other : Nat}
    (spared : firm → ∀ listener, audience.listeners[other]? = some listener →
      ∀ id ∈ listener.drops, before.numberOf? id ≠ some number) :
    Passes number firm before (react message other audience).1 := by
  unfold Audience.react
  split
  · exact passes
  · next listener found =>
      have taken : Passes number firm before
          { audience with listeners := audience.listeners.modify other (·.take message) } :=
        passes.listeners (List.length_modify ..)
      split
      · exact taken
      split
      · exact taken
      have ended := taken.foldl_unsubscribe fun stays => spared stays listener found
      cases listener.adds with
      | none => exact ended
      | some id => exact ended.subscribeNew listener.session id

theorem deliver (passes : Passes number firm before audience) (message : LifecycleMessage)
    {numbers : List Nat}
    (spared : firm → ∀ other ∈ numbers, ∀ listener, audience.listeners[other]? = some listener →
      ∀ id ∈ listener.drops, before.numberOf? id ≠ some number) :
    Passes number firm before (Bus.deliver (Audience.react message) numbers audience).1 := by
  rw [Bus.deliver_eq_foldl]
  induction numbers generalizing audience with
  | nil => exact passes
  | cons first numbers ih =>
      refine ih (passes.react message fun stays => spared stays first List.mem_cons_self) ?_
      intro stays other mem listener found
      rcases drops_react found with none | ⟨old, found, drops_eq⟩
      · rw [none]
        exact List.forall_mem_nil _
      · rw [drops_eq]
        exact spared stays other (List.mem_cons_of_mem _ mem) old found

end Passes

/-- A step leaves a listener its places on the bus, unless it asks for their end; it gives it new
ones only by subscribing it once more. -/
theorem passes_take {audience : Audience} {number : Nat} {step : Step}
    (tidy : audience.bus.Tidy) (known : number < audience.listeners.length)
    (foreign : ¬ step.Copies audience number) :
    Passes number (¬ step.Ends audience number) audience (audience.take step) := by
  have start : Passes number (¬ step.Ends audience number) audience audience := .refl tidy known
  cases step with
  | subscribe id listener => exact start.subscribe id listener
  | subscribeAgain id session other =>
      unfold take subscribeAgain
      dsimp only
      split
      · next name twin found =>
          refine start.subscribe_of_ne ?_ id session (Nat.le_refl _)
          rintro rfl
          apply foreign
          rw [Step.Copies, numberOf?, found]
          rfl
      · exact start.subscribe id _
  | unsubscribe id => exact start.unsubscribe fun spared => spared
  | publish message =>
      refine start.deliver message ?_
      intro spared other mem listener found id dropped own
      exact spared ⟨other, mem, listener, found, id, dropped, own⟩
  | drain id count =>
      unfold take drain
      dsimp only
      split
      · exact start.listeners (List.length_set ..)
      · exact start

end ComponentPreview.Audience
