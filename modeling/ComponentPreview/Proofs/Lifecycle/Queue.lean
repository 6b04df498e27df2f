import ComponentPreview.Proofs.Lifecycle.Audience
import ComponentPreview.Proofs.Lifecycle.Backlog
import Mathlib.Data.List.Induction

/-!
# Queues of a session

A queue is a listener that does nothing but keep a backlog of the messages of its session. While it
is subscribed, it has the end of what was published to the session since it came, up to what was
taken from it; once its subscription has ended, it only gives out what it still has.
-/

namespace ComponentPreview

def Listener.queue (session : String) (backlog : Backlog LifecycleMessage := .empty) : Listener :=
  { session, keepsBacklog := true, backlog }

theorem Listener.take_queue (session : String) (backlog : Backlog LifecycleMessage)
    (message : LifecycleMessage) :
    (queue session backlog).take message = queue session (backlog.push message) :=
  rfl

namespace Audience

def waiting (audience : Audience) (number : Nat) : Backlog LifecycleMessage :=
  audience.listeners[number]?.elim .empty Listener.backlog

/-- What a step takes from the backlog of the listener with a number. -/
def handed (audience : Audience) (number : Nat) : Step → List LifecycleMessage
  | .drain id count =>
      if audience.numberOf? id = some number then (audience.drain id count).1 else []
  | _ => []

def handedAll (audience : Audience) (number : Nat) : List Step → List LifecycleMessage
  | [] => []
  | step :: steps => audience.handed number step ++ (audience.take step).handedAll number steps

/-- The messages of a session that are published, heard by anyone or not. -/
def published (session : String) (steps : List Step) : List LifecycleMessage :=
  steps.filterMap fun
    | .publish message => if message.session = session then some message else none
    | _ => none

/-- Whether no step subscribes the listener with a number once more. -/
def KeepsOwn (audience : Audience) (number : Nat) : List Step → Prop
  | [] => True
  | step :: steps => ¬ step.Copies audience number ∧ (audience.take step).KeepsOwn number steps

def ledger (audience : Audience) (number : Nat) (session : String) (steps : List Step) :
    Backlog.Ledger LifecycleMessage where
  backlog := (audience.takeAll steps).waiting number
  pushed := published session steps
  taken := audience.handedAll number steps

variable {audience : Audience} {number : Nat} {session : String}

theorem handedAll_append (audience : Audience) (number : Nat) (first rest : List Step) :
    audience.handedAll number (first ++ rest) =
      audience.handedAll number first ++ (audience.takeAll first).handedAll number rest := by
  induction first generalizing audience with
  | nil => rfl
  | cons step first ih =>
      rw [List.cons_append, handedAll, handedAll, ih, List.append_assoc]
      rfl

theorem published_append (session : String) (first rest : List Step) :
    published session (first ++ rest) = published session first ++ published session rest :=
  List.filterMap_append

theorem keepsOwn_append (audience : Audience) (number : Nat) (first rest : List Step) :
    audience.KeepsOwn number (first ++ rest) ↔
      audience.KeepsOwn number first ∧ (audience.takeAll first).KeepsOwn number rest := by
  induction first generalizing audience with
  | nil => exact ⟨fun own => ⟨trivial, own⟩, And.right⟩
  | cons step first ih =>
      simp only [List.cons_append, KeepsOwn, ih, and_assoc]
      rfl

theorem waiting_eq {backlog : Backlog LifecycleMessage}
    (found : audience.listeners[number]? = some (.queue session backlog)) :
    audience.waiting number = backlog := by
  rw [waiting, found]
  rfl

/-! ## One step -/

/-- The number of a queue that is subscribed once, or not any more. -/
structure IsQueue (audience : Audience) (number : Nat) (session : String) : Prop where
  tidy : audience.bus.Tidy
  found : audience.listeners[number]? = some (.queue session (audience.waiting number))
  bounded : (audience.waiting number).items.length ≤ Backlog.capacity
  count_le : ∀ name,
    (audience.bus.subscribers name).count number ≤ if name = session then 1 else 0
  named : ∀ id name, audience.subscriptions.get? id = some (name, number) → name = session

theorem exists_queue_publish {backlog : Backlog LifecycleMessage}
    (found : audience.listeners[number]? = some (.queue session backlog))
    (once : ∀ name, (audience.bus.subscribers name).count number ≤ 1) (message : LifecycleMessage) :
    ∃ after, (audience.take (.publish message)).listeners[number]? = some (.queue session after) ∧
      (number ∈ audience.bus.subscribers message.session ∧ after = backlog.push message ∨
        number ∉ audience.bus.subscribers message.session ∧ after = backlog) := by
  have delivered := listener_deliver found message (audience.bus.subscribers message.session)
  rw [List.filter_beq] at delivered
  by_cases hears : number ∈ audience.bus.subscribers message.session
  · have count_eq : (audience.bus.subscribers message.session).count number = 1 :=
      Nat.le_antisymm (once _) (List.count_pos_iff.2 hears)
    rw [count_eq, List.replicate_one, List.foldl_cons, List.foldl_nil, Listener.take_queue]
      at delivered
    exact ⟨backlog.push message, delivered, .inl ⟨hears, rfl⟩⟩
  · rw [List.count_eq_zero_of_not_mem hears] at delivered
    exact ⟨backlog, delivered, .inr ⟨hears, rfl⟩⟩

theorem exists_queue_drain {backlog : Backlog LifecycleMessage}
    (found : audience.listeners[number]? = some (.queue session backlog)) (id : String)
    (count : Option Nat) :
    ∃ after, (audience.take (.drain id count)).listeners[number]? = some (.queue session after) ∧
      ∃ taken, backlog.take taken = (audience.handed number (.drain id count), after) := by
  have known := (List.getElem?_eq_some_iff.1 found).1
  unfold take handed drain numberOf? listener?
  dsimp only
  cases name : audience.subscriptions.get? id with
  | none => exact ⟨backlog, found, 0, backlog.take_zero⟩
  | some subscription =>
      obtain ⟨_, other⟩ := subscription
      simp only [Option.bind_some, Option.map_some, Option.some.injEq]
      by_cases own : other = number
      · subst own
        simp only [found, if_true]
        exact ⟨_, List.getElem?_set_self known, _, rfl⟩
      · simp only [own, if_false]
        refine ⟨backlog, ?_, 0, backlog.take_zero⟩
        cases audience.listeners[other]? with
        | none => exact found
        | some listener => exact (List.getElem?_set_ne own).trans found

/-- A step either puts a message into a queue, or takes some from it, or leaves it as it is. -/
theorem exists_queue_take {backlog : Backlog LifecycleMessage}
    (found : audience.listeners[number]? = some (.queue session backlog))
    (once : ∀ name, (audience.bus.subscribers name).count number ≤ 1) (step : Step) :
    ∃ after, (audience.take step).listeners[number]? = some (.queue session after) ∧
      ((∃ message, step = .publish message ∧
          number ∈ audience.bus.subscribers message.session ∧ after = backlog.push message) ∨
        (∀ message, step = .publish message →
          number ∉ audience.bus.subscribers message.session) ∧
        ∃ count, backlog.take count = (audience.handed number step, after)) := by
  have known := (List.getElem?_eq_some_iff.1 found).1
  have subscribed : ∀ id listener,
      (audience.subscribe id listener).listeners[number]? = some (.queue session backlog) :=
    fun id listener => (List.getElem?_append_left known).trans found
  cases step with
  | subscribe id listener =>
      exact ⟨backlog, subscribed id listener, .inr ⟨(fun _ h => nomatch h), 0, backlog.take_zero⟩⟩
  | subscribeAgain id name other =>
      refine ⟨backlog, ?_, .inr ⟨(fun _ h => nomatch h), 0, backlog.take_zero⟩⟩
      unfold take subscribeAgain
      dsimp only
      split
      · exact found
      · exact subscribed id _
  | unsubscribe id =>
      refine ⟨backlog, ?_, .inr ⟨(fun _ h => nomatch h), 0, backlog.take_zero⟩⟩
      rw [take, listeners_unsubscribe]
      exact found
  | publish message =>
      obtain ⟨after, listens, ⟨hears, pushed⟩ | ⟨deaf, rfl⟩⟩ :=
        exists_queue_publish found once message
      · exact ⟨after, listens, .inl ⟨message, rfl, hears, pushed⟩⟩
      · refine ⟨after, listens, .inr ⟨?_, 0, after.take_zero⟩⟩
        rintro _ ⟨⟩
        exact deaf
  | drain id count =>
      obtain ⟨after, listens, taken⟩ := exists_queue_drain found id count
      exact ⟨after, listens, .inr ⟨(fun _ h => nomatch h), taken⟩⟩

namespace IsQueue

theorem passes (queue : audience.IsQueue number session) {step : Step}
    (foreign : ¬ step.Copies audience number) :
    Passes number (¬ step.Ends audience number) audience (audience.take step) :=
  passes_take queue.tidy (List.getElem?_eq_some_iff.1 queue.found).1 foreign

theorem session_eq_of_mem (queue : audience.IsQueue number session) {name : String}
    (mem : number ∈ audience.bus.subscribers name) : name = session := by
  refine Decidable.byContradiction fun other => ?_
  have count_le := queue.count_le name
  rw [if_neg other] at count_le
  exact absurd (List.count_pos_iff.2 mem) (Nat.not_lt.2 count_le)

/-- What `exists_queue_take` says, of what is waiting. -/
theorem waiting_cases (queue : audience.IsQueue number session) (step : Step) :
    (audience.take step).listeners[number]? =
        some (.queue session ((audience.take step).waiting number)) ∧
      ((∃ message, step = .publish message ∧ message.session = session ∧
          number ∈ audience.bus.subscribers session ∧
          (audience.take step).waiting number = (audience.waiting number).push message) ∨
        (∀ message, step = .publish message → message.session = session →
          number ∉ audience.bus.subscribers session) ∧
        ∃ count, (audience.waiting number).take count =
          (audience.handed number step, (audience.take step).waiting number)) := by
  have once : ∀ name, (audience.bus.subscribers name).count number ≤ 1 := by
    intro name
    refine Nat.le_trans (queue.count_le name) ?_
    split <;> decide
  obtain ⟨after, found, cases⟩ := exists_queue_take queue.found once step
  rw [waiting_eq found]
  refine ⟨found, ?_⟩
  obtain ⟨message, step_eq, hears, after_eq⟩ | ⟨silent, count, take_eq⟩ := cases
  · obtain rfl := queue.session_eq_of_mem hears
    exact .inl ⟨message, step_eq, rfl, hears, after_eq⟩
  · refine .inr ⟨?_, count, take_eq⟩
    rintro message step_eq rfl
    exact silent message step_eq

theorem take (queue : audience.IsQueue number session) {step : Step}
    (foreign : ¬ step.Copies audience number) :
    (audience.take step).IsQueue number session := by
  have passes := queue.passes foreign
  obtain ⟨found, cases⟩ := queue.waiting_cases step
  refine ⟨passes.tidy, found, ?_, fun name => Nat.le_trans (passes.count_le name) ?_, ?_⟩
  · obtain ⟨message, -, -, -, waiting_eq⟩ | ⟨-, count, take_eq⟩ := cases
    · rw [waiting_eq]
      exact Backlog.length_push_le _ _ queue.bounded
    · have := Backlog.length_take_le (audience.waiting number) count
      rw [take_eq] at this
      exact Nat.le_trans this queue.bounded
  · exact queue.count_le name
  · exact fun id name own => queue.named id name (passes.named id name own)

theorem takeAll (queue : audience.IsQueue number session) {steps : List Step}
    (own : audience.KeepsOwn number steps) : (audience.takeAll steps).IsQueue number session := by
  induction steps generalizing audience with
  | nil => exact queue
  | cons step steps ih => exact ih (queue.take own.1) own.2

/-- Whose subscription has ended does not come back. -/
theorem not_mem_take (queue : audience.IsQueue number session) {step : Step}
    (foreign : ¬ step.Copies audience number)
    (ended : number ∉ audience.bus.subscribers session) :
    number ∉ (audience.take step).bus.subscribers session := by
  have passes := queue.passes foreign
  have count_le := passes.count_le session
  rw [List.count_eq_zero_of_not_mem ended] at count_le
  exact List.count_eq_zero.1 (Nat.le_zero.1 count_le)

theorem not_mem_unsubscribe (queue : audience.IsQueue number session) {id : String}
    (own : audience.numberOf? id = some number) :
    number ∉ (audience.unsubscribe id).bus.subscribers session := by
  obtain ⟨⟨name, _⟩, found, rfl⟩ := Option.map_eq_some_iff.1 own
  obtain rfl := queue.named id name found
  have once := queue.count_le name
  rw [if_pos rfl] at once
  rw [unsubscribe, found]
  dsimp only
  rw [Bus.subscribers_unsubscribe queue.tidy, if_pos rfl, ← List.count_eq_zero,
    List.count_erase_self]
  exact Nat.sub_eq_zero_of_le once

end IsQueue

/-- What a step makes of a queue. -/
structure Serves (audience : Audience) (number : Nat) (session : String) (step : Step) : Prop where
  ends : ∀ id, step = .unsubscribe id → audience.numberOf? id = some number →
    number ∉ (audience.take step).bus.subscribers session
  /-- Only who asks for it ends the subscription. -/
  stays : number ∈ audience.bus.subscribers session → ¬ step.Ends audience number →
    number ∈ (audience.take step).bus.subscribers session
  /-- A message of the session is put in; if the queue is full, the oldest is dropped for it, and
  then as many newer ones are waiting as the queue can hold. -/
  puts : ∀ message, step = .publish message → message.session = session →
    number ∈ audience.bus.subscribers session →
    let before := (audience.waiting number).items
    let after := ((audience.take step).waiting number).items
    before.length < Backlog.capacity ∧ after = before ++ [message] ∨
      ∃ oldest, before ++ [message] = oldest :: after ∧ after.length = Backlog.capacity
  /-- Otherwise what leaves the queue is handed to its reader. -/
  hands : (∀ message, step = .publish message → message.session = session →
      number ∉ audience.bus.subscribers session) →
    (audience.waiting number).items =
      audience.handed number step ++ ((audience.take step).waiting number).items

theorem IsQueue.serves (queue : audience.IsQueue number session) {step : Step}
    (foreign : ¬ step.Copies audience number) : audience.Serves number session step := by
  have passes := queue.passes foreign
  obtain ⟨-, cases⟩ := queue.waiting_cases step
  refine ⟨?_, ?_, ?_, ?_⟩
  · rintro id rfl own
    exact queue.not_mem_unsubscribe own
  · intro mem spared
    exact List.count_pos_iff.1
      (Nat.lt_of_lt_of_le (List.count_pos_iff.2 mem) (passes.le_count spared session))
  · rintro message rfl own hears
    obtain ⟨_, ⟨⟩, -, -, waiting_eq⟩ | ⟨silent, -⟩ := cases
    · have bounded := Backlog.length_push_le _ message queue.bounded
      dsimp only
      rw [waiting_eq]
      refine (Backlog.push_cases _ _).imp_right ?_
      rintro ⟨oldest, items_eq, full⟩
      exact ⟨oldest, items_eq, Nat.le_antisymm bounded full⟩
    · exact absurd hears (silent message rfl own)
  · intro silent
    obtain ⟨message, step_eq, own, hears, -⟩ | ⟨-, count, take_eq⟩ := cases
    · exact absurd hears (silent message step_eq own)
    · have items_eq := Backlog.handed_append_rest (audience.waiting number) count
      rwa [take_eq] at items_eq

/-! ## Steps in a row -/

/-- After its subscription has ended, what was waiting is handed out or still waiting. -/
theorem IsQueue.waiting_of_ended (queue : audience.IsQueue number session) {steps : List Step}
    (own : audience.KeepsOwn number steps) (ended : number ∉ audience.bus.subscribers session) :
    (audience.waiting number).items =
      audience.handedAll number steps ++ ((audience.takeAll steps).waiting number).items := by
  induction steps generalizing audience with
  | nil => rfl
  | cons step steps ih =>
      have handed := (queue.serves own.1).hands fun _ _ _ => ended
      rw [handed, ih (queue.take own.1) own.2 (queue.not_mem_take own.1 ended), handedAll,
        List.append_assoc]
      rfl

/-- What was published and what was handed out balance while a queue is subscribed. -/
theorem IsQueue.balanced (queue : audience.IsQueue number session)
    (empty : audience.waiting number = .empty) {steps : List Step}
    (own : audience.KeepsOwn number steps)
    (mem : number ∈ (audience.takeAll steps).bus.subscribers session) :
    (audience.ledger number session steps).Balanced := by
  induction steps using List.reverseRecOn with
  | nil =>
      have ledger_eq : audience.ledger number session [] = {} := by
        rw [ledger, Audience.takeAll, List.foldl_nil, empty]
        rfl
      exact ledger_eq ▸ Backlog.Ledger.balanced_empty
  | append_singleton steps step ih =>
      obtain ⟨own, foreign, -⟩ := (keepsOwn_append ..).1 own
      have now := queue.takeAll own
      rw [takeAll_concat] at mem
      have present : number ∈ (audience.takeAll steps).bus.subscribers session :=
        Decidable.byContradiction fun ended => now.not_mem_take foreign ended mem
      have balanced := ih own present
      have handed_eq : audience.handedAll number (steps ++ [step]) =
          audience.handedAll number steps ++ (audience.takeAll steps).handed number step := by
        rw [handedAll_append, handedAll, handedAll, List.append_nil]
      obtain ⟨-, ⟨message, rfl, rfl, -, waiting_eq⟩ | ⟨silent, count, take_eq⟩⟩ :=
        now.waiting_cases step
      · have ledger_eq : audience.ledger number message.session (steps ++ [.publish message]) =
            (audience.ledger number message.session steps).push message := by
          simp [ledger, Backlog.Ledger.push, handed_eq, handed, published, takeAll_concat,
            waiting_eq]
        exact ledger_eq ▸ balanced.push message
      · have quiet : published session [step] = [] := by
          cases step with
          | publish message =>
              have other : message.session ≠ session := fun own => silent message rfl own present
              simp [published, other]
          | _ => rfl
        have ledger_eq : audience.ledger number session (steps ++ [step]) =
            (audience.ledger number session steps).take count := by
          simp [ledger, Backlog.Ledger.take, handed_eq, published_append, quiet, takeAll_concat,
            take_eq]
        exact ledger_eq ▸ balanced.take count

theorem Sound.isQueue (sound : audience.Sound) (id session : String) :
    (audience.subscribe id (.queue session)).IsQueue audience.listeners.length session := by
  have found := listener_subscribe audience id (.queue session)
  refine ⟨(sound.subscribe id _).tidy, ?_, ?_, ?_, ?_⟩
  · rw [waiting_eq found]
    exact found
  · rw [waiting_eq found]
    exact Nat.zero_le _
  · intro name
    have new : ∀ name, (audience.bus.subscribers name).count audience.listeners.length = 0 := by
      intro name
      refine List.count_eq_zero.2 fun mem => ?_
      exact Nat.lt_irrefl _ (sound.subscribed name _ mem)
    rw [Audience.subscribe, Bus.subscribers_subscribe sound.tidy]
    dsimp only [Listener.queue]
    by_cases own : name = session
    · simp [own, new]
    · simp [own, new]
  · intro other name own
    by_cases same : other = id
    · rw [Audience.subscribe, same, Named.get?_put_self] at own
      exact (congrArg Prod.fst (Option.some.inj own)).symm
    · rw [Audience.subscribe, Named.get?_put_of_ne same] at own
      have known := sound.named other audience.listeners.length (by rw [numberOf?, own]; rfl)
      exact absurd known (Nat.lt_irrefl _)

/-- A queue that is subscribed among others, with every kind of step before and after, holds no more
than its capacity. It stays subscribed until someone asks for the end of its subscription, and once
this is ended by its name it is subscribed no longer. While it is subscribed it has the end of what
was published to its session, and all that came before was taken in turn or dropped when as many
newer ones were waiting as the queue can hold. From then on it only gives out what it has. No one
else has its callback, so no step subscribes it once more. -/
theorem queue_keeps_newest (earlier : List Step) (id session : String) (steps : List Step) :
    let before := ({} : Audience).takeAll earlier
    let number := before.listeners.length
    let opened := before.subscribe id (.queue session)
    opened.KeepsOwn number steps →
    opened.numberOf? id = some number ∧ number ∈ opened.bus.subscribers session ∧
    (∀ first step rest, steps = first ++ step :: rest →
      (opened.takeAll first).Serves number session step) ∧
    ∀ first rest, steps = first ++ rest →
      let now := opened.takeAll first
      let waiting := (now.waiting number).items
      waiting.length ≤ Backlog.capacity ∧
      (number ∈ now.bus.subscribers session →
        waiting <:+ published session first ∧ (opened.ledger number session first).Balanced) ∧
      (number ∉ now.bus.subscribers session →
        waiting = now.handedAll number rest ++ ((now.takeAll rest).waiting number).items) := by
  intro before number opened own
  have sound : before.Sound := sound_empty.takeAll earlier
  have queue : opened.IsQueue number session := sound.isQueue id session
  have empty : opened.waiting number = .empty := waiting_eq (listener_subscribe before id _)
  refine ⟨?_, ?_, ?_, ?_⟩
  · simp [opened, number, numberOf?, Audience.subscribe, Named.get?_put_self]
  · simp [opened, number, Audience.subscribe, Bus.subscribers_subscribe sound.tidy,
      Listener.queue]
  · rintro first step rest rfl
    obtain ⟨own, foreign, -⟩ := (keepsOwn_append ..).1 own
    exact (queue.takeAll own).serves foreign
  · rintro first rest rfl
    obtain ⟨own, later⟩ := (keepsOwn_append ..).1 own
    have now := queue.takeAll own
    refine ⟨now.bounded, fun mem => ?_, now.waiting_of_ended later⟩
    have balanced := queue.balanced empty own mem
    obtain ⟨gone, published_eq, -⟩ := balanced.account
    exact ⟨⟨gone.map Prod.fst, published_eq.symm⟩, balanced⟩

/-- A listener of the session that is told the second message ends the subscription of the queue,
which then has this message and not the third. -/
theorem ended_queue_gives_out :
    let ready (session name : String) : LifecycleMessage :=
      ⟨session, none, .ready (some name) none⟩
    let opened := (({} : Audience).takeAll [.subscribe "a" { session := "s" }]).subscribe "q"
      (.queue "s")
    let first : List Step := [.publish (ready "s" "A"), .publish (ready "t" "B"),
      .subscribe "b" { session := "s", drops := ["q"] }, .publish (ready "s" "C")]
    let rest : List Step := [.publish (ready "s" "D"), .subscribeAgain "c" "s" "a",
      .drain "q" (some 1)]
    opened.KeepsOwn 1 (first ++ rest) ∧ 1 ∉ (opened.takeAll first).bus.subscribers "s" ∧
      ((opened.takeAll first).waiting 1).items = [ready "s" "A", ready "s" "C"] ∧
      (opened.takeAll first).handedAll 1 rest = [ready "s" "A"] ∧
      (((opened.takeAll first).takeAll rest).waiting 1).items = [ready "s" "C"] := by
  intro ready opened first rest
  have own : opened.KeepsOwn 1 (first ++ rest) :=
    ⟨nofun, nofun, nofun, nofun, nofun, show numberOf? _ "a" ≠ some 1 by decide, nofun, trivial⟩
  have ended : 1 ∉ (opened.takeAll first).bus.subscribers "s" := by decide
  have handed : (opened.takeAll first).handedAll 1 rest = [ready "s" "A"] := by decide
  have waiting : ((opened.takeAll first).waiting 1).items = [ready "s" "A", ready "s" "C"] := by
    decide
  have given := ((queue_keeps_newest [.subscribe "a" { session := "s" }] "q" "s" (first ++ rest)
    own).2.2.2 first rest rfl).2.2 ended
  refine ⟨own, ended, waiting, handed, ?_⟩
  have split : [ready "s" "A", ready "s" "C"] = [ready "s" "A"] ++
      (((opened.takeAll first).takeAll rest).waiting 1).items := by
    rw [← waiting, ← handed]
    exact given
  simpa using split.symm

end Audience

end ComponentPreview
