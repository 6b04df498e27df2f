import ComponentPreview.Proofs.Lifecycle.Message
import ComponentPreview.Proofs.Service.Run
import Mathlib.Data.List.Nodup
import Mathlib.Data.List.TakeWhile

/-!
# Delivery by the relay

Every connection is sent the messages of its own session, each once and in the order in which they
were sent, as long as it is open. A frame that is no message of its session is dropped; only one
that is JSON beyond measure ends the connection that sent it.
-/

namespace ComponentPreview

namespace Json

/-- Whether a text is JSON, but too much of it. -/
def isExcess (text : List Char) : Bool :=
  match readText text with
  | .error error => error.fault.isExcess
  | .ok _ => false

theorem readKeyword?_nine (rest : List Char) : readKeyword? ('9' :: rest) = none := by
  simp [readKeyword?, keywords]

theorem isExcess_of_digits {digits : List Char} (areDigits : ∀ c ∈ digits, c.isDigit = true)
    (long : maxDigits ≤ digits.length) : isExcess ('9' :: digits) = true := by
  have taken : ('9' :: digits).takeWhile Char.isDigit = '9' :: digits := by
    rw [List.takeWhile_eq_self_iff]
    rintro c mem
    rcases List.mem_cons.1 mem with rfl | mem
    · rfl
    · exact areDigits c mem
  have dropped : ('9' :: digits).dropWhile Char.isDigit = [] := by
    rw [List.dropWhile_eq_nil_iff]
    rintro c mem
    rcases List.mem_cons.1 mem with rfl | mem
    · rfl
    · exact areDigits c mem
  have magnitude : readMagnitude ('9' :: digits) false ('9' :: digits) =
      .error ⟨.tooManyDigits, '9' :: digits⟩ := by
    have long : maxDigits < ('9' :: digits).length := Nat.lt_succ_of_le long
    simp only [readMagnitude, taken, dropped]
    simp [readFraction, readExponent]
    omega
  have value : ∀ fuel depth, readValue (fuel + 1) depth ('9' :: digits) =
      .error ⟨.tooManyDigits, '9' :: digits⟩ := by
    intro fuel depth
    simp [readValue, readPlain, readKeyword?_nine, magnitude]
  have unskipped : skipGap ('9' :: digits) = '9' :: digits := by
    simp [skipGap, isGap]
  rw [isExcess, readText, readTextWithin, unskipped, value]
  rfl

end Json

namespace App

def sessionOf? (app : App) (number : Nat) : Option String :=
  (app.connections.find? (·.number == number)).map Connection.session

namespace Turn

variable (turn : Turn)

/-- The message of a session that a connection of that session sends, read with the stored version
as default. -/
def relayed? (session : String) : Option LifecycleMessage :=
  match turn.event with
  | .send number text =>
      if turn.before.sessionOf? number = some session then
        match Json.readText text with
        | .ok raw =>
            LifecycleMessage.read? raw session
              ((turn.before.store.latest? session).map StoredPreview.version)
        | .error _ => none
      else none
  | _ => none

/-- A connection of a session sends a frame that reports something for the session. -/
def Reports (session : String) : Prop :=
  ∃ number text raw, turn.event = .send number text ∧
    turn.before.sessionOf? number = some session ∧ Json.readText text = .ok raw ∧
    LifecycleMessage.Reports raw session

theorem isSome_relayed?_iff (session : String) :
    (turn.relayed? session).isSome = true ↔ turn.Reports session := by
  constructor
  · intro relayed
    unfold relayed? at relayed
    split at relayed
    · next number text sends =>
        split at relayed
        · next own =>
            split at relayed
            · next raw read =>
                have reports := (LifecycleMessage.isSome_read?_iff raw session _).1 relayed
                exact ⟨number, text, raw, sends, own, read, reports⟩
            · cases relayed
        · cases relayed
    · cases relayed
  · rintro ⟨number, text, raw, sends, own, read, reports⟩
    rw [relayed?, sends]
    dsimp only
    rw [if_pos own, read]
    exact (LifecycleMessage.isSome_read?_iff raw session _).2 reports

/-- The message relayed for the session of a connection that is open. -/
def relayedTo? (number : Nat) : Option LifecycleMessage :=
  (turn.before.sessionOf? number).bind turn.relayed?

def framesTo (number : Nat) : List String :=
  turn.sent.flatMap fun (other, frames) => if other == number then frames else []

/-- The connections that are open after an event. -/
def remaining : List Connection :=
  match turn.event with
  | .connect session =>
      turn.before.connections ++ [⟨turn.before.nextConnection, session, .empty⟩]
  | .disconnect number => turn.before.connections.filter (·.number != number)
  | .send number text =>
      if Json.isExcess text then turn.before.connections.filter (·.number != number)
      else turn.before.connections
  | _ => turn.before.connections

end Turn

/-- Nothing waits for a connection, and the subscribers of a session are its connections. -/
structure Relaying (app : App) : Prop where
  nodup : (app.connections.map Connection.number).Nodup
  number_lt : ∀ connection ∈ app.connections, connection.number < app.nextConnection
  idle : ∀ connection ∈ app.connections, connection.backlog = .empty
  tidy : app.bus.Tidy
  subscribers_eq : ∀ session, app.bus.subscribers session =
    (app.connections.filter (·.session == session)).map Connection.number

theorem relaying_initial (settings : Settings) : (initial settings).Relaying where
  nodup := List.nodup_nil
  number_lt := fun _ mem => nomatch mem
  idle := fun _ mem => nomatch mem
  tidy := Bus.tidy_empty
  subscribers_eq := fun _ => rfl

variable {app : App}

theorem Relaying.of_sameRelay {after : App} (relaying : app.Relaying)
    (same : SameRelay app after) : after.Relaying := by
  obtain ⟨bus_eq, connections_eq, nextConnection_eq⟩ := same
  refine ⟨?_, ?_, ?_, ?_, ?_⟩
  · rw [connections_eq]
    exact relaying.nodup
  · rw [connections_eq, nextConnection_eq]
    exact relaying.number_lt
  · rw [connections_eq]
    exact relaying.idle
  · rw [bus_eq]
    exact relaying.tidy
  · rw [bus_eq, connections_eq]
    exact relaying.subscribers_eq

theorem Relaying.eq_of_number_eq (relaying : app.Relaying) {first second : Connection}
    (mem : first ∈ app.connections) (mem' : second ∈ app.connections)
    (same : first.number = second.number) : first = second :=
  List.inj_on_of_nodup_map relaying.nodup mem mem' same

theorem Relaying.nodup_subscribers (relaying : app.Relaying) (session : String) :
    (app.bus.subscribers session).Nodup := by
  rw [relaying.subscribers_eq]
  exact relaying.nodup.sublist (List.filter_sublist.map _)

theorem relaying_connect (relaying : app.Relaying) (session : String) :
    (app.connect session).1.Relaying where
  nodup := by
    simp only [connect, List.map_append, List.map_cons, List.map_nil]
    rw [List.nodup_append]
    refine ⟨relaying.nodup, by simp, ?_⟩
    rintro _ mem _ new rfl
    rw [List.mem_singleton] at new
    subst new
    obtain ⟨connection, mem, number_eq⟩ := List.mem_map.1 mem
    exact Nat.ne_of_lt (relaying.number_lt connection mem) number_eq
  number_lt := by
    intro connection mem
    rcases List.mem_append.1 mem with mem | mem
    · exact Nat.lt_succ_of_lt (relaying.number_lt connection mem)
    · rw [List.mem_singleton.1 mem]
      exact Nat.lt_succ_self _
  idle := by
    intro connection mem
    rcases List.mem_append.1 mem with mem | mem
    · exact relaying.idle connection mem
    · rw [List.mem_singleton.1 mem]
  tidy := Bus.tidy_setSubscribers relaying.tidy session _
  subscribers_eq := by
    intro other
    simp only [connect]
    rw [Bus.subscribers_subscribe relaying.tidy, List.filter_append, List.map_append]
    by_cases own : other = session
    · subst own
      simp [relaying.subscribers_eq other]
    · simp [own, Ne.symm own, relaying.subscribers_eq other]

theorem disconnect_of_none {number : Nat}
    (missing : app.connections.find? (·.number == number) = none) :
    app.disconnect number = app ∧
      app.connections.filter (·.number != number) = app.connections := by
  refine ⟨by rw [disconnect, missing], List.filter_eq_self.2 ?_⟩
  intro connection mem
  have differs := List.find?_eq_none.1 missing connection mem
  simpa using differs

theorem disconnect_of_some {number : Nat} {connection : Connection}
    (found : app.connections.find? (·.number == number) = some connection) :
    app.disconnect number = { app with
      bus := app.bus.unsubscribe connection.session number
      connections := app.connections.filter (·.number != number) } := by
  rw [disconnect, found]

theorem connections_disconnect (app : App) (number : Nat) :
    (app.disconnect number).connections = app.connections.filter (·.number != number) := by
  cases found : app.connections.find? (·.number == number) with
  | none =>
      obtain ⟨same, filter_eq⟩ := disconnect_of_none found
      rw [same, filter_eq]
  | some connection => rw [disconnect_of_some found]

theorem map_number_filter (connections : List Connection) (session : String) (number : Nat) :
    ((connections.filter (·.number != number)).filter (·.session == session)).map
        Connection.number =
      ((connections.filter (·.session == session)).map Connection.number).filter
        (· != number) := by
  rw [List.filter_map, List.filter_comm]
  rfl

theorem relaying_disconnect (relaying : app.Relaying) (number : Nat) :
    (app.disconnect number).Relaying := by
  cases found : app.connections.find? (·.number == number) with
  | none =>
      rw [(disconnect_of_none found).1]
      exact relaying
  | some connection =>
      have mem := List.mem_of_find?_eq_some found
      have number_eq : connection.number = number := by
        have same := List.find?_some found
        exact eq_of_beq same
      rw [disconnect_of_some found]
      refine ⟨relaying.nodup.sublist (List.filter_sublist.map _), ?_, ?_,
        Bus.tidy_setSubscribers relaying.tidy _ _, ?_⟩
      · exact fun other mem => relaying.number_lt other (List.mem_filter.1 mem).1
      · exact fun other mem => relaying.idle other (List.mem_filter.1 mem).1
      · intro session
        dsimp only
        rw [Bus.subscribers_unsubscribe relaying.tidy, map_number_filter,
          ← relaying.subscribers_eq]
        split
        · next own =>
            subst own
            exact (relaying.nodup_subscribers _).erase_eq_filter number
        · next foreign =>
            -- Only the connection that ends has its number, and it is one of another session.
            refine (List.filter_eq_self.2 ?_).symm
            intro other subscribed
            rw [relaying.subscribers_eq] at subscribed
            obtain ⟨present, mem', rfl⟩ := List.mem_map.1 subscribed
            rw [List.mem_filter] at mem'
            rw [bne_iff_ne]
            intro same
            have same := relaying.eq_of_number_eq mem'.1 mem (same.trans number_eq.symm)
            exact foreign (same ▸ eq_of_beq mem'.2).symm

/-! ## Publishing -/

/-- Hands a message to the connections of its session. -/
def handed (message : LifecycleMessage) (connections : List Connection) : List Connection :=
  connections.map fun connection =>
    if connection.session = message.session then
      { connection with backlog := connection.backlog.push message }
    else connection

theorem deliver_enqueue (message : LifecycleMessage) {numbers : List Nat} (nodup : numbers.Nodup)
    (app : App) :
    (Bus.deliver (enqueue message) numbers app).1 = { app with
      connections := app.connections.map fun connection =>
        if connection.number ∈ numbers then
          { connection with backlog := connection.backlog.push message }
        else connection } := by
  rw [Bus.deliver_eq_foldl]
  induction numbers generalizing app with
  | nil => simp
  | cons number numbers ih =>
      obtain ⟨unlike, nodup⟩ := List.nodup_cons.1 nodup
      rw [List.foldl_cons, ih nodup]
      simp only [enqueue, List.map_map]
      congr 1
      refine List.map_congr_left fun connection _ => ?_
      by_cases meant : connection.number = number
      · simp [meant, unlike]
      · simp [meant]

theorem publish_eq (relaying : app.Relaying) (message : LifecycleMessage) :
    (app.publish message).1 = { app with connections := handed message app.connections } := by
  -- Subscribers are told apart by their numbers, and these are the connections of the session.
  rw [publish, Bus.publish, deliver_enqueue message (relaying.nodup_subscribers _)]
  congr 1
  refine List.map_congr_left fun connection mem => ?_
  have subscribed : connection.number ∈ app.bus.subscribers message.session ↔
      connection.session = message.session := by
    rw [relaying.subscribers_eq, List.mem_map]
    constructor
    · rintro ⟨other, mem', number_eq⟩
      rw [List.mem_filter] at mem'
      rw [← relaying.eq_of_number_eq mem'.1 mem number_eq]
      exact eq_of_beq mem'.2
    · intro own
      exact ⟨connection, List.mem_filter.2 ⟨mem, beq_iff_eq.2 own⟩, rfl⟩
  simp only [subscribed]

/-- What a frame comes to: a message is handed to the connections of its session, and otherwise the
frame is dropped or ends the connection that sent it. -/
theorem receive_cases (relaying : app.Relaying) (number : Nat) (text : List Char) :
    ((∀ session, Turn.relayed? ⟨app, .send number text⟩ session = none) ∧
      app.receive number text = if Json.isExcess text then app.disconnect number else app) ∨
    ∃ message, Json.isExcess text = false ∧
      (∀ session, Turn.relayed? ⟨app, .send number text⟩ session =
        if session = message.session then some message else none) ∧
      app.receive number text =
        { app with connections := handed message app.connections } := by
  cases found : app.connections.find? (·.number == number) with
  | none =>
      refine .inl ⟨fun session => by simp [Turn.relayed?, sessionOf?, found], ?_⟩
      rw [receive, found, (disconnect_of_none found).1, ite_self]
  | some connection =>
      have own : app.sessionOf? number = some connection.session := by rw [sessionOf?, found]; rfl
      cases read : Json.readText text with
      | error error =>
          refine .inl ⟨fun session => by simp [Turn.relayed?, read], ?_⟩
          rw [receive, found, Json.isExcess, read]
      | ok raw =>
          have calm : Json.isExcess text = false := by rw [Json.isExcess, read]
          cases parsed : LifecycleMessage.read? raw connection.session
              ((app.store.latest? connection.session).map StoredPreview.version) with
          | none =>
              refine .inl ⟨?_, ?_⟩
              · intro session
                by_cases same : connection.session = session
                · subst same
                  simp [Turn.relayed?, read, parsed]
                · simp [Turn.relayed?, own, same]
              · simp [receive, found, read, parsed, calm]
          | some message =>
              have session_eq := LifecycleMessage.session_of_read? parsed
              refine .inr ⟨message, calm, ?_, ?_⟩
              · intro session
                by_cases same : connection.session = session
                · subst same
                  simp [Turn.relayed?, own, read, parsed, session_eq]
                · simp [Turn.relayed?, own, same, session_eq, Ne.symm same]
              · rw [← publish_eq relaying]
                simp [receive, found, read, parsed]

/-! ## Sending -/

theorem flush_of_idle (idle : ∀ connection ∈ app.connections, connection.backlog = .empty) :
    app.flush.1 = app := by
  have same : app.connections.map (fun connection => { connection with backlog := .empty }) =
      app.connections := by
    refine (List.map_congr_left fun connection mem => ?_).trans (List.map_id _)
    rw [← idle connection mem]
    rfl
  rw [flush, same]

theorem flush_handed (relaying : app.Relaying) (message : LifecycleMessage) :
    App.flush { app with connections := handed message app.connections } =
      (app, app.connections.map fun connection =>
        (connection.number, if connection.session = message.session then [message] else [])) := by
  have emptied : (handed message app.connections).map
      (fun connection => { connection with backlog := .empty }) = app.connections := by
    rw [handed, List.map_map]
    refine (List.map_congr_left fun connection mem => ?_).trans (List.map_id _)
    dsimp only [Function.comp_apply]
    rw [← relaying.idle connection mem]
    split <;> rfl
  have waiting : (handed message app.connections).map
      (fun connection => (connection.number, connection.backlog.items)) =
        app.connections.map fun connection =>
          (connection.number, if connection.session = message.session then [message] else []) := by
    rw [handed, List.map_map]
    refine List.map_congr_left fun connection mem => ?_
    dsimp only [Function.comp_apply]
    split
    · rw [relaying.idle connection mem]
      rfl
    · rw [relaying.idle connection mem]
      rfl
  rw [flush, emptied, waiting]

namespace Turn

variable {turn : Turn}

/-- An event relays nothing and leaves nothing waiting, or it hands a message to the connections of
its session. -/
theorem acted_cases (relaying : turn.before.Relaying) :
    ((∀ session, turn.relayed? session = none) ∧ turn.acted.Relaying ∧
      turn.acted.connections = turn.remaining) ∨
    ∃ message, (∀ session, turn.relayed? session =
        if session = message.session then some message else none) ∧
      turn.acted = { turn.before with connections := handed message turn.before.connections } ∧
      turn.remaining = turn.before.connections := by
  obtain ⟨app, event⟩ := turn
  have still : ∀ {after : App}, SameRelay app after →
      after.Relaying ∧ after.connections = app.connections :=
    fun same => ⟨relaying.of_sameRelay same, same.connections_eq⟩
  cases event with
  | http method path payload address =>
      exact .inl ⟨fun _ => rfl, still (sameRelay_handle app _)⟩
  | connect session => exact .inl ⟨fun _ => rfl, relaying_connect relaying session, rfl⟩
  | disconnect number =>
      exact .inl ⟨fun _ => rfl, relaying_disconnect relaying number,
        connections_disconnect app number⟩
  | send number text =>
      have received : acted ⟨app, .send number text⟩ = app.receive number text := rfl
      rcases receive_cases relaying number text with
        ⟨dropped, receive_eq⟩ | ⟨message, calm, relayed, receive_eq⟩
      · refine .inl ⟨dropped, ?_⟩
        rw [received, receive_eq, remaining]
        dsimp only
        split
        · exact ⟨relaying_disconnect relaying number, connections_disconnect app number⟩
        · exact ⟨relaying, rfl⟩
      · refine .inr ⟨message, relayed, received.trans receive_eq, ?_⟩
        rw [remaining]
        dsimp only
        rw [calm, if_neg Bool.false_ne_true]
  | advance span => exact .inl ⟨fun _ => rfl, still (tidies_advance app span).relay⟩
  | start => exact .inl ⟨fun _ => rfl, still (tidies_start app).relay⟩
  | stop => exact .inl ⟨fun _ => rfl, still (tidies_stop app).relay⟩
  | clean => exact .inl ⟨fun _ => rfl, still (tidies_clean app).relay⟩
  | assign name value => exact .inl ⟨fun _ => rfl, still ⟨rfl, rfl, rfl⟩⟩

theorem relaying_after (relaying : turn.before.Relaying) :
    turn.after.Relaying ∧ turn.after.connections = turn.remaining := by
  rcases acted_cases relaying with ⟨-, acted, remaining_eq⟩ | ⟨message, -, acted_eq, remaining_eq⟩
  · rw [after, flush_of_idle acted.idle]
    exact ⟨acted, remaining_eq⟩
  · rw [after, acted_eq, flush_handed relaying, remaining_eq]
    exact ⟨relaying, rfl⟩

theorem flatMap_of_nodup {connections : List Connection}
    (nodup : (connections.map Connection.number).Nodup) (number : Nat)
    (read : Connection → List String) :
    (connections.flatMap fun connection =>
      if connection.number == number then read connection else []) =
        ((connections.find? (·.number == number)).map read).getD [] := by
  induction connections with
  | nil => rfl
  | cons connection connections ih =>
      obtain ⟨unlike, nodup⟩ := List.nodup_cons.1 nodup
      rw [List.flatMap_cons, ih nodup, List.find?_cons]
      by_cases meant : connection.number = number
      · subst meant
        have missing : connections.find? (·.number == connection.number) = none := by
          rw [List.find?_eq_none]
          intro other mem
          rw [beq_iff_eq]
          intro same
          exact unlike (same ▸ List.mem_map_of_mem mem)
        simp [missing]
      · simp [beq_false_of_ne meant]

/-- What a connection is sent is the message relayed for its session, if there is one. -/
theorem framesTo_eq (relaying : turn.before.Relaying) (number : Nat) :
    turn.framesTo number = (turn.relayedTo? number).toList.map frame := by
  rcases acted_cases relaying with ⟨dropped, acted, -⟩ | ⟨message, relayed, acted_eq, -⟩
  · have unrelayed : turn.relayedTo? number = none := by
      rw [relayedTo?]
      cases turn.before.sessionOf? number with
      | none => rfl
      | some session => exact dropped session
    rw [unrelayed, framesTo, sent, flush]
    simp only [List.map_map, List.flatMap_map, Option.toList_none, List.map_nil,
      List.flatMap_eq_nil_iff]
    intro connection mem
    simp [acted.idle connection mem, Backlog.empty]
  · rw [framesTo, sent, acted_eq, flush_handed relaying]
    simp only [List.map_map, List.flatMap_map, Function.comp_apply]
    rw [flatMap_of_nodup relaying.nodup number, relayedTo?, sessionOf?]
    cases turn.before.connections.find? (·.number == number) with
    | none => rfl
    | some connection =>
        simp only [Option.map_some, Option.getD_some, Option.bind_some, relayed]
        split <;> rfl

theorem framesTo_ne_nil_iff (relaying : turn.before.Relaying) (number : Nat) :
    turn.framesTo number ≠ [] ↔
      ∃ session, turn.before.sessionOf? number = some session ∧ turn.Reports session := by
  rw [framesTo_eq relaying, relayedTo?]
  cases turn.before.sessionOf? number with
  | none => simp
  | some session =>
      simp only [Option.bind_some, Option.some.injEq, exists_eq_left', ← isSome_relayed?_iff]
      cases turn.relayed? session <;> simp

end Turn

/-! ## Runs -/

theorem relaying_run (settings : Settings) (events : List Event) :
    ((initial settings).afterAll events).Relaying ∧
      ∀ turn ∈ (initial settings).run events, turn.before.Relaying :=
  invariant (motive := Relaying) (fun _ relaying => (Turn.relaying_after relaying).1) events
    (relaying_initial settings)

theorem flatMap_framesTo {turns : List Turn} (relaying : ∀ turn ∈ turns, turn.before.Relaying)
    (number : Nat) :
    turns.flatMap (·.framesTo number) = (turns.filterMap (·.relayedTo? number)).map frame := by
  induction turns with
  | nil => rfl
  | cons turn turns ih =>
      have first := Turn.framesTo_eq (relaying turn List.mem_cons_self) number
      have rest := ih fun other mem => relaying other (List.mem_cons_of_mem _ mem)
      rw [List.flatMap_cons, first, rest, List.filterMap_cons]
      cases turn.relayedTo? number with
      | none => rfl
      | some message => rfl

theorem Relaying.unsubscribed (relaying : app.Relaying) {session : String}
    (closed : ∀ connection ∈ app.connections, connection.session ≠ session) :
    app.bus.subscribers session = [] ∧ session ∉ app.bus.sessions.map Prod.fst := by
  have none : app.bus.subscribers session = [] := by
    rw [relaying.subscribers_eq, List.map_eq_nil_iff, List.filter_eq_nil_iff]
    intro connection mem
    simpa using closed connection mem
  exact ⟨none, Bus.not_mem_of_subscribers relaying.tidy none⟩

/-- Over every run a connection is sent the messages that connections of its session send while it
is open, each once and in order, and nothing else. A frame that reports nothing for the session of
its sender is dropped. Connections stay open until they are ended or send JSON beyond measure, and a
session without connections has no subscribers. -/
theorem relay_delivers (settings : Settings) (events : List Event) :
    let turns := (initial settings).run events
    let last := (initial settings).afterAll events
    (∀ number, turns.flatMap (·.framesTo number) =
      (turns.filterMap (·.relayedTo? number)).map frame) ∧
    (∀ turn ∈ turns, turn.after.connections = turn.remaining ∧
      ∀ number, turn.framesTo number ≠ [] ↔
        ∃ session, turn.before.sessionOf? number = some session ∧ turn.Reports session) ∧
    ∀ session, (∀ connection ∈ last.connections, connection.session ≠ session) →
      last.bus.subscribers session = [] ∧ session ∉ last.bus.sessions.map Prod.fst := by
  intro turns last
  obtain ⟨relaying_last, relaying⟩ := relaying_run settings events
  refine ⟨flatMap_framesTo relaying, ?_, fun session => relaying_last.unsubscribed⟩
  intro turn mem
  exact ⟨(Turn.relaying_after (relaying turn mem)).2,
    Turn.framesTo_ne_nil_iff (relaying turn mem)⟩

/-- A frame that is no message but JSON, a whole number of too many digits, ends its connection. -/
theorem excessive_frame_ends_connection :
    ∃ (settings : Settings) (events : List Event), ∃ turn ∈ (initial settings).run events,
      ∃ number text, turn.event = .send number text ∧ turn.before.sessionOf? number = some "s" ∧
        (∀ session, turn.relayed? session = none) ∧ turn.after.sessionOf? number = none := by
  let text := '9' :: List.replicate Json.maxDigits '9'
  have excess : Json.isExcess text = true := by
    refine Json.isExcess_of_digits ?_ (Nat.le_of_eq List.length_replicate.symm)
    intro c mem
    rw [List.eq_of_mem_replicate mem]
    rfl
  let opened := (initial {}).afterAll [.connect "s"]
  let turn : Turn := ⟨opened, .send 0 text⟩
  have relaying : turn.before.Relaying := (relaying_run {} [.connect "s"]).1
  have unrelayed : ∀ session, turn.relayed? session = none := by
    rcases receive_cases relaying 0 text with ⟨dropped, -⟩ | ⟨_, calm, -, -⟩
    · exact dropped
    · rw [excess] at calm
      cases calm
  have remaining_eq : turn.remaining = [] := by
    rw [Turn.remaining]
    dsimp only [turn]
    rw [excess]
    rfl
  have ended : turn.after.sessionOf? 0 = none := by
    rw [sessionOf?, (Turn.relaying_after relaying).2, remaining_eq]
    rfl
  exact ⟨{}, [.connect "s", .send 0 text], turn, List.mem_cons_of_mem _ List.mem_cons_self, 0, text,
    rfl, rfl, unrelayed, ended⟩

end App

end ComponentPreview
