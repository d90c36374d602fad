import ZooKeeperServer.Http.DisconnectRegistry
import ZooKeeperServer.Transition.Counters

namespace ZooKeeperServer.Http

open Transition OneShot

/-! The requests that stream and the registry they share: what
`start_stream_completion` and `start_stream_extraction` do from the watch on their
connection on, and the connections, which may be lost or let go at any time. -/

/-- Where a request is.  `tracking` and `clearing` hold the connection, which is
what `lock()` has returned. -/
inductive StreamStage
  | locking
  | tracking
  | submitting
  | awaiting
  | forgetting
  | clearing
  /-- `get` has thrown, out of the continuation and past its `clear`. -/
  | raised
  | ended
  deriving DecidableEq

structure StreamRequest where
  connection : Nat
  stage : StreamStage := .locking
  callbackId : Option CallbackId := none
  /-- How often its callback has closed the stream and cancelled the inference. -/
  disconnects : Nat := 0

namespace StreamRequest

def holds (request : StreamRequest) (connection : Nat) : Bool :=
  request.connection = connection &&
    (request.stage = .tracking || request.stage = .clearing)

def asks (request : StreamRequest) : Option RegistryLabel :=
  match request.stage, request.callbackId with
  | .tracking, _ => some (.track (some request.connection) {})
  | .clearing, some callbackId =>
      some (.clear (some request.connection) callbackId)
  | _, _ => none

/-- `submit_background` may turn the continuation down, and `get` may throw. -/
def advance (request : StreamRequest) (alive : Bool)
    (nextCallbackId : CallbackId) (succeeds : Bool) : Option StreamRequest :=
  match request.stage with
  | .locking =>
      some { request with stage := if alive then .tracking else .submitting }
  | .tracking =>
      some { request with stage := .submitting, callbackId := some nextCallbackId }
  | .submitting =>
      some { request with stage := if succeeds then .awaiting else .forgetting }
  | .awaiting =>
      some { request with stage := if succeeds then .forgetting else .raised }
  | .forgetting =>
      some { request with
        stage := if request.callbackId.isSome && alive then .clearing else .ended }
  | .clearing => some { request with stage := .ended }
  | .raised => none
  | .ended => none

def runs (request : StreamRequest) (called : List RegistryEvent) : Nat :=
  match request.callbackId with
  | none => 0
  | some callbackId => called.count (.spent (some request.connection) callbackId)

def tell (called : List RegistryEvent) (request : StreamRequest) : StreamRequest :=
  { request with disconnects := request.disconnects + request.runs called }

end StreamRequest

inductive StreamLabel
  /-- A start call has returned a result that is not ready. -/
  | arrive (connection : Nat)
  | advance (request : Nat) (succeeds : Bool)
  | connectionEvent (connection : Nat) (disconnected : Bool)
  | call (index position : Nat)
  /-- The last owner of the connection outside of this code lets it go. -/
  | abandon (connection : Nat)

structure StreamServer where
  registry : RegistryState := .start
  requests : List StreamRequest := []
  abandoned : List Nat := []
  streamDisconnects : UInt64 := 0

namespace StreamServer

/-- Whether `lock()` finds the connection.  The registry owns its keys. -/
def alive (server : StreamServer) (connection : Nat) : Bool :=
  !server.abandoned.contains connection ||
    (server.registry.shared.callbacks (some connection)).isSome ||
    server.requests.any fun request => request.holds connection

def registryLabel (server : StreamServer) : StreamLabel → Option RegistryLabel
  | .arrive _ => none
  | .advance index _ => server.requests[index]?.bind StreamRequest.asks
  | .connectionEvent connection disconnected =>
      some (.handleConnectionEvent (some connection) disconnected)
  | .call index position => some (.call index position)
  | .abandon _ => none

def registryStep (server : StreamServer) (label : StreamLabel) :
    Option RegistryState :=
  match server.registryLabel label with
  | none => some server.registry
  | some asked => server.registry.step asked

def step (server : StreamServer) (label : StreamLabel) : Option StreamServer := do
  let registry ← server.registryStep label
  match label with
  | .arrive connection =>
      some { server with requests := server.requests ++ [{ connection }] }
  | .advance index succeeds => do
      let request ← server.requests[index]?
      let advanced ← request.advance (server.alive request.connection)
        server.registry.shared.nextCallbackId succeeds
      some { server with
        registry, requests := server.requests.set index advanced }
  | .connectionEvent _ _ => some { server with registry }
  | .call index position =>
      let called := server.registry.called index position
      some { server with
        registry
        requests := server.requests.map (StreamRequest.tell called)
        streamDisconnects :=
          server.streamDisconnects + UInt64.ofNat called.length }
  | .abandon connection =>
      some { server with abandoned := connection :: server.abandoned }

def record (server : StreamServer) (label : StreamLabel)
    (log : List RegistryEvent) : List RegistryEvent :=
  log ++ ((server.registryLabel label).map server.registry.events).getD []

end StreamServer

structure Accounted (state : RegistryState) (log : List RegistryEvent) :
    Prop where
  engaged : ∀ connection, ∀ entry ∈ state.shared.held connection,
    entry.2.engaged = true
  carried : ∀ (index : Nat) event, state.actors[index]? = some event →
    ∀ entry ∈ event.callbacks, entry.2.engaged = true
  called : ∀ connection id, .taken connection id ∈ log →
    .spent connection id ∈ log ∨ ∃ (index : Nat) (event : ConnectionEvent),
      state.actors[index]? = some event ∧ event.connection = connection ∧
        id ∈ event.ids

section Registry

variable {state next : RegistryState} {log : List RegistryEvent}

theorem Accounted.initially : Accounted .start [] where
  engaged := by
    simp [RegistryState.start, DisconnectRegistry.held]
  carried := by simp [RegistryState.start]
  called := by simp

theorem Accounted.track (accounts : Accounted state log)
    {connection : TcpConnectionPtr}
    (absent : state.shared.nextCallbackId ∉ state.shared.ids connection) :
    Accounted ⟨state.shared.track connection {}, state.actors⟩
      (log ++ [.issued connection state.shared.nextCallbackId]) := by
  constructor
  · intro other entry listed
    rw [DisconnectRegistry.held_track absent] at listed
    split at listed
    · rcases List.mem_append.mp listed with earlier | now
      · exact accounts.engaged connection entry earlier
      · rw [List.mem_singleton.mp now]
    · exact accounts.engaged other entry listed
  · exact accounts.carried
  · intro other id taken
    exact (accounts.called other id (by simpa using taken)).imp_left
      (List.mem_append_left _)

theorem Accounted.clear (accounts : Accounted state log)
    (connection : TcpConnectionPtr) (callbackId : CallbackId) :
    Accounted ⟨state.shared.clear connection callbackId, state.actors⟩
      (log ++ [.withdrawn connection callbackId]) := by
  constructor
  · intro other entry listed
    rw [DisconnectRegistry.held_clear] at listed
    split at listed
    · exact accounts.engaged connection entry (List.mem_of_mem_filter listed)
    · exact accounts.engaged other entry listed
  · exact accounts.carried
  · intro other id taken
    exact (accounts.called other id (by simpa using taken)).imp_left
      (List.mem_append_left _)

theorem Accounted.lose (accounts : Accounted state log)
    (connection : TcpConnectionPtr) :
    Accounted (state.join (state.shared.extract connection)
        ⟨connection, state.shared.held connection⟩)
      (log ++ (state.shared.ids connection).map (Event.taken connection)) := by
  constructor
  · intro other entry listed
    rw [Crew.join, DisconnectRegistry.held_extract] at listed
    split at listed
    · cases listed
    · exact accounts.engaged other entry listed
  · intro index event found entry listed
    rcases Crew.getElem?_join_origin found with before | ⟨_, rfl⟩
    · exact accounts.carried index event before entry listed
    · exact accounts.engaged connection entry listed
  · intro other id taken
    rcases List.mem_append.mp taken with earlier | now
    · rcases accounts.called other id earlier with spent | held
      · exact .inl (List.mem_append_left _ spent)
      · obtain ⟨index, event, found, same, listed⟩ := held
        refine .inr ⟨index, event, ?_, same, listed⟩
        exact List.getElem?_append_left
          (List.getElem?_eq_some_iff.mp found).1 ▸ found
    · obtain ⟨_, listed, same⟩ := List.mem_map.mp now
      cases same
      refine .inr ⟨state.actors.length, _, List.getElem?_concat_length, rfl, ?_⟩
      exact listed

theorem call_eq_some {index position : Nat}
    (stepped : state.step (.call index position) = some next) :
    ∃ event entry, state.actors[index]? = some event ∧
      event.callbacks[position]? = some entry ∧
      state.called index position =
        (if entry.2.engaged then [.spent event.connection entry.1] else []) ∧
      next = ⟨state.shared, state.actors.set index
        { event with callbacks := event.callbacks.eraseIdx position }⟩ := by
  obtain ⟨event, shared, updated, found, acted, rfl⟩ :=
    Crew.turn_eq_some stepped
  simp only [ConnectionEvent.call] at acted
  split at acted
  · rename_i inside
    cases acted
    have entry := List.getElem?_eq_getElem inside
    refine ⟨event, _, found, entry, ?_, rfl⟩
    simp [RegistryState.called, found, entry]
  · contradiction

theorem Accounted.call (accounts : Accounted state log) {index position : Nat}
    {event : ConnectionEvent} {entry : CallbackId × StdFunction}
    (found : state.actors[index]? = some event)
    (held : event.callbacks[position]? = some entry) :
    Accounted ⟨state.shared, state.actors.set index
        { event with callbacks := event.callbacks.eraseIdx position }⟩
      (log ++ [.spent event.connection entry.1]) := by
  have listed : event.ids[position]? = some entry.1 := by
    simp [ConnectionEvent.ids, held]
  constructor
  · exact accounts.engaged
  · intro other carrier at_ held_ member
    rcases Crew.getElem?_set_origin at_ with ⟨_, rfl⟩ | ⟨_, before⟩
    · exact accounts.carried index event found held_
        ((List.eraseIdx_sublist _ _).mem member)
    · exact accounts.carried other carrier before held_ member
  · intro connection id taken
    rcases accounts.called connection id (by simpa using taken) with spent | held_
    · exact .inl (List.mem_append_left _ spent)
    · obtain ⟨other, carrier, at_, same, member⟩ := held_
      by_cases here : index = other
      · subst here
        cases found.symm.trans at_
        by_cases last : id = entry.1
        · subst last
          exact .inl (by simp [same])
        · refine .inr ⟨index,
            { event with callbacks := event.callbacks.eraseIdx position }, ?_,
            same, ?_⟩
          · exact List.getElem?_set_self (List.getElem?_eq_some_iff.mp found).1
          · rw [ConnectionEvent.ids_eraseIdx, List.mem_eraseIdx_iff_getElem?]
            obtain ⟨place, at_⟩ := List.getElem?_of_mem member
            refine ⟨place, fun again => last ?_, at_⟩
            subst again
            exact Option.some.inj (at_.symm.trans listed)
      · refine .inr ⟨other, carrier, ?_, same, member⟩
        rw [List.getElem?_set_ne here]
        exact at_

end Registry

structure StreamRequest.Follows (log : List RegistryEvent)
    (request : StreamRequest) : Prop where
  early : request.stage = .locking ∨ request.stage = .tracking →
    request.callbackId = none
  tracked : ∀ id, request.callbackId = some id →
    .issued (some request.connection) id ∈ log
  kept : ∀ id, request.callbackId = some id → request.stage ≠ .ended →
    .withdrawn (some request.connection) id ∉ log
  dropped : ∀ id, request.callbackId = some id → request.stage = .ended →
    ¬ Outstanding log (some request.connection) id
  told : request.disconnects = request.runs log

def StreamRequest.Apart (first second : StreamRequest) : Prop :=
  ∀ id, first.callbackId = some id → second.callbackId ≠ some id

structure Tends (server : StreamServer) (log : List RegistryEvent) : Prop where
  refines : Refines server.registry log
  accounts : Accounted server.registry log
  follows : ∀ (index : Nat) request, server.requests[index]? = some request →
    request.Follows log
  apart : ∀ (index other : Nat) first second, index ≠ other →
    server.requests[index]? = some first →
    server.requests[other]? = some second → first.Apart second
  withdrawn : ∀ connection id, .withdrawn connection id ∈ log →
    .issued connection id ∈ log
  owned : ∀ connection id, .issued connection id ∈ log →
    ∃ (index : Nat) (request : StreamRequest),
      server.requests[index]? = some request ∧
      connection = some request.connection ∧ request.callbackId = some id
  counted : server.streamDisconnects =
    UInt64.ofNat (server.requests.map StreamRequest.disconnects).sum

section Requests

variable {server next : StreamServer} {log events : List RegistryEvent}
  {request advanced : StreamRequest} {label : StreamLabel}

theorem StreamRequest.runs_append :
    request.runs (log ++ events) = request.runs log + request.runs events := by
  unfold StreamRequest.runs
  cases request.callbackId with
  | none => rfl
  | some id => exact List.count_append

theorem StreamRequest.runs_eq_zero
    (quiet : ∀ id, request.callbackId = some id →
      .spent (some request.connection) id ∉ events) : request.runs events = 0 := by
  unfold StreamRequest.runs
  cases found : request.callbackId with
  | none => rfl
  | some id => exact List.count_eq_zero_of_not_mem (quiet id found)

theorem StreamRequest.Follows.append (follows : request.Follows log)
    (fresh : ∀ id, request.callbackId = some id →
      .issued (some request.connection) id ∉ events)
    (kept : ∀ id, request.callbackId = some id →
      .withdrawn (some request.connection) id ∉ events)
    (quiet : ∀ id, request.callbackId = some id →
      .spent (some request.connection) id ∉ events) :
    request.Follows (log ++ events) where
  early := follows.early
  tracked := fun id held => List.mem_append_left _ (follows.tracked id held)
  kept := fun id held live withdrawn =>
    (List.mem_append.mp withdrawn).elim (follows.kept id held live) (kept id held)
  dropped := fun id held ended =>
    not_outstanding_append (fresh id held) (follows.dropped id held ended)
  told := by
    rw [StreamRequest.runs_append, StreamRequest.runs_eq_zero quiet]
    exact follows.told

structure StreamRequest.Moves (alive : Bool)
    (request advanced : StreamRequest) : Prop where
  connection : advanced.connection = request.connection
  callbackId : advanced.callbackId = request.callbackId
  disconnects : advanced.disconnects = request.disconnects
  early : advanced.stage = .locking ∨ advanced.stage = .tracking →
    request.stage = .locking
  live : request.stage ≠ .ended
  goes : request.stage ≠ .raised
  ended : advanced.stage = .ended → request.callbackId = none ∨ alive = false

inductive ServerStepped (server : StreamServer) :
    StreamLabel → List RegistryEvent → StreamServer → Prop
  | arrived (connection : Nat) :
      ServerStepped server (.arrive connection) []
        { server with requests := server.requests ++ [{ connection }] }
  | moved {index : Nat} {request advanced : StreamRequest} (succeeds : Bool)
      (found : server.requests[index]? = some request)
      (moves : request.Moves (server.alive request.connection) advanced) :
      ServerStepped server (.advance index succeeds) []
        { server with requests := server.requests.set index advanced }
  | tracked {index : Nat} {request : StreamRequest} (succeeds : Bool)
      (found : server.requests[index]? = some request)
      (stage : request.stage = .tracking) :
      ServerStepped server (.advance index succeeds)
        [.issued (some request.connection) server.registry.shared.nextCallbackId]
        { server with
          registry := ⟨server.registry.shared.track (some request.connection) {},
            server.registry.actors⟩
          requests := server.requests.set index { request with
            stage := .submitting
            callbackId := some server.registry.shared.nextCallbackId } }
  | cleared {index : Nat} {request : StreamRequest} {callbackId : CallbackId}
      (succeeds : Bool) (found : server.requests[index]? = some request)
      (stage : request.stage = .clearing)
      (held : request.callbackId = some callbackId) :
      ServerStepped server (.advance index succeeds)
        [.withdrawn (some request.connection) callbackId]
        { server with
          registry :=
            ⟨server.registry.shared.clear (some request.connection) callbackId,
              server.registry.actors⟩
          requests :=
            server.requests.set index { request with stage := .ended } }
  | ignored (connection : Nat) (disconnected : Bool) :
      ServerStepped server (.connectionEvent connection disconnected) [] server
  | lost (connection : Nat) :
      ServerStepped server (.connectionEvent connection true)
        ((server.registry.shared.ids (some connection)).map
          (Event.taken (some connection)))
        { server with
          registry := server.registry.join
            (server.registry.shared.extract (some connection))
            ⟨some connection, server.registry.shared.held (some connection)⟩ }
  | called {index position : Nat} {event : ConnectionEvent}
      {entry : CallbackId × StdFunction}
      (found : server.registry.actors[index]? = some event)
      (held : event.callbacks[position]? = some entry)
      (called : List RegistryEvent)
      (shape : called =
        if entry.2.engaged then [.spent event.connection entry.1] else []) :
      ServerStepped server (.call index position) called
        { server with
          registry := ⟨server.registry.shared, server.registry.actors.set index
            { event with callbacks := event.callbacks.eraseIdx position }⟩
          requests := server.requests.map (StreamRequest.tell called)
          streamDisconnects :=
            server.streamDisconnects + UInt64.ofNat called.length }
  | abandoned (connection : Nat) :
      ServerStepped server (.abandon connection) []
        { server with abandoned := connection :: server.abandoned }

theorem advance_moves {alive succeeds : Bool} {nextCallbackId : CallbackId}
    (stepped : request.advance alive nextCallbackId succeeds = some advanced)
    (silent : request.asks = none) : request.Moves alive advanced := by
  unfold StreamRequest.advance at stepped
  cases stage : request.stage with
  | tracking => simp [StreamRequest.asks, stage] at silent
  | locking =>
      simp only [stage] at stepped
      obtain rfl := Option.some.inj stepped
      refine ⟨rfl, rfl, rfl, fun _ => stage, by simp [stage],
        by simp [stage], ?_⟩
      cases alive with
      | _ => simp
  | submitting =>
      simp only [stage] at stepped
      obtain rfl := Option.some.inj stepped
      cases succeeds with
      | _ =>
          exact ⟨rfl, rfl, rfl, by simp, by simp [stage], by simp [stage], by simp⟩
  | awaiting =>
      simp only [stage] at stepped
      obtain rfl := Option.some.inj stepped
      cases succeeds with
      | _ =>
          exact ⟨rfl, rfl, rfl, by simp, by simp [stage], by simp [stage], by simp⟩
  | forgetting =>
      simp only [stage] at stepped
      obtain rfl := Option.some.inj stepped
      refine ⟨rfl, rfl, rfl, ?_, by simp [stage], by simp [stage], ?_⟩
      · dsimp only
        split
        · simp
        · simp
      · intro ended
        cases held : request.callbackId with
        | none => exact .inl rfl
        | some id =>
            right
            cases alive with
            | false => rfl
            | true => simp [held] at ended
  | clearing =>
      simp only [stage] at stepped
      obtain rfl := Option.some.inj stepped
      refine ⟨rfl, rfl, rfl, by simp, by simp [stage], by simp [stage], fun _ => ?_⟩
      cases held : request.callbackId with
      | none => exact .inl rfl
      | some id => simp [StreamRequest.asks, stage, held] at silent
  | raised => simp [stage] at stepped
  | ended => simp [stage] at stepped

theorem server_stepped (stepped : server.step label = some next) :
    ServerStepped server label
      (((server.registryLabel label).map server.registry.events).getD []) next := by
  obtain ⟨registry, asked, executed⟩ := Option.bind_eq_some_iff.mp stepped
  cases label with
  | arrive connection =>
      cases executed
      exact .arrived connection
  | abandon connection =>
      cases executed
      exact .abandoned connection
  | connectionEvent connection disconnected =>
      cases executed
      have shape : Stepped server.registry
          (.handleConnectionEvent (some connection) disconnected) _ registry :=
        step_stepped asked
      cases disconnected with
      | false =>
          have quiet :
              server.registry.loses (some connection) false = false := by
            simp [RegistryState.loses]
          have same : registry = server.registry := by
            simpa [StreamServer.registryStep, StreamServer.registryLabel,
              RegistryState.step, quiet] using asked.symm
          subst same
          simp only [StreamServer.registryLabel, Option.map_some, Option.getD_some,
            RegistryState.events, quiet]
          exact .ignored connection false
      | true =>
          simp only [StreamServer.registryLabel, Option.map_some, Option.getD_some]
          generalize server.registry.events _ = events at shape
          cases shape with
          | ignored => exact .ignored connection true
          | lost => exact .lost connection
  | call index position =>
      cases executed
      obtain ⟨event, entry, found, held, called, rfl⟩ := call_eq_some asked
      exact .called found held _ called
  | advance index succeeds =>
      obtain ⟨request, found, rest⟩ := Option.bind_eq_some_iff.mp executed
      obtain ⟨advanced, moved, rest⟩ := Option.bind_eq_some_iff.mp rest
      cases rest
      have label_ : server.registryLabel (.advance index succeeds) =
          request.asks := by
        simp [StreamServer.registryLabel, found]
      rw [label_]
      rw [StreamServer.registryStep, label_] at asked
      cases silent : request.asks with
      | none =>
          rw [silent] at asked
          cases asked
          exact .moved succeeds found (advance_moves moved silent)
      | some call =>
          rw [silent] at asked
          unfold StreamRequest.asks at silent
          split at silent
          · rename_i stage
            cases silent
            cases asked
            simp only [StreamRequest.advance, stage] at moved
            cases moved
            exact .tracked succeeds found stage
          · rename_i callbackId stage held
            cases silent
            cases asked
            simp only [StreamRequest.advance, stage] at moved
            cases moved
            exact .cleared succeeds found stage held
          · contradiction

theorem Tends.initially : Tends {} [] where
  refines := .initially
  accounts := .initially
  follows := by simp
  apart := by simp
  withdrawn := by simp
  owned := by simp
  counted := rfl

theorem Tends.replace {index : Nat} {registry : RegistryState}
    (tends : Tends server log) (found : server.requests[index]? = some request)
    (updated : StreamRequest) (told : Nat)
    (refines : Refines registry (log ++ events))
    (accounts : Accounted registry (log ++ events))
    (own : updated.Follows (log ++ events))
    (others : ∀ (other : Nat) second, other ≠ index →
      server.requests[other]? = some second →
        second.Follows (log ++ events) ∧ updated.Apart second)
    (withdrawn : ∀ connection id, .withdrawn connection id ∈ events →
      .issued connection id ∈ log)
    (connection : updated.connection = request.connection)
    (keeps : ∀ id, request.callbackId = some id → updated.callbackId = some id)
    (owns : ∀ connection id, .issued connection id ∈ events →
      connection = some request.connection ∧ updated.callbackId = some id)
    (tells : updated.disconnects = request.disconnects + told) :
    Tends { server with
      registry, requests := server.requests.set index updated
      streamDisconnects := server.streamDisconnects + UInt64.ofNat told }
      (log ++ events) where
  refines := refines
  accounts := accounts
  follows := by
    intro other second at_
    rcases Crew.getElem?_set_origin at_ with ⟨_, rfl⟩ | ⟨different, before⟩
    · exact own
    · exact (others other second (Ne.symm different) before).1
  apart := by
    refine Crew.between_set ?_ ?_ fun one two first second _ _ =>
      tends.apart one two first second
    · intro other second different at_
      exact (others other second different at_).2
    · intro other first different at_ id held again
      exact (others other first different at_).2 id again held
  withdrawn := by
    intro place id cleared
    refine List.mem_append_left _ ?_
    exact (List.mem_append.mp cleared).elim (tends.withdrawn place id)
      (withdrawn place id)
  owned := by
    have inside := (List.getElem?_eq_some_iff.mp found).1
    have itself : (server.requests.set index updated)[index]? = some updated :=
      List.getElem?_set_self inside
    intro place id issued
    rcases List.mem_append.mp issued with earlier | now
    · obtain ⟨other, owner, at_, here, held⟩ := tends.owned place id earlier
      by_cases same : index = other
      · subst same
        cases found.symm.trans at_
        exact ⟨index, updated, itself, connection ▸ here, keeps id held⟩
      · refine ⟨other, owner, ?_, here, held⟩
        rw [List.getElem?_set_ne same]
        exact at_
    · obtain ⟨here, held⟩ := owns place id now
      exact ⟨index, updated, itself, connection ▸ here, held⟩
  counted := by
    have total := Counting.sum_map_set StreamRequest.disconnects updated found
    rw [tells] at total
    have sum : ((server.requests.set index updated).map
        StreamRequest.disconnects).sum =
        (server.requests.map StreamRequest.disconnects).sum + told := by omega
    rw [sum, UInt64.ofNat_add, ← tends.counted]

theorem Tends.arrive (tends : Tends server log) (connection : Nat) :
    Tends { server with requests := server.requests ++ [{ connection }] } log where
  refines := tends.refines
  accounts := tends.accounts
  follows := by
    intro index request at_
    rcases Crew.getElem?_join_origin at_ with before | ⟨_, rfl⟩
    · exact tends.follows index request before
    · exact ⟨fun _ => rfl, by simp, by simp, by simp, rfl⟩
  apart := by
    refine Crew.between_join ?_ ?_ tends.apart
    · intro other second _ id held
      cases held
    · intro other first _ id _ again
      cases again
  withdrawn := tends.withdrawn
  owned := by
    intro place id issued
    obtain ⟨other, owner, at_, rest⟩ := tends.owned place id issued
    have inside := (List.getElem?_eq_some_iff.mp at_).1
    exact ⟨other, owner, (List.getElem?_append_left inside).trans at_, rest⟩
  counted := by simpa using tends.counted

theorem Tends.track {index : Nat} (tends : Tends server log)
    (fresh : server.registry.shared.nextCallbackId ∉ issuedKeys log)
    (found : server.requests[index]? = some request)
    (stage : request.stage = .tracking) :
    Tends { server with
      registry := ⟨server.registry.shared.track (some request.connection) {},
        server.registry.actors⟩
      requests := server.requests.set index { request with
        stage := .submitting
        callbackId := some server.registry.shared.nextCallbackId } }
      (log ++ [.issued (some request.connection)
        server.registry.shared.nextCallbackId]) := by
  have follows := tends.follows index request found
  have untracked := follows.early (.inr stage)
  have unissued {place : TcpConnectionPtr} :
      .issued place server.registry.shared.nextCallbackId ∉ log :=
    fun issued => fresh (mem_issuedKeys.mpr ⟨place, issued⟩)
  have absent : server.registry.shared.nextCallbackId ∉
      server.registry.shared.ids (some request.connection) := fun listed =>
    unissued ((tends.refines.registered _ _).mp listed).issued
  have lawful := tends.refines.lawful
  have replaced := tends.replace found
    { request with
      stage := .submitting
      callbackId := some server.registry.shared.nextCallbackId } 0
    (tends.refines.track (some request.connection) {} fresh)
    (tends.accounts.track absent)
    ?own ?others (by simp) rfl (by simp [untracked]) ?owns rfl
  case own =>
    constructor
    · simp
    · intro id held
      cases held
      simp
    · intro id held _ cleared
      cases held
      exact unissued (tends.withdrawn _ _ (by simpa using cleared))
    · simp
    · have silent : request.disconnects = 0 := by
        rw [follows.told, StreamRequest.runs, untracked]
      refine silent.trans (StreamRequest.runs_eq_zero ?_).symm
      intro id held spent
      cases held
      have taken := lawful.taken_of_spent (by simpa using spent)
      exact unissued (lawful.issued_of_taken taken)
  case others =>
    intro other second different at_
    have tracked := tends.follows other second at_
    refine ⟨tracked.append ?_ (by simp) (by simp), ?_⟩
    · intro id held issued
      have same := (Event.issued.inj (List.mem_singleton.mp issued)).2
      exact unissued (same ▸ tracked.tracked id held)
    · intro id held again
      cases held
      exact unissued (tracked.tracked _ again)
  case owns =>
    intro place id issued
    cases List.mem_singleton.mp issued
    exact ⟨rfl, rfl⟩
  simpa using replaced

theorem Tends.clear {index : Nat} {callbackId : CallbackId}
    (tends : Tends server log)
    (found : server.requests[index]? = some request)
    (held : request.callbackId = some callbackId) :
    Tends { server with
      registry :=
        ⟨server.registry.shared.clear (some request.connection) callbackId,
          server.registry.actors⟩
      requests := server.requests.set index { request with stage := .ended } }
      (log ++ [.withdrawn (some request.connection) callbackId]) := by
  have follows := tends.follows index request found
  have replaced := tends.replace found { request with stage := .ended } 0
    (tends.refines.clear (some request.connection) callbackId)
    (tends.accounts.clear (some request.connection) callbackId)
    ?own ?others ?withdrawn rfl (fun _ same => same) (by simp) rfl
  case own =>
    constructor
    · simp
    · intro id same
      exact List.mem_append_left _ (follows.tracked id same)
    · simp
    · intro id same _ outstanding
      cases held.symm.trans same
      rcases outstanding_concat.mp outstanding with now | ⟨_, other, _⟩
      · cases now
      · exact other rfl
    · refine follows.told.trans ?_
      simp [StreamRequest.runs, held]
  case others =>
    intro other second different at_
    have tracked := tends.follows other second at_
    refine ⟨tracked.append (by simp) ?_ (by simp), ?_⟩
    · intro id same cleared
      have own := (Event.withdrawn.inj (List.mem_singleton.mp cleared)).2
      exact tends.apart index other request second (Ne.symm different) found at_
        callbackId held (own ▸ same)
    · exact tends.apart index other request second (Ne.symm different) found at_
  case withdrawn =>
    intro place id cleared
    cases List.mem_singleton.mp cleared
    exact follows.tracked callbackId held
  simpa using replaced

theorem Tends.move {index : Nat} (tends : Tends server log)
    (found : server.requests[index]? = some request)
    (moves : request.Moves (server.alive request.connection) advanced) :
    Tends { server with requests := server.requests.set index advanced } log := by
  have follows := tends.follows index request found
  have refines : Refines server.registry (log ++ []) := by
    simpa using tends.refines
  have replaced := tends.replace found advanced 0 refines
    (by simpa using tends.accounts) ?own ?others (by simp) moves.connection
    (fun id same => moves.callbackId ▸ same) (by simp) moves.disconnects
  case own =>
    rw [List.append_nil]
    constructor
    · intro early
      rw [moves.callbackId]
      exact follows.early (.inl (moves.early early))
    · intro id same
      rw [moves.connection]
      exact follows.tracked id (moves.callbackId ▸ same)
    · intro id same _
      rw [moves.connection]
      exact follows.kept id (moves.callbackId ▸ same) moves.live
    · intro id same ended outstanding
      rw [moves.callbackId] at same
      rw [moves.connection] at outstanding
      have listed := (tends.refines.registered _ _).mpr outstanding
      rcases moves.ended ended with none | dead
      · cases none.symm.trans same
      · unfold StreamServer.alive at dead
        simp only [Bool.or_eq_false_iff, Option.isSome_eq_false_iff,
          Option.isNone_iff_eq_none] at dead
        simp [DisconnectRegistry.ids, DisconnectRegistry.held, dead.1.2] at listed
    · rw [moves.disconnects, follows.told]
      simp only [StreamRequest.runs, moves.callbackId, moves.connection]
  case others =>
    intro other second different at_
    have apart := tends.apart index other request second (Ne.symm different) found
      at_
    refine ⟨by simpa using tends.follows other second at_, fun id same => ?_⟩
    exact apart id (moves.callbackId ▸ same)
  simpa using replaced

theorem Tends.lose (tends : Tends server log) (connection : Nat) :
    Tends { server with
      registry := server.registry.join
        (server.registry.shared.extract (some connection))
        ⟨some connection, server.registry.shared.held (some connection)⟩ }
      (log ++ (server.registry.shared.ids (some connection)).map
        (Event.taken (some connection))) where
  refines := tends.refines.lose (some connection)
  accounts := tends.accounts.lose (some connection)
  follows := fun index request found =>
    (tends.follows index request found).append (by simp) (by simp) (by simp)
  apart := tends.apart
  withdrawn := by
    intro place id cleared
    exact List.mem_append_left _ (tends.withdrawn place id (by simpa using cleared))
  owned := fun place id issued => tends.owned place id (by simpa using issued)
  counted := tends.counted

theorem Tends.map_tell {index : Nat} {id : CallbackId}
    (tends : Tends server log) (found : server.requests[index]? = some request)
    (held : request.callbackId = some id) :
    server.requests.map
        (StreamRequest.tell [.spent (some request.connection) id]) =
      server.requests.set index
        { request with disconnects := request.disconnects + 1 } := by
  apply List.ext_getElem?
  intro other
  rw [List.getElem?_map]
  by_cases same : index = other
  · subst same
    rw [List.getElem?_set_self (List.getElem?_eq_some_iff.mp found).1, found]
    simp [StreamRequest.tell, StreamRequest.runs, held]
  · rw [List.getElem?_set_ne same]
    cases at_ : server.requests[other]? with
    | none => rfl
    | some second =>
        have silent : second.runs [.spent (some request.connection) id] = 0 := by
          refine StreamRequest.runs_eq_zero fun again taken spent => ?_
          have own := (Event.spent.inj (List.mem_singleton.mp spent)).2
          exact tends.apart index other request second same found at_ id held
            (own ▸ taken)
        simp [StreamRequest.tell, silent]

theorem Tends.call {index position : Nat} {event : ConnectionEvent}
    {entry : CallbackId × StdFunction} (tends : Tends server log)
    (found : server.registry.actors[index]? = some event)
    (held : event.callbacks[position]? = some entry) :
    Tends { server with
      registry := ⟨server.registry.shared, server.registry.actors.set index
        { event with callbacks := event.callbacks.eraseIdx position }⟩
      requests :=
        server.requests.map (StreamRequest.tell [.spent event.connection entry.1])
      streamDisconnects := server.streamDisconnects + 1 }
      (log ++ [.spent event.connection entry.1]) := by
  have member := List.mem_of_getElem? held
  have engaged := tends.accounts.carried index event found entry member
  have listed : event.ids[position]? = some entry.1 := by
    simp [ConnectionEvent.ids, held]
  have holds := tends.refines.events index event found
  have taken := holds.taken entry.1 (List.mem_of_getElem? listed)
  obtain ⟨owner, request, at_, here, tracked⟩ :=
    tends.owned _ _ (tends.refines.lawful.issued_of_taken taken)
  have follows := tends.follows owner request at_
  have refines := tends.refines.call found listed true
  rw [here] at refines ⊢
  rw [tends.map_tell at_ tracked]
  refine tends.replace at_
    { request with disconnects := request.disconnects + 1 } 1
    (by simpa using refines) (here ▸ tends.accounts.call found held)
    ?own ?others (by simp) rfl (fun _ same => same) (by simp) rfl
  case own =>
    constructor
    · exact follows.early
    · exact fun id same => List.mem_append_left _ (follows.tracked id same)
    · intro id same live cleared
      exact follows.kept id same live (by simpa using cleared)
    · intro id same ended
      exact not_outstanding_append (by simp) (follows.dropped id same ended)
    · rw [follows.told]
      simp [StreamRequest.runs, tracked]
  case others =>
    intro other second different there
    have apart := tends.apart owner other request second (Ne.symm different) at_
      there
    refine ⟨(tends.follows other second there).append (by simp) (by simp) ?_,
      apart⟩
    intro id same spent
    have own := (Event.spent.inj (List.mem_singleton.mp spent)).2
    exact apart entry.1 tracked (own ▸ same)

theorem Tends.step (tends : Tends server log)
    (fresh : server.registry.shared.nextCallbackId ∉ issuedKeys log)
    (stepped : ServerStepped server label events next) :
    Tends next (log ++ events) := by
  cases stepped with
  | arrived connection => simpa using tends.arrive connection
  | moved succeeds found moves => simpa using tends.move found moves
  | tracked succeeds found stage => exact tends.track fresh found stage
  | cleared succeeds found stage held => exact tends.clear found held
  | ignored connection disconnected => simpa using tends
  | lost connection => exact tends.lose connection
  | called found held called shape =>
      have engaged := tends.accounts.carried _ _ found _
        (List.mem_of_getElem? held)
      rw [if_pos engaged] at shape
      subst shape
      exact tends.call found held
  | abandoned connection =>
      rw [List.append_nil]
      exact { tends with }

theorem ServerStepped.numbered (numbers : Numbered server.registry log)
    (stepped : ServerStepped server label events next) :
    Numbered next.registry (log ++ events) := by
  cases stepped with
  | arrived connection => simpa using numbers
  | moved succeeds found moves => simpa using numbers
  | tracked succeeds found stage => exact numbers.step (.tracked _ _)
  | cleared succeeds found stage held => exact numbers.step (.cleared _ _)
  | ignored connection disconnected => simpa using numbers
  | lost connection => exact numbers.step (.lost _ true)
  | called found held called shape =>
      subst shape
      refine numbers.step (.called found ?_ _)
      simp [ConnectionEvent.ids, held]
  | abandoned connection => simpa using numbers

def StreamRequest.tracks (request : StreamRequest) : Nat :=
  if request.callbackId.isSome then 1 else 0

def Counted (server : StreamServer) (log : List RegistryEvent) : Prop :=
  (issuedKeys log).length = (server.requests.map StreamRequest.tracks).sum

theorem Counted.le (counted : Counted server log) :
    (issuedKeys log).length ≤ server.requests.length := by
  rw [counted]
  induction server.requests with
  | nil => simp
  | cons request rest ih =>
      have once : request.tracks ≤ 1 := by
        unfold StreamRequest.tracks
        split
        · exact le_rfl
        · exact Nat.zero_le 1
      simp only [List.map_cons, List.sum_cons, List.length_cons]
      omega

theorem Counted.replace {index : Nat} {updated : StreamRequest}
    {registry : RegistryState} (counted : Counted server log)
    (found : server.requests[index]? = some request)
    (more : request.tracks + (issuedKeys events).length = updated.tracks) :
    Counted { server with
      registry, requests := server.requests.set index updated }
      (log ++ events) := by
  have total := Counting.sum_map_set StreamRequest.tracks updated found
  unfold Counted at counted ⊢
  rw [issuedKeys_append, List.length_append, counted]
  dsimp only
  omega

theorem Counted.step (counted : Counted server log) (tends : Tends server log)
    (stepped : ServerStepped server label events next) :
    Counted next (log ++ events) := by
  cases stepped with
  | arrived connection =>
      simpa [Counted, StreamRequest.tracks] using counted
  | moved succeeds found moves =>
      refine counted.replace found ?_
      simp [StreamRequest.tracks, moves.callbackId, issuedKeys]
  | tracked succeeds found stage =>
      have untracked := (tends.follows _ _ found).early (.inr stage)
      refine counted.replace found ?_
      simp [StreamRequest.tracks, untracked, issuedKeys, Event.issuedKey]
  | cleared succeeds found stage held =>
      refine counted.replace found ?_
      simp [StreamRequest.tracks, issuedKeys, Event.issuedKey]
  | ignored connection disconnected => simpa using counted
  | lost connection =>
      have silent : issuedKeys
          ((server.registry.shared.ids (some connection)).map
            (Event.taken (some connection))) = [] := by
        simp [issuedKeys, Event.issuedKey]
      unfold Counted at counted ⊢
      rw [issuedKeys_append, silent, List.append_nil, counted]
  | called found held _ shape =>
      have silent : issuedKeys events = [] := by
        subst shape
        split
        · rfl
        · rfl
      unfold Counted at counted ⊢
      rw [issuedKeys_append, silent, List.append_nil, counted, List.map_map]
      rfl
  | abandoned connection => simpa [Counted] using counted

theorem ServerStepped.length_le (stepped : ServerStepped server label events next) :
    server.requests.length ≤ next.requests.length := by
  cases stepped with
  | _ => simp

end Requests

def StreamRequest.live (request : StreamRequest) : Bool :=
  request.stage ≠ .raised && request.stage ≠ .ended

inductive StreamRequest.Fate (server : StreamServer) (request : StreamRequest) :
    Prop
  | untracked (none_ : request.callbackId = none) (quiet : request.disconnects = 0)
  /-- The callback is registered, and the request goes on. -/
  | watched {id : CallbackId} (tracked : request.callbackId = some id)
      (registered : id ∈ server.registry.shared.ids (some request.connection))
      (live : request.live = true) (quiet : request.disconnects = 0)
  /-- The callback is still registered though the request is over: `get` has thrown. -/
  | stranded {id : CallbackId} (tracked : request.callbackId = some id)
      (registered : id ∈ server.registry.shared.ids (some request.connection))
      (raised : request.stage = .raised) (quiet : request.disconnects = 0)
  /-- Its connection has been lost, and the callback is about to be called. -/
  | lost {id : CallbackId} (tracked : request.callbackId = some id)
      (gone : id ∉ server.registry.shared.ids (some request.connection))
      (carried : ∃ event ∈ server.registry.actors,
        event.connection = some request.connection ∧ id ∈ event.ids)
      (quiet : request.disconnects = 0)
  | told {id : CallbackId} (tracked : request.callbackId = some id)
      (gone : id ∉ server.registry.shared.ids (some request.connection))
      (settled : ∀ event ∈ server.registry.actors,
        event.connection = some request.connection → id ∉ event.ids)
      (once : request.disconnects = 1)
  /-- The request has ended before its connection was lost. -/
  | cleared {id : CallbackId} (tracked : request.callbackId = some id)
      (ended : request.stage = .ended)
      (gone : id ∉ server.registry.shared.ids (some request.connection))
      (settled : ∀ event ∈ server.registry.actors,
        event.connection = some request.connection → id ∉ event.ids)
      (quiet : request.disconnects = 0)

/-- What the registry and its users keep together. -/
structure Watches (server : StreamServer) : Prop where
  fates : ∀ request ∈ server.requests, request.Fate server
  entries : ∀ connection id, id ∈ server.registry.shared.ids connection →
    ∃ request ∈ server.requests, connection = some request.connection ∧
      request.callbackId = some id ∧
      (request.live = true ∨ request.stage = .raised)
  /-- The entry of a request whose `get` has thrown is there until its connection is
  lost. -/
  stranded : ∀ later final (index : Nat) request id,
    run StreamServer.step server later = some final →
    final.requests.length < 2 ^ 64 →
    server.requests[index]? = some request → request.stage = .raised →
    request.callbackId = some id →
    id ∈ server.registry.shared.ids (some request.connection) →
    .connectionEvent request.connection true ∉ later →
    id ∈ final.registry.shared.ids (some request.connection)
  counted : server.streamDisconnects =
    UInt64.ofNat (server.requests.map StreamRequest.disconnects).sum
  emptied : (∀ request ∈ server.requests, request.stage = .ended) →
    ∀ connection, server.registry.shared.callbacks connection = none
  /-- Nobody on a connection is still watched once it has been lost. -/
  loses : ∀ connection next, server.step (.connectionEvent connection true) =
    some next → next.registry.shared.ids (some connection) = []

section Runs

variable {server : StreamServer} {log : List RegistryEvent}

theorem Tends.fate (tends : Tends server log) {index : Nat}
    {request : StreamRequest} (found : server.requests[index]? = some request) :
    request.Fate server := by
  have follows := tends.follows index request found
  have lawful := tends.refines.lawful
  have told := follows.told
  cases tracked : request.callbackId with
  | none =>
      refine .untracked tracked ?_
      rw [told, StreamRequest.runs, tracked]
  | some id =>
      have issued := follows.tracked id tracked
      simp only [StreamRequest.runs, tracked] at told
      have registered :=
        tends.refines.registered (some request.connection) id
      have unheld (absent : .taken (some request.connection) id ∉ log ∨
          .spent (some request.connection) id ∈ log) :
          ∀ event ∈ server.registry.actors,
            event.connection = some request.connection → id ∉ event.ids := by
        intro event member same listed
        obtain ⟨place, at_⟩ := List.getElem?_of_mem member
        have holds := tends.refines.events place event at_
        rw [← same] at absent
        exact absent.elim (· (holds.taken id listed)) (holds.unspent id listed)
      by_cases taken : .taken (some request.connection) id ∈ log
      · have gone : id ∉ server.registry.shared.ids (some request.connection) :=
          fun listed => lawful.not_outstanding_of_taken taken (registered.mp listed)
        by_cases spent : .spent (some request.connection) id ∈ log
        · refine .told tracked gone (unheld (.inr spent)) ?_
          exact told.trans (lawful.count_spent spent)
        · rw [List.count_eq_zero_of_not_mem spent] at told
          rcases tends.accounts.called _ _ taken with again | held
          · exact absurd again spent
          · obtain ⟨place, event, at_, same, listed⟩ := held
            exact .lost tracked gone
              ⟨event, List.mem_of_getElem? at_, same, listed⟩ told
      · have unspent : .spent (some request.connection) id ∉ log :=
          fun spent => taken (lawful.taken_of_spent spent)
        rw [List.count_eq_zero_of_not_mem unspent] at told
        by_cases ended : request.stage = .ended
        · refine .cleared tracked ended ?_ (unheld (.inl taken)) told
          exact fun listed =>
            follows.dropped id tracked ended (registered.mp listed)
        · have outstanding : Outstanding log (some request.connection) id := by
            obtain ⟨before, after, shape⟩ := List.append_of_mem issued
            have kept := follows.kept id tracked ended
            rw [shape] at kept taken
            exact ⟨before, after, shape, fun later => kept (by simp [later]),
              fun later => taken (by simp [later])⟩
          by_cases raised : request.stage = .raised
          · exact .stranded tracked (registered.mpr outstanding) raised told
          · exact .watched tracked (registered.mpr outstanding)
              (by simp [StreamRequest.live, raised, ended]) told

theorem Tends.entry (tends : Tends server log) {connection : TcpConnectionPtr}
    {id : CallbackId} (listed : id ∈ server.registry.shared.ids connection) :
    ∃ request ∈ server.requests, connection = some request.connection ∧
      request.callbackId = some id ∧ request.stage ≠ .ended := by
  have outstanding := (tends.refines.registered connection id).mp listed
  obtain ⟨index, request, found, rfl, tracked⟩ :=
    tends.owned connection id outstanding.issued
  refine ⟨request, List.mem_of_getElem? found, rfl, tracked, fun ended => ?_⟩
  exact (tends.follows index request found).dropped id tracked ended outstanding

/-- A request whose `get` has thrown keeps what it has. -/
theorem Tends.strand {label : StreamLabel} {events : List RegistryEvent}
    {next : StreamServer} {index : Nat} {request : StreamRequest} {id : CallbackId}
    (tends : Tends server log) (stepped : ServerStepped server label events next)
    (found : server.requests[index]? = some request)
    (raised : request.stage = .raised) (tracked : request.callbackId = some id)
    (outstanding : Outstanding log (some request.connection) id)
    (kept : label ≠ .connectionEvent request.connection true) :
    ∃ later, next.requests[index]? = some later ∧ later.stage = .raised ∧
      later.connection = request.connection ∧ later.callbackId = some id ∧
      Outstanding (log ++ events) (some request.connection) id := by
  have elsewhere {other : Nat} {second updated : StreamRequest}
      (at_ : server.requests[other]? = some second)
      (goes : second.stage ≠ .raised) :
      (server.requests.set other updated)[index]? = some request := by
    rw [List.getElem?_set_ne, found]
    rintro rfl
    obtain rfl := Option.some.inj (at_.symm.trans found)
    exact goes raised
  cases stepped with
  | arrived connection =>
      exact ⟨request,
        (List.getElem?_append_left (List.getElem?_eq_some_iff.mp found).1).trans found,
        raised, rfl, tracked, outstanding.append (by simp) (by simp)⟩
  | moved succeeds at_ moves =>
      exact ⟨request, elsewhere at_ moves.goes, raised, rfl, tracked,
        outstanding.append (by simp) (by simp)⟩
  | tracked succeeds at_ stage =>
      exact ⟨request, elsewhere at_ (by simp [stage]), raised, rfl, tracked,
        outstanding.append (by simp) (by simp)⟩
  | @cleared other second callbackId succeeds at_ stage held =>
      refine ⟨request, elsewhere at_ (by simp [stage]), raised, rfl, tracked,
        outstanding.append (fun cleared => ?_) (by simp)⟩
      obtain ⟨-, same⟩ := Event.withdrawn.inj (List.mem_singleton.mp cleared)
      have different : other ≠ index := by
        rintro rfl
        obtain rfl := Option.some.inj (at_.symm.trans found)
        rw [raised] at stage
        cases stage
      exact tends.apart other index second request different at_ found callbackId
        held (same ▸ tracked)
  | ignored connection disconnected =>
      exact ⟨request, found, raised, rfl, tracked,
        outstanding.append (by simp) (by simp)⟩
  | lost connection =>
      refine ⟨request, found, raised, rfl, tracked,
        outstanding.append (by simp) fun taken => ?_⟩
      obtain ⟨_, -, same⟩ := List.mem_map.mp taken
      obtain ⟨same, -⟩ := Event.taken.inj same
      exact kept (Option.some.inj same ▸ rfl)
  | called at_ held _ shape =>
      refine ⟨request.tell events, ?_, raised, rfl, tracked,
        outstanding.append ?_ ?_⟩
      · exact (List.getElem?_map ..).trans (congrArg _ found)
      · rw [shape]
        split
        · simp
        · simp
      · rw [shape]
        split
        · simp
        · simp
  | abandoned connection =>
      exact ⟨request, found, raised, rfl, tracked,
        outstanding.append (by simp) (by simp)⟩

theorem loses_ids {connection : Nat} {next : StreamServer}
    (stepped : server.step (.connectionEvent connection true) = some next) :
    next.registry.shared.ids (some connection) = [] := by
  obtain ⟨registry, asked, executed⟩ := Option.bind_eq_some_iff.mp stepped
  cases executed
  change server.registry.step (.handleConnectionEvent (some connection) true) =
    some registry at asked
  simp only [RegistryState.step] at asked
  split at asked
  · cases asked
    rw [Crew.join, DisconnectRegistry.ids_extract, if_pos rfl]
  · rename_i keeps
    cases asked
    have absent : server.registry.shared.callbacks (some connection) = none := by
      simpa [RegistryState.loses] using keeps
    simp [DisconnectRegistry.ids, DisconnectRegistry.held, absent]

/-- What every step keeps, as long as the ids do not wrap around. -/
def Followed (noted : StreamServer × List RegistryEvent) : Prop :=
  Numbered noted.1.registry noted.2 ∧ (noted.1.requests.length < 2 ^ 64 →
    Tends noted.1 noted.2 ∧ Counted noted.1 noted.2)

theorem Followed.step {noted after : StreamServer × List RegistryEvent}
    {label : StreamLabel} (followed : Followed noted)
    (stepped : noting StreamServer.step StreamServer.record noted label = some after) :
    Followed after := by
  obtain ⟨before, log⟩ := noted
  obtain ⟨next, later⟩ := after
  obtain ⟨numbers, followed⟩ := followed
  obtain ⟨executed, rfl⟩ := noting_eq_some.mp stepped
  have stepped := server_stepped executed
  refine ⟨stepped.numbered numbers, fun few => ?_⟩
  have fewer : before.requests.length < 2 ^ 64 :=
    Nat.lt_of_le_of_lt stepped.length_le few
  obtain ⟨tends, counted⟩ := followed fewer
  have fresh := numbers.fresh (Nat.lt_of_le_of_lt counted.le fewer)
  exact ⟨tends.step fresh stepped, counted.step tends stepped⟩

theorem run_followed {schedule : List StreamLabel}
    (ran : run (noting StreamServer.step StreamServer.record) ({}, []) schedule =
      some (server, log)) : Followed (server, log) := by
  have initially : Followed ({}, []) :=
    ⟨.initially, fun _ => ⟨.initially, rfl⟩⟩
  exact run_invariant Followed.step initially ran

/-- Nothing but the loss of its connection takes the entry of a request away whose
`get` has thrown. -/
theorem run_stranded {later : List StreamLabel} {final : StreamServer}
    {all : List RegistryEvent} {index : Nat} {request : StreamRequest}
    {id : CallbackId} (followed : Followed (server, log))
    (ran : run (noting StreamServer.step StreamServer.record) (server, log) later =
      some (final, all))
    (few : final.requests.length < 2 ^ 64)
    (found : server.requests[index]? = some request)
    (raised : request.stage = .raised) (tracked : request.callbackId = some id)
    (outstanding : Outstanding log (some request.connection) id)
    (kept : .connectionEvent request.connection true ∉ later) :
    ∃ now, final.requests[index]? = some now ∧ now.stage = .raised ∧
      now.connection = request.connection ∧ now.callbackId = some id ∧
      Outstanding all (some request.connection) id := by
  induction later using List.reverseRecOn generalizing final all with
  | nil =>
      cases Option.some.inj ran
      exact ⟨request, found, raised, rfl, tracked, outstanding⟩
  | append_singleton before label ih =>
      obtain ⟨⟨middle, history⟩, earlier, noted⟩ := run_concat.mp ran
      obtain ⟨executed, rfl⟩ := noting_eq_some.mp noted
      have stepped := server_stepped executed
      have fewer : middle.requests.length < 2 ^ 64 :=
        Nat.lt_of_le_of_lt stepped.length_le few
      obtain ⟨now, at_, still, same, holds, open_⟩ := ih earlier fewer fun member =>
        kept (List.mem_append_left [label] member)
      have tends := ((run_invariant Followed.step followed earlier).2 fewer).1
      rw [← same] at open_ kept ⊢
      exact tends.strand stepped at_ still holds open_ fun loses =>
        kept (List.mem_append_right before (loses ▸ List.mem_singleton_self _))

theorem Followed.watches (followed : Followed (server, log))
    (few : server.requests.length < 2 ^ 64) : Watches server := by
  have tends := (followed.2 few).1
  constructor
  · intro request member
    obtain ⟨index, found⟩ := List.getElem?_of_mem member
    exact tends.fate found
  · intro connection id listed
    obtain ⟨request, member, same, tracked, unended⟩ := tends.entry listed
    refine ⟨request, member, same, tracked, ?_⟩
    by_cases raised : request.stage = .raised
    · exact .inr raised
    · exact .inl (by simp [StreamRequest.live, raised, unended])
  · intro later final index request id ran few found raised tracked registered kept
    have noted :=
      @run_noting _ _ _ StreamServer.step StreamServer.record server log later
    rw [ran] at noted
    obtain ⟨⟨_, all⟩, traced, rfl⟩ := Option.map_eq_some_iff.mp noted
    obtain ⟨_, -, -, -, -, outstanding⟩ := run_stranded followed traced few found
      raised tracked ((tends.refines.registered _ _).mp registered) kept
    have after := ((run_invariant Followed.step followed traced).2 few).1
    exact (after.refines.registered _ _).mpr outstanding
  · exact tends.counted
  · intro ended connection
    refine tends.refines.pruned.empty (List.eq_nil_iff_forall_not_mem.mpr ?_)
    intro id listed
    obtain ⟨request, member, _, _, live⟩ := tends.entry listed
    exact live (ended request member)
  · exact fun _ _ stepped => loses_ids stepped

/-- In whatever order requests stream, fail to start and end, and connections are lost
or let go: a callback is registered while its request goes on and its connection has not
been lost, it runs at most once, and no entry outlives its request but one whose `get`
has thrown, which is there until its connection is lost. -/
theorem streams_watched {schedule : List StreamLabel}
    (ran : run StreamServer.step {} schedule = some server)
    (few : server.requests.length < 2 ^ 64) : Watches server := by
  have noted :=
    @run_noting _ _ _ StreamServer.step StreamServer.record {} [] schedule
  rw [ran] at noted
  obtain ⟨⟨_, log⟩, traced, rfl⟩ := Option.map_eq_some_iff.mp noted
  exact (run_followed traced).watches few

end Runs

/-- Two requests on one connection, of which the first ends before the connection is lost
and its owners let it go, and a third whose connection cannot be locked. -/
def streamSample : List StreamLabel :=
  [.arrive 0, .arrive 0, .arrive 1, .abandon 1, .advance 2 true,
    .advance 0 true, .advance 0 true, .advance 1 true, .advance 1 true,
    .advance 0 true, .advance 0 true, .advance 0 true, .advance 0 true,
    .connectionEvent 0 true, .abandon 0, .call 0 0, .advance 1 true,
    .advance 1 true, .advance 1 true]

theorem streams_watched_sample :
    ∃ server, run StreamServer.step {} streamSample = some server ∧
      server.requests.map StreamRequest.disconnects = [0, 1, 0] ∧
      Watches server :=
  ⟨_, rfl, rfl, @streams_watched _ streamSample rfl (by decide)⟩

end ZooKeeperServer.Http
