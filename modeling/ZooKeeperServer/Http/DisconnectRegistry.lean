import ZooKeeperServer.Http.Handler
import ZooKeeperServer.Transition.Crew
import ZooKeeperServer.Transition.OneShot

namespace ZooKeeperServer.Http

open Transition OneShot

/-! `DisconnectRegistry`: callbacks that run when a connection is lost, and the calls
of its functions in any order.  What a call does under the mutex is one step, and each
callback that runs outside of it another. -/

/-- `trantor::TcpConnectionPtr`, which may be null. -/
abbrev TcpConnectionPtr := Option Nat

abbrev CallbackId := UInt64

structure DisconnectRegistry where
  nextCallbackId : CallbackId := 1
  callbacks : TcpConnectionPtr → Option (List (CallbackId × StdFunction)) :=
    fun _ => none

namespace DisconnectRegistry

def held (registry : DisconnectRegistry) (connection : TcpConnectionPtr) :
    List (CallbackId × StdFunction) :=
  (registry.callbacks connection).getD []

/-- `emplace` leaves an entry that is there. -/
def track (registry : DisconnectRegistry) (connection : TcpConnectionPtr)
    (onDisconnect : StdFunction) : DisconnectRegistry :=
  let callbackId := registry.nextCallbackId
  let held := registry.held connection
  let emplaced :=
    if held.any fun entry => entry.1 = callbackId then held
    else held ++ [(callbackId, onDisconnect)]
  { nextCallbackId := callbackId + 1
    callbacks := Function.update registry.callbacks connection (some emplaced) }

def clear (registry : DisconnectRegistry) (connection : TcpConnectionPtr)
    (callbackId : CallbackId) : DisconnectRegistry :=
  match registry.callbacks connection with
  | none => registry
  | some held =>
      let held := held.filter fun entry => entry.1 ≠ callbackId
      { registry with
        callbacks := Function.update registry.callbacks connection
          (if held.isEmpty then none else some held) }

/-- The section of `handle_connection_event` under the mutex. -/
def extract (registry : DisconnectRegistry) (connection : TcpConnectionPtr) :
    DisconnectRegistry :=
  { registry with
    callbacks := Function.update registry.callbacks connection none }

end DisconnectRegistry

/-- A `handle_connection_event` with the callbacks it has moved out and not run. -/
structure ConnectionEvent where
  connection : TcpConnectionPtr
  callbacks : List (CallbackId × StdFunction)

inductive RegistryLabel
  | track (connection : TcpConnectionPtr) (onDisconnect : StdFunction)
  | clear (connection : TcpConnectionPtr) (callbackId : CallbackId)
  | handleConnectionEvent (connection : TcpConnectionPtr) (disconnected : Bool)
  /-- The event calls one of its callbacks, in an order that is not specified. -/
  | call (index position : Nat)

abbrev RegistryState := Crew DisconnectRegistry ConnectionEvent

abbrev RegistryEvent := OneShot.Event TcpConnectionPtr CallbackId

def ConnectionEvent.call (registry : DisconnectRegistry)
    (event : ConnectionEvent) (position : Nat) :
    Option (DisconnectRegistry × ConnectionEvent) :=
  if position < event.callbacks.length then
    some (registry,
      { event with callbacks := event.callbacks.eraseIdx position })
  else none

namespace RegistryState

def start : RegistryState :=
  ⟨{}, []⟩

def loses (state : RegistryState) (connection : TcpConnectionPtr)
    (disconnected : Bool) : Bool :=
  connection.isSome && disconnected &&
    (state.shared.callbacks connection).isSome

def step (state : RegistryState) : RegistryLabel → Option RegistryState
  | .track connection onDisconnect =>
      some ⟨state.shared.track connection onDisconnect, state.actors⟩
  | .clear connection callbackId =>
      some ⟨state.shared.clear connection callbackId, state.actors⟩
  | .handleConnectionEvent connection disconnected =>
      if state.loses connection disconnected then
        some (state.join (state.shared.extract connection)
          ⟨connection, state.shared.held connection⟩)
      else some state
  | .call index position => state.turn ConnectionEvent.call index position

/-- The callback that the event calls; an empty function is not called. -/
def called (state : RegistryState) (index position : Nat) :
    List RegistryEvent :=
  match state.actors[index]? with
  | none => []
  | some event =>
      match event.callbacks[position]? with
      | none => []
      | some (callbackId, callback) =>
          if callback.engaged then [.spent event.connection callbackId] else []

def events (state : RegistryState) : RegistryLabel → List RegistryEvent
  | .track connection _ => [.issued connection state.shared.nextCallbackId]
  | .clear connection callbackId => [.withdrawn connection callbackId]
  | .handleConnectionEvent connection disconnected =>
      if state.loses connection disconnected then
        (state.shared.held connection).map fun entry =>
          .taken connection entry.1
      else []
  | .call index position => state.called index position

def record (state : RegistryState) (label : RegistryLabel)
    (log : List RegistryEvent) : List RegistryEvent :=
  log ++ state.events label

end RegistryState

namespace DisconnectRegistry

variable {registry : DisconnectRegistry} {connection other : TcpConnectionPtr}
  {callbackId : CallbackId} {callback : StdFunction}

def ids (registry : DisconnectRegistry) (connection : TcpConnectionPtr) :
    List CallbackId :=
  (registry.held connection).map Prod.fst

def Pruned (registry : DisconnectRegistry) : Prop :=
  ∀ connection, registry.callbacks connection ≠ some []

theorem Pruned.empty (pruned : registry.Pruned)
    (none_ : registry.ids connection = []) :
    registry.callbacks connection = none := by
  cases found : registry.callbacks connection with
  | none => rfl
  | some held =>
      have nothing : held = [] := by simpa [ids, DisconnectRegistry.held, found]
        using none_
      exact absurd (nothing ▸ found) (pruned connection)

theorem held_track (fresh : registry.nextCallbackId ∉ registry.ids connection) :
    (registry.track connection callback).held other =
      if other = connection then
        registry.held connection ++ [(registry.nextCallbackId, callback)]
      else registry.held other := by
  have absent : ¬ ((registry.held connection).any fun entry =>
      entry.1 = registry.nextCallbackId) = true := by
    rw [List.any_eq_true]
    rintro ⟨entry, listed, same⟩
    exact fresh (List.mem_map.mpr ⟨entry, listed, of_decide_eq_true same⟩)
  simp only [track, if_neg absent]
  by_cases same : other = connection
  · subst same
    simp [held]
  · simp [held, same]

theorem held_clear :
    (registry.clear connection callbackId).held other =
      if other = connection then
        (registry.held connection).filter fun entry => entry.1 ≠ callbackId
      else registry.held other := by
  unfold clear
  cases found : registry.callbacks connection with
  | none =>
      by_cases same : other = connection
      · subst same
        simp [held, found]
      · simp [same]
  | some entries =>
      by_cases same : other = connection
      · subst same
        simp only [held, found, Function.update_self, Option.getD_some, if_true]
        split
        · rename_i nothing
          simpa using nothing
        · rfl
      · simp [held, same]

theorem held_extract :
    (registry.extract connection).held other =
      if other = connection then [] else registry.held other := by
  by_cases same : other = connection
  · subst same
    simp [extract, held]
  · simp [extract, held, same]

theorem ids_track (absent : registry.nextCallbackId ∉ registry.ids connection) :
    (registry.track connection callback).ids other =
      if other = connection then
        registry.ids connection ++ [registry.nextCallbackId]
      else registry.ids other := by
  rw [ids, held_track absent]
  split
  · simp [ids]
  · rfl

theorem ids_clear :
    (registry.clear connection callbackId).ids other =
      if other = connection then
        (registry.ids connection).filter (· ≠ callbackId)
      else registry.ids other := by
  rw [ids, held_clear]
  split
  · simp [ids, List.filter_map, Function.comp_def]
  · rfl

theorem ids_extract :
    (registry.extract connection).ids other =
      if other = connection then [] else registry.ids other := by
  rw [ids, held_extract]
  split
  · rfl
  · rfl

theorem Pruned.track (pruned : registry.Pruned) :
    (registry.track connection callback).Pruned := by
  intro other
  by_cases same : other = connection
  · subst same
    simp only [DisconnectRegistry.track, Function.update_self]
    split
    · rename_i found
      intro nothing
      rw [Option.some.inj nothing] at found
      simp at found
    · simp
  · simpa [DisconnectRegistry.track, same] using pruned other

theorem Pruned.clear (pruned : registry.Pruned) :
    (registry.clear connection callbackId).Pruned := by
  intro other
  unfold DisconnectRegistry.clear
  cases found : registry.callbacks connection with
  | none => exact pruned other
  | some entries =>
      by_cases same : other = connection
      · subst same
        simp only [Function.update_self]
        split
        · simp
        · rename_i filled
          simpa using filled
      · simpa [same] using pruned other

theorem Pruned.extract (pruned : registry.Pruned) :
    (registry.extract connection).Pruned := by
  intro other
  by_cases same : other = connection
  · subst same
    simp [DisconnectRegistry.extract]
  · simpa [DisconnectRegistry.extract, same] using pruned other

end DisconnectRegistry

def numbered (count : Nat) : List CallbackId :=
  (List.range count).map fun earlier => UInt64.ofNat (earlier + 1)

theorem nodup_numbered {count : Nat} (few : count ≤ 2 ^ 64) :
    (numbered count).Nodup := by
  refine List.Nodup.map_on ?_ List.nodup_range
  intro first listed second also same
  rw [List.mem_range] at listed also
  have values := congrArg UInt64.toNat same
  simp only [UInt64.toNat_ofNat'] at values
  omega

def ConnectionEvent.ids (event : ConnectionEvent) : List CallbackId :=
  event.callbacks.map Prod.fst

/-- What an event has still to call has been taken for it. -/
structure ConnectionEvent.Holds (log : List RegistryEvent)
    (event : ConnectionEvent) : Prop where
  distinct : event.ids.Nodup
  taken : ∀ id ∈ event.ids, .taken event.connection id ∈ log
  unspent : ∀ id ∈ event.ids, .spent event.connection id ∉ log

def ConnectionEvent.Apart (first second : ConnectionEvent) : Prop :=
  first.connection = second.connection → ∀ id ∈ first.ids, id ∉ second.ids

structure Numbered (state : RegistryState) (log : List RegistryEvent) :
    Prop where
  issued : issuedKeys log = numbered (issuedKeys log).length
  next : state.shared.nextCallbackId =
    UInt64.ofNat ((issuedKeys log).length + 1)

structure Refines (state : RegistryState) (log : List RegistryEvent) :
    Prop where
  lawful : Lawful log
  registered : ∀ connection id,
    id ∈ state.shared.ids connection ↔ Outstanding log connection id
  distinct : ∀ connection, (state.shared.ids connection).Nodup
  pruned : state.shared.Pruned
  events : ∀ (index : Nat) event, state.actors[index]? = some event →
    event.Holds log
  apart : ∀ (index other : Nat) first second, index ≠ other →
    state.actors[index]? = some first → state.actors[other]? = some second →
      first.Apart second

section Steps

variable {state next : RegistryState} {label : RegistryLabel}
  {log events : List RegistryEvent}

inductive Stepped (state : RegistryState) :
    RegistryLabel → List RegistryEvent → RegistryState → Prop
  | tracked (connection : TcpConnectionPtr) (onDisconnect : StdFunction) :
      Stepped state (.track connection onDisconnect)
        [.issued connection state.shared.nextCallbackId]
        ⟨state.shared.track connection onDisconnect, state.actors⟩
  | cleared (connection : TcpConnectionPtr) (callbackId : CallbackId) :
      Stepped state (.clear connection callbackId)
        [.withdrawn connection callbackId]
        ⟨state.shared.clear connection callbackId, state.actors⟩
  | ignored (connection : TcpConnectionPtr) (disconnected : Bool) :
      Stepped state (.handleConnectionEvent connection disconnected) [] state
  | lost (connection : TcpConnectionPtr) (disconnected : Bool) :
      Stepped state (.handleConnectionEvent connection disconnected)
        ((state.shared.ids connection).map (Event.taken connection))
        (state.join (state.shared.extract connection)
          ⟨connection, state.shared.held connection⟩)
  | called {index position : Nat} {event : ConnectionEvent}
      {callbackId : CallbackId}
      (found : state.actors[index]? = some event)
      (held : event.ids[position]? = some callbackId) (engaged : Bool) :
      Stepped state (.call index position)
        (if engaged then [.spent event.connection callbackId] else [])
        ⟨state.shared, state.actors.set index
          { event with callbacks := event.callbacks.eraseIdx position }⟩

theorem step_stepped (stepped : state.step label = some next) :
    Stepped state label (state.events label) next := by
  cases label with
  | track connection onDisconnect =>
      exact Option.some.inj stepped ▸ .tracked connection onDisconnect
  | clear connection callbackId =>
      exact Option.some.inj stepped ▸ .cleared connection callbackId
  | handleConnectionEvent connection disconnected =>
      simp only [RegistryState.step, RegistryState.events] at stepped ⊢
      split at stepped
      · rename_i loses
        rw [if_pos loses, ← Option.some.inj stepped]
        have listed : ((state.shared.held connection).map fun entry =>
            Event.taken connection entry.1) =
            (state.shared.ids connection).map (Event.taken connection) := by
          simp [DisconnectRegistry.ids]
        rw [listed]
        exact .lost connection disconnected
      · rename_i keeps
        rw [if_neg keeps, ← Option.some.inj stepped]
        exact .ignored connection disconnected
  | call index position =>
      obtain ⟨event, shared, updated, found, acted, rfl⟩ :=
        Crew.turn_eq_some stepped
      simp only [ConnectionEvent.call] at acted
      split at acted
      · rename_i inside
        cases acted
        have entry := List.getElem?_eq_getElem inside
        have held : event.ids[position]? =
            some event.callbacks[position].1 := by
          simp [ConnectionEvent.ids, entry]
        have logged : state.events (.call index position) =
            if event.callbacks[position].2.engaged then
              [.spent event.connection event.callbacks[position].1] else [] := by
          simp [RegistryState.events, RegistryState.called, found, entry]
        rw [logged]
        exact .called found held _
      · contradiction

theorem issuedKeys_append :
    issuedKeys (log ++ events) = issuedKeys log ++ issuedKeys events := by
  simp [issuedKeys]

theorem Numbered.initially : Numbered .start [] :=
  ⟨rfl, rfl⟩

theorem numbered_succ (count : Nat) :
    numbered (count + 1) = numbered count ++ [UInt64.ofNat (count + 1)] := by
  simp [numbered, List.range_succ]

theorem Numbered.step (numbers : Numbered state log)
    (stepped : Stepped state label events next) :
    Numbered next (log ++ events) := by
  have quiet (none_ : issuedKeys events = [])
      (same : next.shared.nextCallbackId = state.shared.nextCallbackId) :
      Numbered next (log ++ events) := by
    constructor
    · rw [issuedKeys_append, none_, List.append_nil]
      exact numbers.issued
    · rw [issuedKeys_append, none_, List.append_nil, same]
      exact numbers.next
  cases stepped with
  | tracked connection onDisconnect =>
      have grown : issuedKeys
          (log ++ [.issued connection state.shared.nextCallbackId]) =
          issuedKeys log ++ [state.shared.nextCallbackId] := by
        simp [Event.issuedKey]
      constructor
      · rw [grown, List.length_append, List.length_singleton, numbered_succ,
          ← numbers.next, ← numbers.issued]
      · rw [grown, List.length_append, List.length_singleton, UInt64.ofNat_add,
          ← numbers.next]
        rfl
  | cleared connection callbackId =>
      refine quiet rfl ?_
      simp only [DisconnectRegistry.clear]
      split
      · rfl
      · rfl
  | ignored connection disconnected => exact quiet rfl rfl
  | lost connection disconnected =>
      refine quiet ?_ rfl
      simp [issuedKeys, Event.issuedKey]
  | called found held engaged =>
      refine quiet ?_ rfl
      cases engaged with
      | false => rfl
      | true => rfl

theorem ConnectionEvent.Holds.append {event : ConnectionEvent}
    (holds : event.Holds log)
    (quiet : ∀ id ∈ event.ids, .spent event.connection id ∉ events) :
    event.Holds (log ++ events) where
  distinct := holds.distinct
  taken := fun id listed => List.mem_append_left _ (holds.taken id listed)
  unspent := fun id listed spent =>
    (List.mem_append.mp spent).elim (holds.unspent id listed) (quiet id listed)

theorem not_mem_eraseIdx {α : Type} {items : List α} {position : Nat} {item : α}
    (distinct : items.Nodup) (held : items[position]? = some item) :
    item ∉ items.eraseIdx position := by
  rw [List.mem_eraseIdx_iff_getElem?]
  rintro ⟨other, different, again⟩
  have inside : position < items.length := (List.getElem?_eq_some_iff.mp held).1
  have same := (List.getElem?_inj inside distinct).mp (held.trans again.symm)
  exact different same.symm

theorem ConnectionEvent.ids_eraseIdx (event : ConnectionEvent)
    (position : Nat) :
    ConnectionEvent.ids
        { event with callbacks := event.callbacks.eraseIdx position } =
      event.ids.eraseIdx position := by
  simp [ConnectionEvent.ids, List.eraseIdx_eq_take_drop_succ]

theorem Refines.initially : Refines .start [] where
  lawful := .nil
  registered := by
    intro connection id
    simp [RegistryState.start, DisconnectRegistry.ids, DisconnectRegistry.held,
      not_outstanding_nil]
  distinct := by
    intro connection
    simp [RegistryState.start, DisconnectRegistry.ids, DisconnectRegistry.held]
  pruned := by simp [RegistryState.start, DisconnectRegistry.Pruned]
  events := by simp [RegistryState.start]
  apart := by simp [RegistryState.start]

theorem Numbered.fresh (numbers : Numbered state log)
    (few : (issuedKeys log).length + 1 ≤ 2 ^ 64) :
    state.shared.nextCallbackId ∉ issuedKeys log := by
  have distinct := nodup_numbered few
  rw [numbered_succ, ← numbers.next, ← numbers.issued] at distinct
  intro again
  have apart := (List.nodup_append.mp distinct).2.2 _ again
    _ (List.mem_singleton_self _)
  exact apart rfl

theorem Refines.track (refines : Refines state log)
    (connection : TcpConnectionPtr) (onDisconnect : StdFunction)
    (fresh : state.shared.nextCallbackId ∉ issuedKeys log) :
    Refines ⟨state.shared.track connection onDisconnect, state.actors⟩
      (log ++ [.issued connection state.shared.nextCallbackId]) := by
  have absent : state.shared.nextCallbackId ∉ state.shared.ids connection :=
    fun listed => fresh (mem_issuedKeys.mpr
      ⟨connection, ((refines.registered connection _).mp listed).issued⟩)
  constructor
  · exact refines.lawful.issued connection fresh
  · intro other id
    rw [DisconnectRegistry.ids_track absent, outstanding_concat,
      ← refines.registered]
    split
    · rename_i same
      subst same
      simp [or_comm, eq_comm]
    · rename_i different
      simp [Ne.symm different]
  · intro other
    rw [DisconnectRegistry.ids_track absent]
    split
    · simpa using List.Nodup.concat absent (refines.distinct connection)
    · exact refines.distinct other
  · exact refines.pruned.track
  · intro index event found
    exact (refines.events index event found).append (by simp)
  · exact refines.apart

theorem Refines.clear (refines : Refines state log)
    (connection : TcpConnectionPtr) (callbackId : CallbackId) :
    Refines ⟨state.shared.clear connection callbackId, state.actors⟩
      (log ++ [.withdrawn connection callbackId]) := by
  constructor
  · exact refines.lawful.withdrawn connection callbackId
  · intro other id
    rw [DisconnectRegistry.ids_clear, outstanding_concat, ← refines.registered]
    split
    · rename_i same
      subst same
      simp only [List.mem_filter, decide_eq_true_eq, reduceCtorEq, false_or, ne_eq,
        not_false_eq_true, and_true, Event.withdrawn.injEq, true_and,
        eq_comm (a := id)]
    · rename_i different
      simp [Ne.symm different]
  · intro other
    rw [DisconnectRegistry.ids_clear]
    split
    · exact (refines.distinct connection).filter _
    · exact refines.distinct other
  · exact refines.pruned.clear
  · intro index event found
    exact (refines.events index event found).append (by simp)
  · exact refines.apart

theorem Refines.lose (refines : Refines state log)
    (connection : TcpConnectionPtr) :
    Refines (state.join (state.shared.extract connection)
        ⟨connection, state.shared.held connection⟩)
      (log ++ (state.shared.ids connection).map (Event.taken connection)) := by
  have untaken {id : CallbackId} (listed : id ∈ state.shared.ids connection) :
      .taken connection id ∉ log := fun taken =>
    refines.lawful.not_outstanding_of_taken taken
      ((refines.registered connection id).mp listed)
  constructor
  · exact refines.lawful.taken_all
      (fun id listed => (refines.registered connection id).mp listed)
      (refines.distinct connection)
  · intro other id
    rw [Crew.join, DisconnectRegistry.ids_extract, outstanding_taken_all,
      ← refines.registered]
    split
    · rename_i same
      subst same
      simp
    · rename_i different
      simp [different]
  · intro other
    rw [Crew.join, DisconnectRegistry.ids_extract]
    split
    · exact List.nodup_nil
    · exact refines.distinct other
  · exact refines.pruned.extract
  · intro index event found
    rcases Crew.getElem?_join_origin found with before | ⟨_, rfl⟩
    · exact (refines.events index event before).append (by simp)
    · constructor
      · exact refines.distinct connection
      · intro id listed
        exact List.mem_append_right _ (List.mem_map_of_mem listed)
      · intro id listed spent
        rcases List.mem_append.mp spent with earlier | now
        · exact untaken listed (refines.lawful.taken_of_spent earlier)
        · simp at now
  · refine Crew.between_join ?_ ?_ refines.apart
    · intro other second found same id listed again
      have taken := (refines.events other second found).taken id again
      rw [← same] at taken
      exact untaken listed taken
    · intro other first found same id listed again
      have taken := (refines.events other first found).taken id listed
      rw [same] at taken
      exact untaken again taken

theorem Refines.call {index position : Nat} {event : ConnectionEvent}
    {callbackId : CallbackId} (refines : Refines state log)
    (found : state.actors[index]? = some event)
    (held : event.ids[position]? = some callbackId) (engaged : Bool) :
    Refines ⟨state.shared, state.actors.set index
        { event with callbacks := event.callbacks.eraseIdx position }⟩
      (log ++ if engaged then [.spent event.connection callbackId] else []) := by
  have own := refines.events index event found
  have listed : callbackId ∈ event.ids := List.mem_of_getElem? held
  have gone := not_mem_eraseIdx own.distinct held
  have fewer {id : CallbackId} (rest : id ∈ event.ids.eraseIdx position) :
      id ∈ event.ids :=
    (List.eraseIdx_sublist _ _).mem rest
  have others {id : CallbackId} {connection : TcpConnectionPtr}
      (different : connection = event.connection → id ≠ callbackId) :
      Event.spent connection id ∉
        if engaged then [.spent event.connection callbackId] else [] := by
    cases engaged with
    | false => simp
    | true =>
        simp only [if_true, List.mem_singleton, Event.spent.injEq, not_and]
        exact different
  constructor
  · cases engaged with
    | false => simpa using refines.lawful
    | true =>
        exact refines.lawful.spent (own.taken callbackId listed)
          (own.unspent callbackId listed)
  · intro connection id
    cases engaged with
    | false => simpa using refines.registered connection id
    | true =>
        rw [if_pos rfl, outstanding_concat, ← refines.registered]
        simp
  · exact refines.distinct
  · exact refines.pruned
  · intro other held_ at_
    rcases Crew.getElem?_set_origin at_ with ⟨_, rfl⟩ | ⟨different, before⟩
    · constructor
      · rw [ConnectionEvent.ids_eraseIdx]
        exact own.distinct.sublist (List.eraseIdx_sublist _ _)
      · intro id rest
        rw [ConnectionEvent.ids_eraseIdx] at rest
        exact List.mem_append_left _ (own.taken id (fewer rest))
      · intro id rest spent
        rw [ConnectionEvent.ids_eraseIdx] at rest
        rcases List.mem_append.mp spent with earlier | now
        · exact own.unspent id (fewer rest) earlier
        · exact others (fun _ same => gone (same ▸ rest)) now
    · refine (refines.events other held_ before).append fun id rest => ?_
      refine others fun sameConnection same => ?_
      exact refines.apart index other event held_ different found before
        sameConnection.symm callbackId listed (same ▸ rest)
  · refine Crew.between_set ?_ ?_
      fun one two first second _ _ => refines.apart one two first second
    · intro other second different at_ same id rest
      rw [ConnectionEvent.ids_eraseIdx] at rest
      exact refines.apart index other event second (Ne.symm different) found at_
        same id (fewer rest)
    · intro other first different at_ same id rest again
      rw [ConnectionEvent.ids_eraseIdx] at again
      exact refines.apart other index first event different at_ found same id rest
        (fewer again)

/-- One step of the code is one step, or several, of a lawful history. -/
theorem Refines.step (refines : Refines state log)
    (numbers : Numbered state log)
    (few : (issuedKeys (log ++ events)).length ≤ 2 ^ 64)
    (stepped : Stepped state label events next) :
    Refines next (log ++ events) := by
  cases stepped with
  | tracked connection onDisconnect =>
      have bound : (issuedKeys log).length + 1 ≤ 2 ^ 64 := by
        simpa [Event.issuedKey] using few
      exact refines.track connection onDisconnect (numbers.fresh bound)
  | cleared connection callbackId => exact refines.clear connection callbackId
  | ignored connection disconnected => simpa using refines
  | lost connection disconnected => exact refines.lose connection
  | called found held engaged => exact refines.call found held engaged

end Steps

/-- What a step cannot do to the callbacks of other requests. -/
structure Isolated (state : RegistryState) (label : RegistryLabel)
    (next : RegistryState) : Prop where
  clears : ∀ connection callbackId, label = .clear connection callbackId →
    ∀ other entry, entry ∈ next.shared.held other ↔
      entry ∈ state.shared.held other ∧
        ¬ (other = connection ∧ entry.1 = callbackId)
  loses : ∀ connection disconnected,
    label = .handleConnectionEvent connection disconnected →
      ∀ other, other ≠ connection →
        next.shared.held other = state.shared.held other
  calls : ∀ connection callbackId,
    .spent connection callbackId ∈ state.events label →
      ∃ index position event, label = .call index position ∧
        state.actors[index]? = some event ∧ event.connection = connection ∧
        callbackId ∈ event.ids

section Runs

variable {schedule : List RegistryLabel} {final : RegistryState}
  {log : List RegistryEvent}

theorem step_isolated {state next : RegistryState} {label : RegistryLabel}
    (stepped : state.step label = some next) : Isolated state label next := by
  have shape := step_stepped stepped
  constructor
  · rintro connection callbackId rfl other entry
    cases shape with
    | cleared =>
        rw [DisconnectRegistry.held_clear]
        split
        · rename_i same
          subst same
          simp
        · rename_i different
          simp [different]
  · rintro connection disconnected rfl other different
    generalize state.events _ = events at shape
    cases shape with
    | ignored => rfl
    | lost =>
        rw [Crew.join, DisconnectRegistry.held_extract, if_neg different]
  · intro connection callbackId spent
    generalize state.events label = events at shape spent
    cases shape with
    | tracked => simp at spent
    | cleared => simp at spent
    | ignored => simp at spent
    | lost => simp at spent
    | called found held engaged =>
        cases engaged with
        | false => simp at spent
        | true =>
            cases List.mem_singleton.mp spent
            exact ⟨_, _, _, rfl, found, rfl, List.mem_of_getElem? held⟩

/-- What every step keeps, as long as the ids do not wrap around. -/
def Kept (noted : RegistryState × List RegistryEvent) : Prop :=
  Numbered noted.1 noted.2 ∧
    ((issuedKeys noted.2).length ≤ 2 ^ 64 → Refines noted.1 noted.2)

theorem run_kept
    (ran : run (noting RegistryState.step RegistryState.record)
      (.start, []) schedule = some (final, log)) : Kept (final, log) := by
  refine run_invariant ?_ ⟨.initially, fun _ => .initially⟩ ran
  rintro ⟨state, log⟩ label ⟨next, after⟩ ⟨numbers, refines⟩ noted
  obtain ⟨executed, rfl⟩ := noting_eq_some.mp noted
  have stepped := step_stepped executed
  refine ⟨numbers.step stepped, fun few => ?_⟩
  have before : (issuedKeys log).length ≤ 2 ^ 64 := by
    have total := few
    simp only [RegistryState.record, issuedKeys_append, List.length_append]
      at total
    omega
  exact (refines before).step numbers few stepped

/-- Callbacks run at most once, for their own connection, and the registry holds what
is outstanding and nothing else, up to 2^64 calls of `track`. -/
theorem callbacks_run_once
    (ran : run (noting RegistryState.step RegistryState.record)
      (.start, []) schedule = some (final, log))
    (few : (issuedKeys log).length ≤ 2 ^ 64) :
    Proper log ∧
      (∀ connection callbackId, callbackId ∈ final.shared.ids connection ↔
        Outstanding log connection callbackId) ∧
      (∀ label next, final.step label = some next →
        Isolated final label next) ∧
      ((∀ connection callbackId, .issued connection callbackId ∈ log →
          ¬ Outstanding log connection callbackId) →
        ∀ connection, final.shared.callbacks connection = none) := by
  have refines := (run_kept ran).2 few
  refine ⟨refines.lawful.proper, refines.registered,
    fun label next stepped => step_isolated stepped, fun gone connection => ?_⟩
  refine refines.pruned.empty (List.eq_nil_iff_forall_not_mem.mpr ?_)
  intro callbackId listed
  have outstanding := (refines.registered connection callbackId).mp listed
  exact gone connection callbackId outstanding.issued outstanding

end Runs

/-- Two streams on one connection, the first of which ends before the connection is
lost, and a third on another. -/
def disconnectSample : List RegistryLabel :=
  [.track (some 0) {}, .track (some 0) {}, .track (some 1) {}, .clear (some 0) 1,
    .handleConnectionEvent (some 0) true, .call 0 0]

theorem callbacks_run_once_sample :
    ∃ final log, run (noting RegistryState.step RegistryState.record)
        (.start, []) disconnectSample = some (final, log) ∧ Proper log ∧
      spentKeys log = [2] ∧ final.shared.ids (some 1) = [3] :=
  ⟨_, _, rfl, (@callbacks_run_once disconnectSample _ _ rfl (by decide)).1, rfl,
    rfl⟩

theorem run_tracks (state : RegistryState) (log : List RegistryEvent)
    (connection : TcpConnectionPtr) (count : Nat) :
    ∃ final after, run (noting RegistryState.step RegistryState.record)
        (state, log) (List.replicate count (.track connection {})) =
          some (final, after) ∧
      (issuedKeys after).length = (issuedKeys log).length + count := by
  induction count generalizing state log with
  | zero => exact ⟨state, log, rfl, rfl⟩
  | succ count ih =>
      obtain ⟨final, after, ran, length⟩ := ih
        ⟨state.shared.track connection {}, state.actors⟩
        (log ++ [.issued connection state.shared.nextCallbackId])
      refine ⟨final, after, run_cons.mpr ⟨_, rfl, ran⟩, ?_⟩
      rw [length]
      simp [Event.issuedKey]
      omega

theorem not_nodup_numbered {count : Nat} (many : 2 ^ 64 < count) :
    ¬ (numbered count).Nodup := by
  intro distinct
  have first : 0 ∈ List.range count := List.mem_range.mpr (by omega)
  have again : 2 ^ 64 ∈ List.range count := List.mem_range.mpr many
  have same := List.inj_on_of_nodup_map distinct first again (by decide)
  contradiction

/-- 2^64 calls of `track` later, an id is handed out again. -/
theorem ids_repeat :
    ∃ schedule final log,
      run (noting RegistryState.step RegistryState.record) (.start, [])
        schedule = some (final, log) ∧ ¬ (issuedKeys log).Nodup := by
  obtain ⟨final, log, ran, length⟩ :=
    run_tracks .start [] (some 0) (2 ^ 64 + 1)
  refine ⟨_, final, log, ran, ?_⟩
  have issued : issuedKeys log = numbered (issuedKeys log).length :=
    (run_kept ran).1.issued
  rw [issued, length]
  apply not_nodup_numbered
  change 2 ^ 64 < 0 + (2 ^ 64 + 1)
  omega

end ZooKeeperServer.Http
