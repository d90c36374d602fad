import ZooKeeperServer.SessionStore.FreeCallers
import ZooKeeperServer.SessionStore.Turns

namespace ZooKeeperServer.SessionStore

open Transition

/-! The representation of the store: how many sessions the map holds, which ids they
get, what their dates say, and what becomes of an id that is no longer in the map. -/

def Event.creates : Event → Option SessionPtr
  | .created ptr _ _ => some ptr
  | _ => none

def issued (system : System) : List StdString :=
  (system.log.filterMap Event.creates).filterMap fun ptr =>
    (system.store.heap[ptr]?).map SessionState.id

section Rooms

variable {settings : Settings} {readings : Readings} {store : Store}
  {current : Section} {outcome : Outcome}

theorem erase_length (sessions : SessionMap) (sessionId : StdString) :
    (sessions.erase sessionId).entries.length ≤ sessions.entries.length :=
  (List.kerase_sublist sessionId sessions.entries).length_le

theorem reapEntry_length (now : Int) (store : Store) (entry : SessionEntry) :
    (reapEntry now store entry).sessions.entries.length ≤
      store.sessions.entries.length := by
  unfold reapEntry
  split
  · exact le_rfl
  · split
    · exact erase_length store.sessions entry.1
    · exact le_rfl

theorem emplaceSession_length (settings : Settings) (now : Int)
    (request : SessionCreateRequest) (store : Store) :
    (emplaceSession settings now request store).sessions.entries.length ≤
      store.sessions.entries.length + 1 := by
  unfold emplaceSession
  dsimp only
  split
  · exact Nat.le_succ _
  · exact Nat.succ_le_succ (erase_length store.sessions _)

theorem exec_room
    (executed : current.exec settings readings store = some outcome)
    (room : store.sessions.entries.length ≤ settings.config.maxSessions) :
    outcome.store.sessions.entries.length ≤ settings.config.maxSessions := by
  cases current with
  | enter call =>
      cases enterCall_entered executed with
      | erases free found => exact (erase_length _ _).trans room
      | stops free running => exact Nat.zero_le _
      | _ => exact room
  | reaping now rest after =>
      cases rest with
      | nil =>
          cases leaveReaping_left executed with
          | @creates request space =>
              refine (emplaceSession_length settings now request _).trans ?_
              have below := of_decide_eq_false space
              exact Nat.lt_of_not_le below
          | _ => exact room
      | cons entry rest =>
          obtain ⟨session, found, rfl⟩ := Option.map_eq_some_iff.mp executed
          exact (reapEntry_length now store entry).trans room
  | closeStopped rest =>
      cases rest with
      | nil =>
          cases Option.some.inj executed
          exact room
      | cons ptr rest =>
          obtain ⟨session, found, rfl⟩ := Option.map_eq_some_iff.mp executed
          exact room
  | _ =>
      obtain ⟨session, found, rfl⟩ := Option.map_eq_some_iff.mp executed
      exact room

theorem Effect.made {next : Store} {progress : Progress}
    {log events : List Event}
    (effect : Effect settings store current next progress events)
    (made : log.filterMap Event.creates = List.range store.heap.length) :
    (log ++ events).filterMap Event.creates = List.range next.heap.length := by
  rw [List.filterMap_append, made]
  cases effect with
  | silent heap => simp [heap]
  | create shape heap => simp [heap, Event.creates, List.range_succ]
  | expire found idle heap => simp [heap, Event.creates]
  | erase found heap => simp [heap, Event.creates]
  | dropAll dropped heap => simp [heap, Event.creates]
  | close closing found => simp
  | begin found opened idle => simp [Event.creates]
  | commit found opened active => simp [Event.creates]
  | release releasing found active => simp [Event.creates]

end Rooms

structure Orderly (settings : Settings) (system : System) : Prop where
  formed : WellFormed system.store
  room : system.store.sessions.entries.length ≤ settings.config.maxSessions
  made : system.log.filterMap Event.creates =
    List.range system.store.heap.length
  serves : ∀ (index : Nat) thread, system.threads[index]? = some thread →
    Serves settings system.store.heap thread.call thread.progress
  exclusive : Exclusive system
  halted : Halted system
  removes : Removes system.store system.log

section Order

variable {settings : Settings} {system next : System} {label : Label}

theorem Orderly.step (orderly : Orderly settings system)
    (stepped : freeStep settings system label = some next) :
    Orderly settings next := by
  cases freeStep_moved stepped with
  | @calls call =>
      refine
        { formed := orderly.formed
          room := orderly.room
          made := orderly.made
          serves := fun index thread found => ?_
          exclusive := orderly.exclusive.calls call
          halted := orderly.halted.calls call
          removes := orderly.removes }
      rcases Crew.getElem?_join_origin found with before | ⟨_, rfl⟩
      · exact orderly.serves index thread before
      · rfl
  | @runs index readings call current outcome found executed =>
      have effect := exec_effect executed
      have serves := orderly.serves index _ found
      refine
        { formed := effect.wellFormed orderly.formed
          room := exec_room executed orderly.room
          made := effect.made orderly.made
          serves := fun other thread otherAt => ?_
          exclusive := orderly.exclusive.runs (exec_guards executed) found _
          halted := orderly.halted.runs orderly.exclusive found executed
          removes := effect.removes orderly.formed serves orderly.removes }
      rcases Crew.getElem?_set_origin otherAt with ⟨_, rfl⟩ | ⟨_, before⟩
      · exact exec_serves orderly.formed.mapped serves executed
      · exact (orderly.serves other thread before).mono effect.preserves

theorem initialSystem_orderly (basePrompt : StdString) :
    Orderly settings (initialSystem basePrompt) where
  formed := initialStore_wellFormed basePrompt
  room := Nat.zero_le _
  made := rfl
  serves := by simp [initialSystem]
  exclusive := ⟨by simp [initialSystem], by simp [initialSystem]⟩
  halted := ⟨by simp [initialSystem], by simp [initialSystem, initialStore],
    by simp [initialSystem]⟩
  removes := by simp [Removes, initialSystem]

theorem Orderly.issued (orderly : Orderly settings system) :
    issued system =
      (List.range system.store.heap.length).map fun index =>
        sessionName (index + 1) := by
  unfold SessionStore.issued
  rw [orderly.made, ← List.filterMap_eq_map]
  apply List.filterMap_congr
  intro ptr member
  have bound := List.mem_range.mp member
  have found := List.getElem?_eq_getElem bound
  rw [found, Option.map_some, orderly.formed.named ptr _ found]
  rfl

theorem Orderly.dropped {ptr : SessionPtr} {session : SessionState}
    (orderly : Orderly settings system)
    (found : system.store.heap[ptr]? = some session)
    (dropped : Dropped system.log ptr) : Retired session.id system.store := by
  refine ⟨⟨ptr, session, found, rfl⟩, ?_⟩
  have removed (gone : .expired ptr ∈ system.log ∨ .deleted ptr ∈ system.log) :
      system.store.sessions.lookup session.id = none := by
    obtain ⟨sessionId, ⟨held, heldAt, named⟩, absent⟩ := orderly.removes ptr gone
    obtain rfl := Option.some.inj (found.symm.trans heldAt)
    exact named ▸ absent
  rcases dropped with expired | deleted | stopped
  · exact removed (.inl expired)
  · exact removed (.inr deleted)
  · exact orderly.halted.empty (orderly.halted.flagged stopped) session.id

end Order

/-- The reading a section takes under its lock; `begin_request` has taken another
one before it. -/
def Section.clock (readings : Readings) : Section → Int
  | .begin _ _ _ _ => readings.second
  | _ => readings.first

def lastReading (system : System) : Label → Int → Int
  | .call _, last => last
  | .run index readings, last =>
      match system.threads[index]? with
      | some ⟨_, .suspended current⟩ => current.clock readings
      | _ => last

def InTime (noted : System × Int) (label : Label) : Prop :=
  noted.2 ≤ lastReading noted.1 label noted.2

instance decidableInTime (noted : System × Int) (label : Label) :
    Decidable (InTime noted label) :=
  inferInstanceAs (Decidable (_ ≤ _))

structure Dated (settings : Settings) (now : Int)
    (session updated : SessionState) : Prop where
  created : updated.created = session.created
  touched : (updated.lastUsed = session.lastUsed ∧
      updated.expiresAt = session.expiresAt) ∨
    (updated.lastUsed = now ∧
      updated.expiresAt = now + settings.config.idleTtlSeconds)

structure SessionState.Timely (settings : Settings) (last : Int)
    (session : SessionState) : Prop where
  expires : session.expiresAt =
    session.lastUsed + settings.config.idleTtlSeconds
  ordered : session.created ≤ session.lastUsed
  past : session.created ≤ last

/-- The dates of the sessions fit the clock, and nobody reaps ahead of it. -/
structure Timely (settings : Settings) (system : System) (last : Int) :
    Prop where
  sessions : ∀ session ∈ system.store.heap, session.Timely settings last
  reading : ∀ (index : Nat) call now rest after,
    system.threads[index]? = some ⟨call, .suspended (.reaping now rest after)⟩ →
    now ≤ last

section Dates

variable {settings : Settings} {readings : Readings} {store : Store}
  {current : Section} {outcome : Outcome} {session updated : SessionState}
  {ptr : SessionPtr} {now : Int}

theorem Dated.refl (session : SessionState) :
    Dated settings now session session := ⟨rfl, .inl ⟨rfl, rfl⟩⟩

theorem beginLocked_dated (settings : Settings) (startedAt now : Int)
    (sessionId : StdString) (user : ChatMessage) (requestId : RequestId)
    (session : SessionState) :
    Dated settings now session
      (beginLocked settings startedAt now sessionId user requestId session).1 := by
  unfold beginLocked
  split
  · exact .refl session
  · split
    · exact .refl session
    · exact ⟨rfl, .inr ⟨rfl, rfl⟩⟩

theorem commitLocked_dated (settings : Settings) (now : Int)
    (requestId : RequestId) (user : ChatMessage)
    (text : RuntimeResult StdString) (session : SessionState) :
    Dated settings now session
      (commitLocked settings now requestId user text session) := by
  unfold commitLocked
  split
  · exact .refl session
  · exact ⟨rfl, .inr ⟨rfl, rfl⟩⟩

theorem releaseLocked_dated (settings : Settings) (now : Int)
    (requestId : RequestId) (session : SessionState) :
    Dated settings now session
      (releaseLocked settings now requestId session) := by
  unfold releaseLocked
  split
  · exact .refl session
  · exact ⟨rfl, .inr ⟨rfl, rfl⟩⟩

/-- Every session of the second heap is one of the first, or has been touched. -/
def Redated (settings : Settings) (now : Int)
    (heap after : List SessionState) : Prop :=
  ∀ updated ∈ after, ∃ session ∈ heap, Dated settings now session updated

theorem Redated.refl (heap : List SessionState) :
    Redated settings now heap heap := fun session member =>
  ⟨session, member, .refl session⟩

theorem put_redated (found : store.heap[ptr]? = some session)
    (dated : Dated settings now session updated) :
    Redated settings now store.heap (store.put ptr updated).heap := by
  intro held member
  rcases List.mem_or_eq_of_mem_set member with before | rfl
  · exact ⟨held, before, .refl held⟩
  · exact ⟨session, List.mem_of_getElem? found, dated⟩

theorem reapEntry_redated (now time : Int) (store : Store)
    (entry : SessionEntry) :
    Redated settings now store.heap (reapEntry time store entry).heap := by
  unfold reapEntry
  split
  · exact .refl store.heap
  · rename_i session found
    split
    · exact put_redated found ⟨rfl, .inl ⟨rfl, rfl⟩⟩
    · exact .refl store.heap

/-- A section touches sessions at the time it reads, or makes a new one with the
time at which its call has begun to reap. -/
theorem exec_redated
    (executed : current.exec settings readings store = some outcome) :
    Redated settings (current.clock readings) store.heap outcome.store.heap ∨
      ∃ now request, current = .reaping now [] (.create request) ∧
        outcome.store.heap =
          store.heap ++ [freshSession settings now request store] := by
  cases current with
  | enter call =>
      cases enterCall_entered executed with
      | _ => exact .inl (.refl store.heap)
  | reaping now rest after =>
      cases rest with
      | nil =>
          cases leaveReaping_left executed with
          | creates space => exact .inr ⟨now, _, rfl, rfl⟩
          | _ => exact .inl (.refl store.heap)
      | cons entry rest =>
          obtain ⟨session, found, rfl⟩ := Option.map_eq_some_iff.mp executed
          exact .inl (reapEntry_redated _ now store entry)
  | begin ptr sessionId user requestId =>
      obtain ⟨session, found, rfl⟩ := Option.map_eq_some_iff.mp executed
      exact .inl (put_redated found (beginLocked_dated ..))
  | commit ptr requestId user text =>
      obtain ⟨session, found, rfl⟩ := Option.map_eq_some_iff.mp executed
      exact .inl (put_redated found (commitLocked_dated ..))
  | release ptr requestId =>
      obtain ⟨session, found, rfl⟩ := Option.map_eq_some_iff.mp executed
      exact .inl (put_redated found (releaseLocked_dated ..))
  | closeDeleted ptr =>
      obtain ⟨session, found, rfl⟩ := Option.map_eq_some_iff.mp executed
      exact .inl (put_redated found ⟨rfl, .inl ⟨rfl, rfl⟩⟩)
  | closeStopped rest =>
      cases rest with
      | nil =>
          cases Option.some.inj executed
          exact .inl (.refl store.heap)
      | cons ptr rest =>
          obtain ⟨session, found, rfl⟩ := Option.map_eq_some_iff.mp executed
          exact .inl (put_redated found ⟨rfl, .inl ⟨rfl, rfl⟩⟩)
  | snapshot ptr =>
      obtain ⟨session, found, rfl⟩ := Option.map_eq_some_iff.mp executed
      exact .inl (.refl store.heap)

theorem exec_reading {rest : List SessionEntry} {after : AfterReap}
    (executed : current.exec settings readings store = some outcome)
    (reaping : outcome.progress = .suspended (.reaping now rest after)) :
    now = current.clock readings ∨
      ∃ before, current = .reaping now before after := by
  cases current with
  | enter call =>
      cases enterCall_entered executed with
      | reaps free reaps running =>
          cases reaping
          exact .inl rfl
      | finds free found works =>
          cases works with
          | _ => cases reaping
      | _ => cases reaping
  | reaping time entries afterReap =>
      cases entries with
      | nil =>
          cases leaveReaping_left executed with
          | _ => cases reaping
      | cons entry entries =>
          obtain ⟨session, found, rfl⟩ := Option.map_eq_some_iff.mp executed
          cases reaping
          exact .inr ⟨_, rfl⟩
  | closeStopped pointers =>
      cases pointers with
      | nil =>
          cases Option.some.inj executed
          cases reaping
      | cons ptr pointers =>
          obtain ⟨session, found, rfl⟩ := Option.map_eq_some_iff.mp executed
          cases reaping
  | _ =>
      obtain ⟨session, found, rfl⟩ := Option.map_eq_some_iff.mp executed
      cases reaping

theorem SessionState.Timely.mono {last later : Int}
    (timely : session.Timely settings last) (forward : last ≤ later) :
    session.Timely settings later :=
  ⟨timely.expires, timely.ordered, timely.past.trans forward⟩

theorem Dated.timely {last : Int} (dated : Dated settings now session updated)
    (timely : session.Timely settings last) (forward : last ≤ now) :
    updated.Timely settings now := by
  have past := timely.past.trans forward
  rcases dated.touched with ⟨lastUsed, expiresAt⟩ | ⟨lastUsed, expiresAt⟩
  · constructor
    · rw [expiresAt, lastUsed, timely.expires]
    · rw [dated.created, lastUsed]
      exact timely.ordered
    · exact dated.created.trans_le past
  · constructor
    · rw [expiresAt, lastUsed]
    · rw [dated.created, lastUsed]
      exact past
    · exact dated.created.trans_le past

theorem freshSession_timely {last : Int} {request : SessionCreateRequest}
    (read : now ≤ last) :
    (freshSession settings now request store).Timely settings last :=
  ⟨rfl, le_rfl, read⟩

theorem Timely.calls {system : System} {last : Int}
    (timely : Timely settings system last) (call : Call) :
    Timely settings { system with
      threads := system.threads ++ [⟨call, .suspended (.enter call)⟩] } last := by
  refine ⟨timely.sessions, fun index caller now rest after found => ?_⟩
  rcases Crew.getElem?_join_origin found with before | ⟨_, same⟩
  · exact timely.reading index caller now rest after before
  · cases same

theorem Timely.runs {system : System} {last : Int} {index : Nat} {call : Call}
    (timely : Timely settings system last)
    (forward : last ≤ current.clock readings)
    (found : system.threads[index]? = some ⟨call, .suspended current⟩)
    (executed : current.exec settings readings system.store = some outcome)
    (log : List Event) :
    Timely settings
      { store := outcome.store
        threads := system.threads.set index ⟨call, outcome.progress⟩
        log } (current.clock readings) := by
  constructor
  · intro updated member
    rcases exec_redated executed with redated | ⟨now, request, rfl, heap⟩
    · obtain ⟨session, held, dated⟩ := redated updated member
      exact dated.timely (timely.sessions session held) forward
    · have read := timely.reading index call now [] _ found
      change updated ∈ outcome.store.heap at member
      rw [heap, List.mem_append, List.mem_singleton] at member
      rcases member with before | rfl
      · exact (timely.sessions updated before).mono forward
      · exact freshSession_timely (read.trans forward)
  · intro other caller now rest after otherAt
    rcases Crew.getElem?_set_origin otherAt with ⟨_, same⟩ | ⟨_, before⟩
    · rcases exec_reading executed (congrArg Thread.progress same) with
        read | ⟨entries, rfl⟩
      · exact read.le
      · exact (timely.reading index call now entries after found).trans forward
    · exact (timely.reading other caller now rest after before).trans forward

theorem Timely.step {system next : System} {label : Label} {last : Int}
    (timely : Timely settings system last) (inTime : InTime (system, last) label)
    (stepped : freeStep settings system label = some next) :
    Timely settings next (lastReading system label last) := by
  cases freeStep_moved stepped with
  | @calls call => exact timely.calls call
  | @runs index readings call current outcome found executed =>
      have clock : lastReading system (.run index readings) last =
          current.clock readings := by
        simp [lastReading, found]
      rw [InTime, clock] at inTime
      rw [clock]
      exact timely.runs inTime found executed _

end Dates

def Progress.Looking : Progress → Prop
  | .suspended (.enter _) => True
  | .suspended (.reaping _ _ _) => True
  | _ => False

/-- The call has not found its session: it is still looking, or has returned an
error. -/
def Progress.Barred : Progress → Prop
  | .returned output => ¬ output.Succeeds
  | progress => progress.Looking

theorem Progress.Looking.barred {progress : Progress}
    (looking : progress.Looking) : progress.Barred := by
  cases progress with
  | suspended current => exact looking
  | returned output => exact looking.elim

section Absence

variable {settings : Settings} {readings : Readings} {store : Store}
  {call : Call} {current : Section} {outcome : Outcome} {sessionId : StdString}

theorem exec_barred (retired : Retired sessionId store)
    (serves : Serves settings store.heap call (.suspended current))
    (looksUp : call.looksUp = some sessionId)
    (looking : (Progress.suspended current).Looking)
    (executed : current.exec settings readings store = some outcome) :
    outcome.progress.Barred := by
  obtain ⟨_, absent⟩ := retired
  cases current with
  | enter other =>
      obtain rfl : other = call := serves
      cases enterCall_entered executed with
      | returns failed setsNothing => exact failed
      | reaps free reaps running => trivial
      | finds free found works =>
          cases works with
          | _ => cases looksUp
      | erases free found => cases looksUp
      | prompts free => cases looksUp
      | stops free running => cases looksUp
  | reaping now rest after =>
      obtain ⟨reaps, -⟩ := serves
      cases rest with
      | nil =>
          cases leaveReaping_left executed with
          | returns failed => exact failed
          | creates space =>
              cases reaps
              cases looksUp
          | gets found =>
              cases reaps
              cases looksUp
              exact absurd (absent.symm.trans found) (by simp)
          | begins found =>
              cases reaps with
              | begin accepted =>
                  obtain ⟨asked, -, -⟩ := validateBegin_ok accepted
                  obtain rfl := Option.some.inj (asked.symm.trans looksUp)
                  exact absurd (absent.symm.trans found) (by simp)
      | cons entry rest =>
          obtain ⟨session, found, rfl⟩ := Option.map_eq_some_iff.mp executed
          trivial
  | _ => exact looking.elim

/-- A call that ends a request on a session that is not in the map leaves the
sessions in the map as they are. -/
theorem exec_untouched (mapped : Mapped store)
    (absent : store.sessions.lookup sessionId = none)
    (serves : Serves settings store.heap call (.suspended current))
    (finishes : call.finishes = some sessionId)
    (executed : current.exec settings readings store = some outcome) :
    outcome.store.sessions = store.sessions ∧
      ∀ other ptr, store.sessions.lookup other = some ptr →
        outcome.store.heap[ptr]? = store.heap[ptr]? := by
  have elsewhere {target : SessionPtr} (updated : SessionState)
      (mine : ∃ named, call.finishes = some named ∧
        Refers store.heap named target)
      (other : StdString) (ptr : SessionPtr)
      (found : store.sessions.lookup other = some ptr) :
      (store.put target updated).heap[ptr]? = store.heap[ptr]? := by
    obtain ⟨named, same, held, heldAt, rfl⟩ := mine
    obtain rfl := Option.some.inj (finishes.symm.trans same)
    apply store.put_heap_other
    rintro rfl
    obtain ⟨stored, storedAt, rfl⟩ := mapped other target found
    obtain rfl := Option.some.inj (heldAt.symm.trans storedAt)
    exact absurd (absent.symm.trans found) (by simp)
  cases current with
  | enter other =>
      obtain rfl : other = call := serves
      cases enterCall_entered executed with
      | returns failed setsNothing => exact ⟨rfl, fun _ _ _ => rfl⟩
      | reaps free reaps running => exact ⟨rfl, fun _ _ _ => rfl⟩
      | finds free found works => exact ⟨rfl, fun _ _ _ => rfl⟩
      | prompts free => exact ⟨rfl, fun _ _ _ => rfl⟩
      | erases free found => cases finishes
      | stops free running => cases finishes
  | reaping now rest after =>
      exact absurd (serves.1.finishes.symm.trans finishes) (by simp)
  | commit ptr requestId user text =>
      obtain ⟨session, found, rfl⟩ := Option.map_eq_some_iff.mp executed
      exact ⟨rfl, elsewhere _ serves⟩
  | release ptr requestId =>
      obtain ⟨session, found, rfl⟩ := Option.map_eq_some_iff.mp executed
      exact ⟨rfl, elsewhere _ serves⟩
  | _ => exact absurd (serves.symm.trans finishes) (by simp)

end Absence

/-- What an id comes to once it is not in the map: no call that looks it up from
now on succeeds, and none that commits or releases a request on it changes a
session in the map. -/
structure Gone (settings : Settings) (sessionId : StdString)
    (system final : System) : Prop where
  refused : ∀ (index : Nat) thread output,
    final.threads[index]? = some thread →
    thread.call.looksUp = some sessionId →
    (∀ before, system.threads[index]? = some before →
      before.progress.Looking) →
    thread.progress = .returned output → ¬ output.Succeeds
  untouched : ∀ (index : Nat) thread readings next,
    final.threads[index]? = some thread →
    thread.call.finishes = some sessionId →
    freeStep settings final (.run index readings) = some next →
    next.store.sessions = final.store.sessions ∧
      ∀ other ptr, final.store.sessions.lookup other = some ptr →
        next.store.heap[ptr]? = final.store.heap[ptr]?

/-- The calls that were looking for the id when it went, or have come since, have
not found it. -/
def Bars (sessionId : StdString) (system final : System) : Prop :=
  ∀ (index : Nat) thread, final.threads[index]? = some thread →
    thread.call.looksUp = some sessionId →
    (∀ before, system.threads[index]? = some before →
      before.progress.Looking) →
    thread.progress.Barred

section Departures

variable {settings : Settings} {sessionId : StdString}
  {system state next final : System} {label : Label}

theorem Bars.step (bars : Bars sessionId system state)
    (orderly : Orderly settings state) (retired : Retired sessionId state.store)
    (stepped : freeStep settings state label = some next) :
    Bars sessionId system next := by
  intro other thread found looksUp wasLooking
  cases freeStep_moved stepped with
  | calls =>
      rcases Crew.getElem?_join_origin found with before | ⟨_, rfl⟩
      · exact bars other thread before looksUp wasLooking
      · trivial
  | @runs index readings call current outcome at_ executed =>
      rcases Crew.getElem?_set_origin found with ⟨rfl, rfl⟩ | ⟨_, before⟩
      · exact exec_barred retired (orderly.serves index _ at_) looksUp
          (bars index _ at_ looksUp wasLooking) executed
      · exact bars other thread before looksUp wasLooking

theorem Retired.step (orderly : Orderly settings state)
    (retired : Retired sessionId state.store)
    (stepped : freeStep settings state label = some next) :
    Retired sessionId next.store := by
  cases freeStep_moved stepped with
  | calls => exact retired
  | runs found executed =>
      exact retired.mono orderly.formed (exec_effect executed)

theorem Retired.gone {later : List Label} (orderly : Orderly settings system)
    (retired : Retired sessionId system.store)
    (ran : run (freeStep settings) system later = some final) :
    Gone settings sessionId system final := by
  let Holds (state : System) : Prop :=
    Orderly settings state ∧ Retired sessionId state.store ∧
      Bars sessionId system state
  have preserved {state next : System} {label : Label} (holds : Holds state)
      (stepped : freeStep settings state label = some next) : Holds next := by
    obtain ⟨orderly, retired, bars⟩ := holds
    exact ⟨orderly.step stepped, retired.step orderly stepped,
      bars.step orderly retired stepped⟩
  have initially : Bars sessionId system system := by
    intro index thread found _ wasLooking
    exact (wasLooking thread found).barred
  obtain ⟨after, absent, bars⟩ :=
    run_invariant preserved ⟨orderly, retired, initially⟩ ran
  constructor
  · intro index thread output found looksUp wasLooking returned
    have barred := bars index thread found looksUp wasLooking
    rw [returned] at barred
    exact barred
  · intro index thread readings next found finishes stepped
    cases freeStep_moved stepped with
    | runs at_ executed =>
        obtain rfl := Option.some.inj (at_.symm.trans found)
        exact exec_untouched after.formed.mapped absent.2
          (after.serves index _ at_) finishes executed

end Departures

theorem run_orderly {settings : Settings} {basePrompt : StdString}
    {schedule : List Label} {system : System}
    (ran : run (freeStep settings) (initialSystem basePrompt) schedule =
      some system) : Orderly settings system :=
  run_invariant Orderly.step (initialSystem_orderly basePrompt) ran

theorem run_timely {settings : Settings} {basePrompt : StdString} {start : Int}
    {schedule : List Label} {system : System}
    (inTime : Respects (noting (freeStep settings) lastReading) InTime
      (initialSystem basePrompt, start) schedule)
    (ran : run (freeStep settings) (initialSystem basePrompt) schedule =
      some system) : ∃ last, Timely settings system last := by
  have same : (run (noting (freeStep settings) lastReading)
      (initialSystem basePrompt, start) schedule).map Prod.fst =
      run (freeStep settings) (initialSystem basePrompt) schedule :=
    run_noting _ _ _
  rw [← same] at ran
  obtain ⟨⟨_, last⟩, noted, rfl⟩ := Option.map_eq_some_iff.mp ran
  have preserved {noted next : System × Int} {label : Label}
      (inTime : InTime noted label) (timely : Timely settings noted.1 noted.2)
      (stepped : noting (freeStep settings) lastReading noted label =
        some next) : Timely settings next.1 next.2 := by
    obtain ⟨system, last⟩ := noted
    obtain ⟨after, later⟩ := next
    obtain ⟨advanced, rfl⟩ := noting_eq_some.mp stepped
    exact timely.step inTime advanced
  have initially : Timely settings (initialSystem basePrompt) start :=
    ⟨by simp [initialSystem, initialStore], by simp [initialSystem]⟩
  exact ⟨last, inTime.invariant preserved initially noted⟩

/-- The representation of the store after any run with a clock that does not go
back and fewer than 2^64 creations. -/
theorem store_represented {settings : Settings} {basePrompt : StdString}
    {start : Int} {schedule : List Label} {system : System}
    (inTime : Respects (noting (freeStep settings) lastReading) InTime
      (initialSystem basePrompt, start) schedule)
    (ran : run (freeStep settings) (initialSystem basePrompt) schedule =
      some system)
    (few : (issued system).length < 2 ^ 64) :
    system.store.sessions.entries.length ≤ settings.config.maxSessions ∧
      (issued system).Nodup ∧
      (∀ sessionId ∈ issued system, ∃ number < 2 ^ 64,
        sessionId = sessionName number) ∧
      (∀ sessionId ptr, system.store.sessions.lookup sessionId = some ptr →
        ∃ session, system.store.heap[ptr]? = some session ∧
          session.id = sessionId ∧
          session.expiresAt =
            session.lastUsed + settings.config.idleTtlSeconds ∧
          session.created ≤ session.lastUsed) ∧
      ∀ (ptr : SessionPtr) session, system.store.heap[ptr]? = some session →
        Dropped system.log ptr → ∀ later final,
        run (freeStep settings) system later = some final →
        Gone settings session.id system final := by
  have orderly := run_orderly ran
  obtain ⟨last, timely⟩ := run_timely inTime ran
  refine ⟨orderly.room, ?_, ?_, ?_, ?_⟩
  · rw [orderly.issued]
    refine List.nodup_range.map ?_
    intro one other same
    exact Nat.succ.inj (sessionName_injective same)
  · intro sessionId member
    rw [orderly.issued] at member few
    obtain ⟨index, bound, rfl⟩ := List.mem_map.mp member
    rw [List.length_map, List.length_range] at few
    exact ⟨index + 1, (Nat.succ_le_of_lt (List.mem_range.mp bound)).trans_lt few,
      rfl⟩
  · intro sessionId ptr entry
    obtain ⟨session, found, named⟩ := orderly.formed.mapped sessionId ptr entry
    have dates := timely.sessions session (List.mem_of_getElem? found)
    exact ⟨session, found, named, dates.expires, dates.ordered⟩
  · intro ptr session found dropped later final continued
    exact (orderly.dropped found dropped).gone orderly continued

/-! A session is created and deleted, while a call that has found it before goes on
to begin a request on it. -/

def sampleDeparture : List Label :=
  [.call (.createSession ⟨literal "m", none⟩), .run 0 ⟨0, 0, []⟩, .run 0 ⟨0, 0, []⟩,
    .call (.beginRequest sampleRequest 7),
    .run 1 ⟨1, 1, []⟩, .run 1 ⟨1, 1, []⟩, .run 1 ⟨1, 1, []⟩,
    .call (.deleteSession (literal "sess-1")), .run 2 ⟨2, 2, []⟩,
    .run 1 ⟨3, 3, []⟩]

theorem store_represented_sample :
    ∃ system, issued system = [literal "sess-1"] ∧
      Gone sampleSettings (literal "sess-1") system system := by
  have inTime : Respects (noting (freeStep sampleSettings) lastReading) InTime
      (initialSystem [], 0) sampleDeparture := by
    decide +kernel
  obtain ⟨system, ran, ids, session, found, named, deleted⟩ :
      ∃ system, run (freeStep sampleSettings) (initialSystem [])
          sampleDeparture = some system ∧
        issued system = [literal "sess-1"] ∧
        ∃ session, system.store.heap[0]? = some session ∧
          session.id = literal "sess-1" ∧ system.log[1]? = some (.deleted 0) :=
    ⟨_, rfl, by decide +kernel, _, rfl, by decide +kernel, rfl⟩
  have few : (issued system).length < 2 ^ 64 := by
    rw [ids]
    decide
  obtain ⟨-, -, -, -, gone⟩ := store_represented inTime ran few
  have dropped : Dropped system.log 0 :=
    .inr (.inl (List.mem_of_getElem? deleted))
  exact ⟨system, ids, named ▸ gone 0 session found dropped [] system rfl⟩

end ZooKeeperServer.SessionStore
