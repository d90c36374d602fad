import ZooKeeperServer.SessionStore.Removal
import ZooKeeperServer.Service.Tracking

namespace ZooKeeperServer.Service

open SessionStore Transition

/-! What deleting a session does to its request in flight.  The request becomes
visible to the store before it becomes visible to `active_session_requests_`, and
the deletion looks there only once. -/

def Phase.zooRequestId : Phase → Option ZooRequestId
  | .submitted _ zooRequestId => some zooRequestId
  | .wrapped _ zooRequestId => some zooRequestId
  | .registering _ zooRequestId _ => some zooRequestId
  | .pending object => some object.zooRequestId
  | _ => none

/-- The session whose entry `delete_session` looks up in this turn. -/
def Actor.erases : Actor → Option StdString
  | .deletion (.erasing sessionId) => some sessionId
  | _ => none

def Actor.accepts : Actor → Input → Option (StdString × ZooRequestId)
  | .request call, .advance (.complete zooRequestId) =>
      call.start.session.map fun (sessionId, _) => (sessionId, zooRequestId)
  | _, _ => none

/-- `delete_session` looks into the map while no request of the session is between
`begin_request` and `track_session_request`, and zero is nobody's id. -/
def Timely (sessionId : StdString) : Terms := fun _ actor input other =>
  (actor.erases = some sessionId → other.awaiting ≠ some sessionId) ∧
    actor.accepts input ≠ some (sessionId, 0)

instance decidableTimely (sessionId : StdString) (core : Core) (actor : Actor)
    (input : Input) (other : Actor) :
    Decidable (Timely sessionId core actor input other) :=
  inferInstanceAs (Decidable ((actor.erases = some sessionId →
    other.awaiting ≠ some sessionId) ∧
    actor.accepts input ≠ some (sessionId, 0)))

def Deletion.removed : Deletion → Option StdString
  | .removing sessionId (.closeDeleted _) => some sessionId
  | .removing _ _ => none
  | .erasing sessionId => some sessionId
  | .cancelling sessionId _ => some sessionId
  | .returned sessionId (.ok ()) => some sessionId
  | .returned _ (.error _) => none

def Deletion.closed : Deletion → Option StdString
  | .removing _ _ => none
  | .erasing sessionId => some sessionId
  | .cancelling sessionId _ => some sessionId
  | .returned sessionId (.ok ()) => some sessionId
  | .returned _ (.error _) => none

/-- No request of the session has the id zero. -/
def Numbered (sessionId : StdString) (_ : Core) (actor : Actor) : Prop :=
  ∀ request handed, actor = .request request →
    request.start.session = some (sessionId, handed) →
    request.phase.zooRequestId ≠ some 0

/-- A deletion that has left the store leaves a closed session behind. -/
def Closes (sessionId : StdString) (core : Core) : Actor → Prop
  | .deletion call => call.closed = some sessionId → Shut sessionId core.store
  | _ => True

/-- The store's map holds no deleted session. -/
def Vacant (core : Core) : Prop :=
  ∀ ptr, .deleted ptr ∈ core.log → ∃ sessionId,
    Refers core.store.heap sessionId ptr ∧
      core.store.sessions.lookup sessionId = none

section Locals

variable {config : Configuration} {readings : Readings}
  {userOf : RequestId → ChatMessage}
  {core after : Core} {actor updated other : Actor} {input : Input}
  {sessionId : StdString}

/-- What a turn does to the store, and what it notes in the log. -/
def Moves (config : Configuration) (core after : Core) : Prop :=
  ∃ current progress events, after.log = core.log ++ events ∧
    Effect config.sessions core.store current after.store progress events

theorem Moves.still (store : after.store = core.store)
    (log : after.log = core.log) : Moves config core after :=
  ⟨.enter .stop, .returned .done, [], by simp [log],
    .silent (by rw [store]) (by rw [store]) (by rw [store])⟩

theorem Moves.execute {current : Section} {progress : Progress} {middle : Core}
    (executed : core.execute config readings current = some (middle, progress))
    (store : after.store = middle.store) (log : after.log = middle.log) :
    Moves config core after := by
  obtain ⟨outcome, ran, rfl, rfl⟩ := execute_outcome executed
  exact ⟨current, outcome.progress, outcome.events, log,
    store ▸ exec_effect ran⟩

/-- Every turn leaves the store alone or executes one of its sections. -/
theorem Turn.moves (turn : Turn config core actor input after updated) :
    Moves config core after := by
  cases turn.touches with
  | nothing unchanged => exact .still unchanged.store unchanged.log
  | store executed unchanged =>
      exact .execute executed unchanged.store unchanged.log
  | _ => exact .still rfl rfl

theorem Vacant.retired (vacant : Vacant core)
    (deleted : Deleted core sessionId) : Retired sessionId core.store := by
  obtain ⟨ptr, ⟨session, found, rfl⟩, gone⟩ := deleted
  obtain ⟨named, ⟨held, heldAt, rfl⟩, absent⟩ := vacant ptr gone
  obtain rfl := Option.some.inj (found.symm.trans heldAt)
  exact ⟨⟨ptr, session, found, rfl⟩, absent⟩

theorem Vacant.mono (vacant : Vacant core)
    (sane : Sane userOf core config.sessions) (moves : Moves config core after) :
    Vacant after := by
  obtain ⟨current, progress, events, log, effect⟩ := moves
  intro ptr gone
  rcases List.mem_append.mp (log ▸ gone) with earlier | later
  · obtain ⟨named, refers, absent⟩ := vacant ptr earlier
    have retired : Retired named core.store := ⟨⟨ptr, refers⟩, absent⟩
    exact ⟨named, effect.preserves _ _ refers,
      (retired.mono sane.consistent.toWellFormed effect).2⟩
  · obtain ⟨named, rfl, found, sessions⟩ := effect.deleted later
    have refers := sane.consistent.mapped named ptr found
    refine ⟨named, effect.preserves _ _ refers, ?_⟩
    rw [sessions]
    exact AList.lookup_erase _ _

theorem removing_proceeds {current next : Section} {named : StdString}
    (neutral : Neutral current) (on : current.On named core.store.heap)
    (executed : core.execute config readings current =
      some (after, .suspended next)) :
    ∃ ptr, next = .closeDeleted ptr ∧
      core.store.sessions.lookup named = some ptr ∧
      after.store.sessions.lookup named = none := by
  obtain ⟨outcome, ran, rfl, suspended⟩ := execute_outcome executed
  cases current with
  | enter call =>
      cases call with
      | deleteSession looked =>
          obtain rfl : looked = named := Option.some.inj on
          simp only [Section.exec, enterCall] at ran
          split at ran
          · cases Option.some.inj ran
            cases suspended
          split at ran
          · contradiction
          split at ran
          · cases Option.some.inj ran
            cases suspended
          · rename_i ptr found
            cases Option.some.inj ran
            cases suspended
            exact ⟨ptr, rfl, found, AList.lookup_erase _ _⟩
      | beginRequest request requestId => cases neutral.1
      | commitResult looked requestId user result => cases neutral.2
      | commitResponseText looked requestId user result => cases neutral.2
      | releaseRequest looked requestId => cases neutral.2
      | _ => cases on
  | reaping now rest afterReap =>
      cases afterReap with
      | begin looked user requestId => cases neutral.1
      | _ => exact on.elim
  | begin ptr looked user requestId => cases neutral.1
  | commit ptr requestId user text => cases neutral.2
  | release ptr requestId => cases neutral.2
  | closeDeleted ptr =>
      obtain ⟨session, found, rfl⟩ := Option.map_eq_some_iff.mp ran
      cases suspended
  | closeStopped rest => exact on.elim
  | snapshot ptr => exact on.elim

theorem closeDeleted_shuts {ptr : SessionPtr} {named : StdString}
    {progress : Progress} (on : Refers core.store.heap named ptr)
    (executed : core.execute config readings (.closeDeleted ptr) =
      some (after, progress)) : Shut named after.store := by
  obtain ⟨outcome, ran, rfl, rfl⟩ := execute_outcome executed
  obtain ⟨session, found, rfl⟩ := Option.map_eq_some_iff.mp ran
  obtain ⟨held, heldAt, rfl⟩ := on
  obtain rfl := Option.some.inj (found.symm.trans heldAt)
  exact ⟨ptr, closeSession session, Store.put_heap_same _ found, rfl, rfl⟩

theorem Closes.mono (closes : Closes sessionId core actor)
    (moves : Moves config core after) : Closes sessionId after actor := by
  obtain ⟨current, progress, events, _, effect⟩ := moves
  cases actor with
  | deletion call => exact fun closed => (closes closed).mono effect
  | _ => trivial

theorem Deleting.closes {call changed : Deletion}
    (sound : call.Sound userOf core)
    (closes : Closes sessionId core (.deletion call))
    (deleting : Deleting config readings core call after changed) :
    Closes sessionId after (.deletion changed) := by
  have turn : Turn config core (.deletion call) (.run readings) after
      (.deletion changed) := .deletion deleting
  have kept := closes.mono turn.moves
  cases deleting with
  | proceeds executed => exact fun closed => by cases closed
  | fails executed => exact fun closed => by cases closed
  | removed executed =>
      obtain ⟨_, neutral, on⟩ := sound
      obtain ⟨ptr, rfl⟩ := removed_section neutral on executed
      intro same
      obtain rfl := Option.some.inj same
      exact closeDeleted_shuts on executed
  | erase found =>
      split
      · exact kept
      · exact kept
  | _ => exact kept

theorem Turn.numbers (numbered : Numbered sessionId core actor)
    (timely : Timely sessionId core actor input actor)
    (turn : Turn config core actor input after updated) :
    Numbered sessionId after updated := by
  rintro request handed rfl session
  cases turn with
  | @advance acting _ _ _ advanced =>
      cases advanced with
      | beginRequest at_ named executed proceeds =>
          rcases beginPhase_cases proceeds with ⟨next, _, rfl⟩ |
            ⟨error, _, rfl⟩ | ⟨result, _, rfl⟩
          · simp [Phase.zooRequestId]
          · simp [Phase.zooRequestId]
          · simp [Phase.zooRequestId]
      | prepare at_ =>
          rcases prepare_cases config core acting.start with ⟨error, same⟩ |
            ⟨target, messages, same, _⟩
          · simp [same, Phase.zooRequestId]
          · simp [same, Phase.zooRequestId]
      | complete at_ =>
          rintro ⟨⟩
          apply timely.2
          simp only [Actor.accepts]
          rw [session]
          rfl
      | raise at_ => simp [Phase.zooRequestId]
      | spawn at_ =>
          have before := numbered _ handed rfl session
          rw [at_] at before
          exact before
      | track at_ =>
          have before := numbered _ handed rfl session
          rw [at_] at before
          exact before
      | number at_ sessionless =>
          have before := numbered _ handed rfl session
          rw [at_] at before
          exact before
      | register at_ drew =>
          have before := numbered _ handed rfl session
          rw [at_] at before
          exact before
  | @consume _ pending changed _ _ _ _ at_ drew consumed =>
      have before := numbered _ handed rfl session
      rw [at_] at before
      have same : changed.zooRequestId = pending.zooRequestId := by
        cases consumed with
        | proceed copyAt operated => cases operated <;> rfl
        | _ => rfl
      simpa [Phase.zooRequestId, same] using before

theorem deletion_disciplined :
    Discipline config (Timely sessionId) Vacant fun core actor =>
      Numbered sessionId core actor ∧ Closes sessionId core actor where
  own := by
    intro userOf core after actor updated input sane sound vacant held timely
      turn
    refine ⟨vacant.mono sane turn.moves, turn.numbers held.1 timely, ?_⟩
    cases turn with
    | deletion deleting => exact deleting.closes sound held.2
    | _ => trivial
  others := fun _ _ _ _ _ _ held _ turn => ⟨held.1, held.2.mono turn.moves⟩
  calm := by
    rintro core after ⟨counter, turnedAway, _, rfl⟩
    refine ⟨fun vacant => vacant, fun actor held => ⟨held.1, ?_⟩⟩
    cases actor with
    | deletion call => exact held.2
    | _ => trivial
  starts := by
    intro userOf core start _ _
    refine ⟨?_, trivial⟩
    rintro request handed ⟨⟩ session
    unfold startCall
    split
    · simp [Phase.zooRequestId]
    · split <;> simp [Phase.zooRequestId]
  joins := by
    intro core actor arriving
    refine ⟨?_, ?_⟩
    · rintro request handed rfl
      cases arriving
    · cases arriving with
      | deletion => exact fun closed => by cases closed
      | _ => trivial

end Locals

end ZooKeeperServer.Service
