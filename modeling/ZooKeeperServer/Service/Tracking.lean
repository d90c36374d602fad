import ZooKeeperServer.Service.Reachability

namespace ZooKeeperServer.Service

open SessionStore Transition

/-! Which requests `active_session_requests_` knows: a live request's entry stays
its own, as long as nobody cleans up behind an earlier request of the session. -/

def Pending.tracked (pending : Pending) : Option (StdString × ZooRequestId) :=
  match pending.target, pending.consumed with
  | .session sessionId _, false => some (sessionId, pending.zooRequestId)
  | _, _ => none

/-- The entry of a request that has tracked itself and is not yet being finalized,
released or destroyed. -/
def Phase.tracked : Phase → Option (StdString × ZooRequestId)
  | .registering (.session sessionId _) zooRequestId _ =>
      some (sessionId, zooRequestId)
  | .pending object => object.tracked
  | _ => none

def Actor.tracked : Actor → Option (StdString × ZooRequestId)
  | .request call => call.phase.tracked
  | _ => none

def Phase.awaiting : Phase → Option StdString
  | .prepared (.session sessionId _) _ => some sessionId
  | .submitted (.session sessionId _) _ => some sessionId
  | .wrapped (.session sessionId _) _ => some sessionId
  | _ => none

def Actor.awaiting : Actor → Option StdString
  | .request call => call.phase.awaiting
  | _ => none

/-- The session whose entry this turn erases with `untrack_session_request`. -/
def Actor.untracks : Actor → Input → Option StdString
  | .request call, .consume copy (.proceed _) =>
      match call.phase with
      | .pending object =>
          match object.copies[copy]?, object.target with
          | some ⟨_, .untrackSessionRequest :: _⟩, .session sessionId _ =>
              some sessionId
          | _, _ => none
      | _ => none
  | _, _ => none

def Actor.On (sessionId : StdString) : Actor → Prop
  | .request call => ∃ handed, call.start.session = some (sessionId, handed)
  | _ => False

instance decidableRefers (heap : List SessionState) (sessionId : StdString)
    (ptr : SessionPtr) : Decidable (Refers heap sessionId ptr) :=
  decidable_of_iff (heap[ptr]?.map SessionState.id = some sessionId) (by
    simp [Refers])

instance decidableDeleted (core : Core) (sessionId : StdString) :
    Decidable (Deleted core sessionId) :=
  decidable_of_iff (∃ ptr, ptr < core.store.heap.length ∧
      Refers core.store.heap sessionId ptr ∧ .deleted ptr ∈ core.log) (by
    constructor
    · rintro ⟨ptr, _, deleted⟩
      exact ⟨ptr, deleted⟩
    · rintro ⟨ptr, ⟨session, found, named⟩, deleted⟩
      exact ⟨ptr, (List.getElem?_eq_some_iff.mp found).1,
        ⟨session, found, named⟩, deleted⟩)

/-- A turn that untracks the session finds no live request tracked on it, unless
the session has been deleted. -/
def Undisturbed (sessionId : StdString) : Terms :=
  fun core actor input other =>
    actor.untracks input = some sessionId →
      ∀ entry ∈ other.tracked, entry.1 = sessionId → Deleted core sessionId

instance decidableUndisturbed (sessionId : StdString) (core : Core)
    (actor : Actor) (input : Input) (other : Actor) :
    Decidable (Undisturbed sessionId core actor input other) :=
  inferInstanceAs (Decidable (actor.untracks input = some sessionId →
    ∀ entry ∈ other.tracked, entry.1 = sessionId → Deleted core sessionId))

/-- The map has the entry of a request tracked on the session, unless that is
deleted. -/
def Entered (sessionId : StdString) (core : Core) (actor : Actor) : Prop :=
  ∀ zooRequestId, actor.tracked = some (sessionId, zooRequestId) →
    core.activeSessionRequests.lookup sessionId = some zooRequestId ∨
      Deleted core sessionId

section Keeping

variable {config : Configuration} {userOf : RequestId → ChatMessage}
  {core after : Core} {actor updated other : Actor} {input : Input}
  {sessionId : StdString} {zooRequestId : ZooRequestId}

inductive Retracked (core : Core) (actor : Actor) (input : Input)
    (after : Core) : Prop
  | same (same : after.activeSessionRequests = core.activeSessionRequests)
  | track {request : Request} {sessionId : StdString}
      {begin : BeginRequestResult} {zooRequestId : ZooRequestId}
      (acting : actor = .request request)
      (at_ : request.phase = .wrapped (.session sessionId begin) zooRequestId)
      (inserted : after.activeSessionRequests =
        core.activeSessionRequests.insert sessionId zooRequestId)
  | untrack {sessionId : StdString}
      (untracks : actor.untracks input = some sessionId)
      (erased : after.activeSessionRequests =
        core.activeSessionRequests.erase sessionId)
  | delete {sessionId : StdString}
      (acting : actor = .deletion (.erasing sessionId))
      (erased : after.activeSessionRequests =
        core.activeSessionRequests.erase sessionId)

theorem Turn.retracked (turn : Turn config core actor input after updated) :
    Retracked core actor input after := by
  cases turn.touches with
  | nothing unchanged => exact .same unchanged.tracked
  | store executed unchanged =>
      exact .same (unchanged.tracked.trans (execute_storeOnly executed).tracked)
  | track at_ => exact .track rfl at_ rfl
  | untrack at_ copyAt target =>
      exact .untrack (by simp [Actor.untracks, at_, copyAt, target]) rfl
  | erase => exact .delete rfl rfl
  | _ => exact .same rfl

/-- A live tracked request keeps its session busy. -/
theorem Actor.Sound.tracked_busy (sound : actor.Sound userOf core)
    (tracked : actor.tracked = some (sessionId, zooRequestId)) :
    actor.On sessionId ∧
      ∃ trackingId begin ptr, actor.trackingId = some trackingId ∧
        Begun userOf core trackingId sessionId begin ptr ∧
        ¬ Finished core.log ptr trackingId := by
  cases actor with
  | request call =>
      have held := sound.2
      change call.phase.tracked = _ at tracked
      cases phase : call.phase with
      | registering target zoo created =>
          rw [phase] at held tracked
          cases target with
          | session named begin =>
              obtain ⟨rfl, rfl⟩ := Prod.mk.inj (Option.some.inj tracked)
              obtain ⟨trackingId, ptr, drew, on, begun, busy⟩ := held
              exact ⟨on, trackingId, begin, ptr, drew, begun, busy trivial⟩
          | _ => cases tracked
      | pending object =>
          rw [phase] at held tracked
          simp only [Phase.tracked, Pending.tracked] at tracked
          split at tracked
          · rename_i named begin target fresh
            obtain ⟨rfl, rfl⟩ := Prod.mk.inj (Option.some.inj tracked)
            have busy := held.target
            rw [target] at busy
            obtain ⟨trackingId, ptr, drew, on, begun, unfinished⟩ := busy
            exact ⟨on, trackingId, begin, ptr, drew, begun, unfinished fresh⟩
          · cases tracked
      | _ =>
          rw [phase] at tracked
          cases tracked
  | _ => cases tracked

/-- The busy flag admits one unfinished request a session. -/
theorem Sane.exclusive {trackingId second : RequestId}
    {begin later : BeginRequestResult} {ptr next : SessionPtr}
    (sane : Sane userOf core config.sessions)
    (begun : Begun userOf core trackingId sessionId begin ptr)
    (unfinished : ¬ Finished core.log ptr trackingId)
    (begunLater : Begun userOf core second sessionId later next)
    (unfinishedLater : ¬ Finished core.log next second) :
    trackingId = second := by
  obtain rfl := sane.consistent.pointer begun.refers begunLater.refers
  obtain ⟨session, found, _⟩ := begun.refers
  have invariant := sane.consistent.invariant next session found
  have first := (invariant.unfinished trackingId begin begun.began).resolve_left
    unfinished
  have other := (invariant.unfinished second later
    begunLater.began).resolve_left unfinishedLater
  exact Option.some.inj (first.symm.trans other)

theorem beginPhase_untracked {progress : Progress} {phase : Phase}
    (proceeds : beginPhase sessionId progress = some phase) :
    phase.tracked = none := by
  rcases beginPhase_cases proceeds with ⟨next, _, rfl⟩ | ⟨error, _, rfl⟩ |
    ⟨result, _, rfl⟩
  · rfl
  · rfl
  · rfl

theorem prepare_untracked (core : Core) (start : StartRequest) :
    (prepare config core start).tracked = none := by
  rcases prepare_cases config core start with ⟨error, same⟩ |
    ⟨target, messages, same, _⟩
  · rw [same]
    rfl
  · rw [same]
    rfl

theorem Consumed.idle {request : Request} {trackingId : RequestId}
    {pending changed : Pending} {index : Nat} {action : Action}
    (quiet : pending.consumed = false →
      ∀ copy ∈ pending.copies, copy.operations = [])
    (consumed : Consumed config core trackingId request.start pending index
      action after changed) (fresh : changed.consumed = false) :
    after = core ∧ changed.tracked = pending.tracked := by
  cases consumed with
  | copy at_ => exact ⟨rfl, rfl⟩
  | destroy at_ others => exact ⟨rfl, rfl⟩
  | @proceed _ _ operation rest _ _ _ at_ operated =>
      have before : pending.consumed = false := by
        cases operated <;> exact fresh
      exact absurd (quiet before _ (List.mem_of_getElem? at_)) (by simp)
  | _ => cases fresh

theorem Pending.tracked_fresh {pending : Pending}
    {entry : StdString × ZooRequestId} (tracked : pending.tracked = some entry) :
    pending.consumed = false := by
  unfold Pending.tracked at tracked
  split at tracked
  · assumption
  · cases tracked

theorem Turn.tracks {entry : StdString × ZooRequestId}
    (sound : actor.Sound userOf core)
    (turn : Turn config core actor input after updated)
    (tracked : updated.tracked = some entry) :
    (actor.awaiting = some entry.1 ∧
      after.activeSessionRequests.lookup entry.1 = some entry.2) ∨
      (actor.tracked = some entry ∧
        after.activeSessionRequests = core.activeSessionRequests) := by
  cases turn with
  | advance advanced =>
      cases advanced with
      | beginRequest at_ session executed proceeds =>
          exact absurd ((beginPhase_untracked proceeds).symm.trans tracked)
            (by simp)
      | prepare at_ =>
          exact absurd ((prepare_untracked core _).symm.trans tracked) (by simp)
      | track at_ =>
          obtain rfl := Option.some.inj tracked
          refine .inl ⟨?_, AList.lookup_insert _⟩
          change Phase.awaiting _ = _
          rw [at_]
          rfl
      | number at_ sessionless =>
          simp only [Actor.tracked, Phase.tracked] at tracked
          split at tracked
          · rename_i same
            obtain ⟨rfl, _⟩ := Phase.registering.inj same
            exact absurd rfl (sessionless _ _)
          · contradiction
          · contradiction
      | @register target _ _ _ at_ drew =>
          refine .inr ⟨?_, rfl⟩
          change Phase.tracked _ = _
          rw [at_, ← tracked]
          cases target <;> rfl
      | _ => cases tracked
  | consume at_ drew consumed =>
      have quiet := (sound.pending at_).quiet
      obtain ⟨rfl, same⟩ := consumed.idle (fun fresh => (quiet fresh).2.2)
        (Pending.tracked_fresh tracked)
      refine .inr ⟨?_, rfl⟩
      change Phase.tracked _ = _
      rw [at_]
      exact same.symm.trans tracked
  | _ => cases tracked

theorem Turn.enters (sound : actor.Sound userOf core)
    (entered : Entered sessionId core actor)
    (turn : Turn config core actor input after updated) :
    Entered sessionId after updated := by
  intro zooRequestId tracked
  rcases turn.tracks sound tracked with ⟨_, found⟩ | ⟨before, same⟩
  · exact .inl found
  · rcases entered zooRequestId before with found | deleted
    · exact .inl (same ▸ found)
    · exact .inr (deleted.mono (turn.guarantees sound))

theorem Turn.leaves_entered (sane : Sane userOf core config.sessions)
    (sound : actor.Sound userOf core) (soundOther : other.Sound userOf core)
    (apart : Apart actor other) (entered : Entered sessionId core other)
    (undisturbed : Undisturbed sessionId core actor input other)
    (turn : Turn config core actor input after updated) :
    Entered sessionId after other := by
  have guarantees := turn.guarantees sound
  intro zooRequestId tracked
  rcases entered zooRequestId tracked with found | deleted
  · -- Only an insertion or erasure under the same name could lose the entry.
    cases turn.retracked with
    | same same => exact .inl (same ▸ found)
    | @track request named begin zoo acting at_ inserted =>
        by_cases same : named = sessionId
        · subst same acting
          obtain ⟨_, second, later, next, drewOther, begunOther, busyOther⟩ :=
            soundOther.tracked_busy tracked
          have held := sound.2
          rw [at_] at held
          obtain ⟨trackingId, ptr, drew, _, begun, busy⟩ := held
          obtain rfl := sane.exclusive begun (busy trivial) begunOther busyOther
          exact absurd drewOther (apart trackingId drew)
        · rw [inserted, AList.lookup_insert_ne (Ne.symm same)]
          exact .inl found
    | @untrack named untracks erased =>
        by_cases same : named = sessionId
        · subst same
          have deleted := undisturbed untracks _ tracked rfl
          exact .inr (deleted.mono guarantees)
        · rw [erased, AList.lookup_erase_ne (Ne.symm same)]
          exact .inl found
    | @delete named acting erased =>
        by_cases same : named = sessionId
        · subst same acting
          exact .inr (Deleted.mono sound guarantees)
        · rw [erased, AList.lookup_erase_ne (Ne.symm same)]
          exact .inl found
  · exact .inr (deleted.mono guarantees)

theorem entered_disciplined :
    Discipline config (Undisturbed sessionId) (fun _ => True)
      (Entered sessionId) where
  own := fun _ sound _ entered _ turn => ⟨trivial, turn.enters sound entered⟩
  others := fun sane sound soundOther apart _ _ entered undisturbed turn =>
    turn.leaves_entered sane sound soundOther apart entered undisturbed
  calm := by
    rintro core after ⟨counter, turnedAway, _, rfl⟩
    exact ⟨fun _ => trivial, fun actor entered => entered⟩
  starts := by
    intro userOf core start _ _ zooRequestId tracked
    change (startCall config core.nextCompletionId start).phase.tracked = _
      at tracked
    unfold startCall at tracked
    split at tracked
    · cases tracked
    · split at tracked <;> cases tracked
  joins := by
    intro core actor arriving zooRequestId tracked
    cases arriving <;> cases tracked

end Keeping

/-- `active_session_requests_` maps a session that is not deleted to the request
whose start call has returned and that nobody has begun to finalize. -/
theorem live_requests_tracked {config : Configuration} {prompt : StdString}
    {schedule : List Label} {service : ChatService} {index : Nat}
    {request : Request} {pending : Pending} {sessionId : StdString}
    {begin : BeginRequestResult}
    (respected : Respects (step config) (Undisturbed sessionId).Met
      (initialService prompt) schedule)
    (ran : run (step config) (initialService prompt) schedule = some service)
    (at_ : service.actors[index]? = some (.request request))
    (returned : request.phase = .pending pending)
    (target : pending.target = .session sessionId begin)
    (live : pending.consumed = false)
    (kept : ¬ Deleted service.shared sessionId) :
    service.shared.activeSessionRequests.lookup sessionId =
      some pending.zooRequestId := by
  have entered := (entered_disciplined.respected trivial respected ran).2 index
    _ at_
  have tracked : (Actor.request request).tracked =
      some (sessionId, pending.zooRequestId) := by
    simp [Actor.tracked, Phase.tracked, Pending.tracked, returned, target, live]
  exact (entered pending.zooRequestId tracked).resolve_right kept

/-! Two requests on one session, one after the other. -/

def sampleSuccessive : List Label :=
  sampleOpening ++ returning 1 7 ++ finalizing 1 11 ++ returning 2 8

theorem live_requests_tracked_sample :
    (sampleRun sampleSuccessive).shared.activeSessionRequests.lookup
      (literal "sess-1") = some 8 := by
  have ran : run (step sampleConfig) (initialService []) sampleSuccessive =
      some (sampleRun sampleSuccessive) := sampleRun_ran (by decide +kernel)
  obtain ⟨request, pending, begin, found, phase, target, live, zoo⟩ :
      ∃ request pending begin,
        requestAt (sampleRun sampleSuccessive) 2 = some request ∧
        request.phase = .pending pending ∧
        pending.target = .session (literal "sess-1") begin ∧
        pending.consumed = false ∧ pending.zooRequestId = 8 :=
    ⟨_, _, _, rfl, rfl, rfl, rfl, rfl⟩
  rw [← zoo]
  exact live_requests_tracked (by decide +kernel) ran (requestAt_eq_some found)
    phase target live (by decide +kernel)

/-! The commit of the first request frees the session; the second one starts and
tracks itself before the first one's lease untracks the session again. -/

def sampleOverlapping : List Label :=
  sampleOpening ++ returning 1 7 ++ finalizing 1 3 ++ returning 2 8 ++
    List.replicate 4 (.act 1 (.consume 0 (.proceed ⟨4, 4, []⟩)))

theorem live_request_untracked :
    ¬ ∀ (config : Configuration) (prompt : StdString) (service : ChatService)
      (index : Nat) request pending sessionId begin,
      Reachable (step config) (initialService prompt) service →
      service.actors[index]? = some (.request request) →
      request.phase = .pending pending →
      pending.target = .session sessionId begin → pending.consumed = false →
      ¬ Deleted service.shared sessionId →
      service.shared.activeSessionRequests.lookup sessionId =
        some pending.zooRequestId := by
  intro claim
  have ran : run (step sampleConfig) (initialService []) sampleOverlapping =
      some (sampleRun sampleOverlapping) := sampleRun_ran (by decide +kernel)
  obtain ⟨request, pending, begin, found, phase, target, live⟩ :
      ∃ request pending begin,
        requestAt (sampleRun sampleOverlapping) 2 = some request ∧
        request.phase = .pending pending ∧
        pending.target = .session (literal "sess-1") begin ∧
        pending.consumed = false := ⟨_, _, _, rfl, rfl, rfl, rfl⟩
  have tracked := claim sampleConfig [] _ 2 request pending _ begin ⟨_, ran⟩
    (requestAt_eq_some found) phase target live (by decide +kernel)
  have untracked : (sampleRun sampleOverlapping).shared.activeSessionRequests.lookup
      (literal "sess-1") = none := by decide +kernel
  exact absurd (untracked.symm.trans tracked) (by simp)

end ZooKeeperServer.Service
