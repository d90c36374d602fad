import ZooKeeperServer.Service.Reachability

namespace ZooKeeperServer.Service

open SessionStore Transition

/-! What a session request leaves behind when its start call returns no pending
object. -/

/-- An exception has left the start call of this actor. -/
def RaisedAt (service : ChatService) (index : Nat) : Prop :=
  ∃ request, service.actors[index]? = some (.request request) ∧
    request.phase = .raised

section Raising

variable {config : Configuration} {service next : ChatService} {index : Nat}

theorem startCall_phase (trackingId : RequestId) (start : StartRequest) :
    (startCall config trackingId start).phase ≠ .raised := by
  obtain ⟨phase, drawn, same, cases⟩ := startCall_cases config trackingId start
  rw [same]
  rcases cases with ⟨current, rfl⟩ | rfl | ⟨error, rfl⟩
  · simp
  · simp
  · simp

theorem raisedAt_join {shared : Core} {joined : Actor}
    (calm : ∀ request, joined = .request request → request.phase ≠ .raised) :
    RaisedAt (service.join shared joined) index ↔ RaisedAt service index := by
  constructor
  · rintro ⟨request, found, raised⟩
    rcases Crew.getElem?_join_origin found with before | ⟨_, same⟩
    · exact ⟨request, before, raised⟩
    · exact absurd raised (calm request same)
  · rintro ⟨request, found, raised⟩
    obtain ⟨bound, _⟩ := List.getElem?_eq_some_iff.mp found
    exact ⟨request, by
      simp only [Crew.join, List.getElem?_append_left bound, found], raised⟩

theorem Advanced.raised {core after : Core} {request updated : Request}
    {input : Advance}
    (advanced : Advanced config core request input after updated) :
    request.phase ≠ .raised ∧ (updated.phase = .raised ↔ input = .raise) := by
  cases advanced with
  | @beginRequest _ current sessionId handed _ progress phase at_ session
      executed proceeds =>
      refine ⟨by simp [at_], ?_⟩
      have calm : phase ≠ .raised := by
        rintro rfl
        cases progress with
        | suspended next => cases proceeds
        | returned output =>
            cases output with
            | begun result =>
                cases result with
                | error error => cases proceeds
                | ok result => cases proceeds
            | _ => cases proceeds
      simpa using calm
  | prepare at_ =>
      refine ⟨by simp [at_], ?_⟩
      rcases prepare_cases config core request.start with ⟨error, refused⟩ |
        ⟨target, messages, prepared, _⟩
      · simp [refused]
      · simp [prepared]
  | raise at_ =>
      refine ⟨?_, by simp⟩
      rcases at_ with ⟨messages, at_⟩ | ⟨zooRequestId, at_⟩
      · simp [at_]
      · simp [at_]
  | complete at_ => exact ⟨by simp [at_], by simp⟩
  | spawn at_ => exact ⟨by simp [at_], by simp⟩
  | track at_ => exact ⟨by simp [at_], by simp⟩
  | number at_ sessionless => exact ⟨by simp [at_], by simp⟩
  | register at_ drew => exact ⟨by simp [at_], by simp⟩

theorem Turn.raised {core after : Core} {actor updated : Actor} {input : Input}
    (turn : Turn config core actor input after updated) :
    (∃ request, updated = .request request ∧ request.phase = .raised) ↔
      (∃ request, actor = .request request ∧ request.phase = .raised) ∨
        input = .advance .raise := by
  cases turn with
  | advance advanced =>
      obtain ⟨calm, raises⟩ := advanced.raised
      simp [calm, raises]
  | consume at_ drew consumed => simp [at_]
  | _ => simp

theorem raisedAt_turn {other : Nat} {input : Input} {actor updated : Actor}
    {after : Core} (found : service.actors[other]? = some actor)
    (turn : Turn config service.shared actor input after updated) :
    RaisedAt ⟨after, service.actors.set other updated⟩ index ↔
      RaisedAt service index ∨ (other = index ∧ input = .advance .raise) := by
  have turn := turn.raised
  by_cases same : other = index
  · subst same
    have after : (service.actors.set other updated)[other]? = some updated := by
      rw [List.getElem?_set_self (List.getElem?_eq_some_iff.mp found).1]
    simp only [RaisedAt, after, found, Option.some.injEq, true_and]
    exact turn
  · simp [RaisedAt, same]

theorem raisedAt_step {label : Label}
    (stepped : step config service label = some next) :
    RaisedAt next index ↔
      RaisedAt service index ∨ label = .act index (.advance .raise) := by
  cases step_stepped stepped with
  | turnsAway elsewhere => simp [RaisedAt, elsewhere]
  | starts =>
      rw [raisedAt_join (by
        rintro request ⟨⟩
        exact startCall_phase _ _)]
      simp
  | arrives arriving elsewhere =>
      rw [raisedAt_join (by
        rintro request rfl
        cases arriving)]
      simp [elsewhere]
  | turn found turn =>
      rw [raisedAt_turn found turn]
      simp

/-- A start call has ended with an exception exactly if one was raised in it. -/
theorem raisedAt_run {schedule : List Label}
    (ran : run (step config) service schedule = some next) :
    RaisedAt next index ↔
      RaisedAt service index ∨ .act index (.advance .raise) ∈ schedule := by
  induction schedule generalizing service with
  | nil =>
      cases Option.some.inj ran
      simp
  | cons label rest ih =>
      obtain ⟨middle, stepped, finished⟩ := run_cons.mp ran
      rw [ih finished, raisedAt_step stepped, List.mem_cons]
      tauto

end Raising

/-- No session of the store is busy with the request. -/
def Recovered (service : ChatService) (trackingId : RequestId) : Prop :=
  ∀ sessionId ptr session,
    service.shared.store.sessions.lookup sessionId = some ptr →
    service.shared.store.heap[ptr]? = some session →
    session.activeRequest ≠ some trackingId

/-- The start call returned an error or ended with an exception. -/
def Phase.failed : Phase → Bool
  | .refused _ => true
  | .raised => true
  | _ => false

structure StartAtomic (config : Configuration) (schedule : List Label)
    (service : ChatService) : Prop where
  recovers : ∀ (index : Nat) request sessionId handed trackingId,
    service.actors[index]? = some (.request request) →
    request.start.session = some (sessionId, handed) →
    request.trackingId = some trackingId → request.phase.failed = true →
    (Recovered service trackingId ↔
      .act index (.advance .raise) ∉ schedule ∨
        sessionId ∉ service.shared.store.sessions)
  keeps : ∀ index input next (ptr : SessionPtr) (session : SessionState),
    step config service (.act index (.advance input)) = some next →
    service.shared.store.heap[ptr]? = some session →
    ∃ updated : SessionState, next.shared.store.heap[ptr]? = some updated ∧
      updated.history = session.history

section Recovery

variable {config : Configuration} {userOf : RequestId → ChatMessage}
  {service : ChatService} {trackingId : RequestId}

theorem Held.unbegun_recovered (held : Held config userOf service)
    (unbegun : Unbegun service.shared.log trackingId) :
    Recovered service trackingId := by
  intro sessionId ptr session entry found active
  obtain ⟨_, begin, began, _⟩ :=
    (held.shared.consistent.invariant ptr session found).active trackingId
      active
  exact unbegun ptr begin began

/-- A request that has begun and not been finished keeps its session busy as long
as the store has it. -/
theorem Held.begun_recovered (held : Held config userOf service)
    {sessionId : StdString} {ptr : SessionPtr} {begin : BeginRequestResult}
    (begun : Begun userOf service.shared trackingId sessionId begin ptr)
    (unfinished : ¬ Finished service.shared.log ptr trackingId) :
    Recovered service trackingId ↔
      sessionId ∉ service.shared.store.sessions := by
  have consistent := held.shared.consistent
  constructor
  · intro recovered member
    obtain ⟨other, entry⟩ := Option.isSome_iff_exists.mp
      (AList.lookup_isSome.mpr member)
    obtain rfl := consistent.pointer begun.refers
      (consistent.mapped sessionId other entry)
    obtain ⟨session, found, _⟩ := begun.refers
    refine recovered sessionId other session entry found ?_
    rcases (consistent.invariant other session found).unfinished trackingId
      begin begun.began with finished | active
    · exact absurd finished unfinished
    · exact active
  · intro missing named other session entry found active
    obtain ⟨_, result, began, _⟩ :=
      (consistent.invariant other session found).active trackingId active
    obtain ⟨rfl, _⟩ := consistent.once _ _ _ _ _ begun.began began
    obtain ⟨first, firstAt, rfl⟩ := begun.refers
    obtain ⟨second, secondAt, rfl⟩ := consistent.mapped named ptr entry
    obtain rfl := Option.some.inj (firstAt.symm.trans secondAt)
    exact missing (AList.lookup_isSome.mp (by simp [entry]))

theorem Change.unended_history {settings : Settings} {ptr : SessionPtr}
    {session updated : SessionState} {events : List Event}
    (change : Change settings ptr session updated events)
    (unended : ∀ requestId, ¬ Finished events ptr requestId) :
    updated.history = session.history := by
  cases change with
  | commit opened active =>
      exact absurd (.inl ⟨_, List.mem_singleton_self _⟩) (unended _)
  | _ => rfl

/-- A section that ends no request changes no history. -/
theorem execute_history {readings : Readings} {core after : Core}
    {current : Section} {progress : Progress} {ptr : SessionPtr}
    {session : SessionState}
    (executed : core.execute config readings current = some (after, progress))
    (endless : current.ends = none)
    (found : core.store.heap[ptr]? = some session) :
    ∃ updated, after.store.heap[ptr]? = some updated ∧
      updated.history = session.history := by
  obtain ⟨outcome, ran, rfl, rfl⟩ := execute_outcome executed
  have effect := exec_effect ran
  obtain ⟨updated, updatedAt, change⟩ := effect.change found
  refine ⟨updated, updatedAt, Change.unended_history change ?_⟩
  intro requestId finished
  exact absurd (endless.symm.trans (effect.ends finished)) (by simp)

theorem Advanced.keeps_history {core after : Core} {request updated : Request}
    {input : Advance} {ptr : SessionPtr} {session : SessionState}
    (sound : request.Sound userOf core)
    (advanced : Advanced config core request input after updated)
    (found : core.store.heap[ptr]? = some session) :
    ∃ updated, after.store.heap[ptr]? = some updated ∧
      updated.history = session.history := by
  cases advanced with
  | beginRequest at_ session executed proceeds =>
      have held := sound.2
      rw [at_] at held
      obtain ⟨trackingId, sessionId, opening⟩ := held
      exact execute_history executed opening.ends found
  | _ => exact ⟨session, found, rfl⟩

end Recovery

theorem starts_atomic {config : Configuration} {prompt : StdString}
    {schedule : List Label} {service : ChatService}
    (ran : run (step config) (initialService prompt) schedule = some service) :
    StartAtomic config schedule service := by
  obtain ⟨userOf, held⟩ := reachable_held ⟨schedule, ran⟩
  constructor
  · intro index request sessionId handed trackingId at_ session drew failed
    have raises : RaisedAt service index ↔
        .act index (.advance .raise) ∈ schedule := by
      rw [raisedAt_run ran, or_iff_right]
      simp [RaisedAt, initialService]
    have here : RaisedAt service index ↔ request.phase = .raised := by
      simp [RaisedAt, at_]
    have sound := (held.each index _ at_ : request.Sound userOf service.shared).2
    rw [← raises, here]
    cases phase : request.phase with
    | refused error =>
        rw [phase] at sound
        simp [held.unbegun_recovered (sound trackingId drew)]
    | raised =>
        rw [phase] at sound
        obtain ⟨named, ptr, begin, ⟨given, session'⟩, begun, unfinished⟩ :=
          sound trackingId drew
        obtain rfl : sessionId = named :=
          (Prod.mk.inj (Option.some.inj (session.symm.trans session'))).1
        simp [held.begun_recovered begun unfinished]
    | _ => simp [phase, Phase.failed] at failed
  · intro index input next ptr session stepped found
    obtain ⟨actor, shared, updated, at_, acted, rfl⟩ :=
      Crew.turn_eq_some stepped
    cases act_turn acted with
    | advance advanced =>
        exact advanced.keeps_history (held.each index _ at_) found

/-! `agent_->complete` throws after `begin_request` has made the session busy. -/

def sampleRaising : List Label :=
  sampleOpening ++ beginning 1 ++ [.act 1 (.advance .raise)]

theorem starts_atomic_sample :
    StartAtomic sampleConfig sampleRaising (sampleRun sampleRaising) :=
  starts_atomic (show run (step sampleConfig) (initialService []) sampleRaising =
    some (sampleRun sampleRaising) from rfl)

theorem start_leaks :
    ¬ ∀ (config : Configuration) (prompt : StdString) (schedule : List Label)
      (service : ChatService) (index : Nat) request trackingId,
      run (step config) (initialService prompt) schedule = some service →
      service.actors[index]? = some (.request request) →
      request.trackingId = some trackingId → request.phase.failed = true →
      Recovered service trackingId := by
  intro claim
  have recovered := claim sampleConfig [] sampleRaising
    (sampleRun sampleRaising) 1 _ 1 rfl rfl rfl rfl
  exact recovered (literal "sess-1") 0 _ rfl rfl rfl

end ZooKeeperServer.Service
