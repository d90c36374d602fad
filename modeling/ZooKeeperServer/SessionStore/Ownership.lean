import ZooKeeperServer.SessionStore.Interleaving

namespace ZooKeeperServer.SessionStore

/-! Which request a section works for: the one it begins, or the one it commits or
releases.  Nobody else's request can be begun or finished by it. -/

def AfterReap.begins : AfterReap → Option RequestId
  | .begin _ _ requestId => some requestId
  | _ => none

def Section.begins : Section → Option RequestId
  | .enter call => call.begins
  | .reaping _ _ after => after.begins
  | .begin _ _ _ requestId => some requestId
  | _ => none

def Call.ends : Call → Option RequestId
  | .commitResult _ requestId _ _ => some requestId
  | .commitResponseText _ requestId _ _ => some requestId
  | .releaseRequest _ requestId => some requestId
  | _ => none

def Section.ends : Section → Option RequestId
  | .enter call => call.ends
  | .commit _ requestId _ _ => some requestId
  | .release _ requestId => some requestId
  | _ => none

def Section.newPrompt : Section → Option StdString
  | .enter (.setBaseSystemPrompt prompt) => some prompt
  | _ => none

def Call.session : Call → Option StdString
  | .beginRequest request _ => request.sessionId
  | .commitResult sessionId _ _ _ => some sessionId
  | .commitResponseText sessionId _ _ _ => some sessionId
  | .releaseRequest sessionId _ => some sessionId
  | .deleteSession sessionId => some sessionId
  | _ => none

def Section.On (sessionId : StdString) (heap : List SessionState) :
    Section → Prop
  | .enter call => call.session = some sessionId
  | .reaping _ _ (.begin other _ _) => other = sessionId
  | .begin ptr other _ _ => other = sessionId ∧ Refers heap sessionId ptr
  | .commit ptr _ _ _ => Refers heap sessionId ptr
  | .release ptr _ => Refers heap sessionId ptr
  | .closeDeleted ptr => Refers heap sessionId ptr
  | _ => False

def Unbegun (log : List Event) (requestId : RequestId) : Prop :=
  ∀ ptr result, .began ptr requestId result ∉ log

section Execution

variable {settings : Settings} {readings : Readings} {store : Store}
  {current next : Section} {outcome : Outcome} {sessionId : StdString}
  {heap : List SessionState}

theorem Section.On.mono {after : List SessionState}
    (on : current.On sessionId heap) (preserved : Preserves heap after) :
    current.On sessionId after := by
  cases current with
  | enter call => exact on
  | reaping now rest afterReap =>
      cases afterReap with
      | begin other user requestId => exact on
      | _ => exact on.elim
  | begin ptr other user requestId => exact ⟨on.1, preserved _ _ on.2⟩
  | commit ptr requestId user text => exact preserved _ _ on
  | release ptr requestId => exact preserved _ _ on
  | closeDeleted ptr => exact preserved _ _ on
  | closeStopped rest => exact on.elim
  | snapshot ptr => exact on.elim

structure Passes (store : Store) (heap : List SessionState)
    (current next : Section) : Prop where
  begins : next.begins = current.begins
  ends : next.ends = current.ends
  inside : next.newPrompt = none
  session : ∀ sessionId, Mapped store → current.On sessionId store.heap →
    next.On sessionId heap

theorem returns_passes {after : Store} {output : Output}
    (executed : returns after output = some outcome)
    (suspended : outcome.progress = .suspended next) :
    Passes store outcome.store.heap current next := by
  cases Option.some.inj executed
  cases suspended

theorem enterCall_passes {call : Call}
    (executed : enterCall settings readings store call = some outcome)
    (suspended : outcome.progress = .suspended next) :
    Passes store outcome.store.heap (.enter call) next := by
  cases enterCall_entered executed with
  | returns failed setsNothing => cases suspended
  | reaps free reaps running =>
      cases suspended
      cases reaps with
      | begin accepted =>
          refine ⟨rfl, rfl, rfl, fun sessionId _ on => ?_⟩
          exact Option.some.inj ((validateBegin_ok accepted).1.symm.trans on)
      | _ =>
          refine ⟨rfl, rfl, rfl, fun sessionId _ on => ?_⟩
          cases on
  | finds free found works =>
      cases suspended
      cases works with
      | _ =>
          refine ⟨rfl, rfl, rfl, fun sessionId mapped on => ?_⟩
          cases on
          exact mapped _ _ found
  | erases free found =>
      cases suspended
      refine ⟨rfl, rfl, rfl, fun sessionId mapped on => ?_⟩
      cases on
      exact mapped _ _ found
  | prompts free => cases suspended
  | stops free running =>
      cases suspended
      refine ⟨rfl, rfl, rfl, fun sessionId _ on => ?_⟩
      cases on

theorem leaveReaping_passes {now : Int} {after : AfterReap}
    (executed : leaveReaping settings now store after = some outcome)
    (suspended : outcome.progress = .suspended next) :
    Passes store outcome.store.heap (.reaping now [] after) next := by
  cases leaveReaping_left executed with
  | returns failed => cases suspended
  | creates room =>
      cases suspended
      exact ⟨rfl, rfl, rfl, fun _ _ on => on.elim⟩
  | gets found =>
      cases suspended
      exact ⟨rfl, rfl, rfl, fun _ _ on => on.elim⟩
  | @begins looked user requestId ptr found =>
      cases suspended
      refine ⟨rfl, rfl, rfl, fun sessionId mapped on => ?_⟩
      obtain rfl : looked = sessionId := on
      exact ⟨rfl, mapped looked ptr found⟩

/-- A section works for the same request and on the same session as the one its
thread was in before. -/
theorem exec_passes (executed : current.exec settings readings store = some outcome)
    (suspended : outcome.progress = .suspended next) :
    Passes store outcome.store.heap current next := by
  have preserved := (exec_effect executed).preserves
  cases current with
  | enter call => exact enterCall_passes executed suspended
  | reaping now rest after =>
      cases rest with
      | nil => exact leaveReaping_passes executed suspended
      | cons entry rest =>
          obtain ⟨session, found, rfl⟩ := Option.map_eq_some_iff.mp executed
          cases suspended
          refine ⟨rfl, rfl, rfl, fun sessionId _ on => ?_⟩
          cases after with
          | begin other user requestId => exact on
          | _ => exact on.elim
  | closeStopped rest =>
      cases rest with
      | nil => exact returns_passes executed suspended
      | cons ptr rest =>
          obtain ⟨session, found, rfl⟩ := Option.map_eq_some_iff.mp executed
          cases suspended
          exact ⟨rfl, rfl, rfl, fun _ _ on => on.elim⟩
  | begin ptr other user requestId =>
      obtain ⟨session, found, rfl⟩ := Option.map_eq_some_iff.mp executed
      cases suspended
  | commit ptr requestId user text =>
      obtain ⟨session, found, rfl⟩ := Option.map_eq_some_iff.mp executed
      cases suspended
  | release ptr requestId =>
      obtain ⟨session, found, rfl⟩ := Option.map_eq_some_iff.mp executed
      cases suspended
  | closeDeleted ptr =>
      obtain ⟨session, found, rfl⟩ := Option.map_eq_some_iff.mp executed
      cases suspended
  | snapshot ptr =>
      obtain ⟨session, found, rfl⟩ := Option.map_eq_some_iff.mp executed
      cases suspended

theorem reapEntry_baseSystemPrompt (now : Int) (store : Store)
    (entry : SessionEntry) :
    (reapEntry now store entry).baseSystemPrompt = store.baseSystemPrompt := by
  unfold reapEntry
  split
  · rfl
  · split
    · rfl
    · rfl

theorem enterCall_baseSystemPrompt {call : Call}
    (executed : enterCall settings readings store call = some outcome) :
    outcome.store.baseSystemPrompt =
      (Section.enter call).newPrompt.getD store.baseSystemPrompt := by
  cases enterCall_entered executed with
  | returns failed setsNothing =>
      cases call with
      | setBaseSystemPrompt prompt => exact absurd rfl (setsNothing prompt)
      | _ => rfl
  | reaps free reaps running =>
      cases reaps with
      | _ => rfl
  | finds free found works =>
      cases works with
      | _ => rfl
  | _ => rfl

theorem leaveReaping_baseSystemPrompt {now : Int} {after : AfterReap}
    (executed : leaveReaping settings now store after = some outcome) :
    outcome.store.baseSystemPrompt = store.baseSystemPrompt := by
  cases leaveReaping_left executed with
  | _ => rfl

theorem exec_baseSystemPrompt
    (executed : current.exec settings readings store = some outcome) :
    outcome.store.baseSystemPrompt =
      current.newPrompt.getD store.baseSystemPrompt := by
  cases current with
  | enter call => exact enterCall_baseSystemPrompt executed
  | reaping now rest after =>
      cases rest with
      | nil => exact leaveReaping_baseSystemPrompt executed
      | cons entry rest =>
          obtain ⟨session, found, rfl⟩ := Option.map_eq_some_iff.mp executed
          exact reapEntry_baseSystemPrompt now store entry
  | closeStopped rest =>
      cases rest with
      | nil =>
          cases Option.some.inj executed
          rfl
      | cons ptr rest =>
          obtain ⟨session, found, rfl⟩ := Option.map_eq_some_iff.mp executed
          rfl
  | _ =>
      obtain ⟨session, found, rfl⟩ := Option.map_eq_some_iff.mp executed
      rfl

end Execution

section Events

variable {settings : Settings} {store after : Store} {current : Section}
  {progress : Progress} {events : List Event} {ptr : SessionPtr}
  {requestId : RequestId}

theorem Effect.began_section {result : BeginRequestResult}
    (effect : Effect settings store current after progress events)
    (began : .began ptr requestId result ∈ events) :
    ∃ sessionId session, current = .begin ptr sessionId result.userMessage requestId ∧
      store.heap[ptr]? = some session ∧ session.closed = false ∧
      session.activeRequest = none ∧
      result.messages = session.history ++ [result.userMessage] := by
  cases effect with
  | begin found opened idle =>
      cases List.mem_singleton.mp began
      exact ⟨_, _, rfl, found, opened, idle, rfl⟩
  | _ => simp at began

theorem Effect.begins (effect : Effect settings store current after progress events)
    {result : BeginRequestResult}
    (began : .began ptr requestId result ∈ events) :
    current.begins = some requestId := by
  obtain ⟨sessionId, session, rfl, _⟩ := effect.began_section began
  rfl

theorem Effect.ends (effect : Effect settings store current after progress events)
    (finished : Finished events ptr requestId) :
    current.ends = some requestId := by
  cases effect with
  | commit found opened active =>
      rcases finished with ⟨turn, member⟩ | member
      · cases List.mem_singleton.mp member
        rfl
      · simp at member
  | release releasing found active =>
      rcases finished with ⟨turn, member⟩ | member
      · simp at member
      · cases List.mem_singleton.mp member
        rcases releasing with rfl | ⟨user, text, rfl, _⟩
        · rfl
        · rfl
  | _ => simp [Finished] at finished

theorem Effect.deleted (effect : Effect settings store current after progress events)
    (member : .deleted ptr ∈ events) :
    ∃ sessionId, current = .enter (.deleteSession sessionId) ∧
      store.sessions.lookup sessionId = some ptr ∧
      after.sessions = store.sessions.erase sessionId := by
  cases effect with
  | erase found heap sessions =>
      cases List.mem_singleton.mp member
      exact ⟨_, rfl, found, sessions⟩
  | _ => simp at member

end Events

/-! Whatever a commit or release finds, the request no longer keeps its session busy
afterwards, unless the session is gone. -/

def Cleared (log : List Event) (ptr : SessionPtr) (requestId : RequestId) :
    Prop :=
  Finished log ptr requestId ∨ Dropped log ptr

theorem Cleared.mono {log events : List Event} {ptr : SessionPtr}
    {requestId : RequestId} (cleared : Cleared log ptr requestId) :
    Cleared (log ++ events) ptr requestId := by
  rcases cleared with finished | dropped
  · exact .inl (finished_append.mpr (.inl finished))
  · exact .inr dropped.before

section Clearing

variable {settings : Settings} {userOf : RequestId → ChatMessage}
  {readings : Readings} {store : Store} {log : List Event} {current : Section}
  {outcome : Outcome} {sessionId : StdString} {ptr : SessionPtr}
  {requestId : RequestId} {output : Output}

theorem Consistent.pointer (consistent : Consistent settings userOf store log)
    {other : SessionPtr} (first : Refers store.heap sessionId ptr)
    (second : Refers store.heap sessionId other) : other = ptr := by
  obtain ⟨session, found, rfl⟩ := first
  obtain ⟨held, heldAt, same⟩ := second
  exact consistent.toWellFormed.unique found heldAt same

theorem Consistent.missing (consistent : Consistent settings userOf store log)
    (refers : Refers store.heap sessionId ptr)
    (unknown : store.sessions.lookup sessionId = none) : Dropped log ptr := by
  obtain ⟨session, found, rfl⟩ := refers
  rcases consistent.stored ptr session found with ⟨entry, _⟩ | dropped
  · exact absurd (unknown.symm.trans entry) (by simp)
  · exact dropped

theorem lookupSession_clears {following : SessionPtr → Section}
    (consistent : Consistent settings userOf store log)
    (refers : Refers store.heap sessionId ptr)
    (executed : lookupSession store sessionId following = some outcome)
    (returned : outcome.progress = .returned output) :
    Cleared (log ++ outcome.events) ptr requestId := by
  unfold lookupSession at executed
  split at executed
  · contradiction
  split at executed
  · rename_i unknown
    exact .inr (consistent.missing refers unknown).before
  · cases Option.some.inj executed
    cases returned

theorem exec_clears (consistent : Consistent settings userOf store log)
    (began : ∃ result, .began ptr requestId result ∈ log)
    (refers : Refers store.heap sessionId ptr)
    (ends : current.ends = some requestId)
    (on : current.On sessionId store.heap)
    (executed : current.exec settings readings store = some outcome)
    (returned : outcome.progress = .returned output) :
    Cleared (log ++ outcome.events) ptr requestId := by
  obtain ⟨result, began⟩ := began
  have unfinished {held : SessionState} (found : store.heap[ptr]? = some held)
      (idle : held.activeRequest ≠ some requestId) :
      Cleared (log ++ outcome.events) ptr requestId := by
    rcases (consistent.invariant ptr held found).unfinished requestId result
      began with finished | active
    · exact .inl (finished_append.mpr (.inl finished))
    · exact absurd active idle
  cases current with
  | enter call =>
      cases call with
      | commitResult looked other user reply =>
          obtain rfl : looked = sessionId := Option.some.inj on
          exact lookupSession_clears consistent refers executed returned
      | commitResponseText looked other user reply =>
          obtain rfl : looked = sessionId := Option.some.inj on
          exact lookupSession_clears consistent refers executed returned
      | releaseRequest looked other =>
          obtain rfl : looked = sessionId := Option.some.inj on
          exact lookupSession_clears consistent refers executed returned
      | _ => cases ends
  | commit target other user text =>
      obtain rfl : other = requestId := Option.some.inj ends
      obtain rfl := consistent.pointer refers on
      obtain ⟨held, found, rfl⟩ := Option.map_eq_some_iff.mp executed
      by_cases active : held.activeRequest = some other
      · refine .inl (finished_append.mpr (.inr ?_))
        simp only [commitEvents, active, ne_eq, not_true_eq_false, if_false]
        cases text with
        | error error => exact .inr (List.mem_singleton_self _)
        | ok reply =>
            dsimp only
            split
            · exact .inr (List.mem_singleton_self _)
            · exact .inl ⟨_, List.mem_singleton_self _⟩
      · exact unfinished found active
  | release target other =>
      obtain rfl : other = requestId := Option.some.inj ends
      obtain rfl := consistent.pointer refers on
      obtain ⟨held, found, rfl⟩ := Option.map_eq_some_iff.mp executed
      by_cases active : held.activeRequest = some other
      · refine .inl (finished_append.mpr (.inr (.inr ?_)))
        simp [active]
      · exact unfinished found active
  | _ => cases ends

/-- A cleared request keeps no session busy that is still there. -/
theorem Consistent.cleared_idle (consistent : Consistent settings userOf store log)
    {session : SessionState} {other : SessionPtr} {result : BeginRequestResult}
    (began : .began ptr requestId result ∈ log)
    (cleared : Cleared log ptr requestId)
    (found : store.heap[other]? = some session) :
    session.activeRequest ≠ some requestId ∨ .deleted other ∈ log ∨
      .stopped ∈ log := by
  by_cases active : session.activeRequest = some requestId
  · have invariant := consistent.invariant other session found
    obtain ⟨open_, live, liveBegan, _⟩ := invariant.active requestId active
    obtain ⟨rfl, _⟩ := consistent.once _ _ _ _ _ began liveBegan
    rcases cleared with finished | expired | deleted | stopped
    · exact absurd finished open_
    · exact absurd ((invariant.reaped expired).2.symm.trans active) (by simp)
    · exact .inr (.inl deleted)
    · exact .inr (.inr stopped)
  · exact .inl active

end Clearing

section Congruence

variable {settings : Settings} {userOf other : RequestId → ChatMessage}
  {store : Store} {log : List Event} {heap : List SessionState}

theorem SessionInvariant.congr {ptr : SessionPtr} {session : SessionState}
    (holds : SessionInvariant settings userOf log ptr session)
    (agree : ∀ requestId result, .began ptr requestId result ∈ log →
      other requestId = userOf requestId) :
    SessionInvariant settings other log ptr session :=
  { holds with
    active := fun requestId active => by
      obtain ⟨open_, result, began, messages, fromUser⟩ :=
        holds.active requestId active
      rw [agree requestId result began]
      exact ⟨open_, result, began, messages, fromUser⟩ }

theorem Consistent.congr (holds : Consistent settings userOf store log)
    (agree : ∀ requestId, ¬ Unbegun log requestId →
      other requestId = userOf requestId) :
    Consistent settings other store log :=
  { holds with
    invariant := fun ptr session found =>
      (holds.invariant ptr session found).congr fun requestId result began =>
        agree requestId fun unbegun => unbegun ptr result began }

theorem Section.Sound.congr {current : Section} {begins : Option RequestId}
    (sound : current.Sound userOf begins heap log)
    (agree : ∀ requestId,
      current.begins = some requestId ∨ current.ends = some requestId →
      other requestId = userOf requestId) :
    current.Sound other begins heap log := by
  cases current with
  | enter call =>
      refine ⟨?_, sound.2⟩
      cases call with
      | beginRequest request requestId =>
          intro message member
          rw [agree requestId (.inl rfl)]
          exact sound.1 message member
      | commitResult sessionId requestId user result =>
          exact sound.1.trans (agree requestId (.inr rfl)).symm
      | commitResponseText sessionId requestId user result =>
          exact sound.1.trans (agree requestId (.inr rfl)).symm
      | _ => trivial
  | reaping now rest after =>
      refine ⟨sound.1, ?_⟩
      cases after with
      | begin sessionId user requestId =>
          exact ⟨sound.2.message.trans (agree requestId (.inl rfl)).symm,
            sound.2.fromUser, sound.2.identified⟩
      | _ => trivial
  | begin ptr sessionId user requestId =>
      exact ⟨sound.message.trans (agree requestId (.inl rfl)).symm,
        sound.fromUser, sound.identified⟩
  | commit ptr requestId user text =>
      exact sound.trans (agree requestId (.inr rfl)).symm
  | _ => exact sound

end Congruence

end ZooKeeperServer.SessionStore
