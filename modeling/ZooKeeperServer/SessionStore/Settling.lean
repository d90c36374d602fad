import ZooKeeperServer.SessionStore.Atomic
import ZooKeeperServer.SessionStore.Representation

namespace ZooKeeperServer.SessionStore

open Transition

/-! When it is settled what a call returns, and what each section of a call does to
the directory. -/

def Output.timeless : Output → Reply
  | .done => .done
  | .summary result =>
      .named (result.map fun summary => (summary.id, summary.model))
  | .deleted result => .deleted result
  | .begun result =>
      .begun (result.map fun begun => (begun.messages, begun.userMessage))

/-- What the call returns, once no other thread has a say in it. -/
def Section.settled (heap : List SessionState) : Section → Option Reply
  | .snapshot ptr =>
      heap[ptr]?.map fun session => .named (.ok (session.id, session.model))
  | .closeDeleted _ => some (.deleted (.ok ()))
  | .closeStopped _ => some .done
  | _ => none

def Progress.settled (heap : List SessionState) : Progress → Option Reply
  | .suspended current => current.settled heap
  | .returned output => some output.timeless

/-- The sessions that the call has taken out of the map and is about to close. -/
def Progress.closing : Progress → List SessionPtr
  | .suspended (.closeDeleted ptr) => [ptr]
  | .suspended (.closeStopped ptrs) => ptrs
  | _ => []

def Section.expiring (store : Store) : Section → Option StdString
  | .reaping now (entry :: _) _ =>
      match store.find entry.1 with
      | some (ptr, session) =>
          if ptr = entry.2 ∧ shouldExpire now session = true then some entry.1
          else none
      | none => none
  | _ => none

/-- The session of a request that still goes on after somebody has taken the
session out of the map. -/
def Section.strayed (store : Store) : Section → Option SessionPtr
  | .begin ptr _ _ _ => stray ptr
  | .commit ptr _ _ _ => stray ptr
  | .release ptr _ => stray ptr
  | _ => none
where
  stray (ptr : SessionPtr) : Option SessionPtr :=
    match store.heap[ptr]? with
    | some session =>
        if session.closed = false ∧ store.sessions.lookup session.id ≠ some ptr
        then some ptr
        else none
    | none => none

abbrev Placing := Slot Operation SessionPtr

/-- A call takes its place when its result is settled: at the end, or before the
call that has taken its session out of the map. -/
def place (store : Store) (index : Nat) (call : Call) (current : Section)
    (outcome : Outcome) (trace : List Placing) : List Placing :=
  match current.expiring store with
  | some sessionId => trace ++ [{ entry := (index, .expire sessionId) }]
  | none =>
      if (current.settled store.heap).isSome ∨
          (outcome.progress.settled outcome.store.heap).isNone then
        trace
      else
        match current.strayed store with
        | some ptr => insertLate ptr (index, .call call) trace
        | none =>
            trace ++
              [{ entry := (index, .call call)
                 drops := outcome.progress.closing }]

/-- The call goes on to a session that it has found under this id. -/
inductive Pursues (settings : Settings) (call : Call) (sessionId : StdString)
    (ptr : SessionPtr) : Section → Prop
  | begins {request : ChatCompletionRequest} {requestId : RequestId}
      {user : ChatMessage} (mine : call = .beginRequest request requestId)
      (accepted : validateBegin settings request = .ok (sessionId, user)) :
      Pursues settings call sessionId ptr (.begin ptr sessionId user requestId)
  | finishes {current : Section}
      (works : WorksOn ptr call sessionId current) :
      Pursues settings call sessionId ptr current

def Section.act (settings : Settings) :
    Section → Conversation → Conversation × Reply
  | .begin _ _ user requestId => Conversation.begin user requestId
  | .commit _ requestId user text =>
      Conversation.commit settings requestId user text
  | .release _ requestId => Conversation.release requestId
  | _ => fun conversation => (conversation, .done)

def Section.missing : Section → Reply
  | .begin _ sessionId _ _ => .begun (.error (unknownSessionError sessionId))
  | _ => .done

structure Acted (settings : Settings) (current : Section)
    (session updated : SessionState) (output : Output) : Prop where
  id : updated.id = session.id
  model : updated.model = session.model
  closed : updated.closed = session.closed
  opened : session.closed = false →
    (updated.conversation, output.timeless) =
      current.act settings session.conversation
  shut : session.closed = true → output.timeless = current.missing

section Acting

variable {settings : Settings} {readings : Readings} {store : Store}
  {call : Call} {sessionId : StdString} {ptr : SessionPtr} {current : Section}
  {outcome : Outcome} {directory : Directory}

theorem Pursues.perform (pursues : Pursues settings call sessionId ptr current) :
    directory.perform settings (.call call) =
      directory.update sessionId (current.act settings) current.missing := by
  cases pursues with
  | begins mine accepted =>
      subst mine
      simp only [Directory.perform, Directory.begin, accepted]
      rfl
  | finishes works =>
      cases works with
      | _ => rfl

theorem beginLocked_acted {startedAt now : Int} {user : ChatMessage}
    {requestId : RequestId} (session : SessionState) :
    Acted settings (.begin ptr sessionId user requestId) session
      (beginLocked settings startedAt now sessionId user requestId session).1
      (.begun (beginLocked settings startedAt now sessionId user requestId
        session).2) := by
  by_cases closed : session.closed = true
  · simp only [beginLocked, closed, if_true]
    exact ⟨rfl, rfl, rfl, fun opened => absurd (closed.symm.trans opened) (by simp),
      fun _ => rfl⟩
  · by_cases active : session.activeRequest.isSome = true
    · simp only [beginLocked, closed, active, Bool.false_eq_true, if_false,
        if_true]
      refine ⟨rfl, rfl, rfl, fun _ => ?_, fun shut => absurd shut closed⟩
      simp only [Section.act, Conversation.begin, SessionState.conversation,
        active, if_true]
      rfl
    · unfold beginLocked
      rw [if_neg closed, if_neg active]
      refine ⟨rfl, rfl, rfl, fun _ => ?_, fun shut => absurd shut closed⟩
      simp only [Section.act, Conversation.begin, SessionState.conversation,
        active, Bool.false_eq_true, if_false]
      rfl

theorem commitLocked_acted {now : Int} {user : ChatMessage}
    {requestId : RequestId} {text : RuntimeResult StdString}
    (session : SessionState) :
    Acted settings (.commit ptr requestId user text) session
      (commitLocked settings now requestId user text session) .done := by
  by_cases active : session.activeRequest = some requestId
  · simp only [commitLocked, active, ne_eq, not_true_eq_false, if_false]
    refine ⟨rfl, rfl, rfl, fun opened => ?_, fun _ => rfl⟩
    simp only [Section.act, Conversation.commit, SessionState.conversation,
      active, ne_eq, not_true_eq_false, if_false]
    cases text with
    | ok reply =>
        simp only [opened, Bool.false_eq_true, if_false]
        rfl
    | error error => rfl
  · rw [commitLocked_stale active]
    refine ⟨rfl, rfl, rfl, fun opened => ?_, fun _ => rfl⟩
    simp only [Section.act, Conversation.commit, SessionState.conversation,
      active, ne_eq, not_false_eq_true, if_true]
    rfl

theorem releaseLocked_acted {now : Int} {requestId : RequestId}
    (session : SessionState) :
    Acted settings (.release ptr requestId) session
      (releaseLocked settings now requestId session) .done := by
  by_cases active : session.activeRequest = some requestId
  · simp only [releaseLocked, active, ne_eq, not_true_eq_false, if_false]
    refine ⟨rfl, rfl, rfl, fun opened => ?_, fun _ => rfl⟩
    simp only [Section.act, Conversation.release, SessionState.conversation,
      active, ne_eq, not_true_eq_false, if_false]
    rfl
  · rw [releaseLocked_stale active]
    refine ⟨rfl, rfl, rfl, fun opened => ?_, fun _ => rfl⟩
    simp only [Section.act, Conversation.release, SessionState.conversation,
      active, ne_eq, not_false_eq_true, if_true]
    rfl

theorem Pursues.exec (pursues : Pursues settings call sessionId ptr current)
    (executed : current.exec settings readings store = some outcome) :
    ∃ session updated output, store.heap[ptr]? = some session ∧
      outcome.store = store.put ptr updated ∧
      outcome.progress = .returned output ∧
      Acted settings current session updated output := by
  cases pursues with
  | begins mine accepted =>
      obtain ⟨session, found, rfl⟩ := Option.map_eq_some_iff.mp executed
      exact ⟨session, _, _, found, rfl, rfl, beginLocked_acted session⟩
  | finishes works =>
      cases works with
      | release =>
          obtain ⟨session, found, rfl⟩ := Option.map_eq_some_iff.mp executed
          exact ⟨session, _, _, found, rfl, rfl, releaseLocked_acted session⟩
      | _ =>
          obtain ⟨session, found, rfl⟩ := Option.map_eq_some_iff.mp executed
          exact ⟨session, _, _, found, rfl, rfl, commitLocked_acted session⟩

end Acting

/-- The session exists, and is no longer in the map. -/
def Aside (store : Store) (ptr : SessionPtr) : Prop :=
  ptr < store.heap.length ∧ Unmapped store ptr

def AfterReap.Admitted (settings : Settings) : AfterReap → Prop
  | .create request => validateCreate settings request = .ok ()
  | .get _ => settings.config.enabled = true
  | _ => True

def Underway (settings : Settings) (store : Store) (call : Call)
    (ptr : SessionPtr) (current : Section) : Prop :=
  ∃ sessionId, Pursues settings call sessionId ptr current ∧
    Refers store.heap sessionId ptr

def Prepared (settings : Settings) (store : Store) (call : Call) :
    Progress → Prop
  | .returned _ => True
  | .suspended current =>
      match current with
      | .enter _ => True
      | .reaping _ _ after => after.Admitted settings
      | .begin ptr _ _ _ => Underway settings store call ptr current
      | .commit ptr _ _ _ => Underway settings store call ptr current
      | .release ptr _ => Underway settings store call ptr current
      | .closeDeleted ptr => Aside store ptr
      | .closeStopped ptrs => ∀ ptr ∈ ptrs, Aside store ptr
      | .snapshot ptr => ptr < store.heap.length

section Preparing

variable {settings : Settings} {readings : Readings} {store next : Store}
  {call : Call} {current : Section} {progress : Progress}
  {events : List Event} {outcome : Outcome} {ptr : SessionPtr}

theorem Effect.length_le
    (effect : Effect settings store current next progress events) :
    store.heap.length ≤ next.heap.length := by
  rcases effect.creates_or_same with ⟨_, creates⟩ | ⟨same, _⟩
  · simp [creates.heap]
  · exact same.ge

theorem lookup_erase_some {sessions : SessionMap} {removed sessionId : StdString}
    (found : (sessions.erase removed).lookup sessionId = some ptr) :
    sessionId ≠ removed ∧ sessions.lookup sessionId = some ptr := by
  by_cases same : sessionId = removed
  · subst same
    rw [AList.lookup_erase] at found
    cases found
  · rw [AList.lookup_erase_ne same] at found
    exact ⟨same, found⟩

theorem Aside.mono (aside : Aside store ptr)
    (effect : Effect settings store current next progress events) :
    Aside next ptr := by
  obtain ⟨bound, unmapped⟩ := aside
  refine ⟨bound.trans_le effect.length_le, fun sessionId found => ?_⟩
  cases effect with
  | silent heap sessions => exact unmapped sessionId (sessions ▸ found)
  | @create now request _ session shape heap sessions =>
      rw [sessions] at found
      split at found
      · exact unmapped sessionId found
      · by_cases same : sessionId = session.id
        · subst same
          rw [AList.lookup_insert] at found
          exact bound.ne (Option.some.inj found).symm
        · rw [AList.lookup_insert_ne same] at found
          exact unmapped sessionId found
  | expire at_ idle heap sessions =>
      exact unmapped sessionId (lookup_erase_some (sessions ▸ found)).2
  | erase at_ heap sessions =>
      exact unmapped sessionId (lookup_erase_some (sessions ▸ found)).2
  | dropAll dropped heap sessions => simp [sessions] at found
  | _ => exact unmapped sessionId found

theorem Underway.mono (underway : Underway settings store call ptr current)
    {acting : Section} {after : Progress}
    (effect : Effect settings store acting next after events) :
    Underway settings next call ptr current := by
  obtain ⟨sessionId, pursues, refers⟩ := underway
  exact ⟨sessionId, pursues, effect.preserves _ _ refers⟩

theorem Prepared.mono (prepared : Prepared settings store call progress)
    {acting : Section} {after : Progress}
    (effect : Effect settings store acting next after events) :
    Prepared settings next call progress := by
  cases progress with
  | returned output => trivial
  | suspended current =>
      cases current with
      | enter other => trivial
      | reaping now rest after => exact prepared
      | begin ptr sessionId user requestId => exact Underway.mono prepared effect
      | commit ptr requestId user text => exact Underway.mono prepared effect
      | release ptr requestId => exact Underway.mono prepared effect
      | closeDeleted ptr => exact Aside.mono prepared effect
      | closeStopped ptrs =>
          exact fun ptr member => (prepared ptr member).mono effect
      | snapshot ptr => exact Nat.lt_of_lt_of_le prepared effect.length_le

theorem Prepared.closes (prepared : Prepared settings store call progress) :
    ∀ ptr ∈ progress.closing, Aside store ptr := by
  intro ptr member
  cases progress with
  | returned output => cases member
  | suspended current =>
      cases current with
      | closeDeleted target =>
          obtain rfl := List.mem_singleton.mp member
          exact prepared
      | closeStopped ptrs => exact prepared ptr member
      | _ => cases member

theorem Refers.bound {heap : List SessionState} {sessionId : StdString}
    (refers : Refers heap sessionId ptr) : ptr < heap.length := by
  obtain ⟨session, found, _⟩ := refers
  obtain ⟨bound, _⟩ := List.getElem?_eq_some_iff.mp found
  exact bound

theorem WellFormed.erased {sessionId : StdString} (formed : WellFormed store)
    (entry : store.sessions.lookup sessionId = some ptr) :
    Aside { store with sessions := store.sessions.erase sessionId } ptr := by
  have refers := formed.mapped _ _ entry
  refine ⟨refers.bound, fun other again => ?_⟩
  obtain ⟨different, before⟩ := lookup_erase_some again
  obtain ⟨session, at_, named⟩ := refers
  obtain ⟨held, heldAt, other⟩ := formed.mapped _ _ before
  obtain rfl := Option.some.inj (at_.symm.trans heldAt)
  exact different (other.symm.trans named)

theorem enterCall_admitted {after : AfterReap} {rest : List SessionEntry}
    {now : Int} (reaps : Reaps settings call after)
    (executed : enterCall settings readings store call = some outcome)
    (reaping : outcome.progress = .suspended (.reaping now rest after)) :
    after.Admitted settings := by
  cases reaps with
  | reap => trivial
  | begin accepted => trivial
  | @create request =>
      simp only [enterCall] at executed
      split at executed
      · cases Option.some.inj executed
        cases reaping
      · rename_i accepted
        exact accepted
  | get =>
      simp only [enterCall] at executed
      split at executed
      · cases Option.some.inj executed
        cases reaping
      · rename_i enabled
        simpa [AfterReap.Admitted] using enabled

theorem enterCall_prepared (formed : WellFormed store)
    (executed : enterCall settings readings store call = some outcome) :
    Prepared settings outcome.store call outcome.progress := by
  cases enterCall_entered executed with
  | returns failed setsNothing => trivial
  | reaps free reaps running => exact enterCall_admitted reaps executed rfl
  | finds free found works =>
      have refers := formed.mapped _ _ found
      cases works with
      | _ => exact ⟨_, .finishes (by constructor), refers⟩
  | erases free found => exact formed.erased found
  | prompts free => trivial
  | stops free running all =>
      intro ptr member
      obtain ⟨entry, among, rfl⟩ := List.mem_map.mp member
      refine ⟨(formed.mapped.entries entry (all.mem_iff.mp among)).bound, ?_⟩
      intro sessionId found
      cases found

theorem exec_prepared (formed : WellFormed store)
    (serves : Serves settings store.heap call (.suspended current))
    (prepared : Prepared settings store call (.suspended current))
    (executed : current.exec settings readings store = some outcome) :
    Prepared settings outcome.store call outcome.progress := by
  cases current with
  | enter other =>
      obtain rfl : other = call := serves
      exact enterCall_prepared formed executed
  | reaping now rest after =>
      obtain ⟨reaps, -⟩ := serves
      cases rest with
      | nil =>
          cases leaveReaping_left executed with
          | returns failed => trivial
          | creates room =>
              simp [Prepared, emplaceSession]
          | gets found => exact (formed.mapped _ _ found).bound
          | begins found =>
              cases reaps with
              | begin accepted =>
                  exact ⟨_, .begins rfl accepted, formed.mapped _ _ found⟩
      | cons entry rest =>
          obtain ⟨session, found, rfl⟩ := Option.map_eq_some_iff.mp executed
          exact prepared
  | closeStopped rest =>
      cases rest with
      | nil =>
          cases Option.some.inj executed
          trivial
      | cons ptr rest =>
          have effect := exec_effect executed
          obtain ⟨session, found, rfl⟩ := Option.map_eq_some_iff.mp executed
          exact fun target member =>
            (prepared target (List.mem_cons_of_mem _ member)).mono effect
  | _ =>
      obtain ⟨session, found, rfl⟩ := Option.map_eq_some_iff.mp executed
      trivial

end Preparing

end ZooKeeperServer.SessionStore
