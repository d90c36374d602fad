import ZooKeeperServer.SessionStore.Lifecycle
import ZooKeeperServer.SessionStore.System

namespace ZooKeeperServer.SessionStore

/-! Invariants of the store under concurrent callers: where a thread's section
comes from, which sessions the map holds, and who keeps a session busy. -/

theorem sessionName_injective : Function.Injective sessionName := fun _ _ same =>
  stdToString_injective (List.append_cancel_left same)

def Refers (heap : List SessionState) (id : StdString) (ptr : SessionPtr) :
    Prop :=
  ∃ session, heap[ptr]? = some session ∧ session.id = id

def Preserves (heap next : List SessionState) : Prop :=
  ∀ id ptr, Refers heap id ptr → Refers next id ptr

theorem preserves_set {heap : List SessionState} {ptr : SessionPtr}
    {session : SessionState} (updated : SessionState)
    (found : heap[ptr]? = some session)
    (sameId : updated.id = session.id) :
    Preserves heap (heap.set ptr updated) := by
  intro id other
  rintro ⟨held, heldAt, rfl⟩
  by_cases same : ptr = other
  · subst other
    cases Option.some.inj (found.symm.trans heldAt)
    obtain ⟨bound, _⟩ := List.getElem?_eq_some_iff.mp found
    exact ⟨updated, by simp [bound], sameId⟩
  · exact ⟨held, by simpa [same] using heldAt, rfl⟩

theorem preserves_append {heap : List SessionState} {session : SessionState} :
    Preserves heap (heap ++ [session]) := by
  intro id ptr
  rintro ⟨held, heldAt, rfl⟩
  obtain ⟨bound, _⟩ := List.getElem?_eq_some_iff.mp heldAt
  exact ⟨held, by rw [List.getElem?_append_left bound]; exact heldAt, rfl⟩

theorem Effect.preserves {settings : Settings} {store next : Store}
    {current : Section} {progress : Progress} {events : List Event}
    (effect : Effect settings store current next progress events) :
    Preserves store.heap next.heap := by
  cases effect with
  | silent heap => rw [heap]; exact fun _ _ refers => refers
  | create shape heap => rw [heap]; exact preserves_append
  | expire found idle heap => rw [heap]; exact preserves_set _ found rfl
  | erase found heap => rw [heap]; exact fun _ _ refers => refers
  | dropAll dropped heap => rw [heap]; exact fun _ _ refers => refers
  | close closing found => exact preserves_set _ found rfl
  | begin found opened idle => exact preserves_set _ found rfl
  | commit found opened active => exact preserves_set _ found rfl
  | release releasing found active => exact preserves_set _ found rfl

section Provenance

variable (userOf : RequestId → ChatMessage)

def Call.Honest : Call → Prop
  | .beginRequest request requestId =>
      ∀ message ∈ request.messages.head?, message = userOf requestId
  | .commitResult _ requestId user _ => user = userOf requestId
  | .commitResponseText _ requestId user _ => user = userOf requestId
  | _ => True

structure BeginsWith (begins : Option RequestId) (user : ChatMessage)
    (requestId : RequestId) : Prop where
  message : user = userOf requestId
  fromUser : user.role = .user
  identified : begins = some requestId

def AfterReap.Sound (begins : Option RequestId) : AfterReap → Prop
  | .begin _ user requestId => BeginsWith userOf begins user requestId
  | _ => True

/-- What a thread may rely on: its pointers are good, its messages are
those of its request, and whatever it is about to close has been dropped. -/
def Section.Sound (begins : Option RequestId) (heap : List SessionState)
    (log : List Event) : Section → Prop
  | .enter call => call.Honest userOf ∧ call.begins = begins
  | .reaping _ rest after =>
      (∀ entry ∈ rest, Refers heap entry.1 entry.2) ∧
        after.Sound userOf begins
  | .begin _ _ user requestId => BeginsWith userOf begins user requestId
  | .commit _ requestId user _ => user = userOf requestId
  | .closeDeleted ptr => .deleted ptr ∈ log
  | .closeStopped _ => .stopped ∈ log
  | .release _ _ => True
  | .snapshot _ => True

def Progress.Sound (begins : Option RequestId) (heap : List SessionState)
    (log : List Event) : Progress → Prop
  | .suspended next => next.Sound userOf begins heap log
  | .returned (.begun (.ok result)) =>
      ∃ ptr requestId, begins = some requestId ∧
        .began ptr requestId result ∈ log
  | .returned _ => True

variable {userOf} {begins : Option RequestId} {heap next : List SessionState}
  {log : List Event} {events : List Event}

theorem Section.Sound.mono {current : Section}
    (sound : current.Sound userOf begins heap log)
    (preserved : Preserves heap next) :
    current.Sound userOf begins next (log ++ events) := by
  cases current with
  | reaping now rest after =>
      exact ⟨fun entry member => preserved _ _ (sound.1 entry member), sound.2⟩
  | closeDeleted ptr => exact List.mem_append_left _ sound
  | closeStopped rest => exact List.mem_append_left _ sound
  | _ => exact sound

theorem Progress.Sound.failed {output : Output}
    (failed : ¬ output.Succeeds) :
    (Progress.returned output).Sound userOf begins heap log := by
  cases output with
  | begun result =>
      cases result with
      | error error => trivial
      | ok result => exact absurd trivial failed
  | _ => trivial

theorem Progress.Sound.mono {progress : Progress}
    (sound : progress.Sound userOf begins heap log)
    (preserved : Preserves heap next) :
    progress.Sound userOf begins next (log ++ events) := by
  cases progress with
  | suspended current => exact Section.Sound.mono sound preserved
  | returned output =>
      cases output with
      | begun result =>
          cases result with
          | error error => trivial
          | ok result =>
              obtain ⟨ptr, requestId, identified, began⟩ := sound
              exact ⟨ptr, requestId, identified, List.mem_append_left _ began⟩
      | _ => trivial

end Provenance

section Execution

variable {settings : Settings} {readings : Readings} {store : Store}
  {userOf : RequestId → ChatMessage} {begins : Option RequestId}
  {log : List Event} {outcome : Outcome}

def Mapped (store : Store) : Prop :=
  ∀ id ptr, store.sessions.lookup id = some ptr → Refers store.heap id ptr

theorem Mapped.entries (mapped : Mapped store) :
    ∀ entry ∈ store.sessions.entries, Refers store.heap entry.1 entry.2 := by
  intro entry member
  exact mapped entry.1 entry.2 (AList.mem_lookup_iff.mpr member)

theorem validateBegin_ok {request : ChatCompletionRequest}
    {sessionId : StdString} {user : ChatMessage}
    (accepted : validateBegin settings request = .ok (sessionId, user)) :
    request.sessionId = some sessionId ∧ request.messages = [user] ∧
      user.role = .user := by
  unfold validateBegin at accepted
  split at accepted
  · contradiction
  split at accepted
  · contradiction
  rename_i found
  split at accepted
  · contradiction
  split at accepted
  · rename_i messages
    split at accepted
    · rename_i fromUser
      cases accepted
      exact ⟨found, messages, fromUser⟩
    · contradiction
  · contradiction

theorem returns_sound {next : Store} {output : Output}
    (executed : returns next output = some outcome)
    (failed : ¬ output.Succeeds) :
    outcome.progress.Sound userOf begins outcome.store.heap
      (log ++ outcome.events) := by
  cases Option.some.inj executed
  exact .failed failed

theorem enterCall_sound {call : Call} (mapped : Mapped store)
    (honest : call.Honest userOf) (identified : call.begins = begins)
    (executed : enterCall settings readings store call = some outcome) :
    outcome.progress.Sound userOf begins outcome.store.heap
      (log ++ outcome.events) := by
  cases enterCall_entered executed with
  | returns failed setsNothing => exact .failed failed
  | reaps free reaps running all =>
      refine ⟨fun entry among => mapped.entries entry (all.mem_iff.mp among), ?_⟩
      cases reaps with
      | begin accepted =>
          obtain ⟨_, messages, fromUser⟩ := validateBegin_ok accepted
          exact ⟨honest _ (by simp [messages]), fromUser, identified.symm⟩
      | _ => trivial
  | finds free found works =>
      cases works with
      | commitResult => exact honest
      | commitResponseText => exact honest
      | release => trivial
  | erases free found =>
      exact List.mem_append_right _ (List.mem_singleton_self _)
  | prompts free => trivial
  | stops free running =>
      exact List.mem_append_right _ (List.mem_singleton_self _)

theorem leaveReaping_sound {now : Int} {after : AfterReap}
    (sound : after.Sound userOf begins)
    (executed : leaveReaping settings now store after = some outcome) :
    outcome.progress.Sound userOf begins outcome.store.heap
      (log ++ outcome.events) := by
  cases leaveReaping_left executed with
  | returns failed => exact .failed failed
  | creates room => trivial
  | gets found => trivial
  | begins found => exact sound

/-- A section leaves its thread with a section it may rely on again. -/
theorem exec_sound {current : Section} (mapped : Mapped store)
    (sound : current.Sound userOf begins store.heap log)
    (executed : current.exec settings readings store = some outcome) :
    outcome.progress.Sound userOf begins outcome.store.heap
      (log ++ outcome.events) := by
  have preserved := (exec_effect executed).preserves
  cases current with
  | enter call => exact enterCall_sound mapped sound.1 sound.2 executed
  | reaping now rest after =>
      cases rest with
      | nil => exact leaveReaping_sound sound.2 executed
      | cons entry rest =>
          obtain ⟨session, found, rfl⟩ := Option.map_eq_some_iff.mp executed
          exact ⟨fun other member =>
            preserved _ _ (sound.1 other (List.mem_cons_of_mem _ member)), sound.2⟩
  | closeStopped rest =>
      cases rest with
      | nil => exact returns_sound executed id
      | cons ptr rest =>
          obtain ⟨session, found, rfl⟩ := Option.map_eq_some_iff.mp executed
          exact List.mem_append_left _ sound
  | begin ptr sessionId user requestId =>
      obtain ⟨session, found, rfl⟩ := Option.map_eq_some_iff.mp executed
      generalize beginLocked settings readings.first readings.second sessionId
        user requestId session = locked
      obtain ⟨updated, result⟩ := locked
      cases result with
      | error error => trivial
      | ok result =>
          exact ⟨ptr, requestId, sound.identified,
            List.mem_append_right _ (List.mem_singleton_self _)⟩
  | commit ptr requestId user text =>
      obtain ⟨session, found, rfl⟩ := Option.map_eq_some_iff.mp executed
      trivial
  | release ptr requestId =>
      obtain ⟨session, found, rfl⟩ := Option.map_eq_some_iff.mp executed
      trivial
  | closeDeleted ptr =>
      obtain ⟨session, found, rfl⟩ := Option.map_eq_some_iff.mp executed
      trivial
  | snapshot ptr =>
      obtain ⟨session, found, rfl⟩ := Option.map_eq_some_iff.mp executed
      trivial

end Execution

section Sessions

variable {settings : Settings} {store next : Store} {current : Section}
  {progress : Progress} {events : List Event}

theorem change_set {ptr other : SessionPtr} {session updated : SessionState}
    {held : SessionState} (found : store.heap[ptr]? = some session)
    (heldAt : store.heap[other]? = some held)
    (change : Change settings ptr session updated events)
    (subject : ∀ event ∈ events, ∀ changed, event.changes = some changed →
      changed = ptr) :
    ∃ after, (store.heap.set ptr updated)[other]? = some after ∧
      Change settings other held after events := by
  by_cases same : ptr = other
  · subst other
    obtain rfl := Option.some.inj (found.symm.trans heldAt)
    obtain ⟨bound, _⟩ := List.getElem?_eq_some_iff.mp found
    exact ⟨updated, by simp [bound], change⟩
  · refine ⟨held, by simpa [same] using heldAt, .stay ?_⟩
    intro event member changes
    exact same (subject event member other changes).symm

/-- Seen from one session, a section is one of the session's own changes. -/
theorem Effect.change {ptr : SessionPtr} {session : SessionState}
    (effect : Effect settings store current next progress events)
    (found : store.heap[ptr]? = some session) :
    ∃ updated, next.heap[ptr]? = some updated ∧
      Change settings ptr session updated events := by
  cases effect with
  | silent heap => exact ⟨session, heap ▸ found, .stay (by simp)⟩
  | create shape heap =>
      obtain ⟨bound, _⟩ := List.getElem?_eq_some_iff.mp found
      refine ⟨session, ?_, .stay ?_⟩
      · rw [heap, List.getElem?_append_left bound, found]
      · simpa [Event.changes] using bound.ne'
  | expire at_ idle heap =>
      rw [heap]
      exact change_set at_ found (.expire idle) (by simp [Event.changes])
  | erase at_ heap =>
      exact ⟨session, heap ▸ found, .stay (by simp [Event.changes])⟩
  | dropAll dropped heap =>
      exact ⟨session, heap ▸ found, .stay (by simp [Event.changes])⟩
  | close closing at_ => exact change_set at_ found .close (by simp)
  | begin at_ opened idle =>
      exact change_set at_ found (.begin opened idle) (by simp [Event.changes])
  | commit at_ opened active =>
      exact change_set at_ found (.commit opened active)
        (by simp [Event.changes])
  | release releasing at_ active =>
      exact change_set at_ found (.release active) (by simp [Event.changes])

structure Creates (settings : Settings) (store next : Store)
    (events : List Event) (session : SessionState) : Prop where
  counter : next.nextSessionId = store.nextSessionId + 1
  heap : next.heap = store.heap ++ [session]
  sessions : next.sessions =
    if session.id ∈ store.sessions then store.sessions
    else store.sessions.insert session.id store.heap.length
  shape : ∃ now request, session = freshSession settings now request store ∧
    events = [.created store.heap.length store.baseSystemPrompt
      request.systemPrompt]

theorem Effect.creates_or_same
    (effect : Effect settings store current next progress events) :
    (∃ session, Creates settings store next events session) ∨
      (next.heap.length = store.heap.length ∧
        next.nextSessionId = store.nextSessionId ∧
        ∀ event ∈ events, ∀ ptr, event.changes = some ptr →
          ptr < store.heap.length) := by
  have within {ptr : SessionPtr} {session : SessionState}
      (found : store.heap[ptr]? = some session) : ptr < store.heap.length :=
    (List.getElem?_eq_some_iff.mp found).1
  cases effect with
  | silent heap sessions counter => exact .inr ⟨heap ▸ rfl, counter, by simp⟩
  | create shape heap sessions counter =>
      exact .inl ⟨_, counter, heap, sessions, _, _, shape, rfl⟩
  | expire found idle heap sessions counter =>
      exact .inr ⟨by simp [heap], counter, by simpa [Event.changes] using within found⟩
  | erase found heap sessions counter =>
      exact .inr ⟨heap ▸ rfl, counter, by simp [Event.changes]⟩
  | dropAll dropped heap sessions counter =>
      exact .inr ⟨heap ▸ rfl, counter, by simp [Event.changes]⟩
  | close closing found => exact .inr ⟨by simp, rfl, by simp⟩
  | begin found opened idle =>
      exact .inr ⟨by simp, rfl, by simpa [Event.changes] using within found⟩
  | commit found opened active =>
      exact .inr ⟨by simp, rfl, by simpa [Event.changes] using within found⟩
  | release releasing found active =>
      exact .inr ⟨by simp, rfl, by simpa [Event.changes] using within found⟩

theorem Effect.origin {ptr : SessionPtr} {updated : SessionState}
    (effect : Effect settings store current next progress events)
    (found : next.heap[ptr]? = some updated) :
    (∃ session, store.heap[ptr]? = some session ∧
        Change settings ptr session updated events) ∨
      (ptr = store.heap.length ∧ Creates settings store next events updated) := by
  by_cases before : ptr < store.heap.length
  · obtain ⟨after, afterAt, change⟩ :=
      effect.change (List.getElem?_eq_getElem before)
    obtain rfl := Option.some.inj (afterAt.symm.trans found)
    exact .inl ⟨_, List.getElem?_eq_getElem before, change⟩
  · obtain ⟨bound, _⟩ := List.getElem?_eq_some_iff.mp found
    rcases effect.creates_or_same with ⟨session, creates⟩ | ⟨length, _⟩
    · simp only [creates.heap, List.length_append, List.length_singleton]
        at bound
      have last : ptr = store.heap.length :=
        Nat.le_antisymm (Nat.le_of_lt_succ bound) (Nat.le_of_not_lt before)
      subst last
      have same : session = updated := by
        simpa [creates.heap] using found
      exact .inr ⟨rfl, same ▸ creates⟩
    · exact absurd (length ▸ bound) before

theorem Change.same_id {ptr : SessionPtr} {session updated : SessionState}
    (change : Change settings ptr session updated events) :
    updated.id = session.id := by
  cases change <;> rfl

end Sessions

def Dropped (log : List Event) (ptr : SessionPtr) : Prop :=
  .expired ptr ∈ log ∨ .deleted ptr ∈ log ∨ .stopped ∈ log

/-- The map holds the session, and nobody has closed it. -/
def Stored (store : Store) (ptr : SessionPtr) (session : SessionState) : Prop :=
  store.sessions.lookup session.id = some ptr ∧ session.closed = false

/-- Sessions are numbered as they are made, and the map holds them by name. -/
structure WellFormed (store : Store) : Prop where
  counter : store.nextSessionId = store.heap.length + 1
  named : ∀ (ptr : SessionPtr) session, store.heap[ptr]? = some session →
    session.id = sessionName (ptr + 1)
  mapped : Mapped store

structure Consistent (settings : Settings) (userOf : RequestId → ChatMessage)
    (store : Store) (log : List Event) : Prop extends WellFormed store where
  changed : ∀ event ∈ log, ∀ ptr, event.changes = some ptr →
    ptr < store.heap.length
  created : ∀ ptr < store.heap.length, ∃ basePrompt requestPrompt,
    .created ptr basePrompt requestPrompt ∈ log
  invariant : ∀ ptr session, store.heap[ptr]? = some session →
    SessionInvariant settings userOf log ptr session
  stored : ∀ ptr session, store.heap[ptr]? = some session →
    Stored store ptr session ∨ Dropped log ptr
  once : ∀ ptr other requestId result second,
    .began ptr requestId result ∈ log → .began other requestId second ∈ log →
    ptr = other ∧ result = second

section Consistency

variable {settings : Settings} {userOf : RequestId → ChatMessage}
  {begins : Option RequestId} {store next : Store} {log : List Event}
  {current : Section} {progress : Progress} {events : List Event}

theorem initialStore_wellFormed (basePrompt : StdString) :
    WellFormed (initialStore basePrompt) where
  counter := rfl
  named := by simp [initialStore]
  mapped := by simp [Mapped, initialStore]

theorem initialStore_consistent (basePrompt : StdString) :
    Consistent settings userOf (initialStore basePrompt) [] where
  toWellFormed := initialStore_wellFormed basePrompt
  changed := by simp
  created := by simp [initialStore]
  invariant := by simp [initialStore]
  stored := by simp [initialStore]
  once := by simp

theorem Dropped.before {ptr : SessionPtr} (dropped : Dropped log ptr) :
    Dropped (log ++ events) ptr := by
  unfold Dropped at *
  simp only [List.mem_append]
  tauto

theorem Dropped.after {ptr : SessionPtr} (dropped : Dropped events ptr) :
    Dropped (log ++ events) ptr := by
  unfold Dropped at *
  simp only [List.mem_append]
  tauto

theorem WellFormed.unique {ptr other : SessionPtr}
    {session held : SessionState} (formed : WellFormed store)
    (found : store.heap[ptr]? = some session)
    (heldAt : store.heap[other]? = some held) (same : held.id = session.id) :
    other = ptr := by
  rw [formed.named ptr session found, formed.named other held heldAt]
    at same
  exact Nat.succ.inj (sessionName_injective same)

theorem WellFormed.other_name {now : Int} {request : SessionCreateRequest}
    {ptr : SessionPtr} {session : SessionState} (formed : WellFormed store)
    (found : store.heap[ptr]? = some session) :
    session.id ≠ (freshSession settings now request store).id := by
  intro same
  obtain ⟨bound, _⟩ := List.getElem?_eq_some_iff.mp found
  have index : ptr + 1 = store.nextSessionId :=
    sessionName_injective ((formed.named ptr session found).symm.trans same)
  exact bound.ne (Nat.succ.inj (index.trans formed.counter))

theorem WellFormed.fresh_name {now : Int} {request : SessionCreateRequest}
    (formed : WellFormed store) :
    (freshSession settings now request store).id ∉ store.sessions := by
  intro member
  obtain ⟨ptr, found⟩ := Option.isSome_iff_exists.mp
    (AList.lookup_isSome.mpr member)
  obtain ⟨session, sessionAt, id⟩ := formed.mapped _ _ found
  exact formed.other_name sessionAt id

theorem Effect.begin_fresh {ptr : SessionPtr} {requestId : RequestId}
    {result : BeginRequestResult}
    (effect : Effect settings store current next progress events)
    (sound : current.Sound userOf begins store.heap log)
    (unbegun : ∀ requestId, begins = some requestId → ∀ ptr result,
      .began ptr requestId result ∉ log)
    (began : .began ptr requestId result ∈ events) :
    FreshBegin userOf log requestId result.userMessage := by
  cases effect with
  | begin found opened idle =>
      cases List.mem_singleton.mp began
      exact ⟨sound.message, sound.fromUser, unbegun requestId sound.identified⟩
  | _ => simp at began

theorem Effect.commit_own {ptr : SessionPtr} {requestId : RequestId}
    {turn : Turn} (effect : Effect settings store current next progress events)
    (sound : current.Sound userOf begins store.heap log)
    (committed : .committed ptr requestId turn ∈ events) :
    turn.user = userOf requestId := by
  cases effect with
  | commit found opened active =>
      cases List.mem_singleton.mp committed
      exact sound
  | _ => simp at committed

theorem Effect.mapped (formed : WellFormed store)
    (effect : Effect settings store current next progress events) :
    Mapped next := by
  have refers {id : StdString} {ptr : SessionPtr}
      (found : store.sessions.lookup id = some ptr) :
      Refers next.heap id ptr :=
    effect.preserves id ptr (formed.mapped id ptr found)
  have erased {removed id : StdString} {ptr : SessionPtr}
      (found : (store.sessions.erase removed).lookup id = some ptr) :
      Refers next.heap id ptr := by
    by_cases same : id = removed
    · subst same
      rw [AList.lookup_erase] at found
      cases found
    · rw [AList.lookup_erase_ne same] at found
      exact refers found
  intro id ptr found
  cases effect with
  | silent heap sessions => exact refers (sessions ▸ found)
  | @create now request _ session shape heap sessions counter =>
      by_cases held : session.id ∈ store.sessions
      · rw [sessions, if_pos held] at found
        exact refers found
      · rw [sessions, if_neg held] at found
        by_cases same : id = session.id
        · subst same
          rw [AList.lookup_insert] at found
          cases Option.some.inj found
          exact ⟨session, by simp [heap], rfl⟩
        · rw [AList.lookup_insert_ne same] at found
          exact refers found
  | expire at_ idle heap sessions => exact erased (sessions ▸ found)
  | erase at_ heap sessions => exact erased (sessions ▸ found)
  | dropAll dropped heap sessions => simp [sessions] at found
  | _ => exact refers found

theorem Effect.wellFormed (formed : WellFormed store)
    (effect : Effect settings store current next progress events) :
    WellFormed next where
  counter := by
    rcases effect.creates_or_same with ⟨_, creates⟩ | ⟨same, counter, _⟩
    · simp [creates.counter, creates.heap, formed.counter]
    · rw [counter, same, formed.counter]
  named := by
    intro ptr updated found
    rcases effect.origin found with ⟨session, before, change⟩ | ⟨rfl, creates⟩
    · rw [change.same_id, formed.named ptr session before]
    · obtain ⟨now, request, rfl, _⟩ := creates.shape
      exact congrArg sessionName formed.counter
  mapped := effect.mapped formed

theorem Effect.keeps_entry {ptr : SessionPtr} {session : SessionState}
    (formed : WellFormed store)
    (effect : Effect settings store current next progress events)
    (sound : current.Sound userOf begins store.heap log)
    (found : store.heap[ptr]? = some session)
    (entry : store.sessions.lookup session.id = some ptr) :
    next.sessions.lookup session.id = some ptr ∨ Dropped events ptr := by
  cases effect with
  | silent heap sessions => exact .inl (sessions ▸ entry)
  | @create now request _ created shape heap sessions counter =>
      by_cases held : created.id ∈ store.sessions
      · exact .inl (by rw [sessions, if_pos held, entry])
      · refine .inl ?_
        rw [sessions, if_neg held, AList.lookup_insert_ne, entry]
        intro same
        exact held (same ▸ AList.lookup_isSome.mp (by simp [entry]))
  | @expire now removed rest after expired _ at_ idle heap sessions counter =>
      by_cases same : session.id = removed.1
      · obtain ⟨target, targetAt, id⟩ := sound.1 removed (by simp)
        have here : removed.2 = ptr :=
          formed.unique found targetAt (id.trans same.symm)
        exact .inr (.inl (by simp [here]))
      · exact .inl (by rw [sessions, AList.lookup_erase_ne same, entry])
  | @erase removed target _ at_ heap sessions counter =>
      by_cases same : session.id = removed
      · have here : ptr = target :=
          Option.some.inj (entry.symm.trans (same ▸ at_))
        exact .inr (.inr (.inl (by simp [here])))
      · exact .inl (by rw [sessions, AList.lookup_erase_ne same, entry])
  | dropAll dropped heap sessions => exact .inr (.inr (.inr (by simp)))
  | _ => exact .inl entry

theorem Effect.keeps_open {ptr : SessionPtr} {session updated : SessionState}
    (effect : Effect settings store current next progress events)
    (sound : current.Sound userOf begins store.heap log)
    (found : store.heap[ptr]? = some session)
    (opened : session.closed = false)
    (after : next.heap[ptr]? = some updated) :
    updated.closed = false ∨ Dropped (log ++ events) ptr := by
  obtain ⟨other, otherAt, change⟩ := effect.change found
  obtain rfl := Option.some.inj (after.symm.trans otherAt)
  cases change with
  | stay elsewhere => exact .inl opened
  | expire idle => exact .inr (.inl (by simp))
  | begin => exact .inl opened
  | commit => exact .inl opened
  | release => exact .inl opened
  | close =>
      cases effect with
      | silent heap =>
          rw [heap, found] at after
          exact .inl ((Option.some.inj after) ▸ opened)
      | @close _ target progress held closing at_ =>
          by_cases same : target = ptr
          · subst same
            rcases closing with rfl | ⟨rest, rfl⟩
            · exact .inr (.inr (.inl (List.mem_append_left _ sound)))
            · exact .inr (.inr (.inr (List.mem_append_left _ sound)))
          · rw [store.put_heap_other _ same, found] at after
            exact .inl ((Option.some.inj after) ▸ opened)

theorem Effect.stored {ptr : SessionPtr} {updated : SessionState}
    (consistent : Consistent settings userOf store log)
    (effect : Effect settings store current next progress events)
    (sound : current.Sound userOf begins store.heap log)
    (after : next.heap[ptr]? = some updated) :
    Stored next ptr updated ∨ Dropped (log ++ events) ptr := by
  rcases effect.origin after with ⟨session, found, change⟩ | ⟨rfl, creates⟩
  · rcases consistent.stored ptr session found with ⟨entry, opened⟩ | dropped
    · rcases effect.keeps_entry consistent.toWellFormed sound found entry with kept | dropped
      · rcases effect.keeps_open sound found opened after with still | dropped
        · exact .inl ⟨change.same_id ▸ kept, still⟩
        · exact .inr dropped
      · exact .inr dropped.after
    · exact .inr dropped.before
  · obtain ⟨now, request, rfl, _⟩ := creates.shape
    refine .inl ⟨?_, rfl⟩
    rw [creates.sessions, if_neg consistent.toWellFormed.fresh_name, AList.lookup_insert]

/-- A section of a thread with a sound next section keeps the store consistent,
provided it does not begin a request twice. -/
theorem Effect.consistent (holds : Consistent settings userOf store log)
    (effect : Effect settings store current next progress events)
    (sound : current.Sound userOf begins store.heap log)
    (unbegun : ∀ requestId, begins = some requestId → ∀ ptr result,
      .began ptr requestId result ∉ log) :
    Consistent settings userOf next (log ++ events) := by
  have fresh {ptr : SessionPtr} {requestId : RequestId}
      {result : BeginRequestResult}
      (began : .began ptr requestId result ∈ events) :=
    effect.begin_fresh sound unbegun began
  have once {ptr other : SessionPtr} {requestId : RequestId}
      {result second : BeginRequestResult}
      (first : .began ptr requestId result ∈ events)
      (again : .began other requestId second ∈ events) :
      ptr = other ∧ result = second := by
    cases effect with
    | begin found opened idle =>
        cases List.mem_singleton.mp first
        cases List.mem_singleton.mp again
        exact ⟨rfl, rfl⟩
    | _ => simp at first
  have length : store.heap.length ≤ next.heap.length := by
    rcases effect.creates_or_same with ⟨_, creates⟩ | ⟨same, _⟩
    · simp [creates.heap]
    · exact same.ge
  refine
    { toWellFormed := effect.wellFormed holds.toWellFormed
      changed := fun event member ptr changes => ?_
      created := fun ptr bound => ?_
      invariant := fun ptr updated found => ?_
      stored := fun ptr updated found => effect.stored holds sound found
      once := fun ptr other requestId result second first again => ?_ }
  · rcases List.mem_append.mp member with earlier | later
    · exact (holds.changed event earlier ptr changes).trans_le length
    · rcases effect.creates_or_same with ⟨_, creates⟩ | ⟨same, _, within⟩
      · obtain ⟨now, request, _, rfl⟩ := creates.shape
        cases List.mem_singleton.mp later
        cases changes
        simp [creates.heap]
      · exact same ▸ within event later ptr changes
  · by_cases before : ptr < store.heap.length
    · obtain ⟨base, prompt, member⟩ := holds.created ptr before
      exact ⟨base, prompt, List.mem_append_left _ member⟩
    · rcases effect.creates_or_same with ⟨_, creates⟩ | ⟨same, _⟩
      · obtain ⟨now, request, _, rfl⟩ := creates.shape
        have last : ptr = store.heap.length :=
          Nat.le_antisymm (Nat.le_of_lt_succ (by simpa [creates.heap] using bound))
            (Nat.le_of_not_lt before)
        subst last
        exact ⟨_, _, List.mem_append_right _ (List.mem_singleton_self _)⟩
      · exact absurd (same ▸ bound) before
  · rcases effect.origin found with ⟨session, before, change⟩ | ⟨rfl, creates⟩
    · exact change.invariant (holds.invariant ptr session before)
        (fun _ _ began => fresh began)
        (fun _ _ committed => effect.commit_own sound committed)
    · obtain ⟨now, request, rfl, rfl⟩ := creates.shape
      refine SessionInvariant.fresh (fun event member changes => ?_) rfl rfl
      exact (holds.changed event member _ changes).ne rfl
  · rcases List.mem_append.mp first with earlier | later
    · rcases List.mem_append.mp again with before | after
      · exact holds.once ptr other requestId result second earlier before
      · exact absurd earlier ((fresh after).unused ptr result)
    · rcases List.mem_append.mp again with before | after
      · exact absurd before ((fresh later).unused other second)
      · exact once later after

end Consistency

end ZooKeeperServer.SessionStore
