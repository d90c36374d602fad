import ZooKeeperServer.SessionStore.Ownership

namespace ZooKeeperServer.SessionStore

/-! A session that has been taken out of the map never comes back, and once it is
closed no request begins on it. -/

/-- The session has existed, and the map does not hold it. -/
def Retired (sessionId : StdString) (store : Store) : Prop :=
  (∃ ptr, Refers store.heap sessionId ptr) ∧
    store.sessions.lookup sessionId = none

def Shut (sessionId : StdString) (store : Store) : Prop :=
  ∃ (ptr : SessionPtr) (session : SessionState),
    store.heap[ptr]? = some session ∧ session.id = sessionId ∧
      session.closed = true

section Removal

variable {settings : Settings} {store next : Store} {current : Section}
  {progress : Progress} {events : List Event} {sessionId : StdString}

theorem lookup_erase_none {sessions : AList fun _ : StdString => SessionPtr}
    (absent : sessions.lookup sessionId = none) (removed : StdString) :
    (sessions.erase removed).lookup sessionId = none := by
  by_cases same : sessionId = removed
  · subst same
    exact AList.lookup_erase _ _
  · rw [AList.lookup_erase_ne same, absent]

theorem Retired.mono (retired : Retired sessionId store)
    (formed : WellFormed store)
    (effect : Effect settings store current next progress events) :
    Retired sessionId next := by
  obtain ⟨⟨ptr, refers⟩, absent⟩ := retired
  refine ⟨⟨ptr, effect.preserves _ _ refers⟩, ?_⟩
  cases effect with
  | silent heap sessions => rw [sessions, absent]
  | @create now request _ session shape heap sessions =>
      have different : sessionId ≠ session.id := by
        obtain ⟨held, found, rfl⟩ := refers
        exact shape ▸ formed.other_name found
      rw [sessions]
      split
      · exact absent
      · rw [AList.lookup_insert_ne different, absent]
  | expire found idle heap sessions =>
      rw [sessions]
      exact lookup_erase_none absent _
  | erase found heap sessions =>
      rw [sessions]
      exact lookup_erase_none absent _
  | dropAll dropped heap sessions =>
      rw [sessions]
      rfl
  | _ => exact absent

theorem Change.keeps_closed {ptr : SessionPtr} {session updated : SessionState}
    (change : Change settings ptr session updated events)
    (closed : session.closed = true) : updated.closed = true := by
  cases change with
  | begin opened idle => exact absurd (opened.symm.trans closed) (by simp)
  | commit opened active => exact absurd (opened.symm.trans closed) (by simp)
  | expire idle => rfl
  | close => rfl
  | _ => exact closed

theorem Shut.mono (shut : Shut sessionId store)
    (effect : Effect settings store current next progress events) :
    Shut sessionId next := by
  obtain ⟨ptr, session, found, named, closed⟩ := shut
  obtain ⟨updated, updatedAt, change⟩ := effect.change found
  exact ⟨ptr, updated, updatedAt, change.same_id.trans named,
    change.keeps_closed closed⟩

end Removal

end ZooKeeperServer.SessionStore
