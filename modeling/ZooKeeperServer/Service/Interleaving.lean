import ZooKeeperServer.Service.Provenance

namespace ZooKeeperServer.Service

open SessionStore Transition

/-! The invariant of the service over every interleaving: each kind of turn
restores what its own actor promises, and guarantees the rest. -/

/-- `userOf` is the user message of the session request with a tracking id. -/
def Held (config : Configuration) (userOf : RequestId → ChatMessage)
    (service : ChatService) : Prop :=
  service.Keeps (fun core => Sane userOf core config.sessions)
    (fun core actor => actor.Sound userOf core) Apart

section Frames

variable {config : Configuration} {readings : Readings} {core after : Core}

@[simp] theorem setHistory_store (messages : List ChatMessage) :
    (core.setHistory messages).store = core.store := rfl

@[simp] theorem setHistory_log (messages : List ChatMessage) :
    (core.setHistory messages).log = core.log := rfl

@[simp] theorem setHistory_nextCompletionId (messages : List ChatMessage) :
    (core.setHistory messages).nextCompletionId = core.nextCompletionId := rfl

/-- The part of the shared state that session requests are about is the same. -/
structure Unchanged (core after : Core) : Prop where
  store : after.store = core.store
  log : after.log = core.log
  counter : after.nextCompletionId = core.nextCompletionId
  tracked : after.activeSessionRequests = core.activeSessionRequests
  registered : after.publicRequestCancellers = core.publicRequestCancellers
  released : after.releaseActions = core.releaseActions
  cancelled : core.cancelled ⊆ after.cancelled

theorem history_sets {call updated : HistoryCall}
    (stepped : call.step config core = some (after, updated)) :
    after = core ∨ ∃ messages, after = core.setHistory messages := by
  cases call with
  | entered request =>
      cases request with
      | get =>
          cases Option.some.inj stepped
          exact .inl rfl
      | append message =>
          simp only [HistoryCall.step] at stepped
          split at stepped
          · cases Option.some.inj stepped
            exact .inl rfl
          · cases Option.some.inj stepped
            exact .inr ⟨_, rfl⟩
      | _ =>
          cases Option.some.inj stepped
          exact .inr ⟨_, rfl⟩
  | reading =>
      cases Option.some.inj stepped
      exact .inl rfl
  | returned result => cases stepped

theorem history_unchanged {call updated : HistoryCall}
    (stepped : call.step config core = some (after, updated)) :
    Unchanged core after := by
  rcases history_sets stepped with rfl | ⟨messages, rfl⟩
  · exact ⟨rfl, rfl, rfl, rfl, rfl, rfl, .refl _⟩
  · exact ⟨rfl, rfl, rfl, rfl, rfl, rfl, .refl _⟩

theorem cancellation_calls {call updated : Cancellation}
    (stepped : call.step core = some (after, updated)) :
    after = core ∨ ∃ zooRequestId,
      after = { core with cancelled := core.cancelled ++ [zooRequestId] } := by
  cases call with
  | looking requestId =>
      simp only [Cancellation.step] at stepped
      split at stepped
      · cases Option.some.inj stepped
        exact .inl rfl
      · cases Option.some.inj stepped
        exact .inl rfl
  | cancelling requestId zooRequestId =>
      cases Option.some.inj stepped
      exact .inr ⟨zooRequestId, rfl⟩
  | returned requestId result => cases stepped

theorem cancellation_unchanged {call updated : Cancellation}
    (stepped : call.step core = some (after, updated)) :
    Unchanged core after := by
  rcases cancellation_calls stepped with rfl | ⟨zooRequestId, rfl⟩
  · exact ⟨rfl, rfl, rfl, rfl, rfl, rfl, .refl _⟩
  · exact ⟨rfl, rfl, rfl, rfl, rfl, rfl, List.subset_append_left _ _⟩

theorem prompt_cases {call updated : PromptCall}
    (stepped : call.step config readings core = some (after, updated)) :
    Unchanged core after ∨ ∃ prompt middle progress,
      core.execute config readings (.enter (.setBaseSystemPrompt prompt)) =
        some (middle, progress) ∧ Unchanged middle after := by
  cases call with
  | updating prompt =>
      cases Option.some.inj stepped
      exact .inl ⟨rfl, rfl, rfl, rfl, rfl, rfl, .refl _⟩
  | givingAgent prompt update =>
      cases Option.some.inj stepped
      exact .inl ⟨rfl, rfl, rfl, rfl, rfl, rfl, .refl _⟩
  | givingStore prompt update =>
      obtain ⟨⟨middle, progress⟩, executed, same⟩ :=
        Option.map_eq_some_iff.mp stepped
      cases same
      exact .inr ⟨prompt, middle, progress, executed,
        ⟨rfl, rfl, rfl, rfl, rfl, rfl, .refl _⟩⟩
  | returned prompt => cases stepped

structure StoreOnly (core after : Core) : Prop where
  counter : after.nextCompletionId = core.nextCompletionId
  tracked : after.activeSessionRequests = core.activeSessionRequests
  registered : after.publicRequestCancellers = core.publicRequestCancellers
  released : after.releaseActions = core.releaseActions
  cancelled : after.cancelled = core.cancelled

theorem execute_storeOnly {current : Section} {progress : Progress}
    (executed : core.execute config readings current = some (after, progress)) :
    StoreOnly core after := by
  obtain ⟨outcome, ran, rfl, rfl⟩ := execute_outcome executed
  exact ⟨rfl, rfl, rfl, rfl, rfl⟩

variable (config core) in
inductive Touches : Actor → Input → Core → Actor → Prop
  | nothing {actor updated : Actor} {input : Input} {after : Core}
      (unchanged : Unchanged core after) : Touches actor input after updated
  | store {actor updated : Actor} {input : Input} {readings : Readings}
      {current : Section} {progress : Progress} {middle after : Core}
      (executed : core.execute config readings current =
        some (middle, progress))
      (unchanged : Unchanged middle after) : Touches actor input after updated
  | number {actor updated : Actor} {input : Input} :
      Touches actor input
        { core with nextCompletionId := core.nextCompletionId + 1 } updated
  | track {request : Request} {updated : Actor} {sessionId : StdString}
      {begin : BeginRequestResult} {zooRequestId : ZooRequestId} {now : Int}
      (at_ : request.phase = .wrapped (.session sessionId begin) zooRequestId) :
      Touches (.request request) (.advance (.track now))
        { core with
          activeSessionRequests :=
            core.activeSessionRequests.insert sessionId zooRequestId } updated
  | register {request updated : Request} {pending : Pending}
      {trackingId : RequestId}
      (at_ : updated.phase = .pending pending)
      (drew : request.trackingId = some trackingId)
      (named : pending.id = request.start.publicId trackingId) :
      Touches (.request request) (.advance .register)
        { core with
          publicRequestCancellers :=
            core.publicRequestCancellers.insert pending.id
              pending.zooRequestId } (.request updated)
  | untrack {request : Request} {updated : Actor} {pending : Pending}
      {sessionId : StdString} {begin : BeginRequestResult} {copy : Nat}
      {readings : Readings} {alive : Bool} {rest : List Operation}
      (at_ : request.phase = .pending pending)
      (copyAt : pending.copies[copy]? =
        some ⟨alive, .untrackSessionRequest :: rest⟩)
      (target : pending.target = .session sessionId begin) :
      Touches (.request request) (.consume copy (.proceed readings))
        { core with
          activeSessionRequests := core.activeSessionRequests.erase sessionId }
        updated
  | unregister {request : Request} {updated : Actor} {pending : Pending}
      {trackingId : RequestId} {copy : Nat} {readings : Readings}
      (at_ : request.phase = .pending pending)
      (drew : request.trackingId = some trackingId) :
      Touches (.request request) (.consume copy (.proceed readings))
        { core with
          publicRequestCancellers :=
            core.publicRequestCancellers.erase pending.id } updated
  | release {request : Request} {updated : Actor} {trackingId : RequestId}
      {copy : Nat} {readings : Readings}
      (drew : request.trackingId = some trackingId) :
      Touches (.request request) (.consume copy (.proceed readings))
        { core with releaseActions := core.releaseActions ++ [trackingId] }
        updated
  | erase {sessionId : StdString} {updated : Actor} {readings : Readings} :
      Touches (.deletion (.erasing sessionId)) (.run readings)
        { core with
          activeSessionRequests := core.activeSessionRequests.erase sessionId }
        updated
  | cancel {sessionId : StdString} {updated : Actor} {readings : Readings}
      {zooRequestId : ZooRequestId} :
      Touches (.deletion (.cancelling sessionId zooRequestId)) (.run readings)
        { core with cancelled := core.cancelled ++ [zooRequestId] } updated

theorem Turn.touches {actor updated : Actor} {input : Input}
    (turn : Turn config core actor input after updated) :
    Touches config core actor input after updated := by
  have same {other : Core} : Unchanged other other :=
    ⟨rfl, rfl, rfl, rfl, rfl, rfl, .refl _⟩
  cases turn with
  | advance advanced =>
      cases advanced with
      | beginRequest at_ session executed proceeds => exact .store executed same
      | track at_ => exact .track at_
      | number at_ sessionless => exact .number
      | @register target zooRequestId created trackingId at_ drew =>
          exact @Touches.register config core _ _
            (makePending config _ trackingId target zooRequestId created)
            trackingId rfl drew rfl
      | _ => exact .nothing same
  | consume at_ drew consumed =>
      cases consumed with
      | proceed copyAt operated =>
          cases operated with
          | untrack target => exact .untrack at_ copyAt target
          | storeProceeds executed => exact .store executed same
          | storeReturns executed => exact .store executed same
          | appendTurn =>
              exact .nothing ⟨rfl, rfl, rfl, rfl, rfl, rfl, .refl _⟩
          | unregister => exact .unregister at_ drew
          | releaseInner target fresh => exact .release drew
          | _ => exact .nothing same
      | _ => exact .nothing same
  | deletion deleting =>
      cases deleting with
      | proceeds executed => exact .store executed same
      | fails executed => exact .store executed same
      | removed executed => exact .store executed same
      | untracked absent => exact .nothing same
      | erase found => exact .erase
      | cancel => exact .cancel
  | cancellation stepped => exact .nothing (cancellation_unchanged stepped)
  | history stepped => exact .nothing (history_unchanged stepped)
  | prompt stepped =>
      rcases prompt_cases stepped with unchanged |
        ⟨prompt, middle, progress, executed, unchanged⟩
      · exact .nothing unchanged
      · exact .store executed unchanged
  | caller executed => exact .store executed same

theorem Unchanged.guarantees {actor : Option RequestId}
    (unchanged : Unchanged core after) : Guarantees actor core after :=
  .idle (congrArg Store.heap unchanged.store) unchanged.counter.ge unchanged.log

end Frames

section Guaranteeing

variable {config : Configuration} {readings : Readings}
  {userOf : RequestId → ChatMessage} {core after : Core}

theorem neutral_guarantees {current : Section} {progress : Progress}
    {actor : Option RequestId}
    (executed : core.execute config readings current = some (after, progress))
    (neutral : Neutral current) : Guarantees actor core after :=
  execute_guarantees executed
    (fun _ begins => absurd (neutral.1.symm.trans begins) (by simp))
    (fun _ ends => absurd (neutral.2.symm.trans ends) (by simp))

theorem Ending.guarantees {trackingId : RequestId} {sessionId : StdString}
    {current : Section} {progress : Progress}
    (ending : Ending userOf core trackingId sessionId current)
    (executed : core.execute config readings current = some (after, progress)) :
    Guarantees (some trackingId) core after :=
  execute_guarantees executed
    (fun _ begins => absurd (ending.begins.symm.trans begins) (by simp))
    (fun _ ends => ending.ends.symm.trans ends)

theorem Opening.guarantees {request : Request} {trackingId : RequestId}
    {sessionId : StdString} {current : Section} {progress : Progress}
    (opening : Opening userOf core request current trackingId sessionId)
    (executed : core.execute config readings current = some (after, progress)) :
    Guarantees (some trackingId) core after :=
  execute_guarantees executed
    (fun _ begins => opening.begins.symm.trans begins)
    (fun _ ends => absurd (opening.ends.symm.trans ends) (by simp))

theorem Advanced.guarantees {request updated : Request} {input : Advance}
    (sound : request.Sound userOf core)
    (advanced : Advanced config core request input after updated) :
    Guarantees request.trackingId core after := by
  cases advanced with
  | beginRequest at_ session executed proceeds =>
      have held := sound.2
      rw [at_] at held
      obtain ⟨trackingId, sessionId, opening⟩ := held
      rw [opening.drawn]
      exact opening.guarantees executed
  | number at_ sessionless => exact .idle rfl (Nat.le_succ _) rfl
  | _ => exact .idle rfl le_rfl rfl

theorem Operated.guarantees {trackingId : RequestId}
    {pending updated : Pending} {operation : Operation}
    {called : List Operation}
    (stores : ∀ current, operation = .store current →
      ∃ sessionId, Ending userOf core trackingId sessionId current)
    (operated : Operated config readings core trackingId pending operation after
      updated called) : Guarantees (some trackingId) core after := by
  cases operated with
  | storeProceeds executed =>
      obtain ⟨sessionId, ending⟩ := stores _ rfl
      exact ending.guarantees executed
  | storeReturns executed =>
      obtain ⟨sessionId, ending⟩ := stores _ rfl
      exact ending.guarantees executed
  | _ => exact .idle rfl le_rfl rfl

theorem Pending.Sound.ending {request : Request} {pending : Pending}
    {trackingId : RequestId} {copy : Copy} {current : Section}
    (sound : pending.Sound userOf core request)
    (drew : request.trackingId = some trackingId)
    (member : copy ∈ pending.copies)
    (stored : .store current ∈ copy.operations) :
    ∃ sessionId begin, pending.target = .session sessionId begin ∧
      Ending userOf core trackingId sessionId current := by
  obtain ⟨other, sessionId, begin, drew', target, ending⟩ :=
    sound.stores copy member current stored
  obtain rfl := Option.some.inj (drew.symm.trans drew')
  exact ⟨sessionId, begin, target, ending⟩

theorem Consumed.guarantees {request : Request} {trackingId : RequestId}
    {pending updated : Pending} {index : Nat} {action : Action}
    (sound : pending.Sound userOf core request)
    (drew : request.trackingId = some trackingId)
    (consumed : Consumed config core trackingId request.start pending index
      action after updated) : Guarantees (some trackingId) core after := by
  cases consumed with
  | @proceed _ _ operation _ _ _ _ at_ operated =>
      have stores (current : Section) (stored : operation = .store current) :
          ∃ sessionId, Ending userOf core trackingId sessionId current := by
        subst stored
        obtain ⟨sessionId, begin, _, ending⟩ :=
          sound.ending drew (List.mem_of_getElem? at_) List.mem_cons_self
        exact ⟨sessionId, ending⟩
      exact operated.guarantees stores
  | _ => exact .idle rfl le_rfl rfl

theorem Deleting.guarantees {call updated : Deletion}
    {actor : Option RequestId} (sound : call.Sound userOf core)
    (deleting : Deleting config readings core call after updated) :
    Guarantees actor core after := by
  cases deleting with
  | proceeds executed => exact neutral_guarantees executed sound.2.1
  | fails executed => exact neutral_guarantees executed sound.2.1
  | removed executed => exact neutral_guarantees executed sound.2.1
  | _ => exact .idle rfl le_rfl rfl

theorem Turn.guarantees {actor updated : Actor} {input : Input}
    (sound : actor.Sound userOf core)
    (turn : Turn config core actor input after updated) :
    Guarantees actor.trackingId core after := by
  cases turn with
  | advance advanced => exact advanced.guarantees sound
  | consume at_ drew consumed =>
      rw [Actor.trackingId, drew]
      exact consumed.guarantees (Request.Sound.pending sound at_) drew
  | deletion deleting => exact deleting.guarantees sound
  | cancellation stepped => exact (cancellation_unchanged stepped).guarantees
  | history stepped => exact (history_unchanged stepped).guarantees
  | prompt stepped =>
      rcases prompt_cases stepped with unchanged |
        ⟨prompt, middle, progress, executed, unchanged⟩
      · exact unchanged.guarantees
      · have entered : Guarantees none core middle :=
          neutral_guarantees executed ⟨rfl, rfl⟩
        refine ⟨?_, ?_, ?_⟩
        · rw [unchanged.store]
          exact entered.heap
        · exact entered.counter.trans unchanged.counter.ge
        · obtain ⟨events, log, begins, ends⟩ := entered.log
          refine ⟨events, unchanged.log.trans log, ?_, ?_⟩
          · intro ptr trackingId begin began
            exact absurd (begins ptr trackingId begin began) (by simp)
          · intro ptr trackingId finished
            exact absurd (ends ptr trackingId finished) (by simp)
  | caller executed => exact neutral_guarantees executed sound.2

end Guaranteeing

section Sanity

variable {config : Configuration} {readings : Readings}
  {userOf : RequestId → ChatMessage} {core after : Core}

theorem Sane.idle (sane : Sane userOf core config.sessions)
    (store : after.store = core.store) (log : after.log = core.log)
    (counter : core.nextCompletionId ≤ after.nextCompletionId) :
    Sane userOf after config.sessions where
  consistent := by
    rw [store, log]
    exact sane.consistent
  issued := by
    rw [log]
    exact fun trackingId issued =>
      (sane.issued trackingId issued).trans_le counter

theorem Sane.neutral {current : Section} {progress : Progress}
    (sane : Sane userOf core config.sessions)
    (executed : core.execute config readings current = some (after, progress))
    (sound : current.Sound userOf none core.store.heap core.log)
    (neutral : Neutral current) : Sane userOf after config.sessions := by
  refine execute_sane sane executed ?_ fun trackingId begins =>
    absurd (neutral.1.symm.trans begins) (by simp)
  rw [neutral.1]
  exact sound

theorem Ending.sane {trackingId : RequestId} {sessionId : StdString}
    {current : Section} {progress : Progress}
    (ending : Ending userOf core trackingId sessionId current)
    (sane : Sane userOf core config.sessions)
    (executed : core.execute config readings current = some (after, progress)) :
    Sane userOf after config.sessions := by
  refine execute_sane sane executed ?_ fun trackingId begins =>
    absurd (ending.begins.symm.trans begins) (by simp)
  rw [ending.begins]
  exact ending.sound

theorem Operated.sane {trackingId : RequestId} {pending updated : Pending}
    {operation : Operation} {called : List Operation}
    (sane : Sane userOf core config.sessions)
    (stores : ∀ current, operation = .store current →
      ∃ sessionId, Ending userOf core trackingId sessionId current)
    (operated : Operated config readings core trackingId pending operation after
      updated called) : Sane userOf after config.sessions := by
  cases operated with
  | storeProceeds executed =>
      obtain ⟨sessionId, ending⟩ := stores _ rfl
      exact ending.sane sane executed
  | storeReturns executed =>
      obtain ⟨sessionId, ending⟩ := stores _ rfl
      exact ending.sane sane executed
  | _ => exact sane.idle rfl rfl le_rfl

theorem Advanced.sane {request updated : Request} {input : Advance}
    (sane : Sane userOf core config.sessions)
    (sound : request.Sound userOf core)
    (advanced : Advanced config core request input after updated) :
    Sane userOf after config.sessions := by
  cases advanced with
  | beginRequest at_ session executed proceeds =>
      have held := sound.2
      rw [at_] at held
      obtain ⟨trackingId, sessionId, opening⟩ := held
      refine execute_sane sane executed ?_ fun other begins => ?_
      · rw [opening.begins]
        exact opening.sound
      · obtain rfl := Option.some.inj (opening.begins.symm.trans begins)
        exact ⟨opening.unbegun, sound.1 trackingId opening.drawn⟩
  | number at_ sessionless => exact sane.idle rfl rfl (Nat.le_succ _)
  | _ => exact sane.idle rfl rfl le_rfl

theorem Consumed.sane {request : Request} {trackingId : RequestId}
    {pending updated : Pending} {index : Nat} {action : Action}
    (sane : Sane userOf core config.sessions)
    (sound : pending.Sound userOf core request)
    (drew : request.trackingId = some trackingId)
    (consumed : Consumed config core trackingId request.start pending index
      action after updated) : Sane userOf after config.sessions := by
  cases consumed with
  | @proceed _ _ operation _ _ _ _ at_ operated =>
      have stores (current : Section) (stored : operation = .store current) :
          ∃ sessionId, Ending userOf core trackingId sessionId current := by
        subst stored
        obtain ⟨sessionId, begin, _, ending⟩ :=
          sound.ending drew (List.mem_of_getElem? at_) List.mem_cons_self
        exact ⟨sessionId, ending⟩
      exact operated.sane sane stores
  | _ => exact sane.idle rfl rfl le_rfl

theorem Deleting.sane {call updated : Deletion}
    (sane : Sane userOf core config.sessions) (sound : call.Sound userOf core)
    (deleting : Deleting config readings core call after updated) :
    Sane userOf after config.sessions := by
  cases deleting with
  | proceeds executed => exact sane.neutral executed sound.1 sound.2.1
  | fails executed => exact sane.neutral executed sound.1 sound.2.1
  | removed executed => exact sane.neutral executed sound.1 sound.2.1
  | _ => exact sane.idle rfl rfl le_rfl

theorem Unchanged.sane (unchanged : Unchanged core after)
    (sane : Sane userOf core config.sessions) :
    Sane userOf after config.sessions :=
  sane.idle unchanged.store unchanged.log unchanged.counter.ge

theorem Turn.sane {actor updated : Actor} {input : Input}
    (sane : Sane userOf core config.sessions)
    (sound : actor.Sound userOf core)
    (turn : Turn config core actor input after updated) :
    Sane userOf after config.sessions := by
  cases turn with
  | advance advanced => exact advanced.sane sane sound
  | consume at_ drew consumed =>
      exact consumed.sane sane (Request.Sound.pending sound at_) drew
  | deletion deleting => exact deleting.sane sane sound
  | cancellation stepped => exact (cancellation_unchanged stepped).sane sane
  | history stepped => exact (history_unchanged stepped).sane sane
  | prompt stepped =>
      rcases prompt_cases stepped with unchanged |
        ⟨prompt, middle, progress, executed, unchanged⟩
      · exact unchanged.sane sane
      · exact unchanged.sane
          (sane.neutral executed ⟨trivial, rfl⟩ ⟨rfl, rfl⟩)
  | caller executed => exact sane.neutral executed sound.1 sound.2

end Sanity

section Own

variable {config : Configuration} {readings : Readings}
  {userOf : RequestId → ChatMessage} {core after : Core}

theorem Request.Sound.drawn {request : Request}
    (sound : request.Sound userOf core) {trackingId : RequestId}
    (drew : request.trackingId = some trackingId)
    (guarantees : Guarantees request.trackingId core after) :
    trackingId < after.nextCompletionId :=
  (sound.1 trackingId drew).trans_le guarantees.counter

theorem Target.Sound.weaken {request : Request} {drawn : Bool}
    {unfinished weaker : Prop} {target : Target}
    (sound : target.Sound userOf core request drawn unfinished)
    (weakens : weaker → unfinished) :
    target.Sound userOf core request drawn weaker := by
  cases target with
  | session sessionId begin =>
      obtain ⟨trackingId, ptr, drew, handed, begun, open_⟩ := sound
      exact ⟨trackingId, ptr, drew, handed, begun,
        fun premise => open_ (weakens premise)⟩
  | stateless => exact sound
  | retained message => exact sound

theorem Opening.begins_open {request : Request} {trackingId : RequestId}
    {sessionId : StdString} {current : Section} {result : BeginRequestResult}
    (opening : Opening userOf core request current trackingId sessionId)
    (sane : Sane userOf core config.sessions)
    (executed : core.execute config readings current =
      some (after, .returned (.begun (.ok result)))) :
    ∃ (ptr : SessionPtr) (session : SessionState),
      Refers core.store.heap sessionId ptr ∧
        core.store.heap[ptr]? = some session ∧ session.closed = false ∧
        session.activeRequest = none ∧
        result.messages = session.history ++ [result.userMessage] ∧
        result.userMessage = userOf trackingId ∧
        .began ptr trackingId result ∈ after.log := by
  have progress := execute_sound sane executed opening.sound
  obtain ⟨outcome, ran, rfl, returned⟩ := execute_outcome executed
  obtain ⟨ptr, other, same, member⟩ := progress
  obtain rfl : trackingId = other := Option.some.inj same
  have began : .began ptr trackingId result ∈ outcome.events := by
    rcases List.mem_append.mp member with earlier | later
    · exact absurd earlier (opening.unbegun ptr result)
    · exact later
  obtain ⟨named, session, rfl, found, opened, idle, messages⟩ :=
    (exec_effect ran).began_section began
  exact ⟨ptr, session, opening.on.2, found, opened, idle, messages,
    opening.sound.message, member⟩

theorem Opening.begun {request : Request} {trackingId : RequestId}
    {sessionId : StdString} {current : Section} {result : BeginRequestResult}
    (opening : Opening userOf core request current trackingId sessionId)
    (sane : Sane userOf core config.sessions)
    (executed : core.execute config readings current =
      some (after, .returned (.begun (.ok result)))) :
    ∃ ptr, Begun userOf after trackingId sessionId result ptr ∧
      ¬ Finished after.log ptr trackingId := by
  obtain ⟨ptr, session, refers, found, _, _, _, message, member⟩ :=
    opening.begins_open sane executed
  obtain ⟨outcome, ran, rfl, returned⟩ := execute_outcome executed
  have effect := exec_effect ran
  refine ⟨ptr, ⟨effect.preserves _ _ refers, member, message⟩, ?_⟩
  intro finished
  rcases finished_append.mp finished with earlier | later
  · obtain ⟨earlierResult, earlierBegan⟩ :=
      (sane.consistent.invariant ptr session found).begun trackingId earlier
    exact opening.unbegun ptr earlierResult earlierBegan
  · exact absurd ((effect.ends later).symm.trans opening.ends) (by simp)

theorem Opening.still {request : Request} {trackingId : RequestId}
    {sessionId : StdString} {current : Section} {progress : Progress}
    (opening : Opening userOf core request current trackingId sessionId)
    (executed : core.execute config readings current = some (after, progress))
    (failed : ∀ result, progress ≠ .returned (.begun (.ok result))) :
    Unbegun after.log trackingId := by
  obtain ⟨outcome, ran, rfl, rfl⟩ := execute_outcome executed
  intro ptr result began
  rcases List.mem_append.mp began with earlier | later
  · exact opening.unbegun ptr result earlier
  · exact failed result ((exec_effect ran).begin_returns opening.sound later).2

theorem Advanced.sound {request updated : Request} {input : Advance}
    (sane : Sane userOf core config.sessions)
    (sound : request.Sound userOf core)
    (advanced : Advanced config core request input after updated) :
    updated.Sound userOf after := by
  have guarantees := advanced.guarantees sound
  have held := sound.2
  have counted : ∀ trackingId, request.trackingId = some trackingId →
      trackingId < after.nextCompletionId := fun trackingId drew =>
    sound.drawn drew guarantees
  have idle (same : after.store.heap = core.store.heap)
      (counter : core.nextCompletionId ≤ after.nextCompletionId)
      (log : after.log = core.log) : Guarantees none core after :=
    .idle same counter log
  cases advanced with
  | @beginRequest _ current sessionId handed _ progress phase at_ session
      executed proceeds =>
      rw [at_] at held
      obtain ⟨trackingId, named, opening⟩ := held
      obtain ⟨handed', session'⟩ := opening.session
      obtain rfl : sessionId = named :=
        (Prod.mk.inj (Option.some.inj (session.symm.trans session'))).1
      refine ⟨counted, ?_⟩
      cases progress with
      | suspended next =>
          obtain rfl := Option.some.inj proceeds
          have passes := execute_passes executed
          exact ⟨trackingId, sessionId,
            { drawn := opening.drawn
              session := opening.session
              sound := execute_sound sane executed opening.sound
              begins := passes.begins.trans opening.begins
              ends := passes.ends.trans opening.ends
              on := passes.session sessionId sane.consistent.mapped opening.on
              unbegun := opening.still executed (by simp) }⟩
      | returned output =>
          cases output with
          | begun result =>
              cases result with
              | error error =>
                  obtain rfl := Option.some.inj proceeds
                  intro other drew
                  obtain rfl := Option.some.inj (opening.drawn.symm.trans drew)
                  exact opening.still executed (by simp)
              | ok result =>
                  obtain rfl := Option.some.inj proceeds
                  obtain ⟨ptr, begun, unfinished⟩ :=
                    opening.begun sane executed
                  exact ⟨trackingId, ptr, opening.drawn, opening.session, begun,
                    fun _ => unfinished⟩
          | done => cases proceeds
          | summary result => cases proceeds
          | deleted result => cases proceeds
  | prepare at_ =>
      rw [at_] at held
      obtain ⟨sessionless, undrawn⟩ := held
      refine ⟨counted, ?_⟩
      rcases prepare_cases config core request.start with ⟨error, refused⟩ |
        ⟨target, messages, prepared, other⟩
      · simp only [refused]
        intro trackingId drew
        exact absurd (undrawn.symm.trans drew) (by simp)
      · simp only [prepared]
        cases target with
        | session sessionId begin => exact absurd rfl (other _ _)
        | stateless => exact ⟨sessionless, by simp [undrawn]⟩
        | retained message => exact ⟨sessionless, by simp [undrawn]⟩
  | complete at_ =>
      rw [at_] at held
      exact ⟨counted, held⟩
  | spawn at_ =>
      rw [at_] at held
      exact ⟨counted, held⟩
  | @raise target at_ =>
      have begun : target.Sound userOf core request false True := by
        rcases at_ with ⟨messages, at_⟩ | ⟨zooRequestId, at_⟩
        · rw [at_] at held
          exact held
        · rw [at_] at held
          exact held
      refine ⟨counted, fun trackingId drew => ?_⟩
      replace drew : request.trackingId = some trackingId := drew
      cases target with
      | session sessionId begin =>
          obtain ⟨other, ptr, drew', handed, begun, open_⟩ := begun
          obtain rfl := Option.some.inj (drew.symm.trans drew')
          exact ⟨sessionId, ptr, begin, handed, begun, open_ trivial⟩
      | stateless => simp [Target.Sound, drew] at begun
      | retained message => simp [Target.Sound, drew] at begun
  | track at_ =>
      rw [at_] at held
      obtain ⟨trackingId, ptr, drew, handed, begun, open_⟩ := held
      refine ⟨counted, trackingId, ptr, drew, handed, ?_, open_⟩
      exact begun.mono (idle rfl le_rfl rfl)
  | @number now target zooRequestId at_ sessionless =>
      rw [at_] at held
      refine ⟨fun trackingId drew => ?_, ?_⟩
      · cases Option.some.inj drew
        exact Nat.lt_succ_self _
      · cases target with
        | session sessionId begin => exact absurd rfl (sessionless _ _)
        | stateless => exact ⟨held.1, rfl⟩
        | retained message => exact ⟨held.1, rfl⟩
  | @register target zooRequestId created trackingId at_ drew =>
      rw [at_] at held
      refine ⟨counted, ?_, fun _ => ⟨rfl, rfl, ?_⟩, ?_⟩
      · have kept := held.mono (idle rfl le_rfl rfl)
          (fun _ _ => by simp)
        exact kept.weaken fun _ => trivial
      · simp [makePending]
      · intro copy member current stored
        obtain rfl := List.mem_singleton.mp member
        cases stored

theorem Target.Sound.calls {request : Request} {trackingId : RequestId}
    {unfinished : Prop} {target : Target}
    (sound : target.Sound userOf core request true unfinished)
    (drew : request.trackingId = some trackingId) (result : Result)
    {current : Section}
    (called : .store current ∈ target.onResult trackingId result) :
    ∃ sessionId begin, target = .session sessionId begin ∧
      Ending userOf core trackingId sessionId current := by
  cases target with
  | session sessionId begin =>
      obtain ⟨other, ptr, drew', _, begun, _⟩ := sound
      obtain rfl := Option.some.inj (drew.symm.trans drew')
      simp only [Target.onResult, List.mem_cons, List.not_mem_nil,
        or_false, reduceCtorEq, Operation.store.injEq, false_or] at called
      subst called
      refine ⟨sessionId, begin, rfl, ?_⟩
      cases result with
      | completion reply => exact ⟨⟨begun.message, rfl⟩, rfl, rfl, rfl⟩
      | extraction reply =>
          cases reply with
          | error error => exact ⟨⟨begun.message, rfl⟩, rfl, rfl, rfl⟩
          | ok reply => exact ⟨⟨begun.message, rfl⟩, rfl, rfl, rfl⟩
  | stateless => cases called
  | retained message =>
      cases result with
      | completion reply =>
          cases reply with
          | error error => cases called
          | ok reply => simp [Target.onResult] at called
      | extraction reply => cases called

theorem Target.innerRelease_store {target : Target} {current : Section} :
    .store current ∉ target.innerRelease := by
  cases target <;> simp [Target.innerRelease]

theorem Operated.calls {trackingId : RequestId} {pending updated : Pending}
    {operation : Operation} {called : List Operation}
    (sane : Sane userOf core config.sessions)
    (stores : ∀ current, operation = .store current →
      ∃ sessionId begin, pending.target = .session sessionId begin ∧
        Ending userOf core trackingId sessionId current)
    (operated : Operated config readings core trackingId pending operation after
      updated called) {current : Section} (member : .store current ∈ called) :
    ∃ sessionId begin, pending.target = .session sessionId begin ∧
      Ending userOf after trackingId sessionId current := by
  cases operated with
  | storeProceeds executed =>
      obtain ⟨sessionId, begin, target, ending⟩ := stores _ rfl
      obtain rfl : current = _ := by simpa using member
      have passes := execute_passes executed
      exact ⟨sessionId, begin, target,
        { sound := execute_sound sane executed ending.sound
          begins := passes.begins.trans ending.begins
          ends := passes.ends.trans ending.ends
          on := passes.session sessionId sane.consistent.mapped ending.on }⟩
  | @releaseInner sessionId begin target fresh =>
      obtain rfl : current = .enter (.releaseRequest sessionId trackingId) := by
        simpa using member
      exact ⟨sessionId, begin, target, ⟨trivial, rfl⟩, rfl, rfl, rfl⟩
  | releaseOuter fresh =>
      simp [Target.innerRelease_store] at member
  | _ => simp at member

theorem Operated.keeps {trackingId : RequestId} {pending updated : Pending}
    {operation : Operation} {called : List Operation}
    (operated : Operated config readings core trackingId pending operation after
      updated called) :
    updated.target = pending.target ∧ updated.copies = pending.copies ∧
      updated.consumed = pending.consumed ∧ updated.id = pending.id ∧
      updated.zooRequestId = pending.zooRequestId := by
  cases operated <;> exact ⟨rfl, rfl, rfl, rfl, rfl⟩

theorem Consumed.sound {request : Request} {trackingId : RequestId}
    {pending updated : Pending} {index : Nat} {action : Action}
    (sane : Sane userOf core config.sessions)
    (sound : pending.Sound userOf core request)
    (drew : request.trackingId = some trackingId)
    (consumed : Consumed config core trackingId request.start pending index
      action after updated) : updated.Sound userOf after request := by
  have guarantees := consumed.guarantees sound drew
  cases consumed with
  | copy at_ =>
      refine ⟨sound.target, fun quiet => ?_, ?_⟩
      · obtain ⟨outer, inner, copies⟩ := sound.quiet quiet
        refine ⟨outer, inner, fun copy member => ?_⟩
        rcases List.mem_append.mp member with earlier | last
        · exact copies copy earlier
        · rw [List.mem_singleton.mp last]
      · intro copy member current stored
        rcases List.mem_append.mp member with earlier | last
        · exact sound.stores copy earlier current stored
        · rw [List.mem_singleton.mp last] at stored
          cases stored
  | @finalize result at_ answers =>
      refine ⟨sound.target.weaken (by simp), by simp, ?_⟩
      intro copy member current stored
      rcases List.mem_or_eq_of_mem_set member with earlier | rfl
      · exact sound.stores copy earlier current stored
      · obtain ⟨sessionId, begin, target, ending⟩ :=
          sound.target.calls drew result (by simpa using stored)
        exact ⟨trackingId, sessionId, begin, drew, target, ending⟩
  | release at_ =>
      refine ⟨sound.target.weaken (by simp), by simp, ?_⟩
      intro copy member current stored
      rcases List.mem_or_eq_of_mem_set member with earlier | rfl
      · exact sound.stores copy earlier current stored
      · simp at stored
  | destroyLast at_ last =>
      refine ⟨sound.target.weaken (by simp), by simp, ?_⟩
      intro copy member current stored
      rcases List.mem_or_eq_of_mem_set member with earlier | rfl
      · exact sound.stores copy earlier current stored
      · simp [Target.innerRelease_store] at stored
  | destroy at_ others =>
      refine ⟨sound.target, fun quiet => ?_, ?_⟩
      · obtain ⟨outer, inner, copies⟩ := sound.quiet quiet
        refine ⟨outer, inner, fun copy member => ?_⟩
        rcases List.mem_or_eq_of_mem_set member with earlier | rfl
        · exact copies copy earlier
        · rfl
      · intro copy member current stored
        rcases List.mem_or_eq_of_mem_set member with earlier | rfl
        · exact sound.stores copy earlier current stored
        · cases stored
  | @proceed _ alive operation rest called _ changed at_ operated =>
      have busy : pending.consumed = true := by
        by_contra quiet
        have idle := (sound.quiet (Bool.eq_false_iff.mpr quiet)).2.2 _
          (List.mem_of_getElem? at_)
        cases idle
      obtain ⟨target, copies, consumed, _, _⟩ := operated.keeps
      have stays (other : Prop) : ¬ (changed.consumed = false ∧ other) := by
        simp [consumed, busy]
      have began : changed.target.Sound userOf after request true
          (changed.consumed = false) := by
        have weak : pending.target.Sound userOf core request true False :=
          sound.target.weaken False.elim
        rw [target]
        revert weak
        cases pending.target with
        | session sessionId begin =>
            rintro ⟨other, ptr, drew', handed, begun, _⟩
            exact ⟨other, ptr, drew', handed, begun.mono guarantees,
              fun quiet => absurd quiet (by simp [consumed, busy])⟩
        | stateless => exact id
        | retained message => exact id
      refine ⟨began, fun quiet => absurd quiet
        (by simp [Pending.setCopy, consumed, busy]), ?_⟩
      intro copy member current stored
      have older {held : Copy} (earlier : held ∈ pending.copies)
          (stored : .store current ∈ held.operations) :
          ∃ sessionId begin, pending.target = .session sessionId begin ∧
            Ending userOf after trackingId sessionId current := by
        obtain ⟨sessionId, begin, same, ending⟩ :=
          sound.ending drew earlier stored
        exact ⟨sessionId, begin, same, ending.mono guarantees⟩
      have own : ∃ sessionId begin,
          pending.target = .session sessionId begin ∧
            Ending userOf after trackingId sessionId current := by
        rcases List.mem_or_eq_of_mem_set member with earlier | rfl
        · exact older (copies ▸ earlier) stored
        · rcases List.mem_append.mp stored with new | old
          · refine operated.calls sane (fun entered same => ?_) new
            subst same
            exact sound.ending drew (List.mem_of_getElem? at_)
              List.mem_cons_self
          · exact older (List.mem_of_getElem? at_)
              (List.mem_cons_of_mem _ old)
      obtain ⟨sessionId, begin, same, ending⟩ := own
      exact ⟨trackingId, sessionId, begin, drew, target.trans same, ending⟩

end Own

end ZooKeeperServer.Service
