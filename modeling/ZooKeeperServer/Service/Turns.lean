import ZooKeeperServer.Service.ChatService

namespace ZooKeeperServer.Service

open SessionStore

/-! What each step of the service can do, once and for all. -/

section Relations

variable (config : Configuration) (readings : Readings) (core : Core)

inductive Advanced (request : Request) : Advance → Core → Request → Prop
  | beginRequest {readings : Readings} {current : Section} {sessionId : StdString}
      {handed : ChatCompletionRequest} {after : Core} {progress : Progress}
      {phase : Phase} (at_ : request.phase = .beginning current)
      (session : request.start.session = some (sessionId, handed))
      (executed : core.execute config readings current = some (after, progress))
      (proceeds : beginPhase sessionId progress = some phase) :
      Advanced request (.beginRequest readings) after { request with phase }
  | prepare (at_ : request.phase = .preparing) :
      Advanced request .prepare core
        { request with
          phase := prepare config core request.start
          snapshot := core.historyChanges }
  | complete {target : Target} {messages : List ChatMessage}
      {zooRequestId : ZooRequestId}
      (at_ : request.phase = .prepared target messages) :
      Advanced request (.complete zooRequestId) core
        { request with
          phase := .submitted target zooRequestId
          submission := some (request.start.submission messages) }
  | spawn {target : Target} {zooRequestId : ZooRequestId}
      (at_ : request.phase = .submitted target zooRequestId) :
      Advanced request .spawn core
        { request with phase := .wrapped target zooRequestId }
  | raise {target : Target}
      (at_ : (∃ messages, request.phase = .prepared target messages) ∨
        ∃ zooRequestId, request.phase = .submitted target zooRequestId) :
      Advanced request .raise core { request with phase := .raised }
  | track {now : Int} {sessionId : StdString} {begin : BeginRequestResult}
      {zooRequestId : ZooRequestId}
      (at_ : request.phase = .wrapped (.session sessionId begin) zooRequestId) :
      Advanced request (.track now)
        { core with
          activeSessionRequests :=
            core.activeSessionRequests.insert sessionId zooRequestId }
        { request with
          phase := .registering (.session sessionId begin) zooRequestId
            begin.startedAt }
  | number {now : Int} {target : Target} {zooRequestId : ZooRequestId}
      (at_ : request.phase = .wrapped target zooRequestId)
      (sessionless : ∀ sessionId begin, target ≠ .session sessionId begin) :
      Advanced request (.track now)
        { core with nextCompletionId := core.nextCompletionId + 1 }
        { request with
          phase := .registering target zooRequestId now
          trackingId := some core.nextCompletionId }
  | register {target : Target} {zooRequestId : ZooRequestId} {created : Int}
      {trackingId : RequestId}
      (at_ : request.phase = .registering target zooRequestId created)
      (drew : request.trackingId = some trackingId) :
      Advanced request .register
        { core with
          publicRequestCancellers :=
            core.publicRequestCancellers.insert
              (request.start.publicId trackingId) zooRequestId }
        { request with
          phase := .pending (makePending config request trackingId target
            zooRequestId created) }

inductive Operated (trackingId : RequestId) (pending : Pending) :
    Operation → Core → Pending → List Operation → Prop
  | untrack {sessionId : StdString} {begin : BeginRequestResult}
      (target : pending.target = .session sessionId begin) :
      Operated trackingId pending .untrackSessionRequest
        { core with
          activeSessionRequests := core.activeSessionRequests.erase sessionId }
        pending []
  | storeProceeds {current next : Section} {after : Core}
      (executed : core.execute config readings current =
        some (after, .suspended next)) :
      Operated trackingId pending (.store current) after pending [.store next]
  | storeReturns {current : Section} {after : Core} {output : Output}
      (executed : core.execute config readings current =
        some (after, .returned output)) :
      Operated trackingId pending (.store current) after pending []
  | appendTurn {user : ChatMessage} {reply : StdString} :
      Operated trackingId pending (.appendTurn user reply)
        (core.setHistory (core.agentHistory ++ [user, .assistant reply]))
        pending []
  | unregister :
      Operated trackingId pending .unregisterPublicRequest
        { core with
          publicRequestCancellers :=
            core.publicRequestCancellers.erase pending.id }
        pending []
  | releaseOuter (fresh : pending.outer = .fresh) :
      Operated trackingId pending .releaseOuter core
        { pending with outer := .running }
        (.unregisterPublicRequest ::
          (pending.target.innerRelease ++ [.outerDone]))
  | outerReleased (done : pending.outer = .done) :
      Operated trackingId pending .releaseOuter core pending []
  | outerDone :
      Operated trackingId pending .outerDone core { pending with outer := .done }
        []
  | releaseInner {sessionId : StdString} {begin : BeginRequestResult}
      (target : pending.target = .session sessionId begin)
      (fresh : pending.inner = .fresh) :
      Operated trackingId pending .releaseInner
        { core with releaseActions := core.releaseActions ++ [trackingId] }
        { pending with inner := .running }
        [.untrackSessionRequest,
          .store (.enter (.releaseRequest sessionId trackingId)), .innerDone]
  | innerReleased (done : pending.inner = .done) :
      Operated trackingId pending .releaseInner core pending []
  | innerDone :
      Operated trackingId pending .innerDone core { pending with inner := .done }
        []

inductive Consumed (trackingId : RequestId) (start : StartRequest)
    (pending : Pending) (index : Nat) : Action → Core → Pending → Prop
  | copy {operations : List Operation}
      (at_ : pending.copies[index]? = some ⟨true, operations⟩) :
      Consumed trackingId start pending index .copy core
        { pending with copies := pending.copies ++ [{}] }
  | finalize {result : Result} (at_ : pending.copies[index]? = some ⟨true, []⟩)
      (answers : result.answers start = true) :
      Consumed trackingId start pending index (.finalize result) core
        { pending.setCopy index
            { operations :=
                pending.target.onResult trackingId result ++
                  [.releaseOuter] } with
          consumed := true }
  | release (at_ : pending.copies[index]? = some ⟨true, []⟩) :
      Consumed trackingId start pending index .release core
        { pending.setCopy index { operations := [.releaseOuter] } with
          consumed := true }
  | destroyLast (at_ : pending.copies[index]? = some ⟨true, []⟩)
      (last : pending.lastCopy index = true) :
      Consumed trackingId start pending index .destroy core
        { pending.setCopy index
            { alive := false
              operations := .releaseOuter :: pending.target.innerRelease } with
          consumed := true }
  | destroy (at_ : pending.copies[index]? = some ⟨true, []⟩)
      (others : pending.lastCopy index = false) :
      Consumed trackingId start pending index .destroy core
        (pending.setCopy index { alive := false })
  | proceed {readings : Readings} {alive : Bool} {operation : Operation}
      {rest called : List Operation} {after : Core} {updated : Pending}
      (at_ : pending.copies[index]? = some ⟨alive, operation :: rest⟩)
      (operated : Operated config readings core trackingId pending operation
        after updated called) :
      Consumed trackingId start pending index (.proceed readings) after
        (updated.setCopy index ⟨alive, called ++ rest⟩)

inductive Deleting : Deletion → Core → Deletion → Prop
  | proceeds {sessionId : StdString} {current next : Section} {after : Core}
      (executed : core.execute config readings current =
        some (after, .suspended next)) :
      Deleting (.removing sessionId current) after (.removing sessionId next)
  | fails {sessionId : StdString} {current : Section} {after : Core}
      {error : ApiError}
      (executed : core.execute config readings current =
        some (after, .returned (.deleted (.error error)))) :
      Deleting (.removing sessionId current) after
        (.returned sessionId (.error error))
  | removed {sessionId : StdString} {current : Section} {after : Core}
      (executed : core.execute config readings current =
        some (after, .returned (.deleted (.ok ())))) :
      Deleting (.removing sessionId current) after (.erasing sessionId)
  | untracked {sessionId : StdString}
      (absent : core.activeSessionRequests.lookup sessionId = none) :
      Deleting (.erasing sessionId) core (.returned sessionId (.ok ()))
  | erase {sessionId : StdString} {zooRequestId : ZooRequestId}
      (found : core.activeSessionRequests.lookup sessionId = some zooRequestId) :
      Deleting (.erasing sessionId)
        { core with
          activeSessionRequests := core.activeSessionRequests.erase sessionId }
        (if zooRequestId ≠ 0 then .cancelling sessionId zooRequestId
          else .returned sessionId (.ok ()))
  | cancel {sessionId : StdString} {zooRequestId : ZooRequestId} :
      Deleting (.cancelling sessionId zooRequestId)
        { core with cancelled := core.cancelled ++ [zooRequestId] }
        (.returned sessionId (.ok ()))

inductive Turn : Actor → Input → Core → Actor → Prop
  | advance {request updated : Request} {input : Advance} {after : Core}
      (advanced : Advanced config core request input after updated) :
      Turn (.request request) (.advance input) after (.request updated)
  | consume {request : Request} {pending updated : Pending}
      {trackingId : RequestId} {copy : Nat} {action : Action} {after : Core}
      (at_ : request.phase = .pending pending)
      (drew : request.trackingId = some trackingId)
      (consumed : Consumed config core trackingId request.start pending copy
        action after updated) :
      Turn (.request request) (.consume copy action) after
        (.request { request with phase := .pending updated })
  | deletion {readings : Readings} {call updated : Deletion} {after : Core}
      (deleting : Deleting config readings core call after updated) :
      Turn (.deletion call) (.run readings) after (.deletion updated)
  | cancellation {readings : Readings} {call updated : Cancellation}
      {after : Core} (stepped : call.step core = some (after, updated)) :
      Turn (.cancellation call) (.run readings) after (.cancellation updated)
  | history {readings : Readings} {call updated : HistoryCall} {after : Core}
      (stepped : call.step config core = some (after, updated)) :
      Turn (.history call) (.run readings) after (.history updated)
  | prompt {readings : Readings} {call updated : PromptCall} {after : Core}
      (stepped : call.step config readings core = some (after, updated)) :
      Turn (.prompt call) (.run readings) after (.prompt updated)
  | caller {readings : Readings} {current : Section} {after : Core}
      {progress : Progress}
      (executed : core.execute config readings current =
        some (after, progress)) :
      Turn (.caller (.suspended current)) (.run readings) after
        (.caller progress)

end Relations

section Inversion

variable {config : Configuration} {readings : Readings} {core after : Core}

variable (config core) in
theorem prepare_cases (start : StartRequest) :
    (∃ error, prepare config core start = .refused error) ∨
      ∃ target messages, prepare config core start = .prepared target messages ∧
        ∀ sessionId begin, target ≠ .session sessionId begin := by
  cases start with
  | completion request => exact .inr ⟨_, _, rfl, by simp⟩
  | extraction request => exact .inr ⟨_, _, rfl, by simp⟩
  | agentChat request =>
      simp only [prepare]
      split
      · exact .inl ⟨_, rfl⟩
      · exact .inr ⟨_, _, rfl, by simp⟩

theorem beginPhase_cases {sessionId : StdString} {progress : Progress}
    {phase : Phase} (proceeds : beginPhase sessionId progress = some phase) :
    (∃ next, progress = .suspended next ∧ phase = .beginning next) ∨
      (∃ error, progress = .returned (.begun (.error error)) ∧
        phase = .refused error) ∨
      ∃ result, progress = .returned (.begun (.ok result)) ∧
        phase = .prepared (.session sessionId result) result.messages := by
  unfold beginPhase at proceeds
  split at proceeds
  · exact .inl ⟨_, rfl, (Option.some.inj proceeds).symm⟩
  · exact .inr (.inl ⟨_, rfl, (Option.some.inj proceeds).symm⟩)
  · exact .inr (.inr ⟨_, rfl, (Option.some.inj proceeds).symm⟩)
  · contradiction

variable (config) in
theorem startCall_cases (trackingId : RequestId) (start : StartRequest) :
    ∃ phase drawn, startCall config trackingId start =
        { start, phase, trackingId := drawn } ∧
      ((∃ current, phase = .beginning current) ∨ phase = .preparing ∨
        ∃ error, phase = .refused error) := by
  unfold startCall
  split
  · exact ⟨_, _, rfl, .inl ⟨_, rfl⟩⟩
  split
  · exact ⟨_, _, rfl, .inr (.inr ⟨_, rfl⟩)⟩
  · exact ⟨_, _, rfl, .inr (.inl rfl)⟩

theorem advance_advanced {request updated : Request} {input : Advance}
    (stepped : advance config core request input = some (after, updated)) :
    Advanced config core request input after updated := by
  cases input with
  | beginRequest readings =>
      simp only [advance] at stepped
      split at stepped
      · rename_i current sessionId handed at_ session
        obtain ⟨⟨middle, progress⟩, executed, rest⟩ :=
          Option.bind_eq_some_iff.mp stepped
        obtain ⟨phase, proceeds, same⟩ := Option.map_eq_some_iff.mp rest
        cases same
        exact .beginRequest at_ session executed proceeds
      · contradiction
  | prepare =>
      simp only [advance] at stepped
      split at stepped
      · rename_i at_
        cases Option.some.inj stepped
        exact .prepare at_
      · contradiction
  | complete zooRequestId =>
      simp only [advance] at stepped
      split at stepped
      · rename_i target messages at_
        cases Option.some.inj stepped
        exact .complete at_
      · contradiction
  | spawn =>
      simp only [advance] at stepped
      split at stepped
      · rename_i target zooRequestId at_
        cases Option.some.inj stepped
        exact .spawn at_
      · contradiction
  | raise =>
      simp only [advance] at stepped
      split at stepped
      · rename_i target messages at_
        cases Option.some.inj stepped
        exact .raise (.inl ⟨messages, at_⟩)
      · rename_i target zooRequestId at_
        cases Option.some.inj stepped
        exact .raise (.inr ⟨zooRequestId, at_⟩)
      · contradiction
  | track now =>
      simp only [advance] at stepped
      split at stepped
      · rename_i sessionId begin zooRequestId at_
        cases Option.some.inj stepped
        exact .track at_
      · rename_i target zooRequestId sessionless at_
        cases Option.some.inj stepped
        exact .number at_ sessionless
      · contradiction
  | register =>
      simp only [advance] at stepped
      split at stepped
      · rename_i target zooRequestId created trackingId at_ drew
        cases Option.some.inj stepped
        exact .register at_ drew
      · contradiction

theorem exec_operated {trackingId : RequestId} {pending updated : Pending}
    {operation : Operation} {called : List Operation}
    (executed : operation.exec config readings trackingId core pending =
      some (after, updated, called)) :
    Operated config readings core trackingId pending operation after updated
      called := by
  cases operation with
  | untrackSessionRequest =>
      simp only [Operation.exec] at executed
      split at executed
      · rename_i sessionId begin target
        cases Option.some.inj executed
        exact .untrack target
      · contradiction
  | store current =>
      obtain ⟨⟨middle, progress⟩, ran, same⟩ :=
        Option.map_eq_some_iff.mp executed
      cases progress with
      | suspended next =>
          cases same
          exact .storeProceeds ran
      | returned output =>
          cases same
          exact .storeReturns ran
  | appendTurn user reply =>
      cases Option.some.inj executed
      exact .appendTurn
  | unregisterPublicRequest =>
      cases Option.some.inj executed
      exact .unregister
  | releaseOuter =>
      simp only [Operation.exec] at executed
      split at executed
      · rename_i fresh
        cases Option.some.inj executed
        exact .releaseOuter fresh
      · contradiction
      · rename_i done
        cases Option.some.inj executed
        exact .outerReleased done
  | outerDone =>
      cases Option.some.inj executed
      exact .outerDone
  | releaseInner =>
      simp only [Operation.exec] at executed
      split at executed
      · rename_i sessionId begin target fresh
        cases Option.some.inj executed
        exact .releaseInner target fresh
      · rename_i done
        cases Option.some.inj executed
        exact .innerReleased done
      · contradiction
  | innerDone =>
      cases Option.some.inj executed
      exact .innerDone

theorem consume_consumed {trackingId : RequestId} {start : StartRequest}
    {pending updated : Pending} {index : Nat} {action : Action}
    (stepped : consume config trackingId core start pending index action =
      some (after, updated)) :
    Consumed config core trackingId start pending index action after
      updated := by
  cases action with
  | copy =>
      simp only [consume] at stepped
      split at stepped
      · rename_i operations at_
        cases Option.some.inj stepped
        exact .copy at_
      · contradiction
  | finalize result =>
      simp only [consume] at stepped
      split at stepped
      · rename_i at_
        split at stepped
        · rename_i answers
          cases Option.some.inj stepped
          exact .finalize at_ answers
        · contradiction
      · contradiction
  | release =>
      simp only [consume] at stepped
      split at stepped
      · rename_i at_
        cases Option.some.inj stepped
        exact .release at_
      · contradiction
  | destroy =>
      simp only [consume] at stepped
      split at stepped
      · rename_i at_
        split at stepped
        · rename_i last
          cases Option.some.inj stepped
          exact .destroyLast at_ last
        · rename_i others
          cases Option.some.inj stepped
          exact .destroy at_ (Bool.eq_false_iff.mpr others)
      · contradiction
  | proceed readings =>
      simp only [consume] at stepped
      split at stepped
      · rename_i alive operation rest at_
        obtain ⟨⟨middle, changed, called⟩, executed, same⟩ :=
          Option.map_eq_some_iff.mp stepped
        cases same
        exact .proceed at_ (exec_operated executed)
      · contradiction

theorem step_deleting {call updated : Deletion}
    (stepped : call.step config readings core = some (after, updated)) :
    Deleting config readings core call after updated := by
  cases call with
  | removing sessionId current =>
      obtain ⟨⟨middle, progress⟩, executed, rest⟩ :=
        Option.bind_eq_some_iff.mp stepped
      dsimp only at rest
      split at rest
      · cases Option.some.inj rest
        exact .proceeds executed
      · cases Option.some.inj rest
        exact .fails executed
      · cases Option.some.inj rest
        exact .removed executed
      · contradiction
  | erasing sessionId =>
      simp only [Deletion.step] at stepped
      split at stepped
      · rename_i absent
        cases Option.some.inj stepped
        exact .untracked absent
      · rename_i zooRequestId found
        cases Option.some.inj stepped
        exact .erase found
  | cancelling sessionId zooRequestId =>
      cases Option.some.inj stepped
      exact .cancel
  | returned sessionId result => cases stepped

/-- Every turn is one of the seven kinds `Turn` lists. -/
theorem act_turn {actor updated : Actor} {input : Input}
    (acted : act config core actor input = some (after, updated)) :
    Turn config core actor input after updated := by
  unfold act at acted
  split at acted
  · obtain ⟨⟨middle, changed⟩, stepped, same⟩ :=
      Option.map_eq_some_iff.mp acted
    cases same
    exact .advance (advance_advanced stepped)
  · split at acted
    · rename_i pending trackingId at_ drew
      obtain ⟨⟨middle, changed⟩, stepped, same⟩ :=
        Option.map_eq_some_iff.mp acted
      cases same
      exact .consume at_ drew (consume_consumed stepped)
    · contradiction
  · obtain ⟨⟨middle, changed⟩, stepped, same⟩ :=
      Option.map_eq_some_iff.mp acted
    cases same
    exact .deletion (step_deleting stepped)
  · obtain ⟨⟨middle, changed⟩, stepped, same⟩ :=
      Option.map_eq_some_iff.mp acted
    cases same
    exact .cancellation stepped
  · obtain ⟨⟨middle, changed⟩, stepped, same⟩ :=
      Option.map_eq_some_iff.mp acted
    cases same
    exact .history stepped
  · obtain ⟨⟨middle, changed⟩, stepped, same⟩ :=
      Option.map_eq_some_iff.mp acted
    cases same
    exact .prompt stepped
  · obtain ⟨⟨middle, changed⟩, stepped, same⟩ :=
      Option.map_eq_some_iff.mp acted
    cases same
    exact .caller stepped
  · contradiction

inductive Arriving : Actor → Prop
  | deletion {sessionId : StdString} :
      Arriving (.deletion (.removing sessionId (.enter (.deleteSession sessionId))))
  | cancellation {requestId : StdString} :
      Arriving (.cancellation (.looking requestId))
  | history {request : HistoryRequest} : Arriving (.history (.entered request))
  | prompt {prompt : StdString} : Arriving (.prompt (.updating prompt))
  | caller {call : Call} (allowed : housekeeping call = true) :
      Arriving (.caller (.suspended (.enter call)))

inductive Stepped (config : Configuration) (service : ChatService) :
    Label → ChatService → Prop
  | turnsAway {label : Label} {error : ApiError}
      (elsewhere : ∀ index input, label ≠ .act index input) :
      Stepped config service label
        { service with shared := service.shared.turnAway error }
  | starts {start : StartRequest} :
      Stepped config service (.start true start)
        (service.join (service.shared.draw start)
          (.request (startCall config service.shared.nextCompletionId start)))
  | arrives {label : Label} {actor : Actor} (arriving : Arriving actor)
      (elsewhere : ∀ index input, label ≠ .act index input) :
      Stepped config service label (service.join service.shared actor)
  | turn {index : Nat} {input : Input} {actor updated : Actor} {after : Core}
      (found : service.actors[index]? = some actor)
      (turn : Turn config service.shared actor input after updated) :
      Stepped config service (.act index input)
        ⟨after, service.actors.set index updated⟩

theorem step_stepped {service next : ChatService} {label : Label}
    (stepped : step config service label = some next) :
    Stepped config service label next := by
  cases label with
  | start ready start =>
      cases ready with
      | true =>
          cases Option.some.inj stepped
          exact .starts
      | false =>
          cases Option.some.inj stepped
          exact .turnsAway (by simp)
  | deleteSession sessionId =>
      cases Option.some.inj stepped
      exact .arrives .deletion (by simp)
  | cancelRequest requestId =>
      cases Option.some.inj stepped
      exact .arrives .cancellation (by simp)
  | agentHistory ready request =>
      cases ready with
      | true =>
          cases Option.some.inj stepped
          exact .arrives .history (by simp)
      | false =>
          cases Option.some.inj stepped
          exact .turnsAway (by simp)
  | setSystemPrompt prompt =>
      cases Option.some.inj stepped
      exact .arrives .prompt (by simp)
  | call call =>
      simp only [step] at stepped
      split at stepped
      · rename_i allowed
        cases Option.some.inj stepped
        exact .arrives (.caller allowed) (by simp)
      · contradiction
  | act index input =>
      obtain ⟨actor, after, updated, found, acted, rfl⟩ :=
        Transition.Crew.turn_eq_some stepped
      exact .turn found (act_turn acted)

end Inversion

end ZooKeeperServer.Service
