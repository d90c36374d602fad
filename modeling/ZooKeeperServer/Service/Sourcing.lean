import ZooKeeperServer.Service.Origins

namespace ZooKeeperServer.Service

open SessionStore Transition

/-! After every run, every word that a session remembers, that the agent retains or
is given, or that a client is shown as the retained history, has its source. -/

section Told

variable (config : Configuration) (prompt : StdString) (schedule : List Label)
  (service : ChatService)

/-- What the agent is given for a request: on a session its memory and the message,
from the retained history the history and the message, and otherwise the messages
behind the system prompt. -/
def Told (start : StartRequest) (messages : List ChatMessage) : Prop :=
  match start.session, start with
  | some (sessionId, _), _ =>
      ∃ ptr basePrompt request earlier user,
        Refers service.shared.store.heap sessionId ptr ∧
          Prompts prompt schedule basePrompt ∧
          .call (.createSession request) ∈ schedule ∧
          .created ptr basePrompt request.systemPrompt ∈ service.shared.log ∧
          earlier <+: service.shared.log ∧ start.messages = [user] ∧
          messages = makeInitialHistory basePrompt request.systemPrompt ++
            turnMessages ((turnsOf ptr earlier).rtake
              (config.sessions.maxHistoryMessages / 2)) ++ [user]
  | none, .agentChat call =>
      ∃ history, (∀ message ∈ history, Sourced prompt schedule service message) ∧
        messages = history ++ [call.message]
  | none, _ => ∃ text, Prompts prompt schedule text ∧
      messages = prepareMessages text start.messages

structure Traced : Prop where
  brings : ∀ (index : Nat) actor, service.actors[index]? = some actor →
    actor.Brings schedule index
  requested : Prompts prompt schedule service.shared.requestSystemPrompt
  base : Prompts prompt schedule service.shared.store.baseSystemPrompt
  created : ∀ ptr basePrompt requestPrompt,
    .created ptr basePrompt requestPrompt ∈ service.shared.log →
      Prompts prompt schedule basePrompt ∧
        ∃ request, .call (.createSession request) ∈ schedule ∧
          request.systemPrompt = requestPrompt
  committed : ∀ ptr requestId turn,
    .committed ptr requestId turn ∈ service.shared.log →
      ∃ sessionId, Refers service.shared.store.heap sessionId ptr ∧
        Exchanged schedule service sessionId requestId turn
  once : (service.shared.log.filterMap Event.commits).Nodup
  retained : ∀ message ∈ service.shared.agentHistory,
    Sourced prompt schedule service message
  reported : ∀ (index : Nat) snapshot, service.actors[index]? =
      some (.history (.returned (.ok (some snapshot)))) →
    ∀ message ∈ snapshot.messages, Sourced prompt schedule service message
  handed : ∀ (index : Nat) request,
    service.actors[index]? = some (.request request) →
      request.Hands (Told config prompt schedule service request.start)

end Told

structure Grows (service next : ChatService) : Prop where
  heap : Preserves service.shared.store.heap next.shared.store.heap
  log : service.shared.log <+: next.shared.log
  requests : ∀ (index : Nat) request,
    service.actors[index]? = some (.request request) →
      ∃ later, next.actors[index]? = some (.request later) ∧
        later.start = request.start ∧
        (request.start.session.isSome → request.trackingId.isSome →
          later.trackingId = request.trackingId)

section Growing

variable {config : Configuration} {userOf : RequestId → ChatMessage}
  {prompt : StdString} {schedule : List Label} {service next : ChatService}
  {core after : Core} {actor updated : Actor} {input : Input} {index : Nat}
  {request : Request}

theorem Turn.keeps_start {later : Actor}
    (sound : (Actor.request request).Sound userOf core)
    (turn : Turn config core (.request request) input after later) :
    ∃ moved, later = .request moved ∧ moved.start = request.start ∧
      (request.start.session.isSome → request.trackingId.isSome →
        moved.trackingId = request.trackingId) := by
  cases turn with
  | advance advanced =>
      cases advanced with
      | @number _ target _ at_ sessionless =>
          refine ⟨_, rfl, rfl, fun begun => ?_⟩
          have held := sound.2
          rw [at_] at held
          cases target with
          | session name begin => exact absurd rfl (sessionless name begin)
          | stateless => simp [held.1] at begun
          | retained message => simp [held.1] at begun
      | _ => exact ⟨_, rfl, rfl, fun _ _ => rfl⟩
  | consume at_ drew consumed => exact ⟨_, rfl, rfl, fun _ _ => rfl⟩

theorem Grows.calm {shared : Core} (calm : Calm service.shared shared) :
    Grows service { service with shared } where
  heap := by
    obtain ⟨counter, turnedAway, -, rfl⟩ := calm
    exact fun _ _ => id
  log := by
    obtain ⟨counter, turnedAway, -, rfl⟩ := calm
    exact List.prefix_rfl
  requests := fun index request found => ⟨request, found, rfl, fun _ _ => rfl⟩

theorem Grows.join {shared : Core} {joined : Actor}
    (calm : Calm service.shared shared) :
    Grows service (service.join shared joined) where
  heap := (Grows.calm calm).heap
  log := (Grows.calm calm).log
  requests := by
    intro index request found
    obtain ⟨bound, -⟩ := List.getElem?_eq_some_iff.mp found
    exact ⟨request, (List.getElem?_append_left bound).trans found, rfl,
      fun _ _ => rfl⟩

theorem Grows.turn (held : Held config userOf service)
    (found : service.actors[index]? = some actor)
    (turn : Turn config service.shared actor input after updated) :
    Grows service ⟨after, service.actors.set index updated⟩ := by
  have guarantees := turn.guarantees (held.each index actor found)
  refine ⟨guarantees.heap, ?_, fun other request at_ => ?_⟩
  · obtain ⟨events, log, -⟩ := guarantees.log
    exact ⟨events, log.symm⟩
  · by_cases same : index = other
    · subst same
      obtain rfl := Option.some.inj (found.symm.trans at_)
      obtain ⟨bound, -⟩ := List.getElem?_eq_some_iff.mp at_
      obtain ⟨moved, rfl, kept⟩ := turn.keeps_start (held.each index _ found)
      exact ⟨moved, List.getElem?_set_self bound, kept⟩
    · exact ⟨request, (List.getElem?_set_ne same).trans at_, rfl, fun _ _ => rfl⟩

theorem Sourced.mono {message : ChatMessage} (grows : Grows service next)
    (sourced : Sourced prompt schedule service message) :
    Sourced prompt schedule next message := by
  induction sourced with
  | prompted given => exact .prompted given
  | uploaded uploaded => exact .uploaded uploaded
  | rewritten sourced system given ih => exact .rewritten ih system given
  | asked found start replied =>
      obtain ⟨later, at_, same, -⟩ := grows.requests _ _ found
      exact .asked at_ (same.trans start) replied
  | answered found start replied =>
      obtain ⟨later, at_, same, -⟩ := grows.requests _ _ found
      exact .answered at_ (same.trans start) replied

theorem Exchanged.mono {sessionId : StdString} {requestId : RequestId}
    {turn : SessionStore.Turn} (grows : Grows service next)
    (exchanged : Exchanged schedule service sessionId requestId turn) :
    Exchanged schedule next sessionId requestId turn := by
  obtain ⟨index, request, handed, found, drew, session, asked, replied⟩ := exchanged
  obtain ⟨later, at_, same, keeps⟩ := grows.requests index request found
  have kept := keeps (by simp [session]) (by simp [drew])
  exact ⟨index, later, handed, at_, kept.trans drew, same ▸ session, same ▸ asked,
    replied⟩

theorem Told.mono {start : StartRequest} {messages : List ChatMessage}
    (grows : Grows service next)
    (told : Told config prompt schedule service start messages) :
    Told config prompt schedule next start messages := by
  unfold Told at told ⊢
  split at told
  · obtain ⟨ptr, basePrompt, request, earlier, user, refers, given, called, created,
      before, asked, same⟩ := told
    exact ⟨ptr, basePrompt, request, earlier, user, grows.heap _ _ refers, given,
      called, grows.log.subset created, before.trans grows.log, asked, same⟩
  · obtain ⟨history, sourced, same⟩ := told
    exact ⟨history, fun message member => (sourced message member).mono grows, same⟩
  · exact told

end Growing

section Tracing

variable {config : Configuration} {userOf : RequestId → ChatMessage}
  {prompt : StdString} {schedule : List Label} {service next : ChatService}
  {core after shared : Core} {actor updated joined : Actor} {input : Input}
  {index : Nat}

theorem history_reports {call : HistoryCall} {snapshot : AgentHistorySnapshot}
    (stepped : call.step config core =
      some (after, .returned (.ok (some snapshot)))) :
    snapshot.messages = core.agentHistory := by
  cases call with
  | entered request =>
      cases request with
      | get => cases Option.some.inj stepped; rfl
      | clear => cases Option.some.inj stepped
      | replace messages => cases Option.some.inj stepped
      | swap messages => cases Option.some.inj stepped; rfl
      | append message =>
          simp only [HistoryCall.step] at stepped
          split at stepped
          · cases Option.some.inj stepped
          · cases Option.some.inj stepped
  | reading => cases Option.some.inj stepped; rfl
  | returned result => cases stepped

theorem Traced.writes (traced : Traced config prompt schedule service)
    (found : service.actors[index]? = some actor) {messages : List ChatMessage}
    (writes : actor.writes config service.shared input = some messages) :
    ∀ message ∈ messages, Sourced prompt schedule service message := by
  have brings := traced.brings index actor found
  unfold Actor.writes at writes
  split at writes
  · cases writes
    intro message member
    unfold resetAgentHistoryToSystemPrompt at member
    split at member
    · cases member
    · obtain rfl := List.mem_singleton.mp member
      exact .prompted traced.requested
  · cases writes
    exact fun message member => .uploaded ⟨_, brings, member⟩
  · cases writes
    exact fun message member => .uploaded ⟨_, brings, member⟩
  · split at writes
    · cases writes
    · cases writes
      intro message member
      rcases List.mem_append.mp member with before | new
      · exact traced.retained message before
      · exact .uploaded ⟨_, brings, new⟩
  · cases writes
    have given : Prompts prompt schedule _ := .inr brings
    have retained := traced.retained
    generalize service.shared.agentHistory = history at retained
    intro message member
    cases history with
    | nil =>
        simp only [updateSystemPromptState] at member
        split at member
        · cases member
        · obtain rfl := List.mem_singleton.mp member
          exact .prompted given
    | cons front rest =>
        have front_ := retained front List.mem_cons_self
        have rest_ (message : ChatMessage) (member : message ∈ rest) :=
          retained message (List.mem_cons_of_mem _ member)
        simp only [updateSystemPromptState] at member
        split at member
        · rename_i system
          split at member
          · exact rest_ message member
          · rcases List.mem_cons.mp member with rfl | later
            · exact .rewritten front_ system given
            · exact rest_ message later
        · split at member
          · exact retained message member
          · rcases List.mem_cons.mp member with rfl | later
            · exact .prompted given
            · exact retained message later
  · obtain ⟨⟨user, reply⟩, commits, rfl⟩ := Option.map_eq_some_iff.mp writes
    obtain ⟨request, pending, copy, readings, alive, rest, rfl, rfl, at_, copyAt⟩ :=
      commits_iff.mp commits
    obtain ⟨start, phase, drawn, submission, snapshot⟩ := request
    obtain rfl : phase = .pending pending := at_
    obtain ⟨⟨call, rfl, rfl⟩, replied⟩ := brings.2.operations _
      (List.mem_of_getElem? copyAt) _ List.mem_cons_self
    intro message member
    rcases List.mem_append.mp member with before | new
    · exact traced.retained message before
    · simp only [List.mem_cons, List.not_mem_nil, or_false] at new
      rcases new with rfl | rfl
      · exact .asked found rfl replied
      · exact .answered found rfl replied

theorem Traced.makes {request moved : Request} {advance : Advance}
    (bounded : config.sessions.maxHistoryMessages + 1 < sizeLimit)
    (traced : Traced config prompt schedule service)
    (held : Held config userOf service)
    (obeyed : Obeyed (Conversant config) Carrying service)
    (found : service.actors[index]? = some (.request request))
    (advanced : Advanced config service.shared request advance after moved)
    {target : Target} {messages : List ChatMessage}
    (prepared : moved.phase = .prepared target messages) :
    Told config prompt schedule service request.start messages := by
  have sound : request.Sound userOf service.shared := held.each index _ found
  cases advanced with
  | beginRequest at_ session executed proceeds =>
      have standing := sound.2
      rw [at_] at standing
      obtain ⟨trackingId, named, opening⟩ := standing
      have carried := execute_carries executed (obeyed.2 index _ found _ _ rfl at_)
      rcases beginPhase_cases proceeds with ⟨next, rfl, rfl⟩ |
        ⟨error, _, rfl⟩ | ⟨result, rfl, rfl⟩
      · cases prepared
      · cases prepared
      · obtain ⟨_, rfl⟩ := Phase.prepared.inj prepared
        obtain ⟨ptr, state, refers, at_, -, -, same, -⟩ :=
          opening.begins_open held.shared executed
        obtain ⟨bound, -⟩ := List.getElem?_eq_some_iff.mp at_
        obtain ⟨basePrompt, requestPrompt, created⟩ :=
          held.shared.consistent.created ptr bound
        have remembers := (held.shared.consistent.invariant ptr _ at_).remembers
          bounded basePrompt requestPrompt created
        obtain ⟨given, asked, called, rfl⟩ := traced.created _ _ _ created
        obtain ⟨handed, begun⟩ := opening.session
        simp only [Told, begun]
        exact ⟨ptr, basePrompt, asked, _, _, refers, given, called, created,
          List.prefix_rfl, carried.1, by rw [same, remembers]⟩
  | prepare at_ =>
      have standing := sound.2
      rw [at_] at standing
      unfold Told
      rw [standing.1]
      cases start : request.start with
      | agentChat call =>
          simp only [start, Service.prepare] at prepared
          split at prepared
          · cases prepared
          · obtain ⟨-, rfl⟩ := Phase.prepared.inj prepared
            exact ⟨_, traced.retained, rfl⟩
      | _ =>
          simp only [start, Service.prepare] at prepared
          obtain ⟨-, rfl⟩ := Phase.prepared.inj prepared
          exact ⟨_, traced.requested, rfl⟩
  | _ => cases prepared

theorem Traced.arrive (traced : Traced config prompt schedule service)
    (calm : Calm service.shared next.shared) (grows : Grows service next)
    (each : ∀ (place : Nat) actor, next.actors[place]? = some actor →
      service.actors[place]? = some actor ∨
        actor.Brings schedule place ∧
          (∀ result, actor ≠ .history (.returned result)) ∧
          ∀ request, actor = .request request →
            request.Hands (Told config prompt schedule next request.start)) :
    Traced config prompt schedule next := by
  obtain ⟨counter, turnedAway, -, same⟩ := calm
  constructor
  · intro place actor found
    rcases each place actor found with before | ⟨brings, -⟩
    · exact traced.brings place actor before
    · exact brings
  · rw [same]
    exact traced.requested
  · rw [same]
    exact traced.base
  · rw [same]
    exact traced.created
  · rw [same]
    intro ptr requestId turn committed
    obtain ⟨sessionId, refers, exchanged⟩ :=
      traced.committed ptr requestId turn committed
    exact ⟨sessionId, refers, exchanged.mono grows⟩
  · rw [same]
    exact traced.once
  · rw [same]
    exact fun message member => (traced.retained message member).mono grows
  · intro place snapshot found message member
    rcases each place _ found with before | ⟨-, fresh, -⟩
    · exact (traced.reported place snapshot before message member).mono grows
    · exact absurd rfl (fresh _)
  · intro place request found
    rcases each place _ found with before | ⟨-, -, hands⟩
    · exact (traced.handed place request before).mono fun messages told =>
        told.mono grows
    · exact hands request rfl

theorem Traced.turn
    (bounded : config.sessions.maxHistoryMessages + 1 < sizeLimit)
    (traced : Traced config prompt schedule service)
    (held : Held config userOf service)
    (obeyed : Obeyed (Conversant config) Carrying service)
    (outside : Obeyed (fun _ => True) Outside service)
    (found : service.actors[index]? = some actor)
    (member : .act index input ∈ schedule)
    (turn : Turn config service.shared actor input after updated) :
    Traced config prompt schedule ⟨after, service.actors.set index updated⟩ := by
  have sound := held.each index actor found
  have brings := traced.brings index actor found
  have grows := Grows.turn held found turn
  obtain ⟨events, log, logs⟩ := turn.logs held.shared sound brings
  have prompts : Prompts prompt schedule after.requestSystemPrompt ∧
      Prompts prompt schedule after.store.baseSystemPrompt := by
    by_cases updates : ∃ call, actor = .prompt call
    · obtain ⟨call, rfl⟩ := updates
      cases turn with
      | prompt stepped =>
          cases call with
          | updating text =>
              cases Option.some.inj stepped
              exact ⟨.inr brings, traced.base⟩
          | givingAgent text update =>
              cases Option.some.inj stepped
              exact ⟨traced.requested, traced.base⟩
          | givingStore text update =>
              obtain ⟨⟨middle, progress⟩, executed, same⟩ :=
                Option.map_eq_some_iff.mp stepped
              cases same
              obtain ⟨outcome, ran, rfl, -⟩ := execute_outcome executed
              refine ⟨traced.requested, ?_⟩
              change Prompts prompt schedule outcome.store.baseSystemPrompt
              rw [exec_baseSystemPrompt ran]
              exact .inr brings
          | returned text => cases stepped
    · have same := turn.prompts sound (outside.2 index actor found)
        fun call prompting => updates ⟨call, prompting⟩
      rw [same.requested, same.base]
      exact ⟨traced.requested, traced.base⟩
  constructor
  · intro place other at_
    rcases Crew.getElem?_set_origin at_ with ⟨rfl, rfl⟩ | ⟨-, before⟩
    · exact turn.brings (obeyed.2 index actor found) brings member
    · exact traced.brings place other before
  · exact prompts.1
  · exact prompts.2
  · change ∀ ptr basePrompt requestPrompt,
      .created ptr basePrompt requestPrompt ∈ after.log → _
    rw [log]
    intro ptr basePrompt requestPrompt created
    rcases List.mem_append.mp created with before | new
    · exact traced.created ptr basePrompt requestPrompt before
    · obtain ⟨rfl, called⟩ := logs.created ptr basePrompt requestPrompt new
      exact ⟨traced.base, called⟩
  · change ∀ ptr requestId turn, .committed ptr requestId turn ∈ after.log → _
    rw [log]
    intro ptr requestId turn committed
    rcases List.mem_append.mp committed with before | new
    · obtain ⟨sessionId, refers, exchanged⟩ :=
        traced.committed ptr requestId turn before
      exact ⟨sessionId, grows.heap _ _ refers, exchanged.mono grows⟩
    · obtain ⟨sessionId, request, handed, rfl, refers, drew, session, asked,
        replied⟩ := logs.committed ptr requestId turn new
      refine ⟨sessionId, grows.heap _ _ refers, Exchanged.mono grows ?_⟩
      exact ⟨index, request, handed, found, drew, session, asked, replied⟩
  · change (after.log.filterMap Event.commits).Nodup
    rw [log, List.filterMap_append]
    obtain ⟨once, never⟩ := logs.commits
    exact traced.once.append once fun requestId before new =>
      never requestId new before
  · change ∀ message ∈ after.agentHistory, _
    rw [turn.writes.history]
    intro message member
    cases writes : actor.writes config service.shared input with
    | none =>
        rw [writes] at member
        exact (traced.retained message member).mono grows
    | some messages =>
        rw [writes] at member
        exact (traced.writes found writes message member).mono grows
  · intro place snapshot at_ message shown
    refine Sourced.mono grows ?_
    rcases Crew.getElem?_set_origin at_ with ⟨-, rfl⟩ | ⟨-, before⟩
    · cases turn with
      | history stepped =>
          rw [history_reports stepped] at shown
          exact traced.retained message shown
    · exact traced.reported place snapshot before message shown
  · intro place request at_
    rcases Crew.getElem?_set_origin at_ with ⟨rfl, rfl⟩ | ⟨-, before⟩
    · cases turn with
      | @advance old _ _ _ advanced =>
          rw [advanced.start]
          have hands := (traced.handed index old found).mono
            fun messages told => Told.mono grows told
          exact advanced.hands hands fun target messages prepared =>
            (traced.makes bounded held obeyed found advanced prepared).mono grows
      | @consume old _ _ _ _ _ _ at_ drew consumed =>
          refine ⟨by simp, fun submission handed => ?_⟩
          exact ((traced.handed index old found).2 submission handed).mono grows
    · exact (traced.handed place request before).mono fun messages told =>
        told.mono grows

theorem Traced.step {label : Label}
    (bounded : config.sessions.maxHistoryMessages + 1 < sizeLimit)
    (traced : Traced config prompt schedule service)
    (reached : Reachable (step config) (initialService prompt) service)
    (member : label ∈ schedule)
    (stepped : step config service label = some next) :
    Traced config prompt schedule next := by
  obtain ⟨userOf, held⟩ := reachable_held reached
  have joins {shared : Core} {joined : Actor} (calm : Calm service.shared shared)
      (brings : joined.Brings schedule service.actors.length)
      (fresh : ∀ result, joined ≠ .history (.returned result))
      (hands : ∀ request, joined = .request request →
        request.Hands (Told config prompt schedule (service.join shared joined)
          request.start)) :
      Traced config prompt schedule (service.join shared joined) := by
    refine traced.arrive calm (.join calm) fun place actor found => ?_
    rcases Crew.getElem?_join_origin found with before | ⟨rfl, rfl⟩
    · exact .inl before
    · exact .inr ⟨brings, fresh, hands⟩
  have still : Calm service.shared service.shared := ⟨_, _, le_rfl, rfl⟩
  have turnsAway (error : ApiError) :
      Traced config prompt schedule
        { service with shared := service.shared.turnAway error } := by
    have calm : Calm service.shared (service.shared.turnAway error) :=
      ⟨_, _, le_rfl, rfl⟩
    exact traced.arrive calm (.calm calm) fun place actor found => .inl found
  cases label with
  | start ready start =>
      cases ready with
      | true =>
          cases Option.some.inj stepped
          refine joins (draw_calm _ _) ?_ (by simp) ?_
          · obtain ⟨phase, drawn, same, cases⟩ := startCall_cases config
              service.shared.nextCompletionId start
            rw [same]
            refine ⟨member, Request.Carries.starting ?_⟩
            rcases cases with ⟨current, rfl⟩ | rfl | ⟨error, rfl⟩
            · rfl
            · rfl
            · rfl
          · intro request same
            obtain rfl := Actor.request.inj same
            exact startCall_hands _ _
      | false =>
          cases Option.some.inj stepped
          exact turnsAway _
  | deleteSession sessionId =>
      cases Option.some.inj stepped
      exact joins still trivial (by simp) (by simp)
  | cancelRequest requestId =>
      cases Option.some.inj stepped
      exact joins still trivial (by simp) (by simp)
  | agentHistory ready request =>
      cases ready with
      | true =>
          cases Option.some.inj stepped
          exact joins still member (by simp) (by simp)
      | false =>
          cases Option.some.inj stepped
          exact turnsAway _
  | setSystemPrompt text =>
      cases Option.some.inj stepped
      exact joins still member (by simp) (by simp)
  | call call =>
      simp only [Service.step] at stepped
      split at stepped
      · rename_i allowed
        cases Option.some.inj stepped
        refine joins still ?_ (by simp) (by simp)
        intro request created
        cases call with
        | createSession asked =>
            obtain rfl := Option.some.inj created
            exact member
        | _ => cases created
      · contradiction
  | act index input =>
      obtain ⟨actor, after, updated, found, acted, rfl⟩ :=
        Crew.turn_eq_some stepped
      exact traced.turn bounded held (reachable_conversant reached)
        (outside_disciplined.reachable trivial reached) found member
        (act_turn acted)

/-- A session remembers its system message and its last turns. -/
theorem Traced.remembers
    (bounded : config.sessions.maxHistoryMessages + 1 < sizeLimit)
    (traced : Traced config prompt schedule service)
    (held : Held config userOf service) {ptr : SessionPtr}
    {session : SessionState}
    (found : service.shared.store.heap[ptr]? = some session) :
    ∃ basePrompt request, Prompts prompt schedule basePrompt ∧
      .call (.createSession request) ∈ schedule ∧
      session.history = makeInitialHistory basePrompt request.systemPrompt ++
        turnMessages ((turnsOf ptr service.shared.log).rtake
          (config.sessions.maxHistoryMessages / 2)) := by
  obtain ⟨bound, -⟩ := List.getElem?_eq_some_iff.mp found
  obtain ⟨basePrompt, requestPrompt, created⟩ :=
    held.shared.consistent.created ptr bound
  obtain ⟨given, request, called, rfl⟩ := traced.created _ _ _ created
  exact ⟨basePrompt, request, given, called,
    (held.shared.consistent.invariant ptr session found).remembers bounded _ _
      created⟩

end Tracing

end ZooKeeperServer.Service
