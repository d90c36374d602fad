import ZooKeeperServer.Server.RoundTrip
import ZooKeeperServer.Service.Deletion
import ZooKeeperServer.Service.PromptAlignment
import ZooKeeperServer.SessionStore.Conversations

namespace ZooKeeperServer.Service

open SessionStore Transition

/-! What the agent is given to complete or to extract from, on the paths that do
not use the retained history. -/

def StartRequest.messages : StartRequest → List ChatMessage
  | .completion request => request.messages
  | .extraction request => request.messages
  | .agentChat request => [request.message]

/-- A chat or extraction request that its parser has accepted. -/
def StartRequest.Parsed (rule : RoleRule) : StartRequest → Prop
  | .completion request =>
      ∃ json body, parseChatCompletionRequest rule json body = .ok request
  | .extraction request =>
      ∃ json body, parseExtractionRequest rule json body = .ok request
  | .agentChat _ => False

def leadingPrompt : List ChatMessage → StdString
  | [] => []
  | front :: _ => if front.role = .system then front.content else []

/-- A conversation made of the client's messages under a base prompt; `own` is the
system text of the client or the session. -/
structure ValidConversation (basePrompt own : StdString)
    (client messages : List ChatMessage) : Prop where
  ordered : WellOrdered messages
  suffix : conversation client <:+ messages
  prompted : basePrompt ≠ [] → ∃ rest,
    messages = .system (combineSystemPrompts basePrompt own) :: rest ∧
      ∀ next ∈ rest.head?, next.role ≠ .system

section Preparing

variable {client messages : List ChatMessage} {basePrompt own : StdString}

theorem StartRequest.Parsed.conversation {rule : RoleRule}
    {start : StartRequest} (parsed : start.Parsed rule) :
    WellOrdered start.messages := by
  cases start with
  | completion request =>
      obtain ⟨json, body, accepted⟩ := parsed
      exact (parseChatCompletionRequest_conversation accepted).1
  | extraction request =>
      obtain ⟨json, body, accepted⟩ := parsed
      exact (parseExtractionRequest_conversation accepted).1
  | agentChat request => exact parsed.elim

theorem conversation_suffix : conversation client <:+ client := by
  cases client with
  | nil => exact List.suffix_rfl
  | cons front rest =>
      simp only [conversation]
      split
      · exact List.suffix_cons front rest
      · exact List.suffix_rfl

theorem prompt_wellOrdered {prompt : StdString} (ordered : WellOrdered client) :
    WellOrdered (.system prompt :: conversation client) := by
  cases client with
  | nil =>
      exact wellOrdered_cons.mpr
        ⟨by simp [ChatMessage.system], by simp [conversation], .nil⟩
  | cons front rest =>
      obtain ⟨noTool, next, chain⟩ := wellOrdered_cons.mp ordered
      refine wellOrdered_cons.mpr ⟨by simp [ChatMessage.system], ?_, ?_⟩
      · intro message member
        simp only [conversation] at member
        split at member
        · rename_i system
          have follows : message.role = .tool ∨ message.role ≠ front.role :=
            next message member
          rw [system] at follows
          exact follows
        · rename_i other
          obtain rfl := Option.some.inj member
          exact .inr other
      · simp only [conversation]
        split
        · exact chain
        · exact (wellOrdered_iff_chain.mp ordered).2

theorem system_alone {prompt : StdString}
    (ordered : WellOrdered (.system prompt :: messages)) :
    ∀ next ∈ messages.head?, next.role ≠ .system := by
  intro next member
  rcases (wellOrdered_cons.mp ordered).2.1 next member with tool | different
  · simp [tool]
  · exact different

theorem prepareMessages_eq (prompted : basePrompt ≠ []) :
    prepareMessages basePrompt client =
      .system (combineSystemPrompts basePrompt (leadingPrompt client)) ::
        conversation client := by
  cases client with
  | nil =>
      simp [prepareMessages, prompted, combineSystemPrompts, leadingPrompt,
        conversation]
  | cons front rest =>
      by_cases system : front.role = .system
      · simp [prepareMessages, prompted, leadingPrompt, conversation, system]
      · simp [prepareMessages, prompted, combineSystemPrompts, leadingPrompt,
          conversation, system]

/-- `prepare_messages` makes a conversation of a conversation. -/
theorem prepareMessages_valid (ordered : WellOrdered client) :
    ValidConversation basePrompt (leadingPrompt client) client
      (prepareMessages basePrompt client) := by
  by_cases unprompted : basePrompt = []
  · have same : prepareMessages basePrompt client = client := by
      simp [prepareMessages, unprompted]
    rw [same]
    exact ⟨ordered, conversation_suffix, fun prompted =>
      absurd unprompted prompted⟩
  · rw [prepareMessages_eq unprompted]
    have prompted : WellOrdered
        (.system (combineSystemPrompts basePrompt (leadingPrompt client)) ::
          conversation client) :=
      prompt_wellOrdered ordered
    exact ⟨prompted, List.suffix_cons _ _, fun _ =>
      ⟨_, rfl, system_alone prompted⟩⟩

/-- So does `begin_request`, of a session's history and the client's message. -/
theorem begun_valid {requestPrompt : Option StdString} {turns : List SessionStore.Turn}
    {user : ChatMessage} (asks : Asks client user)
    (fromUsers : ∀ turn ∈ turns, turn.user.role = .user) :
    ValidConversation basePrompt (requestPrompt.getD []) client
      (makeInitialHistory basePrompt requestPrompt ++ turnMessages turns ++
        [user]) := by
  obtain ⟨rfl, fromUser⟩ := asks
  have ordered := conversation_wellOrdered
    (makeInitialHistory_initial basePrompt requestPrompt) fromUsers fromUser
  refine ⟨ordered, ?_, fun prompted => ?_⟩
  · have alone : conversation [user] = [user] := by
      simp [conversation, fromUser]
    rw [alone]
    exact List.suffix_append _ _
  · have combined :
        combineSystemPrompts basePrompt (requestPrompt.getD []) ≠ [] := by
      unfold combineSystemPrompts
      split
      · rename_i empty
        exact absurd (List.isEmpty_iff.mp empty) prompted
      split
      · exact prompted
      · simp [prompted]
    have initial : makeInitialHistory basePrompt requestPrompt =
        [.system (combineSystemPrompts basePrompt (requestPrompt.getD []))] := by
      simp [makeInitialHistory, combined]
    rw [initial] at ordered ⊢
    exact ⟨_, rfl, system_alone ordered⟩

end Preparing

def Conversant (config : Configuration) (core : Core) : Prop :=
  Fits config.sessions core.log → Conversing core.store.heap core.log

/-- Inside `begin_request`, the request hands over its own messages. -/
def Carrying (_ : Core) (actor : Actor) : Prop :=
  ∀ request current, actor = .request request →
    request.phase = .beginning current →
    current.Carries request.start.messages

section Discipline

variable {config : Configuration} {userOf : RequestId → ChatMessage}
  {core after : Core} {actor updated : Actor} {input : Input}

theorem StartRequest.session_messages {start : StartRequest}
    {sessionId : StdString} {handed : ChatCompletionRequest}
    (session : start.session = some (sessionId, handed)) :
    handed.messages = start.messages := by
  cases start with
  | agentChat request => cases session
  | _ =>
      obtain ⟨_, _, same⟩ := Option.map_eq_some_iff.mp session
      obtain ⟨_, rfl⟩ := Prod.mk.inj same
      rfl

theorem Conversant.mono (conversant : Conversant config core)
    (sane : Sane userOf after config.sessions) (moves : Moves config core after) :
    Conversant config after := by
  obtain ⟨current, progress, events, log, effect⟩ := moves
  rw [Conversant, log]
  intro fits
  refine effect.conversing (conversant (fits.earlier (List.subset_append_left _ _))) fits
    fun ptr requestId turn committed => ?_
  have member : .committed ptr requestId turn ∈ after.log :=
    log ▸ List.mem_append_right _ committed
  have bound := sane.consistent.changed _ member ptr rfl
  have invariant := sane.consistent.invariant ptr _
    (List.getElem?_eq_getElem bound)
  refine invariant.users turn (List.mem_filterMap.mpr ⟨_, member, ?_⟩)
  simp

theorem execute_carries {readings : Readings} {current : Section}
    {progress : Progress} {messages : List ChatMessage}
    (executed : core.execute config readings current = some (after, progress))
    (carries : current.Carries messages) : progress.Carries messages := by
  obtain ⟨outcome, ran, rfl, rfl⟩ := execute_outcome executed
  exact exec_carries carries ran

theorem Turn.carrying (carrying : Carrying core actor)
    (turn : Turn config core actor input after updated) :
    Carrying after updated := by
  rintro request current rfl beginning
  cases turn with
  | advance advanced =>
      cases advanced with
      | beginRequest at_ session executed proceeds =>
          have before := execute_carries executed (carrying _ _ rfl at_)
          rcases beginPhase_cases proceeds with ⟨next, rfl, rfl⟩ |
            ⟨error, _, rfl⟩ | ⟨result, _, rfl⟩
          · obtain rfl := Phase.beginning.inj beginning
            exact before
          · cases beginning
          · cases beginning
      | prepare at_ =>
          rcases prepare_cases config core _ with ⟨error, refused⟩ |
            ⟨target, messages, prepared, _⟩
          · exact absurd (refused.symm.trans beginning) (by simp)
          · exact absurd (prepared.symm.trans beginning) (by simp)
      | _ => cases beginning
  | consume at_ drew consumed => cases beginning

theorem conversing_disciplined :
    Discipline config .none (Conversant config) Carrying where
  own := fun sane sound conversant carrying _ turn =>
    ⟨conversant.mono (turn.sane sane sound) turn.moves, turn.carrying carrying⟩
  others := fun _ _ _ _ _ _ carrying _ _ => carrying
  calm := by
    rintro core after ⟨counter, turnedAway, _, rfl⟩
    exact ⟨id, fun _ carrying => carrying⟩
  starts := by
    intro userOf core start _ _ request current same beginning
    obtain rfl := Actor.request.inj same
    unfold startCall at beginning ⊢
    split at beginning
    · rename_i sessionId handed session
      obtain rfl := Phase.beginning.inj beginning
      simpa [session, Section.Carries] using
        StartRequest.session_messages session
    · split at beginning
      · cases beginning
      · cases beginning
  joins := by
    rintro core actor arriving request current rfl
    cases arriving

theorem reachable_conversant {prompt : StdString} {service : ChatService}
    (reached : Reachable (step config) (initialService prompt) service) :
    Obeyed (Conversant config) Carrying service :=
  conversing_disciplined.reachable
    (by simp [Conversant, Conversing, initialService, initialStore]) reached

end Discipline

/-- What holds of the messages that are ready for the agent or with it. -/
def Request.Hands (request : Request) (Given : List ChatMessage → Prop) : Prop :=
  (∀ target messages, request.phase = .prepared target messages →
    Given messages) ∧
  ∀ submission, request.submission = some submission → Given submission.messages

section Handing

variable {config : Configuration} {userOf : RequestId → ChatMessage}
  {core after : Core} {request updated : Request} {input : Advance}
  {Given Known : List ChatMessage → Prop}

theorem Request.Hands.mono (hands : request.Hands Given)
    (known : ∀ messages, Given messages → Known messages) :
    request.Hands Known :=
  ⟨fun target messages prepared => known messages (hands.1 target messages prepared),
    fun submission handed => known _ (hands.2 submission handed)⟩

theorem Advanced.hands (advanced : Advanced config core request input after updated)
    (hands : request.Hands Given)
    (made : ∀ target messages, updated.phase = .prepared target messages →
      Given messages) : updated.Hands Given := by
  refine ⟨made, fun submission handed => ?_⟩
  cases advanced with
  | complete at_ =>
      obtain rfl := Option.some.inj handed
      rw [StartRequest.submission_messages]
      exact hands.1 _ _ at_
  | _ => exact hands.2 submission handed

theorem startCall_hands (trackingId : RequestId) (start : StartRequest) :
    (startCall config trackingId start).Hands Given := by
  obtain ⟨phase, drawn, same, cases⟩ := startCall_cases config trackingId start
  rw [same]
  refine ⟨fun target messages prepared => ?_, by simp⟩
  replace prepared : phase = .prepared target messages := prepared
  rcases cases with ⟨current, rfl⟩ | rfl | ⟨error, rfl⟩
  · cases prepared
  · cases prepared
  · cases prepared

theorem Advanced.made (sane : Sane userOf core config.sessions)
    (sound : request.Sound userOf core)
    (conversing : Conversing core.store.heap core.log)
    (carrying : Carrying core (.request request))
    (advanced : Advanced config core request input after updated)
    (parsed : request.start.Parsed config.rule) {target : Target}
    {messages : List ChatMessage}
    (prepared : updated.phase = .prepared target messages) :
    (request.start.session = none ∧ input = .prepare ∧
      ValidConversation core.requestSystemPrompt
        (leadingPrompt request.start.messages) request.start.messages messages) ∨
    ∃ sessionId handed ptr basePrompt requestPrompt,
      request.start.session = some (sessionId, handed) ∧
        Refers core.store.heap sessionId ptr ∧
        .created ptr basePrompt requestPrompt ∈ core.log ∧
        ValidConversation basePrompt (requestPrompt.getD [])
          request.start.messages messages := by
  cases advanced with
  | beginRequest at_ session executed proceeds =>
      have held := sound.2
      rw [at_] at held
      obtain ⟨trackingId, named, opening⟩ := held
      have carried := execute_carries executed (carrying _ _ rfl at_)
      rcases beginPhase_cases proceeds with ⟨next, rfl, rfl⟩ |
        ⟨error, _, rfl⟩ | ⟨result, rfl, rfl⟩
      · cases prepared
      · cases prepared
      · obtain ⟨_, rfl⟩ := Phase.prepared.inj prepared
        obtain ⟨ptr, held, refers, found, _, _, same, _⟩ :=
          opening.begins_open sane executed
        obtain ⟨basePrompt, requestPrompt, turns, created, fromUsers, history⟩ :=
          conversing ptr held found
        obtain ⟨handed, begun⟩ := opening.session
        refine .inr ⟨named, handed, ptr, basePrompt, requestPrompt, begun, refers,
          created, ?_⟩
        rw [same, history]
        exact begun_valid carried fromUsers
  | prepare at_ =>
      have held := sound.2
      rw [at_] at held
      have ordered := parsed.conversation
      refine .inl ⟨held.1, rfl, ?_⟩
      cases start : request.start with
      | completion call =>
          simp only [start, Service.prepare] at prepared ordered
          obtain ⟨_, rfl⟩ := Phase.prepared.inj prepared
          exact prepareMessages_valid ordered
      | extraction call =>
          simp only [start, Service.prepare] at prepared ordered
          obtain ⟨_, rfl⟩ := Phase.prepared.inj prepared
          exact prepareMessages_valid ordered
      | agentChat call =>
          rw [start] at parsed
          exact parsed.elim
  | _ => cases prepared

end Handing

section Runs

variable (config : Configuration) (prompt : StdString) (schedule : List Label)
  (index : Nat) (core : Core) (start : StartRequest)

/-- The base prompt of the request's conversation, and the system text of its client
or its session.  Without a session it is the service's prompt when the start call
copies it, with one the store's when the session is created. -/
def Prompted (basePrompt own : StdString) : Prop :=
  match start.session with
  | none =>
      own = leadingPrompt start.messages ∧ ∃ earlier service,
        earlier ++ [.act index (.advance .prepare)] <+: schedule ∧
          run (step config) (initialService prompt) earlier = some service ∧
          service.shared.requestSystemPrompt = basePrompt
  | some (sessionId, _) =>
      ∃ ptr requestPrompt, Refers core.store.heap sessionId ptr ∧
        .created ptr basePrompt requestPrompt ∈ core.log ∧
        own = requestPrompt.getD []

def Conversed (messages : List ChatMessage) : Prop :=
  ∃ basePrompt own, Prompted config prompt schedule index core start basePrompt own ∧
    ValidConversation basePrompt own start.messages messages

variable {config prompt schedule index core start}
variable {userOf : RequestId → ChatMessage} {after : Core}
  {label : Label} {messages : List ChatMessage}

theorem Conversed.mono
    (conversed : Conversed config prompt schedule index core start messages)
    (preserves : Preserves core.store.heap after.store.heap)
    (logged : core.log ⊆ after.log) :
    Conversed config prompt (schedule ++ [label]) index after start messages := by
  obtain ⟨basePrompt, own, prompted, valid⟩ := conversed
  refine ⟨basePrompt, own, ?_, valid⟩
  unfold Prompted at prompted ⊢
  split at prompted
  · obtain ⟨same, earlier, service, before, ran, copied⟩ := prompted
    exact ⟨same, earlier, service, before.trans (List.prefix_append _ _), ran,
      copied⟩
  · obtain ⟨ptr, requestPrompt, refers, created, same⟩ := prompted
    exact ⟨ptr, requestPrompt, preserves _ _ refers, logged created, same⟩

theorem Advanced.conversed {service : ChatService} {request updated : Request}
    {input : Advance} (held : Held config userOf service)
    (obeyed : Obeyed (Conversant config) Carrying service)
    (ran : run (step config) (initialService prompt) schedule = some service)
    (found : service.actors[index]? = some (.request request))
    (fits : Fits config.sessions service.shared.log)
    (advanced : Advanced config service.shared request input after updated)
    (parsed : request.start.Parsed config.rule)
    (hands : request.Hands (Conversed config prompt schedule index
      service.shared request.start)) :
    updated.Hands (Conversed config prompt
      (schedule ++ [.act index (.advance input)]) index after request.start) := by
  have sound : request.Sound userOf service.shared := held.each index _ found
  have guarantees := advanced.guarantees sound
  have member {event : Event} (logged : event ∈ service.shared.log) :
      event ∈ after.log := guarantees.member logged
  refine advanced.hands (hands.mono fun messages conversed =>
    conversed.mono guarantees.heap fun _ => member) ?_
  intro target messages prepared
  rcases advanced.made held.shared sound (obeyed.1 fits) (obeyed.2 index _ found)
    parsed prepared with ⟨sessionless, rfl, valid⟩ |
    ⟨sessionId, handed, ptr, basePrompt, requestPrompt, session, refers, created,
      valid⟩
  · refine ⟨_, _, ?_, valid⟩
    simp only [Prompted, sessionless, true_and]
    exact ⟨schedule, service, List.prefix_rfl, ran, rfl⟩
  · refine ⟨_, _, ?_, valid⟩
    simp only [Prompted, session]
    exact ⟨ptr, requestPrompt, guarantees.heap _ _ refers, member created, rfl⟩

/-- After any run, for any request its parser has accepted. -/
theorem run_conversed {service : ChatService} {request : Request}
    (ran : run (step config) (initialService prompt) schedule = some service)
    (found : service.actors[index]? = some (.request request))
    (fits : Fits config.sessions service.shared.log)
    (parsed : request.start.Parsed config.rule) :
    request.Hands (Conversed config prompt schedule index service.shared
      request.start) := by
  induction schedule using List.reverseRecOn generalizing service request with
  | nil =>
      obtain rfl := Option.some.inj ran
      simp [initialService] at found
  | append_singleton earlier label ih =>
      obtain ⟨middle, before, stepped⟩ := run_concat.mp ran
      obtain ⟨userOf, held⟩ := reachable_held ⟨earlier, before⟩
      have obeyed := reachable_conversant ⟨earlier, before⟩
      cases step_stepped stepped with
      | turnsAway elsewhere =>
          exact (ih before found fits parsed).mono fun messages conversed =>
            conversed.mono (fun _ _ => id) fun _ => id
      | starts =>
          rcases Crew.getElem?_join_origin found with earlierAt | ⟨_, same⟩
          · obtain ⟨counter, turnedAway, _, drawn⟩ :=
              draw_calm middle.shared _
            rw [Crew.join, drawn] at fits ⊢
            exact (ih before earlierAt fits parsed).mono fun messages conversed =>
              conversed.mono (fun _ _ => id) fun _ => id
          · obtain rfl := Actor.request.inj same
            exact startCall_hands _ _
      | arrives arriving elsewhere =>
          rcases Crew.getElem?_join_origin found with earlierAt | ⟨_, rfl⟩
          · exact (ih before earlierAt fits parsed).mono fun messages conversed =>
              conversed.mono (fun _ _ => id) fun _ => id
          · cases arriving
      | @turn acting input actor updated after foundBefore turn =>
          have guarantees := turn.guarantees (held.each acting actor foundBefore)
          have earlierFits : Fits config.sessions middle.shared.log :=
            fits.earlier fun _ => guarantees.member
          rcases Crew.getElem?_set_origin found with ⟨rfl, rfl⟩ |
            ⟨other, earlierAt⟩
          · cases turn with
            | @advance old _ _ _ advanced =>
                have kept : request.start = old.start := by
                  cases advanced <;> rfl
                rw [kept] at parsed ⊢
                exact advanced.conversed held obeyed before foundBefore earlierFits
                  parsed (ih before foundBefore earlierFits parsed)
            | consume at_ drew consumed =>
                refine ⟨by simp, fun submission handed => ?_⟩
                have earlier :=
                  (ih before foundBefore earlierFits parsed).2 submission handed
                exact earlier.mono guarantees.heap fun _ => guarantees.member
          · exact (ih before earlierAt earlierFits parsed).mono
              fun messages conversed =>
                conversed.mono guarantees.heap fun _ => guarantees.member

end Runs

/-- Whatever the agent is given for an accepted chat or extraction request is a
conversation of the client under the base prompt, as long as no turn has been
committed behind a system message under the largest limit. -/
theorem handed_conversations_valid {config : Configuration} {prompt : StdString}
    {schedule : List Label} {service : ChatService} {index : Nat}
    {request : Request} {submission : Submission}
    (ran : run (step config) (initialService prompt) schedule = some service)
    (found : service.actors[index]? = some (.request request))
    (fits : Fits config.sessions service.shared.log)
    (parsed : request.start.Parsed config.rule)
    (handed : request.submission = some submission) :
    ∃ basePrompt own,
      Prompted config prompt schedule index service.shared request.start
          basePrompt own ∧
        ValidConversation basePrompt own request.start.messages
          submission.messages :=
  (run_conversed ran found fits parsed).2 submission handed

/-! A session with a system prompt of its own, and a request on it. -/

def sampleChatBody : Json :=
  Json.objectOf
    [(literal "model", .string (literal "m")),
      (literal "messages", .array [makeMessageBody (.user (literal "hi"))]),
      (literal "session_id", .string (literal "sess-1"))]

def sampleHanding : List Label :=
  [.call (.createSession ⟨literal "m", some (literal "be kind")⟩),
    .act 0 (.run ⟨0, 0, []⟩), .act 0 (.run ⟨0, 0, []⟩)] ++ beginning 1 ++
    [.act 1 (.advance (.complete 7))]

def sampleHanded : ChatService :=
  (run (step sampleConfig) (initialService (literal "be brief"))
    sampleHanding).getD (initialService [])

theorem handed_conversations_valid_sample :
    ∃ basePrompt own,
      Prompted sampleConfig (literal "be brief") sampleHanding 1
          sampleHanded.shared (.completion sampleRequest) basePrompt own ∧
        ValidConversation basePrompt own [.user (literal "hi")]
          [.system (literal "be brief\n\nbe kind"), .user (literal "hi")] := by
  have parsed : (StartRequest.completion sampleRequest).Parsed sampleConfig.rule :=
    ⟨readingJson [sampleChatBody], textOf sampleChatBody, by decide +kernel⟩
  have ran : run (step sampleConfig) (initialService (literal "be brief"))
      sampleHanding = some sampleHanded :=
    run_eq_getD (by decide +kernel)
  obtain ⟨request, found, start, handed⟩ : ∃ request,
      requestAt sampleHanded 1 = some request ∧
        request.start = .completion sampleRequest ∧
        request.submission = some (.complete
          [.system (literal "be brief\n\nbe kind"), .user (literal "hi")]) :=
    ⟨_, rfl, rfl, rfl⟩
  have valid := handed_conversations_valid ran (requestAt_eq_some found)
    (fits_of_bounded (by decide) _) (start ▸ parsed) handed
  rw [start] at valid
  exact valid

/-! The same session under the largest limit, and a second request on it. -/

def sampleUnlimited : Configuration :=
  { sampleConfig with
    sessions := { sampleConfig.sessions with maxHistoryMessages := sizeLimit - 1 } }

def sampleForgetting : List Label :=
  sampleHanding ++
    [.act 1 (.advance .spawn), .act 1 (.advance (.track 2)),
      .act 1 (.advance .register),
      .act 1 (.consume 0 (.finalize (.completion
        (.ok { text := literal "yo" }))))] ++
    List.replicate 3 (.act 1 (.consume 0 (.proceed ⟨3, 3, []⟩))) ++ beginning 2 ++
    [.act 2 (.advance (.complete 8))]

def sampleForgot : ChatService :=
  (run (step sampleUnlimited) (initialService (literal "be brief"))
    sampleForgetting).getD (initialService [])

/-- The second conversation has lost its system message. -/
theorem system_message_lost :
    ∃ request, run (step sampleUnlimited) (initialService (literal "be brief"))
        sampleForgetting = some sampleForgot ∧
      sampleForgot.actors[2]? = some (.request request) ∧
      request.start.Parsed sampleUnlimited.rule ∧
      request.submission = some (.complete [.user (literal "hi")]) ∧
      ¬ ∃ basePrompt own,
        Prompted sampleUnlimited (literal "be brief") sampleForgetting 2
            sampleForgot.shared request.start basePrompt own ∧
          ValidConversation basePrompt own request.start.messages
            [.user (literal "hi")] := by
  have ran : run (step sampleUnlimited) (initialService (literal "be brief"))
      sampleForgetting = some sampleForgot :=
    run_eq_getD (by decide +kernel)
  obtain ⟨request, found, start, handed⟩ : ∃ request,
      requestAt sampleForgot 2 = some request ∧
        request.start = .completion sampleRequest ∧
        request.submission = some (.complete [.user (literal "hi")]) :=
    ⟨_, rfl, rfl, rfl⟩
  have logged : sampleForgot.shared.log =
      [.created 0 (literal "be brief") (some (literal "be kind")),
        .began 0 1 ⟨[.system (literal "be brief\n\nbe kind"),
          .user (literal "hi")], 1, .user (literal "hi")⟩,
        .committed 0 1 ⟨.user (literal "hi"), literal "yo"⟩,
        .began 0 2 ⟨[.user (literal "hi")], 1, .user (literal "hi")⟩] := by
    decide +kernel
  refine ⟨request, ran, requestAt_eq_some found, ?_, handed, ?_⟩
  · rw [start]
    exact ⟨readingJson [sampleChatBody], textOf sampleChatBody, by decide +kernel⟩
  · rw [start]
    rintro ⟨basePrompt, own, ⟨ptr, requestPrompt, -, created, -⟩, valid⟩
    rw [logged] at created
    obtain ⟨rfl, rfl, -⟩ : ptr = 0 ∧ basePrompt = literal "be brief" ∧
        requestPrompt = some (literal "be kind") := by
      simpa using created
    obtain ⟨rest, same, -⟩ := valid.prompted (by decide)
    cases same

end ZooKeeperServer.Service
