import ZooKeeperServer.Http.KeyGate
import ZooKeeperServer.Service.Finished

namespace ZooKeeperServer.Routes

open SessionStore Service Transition

/-! The session routes as their clients see them: one order of the operations of an
atomic directory gives every answer, and keeps the order of exchanges that do not
overlap. -/

inductive ServiceCall.Makes : ServiceCall → Call → Prop
  | createSession (request : SessionCreateRequest) :
      Makes (.createSession request) (.createSession request)
  | getSession (sessionId : StdString) :
      Makes (.getSession sessionId) (.getSession sessionId)
  | deleteSession (sessionId : StdString) :
      Makes (.deleteSession sessionId) (.deleteSession sessionId)
  | start {streamed : Bool} {request : StartRequest} {sessionId : StdString}
      {handed : ChatCompletionRequest} {trackingId : RequestId}
      (session : request.session = some (sessionId, handed)) :
      Makes (.start streamed request) (.beginRequest handed trackingId)
  | setSystemPrompt (prompt : StdString) :
      Makes (.setSystemPrompt prompt) (.setBaseSystemPrompt prompt)

def ServiceCall.onSessions : ServiceCall → Bool
  | .createSession _ => true
  | .getSession _ => true
  | .deleteSession _ => true
  | .start _ request => request.session.isSome
  | _ => false

/-- The answer shows what the store has returned; that of a request which the store
has let begin shows what comes of it. -/
def ServiceCall.Shows (settings : ServerSettings) (output : Output)
    (answer : Except StdException Answer) : ServiceCall → Prop
  | .createSession _ =>
      ∃ result, output = .summary result ∧
        answer = sessionAnswer settings 201 result
  | .getSession _ =>
      ∃ result, output = .summary result ∧
        answer = sessionAnswer settings 200 result
  | .deleteSession _ =>
      ∃ result, output = .deleted result ∧ answer = emptyAnswer settings result
  | .start _ _ =>
      ∃ result, output = .begun result ∧
        ∀ error, result = .error error → answer = errorAnswer settings error
  | _ => True

section Attaching

variable {settings : ServerSettings} {prompt : StdString} {schedule : List Label}
  {server next : Server} {label : Label} {call : ServiceCall}

/-- The actor of an exchange makes its call, and an answer is what it has been
told. -/
structure Attached (settings : ServerSettings) (ledger : Ledger)
    (service : ChatService) (exchange : Exchange) (index : Nat)
    (call : ServiceCall) (performer : Actor) : Prop where
  called : exchange.call = some call
  found : service.actors[index]? = some performer
  asked : ∃ asked, ledger.asked[index]? = some asked ∧
    ∀ made ∈ asked, call.Makes made
  started : ∀ request, performer = .request request →
    ∃ streamed, call = .start streamed request.start
  answered : ∀ answer, exchange.answer = some answer → call.onSessions = true →
    performer.finished = true ∧ ∃ output,
      performer.standing = some (.returned output) ∧
        call.Shows settings output answer

theorem Attached.mono {ledger later : Ledger} {service after : ChatService}
    {exchange : Exchange} {index : Nat} {performer : Actor}
    (attached : Attached settings ledger service exchange index call performer)
    (continues : ledger.Continues later)
    (succeeds : ∃ actor, after.actors[index]? = some actor ∧
      performer.Succeeds actor) :
    ∃ actor, Attached settings later after exchange index call actor := by
  obtain ⟨actor, found, stays, started⟩ := succeeds
  refine ⟨actor, attached.called, found, ?_, ?_, ?_⟩
  · obtain ⟨asked, here, makes⟩ := attached.asked
    obtain ⟨bound, same⟩ := List.getElem?_eq_some_iff.mp here
    exact ⟨asked, same ▸ List.prefix_iff_getElem?.mp continues.asked index bound,
      makes⟩
  · intro moved same
    obtain ⟨request, before, start⟩ := started moved same
    rw [start]
    exact attached.started request before
  · intro answer answered session
    obtain ⟨finished, output, stood, shows⟩ :=
      attached.answered answer answered session
    obtain ⟨still, standing⟩ := stays finished
    exact ⟨still, output, standing.trans stood, shows⟩

theorem label_joins {config : Configuration} {ready : Bool}
    {command : Service.Label} {service after : ChatService}
    (accepted : call.refusal ready = none)
    (labelled : call.label ready = some command)
    (stepped : Service.step config service command = some after) :
    ∃ joined asked, after.actors = service.actors ++ [joined] ∧
      command.asks service.shared = some asked ∧
      (∀ made ∈ asked, call.Makes made) ∧
      ∀ request, joined = .request request →
        ∃ streamed, call = .start streamed request.start := by
  cases call with
  | start streamed start =>
      cases ready with
      | false => cases accepted
      | true =>
          obtain rfl := Option.some.inj labelled
          cases Option.some.inj stepped
          refine ⟨_, _, rfl, rfl, ?_, ?_⟩
          · intro made asked
            obtain ⟨⟨sessionId, handed⟩, session, rfl⟩ :=
              Option.map_eq_some_iff.mp asked
            exact .start session
          · intro request same
            obtain rfl := Actor.request.inj same
            obtain ⟨phase, drawn, shape, -⟩ := startCall_cases config
              service.shared.nextCompletionId start
            rw [shape]
            exact ⟨streamed, rfl⟩
  | createSession request =>
      cases ready with
      | false => cases accepted
      | true =>
          obtain rfl := Option.some.inj labelled
          cases Option.some.inj stepped
          refine ⟨_, _, rfl, rfl, ?_, by simp⟩
          rintro made asked
          obtain rfl := Option.some.inj asked
          exact .createSession request
  | getSession sessionId =>
      obtain rfl := Option.some.inj labelled
      cases Option.some.inj stepped
      refine ⟨_, _, rfl, rfl, ?_, by simp⟩
      rintro made asked
      obtain rfl := Option.some.inj asked
      exact .getSession sessionId
  | deleteSession sessionId =>
      obtain rfl := Option.some.inj labelled
      cases Option.some.inj stepped
      refine ⟨_, _, rfl, rfl, ?_, by simp⟩
      rintro made asked
      obtain rfl := Option.some.inj asked
      exact .deleteSession sessionId
  | cancelRequest requestId =>
      obtain rfl := Option.some.inj labelled
      cases Option.some.inj stepped
      exact ⟨_, _, rfl, rfl, by simp, by simp⟩
  | agentHistory request =>
      cases ready with
      | false => cases accepted
      | true =>
          obtain rfl := Option.some.inj labelled
          cases Option.some.inj stepped
          exact ⟨_, _, rfl, rfl, by simp, by simp⟩
  | getSystemPrompt => cases labelled
  | setSystemPrompt text =>
      obtain rfl := Option.some.inj labelled
      cases Option.some.inj stepped
      refine ⟨_, _, rfl, rfl, ?_, by simp⟩
      rintro made asked
      obtain rfl := Option.some.inj asked
      exact .setSystemPrompt text

theorem answer_shows {core : Core} {userOf : RequestId → ChatMessage}
    {performer : Actor} {result : Option Result} {course : Course}
    {answer : Except StdException Answer} (session : call.onSessions = true)
    (sound : performer.Sound userOf core)
    (started : ∀ request, performer = .request request →
      ∃ streamed, call = .start streamed request.start)
    (replies : call.answer settings result course performer = some answer) :
    performer.finished = true ∧ ∃ output,
      performer.standing = some (.returned output) ∧
        call.Shows settings output answer := by
  unfold ServiceCall.answer at replies
  split at replies
  · cases replies
    exact ⟨rfl, _, rfl, _, rfl, rfl⟩
  · cases replies
    exact ⟨rfl, _, rfl, _, rfl, rfl⟩
  · cases replies
    exact ⟨rfl, _, rfl, _, rfl, rfl⟩
  · rename_i streamed start request
    obtain ⟨_, same⟩ := started request rfl
    obtain ⟨-, rfl⟩ : _ ∧ start = request.start := by simpa using same
    have begun : request.start.session.isSome = true := session
    obtain ⟨start, phase, drawn, submission, snapshot⟩ := request
    unfold startAnswer at replies
    split at replies
    · rename_i error at_
      obtain rfl : phase = .refused error := at_
      split at replies
      · cases replies
        refine ⟨rfl, .begun (.error error), ?_, _, rfl, ?_⟩
        · simp only [Actor.standing, begun, if_true, Phase.standing]
        · rintro other same
          cases same
          rfl
      · cases replies
    · rename_i pending at_
      obtain rfl : phase = .pending pending := at_
      obtain ⟨id, created, model, zooRequestId, target, rest⟩ := pending
      have target_ := sound.2.target
      cases target with
      | session sessionId begin =>
          refine ⟨rfl, .begun (.ok begin), ?_, _, rfl, ?_⟩
          · simp only [Actor.standing, begun, if_true, Phase.standing,
              Target.standing]
          · rintro other same
            cases same
      | stateless =>
          have none_ := target_.1
          rw [none_] at begun
          cases begun
      | retained message =>
          have none_ := target_.1
          rw [none_] at begun
          cases begun
    · cases replies
  · cases session
  · cases session
  · cases session
  · cases replies

/-- Every actor of an exchange is its own. -/
structure Engaged (settings : ServerSettings) (ledger : Ledger) (server : Server) :
    Prop where
  attached : ∀ number exchange index, server.exchanges number = some exchange →
    exchange.actor = some index → ∃ call performer,
      Attached settings ledger server.service exchange index call performer
  apart : ∀ number other exchange held index,
    server.exchanges number = some exchange →
    server.exchanges other = some held →
    exchange.actor = some index → held.actor = some index → number = other

theorem Engaged.serves {ledger later : Ledger} {after : Server}
    {command : Option Service.Label} (engaged : Engaged settings ledger server)
    (continues : ledger.Continues later)
    (served : server.serve settings command = some after) :
    Engaged settings later after := by
  obtain ⟨ran, same⟩ := serve_runs served
  have succeeds {index : Nat} {performer : Actor}
      (found : server.service.actors[index]? = some performer) :
      ∃ actor, after.service.actors[index]? = some actor ∧
        performer.Succeeds actor := by
    cases command with
    | none =>
        obtain rfl := Option.some.inj served
        exact ⟨performer, found, .refl performer⟩
    | some command =>
        obtain ⟨service, stepped, rfl⟩ := Option.map_eq_some_iff.mp served
        exact step_succeeds stepped found
  constructor
  · intro number exchange index found seated
    rw [same] at found
    obtain ⟨call, performer, attached⟩ :=
      engaged.attached number exchange index found seated
    exact ⟨call, attached.mono continues (succeeds attached.found)⟩
  · rw [same]
    exact engaged.apart

theorem Engaged.put {ledger : Ledger} {number : Nat} {exchange : Exchange}
    (engaged : Engaged settings ledger server)
    (attached : ∀ index, exchange.actor = some index → ∃ call performer,
      Attached settings ledger server.service exchange index call performer)
    (apart : ∀ other held index, other ≠ number →
      server.exchanges other = some held → held.actor = some index →
        exchange.actor ≠ some index) :
    Engaged settings ledger (server.put number exchange) := by
  constructor
  · intro other held index found seated
    rcases put_cases found with ⟨rfl, rfl⟩ | ⟨-, before⟩
    · exact attached index seated
    · exact engaged.attached other held index before seated
  · intro one other first second index foundOne foundOther seatedOne seatedOther
    rcases put_cases foundOne with ⟨rfl, rfl⟩ | ⟨apartOne, beforeOne⟩
    · rcases put_cases foundOther with ⟨rfl, -⟩ | ⟨apartOther, beforeOther⟩
      · rfl
      · exact absurd seatedOne
          (apart other second index apartOther beforeOther seatedOther)
    · rcases put_cases foundOther with ⟨rfl, rfl⟩ | ⟨-, beforeOther⟩
      · exact absurd seatedOther
          (apart one first index apartOne beforeOne seatedOne)
      · exact engaged.apart one other first second index beforeOne beforeOther
          seatedOne seatedOther

theorem note_keeps (actor : Nat) (input : Input) (exchange : Exchange) :
    (exchange.note actor input).call = exchange.call ∧
      (exchange.note actor input).actor = exchange.actor ∧
      (exchange.note actor input).answer = exchange.answer := by
  unfold Exchange.note
  split
  · split
    · exact ⟨rfl, rfl, rfl⟩
    · exact ⟨rfl, rfl, rfl⟩
  · exact ⟨rfl, rfl, rfl⟩

theorem Engaged.noted {ledger : Ledger} (engaged : Engaged settings ledger server)
    (actor : Nat) (input : Input) :
    Engaged settings ledger
      { server with
        exchanges := fun number =>
          (server.exchanges number).map (Exchange.note actor input) } := by
  constructor
  · intro number exchange index found seated
    obtain ⟨before, earlier, rfl⟩ := Option.map_eq_some_iff.mp found
    obtain ⟨called, sits, answered⟩ := note_keeps actor input before
    obtain ⟨call, performer, attached⟩ :=
      engaged.attached number before index earlier (sits ▸ seated)
    exact ⟨call, performer,
      { attached with
        called := called.trans attached.called
        answered := fun answer given =>
          attached.answered answer (answered ▸ given) }⟩
  · intro number other exchange held index foundOne foundOther seatedOne seatedOther
    obtain ⟨before, earlier, rfl⟩ := Option.map_eq_some_iff.mp foundOne
    obtain ⟨second, there, rfl⟩ := Option.map_eq_some_iff.mp foundOther
    rw [(note_keeps actor input before).2.1] at seatedOne
    rw [(note_keeps actor input second).2.1] at seatedOther
    exact engaged.apart number other before second index earlier there seatedOne
      seatedOther

variable (settings) in
theorem opened_cases (service : ChatService) (ready : Bool)
    (request : HttpRequest) (call : ServiceCall) :
    (opened settings service ready request call).actor = none ∨
      ∃ command, call.refusal ready = none ∧ call.label ready = some command ∧
        opened settings service ready request call =
          { request, call := some call, actor := some service.actors.length } := by
  unfold opened
  cases refused : call.refusal ready with
  | some error => exact .inl rfl
  | none =>
      cases labelled : call.label ready with
      | none => exact .inl rfl
      | some command => exact .inr ⟨command, rfl, rfl, rfl⟩

variable (settings) in
abbrev commandsOf (schedule : List Label) : List Service.Label :=
  schedule.filterMap (Label.command settings)

theorem Engaged.step
    (engaged : Engaged settings
      (ledgerOf settings.service prompt (commandsOf settings schedule)) server)
    (ran : run (step settings) (initialServer prompt) schedule = some server)
    (stepped : step settings server label = some next) :
    Engaged settings
      (ledgerOf settings.service prompt (commandsOf settings (schedule ++ [label])))
      next := by
  have driven : run (Service.step settings.service) (initialService prompt)
      (commandsOf settings schedule) = some server.service := run_commands ran
  have further : run (Service.step settings.service) (initialService prompt)
      (commandsOf settings (schedule ++ [label])) = some next.service :=
    run_commands (run_concat.mpr ⟨server, ran, stepped⟩)
  have split : commandsOf settings (schedule ++ [label]) =
      commandsOf settings schedule ++ (label.command settings).toList := by
    rw [commandsOf, List.filterMap_append]
    cases commands : label.command settings with
    | none => simp [commands]
    | some command => simp [commands]
  have continues := ledgerOf_continues (split ▸ List.prefix_append _ _) driven further
  have still : Engaged settings (ledgerOf settings.service prompt
      (commandsOf settings (schedule ++ [label]))) server :=
    engaged.serves continues (show server.serve settings none = some server from rfl)
  cases step_moved stepped with
  | refused fresh admitted => exact still.put (by simp) (by simp)
  | @received number alive ready request call after fresh admitted served =>
      have serves := engaged.serves continues served
      have commands : (Label.receive number alive ready request).command settings =
          call.label ready := by
        simp only [Label.command, admitted]
      rcases opened_cases settings server.service ready request call with
        none_ | ⟨command, accepted, labelled, shape⟩
      · exact serves.put (by simp [none_]) (by simp [none_])
      · rw [labelled] at served commands
        obtain ⟨service, taken, rfl⟩ := Option.map_eq_some_iff.mp served
        obtain ⟨joined, asked, actors, asks, makes, started⟩ :=
          label_joins accepted labelled taken
        have length := ledgerOf_joined driven
        have ledger : ledgerOf settings.service prompt
            (commandsOf settings (schedule ++ [.receive number alive ready request])) =
            keepLedger server.service command
              (ledgerOf settings.service prompt (commandsOf settings schedule)) := by
          rw [split, commands]
          exact ledgerOf_concat driven taken
        have recorded : (keepLedger server.service command (ledgerOf settings.service
            prompt (commandsOf settings schedule))).asked =
            (ledgerOf settings.service prompt (commandsOf settings schedule)).asked ++
              [asked] := by
          cases command with
          | act index input => cases asks
          | _ => simp only [keepLedger, asks, Option.toList_some]
        rw [shape]
        refine serves.put ?_ ?_
        · intro index seated
          obtain rfl := Option.some.inj seated
          refine ⟨call, joined, rfl, ?_, ⟨asked, ?_, makes⟩, started, by simp⟩
          · rw [actors]
            exact List.getElem?_concat_length
          · rw [ledger, recorded, ← length]
            exact List.getElem?_concat_length
        · intro other held index different found seated same
          obtain rfl := Option.some.inj same
          obtain ⟨caller, performer, attached⟩ :=
            engaged.attached other held _ found seated
          obtain ⟨bound, -⟩ := List.getElem?_eq_some_iff.mp attached.found
          exact Nat.lt_irrefl _ bound
  | acted served => exact (engaged.serves continues served).noted _ _
  | reaped served => exact engaged.serves continues served
  | stopped served => exact engaged.serves continues served
  | @responded number course exchange answer found waits replies =>
      obtain ⟨userOf, held⟩ := reachable_held ⟨_, driven⟩
      refine still.put ?_ ?_
      · intro index seated
        obtain ⟨call, performer, attached⟩ :=
          still.attached number exchange index found seated
        refine ⟨call, performer,
          { attached with answered := fun given same session => ?_ }⟩
        obtain rfl := Option.some.inj same
        have replied : call.answer settings exchange.result course performer =
            some answer := by
          have seat : exchange.actor = some index := seated
          unfold Exchange.reply at replies
          rw [attached.called] at replies
          cases call with
          | getSystemPrompt => cases session
          | _ => simpa [seat, attached.found] using replies
        exact answer_shows session (held.each index performer attached.found)
          attached.started replied
      · intro other second index different there sits same
        exact different
          (still.apart other number second exchange index there found sits same)

structure Since (middle server : Server) : Prop where
  length : middle.service.actors.length ≤ server.service.actors.length
  kept : ∀ number exchange, middle.exchanges number = some exchange →
    ∃ later, server.exchanges number = some later ∧
      later.actor = exchange.actor
  fresh : ∀ number exchange index, middle.exchanges number = none →
    server.exchanges number = some exchange → exchange.actor = some index →
      middle.service.actors.length ≤ index

theorem Since.refl (middle : Server) : Since middle middle where
  length := Nat.le_refl _
  kept := fun _ exchange found => ⟨exchange, found, rfl⟩
  fresh := fun _ _ _ none_ found => by
    rw [none_] at found
    cases found

theorem Since.serves {middle after : Server} {command : Option Service.Label}
    (since : Since middle server)
    (served : server.serve settings command = some after) : Since middle after := by
  obtain ⟨-, same⟩ := serve_runs served
  have longer : server.service.actors.length ≤ after.service.actors.length := by
    cases command with
    | none =>
        obtain rfl := Option.some.inj served
        exact Nat.le_refl _
    | some command =>
        obtain ⟨service, stepped, rfl⟩ := Option.map_eq_some_iff.mp served
        exact step_length stepped
  refine ⟨since.length.trans longer, ?_, ?_⟩
  · rw [same]
    exact since.kept
  · rw [same]
    exact since.fresh

theorem Since.put {middle : Server} {number : Nat} {exchange : Exchange}
    (since : Since middle server)
    (kept : ∀ before, server.exchanges number = some before →
      exchange.actor = before.actor)
    (fresh : ∀ index, server.exchanges number = none →
      exchange.actor = some index → middle.service.actors.length ≤ index) :
    Since middle (server.put number exchange) := by
  refine ⟨since.length, ?_, ?_⟩
  · intro other earlier found
    obtain ⟨later, there, same⟩ := since.kept other earlier found
    by_cases here : other = number
    · subst here
      exact ⟨exchange, put_same _ _ _, (kept later there).trans same⟩
    · exact ⟨later, (put_other here).trans there, same⟩
  · intro other held index none_ found seated
    rcases put_cases found with ⟨rfl, rfl⟩ | ⟨-, there⟩
    · cases before : server.exchanges other with
      | none => exact fresh index before seated
      | some earlier =>
          exact since.fresh other earlier index none_ before
            ((kept earlier before).symm.trans seated)
    · exact since.fresh other held index none_ there seated

theorem Since.noted {middle : Server} (since : Since middle server) (actor : Nat)
    (input : Input) :
    Since middle
      { server with
        exchanges := fun number =>
          (server.exchanges number).map (Exchange.note actor input) } := by
  refine ⟨since.length, ?_, ?_⟩
  · intro number exchange found
    obtain ⟨later, there, same⟩ := since.kept number exchange found
    exact ⟨later.note actor input, by simp [there],
      (note_keeps actor input later).2.1.trans same⟩
  · intro number exchange index none_ found seated
    obtain ⟨before, earlier, rfl⟩ := Option.map_eq_some_iff.mp found
    rw [(note_keeps actor input before).2.1] at seated
    exact since.fresh number before index none_ earlier seated

theorem Since.step {middle : Server} (since : Since middle server)
    (stepped : step settings server label = some next) : Since middle next := by
  cases step_moved stepped with
  | refused fresh admitted =>
      refine since.put (fun before found => ?_) (by simp)
      rw [fresh] at found
      cases found
  | @received number alive ready request call after fresh admitted served =>
      have same := (serve_runs served).2
      refine (since.serves served).put (fun before found => ?_)
        (fun index _ seated => ?_)
      · rw [same, fresh] at found
        cases found
      · rcases opened_cases settings server.service ready request call with
          none_ | ⟨command, accepted, labelled, shape⟩
        · rw [none_] at seated
          cases seated
        · rw [shape] at seated
          obtain rfl := Option.some.inj seated
          exact since.length
  | acted served => exact (since.serves served).noted _ _
  | reaped served => exact since.serves served
  | stopped served => exact since.serves served
  | responded found waits replies =>
      refine since.put (fun before there => ?_) (fun index none_ _ => ?_)
      · obtain rfl := Option.some.inj (found.symm.trans there)
        rfl
      · rw [none_] at found
        cases found

theorem run_since {middle : Server}
    (ran : run (step settings) middle schedule = some server) :
    Since middle server :=
  run_invariant Since.step (Since.refl middle) ran

end Attaching

section Order

variable (settings : ServerSettings) (prompt : StdString) (schedule : List Label)
  (server : Server)

def Server.Answered (server : Server) (number : Nat) (call : ServiceCall)
    (answer : Except StdException Answer) : Prop :=
  ∃ exchange, server.exchanges number = some exchange ∧
    exchange.actor.isSome = true ∧ exchange.call = some call ∧
    call.onSessions = true ∧ exchange.answer = some answer

end Order

section Serving

variable {settings : ServerSettings} {prompt : StdString}
  {schedule earlier : List Label} {server middle : Server}

theorem Engaged.told {ledger : Ledger} (engaged : Engaged settings ledger server)
    {number : Nat} {call : ServiceCall} {answer : Except StdException Answer}
    (given : server.Answered number call answer) :
    ∃ exchange index performer output, server.exchanges number = some exchange ∧
      exchange.actor = some index ∧
      Attached settings ledger server.service exchange index call performer ∧
      performer.standing = some (.returned output) ∧
      call.Shows settings output answer := by
  obtain ⟨exchange, found, seats, called, session, answered⟩ := given
  obtain ⟨index, seated⟩ := Option.isSome_iff_exists.mp seats
  obtain ⟨caller, performer, attached⟩ :=
    engaged.attached number exchange index found seated
  obtain rfl := Option.some.inj (called.symm.trans attached.called)
  obtain ⟨-, output, stood, shows⟩ := attached.answered answer answered session
  exact ⟨exchange, index, performer, output, found, seated, attached, stood, shows⟩

end Serving

/-! One client creates a session while another looks for it. -/

end ZooKeeperServer.Routes
