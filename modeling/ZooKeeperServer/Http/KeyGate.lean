import ZooKeeperServer.Http.Routes
import ZooKeeperServer.Service.Sourcing

namespace ZooKeeperServer.Routes

open SessionStore Service Transition

/-! With a key in the configuration, the service is run by the requests that carry
it.  The others get their error and leave no trace. -/

section Keys

variable (settings : ServerSettings)

/-- The request carries the key, if there is one. -/
def ServerSettings.authorizes (request : HttpRequest) : Bool :=
  settings.apiKey.all fun key =>
    request.authorization = Auth.bearerPrefix ++ key

def invalidKey : ApiError :=
  authError (literal "Invalid API key") (some (literal "invalid_api_key"))

def Called (schedule : List Label) (call : ServiceCall) : Prop :=
  ∃ number ready request, .receive number true ready request ∈ schedule ∧
    settings.authorizes request = true ∧
    parseRoute settings request.body request.route = .ok call

def ServiceCall.messages : ServiceCall → List ChatMessage
  | .start _ request => request.messages
  | .agentHistory request => request.messages
  | _ => []

/-- What those see that have the key. -/
def Server.seen (server : Server) : Server :=
  { server with
    exchanges := fun number =>
      (server.exchanges number).filter fun exchange =>
        settings.authorizes exchange.request }

def Label.passes : Label → Bool
  | .receive _ _ _ request => settings.authorizes request
  | _ => true

/-- A request without the key has come to no call and has its error. -/
def Barred (server : Server) : Prop :=
  ∀ number exchange, server.exchanges number = some exchange →
    settings.authorizes exchange.request = false →
      exchange.call = none ∧ exchange.actor = none ∧
        (exchange.answer = some (errorAnswer settings invalidKey) ∨
          exchange.answer =
            some (errorAnswer settings (notReadyError (literal "not_ready"))))

end Keys

section Admission

variable {settings : ServerSettings} {request : HttpRequest} {alive : Bool}
  {call : ServiceCall}

theorem checkAuth_eq_none_iff :
    Auth.checkAuth request.authorization settings.apiKey = some none ↔
      settings.authorizes request = true := by
  unfold ServerSettings.authorizes
  cases settings.apiKey with
  | none => simp [Auth.checkAuth]
  | some key => simp [Auth.checkAuth_eq]

theorem admission_eq_ok
    (admitted : admission settings alive request = some (.ok call)) :
    alive = true ∧ settings.authorizes request = true ∧
      parseRoute settings request.body request.route = .ok call := by
  unfold admission at admitted
  split at admitted
  · rename_i here
    obtain ⟨checked, answer, parsed⟩ := Option.map_eq_some_iff.mp admitted
    cases checked with
    | none => exact ⟨here, checkAuth_eq_none_iff.mp answer, parsed⟩
    | some error => cases parsed
  · cases Option.some.inj admitted

theorem admission_refuses (refused : settings.authorizes request = false)
    (alive : Bool) :
    ∃ error, admission settings alive request = some (.error error) ∧
      (error = invalidKey ∨ error = notReadyError (literal "not_ready")) := by
  unfold admission
  split
  · unfold ServerSettings.authorizes at refused
    cases held : settings.apiKey with
    | none => simp [held] at refused
    | some key =>
        have another : request.authorization ≠ Auth.bearerPrefix ++ key := by
          simpa [held] using refused
        rw [Auth.checkAuth_eq, if_neg another]
        exact ⟨invalidKey, rfl, .inl rfl⟩
  · exact ⟨_, rfl, .inr rfl⟩

end Admission

section Steps

variable {settings : ServerSettings} {server next after : Server} {label : Label}
  {prompt : StdString} {schedule : List Label}

section Put

variable {number other : Nat} {exchange held : Exchange}

@[simp] theorem put_same (server : Server) (number : Nat) (exchange : Exchange) :
    (server.put number exchange).exchanges number = some exchange := by
  simp [Server.put]

theorem put_other (different : other ≠ number) :
    (server.put number exchange).exchanges other = server.exchanges other := by
  simp [Server.put, different]

theorem put_cases
    (found : (server.put number exchange).exchanges other = some held) :
    (other = number ∧ held = exchange) ∨
      (other ≠ number ∧ server.exchanges other = some held) := by
  by_cases same : other = number
  · subst same
    rw [put_same] at found
    exact .inl ⟨rfl, (Option.some.inj found).symm⟩
  · rw [put_other same] at found
    exact .inr ⟨same, found⟩

end Put

theorem serve_runs {command : Option Service.Label}
    (served : server.serve settings command = some after) :
    run (Service.step settings.service) server.service command.toList =
        some after.service ∧ after.exchanges = server.exchanges := by
  cases command with
  | none =>
      obtain rfl := Option.some.inj served
      exact ⟨rfl, rfl⟩
  | some command =>
      obtain ⟨service, stepped, rfl⟩ := Option.map_eq_some_iff.mp served
      refine ⟨?_, rfl⟩
      simp [run, stepped]

inductive Moved (settings : ServerSettings) (server : Server) :
    Label → Server → Prop
  | refused {number : Nat} {alive ready : Bool} {request : HttpRequest}
      {error : ApiError} (fresh : server.exchanges number = none)
      (admitted : admission settings alive request = some (.error error)) :
      Moved settings server (.receive number alive ready request)
        (server.put number
          { request, answer := some (errorAnswer settings error) })
  | received {number : Nat} {alive ready : Bool} {request : HttpRequest}
      {call : ServiceCall} {after : Server}
      (fresh : server.exchanges number = none)
      (admitted : admission settings alive request = some (.ok call))
      (served : server.serve settings (call.label ready) = some after) :
      Moved settings server (.receive number alive ready request)
        (after.put number (opened settings server.service ready request call))
  | acted {actor : Nat} {input : Input} {after : Server}
      (served : server.serve settings (some (.act actor input)) = some after) :
      Moved settings server (.act actor input)
        { after with
          exchanges := fun number =>
            (after.exchanges number).map (Exchange.note actor input) }
  | reaped {after : Server}
      (served : server.serve settings (some (.call .reapExpiredSessions)) =
        some after) : Moved settings server .reapSessions after
  | stopped {after : Server}
      (served : server.serve settings (some (.call .stop)) = some after) :
      Moved settings server .stop after
  | responded {number : Nat} {course : Course} {exchange : Exchange}
      {answer : Except StdException Answer}
      (found : server.exchanges number = some exchange)
      (waits : exchange.answer = none)
      (replies : exchange.reply settings server.service course = some answer) :
      Moved settings server (.respond number course)
        (server.put number { exchange with answer := some answer })

theorem step_moved (stepped : step settings server label = some next) :
    Moved settings server label next := by
  cases label with
  | receive number alive ready request =>
      simp only [step] at stepped
      split at stepped
      · cases stepped
      rename_i fresh
      have fresh : server.exchanges number = none := by simpa using fresh
      obtain ⟨result, admitted, went⟩ := Option.bind_eq_some_iff.mp stepped
      cases result with
      | error error =>
          obtain rfl := Option.some.inj went
          exact .refused fresh admitted
      | ok call =>
          obtain ⟨after, served, rfl⟩ := Option.map_eq_some_iff.mp went
          exact .received fresh admitted served
  | act actor input =>
      obtain ⟨after, served, rfl⟩ := Option.map_eq_some_iff.mp stepped
      exact .acted served
  | reapSessions => exact .reaped stepped
  | stop => exact .stopped stepped
  | respond number course =>
      obtain ⟨exchange, found, went⟩ := Option.bind_eq_some_iff.mp stepped
      split at went
      · cases went
      · rename_i waits
        obtain ⟨answer, replies, rfl⟩ := Option.map_eq_some_iff.mp went
        exact .responded found (by simpa using waits) replies

theorem step_commands (stepped : step settings server label = some next) :
    run (Service.step settings.service) server.service
      (label.command settings).toList = some next.service := by
  cases step_moved stepped with
  | refused fresh admitted =>
      simp only [Label.command, admitted]
      rfl
  | received fresh admitted served =>
      simp only [Label.command, admitted]
      exact (serve_runs served).1
  | acted served => exact (serve_runs served).1
  | reaped served => exact (serve_runs served).1
  | stopped served => exact (serve_runs served).1
  | responded found waits replies => rfl

theorem run_commands {start : Server}
    (ran : run (step settings) start schedule = some server) :
    run (Service.step settings.service) start.service
      (schedule.filterMap (Label.command settings)) = some server.service :=
  run_drives (fun _ => True)
    (fun _ stepped => ⟨trivial, step_commands stepped⟩) trivial ran

@[simp] theorem note_request (actor : Nat) (input : Input) (exchange : Exchange) :
    (exchange.note actor input).request = exchange.request := by
  unfold Exchange.note
  split
  · split
    · rfl
    · rfl
  · rfl

theorem note_unattached {exchange : Exchange} (unattached : exchange.actor = none)
    (actor : Nat) (input : Input) : exchange.note actor input = exchange := by
  unfold Exchange.note
  split
  · rw [unattached]
    exact if_neg (by simp)
  · rfl

theorem opened_request (service : ChatService) (ready : Bool)
    (request : HttpRequest) (call : ServiceCall) :
    (opened settings service ready request call).request = request := by
  unfold opened
  split
  · rfl
  · rfl

theorem Barred.put (barred : Barred settings server) {number : Nat}
    {exchange : Exchange}
    (admitted : settings.authorizes exchange.request = true) :
    Barred settings (server.put number exchange) := by
  intro other held found refused
  rcases put_cases found with ⟨rfl, rfl⟩ | ⟨-, before⟩
  · rw [admitted] at refused
    cases refused
  · exact barred other held before refused

theorem Barred.waiting (barred : Barred settings server) {number : Nat}
    {exchange : Exchange} (found : server.exchanges number = some exchange)
    (waits : exchange.answer = none) :
    settings.authorizes exchange.request = true := by
  by_contra refused
  obtain ⟨-, -, answered | answered⟩ :=
    barred number exchange found (by simpa using refused)
  · rw [waits] at answered
    cases answered
  · rw [waits] at answered
    cases answered

theorem Barred.step (barred : Barred settings server)
    (stepped : step settings server label = some next) :
    Barred settings next := by
  have serves {command : Option Service.Label} {after : Server}
      (served : server.serve settings command = some after) :
      Barred settings after := by
    unfold Barred
    rw [(serve_runs served).2]
    exact barred
  cases step_moved stepped with
  | @refused number alive ready request error fresh admitted =>
      by_cases authorized : settings.authorizes request = true
      · exact barred.put authorized
      intro other held found refused
      rcases put_cases found with ⟨rfl, rfl⟩ | ⟨-, before⟩
      · obtain ⟨reason, refuses, which⟩ := admission_refuses refused alive
        obtain rfl := Except.error.inj
          (Option.some.inj (admitted.symm.trans refuses))
        exact ⟨rfl, rfl, which.imp (fun same => by rw [same])
          (fun same => by rw [same])⟩
      · exact barred other held before refused
  | received fresh admitted served =>
      refine (serves served).put ?_
      rw [opened_request]
      exact (admission_eq_ok admitted).2.1
  | acted served =>
      intro other held found refused
      obtain ⟨before, earlier, rfl⟩ := Option.map_eq_some_iff.mp found
      rw [note_request] at refused
      obtain ⟨uncalled, unattached, answered⟩ :=
        serves served other before earlier refused
      rw [note_unattached unattached]
      exact ⟨uncalled, unattached, answered⟩
  | reaped served => exact serves served
  | stopped served => exact serves served
  | responded found waits replies =>
      have authorized := barred.waiting found waits
      exact barred.put authorized

section Words

variable {service : ChatService} {userOf : RequestId → ChatMessage}

end Words

end Steps

def sampleUpload : Json := historyBody [.user (literal "hi")]

def sampleSettings : ServerSettings where
  apiKey := some (literal "k")
  service := sampleConfig
  json := readingJson [sampleUpload]

end ZooKeeperServer.Routes
