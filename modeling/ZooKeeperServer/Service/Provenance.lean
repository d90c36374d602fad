import ZooKeeperServer.Service.Turns
import ZooKeeperServer.SessionStore.Ownership

namespace ZooKeeperServer.Service

open SessionStore Transition

/-! What every caller of the service may rely on: the store is consistent, tracking
ids are handed out once, and a request's sections work for that request only. -/

def Actor.trackingId : Actor → Option RequestId
  | .request call => call.trackingId
  | _ => none

/-- No two actors have the same tracking id. -/
def Apart (first second : Actor) : Prop :=
  ∀ trackingId, first.trackingId = some trackingId →
    second.trackingId ≠ some trackingId

/-- The section neither begins nor ends a request. -/
def Neutral (current : Section) : Prop :=
  current.begins = none ∧ current.ends = none

section Soundness

variable (userOf : RequestId → ChatMessage) (core : Core)

structure Sane (settings : Settings) : Prop where
  consistent : Consistent settings userOf core.store core.log
  issued : ∀ trackingId, ¬ Unbegun core.log trackingId →
    trackingId < core.nextCompletionId

/-- `begin_request` has succeeded on the session at this pointer. -/
structure Begun (trackingId : RequestId) (sessionId : StdString)
    (begin : BeginRequestResult) (ptr : SessionPtr) : Prop where
  refers : Refers core.store.heap sessionId ptr
  began : .began ptr trackingId begin ∈ core.log
  message : begin.userMessage = userOf trackingId

structure Opening (request : Request) (current : Section)
    (trackingId : RequestId) (sessionId : StdString) : Prop where
  drawn : request.trackingId = some trackingId
  session : ∃ begin, request.start.session = some (sessionId, begin)
  sound : current.Sound userOf (some trackingId) core.store.heap core.log
  begins : current.begins = some trackingId
  ends : current.ends = none
  on : current.On sessionId core.store.heap
  unbegun : Unbegun core.log trackingId

/-- A request that has begun; `unfinished` says that it certainly keeps its session
busy. -/
def Target.Sound (request : Request) (drawn : Bool) (unfinished : Prop) :
    Target → Prop
  | .session sessionId begin =>
      ∃ trackingId ptr, request.trackingId = some trackingId ∧
        (∃ handed, request.start.session = some (sessionId, handed)) ∧
        Begun userOf core trackingId sessionId begin ptr ∧
        (unfinished → ¬ Finished core.log ptr trackingId)
  | _ => request.start.session = none ∧ request.trackingId.isSome = drawn

structure Ending (trackingId : RequestId) (sessionId : StdString)
    (current : Section) : Prop where
  sound : current.Sound userOf none core.store.heap core.log
  begins : current.begins = none
  ends : current.ends = some trackingId
  on : current.On sessionId core.store.heap

structure Pending.Sound (request : Request) (pending : Pending) : Prop where
  target : pending.target.Sound userOf core request true
    (pending.consumed = false)
  quiet : pending.consumed = false → pending.outer = .fresh ∧
    pending.inner = .fresh ∧ ∀ copy ∈ pending.copies, copy.operations = []
  stores : ∀ copy ∈ pending.copies, ∀ current,
    .store current ∈ copy.operations →
    ∃ trackingId sessionId begin, request.trackingId = some trackingId ∧
      pending.target = .session sessionId begin ∧
      Ending userOf core trackingId sessionId current

def Request.Sound (request : Request) : Prop :=
  (∀ trackingId, request.trackingId = some trackingId →
    trackingId < core.nextCompletionId) ∧
  match request.phase with
  | .beginning current =>
      ∃ trackingId sessionId,
        Opening userOf core request current trackingId sessionId
  | .preparing => request.start.session = none ∧ request.trackingId = none
  | .refused _ =>
      ∀ trackingId, request.trackingId = some trackingId →
        Unbegun core.log trackingId
  | .prepared target _ => target.Sound userOf core request false True
  | .submitted target _ => target.Sound userOf core request false True
  | .wrapped target _ => target.Sound userOf core request false True
  | .registering target _ _ => target.Sound userOf core request true True
  | .raised =>
      ∀ trackingId, request.trackingId = some trackingId →
        ∃ sessionId ptr begin,
          (∃ handed, request.start.session = some (sessionId, handed)) ∧
            Begun userOf core trackingId sessionId begin ptr ∧
            ¬ Finished core.log ptr trackingId
  | .pending pending => pending.Sound userOf core request

def Deleted (sessionId : StdString) : Prop :=
  ∃ ptr, Refers core.store.heap sessionId ptr ∧ .deleted ptr ∈ core.log

def Deletion.Sound : Deletion → Prop
  | .removing sessionId current =>
      current.Sound userOf none core.store.heap core.log ∧ Neutral current ∧
        current.On sessionId core.store.heap
  | .erasing sessionId => Deleted core sessionId
  | .cancelling sessionId _ => Deleted core sessionId
  | .returned sessionId (.ok ()) => Deleted core sessionId
  | .returned _ (.error _) => True

def Actor.Sound : Actor → Prop
  | .request call => call.Sound userOf core
  | .deletion call => call.Sound userOf core
  | .caller (.suspended current) =>
      current.Sound userOf none core.store.heap core.log ∧ Neutral current
  | _ => True

end Soundness

theorem Request.Sound.pending {userOf : RequestId → ChatMessage} {core : Core}
    {request : Request} {pending : Pending} (sound : request.Sound userOf core)
    (at_ : request.phase = .pending pending) :
    pending.Sound userOf core request := by
  have held := sound.2
  rw [at_] at held
  exact held

/-- What a turn of an actor with this tracking id leaves of the shared state. -/
structure Guarantees (actor : Option RequestId) (core after : Core) : Prop where
  heap : Preserves core.store.heap after.store.heap
  counter : core.nextCompletionId ≤ after.nextCompletionId
  log : ∃ events, after.log = core.log ++ events ∧
    (∀ ptr trackingId begin, .began ptr trackingId begin ∈ events →
      actor = some trackingId) ∧
    ∀ ptr trackingId, Finished events ptr trackingId →
      actor = some trackingId

section Relying

variable {userOf : RequestId → ChatMessage} {core after : Core}
  {actor : Option RequestId} {trackingId : RequestId}

theorem Guarantees.idle (heap : after.store.heap = core.store.heap)
    (counter : core.nextCompletionId ≤ after.nextCompletionId)
    (log : after.log = core.log) : Guarantees actor core after where
  heap := by
    rw [heap]
    exact fun _ _ refers => refers
  counter := counter
  log := ⟨[], by simp [log], by simp, by simp [Finished]⟩

theorem Guarantees.member (guarantees : Guarantees actor core after)
    {event : Event} (member : event ∈ core.log) : event ∈ after.log := by
  obtain ⟨events, log, _⟩ := guarantees.log
  exact log ▸ List.mem_append_left _ member

theorem Guarantees.unbegun (guarantees : Guarantees actor core after)
    (other : actor ≠ some trackingId) (unbegun : Unbegun core.log trackingId) :
    Unbegun after.log trackingId := by
  obtain ⟨events, log, begins, _⟩ := guarantees.log
  intro ptr begin member
  rcases List.mem_append.mp (log ▸ member) with earlier | later
  · exact unbegun ptr begin earlier
  · exact other (begins ptr trackingId begin later)

theorem Guarantees.unfinished (guarantees : Guarantees actor core after)
    (other : actor ≠ some trackingId) {ptr : SessionPtr}
    (unfinished : ¬ Finished core.log ptr trackingId) :
    ¬ Finished after.log ptr trackingId := by
  obtain ⟨events, log, _, ends⟩ := guarantees.log
  rw [log, finished_append]
  rintro (earlier | later)
  · exact unfinished earlier
  · exact other (ends ptr trackingId later)

theorem Guarantees.sound (guarantees : Guarantees actor core after)
    {begins : Option RequestId} {current : Section}
    (sound : current.Sound userOf begins core.store.heap core.log) :
    current.Sound userOf begins after.store.heap after.log := by
  obtain ⟨events, log, _⟩ := guarantees.log
  exact log ▸ sound.mono guarantees.heap

theorem Begun.mono {sessionId : StdString} {begin : BeginRequestResult}
    {ptr : SessionPtr} (begun : Begun userOf core trackingId sessionId begin ptr)
    (guarantees : Guarantees actor core after) :
    Begun userOf after trackingId sessionId begin ptr where
  refers := guarantees.heap _ _ begun.refers
  began := guarantees.member begun.began
  message := begun.message

theorem Opening.mono {request : Request} {current : Section}
    {sessionId : StdString}
    (opening : Opening userOf core request current trackingId sessionId)
    (guarantees : Guarantees actor core after)
    (other : actor ≠ some trackingId) :
    Opening userOf after request current trackingId sessionId :=
  { opening with
    sound := guarantees.sound opening.sound
    on := opening.on.mono guarantees.heap
    unbegun := guarantees.unbegun other opening.unbegun }

theorem Ending.mono {sessionId : StdString} {current : Section}
    (ending : Ending userOf core trackingId sessionId current)
    (guarantees : Guarantees actor core after) :
    Ending userOf after trackingId sessionId current :=
  { ending with
    sound := guarantees.sound ending.sound
    on := ending.on.mono guarantees.heap }

theorem Target.Sound.mono {request : Request} {drawn : Bool}
    {unfinished : Prop} {target : Target}
    (sound : target.Sound userOf core request drawn unfinished)
    (guarantees : Guarantees actor core after)
    (other : ∀ trackingId, request.trackingId = some trackingId →
      actor ≠ some trackingId) :
    target.Sound userOf after request drawn unfinished := by
  cases target with
  | session sessionId begin =>
      obtain ⟨trackingId, ptr, drew, handed, begun, open_⟩ := sound
      exact ⟨trackingId, ptr, drew, handed, begun.mono guarantees,
        fun premise => guarantees.unfinished (other trackingId drew)
          (open_ premise)⟩
  | stateless => exact sound
  | retained message => exact sound

theorem Pending.Sound.mono {request : Request} {pending : Pending}
    (sound : pending.Sound userOf core request)
    (guarantees : Guarantees actor core after)
    (other : ∀ trackingId, request.trackingId = some trackingId →
      actor ≠ some trackingId) :
    pending.Sound userOf after request where
  target := sound.target.mono guarantees other
  quiet := sound.quiet
  stores := by
    intro copy member current stored
    obtain ⟨trackingId, sessionId, begin, drew, target, ending⟩ :=
      sound.stores copy member current stored
    exact ⟨trackingId, sessionId, begin, drew, target, ending.mono guarantees⟩

theorem Request.Sound.mono {request : Request}
    (sound : request.Sound userOf core)
    (guarantees : Guarantees actor core after)
    (other : ∀ trackingId, request.trackingId = some trackingId →
      actor ≠ some trackingId) : request.Sound userOf after := by
  obtain ⟨start, phase, drawn, submission, snapshot⟩ := request
  refine ⟨fun trackingId drew =>
    (sound.1 trackingId drew).trans_le guarantees.counter, ?_⟩
  have held := sound.2
  cases phase with
  | beginning current =>
      obtain ⟨trackingId, sessionId, opening⟩ := held
      exact ⟨trackingId, sessionId,
        opening.mono guarantees (other trackingId opening.drawn)⟩
  | preparing => exact held
  | refused error =>
      exact fun trackingId drew =>
        guarantees.unbegun (other trackingId drew) (held trackingId drew)
  | prepared target messages => exact held.mono guarantees other
  | submitted target zooRequestId => exact held.mono guarantees other
  | wrapped target zooRequestId => exact held.mono guarantees other
  | registering target zooRequestId created =>
      exact held.mono guarantees other
  | raised =>
      intro trackingId drew
      obtain ⟨sessionId, ptr, begin, handed, begun, unfinished⟩ :=
        held trackingId drew
      exact ⟨sessionId, ptr, begin, handed, begun.mono guarantees,
        guarantees.unfinished (other trackingId drew) unfinished⟩
  | pending pending => exact held.mono guarantees other

theorem Deleted.mono {sessionId : StdString} (deleted : Deleted core sessionId)
    (guarantees : Guarantees actor core after) : Deleted after sessionId := by
  obtain ⟨ptr, refers, member⟩ := deleted
  exact ⟨ptr, guarantees.heap _ _ refers, guarantees.member member⟩

theorem Deletion.Sound.mono {deletion : Deletion}
    (sound : deletion.Sound userOf core)
    (guarantees : Guarantees actor core after) :
    deletion.Sound userOf after := by
  cases deletion with
  | removing sessionId current =>
      exact ⟨guarantees.sound sound.1, sound.2.1,
        sound.2.2.mono guarantees.heap⟩
  | erasing sessionId => exact Deleted.mono sound guarantees
  | cancelling sessionId zooRequestId => exact Deleted.mono sound guarantees
  | returned sessionId result =>
      cases result with
      | error error => trivial
      | ok value => exact Deleted.mono sound guarantees

theorem Actor.Sound.mono {other : Actor} (sound : other.Sound userOf core)
    (guarantees : Guarantees actor core after)
    (apart : ∀ trackingId, other.trackingId = some trackingId →
      actor ≠ some trackingId) : other.Sound userOf after := by
  cases other with
  | request request => exact Request.Sound.mono sound guarantees apart
  | deletion deletion => exact Deletion.Sound.mono sound guarantees
  | caller progress =>
      cases progress with
      | suspended current => exact ⟨guarantees.sound sound.1, sound.2⟩
      | returned output => trivial
  | cancellation cancellation => trivial
  | history call => trivial
  | prompt call => trivial

end Relying

section Executing

variable {config : Configuration} {readings : Readings}
  {userOf : RequestId → ChatMessage} {core after : Core} {current : Section}
  {progress : Progress} {actor : Option RequestId}

theorem execute_outcome
    (executed : core.execute config readings current = some (after, progress)) :
    ∃ outcome, current.exec config.sessions readings core.store = some outcome ∧
      after = { core with
        store := outcome.store
        log := core.log ++ outcome.events } ∧
      progress = outcome.progress := by
  obtain ⟨outcome, ran, same⟩ := Option.map_eq_some_iff.mp executed
  obtain ⟨afterEq, progressEq⟩ := Prod.mk.inj same
  exact ⟨outcome, ran, afterEq.symm, progressEq.symm⟩

theorem execute_guarantees
    (executed : core.execute config readings current = some (after, progress))
    (begins : ∀ trackingId, current.begins = some trackingId →
      actor = some trackingId)
    (ends : ∀ trackingId, current.ends = some trackingId →
      actor = some trackingId) : Guarantees actor core after := by
  obtain ⟨outcome, ran, rfl, rfl⟩ := execute_outcome executed
  have effect := exec_effect ran
  refine ⟨effect.preserves, le_rfl, outcome.events, rfl, ?_, ?_⟩
  · intro ptr trackingId begin began
    exact begins trackingId (effect.begins began)
  · intro ptr trackingId finished
    exact ends trackingId (effect.ends finished)

theorem execute_sane (sane : Sane userOf core config.sessions)
    (executed : core.execute config readings current = some (after, progress))
    (sound : current.Sound userOf current.begins core.store.heap core.log)
    (unbegun : ∀ trackingId, current.begins = some trackingId →
      Unbegun core.log trackingId ∧ trackingId < core.nextCompletionId) :
    Sane userOf after config.sessions := by
  obtain ⟨outcome, ran, rfl, rfl⟩ := execute_outcome executed
  have effect := exec_effect ran
  constructor
  · exact effect.consistent sane.consistent sound fun trackingId begins =>
      (unbegun trackingId begins).1
  · intro trackingId issued
    simp only [Unbegun, not_forall, not_not] at issued
    obtain ⟨ptr, begin, began⟩ := issued
    rcases List.mem_append.mp began with earlier | later
    · exact sane.issued trackingId fun none => none ptr begin earlier
    · exact (unbegun trackingId (effect.begins later)).2

theorem execute_sound (sane : Sane userOf core config.sessions)
    (executed : core.execute config readings current = some (after, progress))
    {begins : Option RequestId}
    (sound : current.Sound userOf begins core.store.heap core.log) :
    progress.Sound userOf begins after.store.heap after.log := by
  obtain ⟨outcome, ran, rfl, rfl⟩ := execute_outcome executed
  exact exec_sound sane.consistent.mapped sound ran

theorem execute_passes {next : Section}
    (executed : core.execute config readings current =
      some (after, .suspended next)) :
    Passes core.store after.store.heap current next := by
  obtain ⟨outcome, ran, rfl, suspended⟩ := execute_outcome executed
  exact exec_passes ran suspended.symm

end Executing

end ZooKeeperServer.Service
