import ZooKeeperServer.Service.Interleaving

namespace ZooKeeperServer.Service

open SessionStore Transition

/-! The invariant of the service holds in every reachable state. -/

section Turns

variable {config : Configuration} {readings : Readings}
  {userOf : RequestId → ChatMessage} {core after : Core}

theorem removed_section {sessionId : StdString} {current : Section}
    {value : Unit} (neutral : Neutral current)
    (on : current.On sessionId core.store.heap)
    (executed : core.execute config readings current =
      some (after, .returned (.deleted (.ok value)))) :
    ∃ ptr, current = .closeDeleted ptr := by
  obtain ⟨outcome, ran, rfl, returned⟩ := execute_outcome executed
  cases current with
  | enter call =>
      cases enterCall_entered ran with
      | returns failed setsNothing =>
          cases returned
          exact absurd trivial failed
      | _ => cases returned
  | reaping now rest afterReap =>
      cases afterReap with
      | begin looked user requestId => cases neutral.1
      | _ => exact on.elim
  | begin ptr looked user requestId => cases neutral.1
  | commit ptr requestId user text => cases neutral.2
  | release ptr requestId => cases neutral.2
  | closeDeleted ptr => exact ⟨ptr, rfl⟩
  | closeStopped rest => exact on.elim
  | snapshot ptr => exact on.elim

theorem Deleting.sound {call updated : Deletion}
    (sane : Sane userOf core config.sessions) (sound : call.Sound userOf core)
    (deleting : Deleting config readings core call after updated) :
    updated.Sound userOf after := by
  have guarantees : Guarantees none core after := deleting.guarantees sound
  cases deleting with
  | proceeds executed =>
      obtain ⟨held, neutral, on⟩ := sound
      have passes := execute_passes executed
      exact ⟨execute_sound sane executed held,
        ⟨passes.begins.trans neutral.1, passes.ends.trans neutral.2⟩,
        passes.session _ sane.consistent.mapped on⟩
  | fails executed => trivial
  | removed executed =>
      obtain ⟨held, neutral, on⟩ := sound
      obtain ⟨ptr, rfl⟩ := removed_section neutral on executed
      have deleted : Deleted core _ := ⟨ptr, on, held⟩
      exact deleted.mono guarantees
  | untracked absent => exact sound
  | @erase sessionId zooRequestId found =>
      have deleted := Deleted.mono sound guarantees
      by_cases zero : zooRequestId = 0
      · simpa [zero, Deletion.Sound] using deleted
      · simpa [zero, Deletion.Sound] using deleted
  | cancel => exact Deleted.mono sound guarantees

theorem Turn.sound {actor updated : Actor} {input : Input}
    (sane : Sane userOf core config.sessions)
    (sound : actor.Sound userOf core)
    (turn : Turn config core actor input after updated) :
    updated.Sound userOf after := by
  cases turn with
  | advance advanced => exact advanced.sound sane sound
  | @consume request pending updated trackingId copy action _ at_ drew
      consumed =>
      have held := Request.Sound.pending sound at_
      have kept := consumed.sound sane held drew
      refine ⟨fun other drew' => ?_, kept.target, kept.quiet, kept.stores⟩
      refine (sound.1 other drew').trans_le ?_
      exact (consumed.guarantees held drew).counter
  | deletion deleting => exact deleting.sound sane sound
  | cancellation stepped => trivial
  | history stepped => trivial
  | prompt stepped => trivial
  | @caller readings current _ progress executed =>
      cases progress with
      | returned output => trivial
      | suspended next =>
          have passes := execute_passes executed
          exact ⟨execute_sound sane executed sound.1,
            passes.begins.trans sound.2.1, passes.ends.trans sound.2.2⟩

theorem Turn.trackingId {actor updated : Actor} {input : Input}
    (turn : Turn config core actor input after updated) :
    updated.trackingId = actor.trackingId ∨
      updated.trackingId = some core.nextCompletionId := by
  cases turn with
  | advance advanced =>
      cases advanced with
      | number at_ sessionless => exact .inr rfl
      | _ => exact .inl rfl
  | _ => exact .inl rfl

theorem Actor.Sound.drawn {actor : Actor} (sound : actor.Sound userOf core)
    {trackingId : RequestId} (drew : actor.trackingId = some trackingId) :
    trackingId < core.nextCompletionId := by
  cases actor with
  | request call => exact sound.1 trackingId drew
  | _ => cases drew

theorem Turn.apart {actor updated other : Actor} {input : Input}
    (otherSound : other.Sound userOf core)
    (turn : Turn config core actor input after updated) :
    (Apart actor other → Apart updated other) ∧
      (Apart other actor → Apart other updated) := by
  rcases turn.trackingId with same | drew
  · constructor
    · intro apart trackingId drew
      exact apart trackingId (same.symm.trans drew)
    · intro apart trackingId otherDrew drew
      exact apart trackingId otherDrew (same.symm.trans drew)
  · constructor
    · intro _ trackingId same otherDrew
      obtain rfl := Option.some.inj (drew.symm.trans same)
      exact (otherSound.drawn otherDrew).ne rfl
    · intro _ trackingId otherDrew same
      obtain rfl := Option.some.inj (drew.symm.trans same)
      exact (otherSound.drawn otherDrew).ne rfl

end Turns

section Arrivals

variable {config : Configuration} {userOf other : RequestId → ChatMessage}
  {core : Core}

theorem Target.Sound.congr {request : Request} {drawn : Bool}
    {unfinished : Prop} {target : Target}
    (sound : target.Sound userOf core request drawn unfinished)
    (agree : ∀ trackingId, request.trackingId = some trackingId →
      other trackingId = userOf trackingId) :
    target.Sound other core request drawn unfinished := by
  cases target with
  | session sessionId begin =>
      obtain ⟨trackingId, ptr, drew, handed, begun, open_⟩ := sound
      exact ⟨trackingId, ptr, drew, handed,
        { begun with message := begun.message.trans (agree _ drew).symm }, open_⟩
  | stateless => exact sound
  | retained message => exact sound

theorem Request.Sound.congr {request : Request}
    (sound : request.Sound userOf core)
    (agree : ∀ trackingId, trackingId < core.nextCompletionId →
      other trackingId = userOf trackingId) : request.Sound other core := by
  obtain ⟨start, phase, drawn, submission, snapshot⟩ := request
  obtain ⟨counted, held⟩ := sound
  have mine : ∀ trackingId, drawn = some trackingId →
      other trackingId = userOf trackingId := fun trackingId drew =>
    agree trackingId (counted trackingId drew)
  refine ⟨counted, ?_⟩
  cases phase with
  | beginning current =>
      obtain ⟨trackingId, sessionId, opening⟩ := held
      refine ⟨trackingId, sessionId, { opening with
        sound := opening.sound.congr fun requestId works => ?_ }⟩
      rcases works with begins | ends
      · obtain rfl := Option.some.inj (opening.begins.symm.trans begins)
        exact mine trackingId opening.drawn
      · exact absurd (opening.ends.symm.trans ends) (by simp)
  | pending pending =>
      obtain ⟨target, quiet, stores⟩ := held
      refine ⟨target.congr mine, quiet, ?_⟩
      intro copy member current stored
      obtain ⟨trackingId, sessionId, begin, drew, same, ending⟩ :=
        stores copy member current stored
      refine ⟨trackingId, sessionId, begin, drew, same, { ending with
        sound := ending.sound.congr fun requestId works => ?_ }⟩
      rcases works with begins | ends
      · exact absurd (ending.begins.symm.trans begins) (by simp)
      · obtain rfl := Option.some.inj (ending.ends.symm.trans ends)
        exact mine trackingId drew
  | prepared target messages => exact Target.Sound.congr held mine
  | submitted target zooRequestId => exact Target.Sound.congr held mine
  | wrapped target zooRequestId => exact Target.Sound.congr held mine
  | registering target zooRequestId created =>
      exact Target.Sound.congr held mine
  | preparing => exact held
  | refused error => exact held
  | raised =>
      intro trackingId drew
      obtain ⟨sessionId, ptr, begin, handed, begun, unfinished⟩ :=
        held trackingId drew
      exact ⟨sessionId, ptr, begin, handed,
        { begun with message := begun.message.trans (mine _ drew).symm },
        unfinished⟩

theorem neutral_congr {current : Section} {begins : Option RequestId}
    {heap : List SessionState} {log : List Event} (neutral : Neutral current)
    (sound : current.Sound userOf begins heap log) :
    current.Sound other begins heap log := by
  refine sound.congr fun requestId works => ?_
  rcases works with begins | ends
  · exact absurd (neutral.1.symm.trans begins) (by simp)
  · exact absurd (neutral.2.symm.trans ends) (by simp)

theorem Actor.Sound.congr {actor : Actor} (sound : actor.Sound userOf core)
    (agree : ∀ trackingId, trackingId < core.nextCompletionId →
      other trackingId = userOf trackingId) : actor.Sound other core := by
  cases actor with
  | request call => exact Request.Sound.congr sound agree
  | deletion call =>
      cases call with
      | removing sessionId current =>
          exact ⟨neutral_congr sound.2.1 sound.1, sound.2⟩
      | erasing sessionId => exact sound
      | cancelling sessionId zooRequestId => exact sound
      | returned sessionId result =>
          cases result with
          | error error => trivial
          | ok value => exact sound
  | caller progress =>
      cases progress with
      | suspended current => exact ⟨neutral_congr sound.2 sound.1, sound.2⟩
      | returned output => trivial
  | cancellation call => trivial
  | history call => trivial
  | prompt call => trivial

theorem Sane.congr (sane : Sane userOf core config.sessions)
    (agree : ∀ trackingId, trackingId < core.nextCompletionId →
      other trackingId = userOf trackingId) :
    Sane other core config.sessions where
  consistent := sane.consistent.congr fun requestId issued =>
    agree requestId (sane.issued requestId issued)
  issued := sane.issued

variable {service next : ChatService}

theorem Held.congr (held : Held config userOf service)
    (agree : ∀ trackingId, trackingId < service.shared.nextCompletionId →
      other trackingId = userOf trackingId) : Held config other service where
  shared := held.shared.congr agree
  each := fun index actor found => (held.each index actor found).congr agree
  apart := held.apart

theorem housekeeping_neutral {call : Call} (allowed : housekeeping call = true) :
    call.Honest userOf ∧ call.begins = none ∧ call.ends = none := by
  cases call with
  | reapExpiredSessions => exact ⟨trivial, rfl, rfl⟩
  | createSession request => exact ⟨trivial, rfl, rfl⟩
  | getSession sessionId => exact ⟨trivial, rfl, rfl⟩
  | stop => exact ⟨trivial, rfl, rfl⟩
  | _ => cases allowed

theorem Held.joins {actor : Actor} (held : Held config userOf service)
    (sound : actor.Sound userOf service.shared)
    (undrawn : actor.trackingId = none) :
    Held config userOf (service.join service.shared actor) := by
  refine Crew.Keeps.join held held.shared sound (fun _ => id) ?_
  intro _ _
  constructor
  · intro _ _ drew
    exact absurd (undrawn.symm.trans drew) (by simp)
  · intro _ drew
    exact absurd (undrawn.symm.trans drew) (by simp)

theorem Held.starts {start : StartRequest} {sessionId : StdString}
    {request : ChatCompletionRequest} (held : Held config userOf service)
    (session : start.session = some (sessionId, request))
    (message : ∀ message ∈ request.messages.head?,
      message = userOf service.shared.nextCompletionId) :
    Held config userOf
      (service.join (service.shared.draw start)
        (.request (startCall config service.shared.nextCompletionId start))) := by
  have unbegun : Unbegun service.shared.log service.shared.nextCompletionId := by
    by_contra issued
    exact absurd (held.shared.issued _ issued) (lt_irrefl _)
  have drawn : service.shared.draw start =
      { service.shared with
        nextCompletionId := service.shared.nextCompletionId + 1 } := by
    simp [Core.draw, session]
  have call : startCall config service.shared.nextCompletionId start =
      { start
        phase := .beginning
          (.enter (.beginRequest request service.shared.nextCompletionId))
        trackingId := some service.shared.nextCompletionId } := by
    simp [startCall, session]
  have named : request.sessionId = some sessionId := by
    cases start with
    | completion given =>
        obtain ⟨found, looked, same⟩ := Option.map_eq_some_iff.mp session
        obtain ⟨rfl, rfl⟩ := Prod.mk.inj same
        exact looked
    | extraction given =>
        obtain ⟨found, looked, same⟩ := Option.map_eq_some_iff.mp session
        obtain ⟨rfl, rfl⟩ := Prod.mk.inj same
        exact looked
    | agentChat given => cases session
  rw [drawn, call]
  refine Crew.Keeps.join held ?_ ?_ ?_ ?_
  · exact held.shared.idle rfl rfl (Nat.le_succ _)
  · refine ⟨fun trackingId drew => ?_, service.shared.nextCompletionId,
      sessionId, rfl, ⟨request, session⟩, ⟨message, rfl⟩, rfl, rfl, named,
      unbegun⟩
    cases Option.some.inj drew
    exact Nat.lt_succ_self _
  · intro actor sound
    have idle : Guarantees none service.shared
        { service.shared with
          nextCompletionId := service.shared.nextCompletionId + 1 } :=
      .idle rfl (Nat.le_succ _) rfl
    exact sound.mono idle (fun _ _ => by simp)
  · intro actor sound
    constructor
    · intro trackingId drew same
      obtain rfl := Option.some.inj same
      exact (sound.drawn drew).ne rfl
    · intro trackingId same drew
      obtain rfl := Option.some.inj same
      exact (sound.drawn drew).ne rfl

def StartRequest.userMessage (start : StartRequest) : ChatMessage :=
  ((start.session.bind fun session => session.2.messages.head?).getD
    (.user []))

theorem Held.arrives (held : Held config userOf service) (start : StartRequest) :
    ∃ other : RequestId → ChatMessage,
      (∀ trackingId, trackingId < service.shared.nextCompletionId →
        other trackingId = userOf trackingId) ∧
      Held config other
        (service.join (service.shared.draw start)
          (.request (startCall config service.shared.nextCompletionId
            start))) := by
  cases session : start.session with
  | none =>
      refine ⟨userOf, fun _ _ => rfl, ?_⟩
      have same : service.shared.draw start = service.shared := by
        simp [Core.draw, session]
      rw [same]
      by_cases model : start.model = config.sessions.modelId
      · have call : startCall config service.shared.nextCompletionId start =
            { start, phase := .preparing } := by
          simp [startCall, session, model]
        rw [call]
        exact held.joins ⟨by simp, session, rfl⟩ rfl
      · have call : startCall config service.shared.nextCompletionId start =
            { start, phase := .refused (unknownModelError start.model) } := by
          simp [startCall, session, model]
        rw [call]
        exact held.joins ⟨by simp, by simp⟩ rfl
  | some handed =>
      obtain ⟨sessionId, request⟩ := handed
      let other := Function.update userOf service.shared.nextCompletionId
        start.userMessage
      have agree (trackingId : RequestId)
          (drawn : trackingId < service.shared.nextCompletionId) :
          other trackingId = userOf trackingId :=
        Function.update_of_ne drawn.ne _ _
      refine ⟨other, agree, (held.congr agree).starts session ?_⟩
      intro message member
      simp only [other, Function.update_self, StartRequest.userMessage, session,
        Option.bind_some, Option.mem_def.mp member, Option.getD_some]

theorem Held.turnAway (held : Held config userOf service) (error : ApiError) :
    Held config userOf { service with
      shared := service.shared.turnAway error } where
  shared := held.shared.idle rfl rfl le_rfl
  each := by
    intro index actor found
    have idle : Guarantees none service.shared
        (service.shared.turnAway error) := .idle rfl le_rfl rfl
    exact (held.each index actor found).mono idle (fun _ _ => by simp)
  apart := held.apart

theorem Held.arrives_other {actor : Actor}
    (held : Held config userOf service) (arriving : Arriving actor) :
    Held config userOf (service.join service.shared actor) := by
  cases arriving with
  | deletion => exact held.joins ⟨⟨trivial, rfl⟩, ⟨rfl, rfl⟩, rfl⟩ rfl
  | caller allowed =>
      obtain ⟨honest, begins, ends⟩ := housekeeping_neutral allowed
      exact held.joins ⟨⟨honest, begins⟩, begins, ends⟩ rfl
  | _ => exact held.joins trivial rfl

theorem Held.turn {index : Nat} {input : Input} {actor updated : Actor}
    {after : Core} (held : Held config userOf service)
    (found : service.actors[index]? = some actor)
    (turn : Turn config service.shared actor input after updated) :
    Held config userOf ⟨after, service.actors.set index updated⟩ := by
  have sound := held.each index actor found
  refine Crew.Keeps.replace held found
    ⟨turn.sane held.shared sound, turn.sound held.shared sound⟩ ?_ ?_
  · intro other apart soundOther
    exact soundOther.mono (turn.guarantees sound)
      fun trackingId drew same => apart trackingId same drew
  · intro other soundOther
    exact turn.apart soundOther

/-- One step of the service keeps the invariant. -/
theorem Held.step {label : Label} (held : Held config userOf service)
    (stepped : step config service label = some next) :
    ∃ other, Held config other next := by
  cases step_stepped stepped with
  | turnsAway elsewhere => exact ⟨userOf, held.turnAway _⟩
  | starts =>
      obtain ⟨other, _, arrived⟩ := held.arrives _
      exact ⟨other, arrived⟩
  | arrives arriving elsewhere => exact ⟨userOf, held.arrives_other arriving⟩
  | turn found turn => exact ⟨userOf, held.turn found turn⟩

theorem initialService_held (prompt : StdString) :
    Held config userOf (initialService prompt) where
  shared :=
    { consistent := initialStore_consistent prompt
      issued := fun trackingId issued =>
        absurd (fun _ _ => List.not_mem_nil) issued }
  each := by simp [initialService]
  apart := by simp [initialService]

theorem reachable_held {prompt : StdString}
    (reached : Reachable (step config) (initialService prompt) service) :
    ∃ userOf, Held config userOf service := by
  obtain ⟨schedule, executed⟩ := reached
  have preserved {state next : ChatService} {label : Label}
      (held : ∃ userOf, Held config userOf state)
      (stepped : step config state label = some next) :
      ∃ userOf, Held config userOf next := by
    obtain ⟨userOf, held⟩ := held
    exact held.step stepped
  exact run_invariant preserved
    ⟨fun _ => .user [], initialService_held prompt⟩ executed

end Arrivals

/-- Nothing has happened but the draw of an id or the refusal of a call. -/
def Calm (core after : Core) : Prop :=
  ∃ counter turnedAway, core.nextCompletionId ≤ counter ∧
    after = { core with
      nextCompletionId := counter
      turnedAway := turnedAway }

/-- A condition on turns: the shared state, who acts and how, and any actor there
is, the acting one included. -/
abbrev Terms := Core → Actor → Input → Actor → Prop

def Terms.none : Terms := fun _ _ _ _ => True

/-- The step, if it is a turn, meets the terms with every actor. -/
def Terms.Met (terms : Terms) (service : ChatService) : Label → Prop
  | .act index input => ∀ actor ∈ service.actors[index]?,
      ∀ other ∈ service.actors, terms service.shared actor input other
  | _ => True

instance Terms.decidableMet {terms : Terms}
    [∀ core actor input other, Decidable (terms core actor input other)]
    (service : ChatService) (label : Label) :
    Decidable (terms.Met service label) := by
  cases label with
  | act index input =>
      exact inferInstanceAs (Decidable (∀ actor ∈ service.actors[index]?,
        ∀ other ∈ service.actors, terms service.shared actor input other))
  | _ => exact .isTrue trivial

theorem Terms.none_met {service : ChatService} {label : Label} :
    Terms.none.Met service label := by
  cases label with
  | act index input => exact fun _ _ _ _ => trivial
  | _ => trivial

theorem Terms.none_respected {config : Configuration} {service : ChatService}
    {schedule : List Label} :
    Respects (step config) Terms.none.Met service schedule := by
  induction schedule generalizing service with
  | nil => trivial
  | cons label rest ih => exact ⟨Terms.none_met, fun next _ => ih⟩

/-- What has to be shown of a property of the shared state and one of each actor,
so that they hold after every run whose turns meet the terms. -/
structure Discipline (config : Configuration) (terms : Terms)
    (Global : Core → Prop) (Local : Core → Actor → Prop) : Prop where
  own : ∀ {userOf : RequestId → ChatMessage} {core after : Core}
    {actor updated : Actor} {input : Input},
    Sane userOf core config.sessions → actor.Sound userOf core →
    Global core → Local core actor → terms core actor input actor →
    Turn config core actor input after updated →
    Global after ∧ Local after updated
  others : ∀ {userOf : RequestId → ChatMessage} {core after : Core}
    {actor updated other : Actor} {input : Input},
    Sane userOf core config.sessions → actor.Sound userOf core →
    other.Sound userOf core → Apart actor other → Global core →
    Local core actor → Local core other → terms core actor input other →
    Turn config core actor input after updated → Local after other
  calm : ∀ {core after : Core}, Calm core after →
    (Global core → Global after) ∧
      ∀ actor, Local core actor → Local after actor
  starts : ∀ {userOf : RequestId → ChatMessage} {core : Core}
    (start : StartRequest), Sane userOf core config.sessions → Global core →
    Local (core.draw start)
      (.request (startCall config core.nextCompletionId start))
  joins : ∀ {core : Core} {actor : Actor}, Arriving actor → Local core actor

section Rule

variable {config : Configuration} {userOf : RequestId → ChatMessage}
  {terms : Terms} {Global : Core → Prop} {Local : Core → Actor → Prop}
  {service next : ChatService}

theorem draw_calm (core : Core) (start : StartRequest) :
    Calm core (core.draw start) := by
  unfold Core.draw
  split
  · exact ⟨_, _, Nat.le_succ _, rfl⟩
  · exact ⟨_, _, le_rfl, rfl⟩

def Obeyed (Global : Core → Prop) (Local : Core → Actor → Prop)
    (service : ChatService) : Prop :=
  Global service.shared ∧ ∀ (index : Nat) actor,
    service.actors[index]? = some actor → Local service.shared actor

theorem Obeyed.join {shared : Core} {joined : Actor}
    (discipline : Discipline config terms Global Local)
    (obeyed : Obeyed Global Local service) (calm : Calm service.shared shared)
    (own : Local shared joined) :
    Obeyed Global Local (service.join shared joined) := by
  obtain ⟨global, each⟩ := obeyed
  refine ⟨(discipline.calm calm).1 global, fun index actor found => ?_⟩
  rcases Crew.getElem?_join_origin found with before | ⟨_, rfl⟩
  · exact (discipline.calm calm).2 actor (each index actor before)
  · exact own

theorem Obeyed.turnAway (discipline : Discipline config terms Global Local)
    (obeyed : Obeyed Global Local service) (error : ApiError) :
    Obeyed Global Local { service with
      shared := service.shared.turnAway error } := by
  have calm : Calm service.shared (service.shared.turnAway error) :=
    ⟨_, _, le_rfl, rfl⟩
  exact ⟨(discipline.calm calm).1 obeyed.1, fun index actor found =>
    (discipline.calm calm).2 actor (obeyed.2 index actor found)⟩

theorem Obeyed.turn {index : Nat} {input : Input} {actor updated : Actor}
    {after : Core} (discipline : Discipline config terms Global Local)
    (held : Held config userOf service) (obeyed : Obeyed Global Local service)
    (met : terms.Met service (.act index input))
    (found : service.actors[index]? = some actor)
    (turn : Turn config service.shared actor input after updated) :
    Obeyed Global Local ⟨after, service.actors.set index updated⟩ := by
  have sound := held.each index actor found
  have before := obeyed.2 index actor found
  have fair (other : Actor) (member : other ∈ service.actors) :
      terms service.shared actor input other := met actor found other member
  have own := discipline.own held.shared sound obeyed.1 before
    (fair actor (List.mem_of_getElem? found)) turn
  refine ⟨own.1, fun other actor' foundAfter => ?_⟩
  rcases Crew.getElem?_set_origin foundAfter with ⟨_, rfl⟩ | ⟨different, at_⟩
  · exact own.2
  · exact discipline.others held.shared sound (held.each other actor' at_)
      (held.apart index other actor actor' different found at_) obeyed.1 before
      (obeyed.2 other actor' at_) (fair actor' (List.mem_of_getElem? at_)) turn

theorem Obeyed.step {label : Label}
    (discipline : Discipline config terms Global Local)
    (held : Held config userOf service) (obeyed : Obeyed Global Local service)
    (met : terms.Met service label)
    (stepped : step config service label = some next) :
    Obeyed Global Local next := by
  cases step_stepped stepped with
  | turnsAway elsewhere => exact obeyed.turnAway discipline _
  | starts =>
      exact obeyed.join discipline (draw_calm _ _)
        (discipline.starts _ held.shared obeyed.1)
  | arrives arriving elsewhere =>
      exact obeyed.join discipline ⟨_, _, le_rfl, rfl⟩
        (discipline.joins arriving)
  | turn found turn => exact obeyed.turn discipline held met found turn

/-- The rule: a discipline that holds at first holds after every run whose turns
meet its terms. -/
theorem Discipline.respected {prompt : StdString} {schedule : List Label}
    (discipline : Discipline config terms Global Local)
    (initially : Global (initialService prompt).shared)
    (respected : Respects (step config) terms.Met (initialService prompt)
      schedule)
    (ran : run (step config) (initialService prompt) schedule = some service) :
    Obeyed Global Local service := by
  have preserved {state next : ChatService} {label : Label}
      (met : terms.Met state label)
      (both : (∃ userOf, Held config userOf state) ∧
        Obeyed Global Local state)
      (stepped : step config state label = some next) :
      (∃ userOf, Held config userOf next) ∧ Obeyed Global Local next := by
    obtain ⟨⟨userOf, held⟩, obeyed⟩ := both
    exact ⟨held.step stepped, obeyed.step discipline held met stepped⟩
  have first : (∃ userOf, Held config userOf (initialService prompt)) ∧
      Obeyed Global Local (initialService prompt) :=
    ⟨⟨fun _ => .user [], initialService_held prompt⟩, initially,
      by simp [initialService]⟩
  exact (respected.invariant preserved first ran).2

theorem Discipline.reachable {prompt : StdString}
    (discipline : Discipline config .none Global Local)
    (initially : Global (initialService prompt).shared)
    (reached : Reachable (step config) (initialService prompt) service) :
    Obeyed Global Local service := by
  obtain ⟨schedule, ran⟩ := reached
  exact discipline.respected initially Terms.none_respected ran

end Rule

/-! A server with one session, and a request that has begun on it. -/

def sampleConfig : Configuration :=
  { sessions :=
      { modelId := literal "m", config := ⟨1, 60⟩, maxHistoryMessages := 2 }
    contextSize := 4096
    rule := plainRule }

def sampleRequest : ChatCompletionRequest :=
  { model := literal "m", messages := [.user (literal "hi")]
    sessionId := some (literal "sess-1") }

def sampleOpening : List Label :=
  [.call (.createSession ⟨literal "m", none⟩), .act 0 (.run ⟨0, 0, []⟩),
    .act 0 (.run ⟨0, 0, []⟩)]

/-- The start call of actor `index` as far as `begin_request`. -/
def beginning (index : Nat) : List Label :=
  .start true (.completion sampleRequest) ::
    List.replicate 4 (.act index (.advance (.beginRequest ⟨1, 1, []⟩)))

def returning (index : Nat) (zooRequestId : ZooRequestId) : List Label :=
  beginning index ++
    [.act index (.advance (.complete zooRequestId)),
      .act index (.advance .spawn), .act index (.advance (.track 2)),
      .act index (.advance .register)]

/-- Finalize a copy of actor `index`'s pending object with an error, and execute
some of the operations that this takes. -/
def finalizing (index operations : Nat) : List Label :=
  .act index (.consume 0 (.finalize (.completion
      (.error ⟨.requestCancelled, [], none⟩)))) ::
    List.replicate operations (.act index (.consume 0 (.proceed ⟨3, 3, []⟩)))

def sampleRun (schedule : List Label) : ChatService :=
  (run (step sampleConfig) (initialService []) schedule).getD
    (initialService [])

theorem sampleRun_ran {schedule : List Label}
    (defined : (run (step sampleConfig) (initialService [])
      schedule).isSome = true) :
    run (step sampleConfig) (initialService []) schedule =
      some (sampleRun schedule) :=
  run_eq_getD defined

def requestAt (service : ChatService) (index : Nat) : Option Request :=
  match service.actors[index]? with
  | some (.request request) => some request
  | _ => none

theorem requestAt_eq_some {service : ChatService} {index : Nat}
    {request : Request} (at_ : requestAt service index = some request) :
    service.actors[index]? = some (.request request) := by
  unfold requestAt at at_
  split at at_
  next found => rw [found, Option.some.inj at_]
  next => contradiction

end ZooKeeperServer.Service
