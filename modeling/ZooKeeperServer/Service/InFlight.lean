import ZooKeeperServer.Service.Deletion

namespace ZooKeeperServer.Service

open SessionStore Transition

/-! Between the deletion of a session and the one request that was started on it. -/

def Phase.Listed (sessionId : StdString) (core : Core) (phase : Phase) : Prop :=
  ∀ zooRequestId, phase.tracked = some (sessionId, zooRequestId) →
    core.activeSessionRequests.lookup sessionId = some zooRequestId

/-- What a deletion of the session owes a request of it. -/
def Deletion.Covers (sessionId : StdString) (core : Core) (phase : Phase) :
    Deletion → Prop
  | .removing named (.closeDeleted _) =>
      named = sessionId → phase.Listed sessionId core
  | .erasing named => named = sessionId → phase.Listed sessionId core
  | .cancelling named accepted =>
      named = sessionId → phase.awaiting ≠ some sessionId ∧
        ∀ zooRequestId, phase.tracked = some (sessionId, zooRequestId) →
          zooRequestId = accepted
  | .returned named (.ok ()) =>
      named = sessionId → phase.awaiting ≠ some sessionId ∧
        ∀ zooRequestId, phase.tracked = some (sessionId, zooRequestId) →
          zooRequestId ∈ core.cancelled
  | _ => True

section Covering

variable {config : Configuration} {readings : Readings}
  {userOf : RequestId → ChatMessage} {core after : Core}
  {actor updated : Actor} {input : Input} {sessionId : StdString}
  {call changed : Deletion} {phase : Phase}

theorem Turn.cancelled (turn : Turn config core actor input after updated) :
    core.cancelled ⊆ after.cancelled := by
  cases turn.touches with
  | nothing unchanged => exact unchanged.cancelled
  | store executed unchanged =>
      rw [← (execute_storeOnly executed).cancelled]
      exact unchanged.cancelled
  | cancel => exact List.subset_append_left _ _
  | _ => exact .refl _

theorem Actor.Sound.untracks_on (sound : actor.Sound userOf core)
    (untracks : actor.untracks input = some sessionId) :
    actor.On sessionId ∧ actor.tracked = none := by
  unfold Actor.untracks at untracks
  split at untracks
  · rename_i request copy readings
    split at untracks
    · rename_i pending phase
      split at untracks
      · rename_i alive rest named begin copyAt target
        obtain rfl := Option.some.inj untracks
        have held := Request.Sound.pending sound phase
        have targeted := held.target
        rw [target] at targeted
        obtain ⟨trackingId, ptr, drew, handed, _⟩ := targeted
        refine ⟨handed, ?_⟩
        have busy : pending.consumed = true := by
          by_contra fresh
          have quiet := held.quiet (Bool.eq_false_iff.mpr fresh)
          exact absurd (quiet.2.2 _ (List.mem_of_getElem? copyAt)) (by simp)
        simp [Actor.tracked, Phase.tracked, Pending.tracked, phase, target, busy]
      · cases untracks
    · cases untracks
  · cases untracks

theorem Phase.tracked_numbered {zooRequestId : ZooRequestId}
    (tracked : phase.tracked = some (sessionId, zooRequestId)) :
    phase.zooRequestId = some zooRequestId := by
  unfold Phase.tracked at tracked
  split at tracked
  · exact congrArg (some ∘ Prod.snd) (Option.some.inj tracked)
  · unfold Pending.tracked at tracked
    split at tracked
    · exact congrArg (some ∘ Prod.snd) (Option.some.inj tracked)
    · cases tracked
  · cases tracked

theorem Turn.keeps_entry (sound : actor.Sound userOf core)
    (turn : Turn config core actor input after updated)
    (foreign : ¬ actor.On sessionId) (erases : actor.erases ≠ some sessionId) :
    after.activeSessionRequests.lookup sessionId =
      core.activeSessionRequests.lookup sessionId := by
  cases turn.retracked with
  | same same => rw [same]
  | @track request named begin zoo acting at_ inserted =>
      have different : sessionId ≠ named := by
        rintro rfl
        subst acting
        have held := sound.2
        rw [at_] at held
        obtain ⟨trackingId, ptr, drew, handed, _⟩ := held
        exact foreign handed
      rw [inserted, AList.lookup_insert_ne different]
  | @untrack named untracks erased =>
      have different : sessionId ≠ named := by
        rintro rfl
        exact foreign (sound.untracks_on untracks).1
      rw [erased, AList.lookup_erase_ne different]
  | @delete named acting erased =>
      have different : sessionId ≠ named := by
        rintro rfl
        exact erases (by rw [acting]; rfl)
      rw [erased, AList.lookup_erase_ne different]

theorem Deletion.Covers.mono (covers : call.Covers sessionId core phase)
    (entry : call.removed = some sessionId →
      after.activeSessionRequests.lookup sessionId =
        core.activeSessionRequests.lookup sessionId)
    (cancelled : core.cancelled ⊆ after.cancelled) :
    call.Covers sessionId after phase := by
  cases call with
  | removing named current =>
      cases current with
      | closeDeleted ptr =>
          rintro rfl zooRequestId tracked
          rw [entry rfl]
          exact covers rfl zooRequestId tracked
      | _ => trivial
  | erasing named =>
      rintro rfl zooRequestId tracked
      rw [entry rfl]
      exact covers rfl zooRequestId tracked
  | cancelling named accepted => exact covers
  | returned named result =>
      cases result with
      | error error => trivial
      | ok value =>
          intro same
          obtain ⟨idle, covered⟩ := covers same
          exact ⟨idle, fun zooRequestId tracked =>
            cancelled (covered zooRequestId tracked)⟩

theorem Deletion.Sound.removed (sound : call.Sound userOf core)
    (removed : call.removed = some sessionId) : Deleted core sessionId := by
  cases call with
  | removing named current =>
      obtain ⟨held, _, on⟩ := sound
      cases current with
      | closeDeleted ptr =>
          obtain rfl := Option.some.inj removed
          exact ⟨ptr, on, held⟩
      | _ => cases removed
  | erasing named =>
      obtain rfl := Option.some.inj removed
      exact sound
  | cancelling named accepted =>
      obtain rfl := Option.some.inj removed
      exact sound
  | returned named result =>
      cases result with
      | error error => cases removed
      | ok value =>
          obtain rfl := Option.some.inj removed
          exact sound

theorem Deleting.removes (sound : call.Sound userOf core)
    (deleting : Deleting config readings core call after changed)
    (removed : changed.removed = some sessionId) :
    call.removed = some sessionId ∨
      core.store.sessions.lookup sessionId ≠ none := by
  cases deleting with
  | proceeds executed =>
      obtain ⟨_, neutral, on⟩ := sound
      obtain ⟨ptr, rfl, found, _⟩ := removing_proceeds neutral on executed
      obtain rfl := Option.some.inj removed
      exact .inr (by simp [found])
  | fails executed => cases removed
  | removed executed =>
      obtain ⟨_, neutral, on⟩ := sound
      obtain ⟨ptr, rfl⟩ := removed_section neutral on executed
      exact .inl removed
  | erase found =>
      split at removed
      · exact .inl removed
      · exact .inl removed
  | _ => exact .inl removed

theorem Deleting.covers {request : Request} {handed : ChatCompletionRequest}
    (sound : call.Sound userOf core) (vacant : Vacant core)
    (entered : Entered sessionId core (.request request))
    (numbered : Numbered sessionId core (.request request))
    (session : request.start.session = some (sessionId, handed))
    (timely : Timely sessionId core (.deletion call) input (.request request))
    (covers : call.Covers sessionId core request.phase)
    (deleting : Deleting config readings core call after changed) :
    changed.Covers sessionId after request.phase := by
  cases deleting with
  | proceeds executed =>
      obtain ⟨_, neutral, on⟩ := sound
      obtain ⟨ptr, rfl, found, _⟩ := removing_proceeds neutral on executed
      rintro rfl zooRequestId tracked
      rw [(execute_storeOnly executed).tracked]
      rcases entered zooRequestId tracked with entry | deleted
      · exact entry
      · exact absurd ((vacant.retired deleted).2.symm.trans found) (by simp)
  | fails executed => trivial
  | removed executed =>
      obtain ⟨_, neutral, on⟩ := sound
      obtain ⟨ptr, rfl⟩ := removed_section neutral on executed
      rintro rfl zooRequestId tracked
      rw [(execute_storeOnly executed).tracked]
      exact covers rfl zooRequestId tracked
  | untracked absent =>
      rintro rfl
      refine ⟨timely.1 rfl, fun zooRequestId tracked => ?_⟩
      exact absurd (absent.symm.trans (covers rfl zooRequestId tracked)) (by simp)
  | @erase named accepted found =>
      have accepts (same : named = sessionId) (zooRequestId : ZooRequestId)
          (tracked : request.phase.tracked = some (sessionId, zooRequestId)) :
          zooRequestId = accepted := by
        subst same
        exact Option.some.inj ((covers rfl zooRequestId tracked).symm.trans found)
      split
      · rintro rfl
        exact ⟨timely.1 rfl, accepts rfl⟩
      · rename_i zero
        rintro rfl
        refine ⟨timely.1 rfl, fun zooRequestId tracked => ?_⟩
        obtain rfl := accepts rfl zooRequestId tracked
        have zeroId : zooRequestId = 0 := not_not.mp zero
        subst zeroId
        exact absurd (Phase.tracked_numbered tracked)
          (numbered request handed rfl session)
  | @cancel named accepted =>
      rintro rfl
      obtain ⟨idle, accepts⟩ := covers rfl
      refine ⟨idle, fun zooRequestId tracked => ?_⟩
      rw [accepts zooRequestId tracked]
      simp

theorem prepare_unawaited (core : Core) (start : StartRequest) :
    (prepare config core start).awaiting = none := by
  rcases prepare_cases config core start with ⟨error, same⟩ |
    ⟨target, messages, same, sessionless⟩
  · rw [same]
    rfl
  · rw [same]
    cases target with
    | session named begin => exact absurd rfl (sessionless named begin)
    | _ => rfl

theorem Turn.awaits (sane : Sane userOf core config.sessions)
    (sound : actor.Sound userOf core)
    (turn : Turn config core actor input after updated)
    (awaiting : updated.awaiting = some sessionId) :
    actor.awaiting = some sessionId ∨ ¬ Shut sessionId core.store := by
  cases turn with
  | advance advanced =>
      cases advanced with
      | beginRequest at_ session executed proceeds =>
          rcases beginPhase_cases proceeds with ⟨next, _, rfl⟩ |
            ⟨error, _, rfl⟩ | ⟨result, rfl, rfl⟩
          · cases awaiting
          · cases awaiting
          · obtain rfl := Option.some.inj awaiting
            have held := sound.2
            rw [at_] at held
            obtain ⟨trackingId, named, opening⟩ := held
            obtain ⟨begin, session'⟩ := opening.session
            obtain rfl := (Prod.mk.inj
              (Option.some.inj (session.symm.trans session'))).1
            obtain ⟨ptr, state, refers, found, opened, _⟩ :=
              opening.begins_open sane executed
            refine .inr ?_
            rintro ⟨other, shut, shutAt, named, closed⟩
            obtain rfl := sane.consistent.pointer refers ⟨shut, shutAt, named⟩
            obtain rfl := Option.some.inj (found.symm.trans shutAt)
            exact absurd (opened.symm.trans closed) (by simp)
      | prepare at_ =>
          exact absurd ((prepare_unawaited core _).symm.trans awaiting) (by simp)
      | complete at_ =>
          refine .inl ?_
          change Phase.awaiting _ = _
          rw [at_, ← awaiting]
          rename_i target _ _
          cases target <;> rfl
      | spawn at_ =>
          refine .inl ?_
          change Phase.awaiting _ = _
          rw [at_, ← awaiting]
          rename_i target _
          cases target <;> rfl
      | _ => cases awaiting
  | _ => cases awaiting

theorem Turn.covered {request moved : Request}
    (sane : Sane userOf core config.sessions)
    (sound : Actor.Sound userOf core (.request request))
    (closes : Closes sessionId core (.deletion call))
    (covers : call.Covers sessionId core request.phase)
    (turn : Turn config core (.request request) input after (.request moved)) :
    call.Covers sessionId after moved.phase := by
  have listed (before : request.phase.Listed sessionId core) :
      moved.phase.Listed sessionId after := by
    intro zooRequestId tracked
    rcases turn.tracks sound tracked with ⟨_, entry⟩ | ⟨earlier, same⟩
    · exact entry
    · rw [same]
      exact before zooRequestId earlier
  have settled (shut : Shut sessionId core.store)
      (idle : request.phase.awaiting ≠ some sessionId) :
      moved.phase.awaiting ≠ some sessionId ∧
        ∀ zooRequestId, moved.phase.tracked = some (sessionId, zooRequestId) →
          request.phase.tracked = some (sessionId, zooRequestId) := by
    constructor
    · intro awaiting
      rcases turn.awaits sane sound awaiting with earlier | opened
      · exact idle earlier
      · exact opened shut
    · intro zooRequestId tracked
      rcases turn.tracks sound tracked with ⟨awaiting, _⟩ | ⟨earlier, _⟩
      · exact absurd awaiting idle
      · exact earlier
  cases call with
  | removing named current =>
      cases current with
      | closeDeleted ptr => exact fun same => listed (covers same)
      | _ => trivial
  | erasing named => exact fun same => listed (covers same)
  | cancelling named accepted =>
      rintro rfl
      obtain ⟨idle, accepts⟩ := covers rfl
      obtain ⟨still, earlier⟩ := settled (closes rfl) idle
      exact ⟨still, fun zooRequestId tracked =>
        accepts zooRequestId (earlier zooRequestId tracked)⟩
  | returned named result =>
      cases result with
      | error error => trivial
      | ok value =>
          rintro rfl
          obtain ⟨idle, cancelled⟩ := covers rfl
          obtain ⟨still, earlier⟩ := settled (closes rfl) idle
          exact ⟨still, fun zooRequestId tracked =>
            turn.cancelled (cancelled zooRequestId
              (earlier zooRequestId tracked))⟩

end Covering

/-- At most one request was started on the session. -/
def Alone (sessionId : StdString) (service : ChatService) : Prop :=
  ∀ (one two : Nat) first second, service.actors[one]? = some first →
    service.actors[two]? = some second → first.On sessionId →
    second.On sessionId → one = two

/-- What a successful deletion and any other actor owe each other. -/
def Cooperates (sessionId : StdString) (core : Core) (first second : Actor) :
    Prop :=
  ∀ call, first = .deletion call →
    (∀ other, second = .deletion other → call.removed = some sessionId →
      other.removed ≠ some sessionId) ∧
    ∀ request, second = .request request → second.On sessionId →
      call.Covers sessionId core request.phase

structure Overseen (config : Configuration) (sessionId : StdString)
    (service : ChatService) : Prop where
  held : ∃ userOf, Held config userOf service
  entered : Obeyed (fun _ => True) (Entered sessionId) service
  deletions : Obeyed Vacant (fun core actor => Numbered sessionId core actor ∧
    Closes sessionId core actor) service
  cooperates : ∀ (one two : Nat) first second, one ≠ two →
    service.actors[one]? = some first → service.actors[two]? = some second →
    Cooperates sessionId service.shared first second

section Running

variable {config : Configuration} {userOf : RequestId → ChatMessage}
  {service next : ChatService} {sessionId : StdString} {label : Label}

theorem Turn.on {core after : Core} {actor updated : Actor} {input : Input}
    (turn : Turn config core actor input after updated) :
    updated.On sessionId ↔ actor.On sessionId := by
  cases turn with
  | advance advanced => cases advanced <;> exact Iff.rfl
  | _ => exact Iff.rfl

theorem step_keeps_on {index : Nat} {actor : Actor}
    (stepped : step config service label = some next)
    (found : service.actors[index]? = some actor) (on : actor.On sessionId) :
    ∃ later, next.actors[index]? = some later ∧ later.On sessionId := by
  obtain ⟨bound, _⟩ := List.getElem?_eq_some_iff.mp found
  cases step_stepped stepped with
  | turnsAway elsewhere => exact ⟨actor, found, on⟩
  | starts =>
      exact ⟨actor, (List.getElem?_append_left bound).trans found, on⟩
  | arrives arriving elsewhere =>
      exact ⟨actor, (List.getElem?_append_left bound).trans found, on⟩
  | @turn acting _ before updated _ actingAt turn =>
      by_cases same : acting = index
      · subst same
        obtain rfl := Option.some.inj (actingAt.symm.trans found)
        exact ⟨updated, List.getElem?_set_self bound, turn.on.mpr on⟩
      · exact ⟨actor, (List.getElem?_set_ne same).trans found, on⟩

theorem Alone.before (alone : Alone sessionId next)
    (stepped : step config service label = some next) :
    Alone sessionId service := by
  intro one two first second firstAt secondAt firstOn secondOn
  obtain ⟨_, firstLater, firstStays⟩ := step_keeps_on stepped firstAt firstOn
  obtain ⟨_, secondLater, secondStays⟩ :=
    step_keeps_on stepped secondAt secondOn
  exact alone one two _ _ firstLater secondLater firstStays secondStays

/-- With one request on the session nobody untracks it behind a later one. -/
theorem Alone.undisturbed (alone : Alone sessionId service)
    (held : Held config userOf service) :
    (Undisturbed sessionId).Met service label := by
  cases label with
  | act index input =>
      intro actor found other member untracks entry tracked named
      obtain ⟨position, otherAt⟩ := List.getElem?_of_mem member
      obtain ⟨on, untracked⟩ :=
        (held.each index actor found).untracks_on untracks
      obtain ⟨named', zooRequestId⟩ := entry
      obtain rfl : named' = sessionId := named
      have otherOn := ((held.each position other otherAt).tracked_busy tracked).1
      obtain rfl := alone index position actor other found otherAt on otherOn
      obtain rfl := Option.some.inj (otherAt.symm.trans found)
      exact absurd (untracked.symm.trans tracked) (by simp)
  | _ => trivial

theorem Deletion.Covers.fresh {core : Core} {phase : Phase}
    (untracked : phase.tracked = none) (idle : phase.awaiting = none)
    (call : Deletion) : call.Covers sessionId core phase := by
  cases call with
  | removing named current =>
      cases current with
      | closeDeleted ptr => simp [Deletion.Covers, Phase.Listed, untracked]
      | _ => trivial
  | returned named result =>
      cases result <;> simp [Deletion.Covers, untracked, idle]
  | _ => simp [Deletion.Covers, Phase.Listed, untracked, idle]

theorem Cooperates.calm {core after : Core} {first second : Actor}
    (cooperates : Cooperates sessionId core first second)
    (calm : Calm core after) : Cooperates sessionId after first second := by
  obtain ⟨counter, turnedAway, _, rfl⟩ := calm
  intro call same
  obtain ⟨single, covers⟩ := cooperates call same
  exact ⟨single, fun request is on =>
    (covers request is on).mono (fun _ => rfl) (.refl _)⟩

theorem startCall_fresh (config : Configuration) (trackingId : RequestId)
    (start : StartRequest) :
    (startCall config trackingId start).phase.tracked = none ∧
      (startCall config trackingId start).phase.awaiting = none := by
  obtain ⟨phase, drawn, same, cases⟩ := startCall_cases config trackingId start
  rw [same]
  rcases cases with ⟨current, rfl⟩ | rfl | ⟨error, rfl⟩
  · exact ⟨rfl, rfl⟩
  · exact ⟨rfl, rfl⟩
  · exact ⟨rfl, rfl⟩

theorem Cooperates.acts {core after : Core} {actor updated second : Actor}
    {input : Input} (sound : actor.Sound userOf core)
    (soundSecond : second.Sound userOf core) (vacant : Vacant core)
    (entered : Entered sessionId core second)
    (numbered : Numbered sessionId core second)
    (timely : Timely sessionId core actor input second)
    (cooperates : Cooperates sessionId core actor second)
    (turn : Turn config core actor input after updated) :
    Cooperates sessionId after updated second := by
  rintro changed rfl
  cases turn with
  | @deletion readings call _ _ deleting =>
      obtain ⟨single, covers⟩ := cooperates call rfl
      constructor
      · rintro other rfl removed otherRemoved
        rcases deleting.removes sound removed with before | found
        · exact single other rfl before otherRemoved
        · exact found (vacant.retired (soundSecond.removed otherRemoved)).2
      · rintro request rfl ⟨handed, session⟩
        exact deleting.covers sound vacant entered numbered session timely
          (covers request rfl ⟨handed, session⟩)

theorem Cooperates.faces {core after : Core} {first actor updated : Actor}
    {input : Input} (sane : Sane userOf core config.sessions)
    (sound : actor.Sound userOf core) (soundFirst : first.Sound userOf core)
    (vacant : Vacant core) (closes : Closes sessionId core first)
    (cooperates : Cooperates sessionId core first actor)
    (turn : Turn config core actor input after updated) :
    Cooperates sessionId after first updated := by
  rintro call rfl
  obtain ⟨single, covers⟩ := cooperates call rfl
  constructor
  · rintro changed rfl removed otherRemoved
    cases turn with
    | @deletion readings other _ _ deleting =>
        rcases deleting.removes sound otherRemoved with before | found
        · exact single other rfl removed before
        · exact found (vacant.retired (soundFirst.removed removed)).2
  · rintro moved rfl on
    have before := turn.on.mp on
    cases actor with
    | request request =>
        exact turn.covered sane sound closes (covers request rfl before)
    | _ => exact before.elim

theorem Cooperates.third {core after : Core} {first second actor updated : Actor}
    {input : Input} (sound : actor.Sound userOf core)
    (foreign : second.On sessionId → ¬ actor.On sessionId)
    (single : Cooperates sessionId core first actor)
    (cooperates : Cooperates sessionId core first second)
    (turn : Turn config core actor input after updated) :
    Cooperates sessionId after first second := by
  rintro call rfl
  obtain ⟨apart, covers⟩ := cooperates call rfl
  refine ⟨apart, fun request is on => (covers request is on).mono ?_
    turn.cancelled⟩
  intro removed
  refine turn.keeps_entry sound (foreign on) fun erases => ?_
  cases actor with
  | deletion other =>
      cases other with
      | erasing named =>
          obtain rfl := Option.some.inj erases
          exact (single call rfl).1 _ rfl removed rfl
      | _ => cases erases
  | _ => cases erases

theorem Overseen.step (overseen : Overseen config sessionId service)
    (alone : Alone sessionId service)
    (timely : (Timely sessionId).Met service label)
    (stepped : step config service label = some next) :
    Overseen config sessionId next := by
  obtain ⟨⟨userOf, held⟩, entered, deletions, cooperates⟩ := overseen
  refine ⟨held.step stepped,
    entered.step entered_disciplined held (alone.undisturbed held) stepped,
    deletions.step deletion_disciplined held timely stepped, ?_⟩
  cases step_stepped stepped with
  | turnsAway elsewhere => exact cooperates
  | @starts start =>
      have calm := draw_calm service.shared start
      refine Crew.between_join ?_ ?_ ?_
      · rintro other second at_ call ⟨⟩
      · rintro other first at_ call rfl
        refine ⟨by simp, ?_⟩
        rintro request ⟨⟩ on
        obtain ⟨untracked, idle⟩ :=
          startCall_fresh config service.shared.nextCompletionId start
        exact .fresh untracked idle call
      · intro one two first second different firstAt secondAt
        exact (cooperates one two first second different firstAt secondAt).calm
          calm
  | @arrives _ actor arriving elsewhere =>
      refine Crew.between_join ?_ ?_ cooperates
      · rintro other second at_ call rfl
        cases arriving with
        | deletion => exact ⟨by simp [Deletion.removed], fun _ _ _ => trivial⟩
      · rintro other first at_ call rfl
        constructor
        · rintro changed rfl
          cases arriving with
          | deletion => simp [Deletion.removed]
        · rintro request rfl
          cases arriving
  | @turn index input actor updated after found turn =>
      have sound := held.each index actor found
      refine Crew.between_set ?_ ?_ ?_
      · intro other second different at_
        exact .acts sound (held.each other second at_) deletions.1
          (entered.2 other second at_) (deletions.2 other second at_).1
          (timely actor found second (List.mem_of_getElem? at_))
          (cooperates index other actor second (Ne.symm different) found at_)
          turn
      · intro other first different at_
        exact .faces held.shared sound (held.each other first at_) deletions.1
          (deletions.2 other first at_).2
          (cooperates other index first actor different at_ found) turn
      · intro one two first second firstElse secondElse different firstAt
          secondAt
        refine .third sound (fun on acts => ?_)
          (cooperates one index first actor firstElse firstAt found)
          (cooperates one two first second different firstAt secondAt) turn
        exact secondElse (alone two index second actor secondAt found on acts)

end Running

/-- Deleting a session cancels the request in flight on it, if it is the only one
that was started there. -/
theorem deletion_cancels {config : Configuration} {prompt : StdString}
    {schedule : List Label} {service : ChatService} {index deleter : Nat}
    {request : Request} {pending : Pending} {sessionId : StdString}
    {begin : BeginRequestResult}
    (respected : Respects (step config) (Timely sessionId).Met
      (initialService prompt) schedule)
    (ran : run (step config) (initialService prompt) schedule = some service)
    (alone : Alone sessionId service)
    (at_ : service.actors[index]? = some (.request request))
    (returned : request.phase = .pending pending)
    (target : pending.target = .session sessionId begin)
    (live : pending.consumed = false)
    (deleted : service.actors[deleter]? =
      some (.deletion (.returned sessionId (.ok ())))) :
    pending.zooRequestId ∈ service.shared.cancelled := by
  have preserved {state next : ChatService} {label : Label}
      (timely : (Timely sessionId).Met state label)
      (overseen : Alone sessionId state → Overseen config sessionId state)
      (stepped : step config state label = some next)
      (alone : Alone sessionId next) : Overseen config sessionId next :=
    (overseen (alone.before stepped)).step (alone.before stepped) timely stepped
  have first : Alone sessionId (initialService prompt) →
      Overseen config sessionId (initialService prompt) := fun _ =>
    { held := ⟨fun _ => .user [], initialService_held prompt⟩
      entered := ⟨trivial, by simp [initialService]⟩
      deletions := ⟨by simp [Vacant, initialService], by simp [initialService]⟩
      cooperates := by simp [initialService] }
  obtain ⟨⟨userOf, held⟩, _, _, cooperates⟩ :=
    respected.invariant preserved first ran alone
  have tracked : request.phase.tracked =
      some (sessionId, pending.zooRequestId) := by
    simp [Phase.tracked, Pending.tracked, returned, target, live]
  have on := ((held.each index _ at_).tracked_busy tracked).1
  have different : deleter ≠ index := by
    rintro rfl
    exact absurd (at_.symm.trans deleted) (by simp)
  have covers := (cooperates deleter index _ _ different deleted at_ _ rfl).2
    request rfl on
  exact (covers rfl).2 _ tracked

/-! A session is deleted while its request is pending. -/

def deleting (index sections : Nat) : List Label :=
  .deleteSession (literal "sess-1") ::
    List.replicate sections (.act index (.run ⟨3, 3, []⟩))

def sampleDeleted : List Label :=
  sampleOpening ++ returning 1 7 ++ deleting 2 4

instance decidableOn (sessionId : StdString) (actor : Actor) :
    Decidable (actor.On sessionId) :=
  match actor with
  | .request call =>
      decidable_of_iff (call.start.session.map Prod.fst = some sessionId) (by
        simp [Actor.On])
  | .deletion _ => .isFalse id
  | .cancellation _ => .isFalse id
  | .history _ => .isFalse id
  | .prompt _ => .isFalse id
  | .caller _ => .isFalse id

theorem alone_at {service : ChatService} {sessionId : StdString}
    (position : Nat)
    (only : ∀ index : Fin service.actors.length,
      service.actors[index].On sessionId → index.val = position) :
    Alone sessionId service := by
  have here (index : Nat) (actor : Actor)
      (found : service.actors[index]? = some actor) (on : actor.On sessionId) :
      index = position := by
    obtain ⟨bound, rfl⟩ := List.getElem?_eq_some_iff.mp found
    exact only ⟨index, bound⟩ on
  intro one two first second firstAt secondAt firstOn secondOn
  rw [here one first firstAt firstOn, here two second secondAt secondOn]

theorem deletion_cancels_sample :
    7 ∈ (sampleRun sampleDeleted).shared.cancelled := by
  have ran : run (step sampleConfig) (initialService []) sampleDeleted =
      some (sampleRun sampleDeleted) := sampleRun_ran (by decide +kernel)
  obtain ⟨request, pending, begin, found, phase, target, live, zoo⟩ :
      ∃ request pending begin,
        requestAt (sampleRun sampleDeleted) 1 = some request ∧
        request.phase = .pending pending ∧
        pending.target = .session (literal "sess-1") begin ∧
        pending.consumed = false ∧ pending.zooRequestId = 7 :=
    ⟨_, _, _, rfl, rfl, rfl, rfl, rfl⟩
  rw [← zoo]
  exact deletion_cancels (by decide +kernel) ran
    (alone_at 1 (by decide +kernel)) (requestAt_eq_some found) phase target live
    (show (sampleRun sampleDeleted).actors[2]? = _ from rfl)

/-! The session is deleted after `begin_request` and before
`track_session_request`. -/

def sampleMissed : List Label :=
  sampleOpening ++ beginning 1 ++ deleting 2 3 ++ (returning 1 7).drop 5

theorem deletion_misses :
    ¬ ∀ (config : Configuration) (prompt : StdString) (service : ChatService)
      (index deleter : Nat) request pending sessionId begin,
      Reachable (step config) (initialService prompt) service →
      Alone sessionId service →
      service.actors[index]? = some (.request request) →
      request.phase = .pending pending →
      pending.target = .session sessionId begin → pending.consumed = false →
      service.actors[deleter]? =
        some (.deletion (.returned sessionId (.ok ()))) →
      pending.zooRequestId ∈ service.shared.cancelled := by
  intro claim
  have ran : run (step sampleConfig) (initialService []) sampleMissed =
      some (sampleRun sampleMissed) := sampleRun_ran (by decide +kernel)
  obtain ⟨request, pending, begin, found, phase, target, live⟩ :
      ∃ request pending begin,
        requestAt (sampleRun sampleMissed) 1 = some request ∧
        request.phase = .pending pending ∧
        pending.target = .session (literal "sess-1") begin ∧
        pending.consumed = false := ⟨_, _, _, rfl, rfl, rfl, rfl⟩
  have cancelled := claim sampleConfig [] _ 1 2 request pending _ begin
    ⟨_, ran⟩ (alone_at 1 (by decide +kernel)) (requestAt_eq_some found) phase
    target live (show (sampleRun sampleMissed).actors[2]? = _ from rfl)
  have none : (sampleRun sampleMissed).shared.cancelled = [] := by
    decide +kernel
  rw [none] at cancelled
  cases cancelled

end ZooKeeperServer.Service
