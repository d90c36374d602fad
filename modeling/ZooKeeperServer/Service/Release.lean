import ZooKeeperServer.Service.Reachability

namespace ZooKeeperServer.Service

open SessionStore Transition

/-! How a session becomes free again: whatever happens to the pending object, its
inner lease releases the request once, and nobody else's. -/

/-- The request has begun, and no session that is still there is busy with it. -/
def Released (log : List Event) (trackingId : RequestId) : Prop :=
  ∃ ptr begin, .began ptr trackingId begin ∈ log ∧ Cleared log ptr trackingId

/-- The inner cleanup only ends after a store call has cleared the request. -/
def Guarded (released : Prop) : List Operation → Prop
  | [] => True
  | .store _ :: rest => Guarded True rest
  | .innerDone :: rest => released ∧ Guarded released rest
  | _ :: rest => Guarded released rest

/-- The last operation of a destructor leaves the inner lease released. -/
def Dying (operations : List Operation) : Prop :=
  operations = [] ∨ operations.getLast? = some .releaseInner ∨
    operations.getLast? = some .innerDone

section Operations

variable {released later : Prop} {operation : Operation}
  {first second rest : List Operation}

theorem Guarded.mono (guarded : Guarded released first)
    (implies : released → later) : Guarded later first := by
  induction first generalizing released later with
  | nil => trivial
  | cons operation rest ih =>
      cases operation with
      | store current => exact ih guarded id
      | innerDone => exact ⟨implies guarded.1, ih guarded.2 implies⟩
      | _ => exact ih guarded implies

theorem Guarded.append (before : Guarded released first)
    (after : Guarded released second) : Guarded released (first ++ second) := by
  induction first generalizing released with
  | nil => exact after
  | cons operation rest ih =>
      cases operation with
      | store current => exact ih before (after.mono fun _ => trivial)
      | innerDone => exact ⟨before.1, ih before.2 after⟩
      | _ => exact ih before after

theorem Guarded.tail (guarded : Guarded released (operation :: rest))
    (other : ∀ current, operation ≠ .store current) : Guarded released rest := by
  cases operation with
  | store current => exact absurd rfl (other current)
  | innerDone => exact guarded.2
  | _ => exact guarded

theorem Dying.append (dying : Dying (operation :: rest))
    (called : rest = [] → Dying first) : Dying (first ++ rest) := by
  cases rest with
  | nil => simpa using called rfl
  | cons next rest =>
      right
      have last : (first ++ next :: rest).getLast? =
          (operation :: next :: rest).getLast? := by
        rw [List.getLast?_append, List.getLast?_cons_cons,
          List.getLast?_eq_some_getLast (List.cons_ne_nil next rest)]
        rfl
      rw [last]
      rcases dying with empty | held
      · cases empty
      · exact held

theorem Dying.continues (dying : Dying (operation :: rest))
    (release : operation ≠ .releaseInner) (done : operation ≠ .innerDone) :
    rest ≠ [] := by
  rintro rfl
  rcases dying with empty | last | last
  · cases empty
  · exact release (Option.some.inj last)
  · exact done (Option.some.inj last)

end Operations

/-- The leases of a session request, against the log and the release actions. -/
structure Pending.Leased (core : Core) (trackingId : RequestId)
    (pending : Pending) : Prop where
  guarded : ∀ copy ∈ pending.copies,
    Guarded (Released core.log trackingId) copy.operations
  entered : ∀ copy ∈ pending.copies, .innerDone ∈ copy.operations →
    pending.inner ≠ .fresh
  released : pending.inner = .done → Released core.log trackingId
  dying : ∀ copy ∈ pending.copies, copy.alive = false → Dying copy.operations
  disposed : (∃ copy ∈ pending.copies,
    copy.alive = true ∨ copy.operations ≠ []) ∨ pending.inner = .done
  counted : core.releaseActions.count trackingId =
    if pending.inner = .fresh then 0 else 1

def Phase.Leased (core : Core) (trackingId : RequestId) : Phase → Prop
  | .pending object => object.Leased core trackingId
  | _ => core.releaseActions.count trackingId = 0

def Leased (core : Core) : Actor → Prop
  | .request call =>
      ∀ trackingId session, call.trackingId = some trackingId →
        call.start.session = some session →
        call.phase.Leased core trackingId
  | _ => True

/-- Only requests that exist have been released. -/
def Accounted (core : Core) : Prop :=
  ∀ trackingId ∈ core.releaseActions, trackingId < core.nextCompletionId

section Stability

variable {config : Configuration} {readings : Readings}
  {userOf : RequestId → ChatMessage} {core after : Core}
  {trackingId : RequestId}

theorem Released.mono {actor : Option RequestId}
    (released : Released core.log trackingId)
    (guarantees : Guarantees actor core after) :
    Released after.log trackingId := by
  obtain ⟨ptr, begin, began, cleared⟩ := released
  obtain ⟨events, log, _⟩ := guarantees.log
  exact ⟨ptr, begin, guarantees.member began, log ▸ cleared.mono⟩

theorem Pending.Leased.mono {actor : Option RequestId} {pending : Pending}
    (leased : pending.Leased core trackingId)
    (guarantees : Guarantees actor core after)
    (counts : after.releaseActions.count trackingId =
      core.releaseActions.count trackingId) :
    pending.Leased after trackingId :=
  { leased with
    guarded := fun copy member =>
      (leased.guarded copy member).mono fun released => released.mono guarantees
    released := fun done => (leased.released done).mono guarantees
    counted := counts.trans leased.counted }

theorem Turn.releaseActions {actor updated : Actor} {input : Input}
    (turn : Turn config core actor input after updated) :
    after.releaseActions = core.releaseActions ∨
      ∃ trackingId, actor.trackingId = some trackingId ∧
        after.releaseActions = core.releaseActions ++ [trackingId] := by
  cases turn.touches with
  | nothing unchanged => exact .inl unchanged.released
  | store executed unchanged =>
      exact .inl (unchanged.released.trans (execute_storeOnly executed).released)
  | release drew => exact .inr ⟨_, drew, rfl⟩
  | _ => exact .inl rfl

theorem Turn.accounted {actor updated : Actor} {input : Input}
    (sound : actor.Sound userOf core) (accounted : Accounted core)
    (turn : Turn config core actor input after updated) : Accounted after := by
  have counter := (turn.guarantees sound).counter
  intro trackingId member
  rcases turn.releaseActions with same | ⟨own, drew, more⟩
  · exact (accounted trackingId (same ▸ member)).trans_le counter
  · rcases List.mem_append.mp (more ▸ member) with earlier | last
    · exact (accounted trackingId earlier).trans_le counter
    · obtain rfl := List.mem_singleton.mp last
      exact (sound.drawn drew).trans_le counter

theorem Turn.leaves_leased {actor updated other : Actor} {input : Input}
    (sound : actor.Sound userOf core) (apart : Apart actor other)
    (leased : Leased core other)
    (turn : Turn config core actor input after updated) :
    Leased after other := by
  cases other with
  | request call =>
      intro trackingId session drew named
      have before := leased trackingId session drew named
      have counts : after.releaseActions.count trackingId =
          core.releaseActions.count trackingId := by
        rcases turn.releaseActions with same | ⟨own, ownDrew, more⟩
        · rw [same]
        · have different : own ≠ trackingId := by
            rintro rfl
            exact apart own ownDrew drew
          simp [more, different]
      cases phase : call.phase with
      | pending pending =>
          rw [phase] at before
          exact Pending.Leased.mono before (turn.guarantees sound) counts
      | _ =>
          rw [phase] at before
          exact counts.trans before
  | _ => trivial

end Stability

section Consuming

variable {config : Configuration} {readings : Readings}
  {userOf : RequestId → ChatMessage} {core after : Core} {request : Request}
  {trackingId : RequestId} {pending updated : Pending} {sessionId : StdString}
  {begin : BeginRequestResult}

theorem Ending.released {current : Section} {output : Output}
    (ending : Ending userOf core trackingId sessionId current)
    (sane : Sane userOf core config.sessions)
    {ptr : SessionPtr} (begun : Begun userOf core trackingId sessionId begin ptr)
    (executed : core.execute config readings current =
      some (after, .returned output)) : Released after.log trackingId := by
  obtain ⟨outcome, ran, rfl, returned⟩ := execute_outcome executed
  refine ⟨ptr, begin, List.mem_append_left _ begun.began, ?_⟩
  exact exec_clears sane.consistent ⟨begin, begun.began⟩ begun.refers ending.ends
    ending.on ran returned.symm

theorem mem_set_of_eraseIdx {copies : List Copy} {index : Nat}
    {copy updated : Copy} (member : copy ∈ copies.eraseIdx index) :
    copy ∈ copies.set index updated := by
  obtain ⟨other, different, found⟩ :=
    List.mem_eraseIdx_iff_getElem?.mp member
  have still : (copies.set index updated)[other]? = some copy := by
    rw [List.getElem?_set_ne (Ne.symm different), found]
  exact List.mem_of_getElem? still

structure Step (core after : Core) (trackingId : RequestId)
    (pending updated : Pending) (operation : Operation)
    (rest called : List Operation) : Prop where
  guarded : Guarded (Released core.log trackingId) (operation :: rest) →
    Guarded (Released after.log trackingId) (called ++ rest)
  entered : (.innerDone ∈ called → updated.inner ≠ .fresh) ∧
    (pending.inner ≠ .fresh → updated.inner ≠ .fresh)
  released : (pending.inner = .done → Released core.log trackingId) →
    Guarded (Released core.log trackingId) (operation :: rest) →
    updated.inner = .done → Released after.log trackingId
  dying : Dying (operation :: rest) → Dying (called ++ rest)
  disposed : Dying (operation :: rest) → called ++ rest = [] →
    updated.inner = .done
  finished : pending.inner = .done → updated.inner = .done
  counted : (.innerDone ∈ operation :: rest → pending.inner ≠ .fresh) →
    core.releaseActions.count trackingId =
      (if pending.inner = .fresh then 0 else 1) →
    after.releaseActions.count trackingId =
      if updated.inner = .fresh then 0 else 1

theorem Step.plain {operation : Operation} {rest called : List Operation}
    (guarantees : Guarantees (some trackingId) core after)
    (actions : after.releaseActions = core.releaseActions)
    (inner : updated.inner = pending.inner)
    (store : ∀ current, operation ≠ .store current)
    (release : operation ≠ .releaseInner) (done : operation ≠ .innerDone)
    (calls : ∀ released, Guarded released called)
    (ends : .innerDone ∉ called) :
    Step core after trackingId pending updated operation rest called where
  guarded := fun guarded =>
    (calls _).append ((guarded.tail store).mono fun released =>
      released.mono guarantees)
  entered := ⟨fun member => absurd member ends, fun busy => inner ▸ busy⟩
  released := fun before _ finished =>
    (before (inner ▸ finished)).mono guarantees
  dying := fun dying => dying.append fun empty =>
    absurd empty (dying.continues release done)
  disposed := fun dying empty =>
    absurd (List.append_eq_nil_iff.mp empty).2 (dying.continues release done)
  finished := fun finished => inner ▸ finished
  counted := fun _ counts => by rw [actions, inner, counts]

theorem Operated.leases {operation : Operation} {rest called : List Operation}
    (sane : Sane userOf core config.sessions)
    (target : pending.target = .session sessionId begin)
    {ptr : SessionPtr} (begun : Begun userOf core trackingId sessionId begin ptr)
    (stores : ∀ current, operation = .store current →
      Ending userOf core trackingId sessionId current)
    (operated : Operated config readings core trackingId pending operation after
      updated called) :
    Step core after trackingId pending updated operation rest called := by
  have guarantees : Guarantees (some trackingId) core after :=
    operated.guarantees fun current same => ⟨sessionId, stores current same⟩
  cases operated with
  | untrack _ =>
      exact .plain guarantees rfl rfl (by simp) (by simp) (by simp)
        (fun _ => trivial) (by simp)
  | appendTurn =>
      exact .plain guarantees rfl rfl (by simp) (by simp) (by simp)
        (fun _ => trivial) (by simp)
  | unregister =>
      exact .plain guarantees rfl rfl (by simp) (by simp) (by simp)
        (fun _ => trivial) (by simp)
  | outerReleased _ =>
      exact .plain guarantees rfl rfl (by simp) (by simp) (by simp)
        (fun _ => trivial) (by simp)
  | outerDone =>
      exact .plain guarantees rfl rfl (by simp) (by simp) (by simp)
        (fun _ => trivial) (by simp)
  | releaseOuter _ =>
      rw [target]
      exact .plain guarantees rfl rfl (by simp) (by simp) (by simp)
        (fun _ => trivial) (by simp [Target.innerRelease])
  | storeProceeds executed =>
      have actions := (execute_storeOnly executed).released
      exact
        { guarded := fun guarded => guarded
          entered := ⟨by simp, id⟩
          released := fun before _ finished => (before finished).mono guarantees
          dying := fun dying => dying.append fun empty =>
            absurd empty (dying.continues (by simp) (by simp))
          disposed := fun _ empty => by simp at empty
          finished := id
          counted := fun _ counts => by rw [actions, counts] }
  | storeReturns executed =>
      have actions := (execute_storeOnly executed).released
      have released := (stores _ rfl).released sane begun executed
      exact
        { guarded := fun guarded => Guarded.mono guarded fun _ => released
          entered := ⟨by simp, id⟩
          released := fun _ _ _ => released
          dying := fun dying => dying.append fun empty =>
            absurd empty (dying.continues (by simp) (by simp))
          disposed := fun dying empty =>
            absurd empty (dying.continues (by simp) (by simp))
          finished := id
          counted := fun _ counts => by rw [actions, counts] }
  | releaseInner _ fresh =>
      exact
        { guarded := fun guarded =>
            ⟨trivial, Guarded.mono guarded fun _ => trivial⟩
          entered := ⟨by simp, by simp⟩
          released := fun _ _ finished => by simp at finished
          dying := fun dying => dying.append fun _ => .inr (.inr rfl)
          disposed := fun _ empty => by simp at empty
          finished := fun finished => by simp [fresh] at finished
          counted := fun _ counts => by simp [counts, fresh] }
  | innerReleased finished =>
      exact
        { guarded := fun guarded => guarded.tail (by simp)
          entered := ⟨by simp, id⟩
          released := fun before _ => before
          dying := fun dying => dying.append fun _ => .inl rfl
          disposed := fun _ _ => finished
          finished := id
          counted := fun _ counts => counts }
  | innerDone =>
      exact
        { guarded := fun guarded => guarded.2
          entered := ⟨by simp, by simp⟩
          released := fun _ guarded _ => guarded.1
          dying := fun dying => dying.append fun _ => .inl rfl
          disposed := fun _ _ => rfl
          finished := fun _ => rfl
          counted := fun entered counts => by
            simpa [entered List.mem_cons_self] using counts }

theorem Pending.Leased.setCopy {index : Nat} {copy : Copy} {used : Bool}
    (leased : pending.Leased core trackingId)
    (guarded : Guarded (Released core.log trackingId) copy.operations)
    (entered : .innerDone ∉ copy.operations)
    (dying : copy.alive = false → Dying copy.operations)
    (disposed : ∃ held ∈ pending.copies.set index copy,
      held.alive = true ∨ held.operations ≠ []) :
    Pending.Leased core trackingId
      { pending.setCopy index copy with consumed := used } where
  guarded := by
    intro held member
    rcases List.mem_or_eq_of_mem_set member with earlier | rfl
    · exact leased.guarded held earlier
    · exact guarded
  entered := by
    intro held member done
    rcases List.mem_or_eq_of_mem_set member with earlier | rfl
    · exact leased.entered held earlier done
    · exact absurd done entered
  released := leased.released
  dying := by
    intro held member dead
    rcases List.mem_or_eq_of_mem_set member with earlier | rfl
    · exact leased.dying held earlier dead
    · exact dying dead
  disposed := .inl disposed
  counted := leased.counted

/-- A turn of a consumer keeps the leases in order. -/
theorem Consumed.leased {index : Nat} {action : Action}
    (sane : Sane userOf core config.sessions)
    (sound : pending.Sound userOf core request)
    (drew : request.trackingId = some trackingId)
    (target : pending.target = .session sessionId begin)
    (leased : pending.Leased core trackingId)
    (consumed : Consumed config core trackingId request.start pending index
      action after updated) : updated.Leased after trackingId := by
  have placed {held copy : Copy} (at_ : pending.copies[index]? = some held) :
      copy ∈ pending.copies.set index copy :=
    List.mem_set (List.getElem?_eq_some_iff.mp at_).1 _
  cases consumed with
  | copy at_ =>
      refine { leased with
        guarded := fun copy member => ?_
        entered := fun copy member => ?_
        dying := fun copy member => ?_
        disposed := .inl ⟨{}, by simp⟩ }
      · rcases List.mem_append.mp member with earlier | last
        · exact leased.guarded copy earlier
        · rw [List.mem_singleton.mp last]
          trivial
      · rcases List.mem_append.mp member with earlier | last
        · exact leased.entered copy earlier
        · rw [List.mem_singleton.mp last]
          simp
      · rcases List.mem_append.mp member with earlier | last
        · exact leased.dying copy earlier
        · rw [List.mem_singleton.mp last]
          simp
  | finalize at_ answers =>
      refine leased.setCopy ?_ ?_ (by simp) ⟨_, placed at_, .inl rfl⟩
      · rw [target]
        trivial
      · simp [target, Target.onResult]
  | release at_ =>
      exact leased.setCopy trivial (by simp) (by simp) ⟨_, placed at_, .inl rfl⟩
  | destroyLast at_ last =>
      refine leased.setCopy ?_ ?_ ?_ ⟨_, placed at_, .inr (by simp)⟩
      · rw [target]
        trivial
      · simp [target, Target.innerRelease]
      · rw [target]
        exact fun _ => .inr (.inl rfl)
  | destroy at_ others =>
      simp only [Pending.lastCopy, List.all_eq_false, Bool.not_eq_true,
        Bool.not_eq_false'] at others
      obtain ⟨copy, member, alive⟩ := others
      exact leased.setCopy trivial (by simp) (fun _ => .inl rfl)
        ⟨copy, mem_set_of_eraseIdx member, .inl (by simpa using alive)⟩
  | @proceed _ alive operation rest called _ changed at_ operated =>
      have member := List.mem_of_getElem? at_
      have began := sound.target
      rw [target] at began
      obtain ⟨other, ptr, drew', _, begun, _⟩ := began
      obtain rfl := Option.some.inj (drew.symm.trans drew')
      have stores (current : Section) (same : operation = .store current) :
          Ending userOf core trackingId sessionId current := by
        subst same
        obtain ⟨named, handed, same, ending⟩ :=
          sound.ending drew member List.mem_cons_self
        cases target.symm.trans same
        exact ending
      have leases : Step core after trackingId pending changed operation rest
          called := operated.leases sane target begun stores
      have guarantees : Guarantees (some trackingId) core after :=
        operated.guarantees fun current same => ⟨sessionId, stores current same⟩
      obtain ⟨_, copies, _⟩ := operated.keeps
      have guarded := leased.guarded _ member
      have here : (⟨alive, called ++ rest⟩ : Copy) ∈
          (changed.setCopy index ⟨alive, called ++ rest⟩).copies := by
        simp only [Pending.setCopy, copies]
        exact placed at_
      constructor
      · intro copy found
        rcases List.mem_or_eq_of_mem_set found with earlier | rfl
        · exact (leased.guarded copy (copies ▸ earlier)).mono fun released =>
            released.mono guarantees
        · exact leases.guarded guarded
      · intro copy found done
        rcases List.mem_or_eq_of_mem_set found with earlier | rfl
        · exact leases.entered.2 (leased.entered copy (copies ▸ earlier) done)
        · rcases List.mem_append.mp done with new | old
          · exact leases.entered.1 new
          · exact leases.entered.2
              (leased.entered _ member (List.mem_cons_of_mem _ old))
      · exact leases.released leased.released guarded
      · intro copy found dead
        rcases List.mem_or_eq_of_mem_set found with earlier | rfl
        · exact leased.dying copy (copies ▸ earlier) dead
        · exact leases.dying (leased.dying _ member dead)
      · by_cases ended : alive = false ∧ called ++ rest = []
        · exact .inr (leases.disposed (leased.dying _ member ended.1) ended.2)
        · refine .inl ⟨_, here, ?_⟩
          cases alive with
          | true => exact .inl rfl
          | false => exact .inr fun empty => ended ⟨rfl, empty⟩
      · exact leases.counted (leased.entered _ member) leased.counted

end Consuming

section Discipline

variable {config : Configuration} {userOf : RequestId → ChatMessage}
  {core after : Core} {trackingId : RequestId}

theorem beginPhase_pending {sessionId : StdString} {progress : Progress}
    {pending : Pending} :
    beginPhase sessionId progress ≠ some (.pending pending) := by
  intro proceeds
  rcases beginPhase_cases proceeds with ⟨next, _, same⟩ | ⟨error, _, same⟩ |
    ⟨result, _, same⟩
  · cases same
  · cases same
  · cases same

theorem Phase.Leased.unreleased {phase : Phase}
    (counts : core.releaseActions.count trackingId = 0)
    (early : ∀ pending, phase ≠ .pending pending) :
    phase.Leased core trackingId := by
  cases phase with
  | pending pending => exact absurd rfl (early pending)
  | _ => exact counts

theorem makePending_leased {request : Request} {target : Target}
    {zooRequestId : ZooRequestId} {created : Int}
    (counts : core.releaseActions.count trackingId = 0) :
    (makePending config request trackingId target zooRequestId created).Leased
      core trackingId where
  guarded := by simp [makePending, Guarded]
  entered := by simp [makePending]
  released := by simp [makePending]
  dying := by simp [makePending]
  disposed := .inl ⟨{}, by simp [makePending]⟩
  counted := by simpa [makePending] using counts

theorem Advanced.leased {request updated : Request} {input : Advance}
    (sound : request.Sound userOf core)
    (leased : Leased core (.request request))
    (advanced : Advanced config core request input after updated) :
    Leased after (.request updated) := by
  intro trackingId session drew named
  have held := sound.2
  cases advanced with
  | beginRequest at_ session' executed proceeds =>
      have before := leased trackingId session drew named
      rw [at_] at before
      refine Phase.Leased.unreleased ?_ fun pending same => ?_
      · rw [(execute_storeOnly executed).released]
        exact before
      · exact beginPhase_pending (proceeds.trans (congrArg some same))
  | prepare at_ =>
      have before := leased trackingId session drew named
      rw [at_] at before
      refine Phase.Leased.unreleased before fun pending same => ?_
      rcases prepare_cases config core request.start with ⟨error, refused⟩ |
        ⟨target, messages, prepared, _⟩
      · cases refused.symm.trans same
      · cases prepared.symm.trans same
  | complete at_ =>
      have before := leased trackingId session drew named
      rw [at_] at before
      exact before
  | spawn at_ =>
      have before := leased trackingId session drew named
      rw [at_] at before
      exact before
  | raise at_ =>
      have before := leased trackingId session drew named
      rcases at_ with ⟨messages, at_⟩ | ⟨zooRequestId, at_⟩
      · rw [at_] at before
        exact before
      · rw [at_] at before
        exact before
  | track at_ =>
      have before := leased trackingId session drew named
      rw [at_] at before
      exact before
  | @number now target zooRequestId at_ sessionless =>
      rw [at_] at held
      cases target with
      | session sessionId begin => exact absurd rfl (sessionless _ _)
      | stateless => exact absurd (held.1.symm.trans named) (by simp)
      | retained message => exact absurd (held.1.symm.trans named) (by simp)
  | @register target zooRequestId created other at_ drew' =>
      have before := leased trackingId session drew named
      rw [at_] at before
      obtain rfl : other = trackingId :=
        Option.some.inj (drew'.symm.trans drew)
      exact makePending_leased before

theorem Turn.leased {actor updated : Actor} {input : Input}
    (sane : Sane userOf core config.sessions) (sound : actor.Sound userOf core)
    (leased : Leased core actor)
    (turn : Turn config core actor input after updated) :
    Leased after updated := by
  cases turn with
  | advance advanced => exact advanced.leased sound leased
  | @consume request pending _ other _ _ _ at_ drew consumed =>
      intro trackingId session drew' named
      obtain rfl : other = trackingId := Option.some.inj (drew.symm.trans drew')
      have before := leased other session drew named
      rw [at_] at before
      have held := Request.Sound.pending sound at_
      cases target : pending.target with
      | session sessionId begin =>
          exact consumed.leased sane held drew target before
      | stateless =>
          have none := held.target
          rw [target] at none
          exact absurd (none.1.symm.trans named) (by simp)
      | retained message =>
          have none := held.target
          rw [target] at none
          exact absurd (none.1.symm.trans named) (by simp)
  | deletion deleting => trivial
  | cancellation stepped => trivial
  | history stepped => trivial
  | prompt stepped => trivial
  | caller executed => trivial

theorem leases_disciplined :
    Discipline config .none Accounted Leased where
  own := fun sane sound accounted leased _ turn =>
    ⟨turn.accounted sound accounted, turn.leased sane sound leased⟩
  others := fun _ sound _ apart _ _ leased _ turn =>
    turn.leaves_leased sound apart leased
  calm := by
    rintro core after ⟨counter, turnedAway, more, rfl⟩
    refine ⟨fun accounted trackingId member =>
      (accounted trackingId member).trans_le more, fun actor leased => ?_⟩
    cases actor with
    | request call =>
        intro trackingId session drew named
        have before := leased trackingId session drew named
        cases phase : call.phase with
        | pending pending =>
            rw [phase] at before
            have idle : Guarantees none core { core with
                nextCompletionId := counter
                turnedAway := turnedAway } := .idle rfl more rfl
            exact Pending.Leased.mono before idle rfl
        | _ =>
            rw [phase] at before
            exact before
    | _ => trivial
  starts := by
    intro userOf core start _ accounted trackingId session drew named
    cases handed : start.session with
    | none =>
        simp only [startCall, handed] at named
        split at named
        · exact absurd (handed.symm.trans named) (by simp)
        · exact absurd (handed.symm.trans named) (by simp)
    | some pair =>
        obtain ⟨sessionId, request⟩ := pair
        simp only [startCall, handed] at drew ⊢
        obtain rfl := Option.some.inj drew
        have fresh : core.nextCompletionId ∉ core.releaseActions :=
          fun member => (accounted _ member).ne rfl
        have same : (core.draw start).releaseActions = core.releaseActions := by
          simp [Core.draw, handed]
        change (core.draw start).releaseActions.count _ = 0
        rw [same]
        exact List.count_eq_zero_of_not_mem fresh
  joins := by
    intro core actor arriving
    cases arriving <;> trivial

end Discipline

def Pending.Gone (pending : Pending) : Prop :=
  ∀ copy ∈ pending.copies, copy.alive = false ∧ copy.operations = []

/-- What a request on a session guarantees for it; `index` is the request's actor. -/
structure NeverLeftBusy (config : Configuration) (service : ChatService)
    (index : Nat) (request : Request) (trackingId : RequestId)
    (sessionId : StdString) : Prop where
  begins : ∀ pending, request.phase = .pending pending →
    ∃ ptr begin session, .began ptr trackingId begin ∈ service.shared.log ∧
      service.shared.store.heap[ptr]? = some session ∧ session.id = sessionId
  busy : ∀ ptr begin, .began ptr trackingId begin ∈ service.shared.log →
    ¬ Finished service.shared.log ptr trackingId →
    ∃ session, service.shared.store.heap[ptr]? = some session ∧
      session.activeRequest = some trackingId
  finishes : ∀ label next ptr, step config service label = some next →
    ¬ Finished service.shared.log ptr trackingId →
    Finished next.shared.log ptr trackingId →
    ∃ copy readings, label = .act index (.consume copy (.proceed readings))
  gone : ∀ pending, request.phase = .pending pending → pending.Gone →
    service.shared.releaseActions.count trackingId = 1 ∧
      ∀ (ptr : SessionPtr) (session : SessionState),
        service.shared.store.heap[ptr]? = some session →
        session.activeRequest ≠ some trackingId ∨
          .deleted ptr ∈ service.shared.log ∨ .stopped ∈ service.shared.log
  once : service.shared.releaseActions.count trackingId ≤ 1
  others : ∀ copy action next (ptr : SessionPtr) (session : SessionState)
    (other : RequestId),
    step config service (.act index (.consume copy action)) = some next →
    service.shared.store.heap[ptr]? = some session →
    session.activeRequest = some other → other ≠ trackingId →
    ∃ updated : SessionState, next.shared.store.heap[ptr]? = some updated ∧
      updated.activeRequest = some other

section Theorem

variable {config : Configuration} {prompt : StdString}
  {userOf : RequestId → ChatMessage} {service next : ChatService}
  {core after : Core} {trackingId : RequestId}

theorem Change.keeps_active {settings : Settings} {ptr : SessionPtr}
    {session updated : SessionState} {events : List Event}
    (change : Change settings ptr session updated events)
    (active : session.activeRequest = some trackingId)
    (unended : ¬ Finished events ptr trackingId) :
    updated.activeRequest = some trackingId := by
  cases change with
  | stay elsewhere => exact active
  | expire idle => exact active
  | close => exact active
  | begin opened idle => exact absurd (idle.symm.trans active) (by simp)
  | commit opened busy =>
      obtain rfl := Option.some.inj (busy.symm.trans active)
      exact absurd (.inl ⟨_, List.mem_singleton_self _⟩) unended
  | release busy =>
      obtain rfl := Option.some.inj (busy.symm.trans active)
      exact absurd (.inr (List.mem_singleton_self _)) unended

/-- A section that ends another request leaves this one's session busy. -/
theorem execute_keeps_active {readings : Readings} {current : Section}
    {progress : Progress} {ptr : SessionPtr} {session : SessionState}
    (executed : core.execute config readings current = some (after, progress))
    (foreign : current.ends ≠ some trackingId)
    (found : core.store.heap[ptr]? = some session)
    (active : session.activeRequest = some trackingId) :
    ∃ updated, after.store.heap[ptr]? = some updated ∧
      updated.activeRequest = some trackingId := by
  obtain ⟨outcome, ran, rfl, rfl⟩ := execute_outcome executed
  have effect := exec_effect ran
  obtain ⟨updated, updatedAt, change⟩ := effect.change found
  exact ⟨updated, updatedAt, Change.keeps_active change active fun finished =>
    foreign (effect.ends finished)⟩

theorem Consumed.keeps_active {request : Request} {pending updated : Pending}
    {index : Nat} {action : Action} {ptr : SessionPtr} {session : SessionState}
    {other : RequestId} (sound : pending.Sound userOf core request)
    (drew : request.trackingId = some trackingId)
    (consumed : Consumed config core trackingId request.start pending index
      action after updated)
    (found : core.store.heap[ptr]? = some session)
    (active : session.activeRequest = some other)
    (different : other ≠ trackingId) :
    ∃ updated, after.store.heap[ptr]? = some updated ∧
      updated.activeRequest = some other := by
  cases consumed with
  | @proceed _ _ operation _ _ _ _ at_ operated =>
      have foreign (current : Section) (same : operation = .store current) :
          current.ends ≠ some other := by
        subst same
        obtain ⟨sessionId, begin, _, ending⟩ :=
          sound.ending drew (List.mem_of_getElem? at_) List.mem_cons_self
        rw [ending.ends]
        exact fun same => different (Option.some.inj same).symm
      cases operated with
      | storeProceeds executed =>
          exact execute_keeps_active executed (foreign _ rfl) found active
      | storeReturns executed =>
          exact execute_keeps_active executed (foreign _ rfl) found active
      | _ => exact ⟨session, found, active⟩
  | _ => exact ⟨session, found, active⟩

/-- A request is finished by nobody but its own consumers. -/
theorem Turn.finishes {actor updated : Actor} {input : Input}
    (sound : actor.Sound userOf core)
    (turn : Turn config core actor input after updated) {ptr : SessionPtr}
    (unfinished : ¬ Finished core.log ptr trackingId)
    (finished : Finished after.log ptr trackingId) :
    actor.trackingId = some trackingId ∧
      ∃ copy readings, input = .consume copy (.proceed readings) := by
  have own : actor.trackingId = some trackingId := by
    by_contra other
    exact (turn.guarantees sound).unfinished other unfinished finished
  refine ⟨own, ?_⟩
  cases turn with
  | advance advanced =>
      cases advanced with
      | beginRequest at_ session executed proceeds =>
          have held := sound.2
          rw [at_] at held
          obtain ⟨drawn, sessionId, opening⟩ := held
          obtain ⟨outcome, ran, rfl, rfl⟩ := execute_outcome executed
          rcases finished_append.mp finished with earlier | later
          · exact absurd earlier unfinished
          · exact absurd (opening.ends.symm.trans ((exec_effect ran).ends later))
              (by simp)
      | _ => exact absurd finished unfinished
  | consume at_ drew consumed =>
      cases consumed with
      | proceed copyAt operated => exact ⟨_, _, rfl⟩
      | _ => exact absurd finished unfinished
  | _ => cases own

theorem step_finishes {label : Label} (held : Held config userOf service)
    (stepped : step config service label = some next) {ptr : SessionPtr}
    (unfinished : ¬ Finished service.shared.log ptr trackingId)
    (finished : Finished next.shared.log ptr trackingId) :
    ∃ (index : Nat) (actor : Actor) (copy : Nat) (readings : Readings),
      label = .act index (.consume copy (.proceed readings)) ∧
        service.actors[index]? = some actor ∧
        actor.trackingId = some trackingId := by
  cases step_stepped stepped with
  | turnsAway elsewhere => exact absurd finished unfinished
  | @starts start =>
      obtain ⟨counter, turnedAway, _, same⟩ := draw_calm service.shared start
      simp only [Crew.join, same] at finished
      exact absurd finished unfinished
  | arrives arriving elsewhere => exact absurd finished unfinished
  | @turn index input actor _ _ found turn =>
      obtain ⟨own, copy, readings, rfl⟩ :=
        turn.finishes (held.each index actor found) unfinished finished
      exact ⟨index, actor, copy, readings, rfl, found, own⟩

/-- No request leaves its session busy, in every run with fewer than 2^64 requests. -/
theorem never_left_busy {index : Nat} {request : Request}
    {sessionId : StdString} {handed : ChatCompletionRequest}
    (reached : Reachable (step config) (initialService prompt) service)
    (at_ : service.actors[index]? = some (.request request))
    (session : request.start.session = some (sessionId, handed))
    (drew : request.trackingId = some trackingId) :
    NeverLeftBusy config service index request trackingId sessionId := by
  obtain ⟨userOf, held⟩ := reachable_held reached
  have initially : Accounted (initialService prompt).shared := by
    simp [Accounted, initialService]
  have leases := (leases_disciplined.reachable initially reached).2 index _ at_
    trackingId _ drew session
  have sound : request.Sound userOf service.shared := held.each index _ at_
  have consistent := held.shared.consistent
  constructor
  · intro pending phase
    have target := (sound.pending phase).target
    cases same : pending.target with
    | session named begin =>
        rw [same] at target
        obtain ⟨other, ptr, drew', ⟨given, session'⟩, begun, _⟩ := target
        obtain rfl := Option.some.inj (drew.symm.trans drew')
        obtain rfl : sessionId = named :=
          (Prod.mk.inj (Option.some.inj (session.symm.trans session'))).1
        obtain ⟨state, found, id⟩ := begun.refers
        exact ⟨ptr, begin, state, begun.began, found, id⟩
    | stateless =>
        rw [same] at target
        exact absurd (target.1.symm.trans session) (by simp)
    | retained message =>
        rw [same] at target
        exact absurd (target.1.symm.trans session) (by simp)
  · intro ptr begin began unfinished
    have bound := consistent.changed _ began ptr rfl
    refine ⟨_, List.getElem?_eq_getElem bound, ?_⟩
    rcases (consistent.invariant ptr _
      (List.getElem?_eq_getElem bound)).unfinished trackingId begin began with
      finished | active
    · exact absurd finished unfinished
    · exact active
  · intro label next ptr stepped unfinished finished
    obtain ⟨other, actor, copy, readings, rfl, found, own⟩ :=
      step_finishes held stepped unfinished finished
    obtain rfl : index = other := by
      by_contra different
      exact held.apart index other _ actor different at_ found trackingId drew
        own
    exact ⟨copy, readings, rfl⟩
  · intro pending phase gone
    rw [phase] at leases
    have done : pending.inner = .done := by
      rcases leases.disposed with ⟨copy, member, busy⟩ | done
      · obtain ⟨dead, empty⟩ := gone copy member
        simp [dead, empty] at busy
      · exact done
    refine ⟨by simp [leases.counted, done], fun ptr state found => ?_⟩
    obtain ⟨first, begin, began, cleared⟩ := leases.released done
    exact consistent.cleared_idle began cleared found
  · cases phase : request.phase with
    | pending pending =>
        rw [phase] at leases
        rw [leases.counted]
        split
        · exact Nat.zero_le _
        · exact le_rfl
    | _ =>
        rw [phase] at leases
        exact leases.le.trans (Nat.zero_le _)
  · intro copy action next ptr state other stepped found active different
    obtain ⟨actor, shared, updated, here, acted, rfl⟩ :=
      Crew.turn_eq_some stepped
    obtain rfl : actor = .request request :=
      Option.some.inj (here.symm.trans at_)
    cases act_turn acted with
    | consume phase drew' consumed =>
        obtain rfl := Option.some.inj (drew.symm.trans drew')
        exact consumed.keeps_active (sound.pending phase) drew found active
          different

end Theorem

/-! The request's pending object is copied; one copy is finalized with an error,
the other is destroyed first. -/

def sampleFinalized : List Label :=
  sampleOpening ++ returning 1 7 ++
    [.act 1 (.consume 0 .copy), .act 1 (.consume 1 .destroy)] ++
    finalizing 1 11 ++ [.act 1 (.consume 0 .destroy)] ++
    List.replicate 2 (.act 1 (.consume 0 (.proceed ⟨4, 4, []⟩)))

theorem never_left_busy_sample :
    ∃ request, NeverLeftBusy sampleConfig (sampleRun sampleFinalized) 1 request
      1 (literal "sess-1") ∧
      (sampleRun sampleFinalized).shared.releaseActions = [1] := by
  have ran : run (step sampleConfig) (initialService []) sampleFinalized =
      some (sampleRun sampleFinalized) := sampleRun_ran (by decide +kernel)
  obtain ⟨request, found, drew, session⟩ : ∃ request,
      requestAt (sampleRun sampleFinalized) 1 = some request ∧
        request.trackingId = some 1 ∧
        request.start.session = some (literal "sess-1", sampleRequest) :=
    ⟨_, rfl, rfl, rfl⟩
  exact ⟨request, never_left_busy ⟨_, ran⟩ (requestAt_eq_some found) session
    drew, by decide +kernel⟩

end ZooKeeperServer.Service
