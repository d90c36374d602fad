import ZooKeeperServer.Service.Reachability

namespace ZooKeeperServer.Service

open SessionStore Transition

/-! The public ids: which requests `public_request_cancellers_` knows, and whom
`cancel_request` cancels. -/

/-- The cleanup of the outer lease has not yet unregistered the request. -/
def Pending.Registered (pending : Pending) : Prop :=
  pending.outer = .fresh ∨
    ∃ copy ∈ pending.copies, .unregisterPublicRequest ∈ copy.operations

def Operation.unregisters : Operation → Bool
  | .unregisterPublicRequest => true
  | _ => false

def Operation.endsOuter : Operation → Bool
  | .outerDone => true
  | _ => false

/-- None of the operations belongs to the outer lease's cleanup. -/
def Quiet (operations : List Operation) : Prop :=
  ∀ other ∈ operations, other.unregisters = false ∧ other.endsOuter = false

/-- How many operations of this kind are due on the copies. -/
def tally (kind : Operation → Bool) (copies : List Copy) : Nat :=
  (copies.map fun copy => copy.operations.countP kind).sum

/-- One release of the outer lease is under way at a time, and it unregisters the
request before it ends. -/
structure ReleasesOnce (outer : Once) (copies : List Copy) : Prop where
  unregisters : tally Operation.unregisters copies ≤
    if outer = .running then 1 else 0
  ends : tally Operation.endsOuter copies = if outer = .running then 1 else 0
  ordered : ∀ copy ∈ copies, .unregisterPublicRequest ∈ copy.operations →
    ∃ rest, copy.operations = .unregisterPublicRequest :: rest ∧
      .outerDone ∈ rest

section Tallies

variable {kind : Operation → Bool} {copies : List Copy} {index : Nat}
  {old new : Copy}

theorem tally_set (found : copies[index]? = some old) :
    tally kind (copies.set index new) + old.operations.countP kind =
      tally kind copies + new.operations.countP kind := by
  induction copies generalizing index with
  | nil => simp at found
  | cons copy rest ih =>
      cases index with
      | zero =>
          obtain rfl := Option.some.inj found
          simp only [tally, List.set_cons_zero, List.map_cons, List.sum_cons]
          omega
      | succ index =>
          have later := ih (show rest[index]? = some old by simpa using found)
          simp only [tally, List.set_cons_succ, List.map_cons, List.sum_cons]
            at later ⊢
          omega

theorem tally_proceed {alive : Bool} {operation : Operation}
    {called rest : List Operation}
    (found : copies[index]? = some ⟨alive, operation :: rest⟩) :
    tally kind (copies.set index ⟨alive, called ++ rest⟩) +
        (if kind operation then 1 else 0) =
      tally kind copies + called.countP kind := by
  have changed := @tally_set kind _ _ _ ⟨alive, called ++ rest⟩ found
  simp only [List.countP_cons, List.countP_append] at changed
  omega

theorem tally_eq_zero :
    tally kind copies = 0 ↔
      ∀ copy ∈ copies, ∀ operation ∈ copy.operations, ¬ kind operation := by
  simp [tally, List.sum_eq_zero_iff_forall_eq_nat, List.countP_eq_zero]

theorem unregisters_eq_true {operation : Operation} :
    operation.unregisters = true ↔ operation = .unregisterPublicRequest := by
  cases operation <;> simp [Operation.unregisters]

theorem tally_pos {copy : Copy} {operation : Operation}
    (member : copy ∈ copies) (due : operation ∈ copy.operations)
    (counted : kind operation) : 0 < tally kind copies := by
  rw [Nat.pos_iff_ne_zero]
  intro none
  exact tally_eq_zero.mp none copy member operation due counted

theorem mem_set_of_ne {copy : Copy} (member : copy ∈ copies)
    (found : copies[index]? = some old) (other : copy ≠ old) :
    copy ∈ copies.set index new := by
  obtain ⟨position, at_⟩ := List.mem_iff_getElem?.mp member
  have elsewhere : index ≠ position := by
    rintro rfl
    exact other (Option.some.inj (at_.symm.trans found))
  have still : (copies.set index new)[position]? = some copy := by
    rw [List.getElem?_set_ne elsewhere, at_]
  exact List.mem_of_getElem? still

theorem registered_iff {pending : Pending} :
    pending.Registered ↔
      pending.outer = .fresh ∨
        0 < tally Operation.unregisters pending.copies := by
  rw [Nat.pos_iff_ne_zero, ne_eq, tally_eq_zero, Pending.Registered]
  simp [unregisters_eq_true]

end Tallies

inductive OuterMove (core after : Core) (pending updated : Pending) :
    Operation → List Operation → Prop
  | still {operation : Operation} {called : List Operation}
      (outer : updated.outer = pending.outer)
      (map : after.publicRequestCancellers = core.publicRequestCancellers)
      (quiet : Quiet (operation :: called)) :
      OuterMove core after pending updated operation called
  | release {inner : List Operation} (fresh : pending.outer = .fresh)
      (running : updated.outer = .running)
      (map : after.publicRequestCancellers = core.publicRequestCancellers)
      (quiet : Quiet inner) :
      OuterMove core after pending updated .releaseOuter
        (.unregisterPublicRequest :: (inner ++ [.outerDone]))
  | unregister (outer : updated.outer = pending.outer)
      (map : after.publicRequestCancellers =
        core.publicRequestCancellers.erase pending.id) :
      OuterMove core after pending updated .unregisterPublicRequest []
  | finish (done : updated.outer = .done)
      (map : after.publicRequestCancellers = core.publicRequestCancellers) :
      OuterMove core after pending updated .outerDone []

section Operations

variable {config : Configuration} {readings : Readings} {core after : Core}
  {trackingId : RequestId} {pending updated : Pending} {operation : Operation}
  {called rest : List Operation} {alive : Bool} {index : Nat}

theorem innerRelease_quiet (target : Target) : Quiet target.innerRelease := by
  cases target with
  | session sessionId begin =>
      simp [Quiet, Target.innerRelease, Operation.unregisters,
        Operation.endsOuter]
  | stateless => simp [Quiet, Target.innerRelease]
  | retained message => simp [Quiet, Target.innerRelease]

theorem Operated.outerMove
    (operated : Operated config readings core trackingId pending operation after
      updated called) : OuterMove core after pending updated operation called := by
  cases operated with
  | storeProceeds executed =>
      exact .still rfl (execute_storeOnly executed).registered
        (by simp [Quiet, Operation.unregisters, Operation.endsOuter])
  | storeReturns executed =>
      exact .still rfl (execute_storeOnly executed).registered
        (by simp [Quiet, Operation.unregisters, Operation.endsOuter])
  | unregister => exact .unregister rfl rfl
  | releaseOuter fresh =>
      exact .release fresh rfl rfl (innerRelease_quiet pending.target)
  | outerDone => exact .finish rfl rfl
  | _ =>
      exact .still rfl rfl
        (by simp [Quiet, Operation.unregisters, Operation.endsOuter])

theorem countP_quiet {kind : Operation → Bool} {operations : List Operation}
    (quiet : ∀ other ∈ operations, kind other = false) :
    operations.countP kind = 0 := by
  rw [List.countP_eq_zero]
  simpa using quiet

theorem ReleasesOnce.unregistered {outer : Once} {copies : List Copy}
    (once : ReleasesOnce outer copies)
    (found : copies[index]? = some ⟨alive, .outerDone :: rest⟩) :
    tally Operation.unregisters copies = 0 := by
  have ends := once.ends
  have others := @tally_set Operation.endsOuter _ _ _ {} found
  simp only [List.countP_cons, List.countP_nil, Operation.endsOuter, if_true]
    at others
  have none : tally Operation.endsOuter (copies.set index {}) = 0 := by
    split at ends <;> omega
  rw [tally_eq_zero]
  intro copy member operation due unregisters
  obtain rfl := unregisters_eq_true.mp unregisters
  obtain ⟨later, same, last⟩ := once.ordered copy member due
  have other : copy ≠ ⟨alive, .outerDone :: rest⟩ := by
    rintro rfl
    cases same
  exact tally_eq_zero.mp none copy (mem_set_of_ne member found other) .outerDone
    (same ▸ List.mem_cons_of_mem _ last) rfl

theorem ReleasesOnce.reorders {outer : Once} {copies : List Copy}
    (once : ReleasesOnce outer copies)
    (own : .unregisterPublicRequest ∈ called ++ rest →
      ∃ later, called ++ rest = .unregisterPublicRequest :: later ∧
        .outerDone ∈ later) :
    ∀ copy ∈ copies.set index ⟨alive, called ++ rest⟩,
      .unregisterPublicRequest ∈ copy.operations →
      ∃ later, copy.operations = .unregisterPublicRequest :: later ∧
        .outerDone ∈ later := by
  intro copy member
  rcases List.mem_or_eq_of_mem_set member with earlier | rfl
  · exact once.ordered copy earlier
  · exact own

theorem ReleasesOnce.operates (once : ReleasesOnce pending.outer pending.copies)
    (found : pending.copies[index]? = some ⟨alive, operation :: rest⟩)
    (move : OuterMove core after pending updated operation called) :
    ReleasesOnce updated.outer
      (pending.copies.set index ⟨alive, called ++ rest⟩) := by
  have due := once.unregisters
  have ending := once.ends
  have unregisters :=
    @tally_proceed Operation.unregisters _ _ _ _ called _ found
  have ends := @tally_proceed Operation.endsOuter _ _ _ _ called _ found
  have first (member : .unregisterPublicRequest ∈ rest) :
      operation = .unregisterPublicRequest := by
    obtain ⟨later, same, _⟩ := once.ordered _ (List.mem_of_getElem? found)
      (List.mem_cons_of_mem _ member)
    exact (List.cons.inj same).1
  cases move with
  | still outer map quiet =>
      have own := quiet operation List.mem_cons_self
      have calls (other : Operation) (member : other ∈ called) :=
        quiet other (List.mem_cons_of_mem _ member)
      rw [countP_quiet fun other member => (calls other member).1, own.1]
        at unregisters
      rw [countP_quiet fun other member => (calls other member).2, own.2] at ends
      simp only [Bool.false_eq_true, if_false, Nat.add_zero] at unregisters ends
      rw [outer]
      refine ⟨unregisters ▸ due, ends ▸ ending, once.reorders fun member => ?_⟩
      rcases List.mem_append.mp member with new | old
      · exact absurd (calls _ new).1 (by simp [Operation.unregisters])
      · rw [first old] at own
        cases own.1
  | @release inner fresh running map quiet =>
      have one := countP_quiet fun other member => (quiet other member).1
      have none := countP_quiet fun other member => (quiet other member).2
      simp only [List.countP_cons, List.countP_append, List.countP_nil, one,
        Operation.unregisters, Bool.false_eq_true, if_false, if_true]
        at unregisters
      simp only [List.countP_cons, List.countP_append, List.countP_nil, none,
        Operation.endsOuter, Bool.false_eq_true, if_false, if_true] at ends
      simp only [fresh, reduceCtorEq, if_false] at due ending
      rw [running]
      refine ⟨?_, ?_, once.reorders fun _ => ⟨_, rfl, by simp⟩⟩
      · rw [if_pos rfl]
        omega
      · rw [if_pos rfl]
        omega
  | unregister outer map =>
      simp only [List.countP_nil, Operation.unregisters, if_true] at unregisters
      simp only [List.countP_nil, Operation.endsOuter, Bool.false_eq_true,
        if_false, Nat.add_zero] at ends
      have none : tally Operation.unregisters
          (pending.copies.set index ⟨alive, [] ++ rest⟩) = 0 := by
        split at due <;> omega
      rw [outer]
      refine ⟨by omega, ends.trans ending, once.reorders fun member => ?_⟩
      obtain ⟨bound, _⟩ := List.getElem?_eq_some_iff.mp found
      have again : 0 < tally Operation.unregisters
          (pending.copies.set index ⟨alive, [] ++ rest⟩) :=
        tally_pos (List.mem_set bound _) member rfl
      omega
  | finish done map =>
      have none := once.unregistered found
      simp only [List.countP_nil, Operation.unregisters, Bool.false_eq_true,
        if_false] at unregisters
      simp only [List.countP_nil, Operation.endsOuter, if_true] at ends
      rw [done]
      refine ⟨?_, ?_, once.reorders fun member => ?_⟩
      · omega
      · rw [if_neg (by simp)]
        split at ending <;> omega
      · cases first member

/-- The map changes when the lease's cleanup unregisters the request, and only
then. -/
theorem OuterMove.registered (once : ReleasesOnce pending.outer pending.copies)
    (found : pending.copies[index]? = some ⟨alive, operation :: rest⟩)
    (same : updated.copies = pending.copies)
    (move : OuterMove core after pending updated operation called) :
    (after.publicRequestCancellers = core.publicRequestCancellers ∧
        ((updated.setCopy index ⟨alive, called ++ rest⟩).Registered ↔
          pending.Registered)) ∨
      (after.publicRequestCancellers =
          core.publicRequestCancellers.erase pending.id ∧
        ¬ (updated.setCopy index ⟨alive, called ++ rest⟩).Registered) := by
  have due := once.unregisters
  have unregisters :=
    @tally_proceed Operation.unregisters _ _ _ _ called _ found
  rw [registered_iff, registered_iff]
  simp only [Pending.setCopy, same]
  cases move with
  | still outer map quiet =>
      have calls (other : Operation) (member : other ∈ called) :=
        quiet other (List.mem_cons_of_mem _ member)
      rw [countP_quiet fun other member => (calls other member).1,
        (quiet operation List.mem_cons_self).1] at unregisters
      simp only [Bool.false_eq_true, if_false, Nat.add_zero] at unregisters
      exact .inl ⟨map, by rw [outer, unregisters]⟩
  | @release inner fresh running map quiet =>
      have calls : 0 < (.unregisterPublicRequest ::
          (inner ++ [.outerDone])).countP Operation.unregisters := by
        simp [Operation.unregisters]
      simp only [Operation.unregisters, Bool.false_eq_true, if_false]
        at unregisters
      exact .inl ⟨map, iff_of_true (.inr (by omega)) (.inl fresh)⟩
  | unregister outer map =>
      simp only [List.countP_nil, Operation.unregisters, if_true] at unregisters
      refine .inr ⟨map, ?_⟩
      rw [outer]
      rintro (fresh | more)
      · simp only [fresh, reduceCtorEq, if_false] at due
        omega
      · split at due <;> omega
  | finish done map =>
      have none := once.unregistered found
      simp only [List.countP_nil, Operation.unregisters, Bool.false_eq_true,
        if_false] at unregisters
      refine .inl ⟨map, iff_of_false ?_ ?_⟩
      · rw [done]
        rintro (fresh | more)
        · cases fresh
        · omega
      · rintro (fresh | more)
        · have ends := tally_pos (List.mem_of_getElem? found)
            List.mem_cons_self (by rfl : Operation.endsOuter .outerDone)
          have ending := once.ends
          simp only [fresh, reduceCtorEq, if_false] at ending
          omega
        · omega

end Operations

section Consumers

variable {config : Configuration} {core after : Core} {trackingId : RequestId}
  {start : StartRequest} {pending updated : Pending} {index : Nat}
  {action : Action}

theorem tally_starts {kind : Operation → Bool} {copies : List Copy}
    {alive : Bool} {new : Copy} (found : copies[index]? = some ⟨alive, []⟩)
    (quiet : ∀ other ∈ new.operations, kind other = false) :
    tally kind (copies.set index new) = tally kind copies := by
  have changed := @tally_set kind _ _ _ new found
  rwa [countP_quiet quiet] at changed

theorem ReleasesOnce.starts {outer : Once} {copies : List Copy} {alive : Bool}
    {new : Copy} (once : ReleasesOnce outer copies)
    (found : copies[index]? = some ⟨alive, []⟩) (quiet : Quiet new.operations) :
    ReleasesOnce outer (copies.set index new) := by
  refine ⟨?_, ?_, fun copy member due => ?_⟩
  · rw [tally_starts found fun other member => (quiet other member).1]
    exact once.unregisters
  · rw [tally_starts found fun other member => (quiet other member).2]
    exact once.ends
  · rcases List.mem_or_eq_of_mem_set member with earlier | rfl
    · exact once.ordered copy earlier due
    · exact absurd (quiet _ due).1 (by simp [Operation.unregisters])

theorem registered_starts {alive : Bool} {new : Copy} {consumed : Bool}
    (found : pending.copies[index]? = some ⟨alive, []⟩)
    (quiet : Quiet new.operations) :
    ({ pending.setCopy index new with consumed } : Pending).Registered ↔
      pending.Registered := by
  rw [registered_iff, registered_iff]
  simp only [Pending.setCopy]
  rw [tally_starts found fun other member => (quiet other member).1]

theorem onResult_quiet (target : Target) (result : Result) :
    Quiet (target.onResult trackingId result ++ [.releaseOuter]) := by
  cases target with
  | retained message =>
      cases result with
      | completion reply =>
          cases reply with
          | _ =>
              simp [Quiet, Target.onResult, Operation.unregisters,
                Operation.endsOuter]
      | extraction reply =>
          simp [Quiet, Target.onResult, Operation.unregisters,
            Operation.endsOuter]
  | _ =>
      simp [Quiet, Target.onResult, Operation.unregisters, Operation.endsOuter]

theorem dying_quiet (target : Target) :
    Quiet (.releaseOuter :: target.innerRelease) := by
  intro other member
  rcases List.mem_cons.mp member with rfl | later
  · exact ⟨rfl, rfl⟩
  · exact innerRelease_quiet target other later

theorem Consumed.releasesOnce (once : ReleasesOnce pending.outer pending.copies)
    (consumed : Consumed config core trackingId start pending index action after
      updated) : ReleasesOnce updated.outer updated.copies := by
  cases consumed with
  | copy at_ =>
      refine ⟨?_, ?_, fun copy member due => ?_⟩
      · simpa [tally] using once.unregisters
      · simpa [tally] using once.ends
      · rcases List.mem_append.mp member with earlier | last
        · exact once.ordered copy earlier due
        · rw [List.mem_singleton.mp last] at due
          cases due
  | finalize at_ answers => exact once.starts at_ (onResult_quiet _ _)
  | release at_ =>
      exact once.starts at_ (by
        simp [Quiet, Operation.unregisters, Operation.endsOuter])
  | destroyLast at_ last => exact once.starts at_ (dying_quiet _)
  | destroy at_ others => exact once.starts at_ (by simp [Quiet])
  | proceed at_ operated =>
      have kept := once.operates at_ operated.outerMove
      rw [← operated.keeps.2.1] at kept
      exact kept

theorem Consumed.registered (once : ReleasesOnce pending.outer pending.copies)
    (consumed : Consumed config core trackingId start pending index action after
      updated) :
    (after.publicRequestCancellers = core.publicRequestCancellers ∧
        (updated.Registered ↔ pending.Registered)) ∨
      (after.publicRequestCancellers =
          core.publicRequestCancellers.erase pending.id ∧
        ¬ updated.Registered) := by
  cases consumed with
  | copy at_ => exact .inl ⟨rfl, by simp [registered_iff, tally]⟩
  | finalize at_ answers =>
      exact .inl ⟨rfl, registered_starts at_ (onResult_quiet _ _)⟩
  | release at_ =>
      exact .inl ⟨rfl, registered_starts at_ (by
        simp [Quiet, Operation.unregisters, Operation.endsOuter])⟩
  | destroyLast at_ last =>
      exact .inl ⟨rfl, registered_starts at_ (dying_quiet _)⟩
  | destroy at_ others =>
      exact .inl ⟨rfl, @registered_starts pending _ _ _ pending.consumed at_
        (by simp [Quiet])⟩
  | proceed at_ operated =>
      exact operated.outerMove.registered once at_ operated.keeps.2.1

theorem Consumed.named
    (consumed : Consumed config core trackingId start pending index action after
      updated) :
    updated.id = pending.id ∧ updated.zooRequestId = pending.zooRequestId := by
  cases consumed with
  | proceed at_ operated =>
      obtain ⟨_, _, _, id, zooRequestId⟩ := operated.keeps
      exact ⟨id, zooRequestId⟩
  | _ => exact ⟨rfl, rfl⟩

end Consumers

structure Pending.Enrolled (core : Core) (publicId : StdString)
    (pending : Pending) : Prop where
  named : pending.id = publicId
  once : ReleasesOnce pending.outer pending.copies
  present : pending.Registered →
    core.publicRequestCancellers.lookup pending.id = some pending.zooRequestId
  absent : ¬ pending.Registered →
    core.publicRequestCancellers.lookup pending.id = none

def Enrolled (core : Core) (actor : Actor) : Prop :=
  ∀ request pending trackingId, actor = .request request →
    request.phase = .pending pending → request.trackingId = some trackingId →
    pending.Enrolled core (request.start.publicId trackingId)

def Actor.publicId : Actor → Option StdString
  | .request call =>
      call.trackingId.map fun trackingId => call.start.publicId trackingId
  | _ => none

section Turns

variable {config : Configuration} {userOf : RequestId → ChatMessage}
  {core after : Core} {actor updated : Actor} {input : Input}

theorem publicId_injective {first second : StartRequest}
    {one two : RequestId} (same : first.publicId one = second.publicId two) :
    one = two := by
  have digits (kind : StdString)
      (equal : kind ++ stdToString one = kind ++ stdToString two) : one = two :=
    stdToString_injective (List.append_cancel_left equal)
  have apart (one two : StdString) :
      literal "chatcmpl-" ++ one ≠ literal "extract-" ++ two := by
    intro equal
    have front := congrArg List.head? equal
    simp [literal] at front
  cases first with
  | extraction request =>
      cases second with
      | extraction request => exact digits _ same
      | _ => exact absurd same.symm (apart _ _)
  | _ =>
      cases second with
      | extraction request => exact absurd same (apart _ _)
      | _ => exact digits _ same

theorem Apart.publicId {other : Actor} (apart : Apart actor other)
    {publicId : StdString} (named : actor.publicId = some publicId) :
    other.publicId ≠ some publicId := by
  intro same
  cases actor with
  | request first =>
      cases other with
      | request second =>
          obtain ⟨one, drew, rfl⟩ := Option.map_eq_some_iff.mp named
          obtain ⟨two, drewOther, equal⟩ := Option.map_eq_some_iff.mp same
          obtain rfl := publicId_injective equal
          exact apart two drew drewOther
      | _ => cases same
  | _ => cases named

/-- A turn leaves the map alone, or enters or removes the actor's own request. -/
inductive Remapped (core after : Core) (actor updated : Actor) : Prop
  | same
      (map : after.publicRequestCancellers = core.publicRequestCancellers)
  | register {request : Request} {pending : Pending}
      (own : updated = .request request) (at_ : request.phase = .pending pending)
      (named : actor.publicId = some pending.id)
      (map : after.publicRequestCancellers =
        core.publicRequestCancellers.insert pending.id pending.zooRequestId)
  | unregister {publicId : StdString} (named : actor.publicId = some publicId)
      (map : after.publicRequestCancellers =
        core.publicRequestCancellers.erase publicId)

theorem Turn.remapped (enrolled : Enrolled core actor)
    (turn : Turn config core actor input after updated) :
    Remapped core after actor updated := by
  cases turn.touches with
  | nothing unchanged => exact .same unchanged.registered
  | store executed unchanged =>
      exact .same
        (unchanged.registered.trans (execute_storeOnly executed).registered)
  | register at_ drew named =>
      exact .register rfl at_ (by simp [Actor.publicId, drew, named]) rfl
  | unregister at_ drew =>
      have held := enrolled _ _ _ rfl at_ drew
      exact .unregister (by simp [Actor.publicId, drew, held.named]) rfl
  | _ => exact .same rfl

theorem Remapped.elsewhere (remapped : Remapped core after actor updated)
    {publicId : StdString} (other : actor.publicId ≠ some publicId) :
    after.publicRequestCancellers.lookup publicId =
      core.publicRequestCancellers.lookup publicId := by
  cases remapped with
  | same map => rw [map]
  | register own at_ named map =>
      rw [map, AList.lookup_insert_ne]
      exact fun same => other (same ▸ named)
  | unregister named map =>
      rw [map, AList.lookup_erase_ne]
      exact fun same => other (same ▸ named)

theorem Remapped.owner (remapped : Remapped core after actor updated)
    {publicId : StdString} {zooRequestId : ZooRequestId}
    (entry : after.publicRequestCancellers.lookup publicId = some zooRequestId) :
    core.publicRequestCancellers.lookup publicId = some zooRequestId ∨
      ∃ request pending, updated = .request request ∧
        request.phase = .pending pending ∧ pending.id = publicId := by
  cases remapped with
  | same map => exact .inl (map ▸ entry)
  | @register request pending own at_ named map =>
      by_cases here : publicId = pending.id
      · exact .inr ⟨request, pending, own, at_, here.symm⟩
      · rw [map, AList.lookup_insert_ne here] at entry
        exact .inl entry
  | @unregister removed named map =>
      by_cases here : publicId = removed
      · rw [map, here, AList.lookup_erase] at entry
        cases entry
      · rw [map, AList.lookup_erase_ne here] at entry
        exact .inl entry

theorem makePending_enrolled {request : Request} {trackingId : RequestId}
    {target : Target} {zooRequestId : ZooRequestId} {created : Int}
    (inserted : core.publicRequestCancellers.lookup
      (request.start.publicId trackingId) = some zooRequestId) :
    (makePending config request trackingId target zooRequestId created).Enrolled
      core (request.start.publicId trackingId) where
  named := rfl
  once := by
    constructor
    · simp [makePending, tally]
    · simp [makePending, tally]
    · simp [makePending]
  present := fun _ => inserted
  absent := fun gone => absurd (.inl rfl) gone

theorem Turn.enrolled (enrolled : Enrolled core actor)
    (turn : Turn config core actor input after updated) :
    Enrolled after updated := by
  rintro request pending trackingId rfl at_ drew
  cases turn with
  | advance advanced =>
      cases advanced with
      | beginRequest before session executed proceeds =>
          rcases beginPhase_cases proceeds with ⟨next, _, rfl⟩ |
            ⟨error, _, rfl⟩ | ⟨result, _, rfl⟩
          · cases at_
          · cases at_
          · cases at_
      | prepare before =>
          rcases prepare_cases config core _ with ⟨error, refused⟩ |
            ⟨target, messages, prepared, _⟩
          · exact absurd (refused.symm.trans at_) (by simp)
          · exact absurd (prepared.symm.trans at_) (by simp)
      | register before drawn =>
          obtain rfl := Phase.pending.inj at_
          obtain rfl := Option.some.inj (drawn.symm.trans drew)
          exact makePending_enrolled (AList.lookup_insert _)
      | _ => cases at_
  | consume before drawn consumed =>
      obtain rfl := Phase.pending.inj at_
      have held := enrolled _ _ _ rfl before drew
      obtain ⟨id, zooRequestId⟩ := consumed.named
      have once := consumed.releasesOnce held.once
      rcases consumed.registered held.once with ⟨same, iff_⟩ | ⟨erased, gone⟩
      · refine ⟨id.trans held.named, once, fun registered => ?_, fun gone => ?_⟩
        · rw [same, id, zooRequestId]
          exact held.present (iff_.mp registered)
        · rw [same, id]
          exact held.absent (mt iff_.mpr gone)
      · refine ⟨id.trans held.named, once, fun registered =>
          absurd registered gone, fun _ => ?_⟩
        rw [erased, id]
        exact AList.lookup_erase _ _

theorem Turn.leaves_enrolled {other : Actor} (apart : Apart actor other)
    (enrolled : Enrolled core actor) (held : Enrolled core other)
    (turn : Turn config core actor input after updated) :
    Enrolled after other := by
  rintro request pending trackingId rfl at_ drew
  have before := held _ _ _ rfl at_ drew
  have elsewhere : actor.publicId ≠ some pending.id := by
    intro same
    refine apart.publicId same ?_
    simp [Actor.publicId, drew, before.named]
  have same := (turn.remapped enrolled).elsewhere elsewhere
  exact ⟨before.named, before.once, fun registered =>
    same.trans (before.present registered), fun gone =>
    same.trans (before.absent gone)⟩

variable (config) in
theorem enrolled_disciplined :
    Discipline config .none (fun _ => True) Enrolled where
  own := fun _ _ _ enrolled _ turn => ⟨trivial, turn.enrolled enrolled⟩
  others := fun _ _ _ apart _ enrolled held _ turn =>
    turn.leaves_enrolled apart enrolled held
  calm := by
    rintro core after ⟨counter, turnedAway, _, rfl⟩
    exact ⟨id, fun actor enrolled request pending trackingId own at_ drew =>
      let held := enrolled request pending trackingId own at_ drew
      ⟨held.named, held.once, held.present, held.absent⟩⟩
  starts := by
    intro userOf core start _ _ request pending trackingId own at_
    obtain rfl := Actor.request.inj own
    obtain ⟨phase, drawn, same, cases⟩ :=
      startCall_cases config core.nextCompletionId start
    rw [same] at at_
    obtain rfl : phase = .pending pending := at_
    rcases cases with ⟨current, beginning⟩ | preparing | ⟨error, refused⟩
    · cases beginning
    · cases preparing
    · cases refused
  joins := by
    rintro core actor arriving request pending trackingId rfl
    cases arriving

end Turns

def pendingAt (service : ChatService) (index : Nat) : Option Pending :=
  match service.actors[index]? with
  | some (.request call) =>
      match call.phase with
      | .pending object => some object
      | _ => none
  | _ => none

/-- A request has this public id and this id of the agent's. -/
def Names (service : ChatService) (publicId : StdString)
    (zooRequestId : ZooRequestId) : Prop :=
  ∃ index pending, pendingAt service index = some pending ∧
    pending.id = publicId ∧ pending.zooRequestId = zooRequestId

/-- The same, of a request whose lease has not been released. -/
def Live (service : ChatService) (publicId : StdString)
    (zooRequestId : ZooRequestId) : Prop :=
  ∃ index pending, pendingAt service index = some pending ∧
    pending.Registered ∧ pending.id = publicId ∧
    pending.zooRequestId = zooRequestId

def cancelsIn (index : Nat) (service next : ChatService) :
    Label → List ZooRequestId
  | .act actor _ =>
      if actor = index then
        next.shared.cancelled.drop service.shared.cancelled.length
      else []
  | _ => []

/-- The calls of `agent_->cancel` that an actor makes in a run. -/
def cancelsBy (config : Configuration) (index : Nat) :
    ChatService → List Label → List ZooRequestId
  | _, [] => []
  | service, label :: rest =>
      match step config service label with
      | none => []
      | some next =>
          cancelsIn index service next label ++ cancelsBy config index next rest

/-- What a `cancel_request` has come to, with these calls of the agent. -/
def Cancellation.Called (service : ChatService) (calls : List ZooRequestId) :
    Cancellation → Prop
  | .looking _ => calls = []
  | .cancelling requestId zooRequestId =>
      calls = [] ∧ Names service requestId zooRequestId
  | .returned requestId (.error error) =>
      calls = [] ∧ error = unknownRequestError requestId
  | .returned requestId (.ok ()) =>
      ∃ zooRequestId, calls = [zooRequestId] ∧
        Names service requestId zooRequestId

section Runs

variable {config : Configuration} {userOf : RequestId → ChatMessage}
  {prompt : StdString} {service next middle : ChatService} {label : Label}
  {schedule : List Label} {index : Nat} {pending : Pending}
  {publicId : StdString} {zooRequestId : ZooRequestId}

theorem pendingAt_eq_some :
    pendingAt service index = some pending ↔
      ∃ request, service.actors[index]? = some (.request request) ∧
        request.phase = .pending pending := by
  unfold pendingAt
  constructor
  · intro at_
    split at at_
    · rename_i request found
      split at at_
      · rename_i object phase
        exact ⟨request, found, phase.trans (congrArg _ (Option.some.inj at_))⟩
      · cases at_
    · cases at_
  · rintro ⟨request, found, phase⟩
    simp [found, phase]

theorem cancelsBy_concat {start : ChatService}
    (ran : run (step config) start schedule = some middle)
    (stepped : step config middle label = some next) :
    cancelsBy config index start (schedule ++ [label]) =
      cancelsBy config index start schedule ++
        cancelsIn index middle next label := by
  induction schedule generalizing start with
  | nil =>
      obtain rfl := Option.some.inj ran
      simp [cancelsBy, stepped]
  | cons first rest ih =>
      obtain ⟨second, firstStepped, finished⟩ := run_cons.mp ran
      simp [cancelsBy, firstStepped, ih finished]

theorem Held.pending_drawn (held : Held config userOf service)
    {request : Request} (found : service.actors[index]? = some (.request request))
    (at_ : request.phase = .pending pending) :
    ∃ trackingId, request.trackingId = some trackingId := by
  have sound : request.Sound userOf service.shared := held.each index _ found
  have target := (sound.pending at_).target
  cases same : pending.target with
  | session sessionId begin =>
      rw [same] at target
      obtain ⟨trackingId, _, drew, _⟩ := target
      exact ⟨trackingId, drew⟩
  | stateless =>
      rw [same] at target
      exact Option.isSome_iff_exists.mp target.2
  | retained message =>
      rw [same] at target
      exact Option.isSome_iff_exists.mp target.2

theorem pendingAt_step (at_ : pendingAt service index = some pending)
    (stepped : step config service label = some next) :
    ∃ after, pendingAt next index = some after ∧ after.id = pending.id ∧
      after.zooRequestId = pending.zooRequestId := by
  obtain ⟨request, found, phase⟩ := pendingAt_eq_some.mp at_
  have joins {shared : Core} {joined : Actor} :
      pendingAt (service.join shared joined) index = some pending := by
    obtain ⟨bound, _⟩ := List.getElem?_eq_some_iff.mp found
    refine pendingAt_eq_some.mpr ⟨request, ?_, phase⟩
    simp only [Crew.join, List.getElem?_append_left bound, found]
  cases step_stepped stepped with
  | turnsAway elsewhere => exact ⟨pending, at_, rfl, rfl⟩
  | starts => exact ⟨pending, joins, rfl, rfl⟩
  | arrives arriving elsewhere => exact ⟨pending, joins, rfl, rfl⟩
  | @turn acting input actor updated after foundActing turn =>
      by_cases same : acting = index
      · subst same
        obtain rfl := Option.some.inj (foundActing.symm.trans found)
        obtain ⟨bound, _⟩ := List.getElem?_eq_some_iff.mp found
        cases turn with
        | advance advanced =>
            exfalso
            cases advanced with
            | raise before =>
                rcases before with ⟨_, before⟩ | ⟨_, before⟩
                · cases before.symm.trans phase
                · cases before.symm.trans phase
            | beginRequest before => cases before.symm.trans phase
            | prepare before => cases before.symm.trans phase
            | complete before => cases before.symm.trans phase
            | spawn before => cases before.symm.trans phase
            | track before => cases before.symm.trans phase
            | number before => cases before.symm.trans phase
            | register before => cases before.symm.trans phase
        | @consume _ held changed _ _ _ _ before drew consumed =>
            obtain rfl := Phase.pending.inj (before.symm.trans phase)
            refine ⟨changed, pendingAt_eq_some.mpr
              ⟨{ request with phase := .pending changed }, ?_, rfl⟩,
              consumed.named⟩
            simp [bound]
      · refine ⟨pending, pendingAt_eq_some.mpr ⟨request, ?_, phase⟩, rfl, rfl⟩
        simp [same, found]

theorem Names.step (names : Names service publicId zooRequestId)
    (stepped : step config service label = some next) :
    Names next publicId zooRequestId := by
  obtain ⟨index, pending, at_, rfl, rfl⟩ := names
  obtain ⟨after, atNext, id, zoo⟩ := pendingAt_step at_ stepped
  exact ⟨index, after, atNext, id, zoo⟩

def Owned (service : ChatService) : Prop :=
  ∀ publicId zooRequestId,
    service.shared.publicRequestCancellers.lookup publicId = some zooRequestId →
    ∃ index pending, pendingAt service index = some pending ∧
      pending.id = publicId

theorem Owned.step (owned : Owned service)
    (enrolled : ∀ (index : Nat) actor, service.actors[index]? = some actor →
      Enrolled service.shared actor)
    (stepped : step config service label = some next) : Owned next := by
  intro publicId zooRequestId entry
  have stays (before : service.shared.publicRequestCancellers.lookup publicId =
      some zooRequestId) :
      ∃ index pending, pendingAt next index = some pending ∧
        pending.id = publicId := by
    obtain ⟨index, pending, at_, rfl⟩ := owned publicId zooRequestId before
    obtain ⟨after, atNext, id, _⟩ := pendingAt_step at_ stepped
    exact ⟨index, after, atNext, id⟩
  cases step_stepped stepped with
  | turnsAway elsewhere => exact stays entry
  | starts =>
      obtain ⟨counter, turnedAway, _, drawn⟩ := draw_calm service.shared _
      rw [Crew.join, drawn] at entry
      exact stays entry
  | arrives arriving elsewhere => exact stays entry
  | @turn acting input actor updated after found turn =>
      rcases (turn.remapped (enrolled acting actor found)).owner entry with
        before | ⟨request, pending, rfl, at_, named⟩
      · exact stays before
      · obtain ⟨bound, _⟩ := List.getElem?_eq_some_iff.mp found
        exact ⟨acting, pending, pendingAt_eq_some.mpr
          ⟨request, by simp [bound], at_⟩, named⟩

theorem reachable_enrolled
    (reached : Reachable (step config) (initialService prompt) service) :
    ∀ (index : Nat) actor, service.actors[index]? = some actor →
      Enrolled service.shared actor :=
  ((enrolled_disciplined config).reachable trivial reached).2

theorem run_owned
    (ran : run (step config) (initialService prompt) schedule = some service) :
    Owned service := by
  induction schedule using List.reverseRecOn generalizing service with
  | nil =>
      obtain rfl := Option.some.inj ran
      intro publicId zooRequestId entry
      simp [initialService] at entry
  | append_singleton earlier label ih =>
      obtain ⟨middle, before, stepped⟩ := run_concat.mp ran
      exact (ih before).step (reachable_enrolled ⟨earlier, before⟩) stepped

/-- The keys of the map are the ids of the requests whose lease has not been
released. -/
theorem lookup_iff_live
    (ran : run (step config) (initialService prompt) schedule = some service) :
    service.shared.publicRequestCancellers.lookup publicId = some zooRequestId ↔
      Live service publicId zooRequestId := by
  obtain ⟨userOf, held⟩ := reachable_held ⟨schedule, ran⟩
  have enrolled {index : Nat} {pending : Pending}
      (at_ : pendingAt service index = some pending) :
      ∃ publicId, pending.Enrolled service.shared publicId := by
    obtain ⟨request, found, phase⟩ := pendingAt_eq_some.mp at_
    obtain ⟨trackingId, drew⟩ := held.pending_drawn found phase
    exact ⟨_, reachable_enrolled ⟨schedule, ran⟩ index _ found _ _ _ rfl phase drew⟩
  constructor
  · intro entry
    obtain ⟨index, pending, at_, rfl⟩ := run_owned ran publicId zooRequestId entry
    obtain ⟨_, holds⟩ := enrolled at_
    have registered : pending.Registered := by
      by_contra gone
      cases entry.symm.trans (holds.absent gone)
    refine ⟨index, pending, at_, registered, rfl, ?_⟩
    exact Option.some.inj ((holds.present registered).symm.trans entry)
  · rintro ⟨index, pending, at_, registered, rfl, rfl⟩
    obtain ⟨_, holds⟩ := enrolled at_
    exact holds.present registered

theorem Cancellation.Called.step {call : Cancellation}
    {calls : List ZooRequestId} (called : call.Called service calls)
    (stepped : Service.step config service label = some next) :
    call.Called next calls := by
  cases call with
  | looking requestId => exact called
  | cancelling requestId zooRequestId => exact ⟨called.1, called.2.step stepped⟩
  | returned requestId result =>
      cases result with
      | error error => exact called
      | ok value =>
          obtain ⟨zooRequestId, only, names⟩ := called
          exact ⟨zooRequestId, only, names.step stepped⟩

theorem Cancellation.Called.turn {call updated : Cancellation} {after : Core}
    {calls : List ZooRequestId} (called : call.Called service calls)
    (live : ∀ publicId zooRequestId,
      service.shared.publicRequestCancellers.lookup publicId =
        some zooRequestId → Names next publicId zooRequestId)
    (kept : ∀ publicId zooRequestId, Names service publicId zooRequestId →
      Names next publicId zooRequestId)
    (stepped : call.step service.shared = some (after, updated)) :
    updated.Called next
      (calls ++ after.cancelled.drop service.shared.cancelled.length) := by
  cases call with
  | looking requestId =>
      obtain rfl : calls = [] := called
      simp only [Cancellation.step] at stepped
      split at stepped
      · cases Option.some.inj stepped
        exact ⟨by simp, rfl⟩
      · rename_i zooRequestId found
        cases Option.some.inj stepped
        exact ⟨by simp, live _ _ found⟩
  | cancelling requestId zooRequestId =>
      obtain ⟨rfl, names⟩ := called
      cases Option.some.inj stepped
      exact ⟨zooRequestId, by simp, kept _ _ names⟩
  | returned requestId result => cases stepped

theorem run_called
    (ran : run (step config) (initialService prompt) schedule = some service) :
    (service.actors[index]? = none →
      cancelsBy config index (initialService prompt) schedule = []) ∧
    ∀ call, service.actors[index]? = some (.cancellation call) →
      call.Called service
        (cancelsBy config index (initialService prompt) schedule) := by
  induction schedule using List.reverseRecOn generalizing service with
  | nil =>
      obtain rfl := Option.some.inj ran
      exact ⟨fun _ => rfl, by simp [initialService]⟩
  | append_singleton earlier label ih =>
      obtain ⟨middle, before, stepped⟩ := run_concat.mp ran
      obtain ⟨absent, called⟩ := ih before
      rw [cancelsBy_concat before stepped]
      have quiet (elsewhere : ∀ index input, label ≠ .act index input) :
          cancelsIn index middle service label = [] := by
        cases label with
        | act actor input => exact absurd rfl (elsewhere actor input)
        | _ => rfl
      have joins {shared : Core} {joined : Actor}
          (same : service = middle.join shared joined)
          (new : ∀ call, joined = .cancellation call →
            ∃ requestId, call = .looking requestId) :
          (service.actors[index]? = none → middle.actors[index]? = none) ∧
          ∀ call, service.actors[index]? = some (.cancellation call) →
            call.Called service
              (cancelsBy config index (initialService prompt) earlier) := by
        subst same
        refine ⟨fun none => ?_, fun call found => ?_⟩
        · simp only [Crew.join, List.getElem?_eq_none_iff, List.length_append]
            at none ⊢
          omega
        · rcases Crew.getElem?_join_origin found with earlierAt | ⟨last, own⟩
          · exact (called call earlierAt).step stepped
          · obtain ⟨requestId, rfl⟩ := new call own
            exact absent (by simp [last])
      cases step_stepped stepped with
      | turnsAway elsewhere =>
          rw [quiet elsewhere, List.append_nil]
          exact ⟨absent, fun call found => (called call found).step stepped⟩
      | starts =>
          rw [quiet (by simp), List.append_nil]
          obtain ⟨none, some⟩ := joins rfl (by simp)
          exact ⟨fun missing => absent (none missing), some⟩
      | arrives arriving elsewhere =>
          rw [quiet elsewhere, List.append_nil]
          obtain ⟨none, some⟩ := joins rfl (by
            rintro call rfl
            cases arriving
            exact ⟨_, rfl⟩)
          exact ⟨fun missing => absent (none missing), some⟩
      | @turn acting input actor updated after foundActing turn =>
          obtain ⟨bound, _⟩ := List.getElem?_eq_some_iff.mp foundActing
          by_cases same : acting = index
          · subst same
            refine ⟨fun none => ?_, fun call found => ?_⟩
            · simp [bound] at none
            · obtain rfl : updated = .cancellation call := by
                simpa [bound] using found
              cases turn with
              | cancellation moved =>
                  have live (publicId : StdString) (zooRequestId : ZooRequestId)
                      (entry : middle.shared.publicRequestCancellers.lookup
                        publicId = some zooRequestId) :
                      Names ⟨after, middle.actors.set acting
                        (.cancellation call)⟩ publicId zooRequestId := by
                    obtain ⟨owner, pending, at_, _, id, zoo⟩ :=
                      (lookup_iff_live before).mp entry
                    exact Names.step ⟨owner, pending, at_, id, zoo⟩ stepped
                  have added := (called _ foundActing).turn live
                    (fun _ _ names => names.step stepped) moved
                  simpa [cancelsIn] using added
          · have idle : cancelsIn index middle
                ⟨after, middle.actors.set acting updated⟩ (.act acting input) =
                [] := by
              simp [cancelsIn, same]
            rw [idle, List.append_nil]
            refine ⟨fun none => absent ?_, fun call found => ?_⟩
            · simpa [same] using none
            · exact (called call (by simpa [same] using found)).step stepped

theorem looks_up {readings : Readings}
    (found : service.actors[index]? = some (.cancellation (.looking publicId)))
    (ran : run (step config) (initialService prompt) schedule = some service)
    (stepped : step config service (.act index (.run readings)) = some next) :
    next.shared.cancelled = service.shared.cancelled ∧
      ((∃ zooRequestId, Live service publicId zooRequestId ∧
          next.actors[index]? =
            some (.cancellation (.cancelling publicId zooRequestId))) ∨
        (∀ zooRequestId, ¬ Live service publicId zooRequestId) ∧
          next.actors[index]? = some (.cancellation
            (.returned publicId (.error (unknownRequestError publicId))))) := by
  obtain ⟨bound, _⟩ := List.getElem?_eq_some_iff.mp found
  obtain ⟨actor, after, updated, at_, acted, rfl⟩ := Crew.turn_eq_some stepped
  obtain rfl := Option.some.inj (found.symm.trans at_)
  simp only [act, Cancellation.step] at acted
  split at acted
  · rename_i missing
    cases Option.some.inj acted
    refine ⟨rfl, .inr ⟨fun zooRequestId live => ?_, by simp [bound]⟩⟩
    cases missing.symm.trans ((lookup_iff_live ran).mpr live)
  · rename_i zooRequestId entry
    cases Option.some.inj acted
    exact ⟨rfl, .inl ⟨zooRequestId, (lookup_iff_live ran).mp entry,
      by simp [bound]⟩⟩

theorem pending_ids_distinct {other : Nat} {first second : Pending}
    (reached : Reachable (step config) (initialService prompt) service)
    (different : index ≠ other)
    (firstAt : pendingAt service index = some first)
    (secondAt : pendingAt service other = some second) :
    first.id ≠ second.id := by
  obtain ⟨userOf, held⟩ := reachable_held reached
  have enrolled := reachable_enrolled reached
  obtain ⟨request, found, phase⟩ := pendingAt_eq_some.mp firstAt
  obtain ⟨rival, foundRival, phaseRival⟩ := pendingAt_eq_some.mp secondAt
  obtain ⟨one, drew⟩ := held.pending_drawn found phase
  obtain ⟨two, drewRival⟩ := held.pending_drawn foundRival phaseRival
  have named := (enrolled index _ found _ _ _ rfl phase drew).named
  have namedRival :=
    (enrolled other _ foundRival _ _ _ rfl phaseRival drewRival).named
  intro same
  have apart := held.apart index other _ _ different found foundRival
  obtain rfl : one = two :=
    publicId_injective (named.symm.trans (same.trans namedRival))
  exact apart one drew drewRival

end Runs

/-- What public ids are good for after a run: they tell the requests apart, the map
knows the live ones, and `cancel_request` cancels the one that is named. -/
structure Addresses (config : Configuration) (prompt : StdString)
    (schedule : List Label) (service : ChatService) : Prop where
  distinct : ∀ index other first second, index ≠ other →
    pendingAt service index = some first →
    pendingAt service other = some second → first.id ≠ second.id
  live : ∀ publicId zooRequestId,
    service.shared.publicRequestCancellers.lookup publicId =
      some zooRequestId ↔ Live service publicId zooRequestId
  released : ∀ index pending, pendingAt service index = some pending →
    pending.outer = .done → ¬ pending.Registered
  looks : ∀ (index : Nat) publicId readings next,
    service.actors[index]? = some (.cancellation (.looking publicId)) →
    step config service (.act index (.run readings)) = some next →
    next.shared.cancelled = service.shared.cancelled ∧
      ((∃ zooRequestId, Live service publicId zooRequestId ∧
          next.actors[index]? =
            some (.cancellation (.cancelling publicId zooRequestId))) ∨
        (∀ zooRequestId, ¬ Live service publicId zooRequestId) ∧
          next.actors[index]? = some (.cancellation
            (.returned publicId (.error (unknownRequestError publicId)))))
  calls : ∀ (index : Nat) call,
    service.actors[index]? = some (.cancellation call) →
    call.Called service
      (cancelsBy config index (initialService prompt) schedule)

theorem cancellation_addresses {config : Configuration} {prompt : StdString}
    {schedule : List Label} {service : ChatService}
    (ran : run (step config) (initialService prompt) schedule = some service) :
    Addresses config prompt schedule service where
  distinct := fun _ _ _ _ => pending_ids_distinct ⟨schedule, ran⟩
  live := fun _ _ => lookup_iff_live ran
  released := by
    intro index pending at_ done registered
    obtain ⟨userOf, held⟩ := reachable_held ⟨schedule, ran⟩
    obtain ⟨request, found, phase⟩ := pendingAt_eq_some.mp at_
    obtain ⟨trackingId, drew⟩ := held.pending_drawn found phase
    have once := (reachable_enrolled ⟨schedule, ran⟩ index _ found _ _ _ rfl
      phase drew).once
    have due := once.unregisters
    simp only [done, reduceCtorEq, if_false] at due
    rcases registered_iff.mp registered with fresh | more
    · cases done.symm.trans fresh
    · omega
  looks := fun _ _ _ _ found stepped => looks_up found ran stepped
  calls := fun _ => (run_called ran).2

/-! A request on a session is cancelled by its id; nobody has the id with the other
prefix. -/

def sampleCancelling : List Label :=
  sampleOpening ++ returning 1 7 ++
    [.cancelRequest (literal "chatcmpl-1"), .cancelRequest (literal "extract-1"),
      .act 2 (.run ⟨0, 0, []⟩), .act 3 (.run ⟨0, 0, []⟩), .act 2 (.run ⟨0, 0, []⟩)]

theorem cancellation_addresses_sample :
    cancelsBy sampleConfig 2 (initialService []) sampleCancelling = [7] ∧
      Addresses sampleConfig [] sampleCancelling (sampleRun sampleCancelling) := by
  have ran : run (step sampleConfig) (initialService []) sampleCancelling =
      some (sampleRun sampleCancelling) := sampleRun_ran (by decide +kernel)
  exact ⟨by decide +kernel, cancellation_addresses ran⟩

end ZooKeeperServer.Service
