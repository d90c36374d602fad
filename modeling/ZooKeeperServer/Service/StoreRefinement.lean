import ZooKeeperServer.Service.StoreCalls

namespace ZooKeeperServer.Service

open SessionStore Transition

/-! The service refines its store: whatever it does to the store is a run of the
store under callers that keep their promises. -/

def Actor.Requests (actor : Actor) (trackingId : RequestId)
    (sessionId : StdString) : Prop :=
  ∃ request handed, actor = .request request ∧
    request.trackingId = some trackingId ∧
    request.start.session = some (sessionId, handed)

def Actor.Ends (actor : Actor) (call : Call) : Prop :=
  ∃ trackingId sessionId, actor.Requests trackingId sessionId ∧
    call.ends = some trackingId ∧ call.session = some sessionId

/-- The actor's own call stands like this: it has still to be made, or a thread of
the store has made it. -/
def Stands (ledger : Ledger) (system : System) (index : Nat)
    (progress : Progress) : Prop :=
  ∃ call, ledger.asked[index]? = some (some call) ∧
    ((progress = .suspended (.enter call) ∧ ledger.thread (.own index) = none) ∨
      (∀ other, progress ≠ .suspended (.enter other)) ∧
        ledger.Runs system (.own index) call progress)

structure Copy.Underway (ledger : Ledger) (system : System) (seat : Seat)
    (copy : Copy) : Prop where
  tidy : copy.Tidy
  inside : ∀ current, copy.executes = some current →
    (∃ call, current = .enter call) ∨
      ∃ call, ledger.Runs system seat call (.suspended current)

/-- The service's share of the store is the state of the store system that has
executed the ledger's schedule. -/
structure Refines (config : Configuration) (prompt : StdString)
    (userOf : RequestId → ChatMessage) (service : ChatService) (ledger : Ledger)
    (system : System) : Prop where
  books : ledger.Books config.sessions prompt userOf system
  store : system.store = service.shared.store
  log : system.log = service.shared.log
  joined : ledger.asked.length = service.actors.length
  seated : ∀ index thread, ledger.thread (.own index) = some thread →
    index < service.actors.length
  stands : ∀ (index : Nat) actor, service.actors[index]? = some actor →
    ∀ progress ∈ actor.standing, Stands ledger system index progress
  copies : ∀ (index : Nat) actor (copy : Nat) held,
    service.actors[index]? = some actor → actor.copies[copy]? = some held →
      held.Underway ledger system (.copy index copy)
  ends : ∀ (index : Nat) call, ledger.asked[index]? = some (some call) →
    call.ends = none
  begins : ∀ (index : Nat) call trackingId,
    ledger.asked[index]? = some (some call) → call.begins = some trackingId →
      ∃ actor, service.actors[index]? = some actor ∧
        ∃ sessionId, actor.Requests trackingId sessionId
  made : ∀ (thread : Nat) call progress,
    system.threads[thread]? = some ⟨call, progress⟩ →
    (∃ index, ledger.thread (.own index) = some thread ∧
      ledger.asked[index]? = some (some call)) ∨
      ∃ (index : Nat) (actor : Actor), service.actors[index]? = some actor ∧
        actor.Ends call

section Following

variable {config : Configuration} {prompt : StdString}
  {userOf other : RequestId → ChatMessage} {service : ChatService}
  {ledger after : Ledger} {system next : System} {seat : Seat} {call : Call}
  {progress : Progress} {index : Nat} {actor updated : Actor} {input : Input}
  {core : Core}

theorem Ledger.Executed.stands
    (executed : ledger.Executed after system next seat call progress)
    (elsewhere : Seat.own index ≠ seat) {stood : Progress}
    (stands : Stands ledger system index stood) : Stands after next index stood := by
  obtain ⟨asked, found, here⟩ := stands
  refine ⟨asked, executed.asked ▸ found, here.imp ?_ ?_⟩
  · exact fun ⟨same, unmade⟩ =>
      ⟨same, (executed.thread _ elsewhere).trans unmade⟩
  · exact fun ⟨entered, runs⟩ =>
      ⟨entered, executed.others _ elsewhere _ _ runs⟩

theorem Ledger.Executed.underway
    (executed : ledger.Executed after system next seat call progress)
    {other : Seat} (elsewhere : other ≠ seat) {copy : Copy}
    (underway : copy.Underway ledger system other) :
    copy.Underway after next other where
  tidy := underway.tidy
  inside := fun current executes =>
    (underway.inside current executes).imp_right fun ⟨caller, runs⟩ =>
      ⟨caller, executed.others _ elsewhere _ _ runs⟩

theorem underway_of_unentered {copy : Copy}
    (unentered : ∀ operation ∈ copy.operations, operation.Unentered) :
    copy.Underway ledger system seat where
  tidy := fun operation member =>
    unentered operation (List.mem_of_mem_tail member)
  inside := by
    intro current executes
    unfold Copy.executes at executes
    split at executes
    · rename_i first rest same
      obtain rfl := Option.some.inj executes
      have first : Operation.Unentered (.store first) :=
        unentered _ (same ▸ List.mem_cons_self)
      exact .inl first
    · cases executes

theorem Copy.Underway.resumes {copy : Copy} {current : Section}
    {rest : List Operation} (underway : copy.Underway ledger system seat)
    (operations : copy.operations = .store current :: rest)
    (runs : after.Runs next seat call progress) :
    Copy.Underway after next seat
      { copy with operations := resumed progress ++ rest } := by
  have unentered : ∀ operation ∈ rest, operation.Unentered := by
    intro operation member
    exact underway.tidy operation (by simpa [operations] using member)
  cases progress with
  | returned output => exact underway_of_unentered unentered
  | suspended next =>
      refine ⟨unentered, fun current executes => .inr ⟨call, ?_⟩⟩
      obtain rfl := Option.some.inj executes
      exact runs

theorem Turn.requests {after : Core} (sound : actor.Sound userOf core)
    (turn : Turn config core actor input after updated)
    {trackingId : RequestId} {sessionId : StdString}
    (requests : actor.Requests trackingId sessionId) :
    updated.Requests trackingId sessionId := by
  obtain ⟨request, handed, rfl, drew, session⟩ := requests
  cases turn with
  | advance advanced =>
      cases advanced with
      | @number _ target _ at_ sessionless =>
          have held := sound.2
          rw [at_] at held
          cases target with
          | session name begin => exact absurd rfl (sessionless name begin)
          | stateless => exact absurd (session.symm.trans held.1) (by simp)
          | retained message => exact absurd (session.symm.trans held.1) (by simp)
      | _ => exact ⟨_, handed, rfl, drew, session⟩
  | consume at_ drawn consumed => exact ⟨_, handed, rfl, drew, session⟩

theorem Turn.ends {after : Core} (sound : actor.Sound userOf core)
    (turn : Turn config core actor input after updated)
    (ends : actor.Ends call) : updated.Ends call := by
  obtain ⟨trackingId, sessionId, requests, rest⟩ := ends
  exact ⟨trackingId, sessionId, turn.requests sound requests, rest⟩

theorem persists_set {Holds : Actor → Prop} {actors : List Actor} {other : Nat}
    (found : actors[index]? = some actor) (kept : Holds actor → Holds updated)
    (holds : ∃ held, actors[other]? = some held ∧ Holds held) :
    ∃ held, (actors.set index updated)[other]? = some held ∧ Holds held := by
  obtain ⟨held, at_, here⟩ := holds
  by_cases same : index = other
  · subst same
    obtain rfl := Option.some.inj (found.symm.trans at_)
    obtain ⟨bound, -⟩ := List.getElem?_eq_some_iff.mp at_
    exact ⟨updated, by simp [bound], kept here⟩
  · exact ⟨held, by simpa [same] using at_, here⟩

theorem Refines.idle {after : Core}
    (refines : Refines config prompt userOf service ledger system)
    (found : service.actors[index]? = some actor)
    (sound : actor.Sound userOf service.shared)
    (turn : Turn config service.shared actor input after updated)
    (store : after.store = service.shared.store)
    (log : after.log = service.shared.log)
    (standing : ∀ progress ∈ updated.standing, progress ∈ actor.standing)
    (copies : (∀ held ∈ actor.copies, held.Tidy) →
      ∀ (copy : Nat) held, updated.copies[copy]? = some held →
        actor.copies[copy]? = some held ∨
          ∀ operation ∈ held.operations, operation.Unentered) :
    Refines config prompt userOf ⟨after, service.actors.set index updated⟩ ledger
      system where
  books := refines.books
  store := refines.store.trans store.symm
  log := refines.log.trans log.symm
  joined := by simpa using refines.joined
  seated := fun other thread taken => by
    simpa using refines.seated other thread taken
  stands := by
    intro other held at_ progress known
    rcases Crew.getElem?_set_origin at_ with ⟨rfl, rfl⟩ | ⟨-, before⟩
    · exact refines.stands index actor found progress (standing progress known)
    · exact refines.stands other held before progress known
  copies := by
    intro other held copy kept at_ here
    rcases Crew.getElem?_set_origin at_ with ⟨rfl, rfl⟩ | ⟨-, before⟩
    · have tidy : ∀ held ∈ actor.copies, held.Tidy := by
        intro held member
        obtain ⟨copy, at_⟩ := List.mem_iff_getElem?.mp member
        exact (refines.copies index actor copy held found at_).tidy
      rcases copies tidy copy kept here with same | unentered
      · exact refines.copies index actor copy kept found same
      · exact underway_of_unentered unentered
    · exact refines.copies other held copy kept before here
  ends := refines.ends
  begins := fun other call trackingId asked begins =>
    persists_set found
      (fun requested => requested.imp fun _ => turn.requests sound)
      (refines.begins other call trackingId asked begins)
  made := fun thread call progress at_ =>
    (refines.made thread call progress at_).imp_right fun ⟨other, ends⟩ =>
      ⟨other, persists_set found (turn.ends sound) ends⟩

theorem Refines.made_after {after : Ledger}
    (refines : Refines config prompt userOf service ledger system)
    (executed : ledger.Executed after system next seat call progress)
    (kept : ∀ other thread, ledger.thread (.own other) = some thread →
      after.thread (.own other) = some thread)
    (own : (∃ index, seat = .own index ∧
        ledger.asked[index]? = some (some call)) ∨
      ∃ (index : Nat) (actor : Actor), service.actors[index]? = some actor ∧
        actor.Ends call)
    (thread : Nat) (caller : Call) (stood : Progress)
    (at_ : next.threads[thread]? = some ⟨caller, stood⟩) :
    (∃ index, after.thread (.own index) = some thread ∧
      after.asked[index]? = some (some caller)) ∨
      ∃ (index : Nat) (actor : Actor), service.actors[index]? = some actor ∧
        actor.Ends caller := by
  rw [executed.asked]
  rcases executed.threads thread caller stood at_ with ⟨seated, rfl⟩ |
    ⟨earlier, before⟩
  · exact own.imp_left fun ⟨index, same, asked⟩ => ⟨index, same ▸ seated, asked⟩
  · exact (refines.made thread caller earlier before).imp_left
      fun ⟨index, seated, asked⟩ => ⟨index, kept index thread seated, asked⟩

theorem Refines.own {middle after : Core} {current : Section}
    {readings : Readings}
    (refines : Refines config prompt userOf service ledger system)
    (found : service.actors[index]? = some actor)
    (sound : actor.Sound userOf service.shared)
    (turn : Turn config service.shared actor input after updated)
    (admissible : ∀ call, ledger.asked[index]? = some (some call) →
      ledger.thread (.own index) = none → current = .enter call →
      Admissible userOf system.threads call)
    (executed : service.shared.execute config readings current =
      some (middle, progress))
    (store : after.store = middle.store) (log : after.log = middle.log)
    (stood : actor.standing = some (.suspended current))
    (standing : ∀ known ∈ updated.standing, known = progress)
    (copies : updated.copies = []) :
    ∃ next, Refines config prompt userOf
      ⟨after, service.actors.set index updated⟩
      (ledger.execute (.own index) readings current) next := by
  obtain ⟨outcome, ran, rfl, rfl⟩ := execute_outcome executed
  obtain ⟨call, asked, due⟩ := refines.stands index actor found _ stood
  have ready : (current = .enter call ∧ Admissible userOf system.threads call) ∨
      (∀ other, current ≠ .enter other) ∧
        ledger.Runs system (.own index) call (.suspended current) := by
    rcases due with ⟨same, unmade⟩ | ⟨entered, runs⟩
    · obtain rfl := Progress.suspended.inj same
      exact .inl ⟨rfl, admissible call asked unmade rfl⟩
    · exact .inr ⟨fun other same => entered other (same ▸ rfl), runs⟩
  obtain ⟨next, books, stored, logged, did⟩ :=
    refines.books.execute (refines.store ▸ ran) ready
  have entered : ∀ other, outcome.progress ≠ .suspended (.enter other) :=
    fun other => exec_enters_nothing ran
  have kept (other thread : Nat) (seated : ledger.thread (.own other) =
      some thread) : (ledger.execute (.own index) readings current).thread
        (.own other) = some thread := by
    by_cases same : other = index
    · subst same
      rcases due with ⟨-, unmade⟩ | ⟨inside, -⟩
      · exact absurd (seated.symm.trans unmade) (by simp)
      · cases current with
        | enter other => exact absurd rfl (inside other)
        | _ =>
            simp only [Ledger.execute, seated]
            exact seated
    · exact (did.thread _ (by simpa using same)).trans seated
  refine ⟨next, ?_⟩
  constructor
  · exact books
  · exact stored.trans store.symm
  · rw [logged, refines.log]
    exact log.symm
  · rw [did.asked, List.length_set]
    exact refines.joined
  · intro other thread taken
    rw [List.length_set]
    by_cases same : other = index
    · exact same ▸ (List.getElem?_eq_some_iff.mp found).1
    · exact refines.seated other thread
        ((did.thread _ (by simpa using same)).symm.trans taken)
  · intro other held at_ known stands
    rcases Crew.getElem?_set_origin at_ with ⟨rfl, rfl⟩ | ⟨different, before⟩
    · obtain rfl := standing known stands
      exact ⟨call, did.asked ▸ asked, .inr ⟨entered, did.runs⟩⟩
    · exact did.stands (by simpa using Ne.symm different)
        (refines.stands other held before known stands)
  · intro other held copy kept at_ here
    rcases Crew.getElem?_set_origin at_ with ⟨rfl, rfl⟩ | ⟨-, before⟩
    · simp [copies] at here
    · exact did.underway (by simp)
        (refines.copies other held copy kept before here)
  · exact fun other call asked => refines.ends other call (did.asked ▸ asked)
  · intro other call trackingId asked begins
    exact persists_set found
      (fun requested => requested.imp fun _ => turn.requests sound)
      (refines.begins other call trackingId (did.asked ▸ asked) begins)
  · intro thread caller stood at_
    exact (refines.made_after did kept (.inl ⟨index, rfl, asked⟩) thread caller
      stood at_).imp_right fun ended =>
        ended.imp fun _ => persists_set found (turn.ends sound)

theorem Refines.copy {middle after : Core} {current : Section}
    {readings : Readings} {copy : Nat} {held : Copy} {rest : List Operation}
    (refines : Refines config prompt userOf service ledger system)
    (found : service.actors[index]? = some actor)
    (sound : actor.Sound userOf service.shared)
    (turn : Turn config service.shared actor input after updated)
    (admissible : ∀ call, current = .enter call →
      Admissible userOf system.threads call ∧ actor.Ends call)
    (executed : service.shared.execute config readings current =
      some (middle, progress))
    (store : after.store = middle.store) (log : after.log = middle.log)
    (standing : updated.standing = actor.standing)
    (at_ : actor.copies[copy]? = some held)
    (operations : held.operations = .store current :: rest)
    (copies : updated.copies = actor.copies.set copy
      { held with operations := resumed progress ++ rest }) :
    ∃ next, Refines config prompt userOf
      ⟨after, service.actors.set index updated⟩
      (ledger.execute (.copy index copy) readings current) next := by
  obtain ⟨outcome, ran, rfl, rfl⟩ := execute_outcome executed
  have underway := refines.copies index actor copy held found at_
  have executes : held.executes = some current := by
    simp only [Copy.executes, operations]
  obtain ⟨call, ready, ends⟩ : ∃ call,
      ((current = .enter call ∧ Admissible userOf system.threads call) ∨
        (∀ other, current ≠ .enter other) ∧
          ledger.Runs system (.copy index copy) call (.suspended current)) ∧
        ∃ (index : Nat) (actor : Actor), service.actors[index]? = some actor ∧
          actor.Ends call := by
    by_cases entering : ∃ call, current = .enter call
    · obtain ⟨call, rfl⟩ := entering
      obtain ⟨allowed, ends⟩ := admissible call rfl
      exact ⟨call, .inl ⟨rfl, allowed⟩, index, actor, found, ends⟩
    · rcases underway.inside current executes with entered |
        ⟨call, thread, seated, running⟩
      · exact absurd entered entering
      refine ⟨call, .inr ⟨fun other same => entering ⟨other, same⟩, thread,
        seated, running⟩, ?_⟩
      rcases refines.made thread call _ running with ⟨other, own, -⟩ | ends
      · cases refines.books.distinct _ _ thread seated own
      · exact ends
  obtain ⟨next, books, stored, logged, did⟩ :=
    refines.books.execute (refines.store ▸ ran) ready
  have kept (other thread : Nat) (seated : ledger.thread (.own other) =
      some thread) : (ledger.execute (.copy index copy) readings current).thread
        (.own other) = some thread :=
    (did.thread _ (by simp)).trans seated
  refine ⟨next, ?_⟩
  constructor
  · exact books
  · exact stored.trans store.symm
  · rw [logged, refines.log]
    exact log.symm
  · rw [did.asked, List.length_set]
    exact refines.joined
  · intro other thread taken
    rw [List.length_set]
    exact refines.seated other thread
      ((did.thread _ (by simp)).symm.trans taken)
  · intro other stander at_ known stands
    have before : ∃ stander, service.actors[other]? = some stander ∧
        known ∈ stander.standing := by
      rcases Crew.getElem?_set_origin at_ with ⟨rfl, rfl⟩ | ⟨-, before⟩
      · exact ⟨actor, found, standing ▸ stands⟩
      · exact ⟨stander, before, stands⟩
    obtain ⟨stander, before, stood⟩ := before
    exact did.stands (by simp) (refines.stands other stander before known stood)
  · intro other holder place mine at_ here
    rcases Crew.getElem?_set_origin at_ with ⟨rfl, rfl⟩ | ⟨different, before⟩
    · rw [copies] at here
      rcases Crew.getElem?_set_origin here with ⟨rfl, rfl⟩ | ⟨apart, before⟩
      · exact underway.resumes operations did.runs
      · exact did.underway (by simpa using Ne.symm apart)
          (refines.copies index actor place mine found before)
    · exact did.underway (by simpa using fun same => absurd same.symm different)
        (refines.copies other holder place mine before here)
  · exact fun other call asked => refines.ends other call (did.asked ▸ asked)
  · intro other call trackingId asked begins
    exact persists_set found
      (fun requested => requested.imp fun _ => turn.requests sound)
      (refines.begins other call trackingId (did.asked ▸ asked) begins)
  · intro thread caller stood at_
    exact (refines.made_after did kept (.inr ends) thread caller
      stood at_).imp_right fun ended =>
        ended.imp fun _ => persists_set found (turn.ends sound)

theorem honest_admissible {threads : List Thread} (honest : call.Honest userOf)
    (unused : ∀ requestId, call.begins = some requestId →
      ∀ thread ∈ threads, thread.call.begins ≠ some requestId) :
    Admissible userOf threads call := by
  cases call with
  | beginRequest request requestId => exact ⟨unused requestId rfl, honest⟩
  | commitResult sessionId requestId user result => exact honest
  | commitResponseText sessionId requestId user result => exact honest
  | _ => trivial

theorem Actor.Sound.honest (sound : actor.Sound userOf core)
    (stood : actor.standing = some (.suspended (.enter call))) :
    call.Honest userOf := by
  cases actor with
  | request request =>
      obtain ⟨start, phase, trackingId, submission, snapshot⟩ := request
      simp only [Actor.standing] at stood
      split at stood
      · cases phase with
        | beginning current =>
            obtain rfl := Progress.suspended.inj (Option.some.inj stood)
            obtain ⟨trackingId, sessionId, opening⟩ := sound.2
            exact opening.sound.1
        | prepared target messages => cases target <;> cases stood
        | submitted target zooRequestId => cases target <;> cases stood
        | wrapped target zooRequestId => cases target <;> cases stood
        | registering target zooRequestId created => cases target <;> cases stood
        | pending pending =>
            obtain ⟨id, created, model, zooRequestId, target, rest⟩ := pending
            cases target <;> cases stood
        | _ => cases stood
      · cases stood
  | deletion call =>
      cases call with
      | removing sessionId current =>
          obtain rfl := Progress.suspended.inj (Option.some.inj stood)
          exact sound.1.1
      | _ => cases stood
  | cancellation call => cases stood
  | history call => cases stood
  | prompt call =>
      cases call with
      | returned prompt => cases stood
      | _ =>
          cases Progress.suspended.inj (Option.some.inj stood)
          trivial
  | caller progress =>
      obtain rfl := Option.some.inj stood
      exact sound.1.1

theorem begins_of_ends {requestId : RequestId}
    (ends : call.ends = some requestId) : call.begins = none := by
  cases call with
  | beginRequest request named => cases ends
  | _ => rfl

theorem honest_congr (honest : call.Honest userOf)
    (known : ∀ requestId,
      call.begins = some requestId ∨ call.ends = some requestId →
        other requestId = userOf requestId) : call.Honest other := by
  cases call with
  | beginRequest request requestId =>
      exact fun message first =>
        (honest message first).trans (known requestId (.inl rfl)).symm
  | commitResult sessionId requestId user result =>
      exact Eq.trans honest (known requestId (.inr rfl)).symm
  | commitResponseText sessionId requestId user result =>
      exact Eq.trans honest (known requestId (.inr rfl)).symm
  | _ => trivial

/-- A request is begun by its own actor, which makes one call. -/
theorem Refines.unused
    (refines : Refines config prompt userOf service ledger system)
    (held : Held config userOf service)
    (asked : ledger.asked[index]? = some (some call))
    (unmade : ledger.thread (.own index) = none) {requestId : RequestId}
    (begins : call.begins = some requestId) {thread : Thread}
    (member : thread ∈ system.threads) :
    thread.call.begins ≠ some requestId := by
  intro again
  obtain ⟨position, at_⟩ := List.mem_iff_getElem?.mp member
  obtain ⟨other, progress⟩ := thread
  rcases refines.made position other progress at_ with ⟨place, seated, begun⟩ |
    ⟨_, _, _, _, _, _, ends, _⟩
  · obtain ⟨here, found, _, mine⟩ := refines.begins index call _ asked begins
    obtain ⟨there, elsewhere, _, yours⟩ :=
      refines.begins place other _ begun again
    have different : index ≠ place := by
      rintro rfl
      exact absurd (seated.symm.trans unmade) (by simp)
    obtain ⟨_, _, rfl, drew, _⟩ := mine
    obtain ⟨_, _, rfl, redrew, _⟩ := yours
    exact held.apart index place _ _ different found elsewhere _ drew redrew
  · exact absurd again (begins_of_ends ends ▸ by simp)

theorem Actor.Sound.ending (sound : actor.Sound userOf core) {copy : Nat}
    {held : Copy} {current : Section}
    (found : actor.copies[copy]? = some held)
    (stored : .store current ∈ held.operations) :
    ∃ trackingId sessionId, actor.Requests trackingId sessionId ∧
      Ending userOf core trackingId sessionId current := by
  cases actor with
  | request request =>
      obtain ⟨start, phase, drawn, submission, snapshot⟩ := request
      cases phase with
      | pending pending =>
          have whole := Request.Sound.pending sound rfl
          obtain ⟨trackingId, sessionId, begin, drew, target, ending⟩ :=
            whole.stores held (List.mem_of_getElem? found) current stored
          have began := whole.target
          rw [target] at began
          obtain ⟨_, ptr, -, ⟨handed, session⟩, -⟩ := began
          exact ⟨trackingId, sessionId, ⟨_, handed, rfl, drew, session⟩, ending⟩
      | _ => simp [Actor.copies] at found
  | _ => simp [Actor.copies] at found

theorem Refines.turn {after : Core}
    (refines : Refines config prompt userOf service ledger system)
    (held : Held config userOf service)
    (found : service.actors[index]? = some actor)
    (turn : Turn config service.shared actor input after updated) :
    ledger.Continues (keepLedger service (.act index input) ledger) ∧
      ∃ next, Refines config prompt userOf
        ⟨after, service.actors.set index updated⟩
        (keepLedger service (.act index input) ledger) next := by
  have sound : actor.Sound userOf service.shared := held.each index actor found
  cases turn.executes sound with
  | idle executes store log standing copies =>
      have same : keepLedger service (.act index input) ledger = ledger := by
        simp [keepLedger, found, executes]
      rw [same]
      exact ⟨.refl _, system,
        refines.idle found sound turn store log standing copies⟩
  | @own current readings middle progress seat executes executed store log stood
      standing copies =>
      have same : keepLedger service (.act index input) ledger =
          ledger.execute (.own index) readings current := by
        simp [keepLedger, found, executes, seat]
      rw [same]
      refine ⟨Ledger.execute_continues ?_, refines.own found sound turn
        (fun call asked unmade entering => ?_) executed store log stood standing
        copies⟩
      · rintro other call ⟨⟩ rfl
        obtain ⟨_, -, ⟨-, unmade⟩ | ⟨entered, -⟩⟩ :=
          refines.stands index actor found _ stood
        · exact unmade
        · exact absurd rfl (entered call)
      exact honest_admissible (sound.honest (entering ▸ stood))
        fun requestId begins thread =>
          refines.unused held asked unmade begins
  | @copy copy pending current rest readings middle progress seat executes executed
      store log standing at_ operations copies =>
      have same : keepLedger service (.act index input) ledger =
          ledger.execute (.copy index copy) readings current := by
        simp [keepLedger, found, executes, seat]
      rw [same]
      refine ⟨Ledger.execute_continues (by simp), refines.copy found sound turn
        (fun call entering => ?_) executed store log standing at_ operations
        copies⟩
      obtain ⟨trackingId, sessionId, requests, ending⟩ :=
        sound.ending at_
          (operations ▸ List.mem_cons_self : Operation.store current ∈ _)
      subst entering
      refine ⟨honest_admissible ending.sound.1 fun requestId begins => ?_,
        trackingId, sessionId, requests, ending.ends, ending.on⟩
      exact absurd (ending.begins.symm.trans begins) (by simp)

/-- The store does not look at the messages of ids that nobody has used. -/
theorem run_congr {settings : Settings} {start : System}
    {schedule : List SessionStore.Label}
    (agree : ∀ thread ∈ system.threads, ∀ requestId,
      thread.call.begins = some requestId ∨ thread.call.ends = some requestId →
        other requestId = userOf requestId)
    (ran : run (SessionStore.step settings userOf) start schedule =
      some system) :
    run (SessionStore.step settings other) start schedule = some system := by
  induction schedule using List.reverseRecOn generalizing system with
  | nil => exact ran
  | append_singleton earlier label ih =>
      obtain ⟨middle, before, stepped⟩ := run_concat.mp ran
      cases label with
      | call call =>
          obtain ⟨admissible, rfl⟩ := step_call stepped
          have known (requestId : RequestId)
              (names : call.begins = some requestId ∨
                call.ends = some requestId) :
              other requestId = userOf requestId :=
            agree ⟨call, .suspended (.enter call)⟩
              (List.mem_append_right _ (List.mem_singleton_self _)) requestId
              names
          refine run_concat.mpr ⟨middle, ih (fun thread member =>
            agree thread (List.mem_append_left _ member)) before, if_pos ?_⟩
          refine honest_admissible (honest_congr admissible.honest known)
            fun requestId begins thread member =>
              admissible.unused begins thread member
      | run index readings =>
          refine run_concat.mpr ⟨middle, ih (fun thread member => ?_) before,
            stepped⟩
          obtain ⟨call, current, outcome, found, -, rfl⟩ := step_run stepped
          obtain ⟨position, at_⟩ := List.mem_iff_getElem?.mp member
          by_cases same : index = position
          · subst same
            obtain rfl := Option.some.inj (found.symm.trans at_)
            obtain ⟨bound, -⟩ := List.getElem?_eq_some_iff.mp found
            exact agree ⟨call, outcome.progress⟩ (List.mem_set bound _)
          · exact agree thread (List.mem_of_getElem? (i := position)
              (by simpa [same] using at_))

theorem Refines.congr (refines : Refines config prompt userOf service ledger system)
    (held : Held config userOf service)
    (agree : ∀ trackingId, trackingId < service.shared.nextCompletionId →
      other trackingId = userOf trackingId) :
    Refines config prompt other service ledger system := by
  refine { refines with
    books := { refines.books with ran := run_congr ?_ refines.books.ran } }
  have drawn {index : Nat} {actor : Actor} {trackingId : RequestId}
      {sessionId : StdString} (found : service.actors[index]? = some actor)
      (requests : actor.Requests trackingId sessionId) :
      other trackingId = userOf trackingId := by
    obtain ⟨request, handed, rfl, drew, -⟩ := requests
    exact agree trackingId ((held.each index _ found).drawn drew)
  rintro ⟨call, progress⟩ member requestId names
  obtain ⟨thread, at_⟩ := List.mem_iff_getElem?.mp member
  rcases refines.made thread call progress at_ with ⟨index, -, asked⟩ |
    ⟨index, actor, found, trackingId, sessionId, requests, ends, -⟩
  · rcases names with begins | ends
    · obtain ⟨actor, found, sessionId, requests⟩ :=
        refines.begins index call requestId asked begins
      exact drawn found requests
    · exact absurd ((refines.ends index call asked).symm.trans ends) (by simp)
  · rcases names with begins | again
    · exact absurd ((begins_of_ends ends).symm.trans begins) (by simp)
    · obtain rfl := Option.some.inj (ends.symm.trans again)
      exact drawn found requests

theorem Refines.joins {shared : Core} {asks : Option Call}
    (refines : Refines config prompt userOf service ledger system)
    (store : shared.store = service.shared.store)
    (log : shared.log = service.shared.log) (copies : actor.copies = [])
    (standing : ∀ progress ∈ actor.standing, ∃ call, asks = some call ∧
      progress = .suspended (.enter call))
    (ends : ∀ call ∈ asks, call.ends = none)
    (begins : ∀ call ∈ asks, ∀ trackingId, call.begins = some trackingId →
      ∃ sessionId, actor.Requests trackingId sessionId) :
    Refines config prompt userOf (service.join shared actor)
      { ledger with asked := ledger.asked ++ [asks] } system := by
  have known {other : Nat} {call : Call}
      (asked : (ledger.asked ++ [asks])[other]? = some (some call)) :
      ledger.asked[other]? = some (some call) ∨
        other = service.actors.length ∧ asks = some call := by
    rcases Crew.getElem?_join_origin asked with before | ⟨last, same⟩
    · exact .inl before
    · exact .inr ⟨last.trans refines.joined, same⟩
  have stays {other : Nat} {call : Call}
      (asked : ledger.asked[other]? = some (some call)) :
      (ledger.asked ++ [asks])[other]? = some (some call) :=
    (List.getElem?_append_left (List.getElem?_eq_some_iff.mp asked).1).trans asked
  have same {other : Nat} {held : Actor}
      (found : service.actors[other]? = some held) :
      (service.join shared actor).actors[other]? = some held :=
    (List.getElem?_append_left (List.getElem?_eq_some_iff.mp found).1).trans found
  constructor
  · exact ⟨refines.books.ran, refines.books.calls, refines.books.issued,
      refines.books.distinct⟩
  · exact refines.store.trans store.symm
  · exact refines.log.trans log.symm
  · simp [Crew.join, refines.joined]
  · intro other thread seated
    have bound := refines.seated other thread seated
    simp only [Crew.join, List.length_append, List.length_singleton]
    omega
  · intro other held at_ progress stands
    rcases Crew.getElem?_join_origin at_ with before | ⟨rfl, rfl⟩
    · obtain ⟨call, asked, stood⟩ :=
        refines.stands other held before progress stands
      exact ⟨call, stays asked, stood⟩
    · obtain ⟨call, rfl, entering⟩ := standing progress stands
      refine ⟨call, by simp [refines.joined.symm], .inl ⟨entering, ?_⟩⟩
      cases seated : ledger.thread (.own service.actors.length) with
      | none => rfl
      | some thread =>
          exact absurd (refines.seated _ thread seated) (lt_irrefl _)
  · intro other holder copy held at_ here
    rcases Crew.getElem?_join_origin at_ with before | ⟨rfl, rfl⟩
    · obtain ⟨tidy, inside⟩ := refines.copies other holder copy held before here
      exact ⟨tidy, inside⟩
    · simp [copies] at here
  · intro other call asked
    rcases known asked with before | ⟨-, mine⟩
    · exact refines.ends other call before
    · exact ends call mine
  · intro other call trackingId asked begun
    rcases known asked with before | ⟨rfl, mine⟩
    · obtain ⟨held, found, requests⟩ :=
        refines.begins other call trackingId before begun
      exact ⟨held, same found, requests⟩
    · exact ⟨actor, by simp [Crew.join], begins call mine trackingId begun⟩
  · intro thread call progress at_
    rcases refines.made thread call progress at_ with ⟨other, seated, asked⟩ |
      ⟨other, held, found, ends⟩
    · exact .inl ⟨other, seated, stays asked⟩
    · exact .inr ⟨other, held, same found, ends⟩

theorem Refines.elsewhere {shared : Core}
    (refines : Refines config prompt userOf service ledger system)
    (store : shared.store = service.shared.store)
    (log : shared.log = service.shared.log) :
    Refines config prompt userOf { service with shared } ledger system :=
  { refines with
    store := refines.store.trans store.symm
    log := refines.log.trans log.symm }

theorem Refines.starts
    (refines : Refines config prompt userOf service ledger system)
    (held : Held config userOf service) (start : StartRequest) :
    ∃ other, Held config other
        (service.join (service.shared.draw start)
          (.request (startCall config service.shared.nextCompletionId start))) ∧
      Refines config prompt other
        (service.join (service.shared.draw start)
          (.request (startCall config service.shared.nextCompletionId start)))
        (keepLedger service (.start true start) ledger) system := by
  obtain ⟨other, agree, arrived⟩ := held.arrives start
  refine ⟨other, arrived, ?_⟩
  have drawn : (service.shared.draw start).store = service.shared.store ∧
      (service.shared.draw start).log = service.shared.log := by
    unfold Core.draw
    split
    · exact ⟨rfl, rfl⟩
    · exact ⟨rfl, rfl⟩
  refine (refines.congr held agree).joins drawn.1 drawn.2 ?_ ?_ ?_ ?_
  · obtain ⟨phase, drew, call, new⟩ :=
      startCall_cases config service.shared.nextCompletionId start
    rw [call]
    rcases new with ⟨current, rfl⟩ | rfl | ⟨error, rfl⟩ <;> rfl
  · cases session : start.session with
    | none =>
        have none : (startCall config service.shared.nextCompletionId
            start).start.session = none := by
          obtain ⟨phase, drew, call, -⟩ :=
            startCall_cases config service.shared.nextCompletionId start
          rw [call]
          exact session
        simp [Actor.standing, none]
    | some handed =>
        simp [Actor.standing, startCall, session, Phase.standing]
  · cases session : start.session with
    | none => simp
    | some handed => simp [Call.ends]
  · cases session : start.session with
    | none => simp
    | some handed =>
        rintro call ⟨⟩ trackingId ⟨⟩
        obtain ⟨sessionId, request⟩ := handed
        refine ⟨sessionId, _, request, rfl, ?_⟩
        simp [startCall, session]

/-- One step of the service, and what the ledger says of it. -/
theorem Refines.step {label : Label} {changed : ChatService}
    (refines : Refines config prompt userOf service ledger system)
    (held : Held config userOf service)
    (stepped : step config service label = some changed) :
    ledger.Continues (keepLedger service label ledger) ∧
      ∃ other next, Held config other changed ∧
        Refines config prompt other changed (keepLedger service label ledger)
          next := by
  have appended (asks : List (Option Call)) :
      ledger.Continues { ledger with asked := ledger.asked ++ asks } :=
    ⟨List.prefix_rfl, List.prefix_append _ _, le_rfl, fun _ _ => id,
      fun _ _ => .inl⟩
  cases label with
  | act index input =>
      cases step_stepped stepped with
      | turn found turn =>
          obtain ⟨continues, next, refined⟩ := refines.turn held found turn
          exact ⟨continues, userOf, next, held.turn found turn, refined⟩
      | turnsAway elsewhere => exact absurd rfl (elsewhere index input)
      | arrives arriving elsewhere => exact absurd rfl (elsewhere index input)
  | start ready start =>
      cases ready with
      | true =>
          cases Option.some.inj stepped
          obtain ⟨other, arrived, refined⟩ := refines.starts held start
          exact ⟨appended _, other, system, arrived, refined⟩
      | false =>
          cases Option.some.inj stepped
          refine ⟨appended [], userOf, system, held.turnAway _, ?_⟩
          have same : keepLedger service (.start false start) ledger = ledger := by
            simp [keepLedger, Label.asks]
          rw [same]
          exact refines.elsewhere rfl rfl
  | agentHistory ready request =>
      cases ready with
      | true =>
          cases Option.some.inj stepped
          exact ⟨appended _, userOf, system, held.arrives_other .history,
            refines.joins rfl rfl rfl (by simp [Actor.standing]) (by simp)
              (by simp)⟩
      | false =>
          cases Option.some.inj stepped
          refine ⟨appended [], userOf, system, held.turnAway _, ?_⟩
          have same : keepLedger service (.agentHistory false request) ledger =
              ledger := by
            simp [keepLedger, Label.asks]
          rw [same]
          exact refines.elsewhere rfl rfl
  | deleteSession sessionId =>
      cases Option.some.inj stepped
      exact ⟨appended _, userOf, system, held.arrives_other .deletion,
        refines.joins rfl rfl rfl
          (fun progress stands => ⟨_, rfl, (Option.some.inj stands).symm⟩)
          (by simp [Call.ends]) (by simp [Call.begins])⟩
  | cancelRequest requestId =>
      cases Option.some.inj stepped
      exact ⟨appended _, userOf, system, held.arrives_other .cancellation,
        refines.joins rfl rfl rfl (by simp [Actor.standing]) (by simp)
          (by simp)⟩
  | setSystemPrompt prompt =>
      cases Option.some.inj stepped
      exact ⟨appended _, userOf, system, held.arrives_other .prompt,
        refines.joins rfl rfl rfl
          (fun progress stands => ⟨_, rfl, (Option.some.inj stands).symm⟩)
          (by simp [Call.ends]) (by simp [Call.begins])⟩
  | call call =>
      simp only [Service.step] at stepped
      split at stepped
      · rename_i allowed
        cases Option.some.inj stepped
        obtain ⟨-, begins, ends⟩ :=
          @housekeeping_neutral userOf _ allowed
        exact ⟨appended _, userOf, system,
          held.arrives_other (.caller allowed),
          refines.joins rfl rfl rfl
            (fun progress stands => ⟨call, rfl, (Option.some.inj stands).symm⟩)
            (by simpa using ends) (by simp [begins])⟩
      · contradiction

theorem initialService_refines (config : Configuration) (prompt : StdString)
    (userOf : RequestId → ChatMessage) :
    Refines config prompt userOf (initialService prompt) {}
      (initialSystem prompt) where
  books := ⟨rfl, rfl, by simp, by simp⟩
  store := rfl
  log := rfl
  joined := rfl
  seated := by simp
  stands := by simp [initialService]
  copies := by simp [initialService]
  ends := by simp
  begins := by simp
  made := by simp [initialSystem]

end Following

section Runs

variable {config : Configuration} {prompt : StdString} {schedule : List Label}
  {service middle : ChatService} {ledger before : Ledger}

theorem run_refines
    (ran : run (noting (step config) keepLedger) (initialService prompt, {})
      schedule = some (service, ledger)) :
    ∃ userOf system, Held config userOf service ∧
      Refines config prompt userOf service ledger system := by
  let Holds (noted : ChatService × Ledger) : Prop :=
    ∃ userOf system, Held config userOf noted.1 ∧
      Refines config prompt userOf noted.1 noted.2 system
  have preserved {noted next : ChatService × Ledger} {label : Label}
      (holds : Holds noted)
      (stepped : noting (step config) keepLedger noted label = some next) :
      Holds next := by
    obtain ⟨service, ledger⟩ := noted
    obtain ⟨changed, kept⟩ := next
    obtain ⟨advanced, rfl⟩ := noting_eq_some.mp stepped
    obtain ⟨userOf, system, held, refines⟩ := holds
    exact (refines.step held advanced).2
  have initially : Holds (initialService prompt, {}) :=
    ⟨fun _ => .user [], initialSystem prompt, initialService_held prompt,
      initialService_refines config prompt _⟩
  exact run_invariant preserved initially ran

theorem run_continues {userOf : RequestId → ChatMessage} {system : System}
    (held : Held config userOf middle)
    (refines : Refines config prompt userOf middle before system)
    (ran : run (noting (step config) keepLedger) (middle, before) schedule =
      some (service, ledger)) : before.Continues ledger := by
  let Holds (noted : ChatService × Ledger) : Prop :=
    before.Continues noted.2 ∧ ∃ userOf system, Held config userOf noted.1 ∧
      Refines config prompt userOf noted.1 noted.2 system
  have preserved {noted next : ChatService × Ledger} {label : Label}
      (holds : Holds noted)
      (stepped : noting (step config) keepLedger noted label = some next) :
      Holds next := by
    obtain ⟨service, ledger⟩ := noted
    obtain ⟨changed, kept⟩ := next
    obtain ⟨advanced, rfl⟩ := noting_eq_some.mp stepped
    obtain ⟨continues, userOf, system, held, refines⟩ := holds
    obtain ⟨further, refined⟩ := refines.step held advanced
    exact ⟨continues.trans further, refined⟩
  have initially : Holds (middle, before) :=
    ⟨.refl _, userOf, system, held, refines⟩
  exact (run_invariant preserved initially ran).1

theorem ledgerOf_eq
    (ran : run (step config) (initialService prompt) schedule = some service) :
    run (noting (step config) keepLedger) (initialService prompt, {}) schedule =
      some (service, ledgerOf config prompt schedule) := by
  have kept : (run (noting (step config) keepLedger) (initialService prompt, {})
      schedule).map Prod.fst = some service := (run_noting _ _ _).trans ran
  obtain ⟨⟨_, ledger⟩, noted, rfl⟩ := Option.map_eq_some_iff.mp kept
  rw [ledgerOf, noted]

/-- Every run of the service with fewer than 2^64 requests and sessions is a run of its
store under callers that keep their promises, and what an actor has learned of its call
is what the thread that made the call has been told. -/
theorem store_refined
    (ran : run (step config) (initialService prompt) schedule = some service) :
    ∃ userOf system, Refines config prompt userOf service
      (ledgerOf config prompt schedule) system := by
  obtain ⟨userOf, system, -, refines⟩ := run_refines (ledgerOf_eq ran)
  exact ⟨userOf, system, refines⟩

end Runs

/-! A request that is begun and finalized. -/

def sampleFinished : List Label :=
  sampleOpening ++ returning 1 7 ++ finalizing 1 3

theorem store_refined_sample :
    ∃ userOf system,
      Refines sampleConfig [] userOf (sampleRun sampleFinished)
          (ledgerOf sampleConfig [] sampleFinished) system ∧
        (ledgerOf sampleConfig [] sampleFinished).calls = 3 := by
  have ran : run (step sampleConfig) (initialService []) sampleFinished =
      some (sampleRun sampleFinished) := sampleRun_ran (by decide +kernel)
  obtain ⟨userOf, system, refines⟩ := store_refined ran
  exact ⟨userOf, system, refines, by decide +kernel⟩

end ZooKeeperServer.Service
