import Mathlib.Logic.Function.Basic
import ZooKeeperServer.Service.Reachability

namespace ZooKeeperServer.Service

open SessionStore Transition

/-! The calls that the service makes of its store, and which turns of its actors
execute their sections.  A ledger keeps the books: what the store goes through, and
on whose behalf. -/

/-- On whose behalf the store is called: an actor makes one call of its own, and a
copy of its pending object commits and releases. -/
inductive Seat
  | own (actor : Nat)
  | copy (actor copy : Nat)
  deriving DecidableEq

/-- What the store has been through, and whose doing it was. -/
structure Ledger where
  schedule : List SessionStore.Label := []
  calls : Nat := 0
  /-- The call that each actor is there to make of the store. -/
  asked : List (Option Call) := []
  thread : Seat → Option Nat := fun _ => none

/-- The store call for which an actor joins, if one joins. -/
def Label.asks (core : Core) : Label → Option (Option Call)
  | .start true request =>
      some (request.session.map fun session =>
        .beginRequest session.2 core.nextCompletionId)
  | .deleteSession sessionId => some (some (.deleteSession sessionId))
  | .cancelRequest _ => some none
  | .agentHistory true _ => some none
  | .setSystemPrompt prompt => some (some (.setBaseSystemPrompt prompt))
  | .call passed => some (some passed)
  | _ => none

def Copy.executes (copy : Copy) : Option Section :=
  match copy.operations with
  | .store current :: _ => some current
  | _ => none

def Actor.copies : Actor → List Copy
  | .request ⟨_, .pending object, _, _, _⟩ => object.copies
  | _ => []

def Actor.executes : Actor → Input → Option (Section × Readings)
  | .request ⟨_, .beginning current, _, _, _⟩,
      .advance (.beginRequest readings) => some (current, readings)
  | .request ⟨_, .pending object, _, _, _⟩,
      .consume copy (.proceed readings) =>
      (object.copies[copy]?.bind Copy.executes).map fun current =>
        (current, readings)
  | .deletion (.removing _ current), .run readings => some (current, readings)
  | .prompt (.givingStore text _), .run readings =>
      some (.enter (.setBaseSystemPrompt text), readings)
  | .caller (.suspended current), .run readings => some (current, readings)
  | _, _ => none

def Input.seat (actor : Nat) : Input → Seat
  | .consume copy _ => .copy actor copy
  | _ => .own actor

namespace Ledger

def enter (ledger : Ledger) (seat : Seat) (call : Call) (readings : Readings) :
    Ledger :=
  { ledger with
    schedule := ledger.schedule ++ [.call call, .run ledger.calls readings]
    calls := ledger.calls + 1
    thread := Function.update ledger.thread seat (some ledger.calls) }

def proceed (ledger : Ledger) (thread : Nat) (readings : Readings) : Ledger :=
  { ledger with schedule := ledger.schedule ++ [.run thread readings] }

def execute (ledger : Ledger) (seat : Seat) (readings : Readings) :
    Section → Ledger
  | .enter call => ledger.enter seat call readings
  | _ =>
      match ledger.thread seat with
      | some thread => ledger.proceed thread readings
      | none => ledger

end Ledger

/-- The note that is taken of a step of the service. -/
def keepLedger (service : ChatService) (label : Label) (ledger : Ledger) : Ledger :=
  match label with
  | .act index input =>
      match service.actors[index]?.bind fun actor => actor.executes input with
      | some (current, readings) =>
          ledger.execute (input.seat index) readings current
      | none => ledger
  | label =>
      { ledger with
        asked := ledger.asked ++ (label.asks service.shared).toList }

def ledgerOf (config : Configuration) (prompt : StdString)
    (schedule : List Label) : Ledger :=
  match run (noting (step config) keepLedger) (initialService prompt, {})
      schedule with
  | some (_, ledger) => ledger
  | none => {}

def Target.standing : Target → Option Progress
  | .session _ begin => some (.returned (.begun (.ok begin)))
  | _ => none

def Phase.standing : Phase → Option Progress
  | .beginning current => some (.suspended current)
  | .preparing => none
  | .refused error => some (.returned (.begun (.error error)))
  | .prepared target _ => target.standing
  | .submitted target _ => target.standing
  | .wrapped target _ => target.standing
  | .registering target _ _ => target.standing
  | .raised => none
  | .pending object => object.target.standing

def Deletion.standing : Deletion → Progress
  | .removing _ current => .suspended current
  | .erasing _ => .returned (.deleted (.ok ()))
  | .cancelling _ _ => .returned (.deleted (.ok ()))
  | .returned _ result => .returned (.deleted result)

def PromptCall.standing : PromptCall → Progress
  | .updating prompt => .suspended (.enter (.setBaseSystemPrompt prompt))
  | .givingAgent prompt _ => .suspended (.enter (.setBaseSystemPrompt prompt))
  | .givingStore prompt _ => .suspended (.enter (.setBaseSystemPrompt prompt))
  | .returned _ => .returned .done

/-- How the actor's own call of the store stands, as far as the actor still
knows. -/
def Actor.standing : Actor → Option Progress
  | .request call =>
      if call.start.session.isSome then call.phase.standing else none
  | .deletion call => some call.standing
  | .cancellation _ => none
  | .history _ => none
  | .prompt call => some call.standing
  | .caller progress => some progress

def Operation.Unentered : Operation → Prop
  | .store current => ∃ call, current = .enter call
  | _ => True

/-- At most the first operation is inside the store. -/
def Copy.Tidy (copy : Copy) : Prop :=
  ∀ operation ∈ copy.operations.tail, operation.Unentered

/-- What a section of the store leaves of an operation. -/
def resumed : Progress → List Operation
  | .suspended next => [.store next]
  | .returned _ => []

section Turns

variable (config : Configuration) (core after : Core)
  (actor updated : Actor) (input : Input)

/-- A turn is outside the store, or a section of the actor's own call, or a section
of a call of one of its copies. -/
inductive Executes : Prop
  | idle (executes : actor.executes input = none)
      (store : after.store = core.store) (log : after.log = core.log)
      (standing : ∀ progress ∈ updated.standing, progress ∈ actor.standing)
      (copies : (∀ held ∈ actor.copies, held.Tidy) →
        ∀ (copy : Nat) held, updated.copies[copy]? = some held →
          actor.copies[copy]? = some held ∨
            ∀ operation ∈ held.operations, operation.Unentered)
  | own {current : Section} {readings : Readings} {middle : Core}
      {progress : Progress} (seat : ∀ index, input.seat index = .own index)
      (executes : actor.executes input = some (current, readings))
      (executed : core.execute config readings current = some (middle, progress))
      (store : after.store = middle.store) (log : after.log = middle.log)
      (stood : actor.standing = some (.suspended current))
      (standing : ∀ known ∈ updated.standing, known = progress)
      (copies : updated.copies = [])
  | copy {copy : Nat} {held : Copy} {current : Section} {rest : List Operation}
      {readings : Readings} {middle : Core} {progress : Progress}
      (seat : ∀ index, input.seat index = .copy index copy)
      (executes : actor.executes input = some (current, readings))
      (executed : core.execute config readings current = some (middle, progress))
      (store : after.store = middle.store) (log : after.log = middle.log)
      (standing : updated.standing = actor.standing)
      (found : actor.copies[copy]? = some held)
      (operations : held.operations = .store current :: rest)
      (copies : updated.copies = actor.copies.set copy
        { held with operations := resumed progress ++ rest })

end Turns

section Inversion

variable {config : Configuration} {userOf : RequestId → ChatMessage}
  {readings : Readings} {core after : Core} {actor updated : Actor}
  {input : Input}

theorem Request.standing_mono {request : Request} {phase : Phase}
    {trackingId : Option RequestId} {submission : Option Submission}
    {snapshot : Nat}
    (stands : ∀ progress ∈ phase.standing, progress ∈ request.phase.standing) :
    ∀ progress ∈ (Actor.request
        ⟨request.start, phase, trackingId, submission, snapshot⟩).standing,
      progress ∈ (Actor.request request).standing := by
  intro progress known
  simp only [Actor.standing] at known ⊢
  split at known
  · rename_i begun
    rw [if_pos begun]
    exact stands progress known
  · cases known

theorem Advanced.executes {request changed : Request} {advance : Advance}
    (sound : request.Sound userOf core)
    (advanced : Advanced config core request advance after changed) :
    Executes config core after (.request request) (.request changed)
      (.advance advance) := by
  obtain ⟨start, phase, trackingId, submission, snapshot⟩ := request
  cases advanced with
  | @beginRequest readings current sessionId handed _ progress phase at_ session
      executed proceeds =>
      obtain rfl : _ = Phase.beginning current := at_
      have begun : start.session.isSome = true := by
        simp only [session, Option.isSome_some]
      refine .own (fun _ => rfl) rfl executed rfl rfl ?_ ?_ ?_
      · simp only [Actor.standing, begun, if_true, Phase.standing]
      · intro known stands
        simp only [Actor.standing, begun, if_true] at stands
        rcases beginPhase_cases proceeds with ⟨next, rfl, rfl⟩ |
          ⟨error, rfl, rfl⟩ | ⟨result, rfl, rfl⟩
        · exact (Option.some.inj stands).symm
        · exact (Option.some.inj stands).symm
        · exact (Option.some.inj stands).symm
      · rcases beginPhase_cases proceeds with ⟨next, -, rfl⟩ |
          ⟨error, -, rfl⟩ | ⟨result, -, rfl⟩ <;> rfl
  | prepare at_ =>
      obtain rfl : phase = .preparing := at_
      have sessionless : start.session = none := sound.2.1
      refine .idle rfl rfl rfl ?_ ?_
      · simp [Actor.standing, sessionless]
      · intro _ copy held found
        rcases prepare_cases config core start with ⟨error, refused⟩ |
          ⟨target, messages, prepared, -⟩
        · simp [refused, Actor.copies] at found
        · simp [prepared, Actor.copies] at found
  | complete at_ =>
      obtain rfl : phase = .prepared _ _ := at_
      exact .idle rfl rfl rfl
        (Request.standing_mono fun _ => id) (by simp [Actor.copies])
  | spawn at_ =>
      obtain rfl : phase = .submitted _ _ := at_
      exact .idle rfl rfl rfl
        (Request.standing_mono fun _ => id) (by simp [Actor.copies])
  | raise at_ =>
      refine .idle ?_ rfl rfl (Request.standing_mono ?_) (by simp [Actor.copies])
      · cases phase <;> rfl
      · simp [Phase.standing]
  | track at_ =>
      obtain rfl : phase = .wrapped _ _ := at_
      exact .idle rfl rfl rfl
        (Request.standing_mono fun _ => id) (by simp [Actor.copies])
  | number at_ =>
      obtain rfl : phase = .wrapped _ _ := at_
      exact .idle rfl rfl rfl
        (Request.standing_mono fun _ => id) (by simp [Actor.copies])
  | register at_ drew =>
      obtain rfl : phase = .registering _ _ _ := at_
      refine .idle rfl rfl rfl (Request.standing_mono fun _ => id) ?_
      intro _ copy held found
      refine .inr fun operation member => ?_
      obtain rfl : held = {} :=
        List.mem_singleton.mp (List.mem_of_getElem? found)
      cases member

theorem onResult_unentered (trackingId : RequestId) (result : Result)
    (target : Target) :
    ∀ operation ∈ target.onResult trackingId result ++ [.releaseOuter],
      operation.Unentered := by
  intro operation member
  cases target with
  | stateless =>
      obtain rfl := List.mem_singleton.mp member
      trivial
  | session sessionId begin =>
      simp only [Target.onResult, List.cons_append, List.nil_append,
        List.mem_cons, List.not_mem_nil, or_false] at member
      rcases member with rfl | rfl | rfl
      · trivial
      · exact ⟨_, rfl⟩
      · trivial
  | retained message =>
      rcases List.mem_append.mp member with called | released
      · rcases result with (_ | _) | _
        · cases called
        · obtain rfl := List.mem_singleton.mp called
          trivial
        · cases called
      · obtain rfl := List.mem_singleton.mp released
        trivial

theorem innerRelease_unentered (target : Target) :
    ∀ operation ∈ target.innerRelease, operation.Unentered := by
  intro operation member
  cases target with
  | session sessionId begin =>
      obtain rfl := List.mem_singleton.mp member
      trivial
  | stateless => cases member
  | retained message => cases member

theorem Operated.unentered {trackingId : RequestId} {pending changed : Pending}
    {operation : Operation} {called : List Operation}
    (operated : Operated config readings core trackingId pending operation after
      changed called) :
    (∃ current progress, operation = .store current ∧
        core.execute config readings current = some (after, progress) ∧
        called = resumed progress) ∨
      after.store = core.store ∧ after.log = core.log ∧
        (∀ current, operation ≠ .store current) ∧
        ∀ next ∈ called, next.Unentered := by
  cases operated with
  | storeProceeds executed => exact .inl ⟨_, _, rfl, executed, rfl⟩
  | storeReturns executed => exact .inl ⟨_, _, rfl, executed, rfl⟩
  | releaseOuter fresh =>
      refine .inr ⟨rfl, rfl, by simp, fun next member => ?_⟩
      rcases List.mem_cons.mp member with rfl | member
      · trivial
      rcases List.mem_append.mp member with inner | last
      · exact innerRelease_unentered _ next inner
      · obtain rfl := List.mem_singleton.mp last
        trivial
  | releaseInner target fresh =>
      refine .inr ⟨rfl, rfl, by simp, fun next member => ?_⟩
      simp only [List.mem_cons, List.not_mem_nil, or_false] at member
      rcases member with rfl | rfl | rfl
      · trivial
      · exact ⟨_, rfl⟩
      · trivial
  | _ => exact .inr ⟨rfl, rfl, by simp, by simp⟩

theorem copies_set {copies : List Copy} {index copy : Nat} {changed held : Copy}
    (unentered : ∀ operation ∈ changed.operations, operation.Unentered)
    (found : (copies.set index changed)[copy]? = some held) :
    copies[copy]? = some held ∨
      ∀ operation ∈ held.operations, operation.Unentered := by
  rcases Crew.getElem?_set_origin found with ⟨-, rfl⟩ | ⟨-, before⟩
  · exact .inr unentered
  · exact .inl before

theorem Consumed.executes {request : Request} {trackingId : RequestId}
    {pending changed : Pending} {copy : Nat} {action : Action}
    (at_ : request.phase = .pending pending)
    (consumed : Consumed config core trackingId request.start pending copy action
      after changed) :
    Executes config core after (.request request)
      (.request { request with phase := .pending changed })
      (.consume copy action) := by
  obtain ⟨start, phase, drawn, submission, snapshot⟩ := request
  obtain rfl : phase = .pending pending := at_
  cases consumed with
  | copy at_ =>
      refine .idle rfl rfl rfl (fun _ => id) fun _ other held found => ?_
      rcases Crew.getElem?_join_origin found with before | ⟨-, rfl⟩
      · exact .inl before
      · exact .inr fun operation member => by cases member
  | finalize at_ answers =>
      exact .idle rfl rfl rfl (fun _ => id) fun _ other held found =>
        copies_set (onResult_unentered _ _ _) found
  | release at_ =>
      refine .idle rfl rfl rfl (fun _ => id) fun _ other held found =>
        copies_set (fun operation member => ?_) found
      obtain rfl := List.mem_singleton.mp member
      trivial
  | destroyLast at_ last =>
      refine .idle rfl rfl rfl (fun _ => id) fun _ other held found =>
        copies_set (fun operation member => ?_) found
      rcases List.mem_cons.mp member with rfl | inner
      · trivial
      · exact innerRelease_unentered _ operation inner
  | destroy at_ others =>
      exact .idle rfl rfl rfl (fun _ => id) fun _ other held found =>
        copies_set (by simp) found
  | @proceed _ alive operation rest called _ changed at_ operated =>
      obtain ⟨target, copies, -, -, -⟩ := operated.keeps
      have same : ∀ operations,
          (Actor.request ⟨start,
            .pending (changed.setCopy copy ⟨alive, operations⟩), drawn,
            submission, snapshot⟩).standing =
          (Actor.request ⟨start, .pending pending, drawn, submission,
            snapshot⟩).standing := by
        intro operations
        simp only [Actor.standing, Phase.standing, Pending.setCopy, target]
      rcases operated.unentered with ⟨current, progress, rfl, executed, rfl⟩ |
        ⟨store, log, elsewhere, unentered⟩
      · refine .copy (fun _ => rfl) ?_
          executed rfl rfl (same _) at_ rfl ?_
        · simp only [Actor.executes, at_, Option.bind_some, Copy.executes,
            Option.map_some]
        · simp only [Actor.copies, Pending.setCopy, copies]
      · refine .idle ?_ store log ?_ fun tidy other held found => ?_
        · simp only [Actor.executes, at_, Option.bind_some, Copy.executes]
          cases operation with
          | store current => exact absurd rfl (elsewhere current)
          | _ => rfl
        · exact fun progress known => same _ ▸ known
        · simp only [Actor.copies, Pending.setCopy, copies] at found
          refine copies_set (fun operation member => ?_) found
          rcases List.mem_append.mp member with new | old
          · exact unentered operation new
          · exact tidy _ (List.mem_of_getElem? at_) operation old

theorem Deleting.executes {call changed : Deletion}
    (deleting : Deleting config readings core call after changed) :
    Executes config core after (.deletion call) (.deletion changed)
      (.run readings) := by
  have known {progress : Progress} (same : progress = changed.standing) :
      ∀ stood ∈ (Actor.deletion changed).standing, stood = progress :=
    fun stood member => (Option.some.inj member).symm.trans same.symm
  cases deleting with
  | proceeds executed =>
      exact .own (fun _ => rfl) rfl executed rfl rfl rfl (known rfl) rfl
  | fails executed =>
      exact .own (fun _ => rfl) rfl executed rfl rfl rfl (known rfl) rfl
  | removed executed =>
      exact .own (fun _ => rfl) rfl executed rfl rfl rfl (known rfl) rfl
  | untracked absent =>
      exact .idle rfl rfl rfl (fun _ => id) (by simp [Actor.copies])
  | erase found =>
      refine .idle rfl rfl rfl ?_ (by simp [Actor.copies])
      split
      · exact fun _ => id
      · exact fun _ => id
  | cancel => exact .idle rfl rfl rfl (fun _ => id) (by simp [Actor.copies])

theorem setBaseSystemPrompt_returns {prompt : StdString} {progress : Progress}
    (executed : core.execute config readings
      (.enter (.setBaseSystemPrompt prompt)) = some (after, progress)) :
    progress = .returned .done := by
  obtain ⟨outcome, ran, -, rfl⟩ := execute_outcome executed
  simp only [Section.exec, enterCall] at ran
  split at ran
  · cases ran
  · cases Option.some.inj ran
    rfl

theorem prompt_executes {call changed : PromptCall}
    (stepped : call.step config readings core = some (after, changed)) :
    Executes config core after (.prompt call) (.prompt changed)
      (.run readings) := by
  cases call with
  | updating prompt =>
      cases Option.some.inj stepped
      exact .idle rfl rfl rfl (fun _ => id) (by simp [Actor.copies])
  | givingAgent prompt update =>
      cases Option.some.inj stepped
      exact .idle rfl rfl rfl (fun _ => id) (by simp [Actor.copies])
  | givingStore prompt update =>
      obtain ⟨⟨middle, progress⟩, executed, same⟩ :=
        Option.map_eq_some_iff.mp stepped
      cases same
      refine .own (fun _ => rfl) rfl executed rfl rfl rfl ?_ rfl
      intro known member
      rw [setBaseSystemPrompt_returns executed]
      exact (Option.some.inj member).symm
  | returned prompt => cases stepped

/-- Every turn is one of the three. -/
theorem Turn.executes (sound : actor.Sound userOf core)
    (turn : Turn config core actor input after updated) :
    Executes config core after actor updated input := by
  cases turn with
  | advance advanced => exact advanced.executes sound
  | consume at_ drew consumed => exact consumed.executes at_
  | deletion deleting => exact deleting.executes
  | cancellation stepped =>
      obtain ⟨store, log, -⟩ := cancellation_unchanged stepped
      exact .idle rfl store log (fun _ => id) (by simp [Actor.copies])
  | history stepped =>
      obtain ⟨store, log, -⟩ := history_unchanged stepped
      exact .idle rfl store log (fun _ => id) (by simp [Actor.copies])
  | prompt stepped => exact prompt_executes stepped
  | caller executed =>
      exact .own (fun _ => rfl) rfl executed rfl rfl rfl
        (fun known member => (Option.some.inj member).symm) rfl

end Inversion

theorem exec_enters_nothing {settings : Settings} {readings : Readings}
    {store : Store} {current : Section} {outcome : Outcome} {call : Call}
    (executed : current.exec settings readings store = some outcome) :
    outcome.progress ≠ .suspended (.enter call) := by
  cases current with
  | enter other =>
      cases enterCall_entered executed with
      | finds free found works => cases works <;> simp
      | _ => simp
  | reaping now rest after =>
      cases rest with
      | nil =>
          cases leaveReaping_left executed <;> simp
      | cons entry rest =>
          obtain ⟨session, -, rfl⟩ := Option.map_eq_some_iff.mp executed
          simp
  | closeStopped rest =>
      cases rest with
      | nil =>
          cases Option.some.inj executed
          simp
      | cons ptr rest =>
          obtain ⟨session, -, rfl⟩ := Option.map_eq_some_iff.mp executed
          simp
  | _ =>
      obtain ⟨session, -, rfl⟩ := Option.map_eq_some_iff.mp executed
      simp

namespace Ledger

/-- The seat's thread has made this call, which stands like this. -/
def Runs (ledger : Ledger) (system : System) (seat : Seat) (call : Call)
    (progress : Progress) : Prop :=
  ∃ thread, ledger.thread seat = some thread ∧
    system.threads[thread]? = some ⟨call, progress⟩

/-- The schedule is one of the store's, under callers that keep their promises, and
no two seats share a thread. -/
structure Books (settings : Settings) (prompt : StdString)
    (userOf : RequestId → ChatMessage) (ledger : Ledger) (system : System) :
    Prop where
  ran : run (SessionStore.step settings userOf) (initialSystem prompt)
    ledger.schedule = some system
  calls : ledger.calls = system.threads.length
  issued : ∀ seat thread, ledger.thread seat = some thread →
    thread < ledger.calls
  distinct : ∀ seat other thread, ledger.thread seat = some thread →
    ledger.thread other = some thread → seat = other

/-- One section of the seat's call, and nothing of anyone else's. -/
structure Executed (ledger after : Ledger) (system next : System) (seat : Seat)
    (call : Call) (progress : Progress) : Prop where
  runs : after.Runs next seat call progress
  thread : ∀ other, other ≠ seat → after.thread other = ledger.thread other
  asked : after.asked = ledger.asked
  others : ∀ other, other ≠ seat → ∀ caller stood,
    ledger.Runs system other caller stood → after.Runs next other caller stood
  threads : ∀ (thread : Nat) caller stood,
    next.threads[thread]? = some ⟨caller, stood⟩ →
    (after.thread seat = some thread ∧ caller = call) ∨
      ∃ earlier, system.threads[thread]? = some ⟨caller, earlier⟩

section Execution

variable {settings : Settings} {prompt : StdString}
  {userOf : RequestId → ChatMessage} {ledger : Ledger} {system : System}
  {seat : Seat} {call : Call} {current : Section} {readings : Readings}
  {outcome : Outcome}

theorem Books.enter (books : Books settings prompt userOf ledger system)
    (admissible : Admissible userOf system.threads call)
    (executed : enterCall settings readings system.store call = some outcome) :
    ∃ next, Books settings prompt userOf (ledger.enter seat call readings) next ∧
      next.store = outcome.store ∧ next.log = system.log ++ outcome.events ∧
      Executed ledger (ledger.enter seat call readings) system next seat call
        outcome.progress := by
  have fresh (other : Seat) : ledger.thread other ≠ some ledger.calls :=
    fun same => lt_irrefl _ (books.issued other _ same)
  have calls := books.calls
  let next : System :=
    { store := outcome.store
      threads := system.threads ++ [⟨call, outcome.progress⟩]
      log := system.log ++ outcome.events }
  have last : next.threads[ledger.calls]? = some ⟨call, outcome.progress⟩ := by
    simp [next, calls]
  refine ⟨next, ⟨?_, ?_, ?_, ?_⟩, rfl, rfl, ⟨⟨ledger.calls, ?_, last⟩, ?_, rfl,
    ?_, ?_⟩⟩
  · refine run_append.mpr ⟨system, books.ran, run_cons.mpr ⟨_,
      if_pos admissible, run_cons.mpr ⟨next, ?_, rfl⟩⟩⟩
    simp [SessionStore.step, calls, Section.exec, executed, next]
  · simp [Ledger.enter, calls, next]
  · intro other thread seated
    simp only [Ledger.enter, Function.update_apply] at seated ⊢
    split at seated
    · cases Option.some.inj seated
      exact Nat.lt_succ_self _
    · exact Nat.lt_succ_of_lt (books.issued other thread seated)
  · intro one two thread first second
    simp only [Ledger.enter, Function.update_apply] at first second
    split at first
    · split at second
      · rename_i here there
        exact here.trans there.symm
      · cases Option.some.inj first
        exact absurd second (fresh two)
    · split at second
      · cases Option.some.inj second
        exact absurd first (fresh one)
      · exact books.distinct one two thread first second
  · simp [Ledger.enter]
  · intro other different
    exact Function.update_of_ne different _ _
  · rintro other different caller stood ⟨thread, seated, found⟩
    refine ⟨thread, ?_, ?_⟩
    · simpa [Ledger.enter, Function.update_of_ne different] using seated
    · exact (List.getElem?_append_left
        (List.getElem?_eq_some_iff.mp found).1).trans found
  · intro thread caller stood found
    rcases Crew.getElem?_join_origin found with before | ⟨here, same⟩
    · exact .inr ⟨stood, before⟩
    · cases same
      exact .inl ⟨by simp [Ledger.enter, here, calls], rfl⟩

theorem Books.proceed (books : Books settings prompt userOf ledger system)
    {thread : Nat} (seated : ledger.thread seat = some thread)
    (found : system.threads[thread]? = some ⟨call, .suspended current⟩)
    (executed : current.exec settings readings system.store = some outcome) :
    ∃ next, Books settings prompt userOf (ledger.proceed thread readings) next ∧
      next.store = outcome.store ∧ next.log = system.log ++ outcome.events ∧
      Executed ledger (ledger.proceed thread readings) system next seat call
        outcome.progress := by
  let next : System :=
    { store := outcome.store
      threads := system.threads.set thread ⟨call, outcome.progress⟩
      log := system.log ++ outcome.events }
  have bound := (List.getElem?_eq_some_iff.mp found).1
  refine ⟨next, ⟨?_, ?_, books.issued, books.distinct⟩, rfl, rfl,
    ⟨⟨thread, seated, ?_⟩, fun _ _ => rfl, rfl, ?_, ?_⟩⟩
  · refine run_append.mpr ⟨system, books.ran, run_cons.mpr ⟨next, ?_, rfl⟩⟩
    simp [SessionStore.step, found, executed, next]
  · simpa [Ledger.proceed, next] using books.calls
  · simp [next, bound]
  · rintro other different caller stood ⟨elsewhere, there, at_⟩
    refine ⟨elsewhere, there, ?_⟩
    have apart : thread ≠ elsewhere := by
      rintro rfl
      exact different (books.distinct other seat thread there seated)
    simpa [next, apart] using at_
  · intro other caller stood at_
    rcases Crew.getElem?_set_origin at_ with ⟨rfl, same⟩ | ⟨-, before⟩
    · cases same
      exact .inl ⟨seated, rfl⟩
    · exact .inr ⟨stood, before⟩

theorem Books.execute (books : Books settings prompt userOf ledger system)
    (executed : current.exec settings readings system.store = some outcome)
    (due : (current = .enter call ∧ Admissible userOf system.threads call) ∨
      (∀ other, current ≠ .enter other) ∧
        ledger.Runs system seat call (.suspended current)) :
    ∃ next,
      Books settings prompt userOf (ledger.execute seat readings current) next ∧
      next.store = outcome.store ∧ next.log = system.log ++ outcome.events ∧
      Executed ledger (ledger.execute seat readings current) system next seat call
        outcome.progress := by
  rcases due with ⟨rfl, admissible⟩ | ⟨inside, thread, seated, found⟩
  · exact books.enter admissible executed
  · have same : ledger.execute seat readings current =
        ledger.proceed thread readings := by
      cases current with
      | enter other => exact absurd rfl (inside other)
      | _ => simp only [Ledger.execute, seated]
    rw [same]
    exact books.proceed seated found executed

end Execution

structure Continues (ledger later : Ledger) : Prop where
  schedule : ledger.schedule <+: later.schedule
  asked : ledger.asked <+: later.asked
  calls : ledger.calls ≤ later.calls
  kept : ∀ index thread, ledger.thread (.own index) = some thread →
    later.thread (.own index) = some thread
  fresh : ∀ seat thread, later.thread seat = some thread →
    ledger.thread seat = some thread ∨ ledger.calls ≤ thread

section Continuing

variable {ledger later last : Ledger} {seat : Seat} {readings : Readings}
  {current : Section}

theorem Continues.refl (ledger : Ledger) : ledger.Continues ledger :=
  ⟨List.prefix_rfl, List.prefix_rfl, le_rfl, fun _ _ => id, fun _ _ => .inl⟩

theorem Continues.trans (first : ledger.Continues later)
    (second : later.Continues last) : ledger.Continues last where
  schedule := first.schedule.trans second.schedule
  asked := first.asked.trans second.asked
  calls := first.calls.trans second.calls
  kept := fun index thread seated =>
    second.kept index thread (first.kept index thread seated)
  fresh := by
    intro seat thread seated
    rcases second.fresh seat thread seated with before | beyond
    · exact first.fresh seat thread before
    · exact .inr (first.calls.trans beyond)

theorem proceed_continues (ledger : Ledger) (thread : Nat)
    (readings : Readings) : ledger.Continues (ledger.proceed thread readings) :=
  ⟨List.prefix_append _ _, List.prefix_rfl, le_rfl, fun _ _ => id,
    fun _ _ => .inl⟩

theorem execute_continues
    (unmade : ∀ index call, seat = .own index → current = .enter call →
      ledger.thread (.own index) = none) :
    ledger.Continues (ledger.execute seat readings current) := by
  cases current with
  | enter call =>
      refine ⟨List.prefix_append _ _, List.prefix_rfl, Nat.le_succ _, ?_, ?_⟩
      · intro index thread seated
        have elsewhere : Seat.own index ≠ seat := by
          intro same
          exact absurd
            (seated.symm.trans (unmade index call same.symm rfl)) (by simp)
        exact (Function.update_of_ne elsewhere _ _).trans seated
      · intro other thread seated
        simp only [Ledger.execute, Ledger.enter, Function.update_apply] at seated
        split at seated
        · exact .inr (Option.some.inj seated).le
        · exact .inl seated
  | _ =>
      simp only [Ledger.execute]
      split
      · exact proceed_continues _ _ _
      · exact .refl _

end Continuing

end Ledger

end ZooKeeperServer.Service
