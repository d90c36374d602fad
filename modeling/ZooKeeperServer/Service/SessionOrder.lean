import ZooKeeperServer.Service.StoreRefinement
import ZooKeeperServer.SessionStore.Linearizable

namespace ZooKeeperServer.Service

open SessionStore Transition

/-! The service's session calls in one order.  Each of them has the effect and the
answer of one moment between its arrival and its return. -/

section Order

variable (config : Configuration) (prompt : StdString) (schedule : List Label)

def Calls (index thread : Nat) (call : Call) : Prop :=
  (ledgerOf config prompt schedule).asked[index]? = some (some call) ∧
    (ledgerOf config prompt schedule).thread (.own index) = some thread

/-- An atomic directory that performs the operations in this order holds what the
store holds, and tells every actor what it has been told.  An actor that was told
before another joined comes before it. -/
structure SessionsOrdered (service : ChatService)
    (order : List (Nat × SessionStore.Operation)) : Prop where
  represents : Represents service.shared.store
    (replay (Directory.perform config.sessions) (initialDirectory prompt) order)
  told : ∀ (index : Nat) actor output, service.actors[index]? = some actor →
    actor.standing = some (.returned output) →
    ∃ thread call, Calls config prompt schedule index thread call ∧
      callsOf thread order = [call] ∧
      ((thread, .call call), output.timeless) ∈
        replies (Directory.perform config.sessions) (initialDirectory prompt)
          order
  apart : ∀ index other thread call caller,
    Calls config prompt schedule index thread call →
    Calls config prompt schedule other thread caller → index = other
  made : ∀ thread call, (thread, .call call) ∈ order →
    (∃ index, Calls config prompt schedule index thread call) ∨
      ∃ (index : Nat) (actor : Actor), service.actors[index]? = some actor ∧
        actor.Ends call
  expiries : ∀ entry ∈ replies (Directory.perform config.sessions)
      (initialDirectory prompt) order, ∀ sessionId,
    entry.1.2 = .expire sessionId → entry.2 = .expired
  inTime : ∀ earlier middle, earlier <+: schedule →
    run (step config) (initialService prompt) earlier = some middle →
    ∃ first last, order = first ++ last ∧
      (∀ (index : Nat) actor output, middle.actors[index]? = some actor →
        actor.standing = some (.returned output) →
        ∃ thread call, Calls config prompt schedule index thread call ∧
          (thread, .call call) ∈ first) ∧
      ∀ index thread call, middle.actors.length ≤ index →
        Calls config prompt schedule index thread call →
        ∀ entry ∈ first, entry.1 ≠ thread

end Order

section Runs

variable {config : Configuration} {prompt : StdString} {schedule earlier : List Label}
  {userOf : RequestId → ChatMessage} {service middle : ChatService}
  {ledger later : Ledger} {system : System}
  {order : List (Nat × SessionStore.Operation)}

theorem Refines.told
    (refines : Refines config prompt userOf service ledger system) {index : Nat}
    {actor : Actor} {output : Output} (found : service.actors[index]? = some actor)
    (stood : actor.standing = some (.returned output)) :
    ∃ call, ledger.asked[index]? = some (some call) ∧
      ledger.Runs system (.own index) call (.returned output) := by
  obtain ⟨call, asked, ⟨waiting, -⟩ | ⟨-, runs⟩⟩ :=
    refines.stands index actor found _ stood
  · cases waiting
  · exact ⟨call, asked, runs⟩

theorem Refines.owner
    (refines : Refines config prompt userOf service ledger system)
    (linear : Linearizes config.sessions prompt ledger.schedule system order)
    {thread : Nat} {call : Call} (member : (thread, .call call) ∈ order) :
    (∃ index, ledger.asked[index]? = some (some call) ∧
      ledger.thread (.own index) = some thread) ∨
      ∃ (index : Nat) (actor : Actor), service.actors[index]? = some actor ∧
        actor.Ends call := by
  have bound := linear.clients _ member
  obtain ⟨⟨caller, progress⟩, found⟩ : ∃ held, system.threads[thread]? = some held :=
    ⟨_, List.getElem?_eq_getElem bound⟩
  have listed : call ∈ callsOf thread order :=
    List.mem_filterMap.mpr ⟨_, member, by simp⟩
  have same : call = caller := by
    cases progress with
    | returned output =>
        rw [(linear.returned thread caller output found).1] at listed
        exact List.mem_singleton.mp listed
    | suspended current =>
        rcases linear.pending thread caller current found with none | one
        · simp [none] at listed
        · rw [one] at listed
          exact List.mem_singleton.mp listed
  exact (refines.made thread call progress (same ▸ found)).imp_left
    fun ⟨index, seated, asked⟩ => ⟨index, asked, seated⟩

theorem ledgerOf_continues (before : earlier <+: schedule)
    (reached : run (step config) (initialService prompt) earlier = some middle)
    (ran : run (step config) (initialService prompt) schedule = some service) :
    (ledgerOf config prompt earlier).Continues
      (ledgerOf config prompt schedule) := by
  obtain ⟨rest, rfl⟩ := before
  obtain ⟨⟨other, books⟩, first, second⟩ := run_append.mp (ledgerOf_eq ran)
  obtain ⟨rfl, rfl⟩ : other = middle ∧ books = ledgerOf config prompt earlier := by
    simpa using first.symm.trans (ledgerOf_eq reached)
  obtain ⟨userOf, system, held, refines⟩ := run_refines first
  exact run_continues held refines second

/-- The order of the store's threads. -/
abbrev sessionOrder (config : Configuration) (prompt : StdString)
    (schedule : List Label) : List (Nat × SessionStore.Operation) :=
  linearOrder config.sessions prompt (ledgerOf config prompt schedule).schedule

/-- What an actor has been told is the answer that the order gives to its call. -/
theorem run_answers
    (ran : run (step config) (initialService prompt) schedule = some service)
    {index : Nat} {actor : Actor} {output : Output}
    (found : service.actors[index]? = some actor)
    (stood : actor.standing = some (.returned output)) :
    ∃ thread call, Calls config prompt schedule index thread call ∧
      callsOf thread (sessionOrder config prompt schedule) = [call] ∧
      ((thread, .call call), output.timeless) ∈
        replies (Directory.perform config.sessions) (initialDirectory prompt)
          (sessionOrder config prompt schedule) := by
  obtain ⟨userOf, system, -, refines⟩ := run_refines (ledgerOf_eq ran)
  have linear : Linearizes config.sessions prompt _ system _ :=
    run_linearizes (run_mono step_freeStep refines.books.ran)
  obtain ⟨call, asked, thread, seated, returned⟩ := refines.told found stood
  exact ⟨thread, call, ⟨asked, seated⟩, linear.returned thread call output
    returned⟩

/-- Where the order stands halfway. -/
theorem run_inTime
    (ran : run (step config) (initialService prompt) schedule = some service)
    (before : earlier <+: schedule)
    (reached : run (step config) (initialService prompt) earlier = some middle) :
    ∃ first last, sessionOrder config prompt schedule = first ++ last ∧
      (∀ (index : Nat) actor output, middle.actors[index]? = some actor →
        actor.standing = some (.returned output) →
        ∃ thread call, Calls config prompt schedule index thread call ∧
          (thread, .call call) ∈ first) ∧
      ∀ index thread call, middle.actors.length ≤ index →
        Calls config prompt schedule index thread call →
        ∀ entry ∈ first, entry.1 ≠ thread := by
  obtain ⟨userOf, system, -, refines⟩ := run_refines (ledgerOf_eq ran)
  have linear : Linearizes config.sessions prompt _ system _ :=
    run_linearizes (run_mono step_freeStep refines.books.ran)
  obtain ⟨other, halfway, -, midway⟩ := run_refines (ledgerOf_eq reached)
  have continues := ledgerOf_continues before reached ran
  obtain ⟨first, last, split, returned, bounded⟩ := linear.inTime _ halfway
    continues.schedule (run_mono step_freeStep midway.books.ran)
  refine ⟨first, last, split, ?_, ?_⟩
  · intro index actor output found stood
    obtain ⟨call, asked, thread, seated, runs⟩ := midway.told found stood
    refine ⟨thread, call, ⟨?_, continues.kept index thread seated⟩,
      returned thread call output runs⟩
    obtain ⟨bound, here⟩ := List.getElem?_eq_some_iff.mp asked
    exact here ▸ List.prefix_iff_getElem?.mp continues.asked index bound
  · rintro index thread call late ⟨-, seated⟩ entry member same
    have bound := bounded entry member
    rcases continues.fresh _ thread seated with already | beyond
    · exact absurd (midway.seated index thread already)
        (Nat.not_lt.mpr late)
    · have calls := midway.books.calls
      omega

/-- The order of the store's threads is one of the service's calls, in every run with
fewer than 2^64 requests and sessions. -/
theorem sessions_linearizable
    (ran : run (step config) (initialService prompt) schedule = some service) :
    SessionsOrdered config prompt schedule service
      (linearOrder config.sessions prompt
        (ledgerOf config prompt schedule).schedule) := by
  obtain ⟨userOf, system, -, refines⟩ := run_refines (ledgerOf_eq ran)
  have linear : Linearizes config.sessions prompt _ system _ :=
    run_linearizes (run_mono step_freeStep refines.books.ran)
  constructor
  · exact refines.store ▸ linear.represents
  · exact fun index actor output found stood => run_answers ran found stood
  · rintro index other thread call caller ⟨-, one⟩ ⟨-, two⟩
    cases refines.books.distinct _ _ thread one two
    rfl
  · exact fun thread call => refines.owner linear
  · exact linear.expiries
  · exact fun earlier middle before reached => run_inTime ran before reached

end Runs

/-! A request that begins on a session whose creation is still under way, and one
that finds it busy. -/

def sampleCrossing : List Label :=
  sampleOpening ++ beginning 1 ++ beginning 2 ++ [.act 0 (.run ⟨1, 1, []⟩)]

theorem sessions_linearizable_sample :
    SessionsOrdered sampleConfig [] sampleCrossing (sampleRun sampleCrossing)
        (linearOrder sampleConfig.sessions []
          (ledgerOf sampleConfig [] sampleCrossing).schedule) ∧
      (linearOrder sampleConfig.sessions []
        (ledgerOf sampleConfig [] sampleCrossing).schedule).map Prod.fst =
          [0, 1, 2] :=
  ⟨sessions_linearizable (sampleRun_ran (by decide +kernel)),
    by decide +kernel⟩

end ZooKeeperServer.Service
