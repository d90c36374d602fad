import Mathlib.Algebra.GroupWithZero.Nat
import Mathlib.Algebra.Order.BigOperators.Group.List
import Mathlib.Algebra.Order.Group.Nat
import Mathlib.Data.List.Infix
import ZooKeeperServer.Transition.Crew

namespace ZooKeeperServer.Transition.Counting

/-! Threads that increment and load counters of 64 bits, one atomic step at a time.
What a thread has to do is fixed by the call that starts it. -/

universe u v

abbrev Counters (Counter : Type u) : Type u :=
  Counter → UInt64

inductive Thread (Counter : Type u)
  | incrementing (executed pending : List Counter)
  | loading (snapshot : List (Counter × UInt64)) (pending : List Counter)

inductive Program (Counter : Type u)
  | increments (counters : List Counter)
  | loads (counters : List Counter)

inductive Label (Call : Type v)
  | start (call : Call)
  | act (index : Nat)

abbrev State (Counter : Type u) : Type u :=
  Crew (Counters Counter) (Thread Counter)

section Machine

variable {Counter : Type u} [DecidableEq Counter] {Call : Type v}

def Program.thread : Program Counter → Thread Counter
  | .increments counters => .incrementing [] counters
  | .loads counters => .loading [] counters

def increment (counters : Counters Counter) (counter : Counter) :
    Counters Counter :=
  Function.update counters counter (counters counter + 1)

def Thread.act (counters : Counters Counter) :
    Thread Counter → Unit → Option (Counters Counter × Thread Counter)
  | .incrementing executed (counter :: pending), _ =>
      some (increment counters counter,
        .incrementing (executed ++ [counter]) pending)
  | .loading snapshot (counter :: pending), _ =>
      some (counters,
        .loading (snapshot ++ [(counter, counters counter)]) pending)
  | _, _ => none

def initial : State Counter :=
  ⟨fun _ => 0, []⟩

def step (program : Call → Program Counter) (state : State Counter) :
    Label Call → Option (State Counter)
  | .start call => some (state.join state.shared (program call).thread)
  | .act index => state.turn Thread.act index ()

inductive Stepped (program : Call → Program Counter) (state : State Counter) :
    Label Call → State Counter → Prop
  | started (call : Call) :
      Stepped program state (.start call)
        (state.join state.shared (program call).thread)
  | incremented {index : Nat} {executed pending : List Counter}
      {counter : Counter}
      (found : state.actors[index]? =
        some (.incrementing executed (counter :: pending))) :
      Stepped program state (.act index)
        ⟨increment state.shared counter, state.actors.set index
          (.incrementing (executed ++ [counter]) pending)⟩
  | loaded {index : Nat} {snapshot : List (Counter × UInt64)}
      {pending : List Counter} {counter : Counter}
      (found : state.actors[index]? =
        some (.loading snapshot (counter :: pending))) :
      Stepped program state (.act index)
        ⟨state.shared, state.actors.set index
          (.loading (snapshot ++ [(counter, state.shared counter)]) pending)⟩

theorem step_stepped {program : Call → Program Counter}
    {state next : State Counter} {label : Label Call}
    (stepped : step program state label = some next) :
    Stepped program state label next := by
  cases label with
  | start call => exact Option.some.inj stepped ▸ .started call
  | act index =>
      obtain ⟨thread, shared, updated, found, acted, rfl⟩ :=
        Crew.turn_eq_some stepped
      cases thread with
      | incrementing executed pending =>
          cases pending with
          | nil => contradiction
          | cons counter pending =>
              cases acted
              exact .incremented found
      | loading snapshot pending =>
          cases pending with
          | nil => contradiction
          | cons counter pending =>
              cases acted
              exact .loaded found

end Machine

section Counts

variable {Counter : Type u} [DecidableEq Counter] {Call : Type v}
  {program : Call → Program Counter} {state next : State Counter}
  {label : Label Call} {counter first second : Counter}

def Thread.increments (counter : Counter) : Thread Counter → Nat
  | .incrementing executed _ => executed.count counter
  | .loading _ _ => 0

def increments (state : State Counter) (counter : Counter) : Nat :=
  (state.actors.map (Thread.increments counter)).sum

theorem sum_map_set {α : Type u} (weight : α → Nat) {items : List α}
    {index : Nat} {item : α} (updated : α) (found : items[index]? = some item) :
    ((items.set index updated).map weight).sum + weight item =
      (items.map weight).sum + weight updated := by
  induction items generalizing index with
  | nil => simp at found
  | cons head rest ih =>
      cases index with
      | zero =>
          obtain rfl : head = item := by simpa using found
          simp only [List.set_cons_zero, List.map_cons, List.sum_cons]
          omega
      | succ index =>
          have within : rest[index]? = some item := by simpa using found
          have later := ih within
          simp only [List.set_cons_succ, List.map_cons, List.sum_cons]
          omega

theorem increments_started (call : Call) :
    increments (state.join state.shared (program call).thread) counter =
      increments state counter := by
  cases shape : program call with
  | increments counters =>
      simp [increments, Crew.join, Program.thread, Thread.increments]
  | loads counters =>
      simp [increments, Crew.join, Program.thread, Thread.increments]

theorem increments_incremented {index : Nat} {executed pending : List Counter}
    {shared : Counters Counter}
    (found : state.actors[index]? =
      some (.incrementing executed (counter :: pending))) (other : Counter) :
    increments ⟨shared, state.actors.set index
        (.incrementing (executed ++ [counter]) pending)⟩ other =
      increments state other + if counter = other then 1 else 0 := by
  have replaced := sum_map_set (Thread.increments other)
    (.incrementing (executed ++ [counter]) pending) found
  simp only [Thread.increments, List.count_append, List.count_singleton,
    beq_iff_eq] at replaced
  simp only [increments]
  omega

theorem increments_loaded {index : Nat}
    {snapshot after : List (Counter × UInt64)} {pending rest : List Counter}
    {shared : Counters Counter}
    (found : state.actors[index]? = some (.loading snapshot pending)) :
    increments ⟨shared, state.actors.set index (.loading after rest)⟩ counter =
      increments state counter := by
  have replaced := sum_map_set (Thread.increments counter)
    (.loading after rest) found
  simpa [Thread.increments, increments] using replaced

theorem Stepped.increments_le (stepped : Stepped program state label next)
    (counter : Counter) :
    increments state counter ≤ increments next counter := by
  cases stepped with
  | started call => exact (increments_started call).ge
  | incremented found =>
      rw [increments_incremented found]
      omega
  | loaded found => exact (increments_loaded found).ge

/-- However far the program has got, `second` has not been incremented more often
than `first`. -/
def Leads (first second : Counter) (counters : List Counter) : Prop :=
  ∀ executed, executed <+: counters →
    executed.count second ≤ executed.count first

instance (first second : Counter) (counters : List Counter) :
    Decidable (Leads first second counters) :=
  decidable_of_iff
    (∀ executed ∈ counters.inits, executed.count second ≤ executed.count first)
    (by simp [Leads, List.mem_inits])

theorem Leads.append {before after : List Counter}
    (one : Leads first second before) (two : Leads first second after) :
    Leads first second (before ++ after) := by
  intro executed reached
  rcases List.prefix_or_prefix_of_prefix reached (List.prefix_append before after)
    with earlier | ⟨rest, rfl⟩
  · exact one executed earlier
  · have all := one before (List.prefix_refl before)
    have further := two rest ((List.prefix_append_right_inj before).mp reached)
    simp only [List.count_append]
    omega

theorem leads_flatMap {α : Type u} {counters : α → List Counter}
    (each : ∀ item, Leads first second (counters item)) (items : List α) :
    Leads first second (items.flatMap counters) := by
  induction items with
  | nil =>
      intro executed reached
      rw [List.prefix_nil.mp reached]
      exact Nat.le_refl _
  | cons item rest ih => exact (each item).append ih

/-- The counters hold the numbers of increments, and every thread increments `first`
before `second`. -/
structure Counted (first second : Counter) (state : State Counter) : Prop where
  holds : ∀ counter,
    state.shared counter = UInt64.ofNat (increments state counter)
  leads : ∀ (index : Nat) executed pending,
    state.actors[index]? = some (.incrementing executed pending) →
      Leads first second (executed ++ pending)

theorem Counted.initially : Counted first second (initial : State Counter) where
  holds := fun _ => rfl
  leads := by simp [initial]

theorem Counted.step (counted : Counted first second state)
    (programs : ∀ call counters, program call = .increments counters →
      Leads first second counters)
    (stepped : Stepped program state label next) :
    Counted first second next := by
  constructor
  · intro counter
    cases stepped with
    | started call =>
        rw [increments_started]
        exact counted.holds counter
    | @incremented index executed pending changed found =>
        rw [increments_incremented found]
        by_cases same : changed = counter
        · subst same
          simp [increment, counted.holds changed, UInt64.ofNat_add]
        · simp [increment, same, Ne.symm same, counted.holds counter]
    | loaded found =>
        rw [increments_loaded found]
        exact counted.holds counter
  · intro other executed pending at_
    cases stepped with
    | started call =>
        rcases Crew.getElem?_join_origin at_ with before | ⟨_, same⟩
        · exact counted.leads other executed pending before
        · cases shape : program call with
          | increments counters =>
              rw [shape] at same
              cases same
              exact programs call _ shape
          | loads counters =>
              rw [shape] at same
              cases same
    | @incremented index done rest counter found =>
        rcases Crew.getElem?_set_origin at_ with ⟨_, same⟩ | ⟨_, before⟩
        · cases same
          simpa using counted.leads index done _ found
        · exact counted.leads other executed pending before
    | loaded found =>
        rcases Crew.getElem?_set_origin at_ with ⟨_, same⟩ | ⟨_, before⟩
        · cases same
        · exact counted.leads other executed pending before

theorem Counted.increments_le (counted : Counted first second state) :
    increments state second ≤ increments state first := by
  apply List.sum_le_sum
  intro thread member
  obtain ⟨index, found⟩ := List.mem_iff_getElem?.mp member
  cases thread with
  | incrementing executed pending =>
      exact counted.leads index executed pending found executed
        (List.prefix_append _ _)
  | loading snapshot pending => exact Nat.le_refl 0

theorem Counted.toNat (counted : Counted first second state)
    (few : increments state counter < 2 ^ 64) :
    (state.shared counter).toNat = increments state counter := by
  rw [counted.holds counter]
  exact UInt64.toNat_ofNat_of_lt few

theorem Counted.toNat_le (counted : Counted first second state) :
    (state.shared counter).toNat ≤ increments state counter := by
  rw [counted.holds counter, UInt64.toNat_ofNat']
  exact Nat.mod_le _ _

end Counts

section Loads

variable {Counter : Type u} [DecidableEq Counter] {Call : Type v}
  {program : Call → Program Counter} {state next : State Counter}
  {label : Label Call} {first second : Counter} {missed : Nat → Nat}

def Thread.changes : Thread Counter → Option Counter
  | .incrementing _ (counter :: _) => some counter
  | _ => none

def Thread.between (first second : Counter) : Thread Counter → Bool
  | .loading snapshot pending =>
      snapshot.any (fun entry => entry.1 = first) && pending.contains second
  | .incrementing _ _ => false

/-- For each thread, the increments of `second` that come between its loads of
`first` and `second`. -/
def missing (first second : Counter) (state : State Counter) :
    Label Call → (Nat → Nat) → Nat → Nat
  | .start _, missed => missed
  | .act index, missed =>
      if state.actors[index]?.bind Thread.changes = some second then
        fun reader =>
          missed reader +
            if state.actors[reader]?.any (Thread.between first second) then 1
            else 0
      else missed

structure ReadsBehind (first second : Counter) (state : State Counter)
    (missed : Nat → Nat) : Prop where
  behind : ∀ (index : Nat) snapshot pending value,
    state.actors[index]? = some (.loading snapshot pending) →
      (second, value) ∈ snapshot → value.toNat ≤ increments state first
  pending : ∀ (index : Nat) snapshot pending value,
    state.actors[index]? = some (.loading snapshot pending) →
      (first, value) ∈ snapshot → second ∈ pending →
        increments state second ≤ value.toNat + missed index
  both : ∀ (index : Nat) snapshot pending leading following,
    state.actors[index]? = some (.loading snapshot pending) →
      (first, leading) ∈ snapshot → (second, following) ∈ snapshot →
        following.toNat ≤ leading.toNat + missed index

theorem ReadsBehind.initially (missed : Nat → Nat) :
    ReadsBehind first second (initial : State Counter) missed where
  behind := by simp [initial]
  pending := by simp [initial]
  both := by simp [initial]

theorem ReadsBehind.started (reads : ReadsBehind first second state missed)
    (call : Call) :
    ReadsBehind first second
      (state.join state.shared (program call).thread) missed := by
  have fresh (index : Nat) {snapshot : List (Counter × UInt64)}
      {pending : List Counter}
      (found : (state.join state.shared (program call).thread).actors[index]? =
        some (.loading snapshot pending)) :
      state.actors[index]? = some (.loading snapshot pending) ∨
        snapshot = [] := by
    rcases Crew.getElem?_join_origin found with before | ⟨_, same⟩
    · exact .inl before
    · cases shape : program call with
      | increments counters =>
          rw [shape] at same
          cases same
      | loads counters =>
          rw [shape] at same
          cases same
          exact .inr rfl
  constructor
  · intro index snapshot pending value found loaded
    rw [increments_started]
    rcases fresh index found with before | rfl
    · exact reads.behind index snapshot pending value before loaded
    · simp at loaded
  · intro index snapshot pending value found loaded waiting
    rw [increments_started]
    rcases fresh index found with before | rfl
    · exact reads.pending index snapshot pending value before loaded waiting
    · simp at loaded
  · intro index snapshot pending leading following found one two
    rcases fresh index found with before | rfl
    · exact reads.both index snapshot pending leading following before one two
    · simp at one

theorem le_missing (reader : Nat) :
    missed reader ≤ missing first second state label missed reader := by
  cases label with
  | start call => exact Nat.le_refl _
  | act index =>
      simp only [missing]
      split
      · exact Nat.le_add_right _ _
      · exact Nat.le_refl _

theorem missing_incremented {index reader : Nat}
    {executed pending rest : List Counter}
    {snapshot : List (Counter × UInt64)} {value : UInt64}
    (acts : state.actors[index]? = some (.incrementing executed (second :: rest)))
    (found : state.actors[reader]? = some (.loading snapshot pending))
    (loaded : (first, value) ∈ snapshot) (waiting : second ∈ pending) :
    missing first second state (.act index : Label Call) missed reader =
      missed reader + 1 := by
  have lies : Thread.between first second (.loading snapshot pending) = true := by
    simp only [Thread.between, Bool.and_eq_true, List.any_eq_true,
      decide_eq_true_eq, List.contains_iff_mem]
    exact ⟨⟨(first, value), loaded, rfl⟩, waiting⟩
  simp [missing, acts, found, Thread.changes, lies]

theorem ReadsBehind.incremented {index : Nat}
    {executed pending : List Counter} {counter : Counter}
    (reads : ReadsBehind first second state missed)
    (found : state.actors[index]? =
      some (.incrementing executed (counter :: pending))) :
    ReadsBehind first second
      ⟨increment state.shared counter, state.actors.set index
        (.incrementing (executed ++ [counter]) pending)⟩
      (missing first second state (.act index : Label Call) missed) := by
  have same (reader : Nat) {snapshot : List (Counter × UInt64)}
      {waiting : List Counter}
      (at_ : (state.actors.set index
        (.incrementing (executed ++ [counter]) pending))[reader]? =
          some (.loading snapshot waiting)) :
      state.actors[reader]? = some (.loading snapshot waiting) := by
    rcases Crew.getElem?_set_origin at_ with ⟨_, other⟩ | ⟨_, before⟩
    · cases other
    · exact before
  have grows (reader : Nat) : missed reader ≤
      missing first second state (.act index : Label Call) missed reader :=
    le_missing reader
  constructor
  · intro reader snapshot waiting value at_ loaded
    have before := reads.behind reader snapshot waiting value (same reader at_)
      loaded
    rw [increments_incremented found]
    omega
  · intro reader snapshot waiting value at_ loaded later
    have before := reads.pending reader snapshot waiting value (same reader at_)
      loaded later
    rw [increments_incremented found]
    by_cases here : counter = second
    · subst here
      rw [missing_incremented found (same reader at_) loaded later, if_pos rfl]
      omega
    · have grown := grows reader
      rw [if_neg here]
      omega
  · intro reader snapshot waiting leading following at_ one two
    have before := reads.both reader snapshot waiting leading following
      (same reader at_) one two
    have grown := grows reader
    omega

theorem missing_loaded {index : Nat} {snapshot : List (Counter × UInt64)}
    {pending : List Counter}
    (found : state.actors[index]? = some (.loading snapshot pending)) :
    missing first second state (.act index : Label Call) missed = missed := by
  simp [missing, found, Thread.changes]

/-- What is loaded now: of `second` no more than there are of `first`, and of `first`
as many as there are. -/
theorem ReadsBehind.loaded {index : Nat}
    {snapshot : List (Counter × UInt64)} {pending : List Counter}
    {counter : Counter} (reads : ReadsBehind first second state missed)
    (counted : Counted first second state)
    (few : increments state first < 2 ^ 64)
    (found : state.actors[index]? =
      some (.loading snapshot (counter :: pending))) :
    ReadsBehind first second
      ⟨state.shared, state.actors.set index
        (.loading (snapshot ++ [(counter, state.shared counter)]) pending)⟩
      missed := by
  have leads := counted.increments_le
  have exact_ := counted.toNat few
  have atMost : (state.shared second).toNat ≤ increments state second :=
    counted.toNat_le
  constructor
  · intro reader taken waiting value at_ here
    rw [increments_loaded found]
    rcases Crew.getElem?_set_origin at_ with ⟨rfl, same⟩ | ⟨_, before⟩
    · cases same
      rcases List.mem_append.mp here with earlier | now
      · exact reads.behind index snapshot _ value found earlier
      · cases List.mem_singleton.mp now
        omega
    · exact reads.behind reader taken waiting value before here
  · intro reader taken waiting value at_ here later
    rw [increments_loaded found]
    rcases Crew.getElem?_set_origin at_ with ⟨rfl, same⟩ | ⟨_, before⟩
    · cases same
      rcases List.mem_append.mp here with earlier | now
      · exact reads.pending index snapshot _ value found earlier
          (List.mem_cons_of_mem _ later)
      · cases List.mem_singleton.mp now
        omega
    · exact reads.pending reader taken waiting value before here later
  · intro reader taken waiting leading following at_ one two
    rcases Crew.getElem?_set_origin at_ with ⟨rfl, same⟩ | ⟨_, before⟩
    · cases same
      rcases List.mem_append.mp one with earlier | now
      · rcases List.mem_append.mp two with other | here
        · exact reads.both index snapshot _ leading following found earlier other
        · cases List.mem_singleton.mp here
          have bound := reads.pending index snapshot _ leading found earlier
            List.mem_cons_self
          omega
      · cases List.mem_singleton.mp now
        rcases List.mem_append.mp two with other | here
        · have bound := reads.behind index snapshot _ following found other
          omega
        · have same := List.mem_singleton.mp here
          simp only [Prod.mk.injEq] at same
          obtain ⟨rfl, rfl⟩ := same
          omega
    · exact reads.both reader taken waiting leading following before one two

theorem ReadsBehind.step (reads : ReadsBehind first second state missed)
    (counted : Counted first second state)
    (few : increments state first < 2 ^ 64)
    (stepped : Stepped program state label next) :
    ReadsBehind first second next
      (missing first second state label missed) := by
  cases stepped with
  | started call => exact reads.started call
  | incremented found => exact reads.incremented found
  | loaded found =>
      rw [missing_loaded found]
      exact reads.loaded counted few found

theorem run_loads {index : Nat} {snapshot : List (Counter × UInt64)}
    {pending : List Counter}
    (found : state.actors[index]? = some (.loading snapshot pending)) :
    ∃ final, run (step program) state
        (List.replicate pending.length (.act index)) = some final ∧
      final.actors[index]? = some (.loading
        (snapshot ++ pending.map fun counter => (counter, state.shared counter))
        []) := by
  induction pending generalizing state snapshot with
  | nil => exact ⟨state, rfl, by simpa using found⟩
  | cons counter pending ih =>
      have inside : index < state.actors.length :=
        (List.getElem?_eq_some_iff.mp found).1
      have turned : step program state (.act index) = some
          ⟨state.shared, state.actors.set index
            (.loading (snapshot ++ [(counter, state.shared counter)])
              pending)⟩ := by
        simp [step, Crew.turn, found, Thread.act]
      have ahead := List.getElem?_set_self inside (a := .loading
        (snapshot ++ [(counter, state.shared counter)]) pending)
      obtain ⟨final, ran, read⟩ := @ih ⟨state.shared, _⟩ _ ahead
      refine ⟨final, run_cons.mpr ⟨_, turned, ran⟩, ?_⟩
      simpa using read

/-- What every step keeps, as long as `first` does not wrap around. -/
def Consistent (first second : Counter) (noted : State Counter × (Nat → Nat)) :
    Prop :=
  Counted first second noted.1 ∧ (increments noted.1 first < 2 ^ 64 →
    ReadsBehind first second noted.1 noted.2)

/-- However the threads take turns: `second` is at most `first`, and a thread that
loads both is off by no more than what it misses. -/
theorem counts_consistent
    (programs : ∀ call counters, program call = .increments counters →
      Leads first second counters)
    {schedule : List (Label Call)} {final : State Counter}
    (ran : run (noting (step program) (missing first second))
      (initial, fun _ => 0) schedule = some (final, missed))
    (few : increments final first < 2 ^ 64) :
    final.shared second ≤ final.shared first ∧
      ReadsBehind first second final missed := by
  have invariant : Consistent first second (final, missed) := by
    refine run_invariant ?_ ⟨.initially, fun _ => .initially _⟩ ran
    rintro ⟨state, missed⟩ label ⟨next, after⟩ ⟨counted, reads⟩ noted
    obtain ⟨executed, rfl⟩ := noting_eq_some.mp noted
    have stepped := step_stepped executed
    refine ⟨counted.step programs stepped, fun few => ?_⟩
    have before : increments state first < 2 ^ 64 :=
      Nat.lt_of_le_of_lt (stepped.increments_le first) few
    exact (reads before).step counted before stepped
  obtain ⟨counted, reads⟩ := invariant
  refine ⟨?_, reads few⟩
  rw [UInt64.le_iff_toNat_le, counted.toNat few]
  exact counted.toNat_le.trans counted.increments_le

end Loads

end ZooKeeperServer.Transition.Counting
