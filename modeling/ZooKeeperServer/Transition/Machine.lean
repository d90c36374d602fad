import Mathlib.Logic.Relation

namespace ZooKeeperServer.Transition

/-! Machines whose step is a partial function of a state and a label.  The label
carries every choice the environment makes, so a list of labels is a schedule. -/

universe u v w x

variable {State : Type u} {Label : Type v}

/-- Execute a schedule, stopping with `none` at the first disabled label. -/
def run (step : State → Label → Option State) :
    State → List Label → Option State
  | state, [] => some state
  | state, label :: rest => (step state label).bind fun next => run step next rest

def Reachable (step : State → Label → Option State) (start state : State) :
    Prop :=
  ∃ schedule, run step start schedule = some state

section Runs

variable {step : State → Label → Option State}

@[simp] theorem run_nil (state : State) : run step state [] = some state := rfl

theorem run_cons {state final : State} {label : Label} {rest : List Label} :
    run step state (label :: rest) = some final ↔
      ∃ next, step state label = some next ∧ run step next rest = some final := by
  simp only [run, Option.bind_eq_some_iff]

theorem run_append {start final : State} {first second : List Label} :
    run step start (first ++ second) = some final ↔
      ∃ middle, run step start first = some middle ∧
        run step middle second = some final := by
  induction first generalizing start with
  | nil => simp
  | cons label rest ih =>
      simp only [List.cons_append, run_cons, ih]
      constructor
      · rintro ⟨next, stepped, middle, reached, finished⟩
        exact ⟨middle, ⟨next, stepped, reached⟩, finished⟩
      · rintro ⟨middle, ⟨next, stepped, reached⟩, finished⟩
        exact ⟨next, stepped, middle, reached, finished⟩

theorem run_concat {start final : State} {schedule : List Label}
    {label : Label} :
    run step start (schedule ++ [label]) = some final ↔
      ∃ middle, run step start schedule = some middle ∧
        step middle label = some final := by
  simp only [run_append, run_cons, run_nil, Option.some.injEq,
    exists_eq_right]

theorem run_eq_getD {start other : State} {schedule : List Label}
    (defined : (run step start schedule).isSome = true) :
    run step start schedule = some ((run step start schedule).getD other) := by
  obtain ⟨final, ran⟩ := Option.isSome_iff_exists.mp defined
  rw [ran]
  rfl

/-- What holds at the start and survives every step holds after every run. -/
theorem run_invariant {Holds : State → Prop}
    (preserved : ∀ {state label next},
      Holds state → step state label = some next → Holds next)
    {start final : State} {schedule : List Label}
    (initially : Holds start)
    (reached : run step start schedule = some final) : Holds final := by
  induction schedule generalizing start with
  | nil => exact Option.some.inj reached ▸ initially
  | cons label rest ih =>
      obtain ⟨next, stepped, finished⟩ := run_cons.mp reached
      exact ih (preserved initially stepped) finished

/-- The runs of a machine are runs of one that allows more. -/
theorem run_mono {other : State → Label → Option State}
    (allows : ∀ {state label next}, step state label = some next →
      other state label = some next)
    {start final : State} {schedule : List Label}
    (ran : run step start schedule = some final) :
    run other start schedule = some final := by
  induction schedule generalizing start with
  | nil => exact ran
  | cons label rest ih =>
      obtain ⟨next, stepped, finished⟩ := run_cons.mp ran
      exact run_cons.mpr ⟨next, allows stepped, ih finished⟩

theorem Reachable.refl (start : State) : Reachable step start start :=
  ⟨[], rfl⟩

end Runs

/-! Runs all of whose steps meet a condition on the state before the step. -/

section Guarded

variable (step : State → Label → Option State)
  (Permitted : State → Label → Prop)

/-- Every step the schedule executes from `state` meets the condition. -/
def Respects : State → List Label → Prop
  | _, [] => True
  | state, label :: rest =>
      Permitted state label ∧
        ∀ next, step state label = some next → Respects next rest

instance decidableRespects [∀ state label, Decidable (Permitted state label)] :
    (state : State) → (schedule : List Label) →
      Decidable (Respects step Permitted state schedule)
  | _, [] => .isTrue trivial
  | state, label :: rest =>
      @instDecidableAnd _ _ inferInstance <|
        match _stepped : step state label with
        | none => .isTrue fun _ executed => nomatch executed
        | some next =>
            match decidableRespects next rest with
            | .isTrue respected =>
                .isTrue fun _ executed => Option.some.inj executed ▸ respected
            | .isFalse violated => .isFalse fun all => violated (all next rfl)

variable {step Permitted}

/-- The invariant rule for runs whose steps all meet the condition. -/
theorem Respects.invariant {Holds : State → Prop}
    (preserved : ∀ {state label next}, Permitted state label →
      Holds state → step state label = some next → Holds next)
    {start final : State} {schedule : List Label}
    (respected : Respects step Permitted start schedule)
    (initially : Holds start)
    (reached : run step start schedule = some final) : Holds final := by
  induction schedule generalizing start with
  | nil => exact Option.some.inj reached ▸ initially
  | cons label rest ih =>
      obtain ⟨next, stepped, finished⟩ := run_cons.mp reached
      exact ih (respected.2 next stepped)
        (preserved respected.1 initially stepped) finished

/-- Where the condition says exactly when a step keeps a property, it says of a run
exactly when the property holds all the way.  `Invariant` is what else has to hold,
`Allowed` what is known of the labels. -/
theorem respects_iff {Holds Invariant : State → Prop} {Allowed : Label → Prop}
    (kept : ∀ {state label next}, Allowed label → Invariant state →
      step state label = some next → Invariant next)
    (exactly : ∀ {state label next}, Invariant state → Holds state →
      step state label = some next → (Holds next ↔ Permitted state label))
    {start final : State} {schedule : List Label}
    (allowed : ∀ label ∈ schedule, Allowed label) (invariant : Invariant start)
    (holds : Holds start) (ran : run step start schedule = some final) :
    (∀ earlier state, earlier <+: schedule →
      run step start earlier = some state → Holds state) ↔
      Respects step Permitted start schedule := by
  induction schedule generalizing start with
  | nil =>
      refine ⟨fun _ => trivial, fun _ earlier state before reached => ?_⟩
      obtain rfl := List.prefix_nil.mp before
      exact Option.some.inj reached ▸ holds
  | cons label rest ih =>
      obtain ⟨next, stepped, finished⟩ := run_cons.mp ran
      have after := kept (allowed label List.mem_cons_self) invariant stepped
      have others (label : Label) (member : label ∈ rest) : Allowed label :=
        allowed label (List.mem_cons_of_mem _ member)
      constructor
      · intro all
        have here : Holds next := by
          refine all [label] next ⟨rest, rfl⟩ ?_
          simp [run, stepped]
        refine ⟨(exactly invariant holds stepped).mp here, fun other same => ?_⟩
        obtain rfl := Option.some.inj (stepped.symm.trans same)
        refine (ih others after here finished).mp fun earlier state before
          reached => ?_
        exact all (label :: earlier) state
          ((List.prefix_cons_inj label).mpr before)
          (run_cons.mpr ⟨next, stepped, reached⟩)
      · rintro ⟨permitted, continues⟩ earlier state before reached
        cases earlier with
        | nil => exact Option.some.inj reached ▸ holds
        | cons first earlier =>
            obtain ⟨rfl, shorter⟩ := List.cons_prefix_cons.mp before
            obtain ⟨other, same, reached⟩ := run_cons.mp reached
            obtain rfl := Option.some.inj (stepped.symm.trans same)
            have here := (exactly invariant holds stepped).mpr permitted
            exact (ih others after here finished).mpr (continues next stepped)
              earlier state shorter reached

end Guarded

/-! A machine with a note that every step updates and none looks at. -/

section Notes

variable {Note : Type w} (step : State → Label → Option State)
  (note : State → Label → Note → Note)

def noting : State × Note → Label → Option (State × Note)
  | (state, taken), label =>
      (step state label).map fun next => (next, note state label taken)

variable {step note}

theorem noting_eq_some {state next : State} {taken after : Note}
    {label : Label} :
    noting step note (state, taken) label = some (next, after) ↔
      step state label = some next ∧ note state label taken = after := by
  simp only [noting, Option.map_eq_some_iff, Prod.mk.injEq]
  constructor
  · rintro ⟨_, stepped, rfl, same⟩
    exact ⟨stepped, same⟩
  · rintro ⟨stepped, same⟩
    exact ⟨next, stepped, rfl, same⟩

/-- The runs are those of the machine itself. -/
theorem run_noting (start : State) (taken : Note) (schedule : List Label) :
    (run (noting step note) (start, taken) schedule).map Prod.fst =
      run step start schedule := by
  induction schedule generalizing start taken with
  | nil => rfl
  | cons label rest ih =>
      cases stepped : step start label with
      | none => simp [run, noting, stepped]
      | some next => simp [run, noting, stepped, ih]

theorem Respects.noting {Permitted : State → Label → Prop} {start : State}
    {schedule : List Label} (respected : Respects step Permitted start schedule)
    (taken : Note) :
    Respects (noting step note) (fun noted => Permitted noted.1) (start, taken)
      schedule := by
  induction schedule generalizing start taken with
  | nil => trivial
  | cons label rest ih =>
      refine ⟨respected.1, ?_⟩
      rintro ⟨next, after⟩ noted
      exact ih (respected.2 next (noting_eq_some.mp noted).1) after

end Notes

/-! A machine that drives another: each of its steps is one of that machine or leaves
it alone. -/

section Driving

variable {Driven : Type w} {Command : Type x}
  {inner : Driven → Command → Option Driven}
  {outer : State → Label → Option State}
  {view : State → Driven} {command : Label → Option Command}

theorem run_drives (Holds : State → Prop)
    (drives : ∀ {state label next}, Holds state → outer state label = some next →
      Holds next ∧
        run inner (view state) (command label).toList = some (view next))
    {start final : State} {schedule : List Label} (initially : Holds start)
    (ran : run outer start schedule = some final) :
    run inner (view start) (schedule.filterMap command) = some (view final) := by
  induction schedule generalizing start with
  | nil => exact congrArg (some <| view ·) (Option.some.inj ran)
  | cons label rest ih =>
      obtain ⟨next, stepped, finished⟩ := run_cons.mp ran
      obtain ⟨holds, driven⟩ := drives initially stepped
      have split : (label :: rest).filterMap command =
          (command label).toList ++ rest.filterMap command := by
        cases given : command label with
        | none => simp [given]
        | some command => simp [given]
      rw [split]
      exact run_append.mpr ⟨view next, driven, ih holds finished⟩

end Driving

end ZooKeeperServer.Transition
