import ZooKeeperServer.Service.PromptAlignment
import ZooKeeperServer.Transition.Replay

namespace ZooKeeperServer.Service

open SessionStore Transition

/-! What the calls on the retained history report, against what they would report
one at a time. -/

structure Retained where
  prompt : StdString
  history : List ChatMessage

def Core.retained (core : Core) : Retained :=
  ⟨core.requestSystemPrompt, core.agentHistory⟩

inductive Mutation
  | call (request : HistoryRequest)
  | updatePrompt (prompt : StdString)
  | commit (user : ChatMessage) (reply : StdString)

section Sequentially

variable (config : Configuration)

def report (history : List ChatMessage) :
    ApiResult (Option AgentHistorySnapshot) :=
  .ok (some (makeAgentHistorySnapshot config.contextSize history))

/-- The calls one at a time: a replacement reports what it installs, an append the
history with its message, and a swap the history before. -/
def Mutation.perform (retained : Retained) :
    Mutation → Retained × ApiResult (Option AgentHistorySnapshot)
  | .call .get => (retained, report config retained.history)
  | .call .clear =>
      ({ retained with
          history := resetAgentHistoryToSystemPrompt retained.prompt }, .ok none)
  | .call (.replace messages) =>
      ({ retained with history := messages }, report config messages)
  | .call (.swap messages) =>
      ({ retained with history := messages }, report config retained.history)
  | .call (.append message) =>
      match validateMessageSequence config.rule retained.history
        message.role with
      | .error error => (retained, .error (sequenceError error))
      | .ok () =>
          ({ retained with history := retained.history ++ [message] },
            report config (retained.history ++ [message]))
  | .updatePrompt prompt =>
      (⟨prompt, updateSystemPromptState prompt retained.history⟩, .ok none)
  | .commit user reply =>
      ({ retained with history := retained.history ++ [user, .assistant reply] },
        .ok none)

end Sequentially

def Actor.performs : Actor → Input → Option Mutation
  | .history (.entered asked), .run _ => some (.call asked)
  | .prompt (.updating text), .run _ => some (.updatePrompt text)
  | actor, input => (actor.commits input).map fun (user, reply) =>
      .commit user reply

def Actor.reads : Actor → Bool
  | .history .reading => true
  | _ => false

def ordering (service : ChatService) :
    Label → List (Nat × Mutation) → List (Nat × Mutation)
  | .act index input, order =>
      match service.actors[index]?.bind fun actor => actor.performs input with
      | some mutation => order ++ [(index, mutation)]
      | none => order
  | _, order => order

section Turns

variable {config : Configuration} {core after : Core} {actor updated : Actor}
  {input : Input}

theorem Turn.retained (turn : Turn config core actor input after updated) :
    after.retained =
      match actor.performs input with
      | some mutation => (mutation.perform config core.retained).1
      | none => core.retained := by
  have reached : after.retained = ⟨actor.requests core input,
      (actor.writes config core input).getD core.agentHistory⟩ := by
    simp only [Core.retained, turn.requested, turn.writes.history]
  rw [reached]
  clear reached
  cases turn with
  | advance advanced => rfl
  | @consume request pending moved trackingId copy action _ at_ drew consumed =>
      cases commits : (Actor.request request).commits (.consume copy action) with
      | none => simp [Actor.performs, Actor.writes, Actor.requests, commits,
          Core.retained]
      | some turn => simp [Actor.performs, Actor.writes, Actor.requests, commits,
          Core.retained, Mutation.perform]
  | deletion deleting => rfl
  | cancellation stepped => rfl
  | @history readings call updated after stepped =>
      cases call with
      | entered request =>
          cases request with
          | append message =>
              simp only [Actor.performs, Actor.writes, Actor.requests,
                Mutation.perform, Core.retained]
              cases validateMessageSequence config.rule core.agentHistory
                message.role with
              | error error => rfl
              | ok done => rfl
          | _ => rfl
      | reading => rfl
      | returned result => rfl
  | @prompt readings call updated after stepped =>
      cases call with
      | _ => rfl
  | caller executed => rfl

end Turns

section Orders

variable (config : Configuration) (start : Retained)

/-- Every call that has returned reports what it would in that order, one call at a
time. -/
def Reports (noted : ChatService × List (Nat × Mutation)) : Prop :=
  ∀ (index : Nat) result,
    noted.1.actors[index]? = some (.history (.returned result)) →
      ∃ left, (index, (left, result)) ∈
        outcomes (Mutation.perform config) start noted.2

/-- A call that has released the lock and takes it again to read finds the history
that it left. -/
def Uninterrupted (noted : ChatService × List (Nat × Mutation)) : Label → Prop
  | .act index (.run _) =>
      noted.1.actors[index]?.any Actor.reads = true →
        ∃ entry ∈ outcomes (Mutation.perform config) start noted.2,
          entry.1 = index ∧
            entry.2.1.history = noted.1.shared.agentHistory
  | _ => True

instance (noted : ChatService × List (Nat × Mutation)) :
    (label : Label) → Decidable (Uninterrupted config start noted label)
  | .act _ (.run _) => inferInstanceAs (Decidable (_ → _))
  | .act _ (.advance _) => .isTrue trivial
  | .act _ (.consume _ _) => .isTrue trivial
  | .start _ _ => .isTrue trivial
  | .deleteSession _ => .isTrue trivial
  | .cancelRequest _ => .isTrue trivial
  | .agentHistory _ _ => .isTrue trivial
  | .setSystemPrompt _ => .isTrue trivial
  | .call _ => .isTrue trivial

structure Ordered (noted : ChatService × List (Nat × Mutation)) : Prop where
  retained : noted.1.shared.retained =
    replay (Mutation.perform config) start noted.2
  known : ∀ entry ∈ noted.2, entry.1 < noted.1.actors.length
  entered : ∀ (index : Nat) request,
    noted.1.actors[index]? = some (.history (.entered request)) →
      ∀ mutation, (index, mutation) ∉ noted.2
  reading : ∀ index : Nat,
    noted.1.actors[index]? = some (.history .reading) →
      ∃ left, ∀ outcome,
        (index, outcome) ∈ outcomes (Mutation.perform config) start noted.2 ↔
          outcome = (left, report config left.history)

end Orders

section Steps

variable {config : Configuration} {start : Retained}
  {service next : ChatService} {order : List (Nat × Mutation)} {label : Label}
  {index : Nat} {input : Input} {actor updated : Actor} {after : Core}

theorem ordering_elsewhere
    (elsewhere : ∀ index input, label ≠ .act index input) :
    ordering service label order = order := by
  cases label with
  | act index input => exact absurd rfl (elsewhere index input)
  | _ => rfl

theorem ordering_act (found : service.actors[index]? = some actor) :
    ordering service (.act index input) order =
      match actor.performs input with
      | some mutation => order ++ [(index, mutation)]
      | none => order := by
  simp only [ordering, found, Option.bind_some]

theorem mem_ordering_act (found : service.actors[index]? = some actor)
    {entry : Nat × Mutation}
    (listed : entry ∈ ordering service (.act index input) order) :
    entry ∈ order ∨ entry.1 = index := by
  rw [ordering_act found] at listed
  cases performs : actor.performs input with
  | none =>
      rw [performs] at listed
      exact .inl listed
  | some mutation =>
      rw [performs] at listed
      rcases List.mem_append.mp listed with before | now
      · exact .inl before
      · exact .inr (congrArg Prod.fst (List.mem_singleton.mp now))

theorem outcomes_elsewhere (found : service.actors[index]? = some actor)
    {other : Nat} (different : other ≠ index)
    {outcome : Retained × ApiResult (Option AgentHistorySnapshot)} :
    (other, outcome) ∈ outcomes (Mutation.perform config) start
        (ordering service (.act index input) order) ↔
      (other, outcome) ∈ outcomes (Mutation.perform config) start order := by
  rw [ordering_act found]
  cases actor.performs input with
  | none => exact Iff.rfl
  | some mutation => simp [different]

/-- In its own section a call returns what it would alone, or releases the lock with
the history in place that it would report. -/
theorem entered_performs {request : HistoryRequest} {updated : HistoryCall}
    (stepped : (HistoryCall.entered request).step config service.shared =
      some (after, updated)) :
    updated = .returned
        ((Mutation.call request).perform config service.shared.retained).2 ∨
      updated = .reading ∧
        ((Mutation.call request).perform config service.shared.retained).2 =
          report config ((Mutation.call request).perform config
            service.shared.retained).1.history := by
  cases request with
  | append message =>
      cases verdict : validateMessageSequence config.rule
          service.shared.agentHistory message.role with
      | error error =>
          simp only [HistoryCall.step, verdict] at stepped
          cases Option.some.inj stepped
          simp [Mutation.perform, Core.retained, verdict]
      | ok done =>
          simp only [HistoryCall.step, verdict] at stepped
          cases Option.some.inj stepped
          simp [Mutation.perform, Core.retained, verdict]
  | replace messages =>
      cases Option.some.inj stepped
      exact .inr ⟨rfl, rfl⟩
  | _ =>
      cases Option.some.inj stepped
      exact .inl rfl

theorem step_not_entered {call updated : HistoryCall}
    (stepped : call.step config service.shared = some (after, updated))
    (request : HistoryRequest) : updated ≠ .entered request := by
  cases call with
  | entered asked =>
      rcases entered_performs stepped with rfl | ⟨rfl, _⟩
      · simp
      · simp
  | reading =>
      cases Option.some.inj stepped
      simp [HistoryCall.step.read]
  | returned result => cases stepped

theorem Ordered.join (ordered : Ordered config start (service, order))
    {core : Core} {joined : Actor}
    (same : core.retained = service.shared.retained)
    (silent : joined ≠ .history .reading) :
    Ordered config start (service.join core joined, order) where
  retained := same.trans ordered.retained
  known := by
    intro entry listed
    have before : entry.1 < service.actors.length :=
      ordered.known entry listed
    simp only [Crew.join, List.length_append, List.length_singleton]
    omega
  entered := by
    intro index request found mutation listed
    rcases Crew.getElem?_join_origin found with before | ⟨rfl, _⟩
    · exact ordered.entered index request before mutation listed
    · exact absurd (ordered.known _ listed) (Nat.lt_irrefl _)
  reading := by
    intro index found
    rcases Crew.getElem?_join_origin found with before | ⟨_, rfl⟩
    · exact ordered.reading index before
    · exact absurd rfl silent

theorem Ordered.outcomes_own (ordered : Ordered config start (service, order))
    {request : HistoryRequest} {readings : Readings}
    (found : service.actors[index]? = some (.history (.entered request)))
    (outcome : Retained × ApiResult (Option AgentHistorySnapshot)) :
    (index, outcome) ∈ outcomes (Mutation.perform config) start
        (ordering service (.act index (.run readings)) order) ↔
      outcome =
        (Mutation.call request).perform config service.shared.retained := by
  have absent : (index, outcome) ∉
      outcomes (Mutation.perform config) start order := by
    intro listed
    obtain ⟨earlier, mutation, later, rfl, _⟩ := mem_outcomes.mp listed
    exact ordered.entered index request found mutation (by simp)
  have held : service.shared.retained =
      replay (Mutation.perform config) start order := ordered.retained
  rw [ordering_act found]
  simp only [Actor.performs, outcomes_concat, ← held, List.mem_append, absent,
    false_or, List.mem_singleton, Prod.mk.injEq, true_and]

theorem Ordered.turn (ordered : Ordered config start (service, order))
    (found : service.actors[index]? = some actor)
    (turn : Turn config service.shared actor input after updated) :
    Ordered config start (⟨after, service.actors.set index updated⟩,
      ordering service (.act index input) order) where
  retained := by
    have held := ordered.retained
    rw [turn.retained, ordering_act found]
    cases actor.performs input with
    | none => exact held
    | some mutation =>
        rw [replay_concat, ← held]
  known := by
    have inside : index < service.actors.length :=
      (List.getElem?_eq_some_iff.mp found).1
    intro entry listed
    rw [List.length_set]
    rcases mem_ordering_act found listed with before | own
    · exact ordered.known entry before
    · exact own ▸ inside
  entered := by
    intro other request at_ mutation listed
    rcases Crew.getElem?_set_origin at_ with ⟨rfl, rfl⟩ | ⟨different, before⟩
    · cases turn with
      | history stepped => exact absurd rfl (step_not_entered stepped request)
    · rcases mem_ordering_act found listed with earlier | own
      · exact ordered.entered other request before mutation earlier
      · exact absurd own.symm different
  reading := by
    intro other at_
    rcases Crew.getElem?_set_origin at_ with ⟨rfl, rfl⟩ | ⟨different, before⟩
    · cases turn with
      | @history readings call _ _ stepped =>
          cases call with
          | entered request =>
              rcases entered_performs stepped with other | ⟨_, reports⟩
              · cases other
              · refine ⟨((Mutation.call request).perform config
                  service.shared.retained).1, fun outcome => ?_⟩
                rw [ordered.outcomes_own found, ← reports]
          | reading => cases Option.some.inj stepped
          | returned result => cases stepped
    · obtain ⟨left, exactly⟩ := ordered.reading other before
      refine ⟨left, fun outcome => ?_⟩
      rw [outcomes_elsewhere found (Ne.symm different)]
      exact exactly outcome

theorem Ordered.step (ordered : Ordered config start (service, order))
    (stepped : Stepped config service label next) :
    Ordered config start (next, ordering service label order) := by
  cases stepped with
  | turnsAway elsewhere =>
      rw [ordering_elsewhere elsewhere]
      exact ⟨ordered.retained, ordered.known, ordered.entered, ordered.reading⟩
  | @starts start =>
      refine ordered.join ?_ (by simp)
      obtain ⟨counter, turnedAway, -, drawn⟩ := draw_calm service.shared start
      rw [drawn]
      rfl
  | arrives arriving elsewhere =>
      rw [ordering_elsewhere elsewhere]
      refine ordered.join rfl ?_
      cases arriving with
      | _ => simp
  | turn found turn => exact ordered.turn found turn

theorem Reports.join (reports : Reports config start (service, order))
    {core : Core} {joined : Actor}
    (silent : ∀ result, joined ≠ .history (.returned result)) :
    Reports config start (service.join core joined, order) := by
  intro index result found
  rcases Crew.getElem?_join_origin found with before | ⟨_, rfl⟩
  · exact reports index result before
  · exact absurd rfl (silent result)

theorem report_inj {first second : List ChatMessage}
    (same : report config first = report config second) : first = second := by
  have snapshots := Option.some.inj (Except.ok.inj same)
  exact congrArg AgentHistorySnapshot.messages snapshots

theorem Ordered.reads_own (ordered : Ordered config start (service, order))
    (found : service.actors[index]? = some (.history .reading))
    (history : List ChatMessage) :
    (∃ left, (index, (left, report config history)) ∈
      outcomes (Mutation.perform config) start order) ↔
      ∃ entry ∈ outcomes (Mutation.perform config) start order,
        entry.1 = index ∧ entry.2.1.history = history := by
  obtain ⟨left, exactly⟩ := ordered.reading index found
  constructor
  · rintro ⟨other, listed⟩
    have same := (Prod.mk.inj ((exactly _).mp listed)).2
    exact ⟨(index, (left, report config left.history)), (exactly _).mpr rfl, rfl,
      (report_inj same).symm⟩
  · rintro ⟨⟨_, outcome⟩, listed, rfl, rfl⟩
    obtain rfl := (exactly outcome).mp listed
    exact ⟨left, listed⟩

/-- A turn keeps what is reported exactly if it is not the disturbed reading of a
call. -/
theorem Reports.turn (ordered : Ordered config start (service, order))
    (reports : Reports config start (service, order))
    (found : service.actors[index]? = some actor)
    (turn : Turn config service.shared actor input after updated) :
    Reports config start (⟨after, service.actors.set index updated⟩,
        ordering service (.act index input) order) ↔
      Uninterrupted config start (service, order) (.act index input) := by
  have inside : index < service.actors.length :=
    (List.getElem?_eq_some_iff.mp found).1
  have others (own : ∀ result, updated = .history (.returned result) →
      ∃ left, (index, (left, result)) ∈ outcomes (Mutation.perform config) start
        (ordering service (.act index input) order)) :
      Reports config start (⟨after, service.actors.set index updated⟩,
        ordering service (.act index input) order) := by
    intro other result at_
    rcases Crew.getElem?_set_origin at_ with ⟨rfl, rfl⟩ | ⟨different, before⟩
    · exact own result rfl
    · obtain ⟨left, listed⟩ := reports other result before
      exact ⟨left, (outcomes_elsewhere found (Ne.symm different)).mpr listed⟩
  have silent (quiet : ∀ result, updated ≠ .history (.returned result))
      (idle : actor.reads = false) :
      Reports config start (⟨after, service.actors.set index updated⟩,
          ordering service (.act index input) order) ↔
        Uninterrupted config start (service, order) (.act index input) := by
    refine iff_of_true (others fun result same => absurd same (quiet result)) ?_
    cases input with
    | run readings => simp [Uninterrupted, found, idle]
    | _ => trivial
  cases turn with
  | @history readings call updated after stepped =>
      cases call with
      | entered request =>
          refine iff_of_true (others fun result same => ?_)
            (by simp [Uninterrupted, found, Actor.reads])
          cases same
          rcases entered_performs stepped with same | ⟨other, _⟩
          · cases same
            exact ⟨_, (ordered.outcomes_own found _).mpr rfl⟩
          · cases other
      | reading =>
          cases Option.some.inj stepped
          have unchanged : ordering service (.act index (.run readings)) order =
              order := ordering_act found
          have truthful := ordered.reads_own found service.shared.agentHistory
          rw [unchanged] at others ⊢
          constructor
          · intro kept _
            refine truthful.mp (kept index _ ?_)
            exact List.getElem?_set_self inside
          · intro uninterrupted
            have left := uninterrupted (by simp [found, Actor.reads])
            refine others fun result returned => ?_
            cases returned
            exact truthful.mpr left
      | returned result => cases stepped
  | _ => exact silent (by simp) rfl

theorem Reports.step (ordered : Ordered config start (service, order))
    (reports : Reports config start (service, order))
    (stepped : Stepped config service label next) :
    Reports config start (next, ordering service label order) ↔
      Uninterrupted config start (service, order) label := by
  have elsewhere {joined : ChatService}
      (kept : Reports config start (joined, order))
      (elsewhere : ∀ index input, label ≠ .act index input) :
      Reports config start (joined, ordering service label order) ↔
        Uninterrupted config start (service, order) label := by
    rw [ordering_elsewhere elsewhere]
    refine iff_of_true kept ?_
    cases label with
    | act index input => exact absurd rfl (elsewhere index input)
    | _ => trivial
  cases stepped with
  | turnsAway other => exact elsewhere reports other
  | starts => exact elsewhere (reports.join (by simp)) (by simp)
  | arrives arriving other =>
      refine elsewhere (reports.join fun result => ?_) other
      cases arriving with
      | _ => simp
  | turn found turn => exact reports.turn ordered found turn

/-- A call reads what it left if no other one has come in between. -/
theorem Ordered.uninterrupted {mutation : Mutation}
    (ordered : Ordered config start (service, order ++ [(index, mutation)])) :
    Uninterrupted config start (service, order ++ [(index, mutation)])
      (.act index input) := by
  cases input with
  | run readings =>
      intro _
      have held : service.shared.retained =
          (mutation.perform config (replay (Mutation.perform config) start
            order)).1 := by
        rw [← replay_concat]
        exact ordered.retained
      refine ⟨(index, mutation.perform config
        (replay (Mutation.perform config) start order)), ?_, rfl, ?_⟩
      · simp
      · exact (congrArg Retained.history held).symm
  | _ => trivial

end Steps

section Runs

variable {config : Configuration} {prompt : StdString}

theorem initialService_reports :
    Ordered config (initialService prompt).shared.retained
        (initialService prompt, []) ∧
      Reports config (initialService prompt).shared.retained
        (initialService prompt, []) := by
  refine ⟨⟨rfl, by simp, ?_, ?_⟩, ?_⟩
  · simp [initialService]
  · simp [initialService]
  · simp [Reports, initialService]

/-- In the order in which they get at the history the calls report all the way what
they would one at a time, exactly if each one that takes the lock again to read finds
there what it left. -/
theorem reports_own_effect {schedule : List Label} {service : ChatService}
    (ran : run (step config) (initialService prompt) schedule = some service) :
    (∀ earlier noted, earlier <+: schedule →
      run (noting (step config) ordering) (initialService prompt, []) earlier =
        some noted →
      Reports config (initialService prompt).shared.retained noted) ↔
      Respects (noting (step config) ordering)
        (Uninterrupted config (initialService prompt).shared.retained)
        (initialService prompt, []) schedule := by
  have kept {state next : ChatService × List (Nat × Mutation)} {label : Label}
      (_ : True)
      (ordered : Ordered config (initialService prompt).shared.retained state)
      (stepped : noting (step config) ordering state label = some next) :
      Ordered config (initialService prompt).shared.retained next := by
    obtain ⟨state, order⟩ := state
    obtain ⟨next, after⟩ := next
    obtain ⟨taken, rfl⟩ := noting_eq_some.mp stepped
    exact ordered.step (step_stepped taken)
  have exactly {state next : ChatService × List (Nat × Mutation)} {label : Label}
      (ordered : Ordered config (initialService prompt).shared.retained state)
      (reports : Reports config (initialService prompt).shared.retained state)
      (stepped : noting (step config) ordering state label = some next) :
      Reports config (initialService prompt).shared.retained next ↔
        Uninterrupted config (initialService prompt).shared.retained state
          label := by
    obtain ⟨state, order⟩ := state
    obtain ⟨next, after⟩ := next
    obtain ⟨taken, rfl⟩ := noting_eq_some.mp stepped
    exact reports.step ordered (step_stepped taken)
  obtain ⟨noted, taken, -⟩ := Option.map_eq_some_iff.mp
    ((run_noting (initialService prompt) [] schedule).trans ran)
  exact respects_iff kept exactly (fun _ _ => trivial)
    initialService_reports.1 initialService_reports.2 taken

/-! A replacement and an append, each of which reads before the next section. -/

def sampleReports : List Label :=
  [.agentHistory true (.replace [.user (literal "a")]), .act 0 (.run ⟨0, 0, []⟩),
    .act 0 (.run ⟨0, 0, []⟩),
    .agentHistory true (.append (.assistant (literal "b"))),
    .act 1 (.run ⟨0, 0, []⟩), .act 1 (.run ⟨0, 0, []⟩)]

theorem reports_own_effect_sample :
    ∃ noted, run (noting (step sampleConfig) ordering) (initialService [], [])
        sampleReports = some noted ∧
      Reports sampleConfig (initialService []).shared.retained noted := by
  have ran : run (step sampleConfig) (initialService []) sampleReports =
      some (sampleRun sampleReports) := sampleRun_ran (by decide +kernel)
  obtain ⟨noted, taken, -⟩ := Option.map_eq_some_iff.mp
    ((run_noting (initialService []) [] sampleReports).trans ran)
  exact ⟨noted, taken, (reports_own_effect ran).mpr (by decide +kernel)
    sampleReports noted List.prefix_rfl taken⟩

/-! Two replacements, of which the first reads what the second has put in place. -/

def sampleOvertaken : List Label :=
  [.agentHistory true (.replace [.user (literal "a")]),
    .agentHistory true (.replace [.user (literal "b")]), .act 0 (.run ⟨0, 0, []⟩),
    .act 1 (.run ⟨0, 0, []⟩), .act 0 (.run ⟨0, 0, []⟩)]

theorem replace_reports_another :
    ∃ service result,
      run (step sampleConfig) (initialService []) sampleOvertaken =
        some service ∧
      service.actors[0]? = some (.history (.returned result)) ∧
      ∀ retained, ((Mutation.call (.replace [.user (literal "a")])).perform
        sampleConfig retained).2 ≠ result := by
  refine ⟨sampleRun sampleOvertaken, report sampleConfig [.user (literal "b")],
    sampleRun_ran (by decide +kernel), rfl, fun retained same => ?_⟩
  have messages : [ChatMessage.user (literal "a")] = [.user (literal "b")] :=
    report_inj same
  exact absurd messages (by decide +kernel)

end Runs

end ZooKeeperServer.Service
