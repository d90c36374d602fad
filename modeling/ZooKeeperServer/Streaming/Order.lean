import ZooKeeperServer.Streaming.System

namespace ZooKeeperServer.Streaming

open Transition

/-! The tokens of a stream, in the order in which they become frames. -/

section Tokens

variable {Reply : Type} (format : Format Reply)

/-- The frames that pushing the tokens one after the other makes. -/
def Format.tokens : Header → List StdString →
    Except StdException (Header × List StdString)
  | header, [] => .ok (header, [])
  | header, token :: rest =>
      match format.token header token with
      | .error error => .error error
      | .ok (next, frame) =>
          (Format.tokens next rest).map fun (final, frames) =>
            (final, frame :: frames)

theorem Format.tokens_concat {format : Format Reply}
    {header middle final : Header} {tokens frames : List StdString}
    {token frame : StdString}
    (pushed : format.tokens header tokens = .ok (middle, frames))
    (last : format.token middle token = .ok (final, frame)) :
    format.tokens header (tokens ++ [token]) =
      .ok (final, frames ++ [frame]) := by
  induction tokens generalizing header frames with
  | nil =>
      cases pushed
      simp [Format.tokens, last, Except.map]
  | cons first rest ih =>
      simp only [Format.tokens] at pushed
      split at pushed
      · contradiction
      · rename_i next firstFrame made
        cases others : format.tokens next rest with
        | error error => simp [others, Except.map] at pushed
        | ok result =>
            obtain ⟨reached, restFrames⟩ := result
            simp only [others, Except.map, Except.ok.injEq, Prod.mk.injEq]
              at pushed
            obtain ⟨rfl, rfl⟩ := pushed
            simp only [List.cons_append, Format.tokens, made, ih others]
            rfl

def inFlight (stack : List (Action Reply)) : List StdString :=
  stack.filterMap fun action =>
    match action with
    | .pushToken token => if token.isEmpty then none else some token
    | _ => none

/-- The tokens that have been passed but are not frames yet, in order. -/
def System.waiting (system : System Reply) : List StdString :=
  system.core.session.pendingTokens ++ inFlight system.handler ++
    inFlight system.agent

/-- Every token passed so far, in order, is one of the frames made or waits. -/
def TokensInOrder
    (frames : List StdString → Except StdException (List StdString))
    (system : System Reply) : Prop :=
  ∃ produced, system.pushed = produced ++ system.waiting ∧
    frames produced = .ok system.core.tokenFrames

end Tokens

section Actions

variable {Reply : Type} {format : Format Reply} {accepts : Nat → Bool}
  {core after : Core} {next : List (Action Reply)}

structure SameTokens (core after : Core) : Prop where
  header : after.session.header = core.session.header
  ready : after.session.metadataReady = core.session.metadataReady
  pending : after.session.pendingTokens = core.session.pendingTokens
  tokenFrames : after.tokenFrames = core.tokenFrames

theorem SameTokens.refl (core : Core) : SameTokens core core :=
  ⟨rfl, rfl, rfl, rfl⟩

theorem SameTokens.trans {last : Core} (first : SameTokens core after)
    (second : SameTokens after last) : SameTokens core last :=
  ⟨second.header.trans first.header, second.ready.trans first.ready,
    second.pending.trans first.pending,
    second.tokenFrames.trans first.tokenFrames⟩

/-- The steps that end a call, after its locked section. -/
def Action.isTail : Action Reply → Bool
  | .close => true
  | .callCancel => true
  | .closeStream => true
  | _ => false

theorem inFlight_tails {stack : List (Action Reply)}
    (tails : ∀ action ∈ stack, action.isTail = true) : inFlight stack = [] := by
  rw [inFlight, List.filterMap_eq_nil_iff]
  intro action member
  have tail := tails action member
  cases action with
  | pushToken token => contradiction
  | _ => rfl

@[simp] theorem inFlight_nil : inFlight ([] : List (Action Reply)) = [] := rfl

@[simp] theorem inFlight_append (first second : List (Action Reply)) :
    inFlight (first ++ second) = inFlight first ++ inFlight second :=
  List.filterMap_append

theorem inFlight_pushes {tokens : List StdString}
    (nonempty : ∀ token ∈ tokens, token.isEmpty = false) :
    inFlight (tokens.map .pushToken : List (Action Reply)) = tokens := by
  induction tokens with
  | nil => rfl
  | cons token rest ih =>
      have others := ih fun other member => nonempty other (by simp [member])
      have here := nonempty token (by simp)
      simp only [List.map_cons, inFlight, List.filterMap_cons, here,
        Bool.false_eq_true, if_false]
      exact congrArg (token :: ·) others

theorem executeDeferred_tail (deferred : DeferredActions) :
    ∀ action ∈ (executeDeferred deferred : List (Action Reply)),
      action.isTail = true := by
  unfold executeDeferred
  split
  · simp [Action.isTail]
  · simp

theorem Pushed.same {frame : StdString} {deferred : DeferredActions}
    (pushed : Pushed frame core deferred after) :
    SameTokens core after ∧ after.frames = core.frames ++ [frame] := by
  cases pushed <;> exact ⟨⟨rfl, rfl, rfl, rfl⟩, rfl⟩

theorem pushFramesLocked_same (accepts : Nat → Bool) (frames : List StdString)
    (core : Core) :
    SameTokens core (pushFramesLocked accepts frames core).2 ∧
      (pushFramesLocked accepts frames core).2.frames =
        core.frames ++ frames := by
  induction frames generalizing core with
  | nil => exact ⟨.refl core, (List.append_nil _).symm⟩
  | cons frame rest ih =>
      obtain ⟨first, made⟩ := (pushFrameLocked_pushed accepts frame core).same
      obtain ⟨others, all⟩ := ih (pushFrameLocked accepts frame core).2
      refine ⟨first.trans others, ?_⟩
      simp only [pushFramesLocked, all, made, List.append_assoc,
        List.singleton_append]

theorem sendBuffered_same (accepts : Nat → Bool) (frames : List StdString)
    (core : Core) :
    SameTokens core (sendBuffered accepts frames core).2 ∧
      (sendBuffered accepts frames core).2.frames = core.frames := by
  induction frames generalizing core with
  | nil => exact ⟨.refl core, rfl⟩
  | cons frame rest ih =>
      cases answer : accepts (core.wire.countP WireEvent.isSend) with
      | true =>
          simp only [sendBuffered, Core.send, answer]
          obtain ⟨others, all⟩ := ih
            { core with wire := core.wire ++ [.send frame true] }
          exact ⟨⟨others.header, others.ready, others.pending,
            others.tokenFrames⟩, all⟩
      | false =>
          simp only [sendBuffered, Core.send, answer]
          exact ⟨⟨rfl, rfl, rfl, rfl⟩, trivial⟩

variable (Reply) in
theorem attachStreamLocked_same (accepts : Nat → Bool) (core : Core) :
    SameTokens core (attachStreamLocked accepts core : List (Action Reply) × Core).2 ∧
      (attachStreamLocked accepts core : List (Action Reply) × Core).2.frames =
        core.frames := by
  obtain ⟨same, frames⟩ := sendBuffered_same accepts core.session.bufferedFrames
    { core with
      session := { core.session with stream := true }
      attached := true }
  exact ⟨⟨same.header, same.ready, same.pending, same.tokenFrames⟩, frames⟩

variable (Reply) in
theorem closeLocked_same (core : Core) :
    SameTokens core (closeLocked core : List (Action Reply) × Core).2 ∧
      (closeLocked core : List (Action Reply) × Core).2.frames =
        core.frames := by
  unfold closeLocked
  split
  · exact ⟨.refl core, rfl⟩
  split
  · exact ⟨⟨rfl, rfl, rfl, rfl⟩, rfl⟩
  · exact ⟨⟨rfl, rfl, rfl, rfl⟩, rfl⟩

/-- The actions that leave tokens and frames alone. -/
def Action.isNeutral : Action Reply → Bool
  | .setCancelCallback => true
  | .attachStream => true
  | action => action.isTail

variable (Reply) in
theorem attachStreamLocked_tails (accepts : Nat → Bool) (core : Core) :
    ∀ action ∈ (attachStreamLocked accepts core : List (Action Reply) × Core).1,
      action.isTail = true := by
  intro action member
  simp only [attachStreamLocked, List.mem_append] at member
  rcases member with member | member
  · split at member
    · obtain rfl := List.mem_singleton.mp member
      rfl
    · contradiction
  · split at member
    · obtain rfl := List.mem_singleton.mp member
      rfl
    · contradiction

variable (Reply) in
theorem closeLocked_tails (core : Core) :
    ∀ action ∈ (closeLocked core : List (Action Reply) × Core).1,
      action.isTail = true := by
  intro action member
  unfold closeLocked at member
  split at member
  · contradiction
  split at member
  · obtain rfl := List.mem_singleton.mp member
    rfl
  · contradiction

theorem exec_neutral {action : Action Reply}
    (executed : action.exec format accepts core = .ok (next, after))
    (neutral : action.isNeutral = true) :
    SameTokens core after ∧ after.frames = core.frames ∧
      ∀ following ∈ next, following.isTail = true := by
  cases action with
  | setMetadata => contradiction
  | pushToken => contradiction
  | finishSuccess => contradiction
  | finishError => contradiction
  | setCancelCallback =>
      cases executed
      exact ⟨⟨rfl, rfl, rfl, rfl⟩, rfl, by simp⟩
  | attachStream =>
      have result := Except.ok.inj executed
      have same := attachStreamLocked_same Reply accepts core
      have tails := attachStreamLocked_tails Reply accepts core
      rw [result] at same tails
      exact ⟨same.1, same.2, tails⟩
  | close =>
      have result := Except.ok.inj executed
      have same := closeLocked_same Reply core
      have tails := closeLocked_tails Reply core
      rw [result] at same tails
      exact ⟨same.1, same.2, tails⟩
  | callCancel =>
      cases executed
      exact ⟨⟨rfl, rfl, rfl, rfl⟩, rfl, by simp⟩
  | closeStream =>
      cases executed
      exact ⟨⟨rfl, rfl, rfl, rfl⟩, rfl, by simp⟩

/-- What a thread may still do while tokens stream. -/
def Action.isQuiet : Action Reply → Bool
  | .pushToken _ => true
  | action => action.isNeutral

theorem Action.quiet_of_tail {action : Action Reply}
    (tail : action.isTail = true) : action.isQuiet = true := by
  cases action with
  | close => rfl
  | callCancel => rfl
  | closeStream => rfl
  | _ => contradiction

theorem Action.quiet_cases {action : Action Reply}
    (quiet : action.isQuiet = true) :
    (∃ token, action = .pushToken token) ∨ action.isNeutral = true := by
  cases action with
  | pushToken token => exact .inl ⟨token, rfl⟩
  | _ => exact .inr quiet

theorem Action.neutral_of_tail {action : Action Reply}
    (tail : action.isTail = true) : action.isNeutral = true := by
  cases action with
  | close => rfl
  | callCancel => rfl
  | closeStream => rfl
  | _ => contradiction

theorem inFlight_push {token : StdString} (rest : List (Action Reply))
    (nonempty : token.isEmpty = false) :
    inFlight (.pushToken token :: rest) = token :: inFlight rest := by
  simp only [inFlight, List.filterMap_cons, nonempty, Bool.false_eq_true,
    if_false]

theorem inFlight_push_empty {token : StdString} (rest : List (Action Reply))
    (empty : token.isEmpty = true) :
    inFlight (.pushToken token :: rest) = inFlight rest := by
  simp only [inFlight, List.filterMap_cons, empty, if_true]

theorem inFlight_neutral {action : Action Reply} (rest : List (Action Reply))
    (neutral : action.isNeutral = true) :
    inFlight (action :: rest) = inFlight rest := by
  cases action with
  | pushToken => contradiction
  | _ => rfl

theorem pushToken_produces {token : StdString}
    (executed : (Action.pushToken token).exec format accepts core =
      .ok (next, after))
    (nonempty : token.isEmpty = false)
    (opened : core.session.metadataReady = true) :
    ∃ frame,
      format.token core.session.header token =
        .ok (after.session.header, frame) ∧
      after.session.metadataReady = core.session.metadataReady ∧
      after.session.pendingTokens = core.session.pendingTokens ∧
      after.tokenFrames = core.tokenFrames ++ [frame] ∧
      after.frames = core.frames ++ [frame] ∧
      ∀ following ∈ next, following.isTail = true := by
  obtain ⟨header, frame, made, rfl, rfl⟩ :=
    pushToken_open executed nonempty opened
  obtain ⟨same, frames⟩ :=
    (pushFrameLocked_pushed accepts frame (core.recordToken header frame)).same
  refine ⟨frame, ?_, same.ready, same.pending, same.tokenFrames, frames, ?_⟩
  · rw [made, same.header]
    rfl
  · intro following member
    rcases List.mem_append.mp member with member | member
    · exact executeDeferred_tail _ following member
    · split at member
      · obtain rfl := List.mem_singleton.mp member
        rfl
      · contradiction

theorem finish_concludes {outcome : Outcome Reply}
    (executed : outcome.action.exec format accepts core = .ok (next, after)) :
    ∃ frames,
      format.conclusion core.session.header outcome =
        .ok (after.session.header, frames) ∧
      after.session.metadataReady = core.session.metadataReady ∧
      after.session.pendingTokens = core.session.pendingTokens ∧
      after.tokenFrames = core.tokenFrames ∧
      after.frames = core.frames ++ frames ∧
      ∀ following ∈ next, following.isTail = true := by
  obtain ⟨header, frames, made, rfl, rfl⟩ := finish_result executed
  obtain ⟨same, all⟩ :=
    pushFramesLocked_same accepts frames (core.setHeader header)
  refine ⟨frames, ?_, same.ready, same.pending, same.tokenFrames, all, ?_⟩
  · rw [made, same.header]
    rfl
  · intro following member
    rcases List.mem_append.mp member with member | member
    · obtain ⟨deferred, _, member⟩ := List.mem_flatMap.mp member
      exact executeDeferred_tail deferred following member
    · obtain rfl := List.mem_singleton.mp member
      rfl

end Actions

section Life

variable {Reply : Type} (format : Format Reply) (metadata : Metadata)

/-- The frames made so far are those of the tokens `produced`. -/
structure Streamed (core : Core) (produced : List StdString) : Prop where
  opened : core.session.metadataReady = true
  drained : core.session.pendingTokens = []
  frames : core.frames = core.tokenFrames
  made : format.tokens metadata.header produced =
    .ok (core.session.header, core.tokenFrames)

/-- The phases of the handler, with what agent and handler still have to do in
each of them. -/
inductive Progress (core : Core) (agent handler : List (Action Reply))
    (pushed : List StdString) (aborted : Bool) :
    Option (Outcome Reply) → Prop
  | opening
      (closed : core.session.metadataReady = false)
      (fresh : core.session.header = {})
      (frames : core.frames = [])
      (tokenFrames : core.tokenFrames = [])
      (nonempty : ∀ token ∈ core.session.pendingTokens, token.isEmpty = false)
      (calls : ∀ action ∈ agent, action.isQuiet = true)
      (opens : handler =
        [.setMetadata metadata.completionId metadata.created metadata.modelId,
          .setCancelCallback])
      (order : pushed = core.session.pendingTokens ++ inFlight agent) :
      Progress core agent handler pushed aborted none
  | streaming (produced : List StdString)
      (streamed : Streamed format metadata core produced)
      (calls : ∀ action ∈ agent, action.isQuiet = true)
      (replays : ∀ action ∈ handler, action.isQuiet = true)
      (order : pushed = produced ++ inFlight handler ++ inFlight agent) :
      Progress core agent handler pushed aborted none
  | finishing (outcome : Outcome Reply)
      (streamed : Streamed format metadata core pushed)
      (idle : agent = [])
      (finishes : handler = [outcome.action]) :
      Progress core agent handler pushed aborted (some outcome)
  | concluded (outcome : Outcome Reply) (header : Header)
      (frames : List StdString)
      (drained : core.session.pendingTokens = [])
      (idle : agent = [])
      (tails : ∀ action ∈ handler, action.isTail = true)
      (made : format.tokens metadata.header pushed =
        .ok (header, core.tokenFrames))
      (ended : format.conclusion header outcome =
        .ok (core.session.header, frames))
      (all : core.frames = core.tokenFrames ++ frames) :
      Progress core agent handler pushed aborted (some outcome)
  | failed (outcome : Outcome Reply) (error : StdException)
      (streamed : Streamed format metadata core pushed)
      (idle : agent = [])
      (stopped : handler = [])
      (raised : format.conclusion core.session.header outcome = .error error)
      (aborts : aborted = true) :
      Progress core agent handler pushed aborted (some outcome)

end Life

section Steps

variable {Reply : Type} {format : Format Reply} {metadata : Metadata}
  {accepts : Nat → Bool} {core after : Core}
  {agent handler next rest : List (Action Reply)} {action : Action Reply}
  {pushed produced : List StdString} {aborted : Bool}
  {outcome : Option (Outcome Reply)}

theorem Streamed.same (streamed : Streamed format metadata core produced)
    (same : SameTokens core after) (frames : after.frames = core.frames) :
    Streamed format metadata after produced where
  opened := same.ready.trans streamed.opened
  drained := same.pending.trans streamed.drained
  frames := by rw [frames, same.tokenFrames, streamed.frames]
  made := by rw [same.header, same.tokenFrames, streamed.made]

theorem Progress.same
    (progress : Progress format metadata core agent handler pushed aborted
      outcome)
    (same : SameTokens core after) (frames : after.frames = core.frames) :
    Progress format metadata after agent handler pushed aborted outcome := by
  cases progress with
  | opening closed fresh noFrames noTokens nonempty calls opens order =>
      refine .opening (same.ready.trans closed) (same.header.trans fresh)
        (frames.trans noFrames) (same.tokenFrames.trans noTokens) ?_ calls opens
        ?_
      · rw [same.pending]
        exact nonempty
      · rw [same.pending]
        exact order
  | streaming produced streamed calls replays order =>
      exact .streaming produced (streamed.same same frames) calls replays order
  | finishing outcome streamed idle finishes =>
      exact .finishing outcome (streamed.same same frames) idle finishes
  | concluded outcome header tail drained idle tails made ended all =>
      refine .concluded outcome header tail (same.pending.trans drained) idle
        tails ?_ ?_ ?_
      · rw [same.tokenFrames, made]
      · rw [same.header, ended]
      · rw [frames, same.tokenFrames, all]
  | failed outcome error streamed idle stopped raised aborts =>
      refine .failed outcome error (streamed.same same frames) idle stopped ?_
        aborts
      rw [same.header, raised]

theorem Streamed.push {token : StdString}
    (streamed : Streamed format metadata core produced)
    (executed : (Action.pushToken token).exec format accepts core =
      .ok (next, after))
    (nonempty : token.isEmpty = false) :
    Streamed format metadata after (produced ++ [token]) ∧
      ∀ following ∈ next, following.isTail = true := by
  obtain ⟨frame, made, ready, pending, tokenFrames, frames, tails⟩ :=
    pushToken_produces executed nonempty streamed.opened
  refine ⟨⟨ready.trans streamed.opened, pending.trans streamed.drained, ?_, ?_⟩,
    tails⟩
  · rw [frames, tokenFrames, streamed.frames]
  · rw [tokenFrames]
    exact Format.tokens_concat streamed.made made

theorem quiet_of_tails (tails : ∀ following ∈ next, following.isTail = true)
    (quiet : ∀ following ∈ rest, following.isQuiet = true) :
    ∀ following ∈ next ++ rest, following.isQuiet = true := by
  intro following member
  rcases List.mem_append.mp member with member | member
  · exact following.quiet_of_tail (tails following member)
  · exact quiet following member

variable (rest) in
theorem Streamed.run (streamed : Streamed format metadata core produced)
    (executed : action.exec format accepts core = .ok (next, after))
    (quiet : action.isQuiet = true) :
    (∃ token, action = .pushToken token ∧ token.isEmpty = false ∧
        Streamed format metadata after (produced ++ [token]) ∧
        ∀ following ∈ next, following.isTail = true) ∨
      (inFlight (action :: rest) = inFlight rest ∧
        Streamed format metadata after produced ∧
        ∀ following ∈ next, following.isTail = true) := by
  rcases action.quiet_cases quiet with ⟨token, rfl⟩ | neutral
  · cases nonempty : token.isEmpty with
    | false =>
        obtain ⟨streamed, tails⟩ := streamed.push executed nonempty
        exact .inl ⟨token, rfl, nonempty, streamed, tails⟩
    | true =>
        obtain ⟨rfl, rfl⟩ := pushToken_empty executed nonempty
        exact .inr ⟨inFlight_push_empty rest nonempty, streamed, by simp⟩
  · obtain ⟨same, frames, tails⟩ := exec_neutral executed neutral
    exact .inr ⟨inFlight_neutral rest neutral, streamed.same same frames, tails⟩

theorem Progress.runAgent
    (progress : Progress format metadata core (action :: rest) handler pushed
      aborted outcome)
    (executed : action.exec format accepts core = .ok (next, after))
    (calm : ∀ token, action = .pushToken token → token.isEmpty = false →
      core.session.metadataReady = true → inFlight handler = []) :
    Progress format metadata after (next ++ rest) handler pushed aborted
      outcome := by
  cases progress with
  | finishing outcome streamed idle => contradiction
  | concluded outcome header frames drained idle => contradiction
  | failed outcome error streamed idle => contradiction
  | streaming produced streamed calls replays order =>
      have others : ∀ following ∈ rest, following.isQuiet = true :=
        fun following member => calls following (List.mem_cons_of_mem _ member)
      rcases streamed.run rest executed (calls action (by simp)) with
        ⟨token, rfl, nonempty, grown, tails⟩ | ⟨skipped, streamed, tails⟩
      · have replayed := calm token rfl nonempty streamed.opened
        refine .streaming (produced ++ [token]) grown
          (quiet_of_tails tails others) replays ?_
        simpa [replayed, inFlight_push rest nonempty, inFlight_tails tails]
          using order
      · refine .streaming produced streamed (quiet_of_tails tails others) replays
          ?_
        simpa [skipped, inFlight_tails tails] using order
  | opening closed fresh frames tokenFrames nonempty calls opens order =>
      have others : ∀ following ∈ rest, following.isQuiet = true :=
        fun following member => calls following (List.mem_cons_of_mem _ member)
      rcases action.quiet_cases (calls action (by simp)) with
        ⟨token, rfl⟩ | neutral
      · cases empty : token.isEmpty with
        | true =>
            obtain ⟨rfl, rfl⟩ := pushToken_empty executed empty
            refine .opening closed fresh frames tokenFrames nonempty others
              opens ?_
            rw [order, inFlight_push_empty rest empty]
            rfl
        | false =>
            obtain ⟨rfl, rfl⟩ := pushToken_closed executed empty closed
            refine .opening closed fresh frames tokenFrames ?_ others opens ?_
            · intro other member
              rcases List.mem_append.mp member with member | member
              · exact nonempty other member
              · obtain rfl := List.mem_singleton.mp member
                exact empty
            · rw [order, inFlight_push rest empty]
              simp
      · obtain ⟨same, sameFrames, tails⟩ := exec_neutral executed neutral
        refine Progress.same (.opening closed fresh frames tokenFrames nonempty
          (quiet_of_tails tails others) opens ?_) same sameFrames
        rw [order, inFlight_neutral rest neutral, inFlight_append,
          inFlight_tails tails, List.nil_append]

theorem Progress.runHandler
    (progress : Progress format metadata core agent (action :: rest) pushed
      aborted outcome)
    (executed : action.exec format accepts core = .ok (next, after)) :
    Progress format metadata after agent (next ++ rest) pushed aborted
      outcome := by
  cases progress with
  | failed outcome error streamed idle stopped => contradiction
  | opening closed fresh frames tokenFrames nonempty calls opens order =>
      obtain ⟨rfl, rfl⟩ := List.cons.inj opens
      cases executed
      refine .streaming [] ⟨rfl, rfl, ?_, ?_⟩ calls ?_ ?_
      · exact frames.trans tokenFrames.symm
      · simp [Format.tokens, fresh, tokenFrames, Metadata.header]
      · intro action member
        rcases List.mem_append.mp member with member | member
        · obtain ⟨token, _, rfl⟩ := List.mem_map.mp member
          rfl
        · obtain rfl := List.mem_singleton.mp member
          rfl
      · rw [order, inFlight_append, inFlight_pushes nonempty]
        simp [inFlight]
  | streaming produced streamed calls replays order =>
      have others : ∀ following ∈ rest, following.isQuiet = true :=
        fun following member => replays following (List.mem_cons_of_mem _ member)
      rcases streamed.run rest executed (replays action (by simp)) with
        ⟨token, rfl, nonempty, streamed, tails⟩ | ⟨skipped, streamed, tails⟩
      · refine .streaming (produced ++ [token]) streamed calls
          (quiet_of_tails tails others) ?_
        simpa [inFlight_push rest nonempty, inFlight_tails tails] using order
      · refine .streaming produced streamed calls (quiet_of_tails tails others)
          ?_
        simpa [skipped, inFlight_tails tails] using order
  | finishing outcome streamed idle finishes =>
      obtain ⟨rfl, rfl⟩ := List.cons.inj finishes
      obtain ⟨frames, ended, ready, pending, tokenFrames, all, tails⟩ :=
        finish_concludes executed
      refine .concluded outcome core.session.header frames
        (pending.trans streamed.drained) idle ?_ ?_ ended ?_
      · simpa using tails
      · rw [tokenFrames, streamed.made]
      · rw [all, streamed.frames, tokenFrames]
  | concluded outcome header frames drained idle tails made ended all =>
      have neutral := action.neutral_of_tail (tails action (by simp))
      obtain ⟨same, sameFrames, following⟩ := exec_neutral executed neutral
      refine Progress.same (.concluded outcome header frames drained idle ?_ made
        ended all) same sameFrames
      intro other member
      rcases List.mem_append.mp member with member | member
      · exact following other member
      · exact tails other (List.mem_cons_of_mem _ member)

theorem Progress.token
    (progress : Progress format metadata core [] handler pushed aborted none)
    (token : StdString) :
    Progress format metadata core [.pushToken token] handler
      (pushed ++ (if token.isEmpty then [] else [token])) aborted none := by
  have passed : inFlight ([.pushToken token] : List (Action Reply)) =
      (if token.isEmpty then [] else [token]) := by
    cases empty : token.isEmpty with
    | true => exact inFlight_push_empty [] empty
    | false => exact inFlight_push [] empty
  have call : ∀ action ∈ [(.pushToken token : Action Reply)],
      action.isQuiet = true := by
    intro action member
    obtain rfl := List.mem_singleton.mp member
    rfl
  cases progress with
  | opening closed fresh frames tokenFrames nonempty calls opens order =>
      refine .opening closed fresh frames tokenFrames nonempty call opens ?_
      rw [order, ← passed]
      simp [inFlight]
  | streaming produced streamed calls replays order =>
      refine .streaming produced streamed call replays ?_
      rw [order, ← passed]
      simp [inFlight]

theorem Progress.finish
    (progress : Progress format metadata core [] [] pushed aborted none)
    (outcome : Outcome Reply) :
    Progress format metadata core [] [outcome.action] pushed aborted
      (some outcome) := by
  cases progress with
  | opening closed fresh frames tokenFrames nonempty calls opens =>
      contradiction
  | streaming produced streamed calls replays order =>
      have all : pushed = produced := by simpa [inFlight] using order
      exact .finishing outcome (all ▸ streamed) rfl rfl

theorem Outcome.action_not_quiet (outcome : Outcome Reply) :
    outcome.action.isQuiet = false := by
  cases outcome with
  | success response => rfl
  | failure error => rfl

theorem Outcome.action_injective {first second : Outcome Reply}
    (same : first.action = second.action) : first = second := by
  cases first with
  | success response =>
      cases second with
      | success other => cases same; rfl
      | failure error => contradiction
  | failure error =>
      cases second with
      | success response => contradiction
      | failure other => cases same; rfl

theorem Progress.finishFails {outcome : Option (Outcome Reply)}
    {reported : Outcome Reply} {error : StdException}
    (progress : Progress format metadata core agent
      (reported.action :: rest) pushed aborted outcome)
    (raised : format.conclusion core.session.header reported =
      .error error) :
    Progress format metadata core agent [] pushed true outcome := by
  have notQuiet := reported.action_not_quiet
  cases progress with
  | opening closed fresh frames tokenFrames nonempty calls opens =>
      cases reported <;> cases opens
  | streaming produced streamed calls replays =>
      have quiet := replays _ (List.mem_cons_self ..)
      rw [notQuiet] at quiet
      contradiction
  | finishing finished streamed idle finishes =>
      obtain ⟨same, _⟩ := List.cons.inj finishes
      obtain rfl := Outcome.action_injective same
      exact .failed reported error streamed idle rfl raised rfl
  | concluded finished header frames drained idle tails =>
      have quiet := Action.quiet_of_tail (tails _ (List.mem_cons_self ..))
      rw [notQuiet] at quiet
      contradiction
  | failed finished other streamed idle stopped => contradiction

theorem Progress.agentQuiet
    (progress : Progress format metadata core agent handler pushed aborted
      outcome) :
    ∀ action ∈ agent, action.isQuiet = true := by
  cases progress with
  | opening closed fresh frames tokenFrames nonempty calls => exact calls
  | streaming produced streamed calls => exact calls
  | finishing outcome streamed idle => simp [idle]
  | concluded outcome header frames drained idle => simp [idle]
  | failed outcome error streamed idle => simp [idle]

end Steps

section Runs

variable {Reply : Type} {format : Format Reply} {accepts : Nat → Bool}
  {metadata : Metadata} {system next : System Reply} {label : Label Reply}

structure Ordered (format : Format Reply) (metadata : Metadata)
    (system : System Reply) : Prop where
  progress : Progress format metadata system.core system.agent system.handler
    system.pushed system.aborted system.outcome
  transport : ∀ action ∈ system.transport, action.isNeutral = true
  disconnect : ∀ action ∈ system.disconnect, action.isTail = true

theorem Ordered.atStart (format : Format Reply) (metadata : Metadata) :
    Ordered format metadata (initial metadata) where
  progress := .opening rfl rfl rfl rfl (by simp [initial])
    (by simp [initial]) rfl rfl
  transport := by simp [initial]
  disconnect := by simp [initial]

theorem inFlight_of_calm (calm : system.replaying = false) :
    inFlight system.handler = [] := by
  rw [inFlight, List.filterMap_eq_nil_iff]
  intro action member
  cases action with
  | pushToken token =>
      have quiet := List.any_eq_false.mp calm _ member
      contradiction
  | _ => rfl

/-- A step that no live token overtakes and whose token can be serialised. -/
theorem Ordered.advance (ordered : Ordered format metadata system)
    (calm : TokenCalm format system label)
    (stepped : step format accepts system label = some next) :
    Ordered format metadata next := by
  obtain ⟨progress, transport, disconnect⟩ := ordered
  cases step_stepped stepped with
  | token token idle unfinished =>
      rw [idle, unfinished] at progress
      exact ⟨by simpa [unfinished] using progress.token token, transport,
        disconnect⟩
  | finish outcome stopped idle unfinished going =>
      rw [idle, stopped, unfinished] at progress
      exact ⟨by simpa [idle] using progress.finish outcome, transport,
        disconnect⟩
  | attach => exact ⟨progress, by simp [Action.isNeutral], disconnect⟩
  | disconnect => exact ⟨progress, transport, by simp [Action.isTail]⟩
  | run party stack executed =>
      cases party with
      | agent =>
          refine ⟨?_, transport, disconnect⟩
          rw [show system.agent = _ from stack] at progress
          refine progress.runAgent executed ?_
          rintro token rfl nonempty opened
          refine inFlight_of_calm (calm.1 rfl ?_)
          simp only [System.pushesLive, opened, Bool.true_and,
            show system.agent = _ from stack, nonempty, Bool.not_false]
      | handler =>
          refine ⟨?_, transport, disconnect⟩
          rw [show system.handler = _ from stack] at progress
          exact progress.runHandler executed
      | transport =>
          have attaches : system.transport = _ := stack
          rw [attaches] at transport
          obtain ⟨same, frames, tails⟩ :=
            exec_neutral executed (transport _ (by simp))
          refine ⟨progress.same same frames, ?_, disconnect⟩
          intro action member
          rcases List.mem_append.mp member with member | member
          · exact action.neutral_of_tail (tails action member)
          · exact transport action (List.mem_cons_of_mem _ member)
      | disconnect =>
          have closes : system.disconnect = _ := stack
          rw [closes] at disconnect
          obtain ⟨same, frames, tails⟩ := exec_neutral executed
            (Action.neutral_of_tail (disconnect _ (by simp)))
          refine ⟨progress.same same frames, transport, ?_⟩
          intro action member
          rcases List.mem_append.mp member with member | member
          · exact tails action member
          · exact disconnect action (List.mem_cons_of_mem _ member)
  | abort party stack failed =>
      rcases exec_error failed with
        ⟨token, rfl, nonempty, opened, raised⟩ | ⟨outcome, rfl, raised⟩
      · have serialised := calm.2
        simp [System.serialisesToken, stack, nonempty, opened, raised,
          Except.isOk, Except.toBool] at serialised
      have notQuiet := outcome.action_not_quiet
      cases party with
      | agent =>
          have quiet := progress.agentQuiet outcome.action
            (by rw [show system.agent = _ from stack]; simp)
          rw [notQuiet] at quiet
          contradiction
      | handler =>
          rw [show system.handler = _ from stack] at progress
          exact ⟨progress.finishFails raised, transport, disconnect⟩
      | transport =>
          have neutral := transport outcome.action
            (by rw [show system.transport = _ from stack]; simp)
          cases outcome <;> contradiction
      | disconnect =>
          have tail := disconnect outcome.action
            (by rw [show system.disconnect = _ from stack]; simp)
          cases outcome <;> contradiction

theorem Ordered.tokens (ordered : Ordered format metadata system) :
    ∃ produced header, system.pushed = produced ++ system.waiting ∧
      format.tokens metadata.header produced =
        .ok (header, system.core.tokenFrames) := by
  obtain ⟨progress, _, _⟩ := ordered
  unfold System.waiting
  generalize system.outcome = outcome at progress
  cases progress with
  | opening closed fresh frames tokenFrames nonempty calls opens order =>
      refine ⟨[], metadata.header, ?_, by rw [tokenFrames]; rfl⟩
      simpa [opens, inFlight] using order
  | streaming produced streamed calls replays order =>
      refine ⟨produced, _, ?_, streamed.made⟩
      simpa [streamed.drained] using order
  | finishing outcome streamed idle finishes =>
      refine ⟨system.pushed, _, ?_, streamed.made⟩
      have finishing : inFlight [outcome.action] = [] := by
        cases outcome <;> rfl
      simp [streamed.drained, idle, finishes, finishing]
  | concluded outcome header frames drained idle tails made =>
      refine ⟨system.pushed, _, ?_, made⟩
      simp [drained, idle, inFlight_tails tails]
  | failed outcome error streamed idle stopped =>
      refine ⟨system.pushed, _, ?_, streamed.made⟩
      simp [streamed.drained, idle, stopped]

theorem Ordered.reached {schedule : List (Label Reply)}
    (respected : Respects (step format accepts) (TokenCalm format)
      (initial metadata) schedule)
    (reached : run (step format accepts) (initial metadata) schedule =
      some system) : Ordered format metadata system :=
  respected.invariant
    (fun calm ordered stepped => Ordered.advance ordered calm stepped)
    (Ordered.atStart format metadata) reached

end Runs

section Classes

variable (json : JsonLibrary) (metadata : Metadata)

def contentChunks (tokens : List StdString) : List StdString :=
  tokens.map fun token =>
    makeStreamingChunk metadata.completionId metadata.created metadata.modelId
      (some token) none

/-- Content chunks, of which the first carries the role. -/
def contentFrames : List StdString → List StdString
  | [] => []
  | token :: rest =>
      makeFirstStreamingChunk metadata.completionId metadata.created
        metadata.modelId (some token) none :: contentChunks metadata rest

def deltaFrames (tokens : List StdString) :
    Except StdException (List StdString) :=
  tokens.mapM fun token =>
    makeSseData json (Json.objectOf [(literal "delta", .string token)])

/-- The header once a token has been sent. -/
def Metadata.started : Header :=
  { metadata.header with sentRole := true, sentContent := true }

theorem streamingFormat_tokens_started (tokens : List StdString) :
    (streamingFormat json).tokens metadata.started tokens =
      .ok (metadata.started, contentChunks metadata tokens) := by
  induction tokens with
  | nil => rfl
  | cons token rest ih =>
      have made : (streamingFormat json).token metadata.started token =
          .ok (metadata.started, makeStreamingChunk metadata.completionId
            metadata.created metadata.modelId (some token) none) := rfl
      simp only [Format.tokens, made, ih, contentChunks, List.map_cons]
      rfl

theorem streamingFormat_tokens (tokens : List StdString) :
    (streamingFormat json).tokens metadata.header tokens =
      .ok (if tokens.isEmpty then metadata.header else metadata.started,
        contentFrames metadata tokens) := by
  cases tokens with
  | nil => rfl
  | cons token rest =>
      have made : (streamingFormat json).token metadata.header token =
          .ok (metadata.started, makeFirstStreamingChunk metadata.completionId
            metadata.created metadata.modelId (some token) none) := rfl
      simp only [Format.tokens, made, streamingFormat_tokens_started,
        contentFrames]
      rfl

theorem extractionFormat_tokens (header : Header) (tokens : List StdString) :
    (extractionFormat json).tokens header tokens =
      (deltaFrames json tokens).map fun frames => (header, frames) := by
  induction tokens with
  | nil => rfl
  | cons token rest ih =>
      have token_eq : (extractionFormat json).token header token =
          (makeSseData json (Json.objectOf [(literal "delta",
            .string token)])).map fun frame => (header, frame) := rfl
      have frames_eq : deltaFrames json (token :: rest) =
          (makeSseData json (Json.objectOf [(literal "delta",
            .string token)])).bind fun frame =>
              (deltaFrames json rest).map (frame :: ·) := by
        simp only [deltaFrames, List.mapM_cons]
        rfl
      rw [Format.tokens, token_eq, frames_eq]
      cases makeSseData json
          (Json.objectOf [(literal "delta", .string token)]) with
      | error error => rfl
      | ok frame =>
          simp only [Except.map, Except.bind, ih]
          cases deltaFrames json rest with
          | error error => rfl
          | ok frames => rfl

theorem extractionFormat_frames {header : Header} {tokens frames : List StdString}
    (made : (extractionFormat json).tokens metadata.header tokens =
      .ok (header, frames)) :
    header = metadata.header ∧ deltaFrames json tokens = .ok frames := by
  rw [extractionFormat_tokens] at made
  cases deltas : deltaFrames json tokens with
  | error error =>
      rw [deltas] at made
      contradiction
  | ok held =>
      rw [deltas] at made
      cases made
      exact ⟨rfl, rfl⟩

/-- No live token overtaking the replay of `set_metadata`, the frames that
`push_token` makes carry the tokens in the order they were passed, each once. -/
theorem tokens_in_order (accepts : Nat → Bool) :
    (∀ schedule system,
      Respects (step (streamingFormat json) accepts)
        (TokenCalm (streamingFormat json)) (initial metadata) schedule →
      run (step (streamingFormat json) accepts) (initial metadata) schedule =
        some system →
      TokensInOrder (fun tokens => .ok (contentFrames metadata tokens))
        system) ∧
    ∀ schedule system,
      Respects (step (extractionFormat json) accepts)
        (TokenCalm (extractionFormat json)) (initial metadata) schedule →
      run (step (extractionFormat json) accepts) (initial metadata) schedule =
        some system →
      TokensInOrder (deltaFrames json) system := by
  constructor
  · intro schedule system respected reached
    obtain ⟨produced, header, order, made⟩ :=
      (Ordered.reached respected reached).tokens
    refine ⟨produced, order, ?_⟩
    rw [streamingFormat_tokens] at made
    exact congrArg (Except.map Prod.snd) made
  · intro schedule system respected reached
    obtain ⟨produced, header, order, made⟩ :=
      (Ordered.reached respected reached).tokens
    exact ⟨produced, order, (extractionFormat_frames json metadata made).2⟩

end Classes

/-! The gate opens before the tokens that waited behind it are frames. -/

def sampleMetadata : Metadata := ⟨literal "chatcmpl-1", 0, literal "m"⟩

/-- One token waits at the gate, another comes once it is open, and the handler
is only then scheduled to replay the first. -/
def overtaking {Reply : Type} : List (Label Reply) :=
  [.token (literal "a"), .run .agent, .run .handler, .token (literal "b"),
    .run .agent, .run .handler]

set_option maxRecDepth 4000 in
theorem tokens_overtaken :
    ¬ ((∀ schedule system,
        run (step (streamingFormat asciiJson) fun _ => true)
          (initial sampleMetadata) schedule = some system →
        TokensInOrder
          (fun tokens => .ok (contentFrames sampleMetadata tokens)) system) ∧
      ∀ schedule system,
        run (step (extractionFormat asciiJson) fun _ => true)
          (initial sampleMetadata) schedule = some system →
        TokensInOrder (deltaFrames asciiJson) system) := by
  rintro ⟨claimed, _⟩
  obtain ⟨produced, order, made⟩ := claimed overtaking _ rfl
  have all : [literal "a", literal "b"] = produced ++ [] := order
  rw [List.append_nil] at all
  subst all
  have swapped : contentFrames sampleMetadata [literal "a", literal "b"] =
      [makeFirstStreamingChunk (literal "chatcmpl-1") 0 (literal "m")
          (some (literal "b")) none,
        makeStreamingChunk (literal "chatcmpl-1") 0 (literal "m")
          (some (literal "a")) none] := Except.ok.inj made
  exact absurd swapped (by decide)

/-- One token waits at the gate and is replayed, the next comes after that. -/
def replayedFirst {Reply : Type} : List (Label Reply) :=
  [.token (literal "a"), .run .agent, .run .handler, .run .handler,
    .token (literal "b"), .run .agent]

theorem tokens_in_order_sample :
    (∃ system, run (step (streamingFormat asciiJson) fun _ => true)
        (initial sampleMetadata) replayedFirst = some system ∧
      TokensInOrder (fun tokens => .ok (contentFrames sampleMetadata tokens))
        system) ∧
    ∃ system, run (step (extractionFormat asciiJson) fun _ => true)
        (initial sampleMetadata) replayedFirst = some system ∧
      TokensInOrder (deltaFrames asciiJson) system := by
  have ordered := tokens_in_order asciiJson sampleMetadata fun _ => true
  refine ⟨⟨_, rfl, ordered.1 replayedFirst _ ?_ rfl⟩,
    ⟨_, rfl, ordered.2 replayedFirst _ ?_ rfl⟩⟩
  · decide
  · decide

end ZooKeeperServer.Streaming
