import ZooKeeperServer.Streaming.Order

namespace ZooKeeperServer.Streaming

open Transition

/-! What a session delivers: the frames it sends are the first of the frames it
was asked to push, and nothing follows a failed send or a closed stream. -/

def WireEvent.sent : WireEvent → Option StdString
  | .send frame _ => some frame
  | _ => none

def WireEvent.ends : WireEvent → Bool
  | .send _ accepted => !accepted
  | .close => true
  | .cancel => false

def Core.sent (core : Core) : List StdString :=
  core.wire.filterMap WireEvent.sent

def Core.failed (core : Core) : Prop :=
  ∃ frame, WireEvent.send frame false ∈ core.wire

theorem Core.not_failed {core : Core}
    (accepted : core.wire.countP (fun event => event.isSend && event.ends) = 0) :
    ¬ core.failed := by
  rintro ⟨frame, member⟩
  exact List.countP_eq_zero.mp accepted _ member rfl

/-- Nothing is sent after a failed send or on a closed stream. -/
def SilentOnceEnded (wire : List WireEvent) : Prop :=
  wire.Pairwise fun earlier later =>
    earlier.ends = true → later.isSend = false

structure Orderly (core : Core) : Prop where
  unattached : core.attached = false →
    core.session.stream = false ∧ core.sent = []
  attached : core.attached = true → core.session.bufferedFrames = []
  ended : ∀ event ∈ core.wire, event.ends = true →
    core.session.closing = true ∧ core.attached = true
  silent : SilentOnceEnded core.wire
  handled : core.sent ++ core.session.bufferedFrames <+: core.frames
  opened : core.session.closing = false →
    (core.attached = true → core.session.stream = true) ∧
      core.sent ++ core.session.bufferedFrames = core.frames

/-- Every frame is sent or will be once the stream is attached. -/
def Core.complete (core : Core) : Prop :=
  core.sent ++ core.session.bufferedFrames = core.frames

section Wire

theorem SilentOnceEnded.concat {wire : List WireEvent} {event : WireEvent}
    (silent : SilentOnceEnded wire)
    (allowed : event.isSend = true →
      ∀ earlier ∈ wire, earlier.ends = false) :
    SilentOnceEnded (wire ++ [event]) := by
  refine List.pairwise_append.mpr ⟨silent, List.pairwise_singleton .., ?_⟩
  intro earlier member later last ended
  obtain rfl := List.mem_singleton.mp last
  cases sends : later.isSend with
  | false => rfl
  | true =>
      rw [allowed sends earlier member] at ended
      contradiction

theorem silent_of_no_end {wire : List WireEvent}
    (going : ∀ event ∈ wire, event.ends = false) : SilentOnceEnded wire := by
  refine List.Pairwise.imp_of_mem ?_ (List.pairwise_of_forall (fun _ _ => trivial))
  intro earlier later member _ _ ended
  rw [going earlier member] at ended
  contradiction

end Wire

section Moves

variable {Reply : Type} {format : Format Reply} {accepts : Nat → Bool}
  {core after : Core} {next : List (Action Reply)}

theorem Core.sent_append (core : Core) (events : List WireEvent) :
    Core.sent { core with wire := core.wire ++ events } =
      core.sent ++ events.filterMap WireEvent.sent :=
  List.filterMap_append

theorem Orderly.going (orderly : Orderly core)
    (opened : core.session.closing = false) :
    ∀ event ∈ core.wire, event.ends = false := by
  intro event member
  cases ends : event.ends with
  | false => rfl
  | true =>
      have closing := (orderly.ended event member ends).1
      rw [opened] at closing
      contradiction

theorem Orderly.attached_of_stream (orderly : Orderly core)
    (stream : core.session.stream = true) : core.attached = true := by
  cases attached : core.attached with
  | true => rfl
  | false =>
      have absent := (orderly.unattached attached).1
      rw [stream] at absent
      contradiction

theorem Orderly.unattached_of_open (orderly : Orderly core)
    (opened : core.session.closing = false)
    (absent : core.session.stream = false) : core.attached = false := by
  cases attached : core.attached with
  | false => rfl
  | true =>
      have stream := (orderly.opened opened).1 attached
      rw [absent] at stream
      contradiction

theorem Orderly.send (orderly : Orderly core)
    (opened : core.session.closing = false)
    (stream : core.session.stream = true) (frame : StdString)
    (accepted : Bool) :
    Orderly { core with
      frames := core.frames ++ [frame]
      wire := core.wire ++ [.send frame accepted]
      session := { core.session with closing := !accepted } } := by
  have attached := orderly.attached_of_stream stream
  have going := orderly.going opened
  have drained := orderly.attached attached
  have all : core.sent = core.frames := by
    simpa [drained] using (orderly.opened opened).2
  refine ⟨?_, ?_, ?_, ?_, ?_, ?_⟩
  · intro unattached
    rw [attached] at unattached
    contradiction
  · exact fun _ => drained
  · intro event member ends
    rcases List.mem_append.mp member with member | member
    · rw [going event member] at ends
      contradiction
    · obtain rfl := List.mem_singleton.mp member
      exact ⟨ends, attached⟩
  · exact orderly.silent.concat fun _ => going
  · simp [Core.sent, WireEvent.sent, drained, ← all]
  · intro _
    exact ⟨fun _ => stream, by simp [Core.sent, WireEvent.sent, drained, ← all]⟩

theorem Pushed.orderly {frame : StdString} {deferred : DeferredActions}
    (pushed : Pushed frame core deferred after) (orderly : Orderly core) :
    Orderly after := by
  cases pushed with
  | dropped closing =>
      refine ⟨orderly.unattached, orderly.attached, orderly.ended,
        orderly.silent, ?_, ?_⟩
      · exact orderly.handled.trans (List.prefix_append _ _)
      · intro opened
        rw [show core.session.closing = false from opened] at closing
        contradiction
  | buffered opened unattached =>
      have absent := orderly.unattached_of_open opened unattached
      have all := (orderly.opened opened).2
      refine ⟨orderly.unattached, ?_, orderly.ended, orderly.silent, ?_, ?_⟩
      · intro attached
        rw [show core.attached = true from attached] at absent
        contradiction
      · rw [← all, List.append_assoc]
        exact List.prefix_refl _
      · intro _
        exact ⟨(orderly.opened opened).1, by rw [← all, List.append_assoc]; rfl⟩
  | sent opened stream =>
      have sent := orderly.send opened stream frame true
      rw [show (!true) = core.session.closing by rw [opened]; rfl] at sent
      exact sent
  | refused opened stream => exact orderly.send opened stream frame false

/-- What holds of a session and survives every push survives them all. -/
theorem pushFramesLocked_rule (accepts : Nat → Bool) (Holds : Core → Prop)
    (preserved : ∀ {frame before deferred pushed},
      Pushed frame before deferred pushed → Holds before → Holds pushed)
    (frames : List StdString) (core : Core) (initially : Holds core) :
    Holds (pushFramesLocked accepts frames core).2 := by
  induction frames generalizing core with
  | nil => exact initially
  | cons frame rest ih =>
      exact ih _ (preserved (pushFrameLocked_pushed accepts frame core) initially)

theorem Orderly.setHeader (orderly : Orderly core) (header : Header) :
    Orderly (core.setHeader header) :=
  ⟨orderly.unattached, orderly.attached, orderly.ended, orderly.silent,
    orderly.handled, orderly.opened⟩

theorem Orderly.recordToken (orderly : Orderly core) (header : Header)
    (frame : StdString) : Orderly (core.recordToken header frame) :=
  ⟨orderly.unattached, orderly.attached, orderly.ended, orderly.silent,
    orderly.handled, orderly.opened⟩

theorem sendBuffered_result (accepts : Nat → Bool) (frames : List StdString)
    (core : Core) :
    sendBuffered accepts frames core =
        (false, { core with
          wire := core.wire ++ frames.map (WireEvent.send · true) }) ∨
      ∃ accepted frame rest, frames = accepted ++ frame :: rest ∧
        sendBuffered accepts frames core =
          (true, { core with
            wire := core.wire ++
              (accepted.map (WireEvent.send · true) ++ [.send frame false])
            session := { core.session with closing := true } }) := by
  induction frames generalizing core with
  | nil => exact .inl (by simp [sendBuffered])
  | cons frame rest ih =>
      cases answer : accepts (core.wire.countP WireEvent.isSend) with
      | false =>
          refine .inr ⟨[], frame, rest, rfl, ?_⟩
          simp only [sendBuffered, Core.send, answer, List.map_nil,
            List.nil_append]
      | true =>
          simp only [sendBuffered, Core.send, answer]
          rcases ih { core with wire := core.wire ++ [.send frame true] } with
            all | ⟨accepted, refused, others, split, result⟩
          · exact .inl (by rw [all]; simp)
          · refine .inr ⟨frame :: accepted, refused, others, by simp [split], ?_⟩
            rw [result]
            simp

inductive Attached (core : Core) : List (Action Reply) → Core → Prop
  | delivered :
      Attached core (if core.session.closing then [.closeStream] else [])
        { core with
          wire := core.wire ++
            core.session.bufferedFrames.map (WireEvent.send · true)
          session := { core.session with stream := true, bufferedFrames := [] }
          attached := true }
  | refused (accepted : List StdString) (frame : StdString)
      (rest : List StdString)
      (split : core.session.bufferedFrames = accepted ++ frame :: rest) :
      Attached core
        ((if core.session.cancelCallback then [.callCancel] else []) ++
          [.closeStream])
        { core with
          wire := core.wire ++
            (accepted.map (WireEvent.send · true) ++ [.send frame false])
          session := { core.session with
            stream := true, bufferedFrames := [], closing := true }
          attached := true }

variable (Reply) in
theorem attachStreamLocked_attached (accepts : Nat → Bool) (core : Core) :
    Attached core (attachStreamLocked accepts core : List (Action Reply) × _).1
      (attachStreamLocked accepts core : List (Action Reply) × _).2 := by
  obtain ⟨⟨header, ready, stream, buffered, pending, cancel, closing⟩,
    wire, frames, tokenFrames, attached⟩ := core
  unfold attachStreamLocked
  dsimp only
  rcases sendBuffered_result accepts buffered
    ⟨⟨header, ready, true, buffered, pending, cancel, closing⟩, wire, frames,
      tokenFrames, true⟩ with all | ⟨accepted, frame, rest, split, result⟩
  · rw [all]
    exact .delivered
  · rw [result]
    exact .refused accepted frame rest split

theorem sent_accepted (frames : List StdString) :
    (frames.map (WireEvent.send · true)).filterMap WireEvent.sent = frames := by
  rw [List.filterMap_map]
  exact List.filterMap_some

theorem accepted_going (frames : List StdString) :
    ∀ event ∈ frames.map (WireEvent.send · true), event.ends = false := by
  intro event member
  obtain ⟨frame, _, rfl⟩ := List.mem_map.mp member
  rfl

theorem Attached.orderly (attaching : Attached core next after)
    (orderly : Orderly core) (first : core.attached = false) :
    Orderly after := by
  obtain ⟨_, noneSent⟩ := orderly.unattached first
  have going : ∀ event ∈ core.wire, event.ends = false := by
    intro event member
    cases ends : event.ends with
    | false => rfl
    | true =>
        have attached := (orderly.ended event member ends).2
        rw [first] at attached
        contradiction
  have buffered : core.session.bufferedFrames <+: core.frames := by
    simpa [noneSent] using orderly.handled
  cases attaching with
  | delivered =>
      have going' : ∀ event ∈ core.wire ++
          core.session.bufferedFrames.map (WireEvent.send · true),
          event.ends = false := by
        intro event member
        rcases List.mem_append.mp member with member | member
        · exact going event member
        · exact accepted_going _ event member
      have sent := core.sent_append
        (core.session.bufferedFrames.map (WireEvent.send · true))
      rw [sent_accepted, noneSent, List.nil_append] at sent
      refine ⟨nofun, fun _ => rfl, ?_, silent_of_no_end going', ?_, ?_⟩
      · intro event member ends
        rw [going' event member] at ends
        contradiction
      · rw [List.append_nil]
        obtain ⟨rest, frames⟩ := buffered
        exact ⟨rest, (congrArg (· ++ rest) sent).trans frames⟩
      · intro opened
        refine ⟨fun _ => rfl, ?_⟩
        have all := (orderly.opened opened).2
        rw [noneSent, List.nil_append] at all
        rw [List.append_nil]
        exact sent.trans all
  | refused accepted frame rest split =>
      have sent := core.sent_append
        (accepted.map (WireEvent.send · true) ++ [.send frame false])
      rw [List.filterMap_append, sent_accepted, noneSent, List.nil_append]
        at sent
      have split' : core.session.bufferedFrames =
          (accepted ++ [frame]) ++ rest := by simp [split]
      refine ⟨nofun, fun _ => rfl, fun _ _ _ => ⟨rfl, rfl⟩, ?_, ?_, nofun⟩
      · rw [← List.append_assoc]
        refine SilentOnceEnded.concat (silent_of_no_end ?_) fun _ => ?_
        · intro event member
          rcases List.mem_append.mp member with member | member
          · exact going event member
          · exact accepted_going _ event member
        · intro event member
          rcases List.mem_append.mp member with member | member
          · exact going event member
          · exact accepted_going _ event member
      · rw [List.append_nil]
        refine List.IsPrefix.trans ?_ buffered
        rw [split']
        exact sent ▸ List.prefix_append _ _

variable (Reply) in
theorem closeLocked_orderly (orderly : Orderly core) :
    Orderly (closeLocked core : List (Action Reply) × Core).2 := by
  unfold closeLocked
  split
  · exact orderly
  split
  · rename_i stream
    have attached := orderly.attached_of_stream stream
    have drained := orderly.attached attached
    refine ⟨?_, fun _ => rfl, ?_, orderly.silent, ?_, nofun⟩
    · intro unattached
      exact ⟨rfl, (orderly.unattached unattached).2⟩
    · intro event member ends
      exact ⟨rfl, (orderly.ended event member ends).2⟩
    · exact drained ▸ orderly.handled
  · refine ⟨orderly.unattached, orderly.attached, ?_, orderly.silent,
      orderly.handled, nofun⟩
    intro event member ends
    exact ⟨rfl, (orderly.ended event member ends).2⟩

theorem Orderly.note (orderly : Orderly core) {event : WireEvent}
    (silent : event.isSend = false) (unsent : event.sent = none)
    (ending : event.ends = true →
      core.session.closing = true ∧ core.attached = true) :
    Orderly { core with wire := core.wire ++ [event] } := by
  have sent : Core.sent { core with wire := core.wire ++ [event] } =
      core.sent := by
    simp [core.sent_append, unsent]
  refine ⟨?_, orderly.attached, ?_, ?_, ?_, ?_⟩
  · intro unattached
    exact ⟨(orderly.unattached unattached).1,
      sent.trans (orderly.unattached unattached).2⟩
  · intro other member ends
    rcases List.mem_append.mp member with member | member
    · exact orderly.ended other member ends
    · obtain rfl := List.mem_singleton.mp member
      exact ending ends
  · refine orderly.silent.concat fun sends => ?_
    rw [silent] at sends
    contradiction
  · rw [sent]
    exact orderly.handled
  · rw [sent]
    exact orderly.opened

theorem exec_orderly {action : Action Reply}
    (executed : action.exec format accepts core = .ok (next, after))
    (orderly : Orderly core)
    (attaches : action = .attachStream → core.attached = false)
    (closes : action = .closeStream →
      core.session.closing = true ∧ core.attached = true) :
    Orderly after := by
  have finished (outcome : Outcome Reply)
      (executed : outcome.action.exec format accepts core = .ok (next, after)) :
      Orderly after := by
    obtain ⟨header, frames, _, _, rfl⟩ := finish_result executed
    exact pushFramesLocked_rule accepts Orderly
      (fun pushed held => pushed.orderly held) frames (core.setHeader header)
      (orderly.setHeader header)
  cases action with
  | setMetadata =>
      cases executed
      exact ⟨orderly.unattached, orderly.attached, orderly.ended, orderly.silent,
        orderly.handled, orderly.opened⟩
  | setCancelCallback =>
      cases executed
      exact ⟨orderly.unattached, orderly.attached, orderly.ended, orderly.silent,
        orderly.handled, orderly.opened⟩
  | attachStream =>
      have attaching := attachStreamLocked_attached Reply accepts core
      rw [Except.ok.inj executed] at attaching
      exact attaching.orderly orderly (attaches rfl)
  | pushToken token =>
      cases empty : token.isEmpty with
      | true =>
          obtain ⟨_, rfl⟩ := pushToken_empty executed empty
          exact orderly
      | false =>
          cases opened : core.session.metadataReady with
          | false =>
              obtain ⟨_, rfl⟩ := pushToken_closed executed empty opened
              exact ⟨orderly.unattached, orderly.attached, orderly.ended,
                orderly.silent, orderly.handled, orderly.opened⟩
          | true =>
              obtain ⟨header, frame, _, _, rfl⟩ :=
                pushToken_open executed empty opened
              exact (pushFrameLocked_pushed accepts frame _).orderly
                (orderly.recordToken header frame)
  | finishSuccess response => exact finished (.success response) executed
  | finishError error => exact finished (.failure error) executed
  | close =>
      have kept := closeLocked_orderly Reply orderly
      rw [Except.ok.inj executed] at kept
      exact kept
  | callCancel =>
      cases executed
      exact orderly.note rfl rfl nofun
  | closeStream =>
      cases executed
      exact orderly.note rfl rfl fun _ => closes rfl

structure Keeps (core after : Core) : Prop where
  wire : core.wire <+: after.wire
  closing : core.session.closing = true → after.session.closing = true
  attached : core.attached = true → after.attached = true

theorem Keeps.failed (keeps : Keeps core after) (failed : core.failed) :
    after.failed := by
  obtain ⟨frame, member⟩ := failed
  exact ⟨frame, keeps.wire.subset member⟩

/-- Pushing frames shuts the session only by a failed send, and drops nothing
before that. -/
structure Pushes (core after : Core) : Prop extends Keeps core after where
  unmoved : after.attached = core.attached
  shuts : after.session.closing = true →
    core.session.closing = true ∨ after.failed
  delivers : core.session.closing = false → core.complete →
    after.failed ∨ (after.session.closing = false ∧ after.complete)

theorem Pushes.refl (core : Core) : Pushes core core where
  wire := List.prefix_refl _
  closing := id
  attached := id
  unmoved := rfl
  shuts := .inl
  delivers opened complete := .inr ⟨opened, complete⟩

theorem Pushes.trans {last : Core} (first : Pushes core after)
    (second : Pushes after last) : Pushes core last where
  wire := first.wire.trans second.wire
  closing shut := second.closing (first.closing shut)
  attached was := second.attached (first.attached was)
  unmoved := second.unmoved.trans first.unmoved
  shuts shut := by
    rcases second.shuts shut with shut | failed
    · exact (first.shuts shut).imp_right second.failed
    · exact .inr failed
  delivers opened complete := by
    rcases first.delivers opened complete with failed | ⟨opened, complete⟩
    · exact .inl (second.failed failed)
    · exact second.delivers opened complete

theorem Pushed.pushes {frame : StdString} {deferred : DeferredActions}
    (pushed : Pushed frame core deferred after) (orderly : Orderly core) :
    Pushes core after ∧ (deferred.shouldClose = true → after.failed) := by
  cases pushed with
  | dropped closing =>
      refine ⟨⟨⟨List.prefix_refl _, id, id⟩, rfl, .inl, ?_⟩, nofun⟩
      intro opened
      rw [closing] at opened
      contradiction
  | buffered opened unattached =>
      refine ⟨⟨⟨List.prefix_refl _, id, id⟩, rfl, .inl, ?_⟩, nofun⟩
      intro _ complete
      refine .inr ⟨opened, ?_⟩
      have all : core.sent ++ core.session.bufferedFrames = core.frames :=
        complete
      show core.sent ++ (core.session.bufferedFrames ++ [frame]) =
        core.frames ++ [frame]
      rw [← all, List.append_assoc]
  | sent opened stream =>
      refine ⟨⟨⟨List.prefix_append _ _, id, id⟩, rfl, .inl, ?_⟩, nofun⟩
      intro _ _
      have sent := orderly.send opened stream frame true
      exact .inr ⟨opened, (sent.opened rfl).2⟩
  | refused opened stream =>
      have failed : Core.failed { core with
          frames := core.frames ++ [frame]
          wire := core.wire ++ [.send frame false]
          session := { core.session with closing := true } } :=
        ⟨frame, List.mem_append_right _ (List.mem_singleton_self _)⟩
      exact ⟨⟨⟨List.prefix_append _ _, fun _ => rfl, id⟩, rfl,
        fun _ => .inr failed, fun _ _ => .inl failed⟩, fun _ => failed⟩

theorem pushFramesLocked_pushes (frames : List StdString)
    (orderly : Orderly core) :
    Pushes core (pushFramesLocked accepts frames core).2 := by
  have held := pushFramesLocked_rule accepts
    (fun reached => Orderly reached ∧ Pushes core reached)
    (fun pushed held => ⟨pushed.orderly held.1,
      held.2.trans (pushed.pushes held.1).1⟩)
    frames core ⟨orderly, .refl core⟩
  exact held.2

structure Delivers (action : Action Reply) (core : Core)
    (next : List (Action Reply)) (after : Core) : Prop
    extends Keeps core after where
  attaches : after.attached = true →
    core.attached = true ∨ action = .attachStream
  shuts : after.session.closing = true →
    core.session.closing = true ∨ action = .close ∨ after.failed
  completes : core.complete →
    (core.session.closing = true → action.isNeutral = true) →
    after.failed ∨ after.complete
  noAttach : .attachStream ∉ next
  closers : .closeStream ∈ next →
    after.session.closing = true ∧ after.attached = true
  closes : .close ∈ next →
    after.failed ∨ ∃ outcome : Outcome Reply, action = outcome.action
  ending : after.session.closing = true → after.attached = true →
    after.failed ∨
      (core.session.closing = true ∧ core.attached = true) ∨
      .closeStream ∈ next

theorem Delivers.still {action : Action Reply}
    (wire : after.wire = core.wire) (frames : after.frames = core.frames)
    (attached : after.attached = core.attached)
    (closing : after.session.closing = core.session.closing)
    (buffered : after.session.bufferedFrames = core.session.bufferedFrames)
    (pushes : ∀ following ∈ next, following.isTail = false ∧
      following ≠ .attachStream) :
    Delivers action core next after where
  wire := wire ▸ List.prefix_refl _
  closing := closing.trans
  attached := attached.trans
  attaches was := .inl (attached.symm.trans was)
  shuts shut := .inl (closing.symm.trans shut)
  completes complete _ := by
    refine .inr ?_
    unfold Core.complete Core.sent at complete ⊢
    rw [wire, buffered, frames]
    exact complete
  noAttach member := (pushes _ member).2 rfl
  closers member := nomatch (pushes _ member).1
  closes member := nomatch (pushes _ member).1
  ending shut was :=
    .inr (.inl ⟨closing.symm.trans shut, attached.symm.trans was⟩)

theorem Delivers.of_pushes {action : Action Reply} {start : Core}
    (pushes : Pushes start after) (pushing : action.isNeutral = false)
    (wire : start.wire = core.wire) (frames : start.frames = core.frames)
    (attached : start.attached = core.attached)
    (session : start.session.closing = core.session.closing ∧
      start.session.bufferedFrames = core.session.bufferedFrames)
    (tails : ∀ following ∈ next, following = .callCancel ∨
      following = .close ∧
        (after.failed ∨ ∃ outcome : Outcome Reply, action = outcome.action)) :
    Delivers action core next after where
  wire := wire ▸ pushes.wire
  closing shut := pushes.closing (session.1.trans shut)
  attached was := pushes.attached (attached.trans was)
  attaches was :=
    .inl (attached.symm.trans (pushes.unmoved.symm.trans was))
  shuts shut := (pushes.shuts shut).imp (session.1.symm.trans ·) .inr
  completes complete neutral := by
    cases shut : core.session.closing with
    | true =>
        rw [neutral shut] at pushing
        contradiction
    | false =>
        have complete' : start.complete := by
          unfold Core.complete Core.sent at complete ⊢
          rw [wire, session.2, frames]
          exact complete
        exact (pushes.delivers (session.1.trans shut) complete').imp_right
          And.right
  noAttach member := by
    rcases tails _ member with same | ⟨same, _⟩ <;> contradiction
  closers member := by
    rcases tails _ member with same | ⟨same, _⟩ <;> contradiction
  closes member := by
    rcases tails _ member with same | ⟨_, because⟩
    · contradiction
    · exact because
  ending shut was := by
    rcases pushes.shuts shut with before | failed
    · exact .inr (.inl ⟨session.1.symm.trans before,
        attached.symm.trans (pushes.unmoved.symm.trans was)⟩)
    · exact .inl failed

theorem Attached.delivers (attaching : Attached core next after)
    (orderly : Orderly core) (first : core.attached = false) :
    Delivers .attachStream core next after := by
  have noneSent := (orderly.unattached first).2
  cases attaching with
  | delivered =>
      refine ⟨⟨List.prefix_append _ _, id, fun _ => rfl⟩, fun _ => .inr rfl,
        .inl, ?_, ?_, ?_, ?_, ?_⟩
      · intro complete _
        refine .inr ?_
        unfold Core.complete at complete ⊢
        rw [noneSent, List.nil_append] at complete
        rw [List.append_nil]
        refine Eq.trans ?_ complete
        exact (core.sent_append _).trans (by rw [sent_accepted, noneSent]; rfl)
      · split <;> simp
      · intro member
        split at member
        · rename_i closing
          exact ⟨closing, rfl⟩
        · contradiction
      · split <;> simp
      · intro closing _
        rw [if_pos (show core.session.closing = true from closing)]
        exact .inr (.inr (List.mem_singleton_self _))
  | refused accepted frame rest split =>
      have failed : Core.failed { core with
          wire := core.wire ++
            (accepted.map (WireEvent.send · true) ++ [.send frame false])
          session := { core.session with
            stream := true, bufferedFrames := [], closing := true }
          attached := true } := ⟨frame, by simp⟩
      refine ⟨⟨List.prefix_append _ _, fun _ => rfl, fun _ => rfl⟩,
        fun _ => .inr rfl, fun _ => .inr (.inr failed), fun _ _ => .inl failed,
        ?_, fun _ => ⟨rfl, rfl⟩, fun _ => .inl failed, fun _ _ => .inl failed⟩
      split <;> simp

variable (Reply) in
theorem closeLocked_delivers (orderly : Orderly core) :
    Delivers .close core (closeLocked core : List (Action Reply) × Core).1
      (closeLocked core : List (Action Reply) × Core).2 := by
  unfold closeLocked
  split
  · exact .still rfl rfl rfl rfl rfl (by simp)
  rename_i active
  split
  · rename_i stream
    have attached := orderly.attached_of_stream stream
    have drained := orderly.attached attached
    refine ⟨⟨List.prefix_refl _, fun _ => rfl, id⟩, .inl,
      fun _ => .inr (.inl rfl), ?_, by simp, fun _ => ⟨rfl, attached⟩, by simp,
      fun _ _ => .inr (.inr (List.mem_singleton_self _))⟩
    intro complete _
    unfold Core.complete at complete
    rw [drained] at complete
    exact .inr complete
  · rename_i absent
    have absent : core.session.stream = false := by simpa using absent
    have opened : core.session.closing = false := by
      simpa [absent] using active
    have unattached := orderly.unattached_of_open opened absent
    refine ⟨⟨List.prefix_refl _, fun _ => rfl, id⟩, .inl,
      fun _ => .inr (.inl rfl), fun complete _ => .inr complete, by simp,
      by simp, by simp, ?_⟩
    intro _ attached
    rw [show core.attached = true from attached] at unattached
    contradiction

theorem exec_delivers {action : Action Reply}
    (executed : action.exec format accepts core = .ok (next, after))
    (orderly : Orderly core)
    (attaches : action = .attachStream → core.attached = false) :
    Delivers action core next after := by
  have finished (outcome : Outcome Reply)
      (executed : outcome.action.exec format accepts core = .ok (next, after)) :
      Delivers outcome.action core next after := by
    obtain ⟨header, frames, _, rfl, rfl⟩ := finish_result executed
    refine .of_pushes
      (pushFramesLocked_pushes frames (orderly.setHeader header)) ?_ rfl rfl rfl
      ⟨rfl, rfl⟩ ?_
    · cases outcome <;> rfl
    · intro following member
      rcases List.mem_append.mp member with member | member
      · obtain ⟨deferred, _, member⟩ := List.mem_flatMap.mp member
        unfold executeDeferred at member
        split at member
        · exact .inl (List.mem_singleton.mp member)
        · contradiction
      · exact .inr ⟨List.mem_singleton.mp member, .inr ⟨outcome, rfl⟩⟩
  cases action with
  | setMetadata completionId created modelId =>
      cases executed
      refine .still rfl rfl rfl rfl rfl ?_
      intro following member
      obtain ⟨token, _, rfl⟩ := List.mem_map.mp member
      exact ⟨rfl, nofun⟩
  | setCancelCallback =>
      cases executed
      exact .still rfl rfl rfl rfl rfl (by simp)
  | attachStream =>
      have attaching := attachStreamLocked_attached Reply accepts core
      rw [Except.ok.inj executed] at attaching
      exact attaching.delivers orderly (attaches rfl)
  | pushToken token =>
      cases empty : token.isEmpty with
      | true =>
          obtain ⟨rfl, rfl⟩ := pushToken_empty executed empty
          exact .still rfl rfl rfl rfl rfl (by simp)
      | false =>
          cases opened : core.session.metadataReady with
          | false =>
              obtain ⟨rfl, rfl⟩ := pushToken_closed executed empty opened
              exact .still rfl rfl rfl rfl rfl (by simp)
          | true =>
              obtain ⟨header, frame, _, rfl, rfl⟩ :=
                pushToken_open executed empty opened
              obtain ⟨pushes, refused⟩ :=
                (pushFrameLocked_pushed accepts frame
                  (core.recordToken header frame)).pushes
                  (orderly.recordToken header frame)
              refine .of_pushes pushes rfl rfl rfl rfl ⟨rfl, rfl⟩ ?_
              intro following member
              rcases List.mem_append.mp member with member | member
              · unfold executeDeferred at member
                split at member
                · exact .inl (List.mem_singleton.mp member)
                · contradiction
              · split at member
                · rename_i shouldClose
                  exact .inr ⟨List.mem_singleton.mp member,
                    .inl (refused shouldClose)⟩
                · contradiction
  | finishSuccess response => exact finished (.success response) executed
  | finishError error => exact finished (.failure error) executed
  | close =>
      have kept := closeLocked_delivers Reply orderly
      rw [Except.ok.inj executed] at kept
      exact kept
  | callCancel =>
      cases executed
      refine ⟨⟨List.prefix_append _ _, id, id⟩, .inl, .inl, ?_, by simp,
        by simp, by simp, fun shut was => .inr (.inl ⟨shut, was⟩)⟩
      intro complete _
      unfold Core.complete at complete ⊢
      rw [core.sent_append,
        show [WireEvent.cancel].filterMap WireEvent.sent = [] from rfl,
        List.append_nil]
      exact .inr complete
  | closeStream =>
      cases executed
      refine ⟨⟨List.prefix_append _ _, id, id⟩, .inl, .inl, ?_, by simp,
        by simp, by simp, fun shut was => .inr (.inl ⟨shut, was⟩)⟩
      intro complete _
      unfold Core.complete at complete ⊢
      rw [core.sent_append,
        show [WireEvent.close].filterMap WireEvent.sent = [] from rfl,
        List.append_nil]
      exact .inr complete

theorem close_shuts
    (executed : (Action.close : Action Reply).exec format accepts core =
      .ok (next, after)) : after.session.closing = true := by
  have shut : (closeLocked core : List (Action Reply) × Core).2.session.closing =
      true := by
    unfold closeLocked
    split
    · rename_i closing
      exact (Bool.and_eq_true_iff.mp closing).1
    split
    · rfl
    · rfl
  rw [Except.ok.inj executed] at shut
  exact shut

theorem finish_closes {outcome : Outcome Reply}
    (executed : outcome.action.exec format accepts core = .ok (next, after)) :
    .close ∈ next := by
  obtain ⟨header, frames, _, rfl, _⟩ := finish_result executed
  exact List.mem_append_right _ (List.mem_singleton_self _)

end Moves

end ZooKeeperServer.Streaming
