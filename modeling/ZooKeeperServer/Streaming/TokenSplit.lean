import ZooKeeperServer.Server.JsonDump
import ZooKeeperServer.Streaming.Order

namespace ZooKeeperServer.Streaming

open Transition

/-! Tokens that are cut off in the middle of a character.  A frame is made of one
token, so it is well-formed where the token is well-formed by itself. -/

/-- A frame of well-formed UTF-8 with a JSON text in it. -/
def WellFormed (frame : StdString) : Prop :=
  Utf8.Valid frame ∧
    ∃ payload, frame = literal "data: " ++ payload ++ EventStream.blankLine ∧
      (JsonText.decode payload).isSome = true

section Provenance

variable {Reply : Type} (format : Format Reply) (metadata : Metadata)

def Named (header : Header) : Prop :=
  header.completionId = metadata.completionId ∧ header.modelId = metadata.modelId

def Action.Allowed (pushed : List StdString) : Action Reply → Prop
  | .setMetadata completionId _ modelId =>
      completionId = metadata.completionId ∧ modelId = metadata.modelId
  | .pushToken token => token.isEmpty = true ∨ token ∈ pushed
  | _ => True

/-- Every token frame is the frame of a token that was passed. -/
structure Traced (pushed : List StdString) (core : Core) : Prop where
  named : core.session.metadataReady = true → Named metadata core.session.header
  pending : ∀ token ∈ core.session.pendingTokens, token ∈ pushed
  frames : ∀ frame ∈ core.tokenFrames, ∃ header token next,
    Named metadata header ∧ token ∈ pushed ∧
      format.token header token = .ok (next, frame)

structure Format.KeepsIds (format : Format Reply) : Prop where
  token : ∀ {header token next frame},
    format.token header token = .ok (next, frame) →
      next.completionId = header.completionId ∧ next.modelId = header.modelId
  conclusion : ∀ {header outcome next frames},
    format.conclusion header outcome = .ok (next, frames) →
      next.completionId = header.completionId ∧ next.modelId = header.modelId

variable {format metadata} {accepts : Nat → Bool} {pushed : List StdString}
  {core after : Core} {next : List (Action Reply)} {action : Action Reply}

theorem Traced.same (traced : Traced format metadata pushed core)
    (same : SameTokens core after) : Traced format metadata pushed after where
  named := by
    rw [same.ready, same.header]
    exact traced.named
  pending := by
    rw [same.pending]
    exact traced.pending
  frames := by
    rw [same.tokenFrames]
    exact traced.frames

theorem allowed_of_tail (tail : action.isTail = true) :
    action.Allowed metadata pushed := by
  cases action with
  | setMetadata => contradiction
  | pushToken => contradiction
  | _ => trivial

theorem Traced.pushToken (keeps : format.KeepsIds) {token : StdString}
    (traced : Traced format metadata pushed core)
    (allowed : token.isEmpty = true ∨ token ∈ pushed)
    (executed : (Action.pushToken token).exec format accepts core =
      .ok (next, after)) :
    Traced format metadata pushed after ∧
      ∀ following ∈ next, following.isTail = true := by
  cases empty : token.isEmpty with
  | true =>
      obtain ⟨rfl, rfl⟩ := pushToken_empty executed empty
      exact ⟨traced, by simp⟩
  | false =>
      have passed : token ∈ pushed := by simpa [empty] using allowed
      cases opened : core.session.metadataReady with
      | false =>
          obtain ⟨rfl, rfl⟩ := pushToken_closed executed empty opened
          refine ⟨⟨traced.named, ?_, traced.frames⟩, by simp⟩
          intro other listed
          rcases List.mem_append.mp listed with before | here
          · exact traced.pending other before
          · exact List.mem_singleton.mp here ▸ passed
      | true =>
          obtain ⟨frame, made, ready, pending, tokenFrames, -, tails⟩ :=
            pushToken_produces executed empty opened
          have named := traced.named opened
          have ids := keeps.token made
          refine ⟨⟨?_, ?_, ?_⟩, tails⟩
          · intro _
            exact ⟨ids.1.trans named.1, ids.2.trans named.2⟩
          · rw [pending]
            exact traced.pending
          · rw [tokenFrames]
            intro other listed
            rcases List.mem_append.mp listed with before | here
            · exact traced.frames other before
            · rw [List.mem_singleton.mp here]
              exact ⟨_, token, _, named, passed, made⟩

theorem Traced.conclude (outcome : Outcome Reply) (keeps : format.KeepsIds)
    (traced : Traced format metadata pushed core)
    (executed : outcome.action.exec format accepts core = .ok (next, after)) :
    Traced format metadata pushed after ∧
      ∀ following ∈ next, following.isTail = true := by
  obtain ⟨frames, made, ready, pending, tokenFrames, -, tails⟩ :=
    finish_concludes executed
  have ids := keeps.conclusion made
  refine ⟨⟨?_, ?_, ?_⟩, tails⟩
  · rw [ready]
    intro opened
    have named := traced.named opened
    exact ⟨ids.1.trans named.1, ids.2.trans named.2⟩
  · rw [pending]
    exact traced.pending
  · rw [tokenFrames]
    exact traced.frames

theorem Traced.exec (keeps : format.KeepsIds)
    (traced : Traced format metadata pushed core)
    (allowed : action.Allowed metadata pushed)
    (executed : action.exec format accepts core = .ok (next, after)) :
    Traced format metadata pushed after ∧
      ∀ following ∈ next, following.Allowed metadata pushed := by
  have ofTails (result : Traced format metadata pushed after ∧
      ∀ following ∈ next, following.isTail = true) :
      Traced format metadata pushed after ∧
        ∀ following ∈ next, following.Allowed metadata pushed :=
    ⟨result.1, fun following listed => allowed_of_tail (result.2 following listed)⟩
  have ofNeutral (neutral : action.isNeutral = true) :
      Traced format metadata pushed after ∧
        ∀ following ∈ next, following.Allowed metadata pushed := by
    obtain ⟨same, -, tails⟩ := exec_neutral executed neutral
    exact ofTails ⟨traced.same same, tails⟩
  cases action with
  | setMetadata completionId created modelId =>
      cases executed
      refine ⟨⟨fun _ => allowed, by simp, traced.frames⟩, ?_⟩
      intro following listed
      obtain ⟨token, held, rfl⟩ := List.mem_map.mp listed
      exact .inr (traced.pending token held)
  | pushToken token => exact ofTails (traced.pushToken keeps allowed executed)
  | finishSuccess response =>
      exact ofTails (Traced.conclude (.success response) keeps traced executed)
  | finishError error =>
      exact ofTails (Traced.conclude (.failure error) keeps traced executed)
  | setCancelCallback => exact ofNeutral rfl
  | attachStream => exact ofNeutral rfl
  | close => exact ofNeutral rfl
  | callCancel => exact ofNeutral rfl
  | closeStream => exact ofNeutral rfl

structure Provenance (format : Format Reply) (metadata : Metadata)
    (system : System Reply) : Prop where
  traced : Traced format metadata system.pushed system.core
  allowed : ∀ party, ∀ action ∈ system.stack party,
    action.Allowed metadata system.pushed

theorem Action.Allowed.mono {more : List StdString}
    (allowed : action.Allowed metadata pushed) :
    action.Allowed metadata (pushed ++ more) := by
  cases action with
  | pushToken token =>
      rcases allowed with empty | passed
      · exact .inl empty
      · exact .inr (List.mem_append_left _ passed)
  | setMetadata => exact allowed
  | _ => trivial

theorem Traced.mono {more : List StdString}
    (traced : Traced format metadata pushed core) :
    Traced format metadata (pushed ++ more) core where
  named := traced.named
  pending token held := List.mem_append_left _ (traced.pending token held)
  frames := by
    intro frame made
    obtain ⟨header, token, next, named, passed, produced⟩ :=
      traced.frames frame made
    exact ⟨header, token, next, named, List.mem_append_left _ passed, produced⟩

theorem Provenance.atStart : Provenance format metadata (initial metadata) where
  traced := ⟨by simp [initial], by simp [initial], by simp [initial]⟩
  allowed := by
    intro party action listed
    cases party with
    | handler =>
        rcases List.mem_cons.mp listed with rfl | later
        · exact ⟨rfl, rfl⟩
        · rw [List.mem_singleton.mp later]
          trivial
    | agent => cases listed
    | transport => cases listed
    | disconnect => cases listed

theorem System.abort_stack (system : System Reply) (party other : Party) :
    (system.abort party).stack other =
      if other = party then [] else system.stack other := by
  cases party
  all_goals cases other
  all_goals rfl

theorem Provenance.replace {system final : System Reply} (party : Party)
    (held : Provenance format metadata system)
    (traced : Traced format metadata final.pushed final.core)
    (grown : ∀ action : Action Reply, action.Allowed metadata system.pushed →
      action.Allowed metadata final.pushed)
    (here : ∀ action ∈ final.stack party, action.Allowed metadata final.pushed)
    (others : ∀ other, other ≠ party → final.stack other = system.stack other) :
    Provenance format metadata final := by
  refine ⟨traced, ?_⟩
  intro other action listed
  by_cases same : other = party
  · subst same
    exact here action listed
  · rw [others other same] at listed
    exact grown action (held.allowed other action listed)

theorem Provenance.advance (keeps : format.KeepsIds) {system final : System Reply}
    {label : Label Reply} (held : Provenance format metadata system)
    (stepped : step format accepts system label = some final) :
    Provenance format metadata final := by
  cases step_stepped stepped with
  | token token idle unfinished =>
      apply held.replace .agent held.traced.mono
      · exact fun action allowed => allowed.mono
      · intro action listed
        rw [List.mem_singleton.mp listed]
        cases empty : token.isEmpty with
        | true => exact .inl empty
        | false => exact .inr (by simp)
      · intro other different
        cases other with
        | agent => exact absurd rfl different
        | _ => rfl
  | finish outcome stopped idle unfinished going =>
      refine held.replace .handler held.traced (fun action allowed => allowed) ?_ ?_
      · intro action listed
        rw [List.mem_singleton.mp listed]
        cases outcome with
        | success response => trivial
        | failure error => trivial
      · intro other different
        cases other with
        | handler => exact absurd rfl different
        | _ => rfl
  | attach first =>
      refine held.replace .transport held.traced (fun action allowed => allowed) ?_ ?_
      · intro action listed
        rw [List.mem_singleton.mp listed]
        trivial
      · intro other different
        cases other with
        | transport => exact absurd rfl different
        | _ => rfl
  | disconnect first =>
      refine held.replace .disconnect held.traced (fun action allowed => allowed) ?_ ?_
      · intro action listed
        rw [List.mem_singleton.mp listed]
        trivial
      · intro other different
        cases other with
        | disconnect => exact absurd rfl different
        | _ => rfl
  | @run party action rest following core stack executed =>
      have allowed := held.allowed party
      rw [stack] at allowed
      obtain ⟨traced, next⟩ :=
        held.traced.exec keeps (allowed action (by simp)) executed
      apply held.replace party
      · rw [System.proceed_pushed, System.proceed_core]
        exact traced
      · intro action allowed
        rwa [System.proceed_pushed]
      · intro other listed
        rw [System.proceed_stack, if_pos rfl] at listed
        rw [System.proceed_pushed]
        rcases List.mem_append.mp listed with new | old
        · exact next other new
        · exact allowed other (List.mem_cons_of_mem _ old)
      · intro other different
        rw [System.proceed_stack, if_neg different]
  | abort party stack failed =>
      have same : (system.abort party).core = system.core ∧
          (system.abort party).pushed = system.pushed := by
        cases party
        all_goals exact ⟨rfl, rfl⟩
      apply held.replace party
      · rw [same.1, same.2]
        exact held.traced
      · rw [same.2]
        exact fun action allowed => allowed
      · intro action listed
        rw [System.abort_stack, if_pos rfl] at listed
        cases listed
      · intro other different
        rw [System.abort_stack, if_neg different]

theorem Provenance.reached (keeps : format.KeepsIds) {system : System Reply}
    {schedule : List (Label Reply)}
    (reached : run (step format accepts) (initial metadata) schedule =
      some system) : Provenance format metadata system :=
  run_invariant (fun held stepped => held.advance keeps stepped) .atStart reached

end Provenance

section Survival

variable {Reply : Type}

/-- In every run that passes some of the tokens, in their order, no call of
`push_token` raises an exception and every frame made is well-formed. -/
def Survives (format : Format Reply) (metadata : Metadata)
    (tokens : List StdString) : Prop :=
  ∀ accepts schedule system,
    run (step format accepts) (initial metadata) schedule = some system →
    system.pushed <+: tokens.filter (! ·.isEmpty) →
    (∀ party token rest, system.stack party = .pushToken token :: rest →
      ((Action.pushToken token).exec format accepts system.core).isOk = true) ∧
    ∀ frame ∈ system.core.tokenFrames, WellFormed frame

structure Format.MakesFrom (format : Format Reply) (metadata : Metadata)
    (Good : StdString → Prop) : Prop where
  keepsIds : format.KeepsIds
  made : ∀ {header token}, Named metadata header → Good token →
    ∃ next frame, format.token header token = .ok (next, frame) ∧ WellFormed frame
  spoiled : ∀ {header token next frame}, Named metadata header →
    format.token header token = .ok (next, frame) → WellFormed frame → Good token

variable {format : Format Reply} {metadata : Metadata} {Good : StdString → Prop}
  {tokens : List StdString}

theorem survives_of_good (makes : format.MakesFrom metadata Good)
    (good : ∀ token ∈ tokens, token.isEmpty = false → Good token) :
    Survives format metadata tokens := by
  intro accepts schedule system reached passed
  have held := Provenance.reached makes.keepsIds reached
  have passedGood : ∀ token ∈ system.pushed, Good token := by
    intro token listed
    have member := List.mem_filter.mp (passed.subset listed)
    exact good token member.1 (by simpa using member.2)
  constructor
  · intro party token rest stack
    cases executed : (Action.pushToken token).exec format accepts system.core with
    | ok result => rfl
    | error exception =>
        rcases exec_error executed with
          ⟨other, ⟨⟩, nonempty, opened, raised⟩ | ⟨outcome, same, -⟩
        · have allowed : token.isEmpty = true ∨ token ∈ system.pushed :=
            held.allowed party (.pushToken token) (by simp [stack])
          have here := passedGood token (by simpa [nonempty] using allowed)
          obtain ⟨_, _, made, -⟩ := makes.made (held.traced.named opened) here
          rw [raised] at made
          cases made
        · cases outcome with
          | success response => cases same
          | failure error => cases same
  · intro frame made
    obtain ⟨header, token, next, named, listed, produced⟩ :=
      held.traced.frames frame made
    obtain ⟨_, other, again, wellFormed⟩ := makes.made named (passedGood token listed)
    rw [produced] at again
    cases again
    exact wellFormed

/-- The agent has passed these tokens, and every one has been pushed; no stream is
attached yet. -/
structure Fed (metadata : Metadata) (tokens : List StdString)
    (system : System Reply) : Prop where
  idle : system.agent = []
  unfinished : system.outcome = none
  opened : system.core.session.metadataReady = true
  named : Named metadata system.core.session.header
  unattached : system.core.session.stream = false
  unclosed : system.core.session.closing = false
  pushed : system.pushed = tokens.filter (! ·.isEmpty)

theorem pushFrameLocked_buffered {accepts : Nat → Bool} {frame : StdString}
    {core : Core} (unattached : core.session.stream = false)
    (unclosed : core.session.closing = false) :
    pushFrameLocked accepts frame core =
      ({}, { core with
        frames := core.frames ++ [frame]
        session := { core.session with
          bufferedFrames := core.session.bufferedFrames ++ [frame] } }) := by
  simp [pushFrameLocked, unattached, unclosed]

def System.pass (system : System Reply) (token : StdString) : System Reply :=
  { system with
    agent := [.pushToken token]
    pushed := system.pushed ++ (if token.isEmpty then [] else [token]) }

theorem Fed.pass (format : Format Reply) (accepts : Nat → Bool)
    (token : StdString) {system : System Reply} {fed : List StdString}
    (held : Fed metadata fed system) :
    step format accepts system (.token token) = some (system.pass token) ∧
      (system.pass token).pushed = (fed ++ [token]).filter (! ·.isEmpty) := by
  constructor
  · simp [step, held.idle, held.unfinished, System.pass]
  · cases empty : token.isEmpty with
    | true => simp [System.pass, held.pushed, empty]
    | false => simp [System.pass, held.pushed, empty]

theorem Fed.push {system : System Reply} {fed : List StdString} {token : StdString}
    {accepts : Nat → Bool} (keeps : format.KeepsIds)
    (held : Fed metadata fed system)
    (raisesNone : ((Action.pushToken token).exec format accepts system.core).isOk =
      true) :
    ∃ final, step format accepts (system.pass token) (.run .agent) = some final ∧
      Fed metadata (fed ++ [token]) final ∧
      (token.isEmpty = false → ∃ header next frame, Named metadata header ∧
        format.token header token = .ok (next, frame) ∧
          frame ∈ final.core.tokenFrames) := by
  cases executed : (Action.pushToken token).exec format accepts system.core with
  | error exception =>
      rw [executed] at raisesNone
      contradiction
  | ok result =>
      obtain ⟨next, after⟩ := result
      have stepped : step format accepts (system.pass token) (.run .agent) =
          some ((system.pass token).proceed .agent (next ++ []) after) := by
        have same : (Action.pushToken token).exec format accepts
            (system.pass token).core = .ok (next, after) := executed
        simp only [step, System.stack, System.pass] at same ⊢
        rw [same]
        rfl
      refine ⟨_, stepped, ?_⟩
      have passed := held.pass format accepts token
      cases empty : token.isEmpty with
      | true =>
          obtain ⟨rfl, rfl⟩ := pushToken_empty executed empty
          exact ⟨⟨rfl, held.unfinished, held.opened, held.named, held.unattached,
            held.unclosed, passed.2⟩, by simp⟩
      | false =>
          obtain ⟨header, frame, made, rfl, rfl⟩ :=
            pushToken_open executed empty held.opened
          have ids := keeps.token made
          rw [pushFrameLocked_buffered
            (show (system.core.recordToken header frame).session.stream = false from
              held.unattached) held.unclosed]
          refine ⟨⟨rfl, held.unfinished, held.opened, ?_, held.unattached,
            held.unclosed, passed.2⟩, ?_⟩
          · exact ⟨ids.1.trans held.named.1, ids.2.trans held.named.2⟩
          · intro _
            exact ⟨_, header, frame, held.named, made, by
              simp [Core.recordToken, System.proceed_core]⟩

theorem good_of_survives (makes : format.MakesFrom metadata Good)
    (survives : Survives format metadata tokens) :
    ∀ token ∈ tokens, token.isEmpty = false → Good token := by
  suffices fed : ∀ given, given <+: tokens → ∃ schedule system,
      run (step format fun _ => true) (initial metadata) schedule = some system ∧
        Fed metadata given system ∧
        ∀ token ∈ given, token.isEmpty = false → Good token by
    obtain ⟨_, _, -, -, good⟩ := fed tokens List.prefix_rfl
    exact good
  intro given
  induction given using List.reverseRecOn with
  | nil =>
      intro _
      exact ⟨[.run .handler, .run .handler], _, rfl,
        ⟨rfl, rfl, rfl, ⟨rfl, rfl⟩, rfl, rfl, rfl⟩, by simp⟩
  | append_singleton given token ih =>
      intro whole
      obtain ⟨schedule, system, reached, held, good⟩ :=
        ih ((List.prefix_append _ _).trans whole)
      obtain ⟨passing, passed⟩ := held.pass format (fun _ => true) token
      have prefixed : (system.pass token).pushed <+:
          tokens.filter (! ·.isEmpty) := by
        rw [passed]
        exact whole.filter _
      have reachedPass := run_concat.mpr ⟨system, reached, passing⟩
      have raisesNone := (survives _ _ _ reachedPass prefixed).1 .agent token [] rfl
      obtain ⟨final, pushing, heldAfter, produced⟩ :=
        held.push makes.keepsIds raisesNone
      have reachedPush := run_concat.mpr ⟨_, reachedPass, pushing⟩
      refine ⟨_, final, reachedPush, heldAfter, ?_⟩
      intro other listed nonempty
      rcases List.mem_append.mp listed with before | here
      · exact good other before nonempty
      · obtain rfl := List.mem_singleton.mp here
        obtain ⟨header, next, frame, named, made, listed⟩ := produced nonempty
        have prefixedAfter : final.pushed <+: tokens.filter (! ·.isEmpty) := by
          rw [heldAfter.pushed]
          exact whole.filter _
        exact makes.spoiled named made
          ((survives _ _ _ reachedPush prefixedAfter).2 frame listed)

theorem survives_iff (makes : format.MakesFrom metadata Good) :
    Survives format metadata tokens ↔
      ∀ token ∈ tokens, token.isEmpty = false → Good token :=
  ⟨good_of_survives makes, survives_of_good makes⟩

end Survival

section Classes

open Utf8

theorem valid_between {before text after : StdString}
    (ascii : ∀ byte ∈ before, byte < 0x80) (quote : after.head? = some 0x22) :
    Valid (before ++ (jsonEscaped text ++ after)) ↔ Valid text ∧ Valid after := by
  obtain ⟨more, rfl⟩ := List.head?_eq_some_iff.mp quote
  rw [(Valid.ascii ascii).append_iff]
  constructor
  · intro whole
    have here : Valid (jsonEscaped text) := whole.of_append_ascii (by decide)
    exact ⟨valid_jsonEscaped.mp here, here.append_iff.mp whole⟩
  · rintro ⟨here, later⟩
    exact (valid_jsonEscaped.mpr here).append later

theorem contentChunk_shape (header : Header) (token : StdString) :
    ∃ middle delta : StdString, (∀ byte ∈ middle, byte < 0x80) ∧
      (∀ byte ∈ delta, byte < 0x80) ∧
      contentChunk header (some token) =
        literal "data: \x7b\"id\":\"" ++ (jsonEscaped header.completionId ++
          (0x22 :: middle ++ (jsonEscaped header.modelId ++
            (0x22 :: delta ++ (jsonEscaped token ++
              literal "\"\x7d,\"finish_reason\":null\x7d]\x7d\n\n"))))) := by
  let middle : StdString :=
    literal ",\"object\":\"chat.completion.chunk\",\"created\":" ++
      (stdToStringInt header.created ++ literal ",\"model\":\"")
  let delta : StdString :=
    literal ",\"choices\":[\x7b\"index\":0,\"delta\":\x7b" ++
      ((if !header.sentRole then literal "\"role\":\"assistant\"," else []) ++
        literal "\"content\":\"")
  refine ⟨middle, delta, ?_, ?_, ?_⟩
  · intro byte listed
    rcases List.mem_append.mp listed with first | later
    · exact (by decide +kernel : ∀ byte ∈
        literal ",\"object\":\"chat.completion.chunk\",\"created\":", byte < 0x80)
        byte first
    · rcases List.mem_append.mp later with created | last
      · exact (stdToStringInt_ascii created).2
      · exact (by decide +kernel : ∀ byte ∈ literal ",\"model\":\"", byte < 0x80)
          byte last
  · cases sent : header.sentRole with
    | true =>
        simp only [delta, sent]
        decide +kernel
    | false =>
        simp only [delta, sent]
        decide +kernel
  · unfold contentChunk
    cases sent : header.sentRole with
    | true =>
        simp only [Bool.not_true, Bool.false_eq_true, if_false, makeStreamingChunk,
          makeChunkImpl, List.append_assoc, List.cons_append, List.nil_append,
          middle, delta, sent]
        rfl
    | false =>
        simp only [Bool.not_false, if_true, makeFirstStreamingChunk, makeChunkImpl,
          List.append_assoc, List.cons_append, middle, delta, sent]
        rfl

theorem valid_contentChunk {header : Header} {token : StdString} :
    Valid (contentChunk header (some token)) ↔
      Valid header.completionId ∧ Valid header.modelId ∧ Valid token := by
  obtain ⟨middle, delta, middleAscii, deltaAscii, shape⟩ :=
    contentChunk_shape header token
  have quoted {text : StdString} (ascii : ∀ byte ∈ text, byte < 0x80) :
      ∀ byte ∈ (0x22 :: text : StdString), byte < 0x80 := by
    intro byte listed
    rcases List.mem_cons.mp listed with rfl | later
    · decide
    · exact ascii byte later
  have ended : Valid (literal "\"\x7d,\"finish_reason\":null\x7d]\x7d\n\n") :=
    .ascii (by decide +kernel)
  rw [shape, valid_between (by decide +kernel) rfl,
    valid_between (quoted middleAscii) rfl, valid_between (quoted deltaAscii) rfl,
    and_iff_left ended]

theorem contentChunk_frame (header : Header) (content : Option StdString) :
    contentChunk header content = Chunk.frame
      ⟨header.completionId, header.created, header.modelId, content,
        !header.sentRole, none⟩ := by
  unfold contentChunk
  cases header.sentRole with
  | true => rfl
  | false => rfl

theorem wellFormed_contentChunk {header : Header} {token : StdString} :
    WellFormed (contentChunk header (some token)) ↔
      Valid header.completionId ∧ Valid header.modelId ∧ Valid token := by
  rw [WellFormed, valid_contentChunk]
  apply and_iff_left
  rw [contentChunk_frame]
  refine ⟨_, Chunk.frame_eq _, ?_⟩
  rw [JsonText.Printer.decode_render]
  rfl

theorem streamingFormat_keepsIds (json : JsonLibrary) :
    (streamingFormat json).KeepsIds where
  token := by
    intro header token next frame made
    cases made
    exact ⟨rfl, rfl⟩
  conclusion := by
    intro header outcome next frames made
    cases outcome with
    | success response =>
        cases made
        exact ⟨rfl, rfl⟩
    | failure error =>
        simp only [Format.conclusion, streamingFormat] at made
        split at made
        · cases text : makeSseData json (makeErrorBody error) with
          | error exception => simp [text, Except.map] at made
          | ok frame =>
              rw [text] at made
              cases made
              exact ⟨rfl, rfl⟩
        · cases made
          exact ⟨rfl, rfl⟩

theorem streamingFormat_makes (json : JsonLibrary) (metadata : Metadata) :
    (streamingFormat json).MakesFrom metadata fun token =>
      Valid metadata.completionId ∧ Valid metadata.modelId ∧ Valid token where
  keepsIds := streamingFormat_keepsIds json
  made := by
    intro header token named good
    refine ⟨_, _, rfl, wellFormed_contentChunk.mpr ?_⟩
    rwa [named.1, named.2]
  spoiled := by
    intro header token next frame named made wellFormed
    cases made
    rw [← named.1, ← named.2]
    exact wellFormed_contentChunk.mp wellFormed

theorem delta_hasUtf8Strings {token : StdString} :
    (Json.objectOf [(literal "delta", .string token)]).HasUtf8Strings ↔
      Valid token := by
  have key : Valid (literal "delta") := .ascii (by decide +kernel)
  constructor
  · intro all
    exact all.2.1
  · intro valid
    exact ⟨key, valid, trivial⟩

theorem makeSseData_wellFormed {json : JsonLibrary} (dumps : json.DumpsText)
    {payload : Json} (strings : payload.HasUtf8Strings) :
    ∃ frame, makeSseData json payload = .ok frame ∧ WellFormed frame := by
  obtain ⟨text, dumped, valid, decoded⟩ := dumps.gives payload strings
  refine ⟨_, by rw [makeSseData, dumped]; rfl, ?_, text, rfl, decoded⟩
  have opening : Valid (literal "data: ") := .ascii (by decide +kernel)
  have ending : Valid (literal "\n\n") := .ascii (by decide +kernel)
  exact (opening.append valid).append ending

theorem hasUtf8Strings_of_makeSseData {json : JsonLibrary}
    (dumps : json.DumpsText) {payload : Json} {frame : StdString}
    (made : makeSseData json payload = .ok frame) : payload.HasUtf8Strings := by
  by_contra invalid
  obtain ⟨exception, raised⟩ := dumps.throws payload invalid
  rw [makeSseData, raised] at made
  cases made

theorem extractionFormat_token {json : JsonLibrary} {header next : Header}
    {token frame : StdString} :
    (extractionFormat json).token header token = .ok (next, frame) ↔
      next = header ∧
        makeSseData json (Json.objectOf [(literal "delta", .string token)]) =
          .ok frame := by
  simp only [extractionFormat]
  cases makeSseData json (Json.objectOf [(literal "delta", .string token)]) with
  | error exception => simp [Except.map]
  | ok text => simp [Except.map, eq_comm]

theorem extractionFormat_keepsIds (json : JsonLibrary) :
    (extractionFormat json).KeepsIds where
  token := by
    intro header token next frame made
    obtain ⟨rfl, -⟩ := extractionFormat_token.mp made
    exact ⟨rfl, rfl⟩
  conclusion := by
    intro header outcome next frames made
    have kept {payload : Json} {close : List StdString}
        (made : (makeSseData json payload).map
          (fun frame => (header, frame :: close)) = .ok (next, frames)) :
        next = header := by
      cases text : makeSseData json payload with
      | error exception => simp [text, Except.map] at made
      | ok frame =>
          rw [text] at made
          cases made
          rfl
    cases outcome with
    | success response =>
        rw [kept made]
        exact ⟨rfl, rfl⟩
    | failure error =>
        rw [kept made]
        exact ⟨rfl, rfl⟩

theorem extractionFormat_makes {json : JsonLibrary} (dumps : json.DumpsText)
    (metadata : Metadata) :
    (extractionFormat json).MakesFrom metadata Valid where
  keepsIds := extractionFormat_keepsIds json
  made := by
    intro header token _ valid
    obtain ⟨frame, made, wellFormed⟩ :=
      makeSseData_wellFormed dumps (delta_hasUtf8Strings.mpr valid)
    exact ⟨header, frame, extractionFormat_token.mpr ⟨rfl, made⟩, wellFormed⟩
  spoiled := by
    intro header token next frame _ made _
    obtain ⟨-, sent⟩ := extractionFormat_token.mp made
    exact delta_hasUtf8Strings.mp (hasUtf8Strings_of_makeSseData dumps sent)

end Classes

/-- The tokens of a run survive exactly when each of them is UTF-8 by itself; in a
completion, where every frame repeats them, so must be the two ids. -/
theorem tokens_survive_iff (json : JsonLibrary) (dumps : json.DumpsText)
    (metadata : Metadata) (tokens : List StdString) :
    (Survives (streamingFormat json) metadata tokens ↔
      ∀ token ∈ tokens, token.isEmpty = false →
        Utf8.Valid metadata.completionId ∧ Utf8.Valid metadata.modelId ∧
          Utf8.Valid token) ∧
      (Survives (extractionFormat json) metadata tokens ↔
        ∀ token ∈ tokens, token.isEmpty = false → Utf8.Valid token) :=
  ⟨survives_iff (streamingFormat_makes json metadata),
    survives_iff (extractionFormat_makes dumps metadata)⟩

/-! A character of two bytes, in two tokens and in one. -/

theorem split_character_lost :
    Utf8.Valid [[0xc3], [0xa9]].flatten ∧
      ¬ Survives (streamingFormat utf8Json) sampleMetadata [[0xc3], [0xa9]] ∧
      ¬ Survives (extractionFormat utf8Json) sampleMetadata [[0xc3], [0xa9]] := by
  have cut : ¬ Utf8.Valid [0xc3] := by decide +kernel
  refine ⟨by decide +kernel, ?_, ?_⟩
  · intro survives
    exact cut (good_of_survives (streamingFormat_makes utf8Json sampleMetadata)
      survives [0xc3] (by simp) rfl).2.2
  · intro survives
    exact cut (good_of_survives
      (extractionFormat_makes utf8Json_dumpsText sampleMetadata) survives [0xc3]
      (by simp) rfl)

theorem tokens_survive_sample :
    Survives (streamingFormat utf8Json) sampleMetadata [[0xc3, 0xa9]] ∧
      Survives (extractionFormat utf8Json) sampleMetadata [[0xc3, 0xa9]] := by
  have whole : Utf8.Valid [0xc3, 0xa9] := by decide +kernel
  obtain ⟨streaming, extraction⟩ := tokens_survive_iff utf8Json utf8Json_dumpsText
    sampleMetadata [[0xc3, 0xa9]]
  constructor
  · apply streaming.mpr
    intro token listed _
    rw [List.mem_singleton.mp listed]
    exact ⟨.ascii (by decide +kernel), .ascii (by decide +kernel), whole⟩
  · apply extraction.mpr
    intro token listed _
    rw [List.mem_singleton.mp listed]
    exact whole

end ZooKeeperServer.Streaming
