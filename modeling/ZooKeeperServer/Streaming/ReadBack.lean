import ZooKeeperServer.Server.JsonDump
import ZooKeeperServer.Streaming.Transcript

namespace ZooKeeperServer.Streaming

open Transition

/-! What a client reads from a stream, in whatever pieces its bytes arrive. -/

inductive StreamEvent
  | data (value : JsonText.Value)
  | done

namespace StreamEvent

def ofBody? (body : StdString) : Option StreamEvent :=
  if literal "data: " <+: body then
    let payload := body.drop (literal "data: ").length
    if payload = literal "[DONE]" then some .done
    else (JsonText.decode payload).map .data
  else none

def text : StreamEvent → StdString
  | .data value =>
      match Chunk.ofValue? value with
      | some chunk => chunk.content.getD []
      | none =>
          ((Chunk.member? (literal "delta") value).bind Chunk.string?).getD []
  | .done => []

end StreamEvent

def readEvents (pieces : List StdString) : Option (List StreamEvent) :=
  (pieces.foldl EventStream.Arrived.feed {}).frames.mapM StreamEvent.ofBody?

section Rendering

variable (json : JsonLibrary) (shown : Json → JsonText.Value)
  (metadata : Metadata)

def Metadata.chunk (role : Bool) (content finishReason : Option StdString) : Chunk :=
  ⟨metadata.completionId, metadata.created, metadata.modelId, content, role,
    finishReason⟩

def Frame.event : Frame → StreamEvent
  | .chunk role content => .data (metadata.chunk role content none).value
  | .stop => .data (metadata.chunk false none (some (literal "stop"))).value
  | .delta token =>
      .data (shown (Json.objectOf [(literal "delta", .string token)]))
  | .body response =>
      .data (shown (makeExtractionBody json metadata.completionId metadata.created
        metadata.modelId response))
  | .done => .done
  | .failure error => .data (shown (makeErrorBody error))

end Rendering

section Reading

variable {json : JsonLibrary} {shown : Json → JsonText.Value}
  {metadata : Metadata} {frames : List Frame} {texts pieces : List StdString}

theorem member?_shown (shows_ : Json.Shows shown) (key : StdString)
    (entries : List (StdString × Json)) :
    Chunk.member? key (shown (Json.objectOf entries)) =
      (entries.reverse.lookup key).map shown := by
  rw [← Json.find?_objectOf, Json.objectOf, shows_.object, Json.find?,
    Chunk.member?]
  induction entries.foldl _ _ with
  | nil => rfl
  | cons member rest ih =>
      rw [List.map_cons, List.lookup_cons, List.lookup_cons, ih]
      cases key == member.1 with
      | true => rfl
      | false => rfl

theorem text_eq_delta {value : JsonText.Value}
    (other : Chunk.member? (literal "choices") value = none) :
    (StreamEvent.data value).text =
      ((Chunk.member? (literal "delta") value).bind Chunk.string?).getD [] := by
  have unread : Chunk.ofValue? value = none := by
    simp only [Chunk.ofValue?, other, Option.bind_eq_bind, Option.bind_none,
      Option.bind_fun_none, Option.bind_eq_none_iff]
    intro completionId _
    split
    · rfl
    · rfl
  simp only [StreamEvent.text, unread]

theorem Frame.text_event (shows_ : Json.Shows shown) (frame : Frame) :
    (frame.event json shown metadata).text = frame.content := by
  cases frame with
  | chunk role content =>
      simp only [Frame.event, StreamEvent.text, Chunk.ofValue?_value]
      cases content with
      | none => rfl
      | some text => rfl
  | stop =>
      simp only [Frame.event, StreamEvent.text, Chunk.ofValue?_value]
      rfl
  | delta token =>
      refine (text_eq_delta (member?_shown shows_ _ _)).trans ?_
      rw [member?_shown shows_]
      show ((some (shown (.string token))).bind Chunk.string?).getD [] = token
      rw [shows_.string]
      rfl
  | body response =>
      have unheld : Chunk.member? (literal "delta")
          (shown (makeExtractionBody json metadata.completionId metadata.created
            metadata.modelId response)) = none := member?_shown shows_ _ _
      refine (text_eq_delta (member?_shown shows_ _ _)).trans ?_
      rw [unheld]
      rfl
  | done => rfl
  | failure error =>
      have unheld : Chunk.member? (literal "delta") (shown (makeErrorBody error)) =
          none := member?_shown shows_ _ _
      refine (text_eq_delta (member?_shown shows_ _ _)).trans ?_
      rw [unheld]
      rfl

theorem ofBody?_payload {payload : StdString} {value : JsonText.Value}
    (read : JsonText.decode payload = some value) :
    StreamEvent.ofBody? (literal "data: " ++ payload) = some (.data value) := by
  have notDone : payload ≠ literal "[DONE]" := by
    rintro rfl
    have unread : JsonText.decode (literal "[DONE]") = none := by decide +kernel
    rw [unread] at read
    cases read
  rw [StreamEvent.ofBody?, if_pos (List.prefix_append _ _), List.drop_left]
  simp only [if_neg notDone, read, Option.map_some]

structure ReadAs (text : StdString) (event : StreamEvent) (body : StdString) :
    Prop where
  ended : text = body ++ EventStream.blankLine
  plain : (0x0a : UInt8) ∉ body
  event : StreamEvent.ofBody? body = some event

theorem chunk_read (chunk : Chunk) :
    ReadAs chunk.frame (.data chunk.value) chunk.body where
  ended := chunk.frame_eq
  plain := chunk.body_plain
  event := ofBody?_payload (JsonText.Printer.decode_render _ _)

theorem sseData_read (lines : json.DumpsLines shown) {payload : Json}
    {text : StdString} (made : makeSseData json payload = .ok text) :
    ∃ body, ReadAs text (.data (shown payload)) body := by
  unfold makeSseData at made
  cases dumped : json.dump payload with
  | error raised =>
      rw [dumped] at made
      cases made
  | ok line =>
      rw [dumped] at made
      cases made
      refine ⟨literal "data: " ++ line, rfl, ?_, ofBody?_payload (lines.reads dumped)⟩
      intro listed
      rcases List.mem_append.mp listed with prefixed | inside
      · exact absurd prefixed (by decide +kernel)
      · exact lines.line dumped inside

theorem frame_read (lines : json.DumpsLines shown) {frame : Frame}
    {text : StdString} (made : frame.render json metadata = .ok text) :
    ∃ body, ReadAs text (frame.event json shown metadata) body := by
  cases frame with
  | chunk role content =>
      have same : text = (metadata.chunk role content none).frame := by
        cases role with
        | true => exact (Except.ok.inj made).symm
        | false => exact (Except.ok.inj made).symm
      rw [same]
      exact ⟨_, chunk_read (metadata.chunk role content none)⟩
  | stop =>
      have same : text =
          (metadata.chunk false none (some (literal "stop"))).frame :=
        (Except.ok.inj made).symm
      rw [same]
      exact ⟨_, chunk_read _⟩
  | delta token => exact sseData_read lines made
  | body response => exact sseData_read lines made
  | done =>
      obtain rfl : makeSseDone = text := Except.ok.inj made
      exact ⟨literal "data: [DONE]", by decide +kernel, by decide +kernel, rfl⟩
  | failure error => exact sseData_read lines made

theorem frames_read (lines : json.DumpsLines shown)
    (made : frames.mapM (Frame.render json metadata) = .ok texts) :
    ∃ bodies : List StdString,
      texts.flatten = bodies.flatMap (· ++ EventStream.blankLine) ∧
      (∀ body ∈ bodies, (0x0a : UInt8) ∉ body) ∧
      bodies.mapM StreamEvent.ofBody? =
        some (frames.map (Frame.event json shown metadata)) := by
  induction frames generalizing texts with
  | nil =>
      cases made
      exact ⟨[], rfl, by simp, rfl⟩
  | cons frame frames ih =>
      rw [List.mapM_cons] at made
      cases here : frame.render json metadata with
      | error raised =>
          rw [here] at made
          cases made
      | ok text =>
          cases later : frames.mapM (Frame.render json metadata) with
          | error raised =>
              rw [here, later] at made
              cases made
          | ok others =>
              rw [here, later] at made
              cases made
              obtain ⟨body, reads⟩ := frame_read lines here
              obtain ⟨bodies, whole, plain, events⟩ := ih later
              refine ⟨body :: bodies, ?_, List.forall_mem_cons.mpr ⟨reads.plain,
                plain⟩, ?_⟩
              · rw [List.flatten_cons, List.flatMap_cons, reads.ended, whole]
              · rw [List.mapM_cons, reads.event, events]
                rfl

/-- A client that has received everything reads every event. -/
theorem readEvents_whole (lines : json.DumpsLines shown)
    (made : frames.mapM (Frame.render json metadata) = .ok texts)
    (received : pieces.flatten = texts.flatten) :
    readEvents pieces = some (frames.map (Frame.event json shown metadata)) := by
  obtain ⟨bodies, whole, plain, events⟩ := frames_read lines made
  rw [readEvents, EventStream.Arrived.feed_flatten, received, whole,
    EventStream.Arrived.feed_flatMap plain]
  exact events

/-- One that has received some of it reads the first events. -/
theorem readEvents_first (lines : json.DumpsLines shown)
    (made : frames.mapM (Frame.render json metadata) = .ok texts)
    (received : pieces.flatten <+: texts.flatten) :
    ∃ events, readEvents pieces = some events ∧
      events <+: frames.map (Frame.event json shown metadata) := by
  obtain ⟨bodies, whole, plain, all⟩ := frames_read lines made
  rw [readEvents, EventStream.Arrived.feed_flatten]
  obtain ⟨rest, split⟩ :=
    EventStream.Arrived.frames_prefix plain (whole ▸ received)
  rw [← split, List.mapM_append] at all
  obtain ⟨events, read, all⟩ := Option.bind_eq_some_iff.mp all
  obtain ⟨others, _, all⟩ := Option.bind_eq_some_iff.mp all
  exact ⟨events, read, others, Option.some.inj all⟩

end Reading

section Streams

variable {Reply : Type}

/-- The frames of everything that has been asked of a request so far. -/
def System.asked (content : List StdString → List Frame)
    (transcript : List StdString → Outcome Reply → List Frame)
    (system : System Reply) : List Frame :=
  match system.outcome with
  | none => content system.pushed
  | some outcome => transcript system.pushed outcome

/-- What a client reads of a request, from whatever pieces it has received. -/
structure ReadBack (content : List StdString → List Frame)
    (transcript : List StdString → Outcome Reply → List Frame)
    (event : Frame → StreamEvent) (system : System Reply) : Prop where
  first : ∀ pieces : List StdString,
    pieces.flatten <+: system.core.sent.flatten →
      ∃ events, readEvents pieces = some events ∧
        events <+: (system.asked content transcript).map event
  whole : ∀ pieces : List StdString, pieces.flatten = system.core.sent.flatten →
    system.outcome.isSome = true → system.core.attached = true →
    system.disconnected = false → ¬ system.core.failed →
    (∀ party, system.stack party = []) →
      readEvents pieces = some ((system.asked content transcript).map event)

variable {format : Format Reply} {metadata : Metadata}
  {render : Frame → Except StdException StdString}
  {content : List StdString → List Frame}
  {transcript : List StdString → Outcome Reply → List Frame}
  {system : System Reply}

theorem Delivery.asked (delivery : Delivery format metadata system)
    (transcribes : Transcribes format metadata render content transcript)
    (grows : ∀ tokens rest, content tokens <+: content (tokens ++ rest)) :
    ∃ frames, frames <+: system.asked content transcript ∧
      frames.mapM render = .ok system.core.frames := by
  unfold System.asked
  cases finished : system.outcome with
  | some outcome =>
      obtain ⟨tokens, other, frames, -, matched, first, rendered, -⟩ :=
        delivery.frames transcribes
      obtain ⟨rfl, rfl⟩ := matched outcome finished
      exact ⟨frames, first, rendered⟩
  | none =>
      have progress := delivery.ordered.progress
      rw [finished] at progress
      cases progress with
      | opening closed fresh frames tokenFrames nonempty calls opens order =>
          exact ⟨[], List.nil_prefix, by rw [frames]; rfl⟩
      | streaming produced streamed calls replays order =>
          refine ⟨content produced, ?_, ?_⟩
          · rw [order, List.append_assoc]
            exact grows _ _
          · rw [streamed.frames]
            exact transcribes.tokens streamed.made

end Streams

section Classes

variable {json : JsonLibrary} {shown : Json → JsonText.Value}
  {Reply : Type} {format : Format Reply} {metadata : Metadata}
  {content : List StdString → List Frame}
  {transcript : List StdString → Outcome Reply → List Frame}
  {system : System Reply}

theorem Delivery.readBack (lines : json.DumpsLines shown)
    (delivery : Delivery format metadata system)
    (transcribes : Transcribes format metadata (Frame.render json metadata) content
      transcript)
    (grows : ∀ tokens rest, content tokens <+: content (tokens ++ rest)) :
    ReadBack content transcript (Frame.event json shown metadata) system := by
  obtain ⟨frames, first, rendered⟩ := delivery.asked transcribes grows
  have handled : system.core.sent <+: system.core.frames :=
    (List.prefix_append _ _).trans delivery.orderly.handled
  obtain ⟨sent, shorter, made⟩ := mapM_prefix rendered handled
  constructor
  · intro pieces received
    obtain ⟨events, read, some⟩ := readEvents_first lines made received
    exact ⟨events, read, some.trans ((shorter.trans first).map _)⟩
  · intro pieces received ended attached connected unfailed idle
    obtain ⟨outcome, finished⟩ := Option.isSome_iff_exists.mp ended
    have wellStreamed := delivery.wellStreamed transcribes
    obtain ⟨whole, -⟩ :=
      wellStreamed.whole outcome finished attached connected unfailed idle
    rw [System.asked, finished]
    exact readEvents_whole lines whole received

theorem chatContent_grows (tokens rest : List StdString) :
    chatContent tokens <+: chatContent (tokens ++ rest) := by
  cases tokens with
  | nil => exact List.nil_prefix
  | cons token others =>
      simp only [List.cons_append, chatContent, List.map_append]
      exact List.cons_prefix_cons.mpr ⟨rfl, List.prefix_append _ _⟩

theorem deltas_grow (tokens rest : List StdString) :
    tokens.map Frame.delta <+: (tokens ++ rest).map Frame.delta := by
  rw [List.map_append]
  exact List.prefix_append _ _

theorem flatMap_text (shows_ : Json.Shows shown) (frames : List Frame) :
    (frames.map (Frame.event json shown metadata)).flatMap StreamEvent.text =
      frames.flatMap Frame.content := by
  rw [List.flatMap_map]
  exact List.flatMap_congr fun frame _ => frame.text_event shows_

theorem extractionTranscript_content (tokens : List StdString)
    (outcome : Outcome ExtractionResult) :
    (extractionTranscript tokens outcome).flatMap Frame.content =
      tokens.flatten := by
  have deltas := content_map .delta (fun _ => rfl) tokens
  cases outcome with
  | success response =>
      simp [extractionTranscript, Frame.content, deltas]
  | failure error =>
      simp [extractionTranscript, Frame.content, deltas]

/-- In a run whose steps are all calm, a client reads the first events of the
request's transcript from whatever bytes have come, and all of them once the request
is over; what they show is the text that was generated. -/
theorem streams_read_back (lines : json.DumpsLines shown) (metadata : Metadata)
    (accepts : Nat → Bool) :
    (∀ schedule system,
      Respects (step (streamingFormat json) accepts)
        (Calm (streamingFormat json)) (initial metadata) schedule →
      run (step (streamingFormat json) accepts) (initial metadata) schedule =
        some system →
      ReadBack chatContent chatTranscript (Frame.event json shown metadata)
        system) ∧
    (∀ schedule system,
      Respects (step (extractionFormat json) accepts)
        (Calm (extractionFormat json)) (initial metadata) schedule →
      run (step (extractionFormat json) accepts) (initial metadata) schedule =
        some system →
      ReadBack (List.map .delta) extractionTranscript
        (Frame.event json shown metadata) system) ∧
    (∀ tokens response,
      ((chatTranscript tokens (.success response)).map
          (Frame.event json shown metadata)).flatMap StreamEvent.text =
        if tokens.isEmpty then response.text else tokens.flatten) ∧
    ∀ tokens outcome,
      ((extractionTranscript tokens outcome).map
          (Frame.event json shown metadata)).flatMap StreamEvent.text =
        tokens.flatten := by
  refine ⟨?_, ?_, ?_, ?_⟩
  · intro schedule system respected reached
    exact (Delivery.reached respected reached).readBack lines
      (streamingFormat_transcribes json metadata) chatContent_grows
  · intro schedule system respected reached
    exact (Delivery.reached respected reached).readBack lines
      (extractionFormat_transcribes json metadata) deltas_grow
  · intro tokens response
    rw [flatMap_text lines.shows_, chatTranscript_content]
  · intro tokens outcome
    rw [flatMap_text lines.shows_, extractionTranscript_content]

end Classes

theorem streams_read_back_sample :
    ∃ system, run (step (streamingFormat utf8Json) fun _ => true)
        (initial sampleMetadata) faithful = some system ∧
      readEvents system.core.sent =
        some ((chatTranscript [literal "a", literal "b"] (.success sampleReply)).map
          (Frame.event utf8Json (Json.toValue fun _ => ⟨0, 0⟩) sampleMetadata)) := by
  have readBack := streams_read_back utf8Json_dumpsLines sampleMetadata fun _ => true
  exact ⟨_, rfl, (readBack.1 faithful _ (by decide) rfl).whole _ rfl rfl rfl rfl
    (Core.not_failed rfl) (by intro party; cases party <;> rfl)⟩

end ZooKeeperServer.Streaming
