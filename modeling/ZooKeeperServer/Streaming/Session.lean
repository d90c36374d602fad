import ZooKeeperServer.Server.Streaming

namespace ZooKeeperServer.Streaming

/-! `StreamingSession` and `ExtractionStreamingSession`.  The two classes differ
in their frames only, which a `Format` supplies; everything under `mutex_` is
one step, and what a call does after it has released the lock is left to its
thread as further steps. -/

structure Header where
  completionId : StdString := []
  created : Int := 0
  modelId : StdString := []
  sentRole : Bool := false
  sentContent : Bool := false
  deriving DecidableEq

structure Session where
  header : Header := {}
  metadataReady : Bool := false
  /-- `stream_` is set. -/
  stream : Bool := false
  bufferedFrames : List StdString := []
  pendingTokens : List StdString := []
  /-- `cancel_callback_` is not empty. -/
  cancelCallback : Bool := false
  closing : Bool := false
  deriving DecidableEq

inductive WireEvent
  | send (frame : StdString) (accepted : Bool)
  | close
  | cancel
  deriving DecidableEq

def WireEvent.isSend : WireEvent → Bool
  | .send _ _ => true
  | _ => false

/-- A session with everything it has done: the frames it was asked to push,
whether it could still use them or not, those of them that `push_token` made,
and whether the transport has attached its stream. -/
structure Core where
  session : Session := {}
  wire : List WireEvent := []
  frames : List StdString := []
  tokenFrames : List StdString := []
  attached : Bool := false

/-- The frames of a class, with the flags they leave behind. -/
structure Format (Reply : Type) where
  token : Header → StdString → Except StdException (Header × StdString)
  success : Header → Reply → Except StdException (Header × List StdString)
  failure : Header → ApiError → Except StdException (Header × List StdString)

/-- The steps a thread still has to take, one locked section or one call outside
the lock each. -/
inductive Action (Reply : Type)
  | setMetadata (completionId : StdString) (created : Int) (modelId : StdString)
  | setCancelCallback
  | attachStream
  | pushToken (token : StdString)
  | finishSuccess (response : Reply)
  | finishError (error : ApiError)
  | close
  | callCancel
  | closeStream

structure DeferredActions where
  shouldClose : Bool := false
  cancelCallback : Bool := false

section Sections

variable {Reply : Type} (format : Format Reply) (accepts : Nat → Bool)

def Core.setHeader (header : Header) (core : Core) : Core :=
  { core with session := { core.session with header } }

def Core.recordToken (header : Header) (frame : StdString) (core : Core) : Core :=
  { core.setHeader header with tokenFrames := core.tokenFrames ++ [frame] }

def Core.send (frame : StdString) (core : Core) : Bool × Core :=
  let accepted := accepts (core.wire.countP WireEvent.isSend)
  (accepted, { core with wire := core.wire ++ [.send frame accepted] })

def pushFrameLocked (frame : StdString) (core : Core) :
    DeferredActions × Core :=
  let core := { core with frames := core.frames ++ [frame] }
  if core.session.closing then ({}, core)
  else if !core.session.stream then
    ({}, { core with session := { core.session with
      bufferedFrames := core.session.bufferedFrames ++ [frame] } })
  else
    match core.send accepts frame with
    | (true, core) => ({}, core)
    | (false, core) =>
        ({ shouldClose := true, cancelCallback := core.session.cancelCallback },
          { core with session := { core.session with closing := true } })

def pushFramesLocked :
    List StdString → Core → List DeferredActions × Core
  | [], core => ([], core)
  | frame :: rest, core =>
      let (deferred, core) := pushFrameLocked accepts frame core
      let (others, core) := pushFramesLocked rest core
      (deferred :: others, core)

/-- The loop of `attach_stream`: whether a send failed. -/
def sendBuffered : List StdString → Core → Bool × Core
  | [], core => (false, core)
  | frame :: rest, core =>
      match core.send accepts frame with
      | (true, core) => sendBuffered rest core
      | (false, core) =>
          (true,
            { core with session := { core.session with closing := true } })

def attachStreamLocked (core : Core) : List (Action Reply) × Core :=
  let attached := { core with
    session := { core.session with stream := true }
    attached := true }
  let (failed, core) :=
    sendBuffered accepts attached.session.bufferedFrames attached
  let shouldClose := failed || core.session.closing
  ((if failed && core.session.cancelCallback then [.callCancel] else []) ++
      (if shouldClose then [.closeStream] else []),
    { core with session := { core.session with bufferedFrames := [] } })

def executeDeferred (deferred : DeferredActions) : List (Action Reply) :=
  if deferred.cancelCallback then [.callCancel] else []

def closeLocked (core : Core) : List (Action Reply) × Core :=
  if core.session.closing && !core.session.stream then ([], core)
  else if core.session.stream then
    ([.closeStream], { core with session := { core.session with
      closing := true, stream := false, bufferedFrames := [] } })
  else
    ([], { core with session := { core.session with closing := true } })

def pushTokenLocked (token : StdString) (core : Core) :
    Except StdException (List (Action Reply) × Core) :=
  if token.isEmpty then .ok ([], core)
  else if !core.session.metadataReady then
    .ok ([], { core with session := { core.session with
      pendingTokens := core.session.pendingTokens ++ [token] } })
  else
    (format.token core.session.header token).map fun (header, frame) =>
      let (deferred, core) :=
        pushFrameLocked accepts frame (core.recordToken header frame)
      (executeDeferred deferred ++ (if deferred.shouldClose then [.close] else []),
        core)

/-- `finish_success` and `finish_error`, once their frames are known. -/
def finishLocked (core : Core)
    (frames : Except StdException (Header × List StdString)) :
    Except StdException (List (Action Reply) × Core) :=
  frames.map fun (header, frames) =>
    let (deferred, core) :=
      pushFramesLocked accepts frames (core.setHeader header)
    (deferred.flatMap executeDeferred ++ [.close], core)

/-- One step, and what its thread goes on to do. -/
def Action.exec (core : Core) :
    Action Reply → Except StdException (List (Action Reply) × Core)
  | .setMetadata completionId created modelId =>
      .ok (core.session.pendingTokens.map .pushToken,
        { core with session := { core.session with
          header := { core.session.header with completionId, created, modelId }
          metadataReady := true
          pendingTokens := [] } })
  | .setCancelCallback =>
      .ok ([], { core with session := { core.session with
        cancelCallback := true } })
  | .attachStream => .ok (attachStreamLocked accepts core)
  | .pushToken token => pushTokenLocked format accepts token core
  | .finishSuccess response =>
      finishLocked accepts core (format.success core.session.header response)
  | .finishError error =>
      finishLocked accepts core (format.failure core.session.header error)
  | .close => .ok (closeLocked core)
  | .callCancel => .ok ([], { core with wire := core.wire ++ [.cancel] })
  | .closeStream => .ok ([], { core with wire := core.wire ++ [.close] })

end Sections

inductive Pushed (frame : StdString) (core : Core) :
    DeferredActions → Core → Prop
  | dropped (closing : core.session.closing = true) :
      Pushed frame core {} { core with frames := core.frames ++ [frame] }
  | buffered (opened : core.session.closing = false)
      (unattached : core.session.stream = false) :
      Pushed frame core {} { core with
        frames := core.frames ++ [frame]
        session := { core.session with
          bufferedFrames := core.session.bufferedFrames ++ [frame] } }
  | sent (opened : core.session.closing = false)
      (attached : core.session.stream = true) :
      Pushed frame core {} { core with
        frames := core.frames ++ [frame]
        wire := core.wire ++ [.send frame true] }
  | refused (opened : core.session.closing = false)
      (attached : core.session.stream = true) :
      Pushed frame core ⟨true, core.session.cancelCallback⟩ { core with
        frames := core.frames ++ [frame]
        wire := core.wire ++ [.send frame false]
        session := { core.session with closing := true } }

theorem pushFrameLocked_pushed (accepts : Nat → Bool) (frame : StdString)
    (core : Core) :
    Pushed frame core (pushFrameLocked accepts frame core).1
      (pushFrameLocked accepts frame core).2 := by
  obtain ⟨⟨header, ready, stream, buffered, pending, cancel, closing⟩,
    wire, frames, tokenFrames, attached⟩ := core
  cases closing with
  | true => exact .dropped rfl
  | false =>
      cases stream with
      | false => exact .buffered rfl rfl
      | true =>
          unfold pushFrameLocked Core.send
          dsimp only
          cases accepts (wire.countP WireEvent.isSend) with
          | true => exact .sent rfl rfl
          | false => exact .refused rfl rfl

/-- The first chunk carries the role. -/
def contentChunk (header : Header) (content : Option StdString) : StdString :=
  if !header.sentRole then
    makeFirstStreamingChunk header.completionId header.created
      header.modelId content none
  else
    makeStreamingChunk header.completionId header.created header.modelId
      content none

def streamingFormat (json : JsonLibrary) : Format CompletionResult where
  token header token :=
    .ok ({ header with sentRole := true, sentContent := true },
      contentChunk header token)
  success header response :=
    let stop := makeStreamingChunk header.completionId header.created
      header.modelId none (literal "stop")
    let opening :=
      if !header.sentRole then
        [contentChunk header
          (if response.text.isEmpty then none else some response.text)]
      else if !header.sentContent && !response.text.isEmpty then
        [contentChunk header response.text]
      else []
    .ok ({ header with
        sentRole := true
        sentContent := header.sentContent || !response.text.isEmpty },
      opening ++ [stop, makeSseDone])
  failure header error :=
    if !header.sentContent && !header.sentRole then
      (makeSseData json (makeErrorBody error)).map fun frame =>
        (header, [frame])
    else .ok (header, [])

def extractionFormat (json : JsonLibrary) : Format ExtractionResult where
  token header token :=
    (makeSseData json (Json.objectOf [(literal "delta", .string token)])).map
      fun frame => (header, frame)
  success header response :=
    (makeSseData json (makeExtractionBody json header.completionId
      header.created header.modelId response)).map
      fun frame => (header, [frame, makeSseDone])
  failure header error :=
    (makeSseData json (makeErrorBody error)).map fun frame => (header, [frame])

end ZooKeeperServer.Streaming
