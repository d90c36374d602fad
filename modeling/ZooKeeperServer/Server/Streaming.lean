import ZooKeeperServer.Server.ApiJson

namespace ZooKeeperServer

/-! The frames of a server-sent event stream. -/

def stdToStringInt : Int → StdString
  | .ofNat value => stdToString value
  | .negSucc value => literal "-" ++ stdToString (value + 1)

def hexDigit (digit : UInt8) : UInt8 :=
  if digit < 10 then 0x30 + digit else 0x57 + digit

def escapeByte (byte : UInt8) : StdString :=
  if byte = 0x22 then literal "\\\""
  else if byte = 0x5c then literal "\\\\"
  else if byte = 0x08 then literal "\\b"
  else if byte = 0x0c then literal "\\f"
  else if byte = 0x0a then literal "\\n"
  else if byte = 0x0d then literal "\\r"
  else if byte = 0x09 then literal "\\t"
  else if byte < 0x20 then
    literal "\\u00" ++ [hexDigit ((byte >>> 4) &&& 0xf), hexDigit (byte &&& 0xf)]
  else [byte]

def jsonEscaped (text : StdString) : StdString :=
  text.flatMap escapeByte

/-! What `dump` gives for values whose strings are ASCII and whose only double is
zero. -/

def invalidUtf8 : StdException :=
  ⟨literal "[json.exception.type_error.316] invalid UTF-8 byte"⟩

def quoted (text : StdString) : Except StdException StdString :=
  if text.all (· < 0x80) then .ok (literal "\"" ++ jsonEscaped text ++ literal "\"")
  else .error invalidUtf8

mutual

def compact : Json → Except StdException StdString
  | .null => .ok (literal "null")
  | .boolean value => .ok (literal (if value then "true" else "false"))
  | .integer value => .ok (stdToStringInt value)
  | .double _ => .ok (literal "0.0")
  | .string text => quoted text
  | .array elements => do
      .ok (literal "[" ++ (← compactElements elements) ++ literal "]")
  | .object members => do
      .ok (literal "\x7b" ++ (← compactMembers members) ++ literal "\x7d")

def compactElements : List Json → Except StdException StdString
  | [] => .ok []
  | element :: rest => do
      let text ← compact element
      let others ← compactElements rest
      .ok (text ++ (if rest.isEmpty then [] else literal ",") ++ others)

def compactMembers :
    List (StdString × Json) → Except StdException StdString
  | [] => .ok []
  | (key, value) :: rest => do
      let name ← quoted key
      let text ← compact value
      let others ← compactMembers rest
      .ok (name ++ literal ":" ++ text ++
        (if rest.isEmpty then [] else literal ",") ++ others)

end

/-- No text is taken for JSON here. -/
def asciiJson : JsonLibrary where
  dump := compact
  parse _ := .error ⟨literal "[json.exception.parse_error.101] parse error"⟩

def makeChunkImpl (completionId : StdString) (created : Int)
    (modelId : StdString) (content : Option StdString) (includeRole : Bool)
    (finishReason : Option StdString) : StdString :=
  literal "data: \x7b\"id\":\"" ++ jsonEscaped completionId ++
    literal "\",\"object\":\"chat.completion.chunk\",\"created\":" ++
    stdToStringInt created ++ literal ",\"model\":\"" ++ jsonEscaped modelId ++
    literal "\",\"choices\":[\x7b\"index\":0,\"delta\":\x7b" ++
    (if includeRole then literal "\"role\":\"assistant\"" else []) ++
    (match content with
      | none => []
      | some text =>
          (if includeRole then literal "," else []) ++
            literal "\"content\":\"" ++ jsonEscaped text ++ literal "\"") ++
    literal "\x7d,\"finish_reason\":" ++
    (match finishReason with
      | none => literal "null"
      | some reason => literal "\"" ++ jsonEscaped reason ++ literal "\"") ++
    literal "\x7d]\x7d" ++ literal "\n\n"

def makeFirstStreamingChunk (completionId : StdString) (created : Int)
    (modelId : StdString) (content finishReason : Option StdString) :
    StdString :=
  makeChunkImpl completionId created modelId content true finishReason

def makeStreamingChunk (completionId : StdString) (created : Int)
    (modelId : StdString) (content finishReason : Option StdString) :
    StdString :=
  makeChunkImpl completionId created modelId content false finishReason

def makeSseData (json : JsonLibrary) (payload : Json) :
    Except StdException StdString :=
  (json.dump payload).map fun text => literal "data: " ++ text ++ literal "\n\n"

def makeSseDone : StdString := literal "data: [DONE]\n\n"

end ZooKeeperServer
