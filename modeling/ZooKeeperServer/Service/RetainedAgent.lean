import ZooKeeperServer.Server.Conversation
import ZooKeeperServer.SessionStore.History

namespace ZooKeeperServer.Service

/-! The pure parts of the chat service: system prompts and the history the shared
agent retains. -/

/-- `static_cast<int>` of a `size_t`. -/
def toInt (value : Nat) : Int := (value : Int).bmod (2 ^ 32)

/-- In the source the sum is an `int`, which it is as long as it is below 2^31; beyond
that the overflow there is undefined. -/
def estimateHistoryTokens (history : List ChatMessage) : Int :=
  history.foldl
    (fun total message => total + (toInt (message.content.length / 4) + 8)) 0

def makeAgentHistorySnapshot (contextSize : Int)
    (history : List ChatMessage) : AgentHistorySnapshot :=
  { messages := history
    estimatedTokens := estimateHistoryTokens history
    contextSize
    contextExceeded := decide (contextSize < estimateHistoryTokens history) }

def updateSystemPromptState (prompt : StdString) :
    List ChatMessage → List ChatMessage
  | [] => if prompt.isEmpty then [] else [.system prompt]
  | front :: rest =>
      if front.role = .system then
        if prompt.isEmpty then rest else { front with content := prompt } :: rest
      else if prompt.isEmpty then front :: rest
      else .system prompt :: front :: rest

def resetAgentHistoryToSystemPrompt (prompt : StdString) : List ChatMessage :=
  if prompt.isEmpty then [] else [.system prompt]

/-- Both overloads of `prepare_messages`, which differ in the request type. -/
def prepareMessages (prompt : StdString) (messages : List ChatMessage) :
    List ChatMessage :=
  if prompt.isEmpty then messages
  else
    match messages with
    | [] => [.system prompt]
    | front :: rest =>
        if front.role = .system then
          .system (combineSystemPrompts prompt front.content) :: rest
        else .system prompt :: front :: rest

end ZooKeeperServer.Service
