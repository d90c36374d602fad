import Mathlib.Data.Finmap
import ZooKeeperServer.SessionStore.Sequential
import ZooKeeperServer.Transition.Linearization

namespace ZooKeeperServer.SessionStore

open Transition

/-! What the store is for: a directory of conversations.  Each of its operations
happens at once, and nothing in it depends on the time. -/

structure Conversation where
  history : List ChatMessage
  active : Option RequestId := none

structure Directory where
  basePrompt : StdString
  nextNumber : Nat := 1
  conversations : Finmap fun _ : StdString => Conversation := ∅
  stopping : Bool := false

/-- The directory may let an idle conversation expire at any time. -/
inductive Operation
  | call (call : Call)
  | expire (sessionId : StdString)

/-- What a caller learns, apart from the dates. -/
inductive Reply
  | done
  | named (result : ApiResult (StdString × StdString))
  | deleted (result : ApiResult Unit)
  | begun (result : ApiResult (List ChatMessage × ChatMessage))
  | expired

namespace Conversation

def begin (user : ChatMessage) (requestId : RequestId)
    (conversation : Conversation) : Conversation × Reply :=
  if conversation.active.isSome then
    (conversation, .begun (.error sessionBusyError))
  else
    ({ conversation with active := some requestId },
      .begun (.ok (conversation.history ++ [user], user)))

def commit (settings : Settings) (requestId : RequestId) (user : ChatMessage)
    (text : RuntimeResult StdString) (conversation : Conversation) :
    Conversation × Reply :=
  if conversation.active ≠ some requestId then (conversation, .done)
  else
    match text with
    | .ok reply =>
        ({ history :=
            trimHistoryToFit (conversation.history ++ [user, .assistant reply])
              settings.maxHistoryMessages }, .done)
    | .error _ => ({ history := conversation.history }, .done)

def release (requestId : RequestId) (conversation : Conversation) :
    Conversation × Reply :=
  if conversation.active ≠ some requestId then (conversation, .done)
  else ({ history := conversation.history }, .done)

end Conversation

namespace Directory

def update (sessionId : StdString)
    (act : Conversation → Conversation × Reply) (missing : Reply)
    (directory : Directory) : Directory × Reply :=
  match directory.conversations.lookup sessionId with
  | none => (directory, missing)
  | some conversation =>
      ({ directory with
          conversations :=
            directory.conversations.insert sessionId (act conversation).1 },
        (act conversation).2)

def create (settings : Settings) (request : SessionCreateRequest)
    (directory : Directory) : Directory × Reply :=
  match validateCreate settings request with
  | .error error => (directory, .named (.error error))
  | .ok () =>
      if directory.stopping then (directory, .named (.error stoppingError))
      else if settings.config.maxSessions ≤
          directory.conversations.keys.card then
        (directory, .named (.error capacityError))
      else
        ({ directory with
            nextNumber := directory.nextNumber + 1
            conversations :=
              directory.conversations.insert (sessionName directory.nextNumber)
                { history :=
                    makeInitialHistory directory.basePrompt
                      request.systemPrompt } },
          .named (.ok (sessionName directory.nextNumber, settings.modelId)))

def get (settings : Settings) (sessionId : StdString) (directory : Directory) :
    Directory × Reply :=
  if !settings.config.enabled then (directory, .named (.error disabledError))
  else if sessionId ∈ directory.conversations then
    (directory, .named (.ok (sessionId, settings.modelId)))
  else (directory, .named (.error (unknownSessionError sessionId)))

def delete (settings : Settings) (sessionId : StdString)
    (directory : Directory) : Directory × Reply :=
  if !settings.config.enabled then (directory, .deleted (.error disabledError))
  else if sessionId ∈ directory.conversations then
    ({ directory with
        conversations := directory.conversations.erase sessionId },
      .deleted (.ok ()))
  else (directory, .deleted (.error (unknownSessionError sessionId)))

def begin (settings : Settings) (request : ChatCompletionRequest)
    (requestId : RequestId) (directory : Directory) : Directory × Reply :=
  match validateBegin settings request with
  | .error error => (directory, .begun (.error error))
  | .ok (sessionId, user) =>
      directory.update sessionId (Conversation.begin user requestId)
        (.begun (.error (unknownSessionError sessionId)))

def stop (directory : Directory) : Directory × Reply :=
  if directory.stopping then (directory, .done)
  else ({ directory with stopping := true, conversations := ∅ }, .done)

def expire (sessionId : StdString) (directory : Directory) :
    Directory × Reply :=
  match directory.conversations.lookup sessionId with
  | some ⟨_, none⟩ =>
      ({ directory with
          conversations := directory.conversations.erase sessionId }, .expired)
  | _ => (directory, .done)

def perform (settings : Settings) (directory : Directory) :
    Operation → Directory × Reply
  | .expire sessionId => directory.expire sessionId
  | .call .reapExpiredSessions => (directory, .done)
  | .call (.createSession request) => directory.create settings request
  | .call (.getSession sessionId) => directory.get settings sessionId
  | .call (.deleteSession sessionId) => directory.delete settings sessionId
  | .call (.setBaseSystemPrompt prompt) =>
      ({ directory with basePrompt := prompt }, .done)
  | .call (.beginRequest request requestId) =>
      directory.begin settings request requestId
  | .call (.commitResult sessionId requestId user result) =>
      directory.update sessionId
        (Conversation.commit settings requestId user
          (result.map CompletionResult.text)) .done
  | .call (.commitResponseText sessionId requestId user result) =>
      directory.update sessionId
        (Conversation.commit settings requestId user result) .done
  | .call (.releaseRequest sessionId requestId) =>
      directory.update sessionId (Conversation.release requestId) .done
  | .call .stop => directory.stop

end Directory

def SessionState.conversation (session : SessionState) : Conversation :=
  ⟨session.history, session.activeRequest⟩

structure Represents (store : Store) (directory : Directory) : Prop where
  basePrompt : directory.basePrompt = store.baseSystemPrompt
  nextNumber : directory.nextNumber = store.nextSessionId
  stopping : directory.stopping = store.stopping
  conversations : ∀ sessionId, directory.conversations.lookup sessionId =
    (store.find sessionId).map fun held => held.2.conversation

def initialDirectory (basePrompt : StdString) : Directory := { basePrompt }

theorem initialStore_represents (basePrompt : StdString) :
    Represents (initialStore basePrompt) (initialDirectory basePrompt) :=
  ⟨rfl, rfl, rfl, fun _ => rfl⟩

section Representing

variable {settings : Settings} {store next : Store} {directory : Directory}
  {sessionId : StdString} {ptr : SessionPtr} {session : SessionState}

theorem Represents.found (represents : Represents store directory)
    (found : store.find sessionId = some (ptr, session)) :
    directory.conversations.lookup sessionId = some session.conversation := by
  rw [represents.conversations, found]
  rfl

theorem Represents.missing (represents : Represents store directory)
    (missing : store.find sessionId = none) :
    directory.conversations.lookup sessionId = none := by
  rw [represents.conversations, missing]
  rfl

theorem Represents.mem (represents : Represents store directory) :
    sessionId ∈ directory.conversations ↔
      (store.find sessionId).isSome = true := by
  rw [← Finmap.lookup_isSome, represents.conversations, Option.isSome_map]

theorem Represents.card (represents : Represents store directory)
    (formed : WellFormed store) :
    directory.conversations.keys.card = store.sessions.entries.length := by
  have same : directory.conversations.keys = store.sessions.keys.toFinset := by
    ext sessionId
    rw [Finmap.mem_keys, represents.mem, List.mem_toFinset, ← AList.mem_keys,
      ← AList.lookup_isSome, formed.lookup_find, Option.isSome_map]
  have distinct : store.sessions.keys.Nodup := store.sessions.nodupKeys
  rw [same, List.toFinset_card_of_nodup distinct]
  exact List.length_map _

theorem Represents.erase (represents : Represents store directory)
    (removed : StdString) :
    Represents { store with sessions := store.sessions.erase removed }
      { directory with
        conversations := directory.conversations.erase removed } where
  basePrompt := represents.basePrompt
  nextNumber := represents.nextNumber
  stopping := represents.stopping
  conversations := by
    intro sessionId
    rw [find_erase]
    by_cases same : sessionId = removed
    · subst same
      simp [Finmap.lookup_erase]
    · rw [Finmap.lookup_erase_ne same, if_neg same, represents.conversations]

theorem Represents.write (represents : Represents store directory)
    (formed : WellFormed store)
    (found : store.find sessionId = some (ptr, session))
    (updated : SessionState) :
    Represents (store.put ptr updated)
      { directory with
        conversations :=
          directory.conversations.insert sessionId updated.conversation } where
  basePrompt := represents.basePrompt
  nextNumber := represents.nextNumber
  stopping := represents.stopping
  conversations := by
    intro other
    rw [find_put _ _ (find_eq_some.mp found).2]
    by_cases same : other = sessionId
    · subst same
      rw [Finmap.lookup_insert, found]
      simp
    · rw [Finmap.lookup_insert_of_ne _ same, represents.conversations]
      cases again : store.find other with
      | none => rfl
      | some held =>
          obtain ⟨target, held⟩ := held
          have different : target ≠ ptr := by
            rintro rfl
            exact same (formed.find_injective found again)
          simp [different]

structure Similar (store next : Store) : Prop where
  basePrompt : next.baseSystemPrompt = store.baseSystemPrompt
  nextNumber : next.nextSessionId = store.nextSessionId
  stopping : next.stopping = store.stopping
  conversations : ∀ sessionId,
    (next.find sessionId).map (fun held => held.2.conversation) =
      (store.find sessionId).map fun held => held.2.conversation

theorem Similar.refl (store : Store) : Similar store store :=
  ⟨rfl, rfl, rfl, fun _ => rfl⟩

theorem Represents.similar (represents : Represents store directory)
    (similar : Similar store next) : Represents next directory where
  basePrompt := represents.basePrompt.trans similar.basePrompt.symm
  nextNumber := represents.nextNumber.trans similar.nextNumber.symm
  stopping := represents.stopping.trans similar.stopping.symm
  conversations sessionId :=
    (represents.conversations sessionId).trans
      (similar.conversations sessionId).symm

def Unmapped (store : Store) (ptr : SessionPtr) : Prop :=
  ∀ sessionId, store.sessions.lookup sessionId ≠ some ptr

theorem Unmapped.similar (unmapped : Unmapped store ptr)
    (found : store.heap[ptr]? = some session) (updated : SessionState) :
    Similar store (store.put ptr updated) := by
  refine ⟨rfl, rfl, rfl, fun sessionId => ?_⟩
  rw [find_put _ _ found]
  cases again : store.find sessionId with
  | none => rfl
  | some held =>
      obtain ⟨target, held⟩ := held
      have different : target ≠ ptr := by
        rintro rfl
        exact unmapped sessionId (find_eq_some.mp again).1
      simp [different]

end Representing

def Clears (settings : Settings) (sessionId : StdString)
    (directory : Directory) : Operation → Prop
  | .call (.deleteSession other) =>
      other = sessionId ∧ settings.config.enabled = true
  | .call .stop => directory.stopping = false
  | _ => False

section Clearing

variable {settings : Settings} {directory : Directory} {sessionId : StdString}
  {act : Conversation → Conversation × Reply} {missing : Reply}
  {operation last : Operation} {conversation : Conversation}

theorem update_lookup (other : StdString) (different : other ≠ sessionId) :
    (directory.update sessionId act missing).1.conversations.lookup other =
      directory.conversations.lookup other := by
  unfold Directory.update
  split
  · rfl
  · exact Finmap.lookup_insert_of_ne _ different

theorem update_found
    (found : directory.conversations.lookup sessionId = some conversation) :
    directory.update sessionId act missing =
      ({ directory with
          conversations :=
            directory.conversations.insert sessionId (act conversation).1 },
        (act conversation).2) := by
  simp [Directory.update, found]

theorem update_stopping :
    (directory.update sessionId act missing).1.stopping =
      directory.stopping := by
  unfold Directory.update
  split
  · rfl
  · rfl

theorem Clears.update {cleared : StdString}
    (clears : Clears settings cleared directory last) :
    Clears settings cleared (directory.update sessionId act missing).1 last := by
  cases last with
  | expire other => exact clears
  | call call =>
      cases call with
      | stop => exact update_stopping.trans clears
      | _ => exact clears

theorem erase_insert {conversations : Finmap fun _ : StdString => Conversation} :
    (conversations.insert sessionId conversation).erase sessionId =
      conversations.erase sessionId := by
  apply Finmap.ext_lookup
  intro other
  by_cases same : other = sessionId
  · subst same
    rw [Finmap.lookup_erase, Finmap.lookup_erase]
  · rw [Finmap.lookup_erase_ne same, Finmap.lookup_erase_ne same,
      Finmap.lookup_insert_of_ne _ same]

/-- Nobody sees what happens to a conversation just before it goes. -/
theorem Clears.absorbs (clears : Clears settings sessionId directory last)
    (present : sessionId ∈ directory.conversations)
    (updates : directory.perform settings operation =
      directory.update sessionId act missing) :
    Absorbed (Directory.perform settings) operation directory last := by
  obtain ⟨conversation, found⟩ := Finmap.mem_iff.mp present
  rw [Absorbed, updates, update_found found]
  cases last with
  | expire other => exact clears.elim
  | call call =>
      cases call with
      | deleteSession other =>
          obtain ⟨rfl, enabled⟩ := clears
          simp [Directory.perform, Directory.delete, enabled, present,
            erase_insert]
      | stop =>
          have running : directory.stopping = false := clears
          simp [Directory.perform, Directory.stop, running]
      | _ => exact clears.elim

end Clearing

end ZooKeeperServer.SessionStore
