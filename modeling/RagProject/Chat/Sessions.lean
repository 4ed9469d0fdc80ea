import RagProject.Rag.Ask

/-! ChatService on one chat session, together with the ask requests on it. Every operation of the
service is one transaction under the row lock of the session. An ask request takes that lock at
its entry check and gives it up at its first commit. -/
namespace RagProject.Chat
open Python Jobs Rag

section Rows

inductive SessionStatus where
  | active | archived
  deriving DecidableEq, Repr

/-- A chat_sessions row with its two check constraints. -/
structure ChatSession where
  chatSessionId : Nat
  userId : Nat
  title : String
  status : SessionStatus
  temporaryFlag : Bool
  ttlExpiresAt : Option Time
  archivedAt : Option Time
  createdAt : Time
  updatedAt : Time
  temporaryTtl : temporaryFlag = ttlExpiresAt.isSome
  archivedTime : (status == .archived) = archivedAt.isSome
  deriving DecidableEq, Repr

structure ChatTag where
  chatTagId : Nat
  chatSessionId : Nat
  tagName : String
  createdAt : Time
  deriving DecidableEq, Repr

structure ChatRows where
  session : ChatSession
  tags : List ChatTag
  nextTagId : Nat
  deriving DecidableEq, Repr

inductive ChatError where
  | resourceNotFound
  | archivedSessionReadonly
  | temporarySessionExpired
  | temporarySessionNotArchivable
  | validationFailed (field reason : String)
  deriving DecidableEq, Repr

end Rows

section Names

def maxTitleLength : Nat := 255
def maxTagLength : Nat := 50
def defaultChatTitle : String := "新しい会話"

def normalizeTitle : Option String → Except String String
  | none => .ok defaultChatTitle
  | some value =>
    let title := strip value.toList
    if title.isEmpty then .error "title must not be empty"
    else if title.length > maxTitleLength then .error "title must be at most 255 characters"
    else .ok (String.ofList title)

def normalizeTagName (value : String) : Except String String :=
  let tagName := strip value.toList
  if tagName.isEmpty then .error "tag_name must not be empty"
  else if tagName.length > maxTagLength then .error "tag_name must be at most 50 characters"
  else if tagName.contains '/' || tagName.contains '\\' then
    .error "tag_name must not contain path separators"
  else .ok (String.ofList tagName)

/-- A ValueError of a helper becomes a failed validation of the field. -/
def validated (field : String) : Except String String → Except ChatError String
  | .ok value => .ok value
  | .error reason => .error (.validationFailed field reason)

end Names

section Service
variable (rows : ChatRows)

def getOwnedSession (userId chatSessionId : Nat) : Except ChatError ChatSession :=
  if rows.session.chatSessionId = chatSessionId ∧ rows.session.userId = userId
  then .ok rows.session else .error .resourceNotFound

def isTemporaryExpired (session : ChatSession) (now : Time) : Bool :=
  session.temporaryFlag && session.ttlExpiresAt.any fun expiresAt => expiresAt ≤ now

def ensureSessionWritable (session : ChatSession) (now : Time) : Except ChatError Unit :=
  if session.status = .archived then .error .archivedSessionReadonly
  else if isTemporaryExpired session now then .error .temporarySessionExpired
  else .ok ()

def ensureSessionCanAppendMessages (userId chatSessionId : Nat) (now : Time) :
    Except ChatError ChatSession := do
  let session ← getOwnedSession rows userId chatSessionId
  ensureSessionWritable session now
  return session

def touchSession (updatedAt : Time) : ChatRows :=
  { rows with session := { rows.session with updatedAt := updatedAt } }

inductive DisplayStatus where
  | active | archived | temporary | temporaryExpired
  deriving DecidableEq, Repr

def displayStatus (session : ChatSession) (now : Time) : DisplayStatus :=
  if session.status = .archived then .archived
  else if isTemporaryExpired session now then .temporaryExpired
  else if session.temporaryFlag then .temporary
  else .active

inductive ChatResponse where
  | sessionDetail (session : ChatSession) (mode : DisplayStatus) (tags : List ChatTag)
  | archive (resultCode : String)
  | tagMutation (tagName resultCode : String)
  deriving DecidableEq, Repr

def listTags : List ChatTag := rows.tags.insertionSort fun a b => a.tagName ≤ b.tagName

def getTag (tagName : String) : Option ChatTag :=
  rows.tags.find? fun tag => tag.chatSessionId == rows.session.chatSessionId && tag.tagName == tagName

def updateSessionTitle (userId chatSessionId : Nat) (title : String) (now : Time) :
    Except ChatError (ChatResponse × ChatRows) := do
  let session ← getOwnedSession rows userId chatSessionId
  ensureSessionWritable session now
  let normalizedTitle ← validated "title" (normalizeTitle (some title))
  let updated := { rows with session := { session with title := normalizedTitle, updatedAt := now } }
  return (.sessionDetail updated.session (displayStatus updated.session now) (listTags updated), updated)

def archiveSession (userId chatSessionId : Nat) (now : Time) :
    Except ChatError (ChatResponse × ChatRows) := do
  let session ← getOwnedSession rows userId chatSessionId
  if session.temporaryFlag then throw .temporarySessionNotArchivable
  else if session.status = .archived then return (.archive "already_archived", rows)
  else
    let archived : ChatSession := { session with
      status := .archived, archivedAt := some now, updatedAt := now, archivedTime := rfl }
    return (.archive "archived", { rows with session := archived })

/-- The savepoint around the insert is not modelled: the row lock excludes a second insert of the
same name between the look-up and the insert. -/
def addTag (userId chatSessionId : Nat) (tagName : String) (now : Time) :
    Except ChatError (ChatResponse × ChatRows) := do
  let session ← getOwnedSession rows userId chatSessionId
  ensureSessionWritable session now
  let normalizedTag ← validated "tag_name" (normalizeTagName tagName)
  match getTag rows normalizedTag with
  | some _ => return (.tagMutation normalizedTag "already_exists", rows)
  | none =>
    let tag : ChatTag := ⟨rows.nextTagId, session.chatSessionId, normalizedTag, now⟩
    let inserted := { rows with tags := rows.tags ++ [tag], nextTagId := rows.nextTagId + 1 }
    return (.tagMutation normalizedTag "created", touchSession inserted now)

def deleteTag (userId chatSessionId : Nat) (tagName : String) (now : Time) :
    Except ChatError (ChatResponse × ChatRows) := do
  let session ← getOwnedSession rows userId chatSessionId
  ensureSessionWritable session now
  let normalizedTag ← validated "tag_name" (normalizeTagName tagName)
  match getTag rows normalizedTag with
  | some tag =>
    let removed := { rows with tags := rows.tags.filter fun t => t.chatTagId ≠ tag.chatTagId }
    return (.tagMutation normalizedTag "deleted", touchSession removed now)
  | none => return (.tagMutation normalizedTag "not_found_no_op", rows)

inductive ChatOperation where
  | archiveSession
  | updateSessionTitle (title : String)
  | addTag (tagName : String)
  | deleteTag (tagName : String)
  deriving DecidableEq, Repr

def perform (userId chatSessionId : Nat) (now : Time) :
    ChatOperation → Except ChatError (ChatResponse × ChatRows)
  | .archiveSession => archiveSession rows userId chatSessionId now
  | .updateSessionTitle title => updateSessionTitle rows userId chatSessionId title now
  | .addTag tagName => addTag rows userId chatSessionId tagName now
  | .deleteTag tagName => deleteTag rows userId chatSessionId tagName now

end Service

section Steps

structure ChatSystem where
  rows : ChatRows
  asks : AskSystem
  /-- The ask request that holds the session row FOR UPDATE between two of its steps. -/
  lock : Option Nat

inductive ChatAction where
  | operation (userId chatSessionId : Nat) (operation : ChatOperation) (now : Time)
  | ask (requestId userId : Nat) (payload : RagAskRequest) (now : Time)
  | askEvent (requestId : Nat) (event : AskEvent)
  deriving DecidableEq, Repr

/-- The phases that a request can be in before its transaction with the entry check has ended. -/
def inFirstTransaction : AskPhase → Bool
  | .start | .create | .classify _ | .replay _ _ | .replayAnswer _ _ _ => true
  | _ => false

/-- When a committed step of a request touches the session. -/
def touchedAt : AskEvent → Option AskInFlight → Option Time
  | .create now, some ⟨_, .created _ _⟩ => some now
  | .commit _ now, _ => some now
  | _, _ => none

namespace ChatSystem
variable (s : ChatSystem)

/-- A step of an ask request. Its update of the session waits for the row lock. -/
def advanceAsk (requestId : Nat) (event : AskEvent) : Option ChatSystem :=
  match s.asks.step (.event requestId event) with
  | none => none
  | some asks =>
    let request := asks.requests requestId
    let inside := request.any fun q => inFirstTransaction q.phase
    let lock := if s.lock = some requestId ∧ !inside then none else s.lock
    match touchedAt event request with
    | none => some { s with asks := asks, lock := lock }
    | some now =>
      if s.lock.any (· != requestId) then none
      else some { rows := touchSession s.rows now, asks := asks, lock := lock }

def step : ChatAction → Option ChatSystem
  | .operation userId chatSessionId operation now =>
    if s.lock.isSome then none
    else match perform s.rows userId chatSessionId now operation with
      | .ok (_, rows) => some { s with rows := rows }
      | .error _ => some s
  | .ask requestId userId payload now =>
    if s.lock.isSome then none
    else (s.asks.step (.ask requestId payload)).map fun asks =>
      match ensureSessionCanAppendMessages s.rows userId payload.chatSessionId now with
      | .ok _ => { s with asks := asks, lock := some requestId }
      | .error _ => { s with asks := asks.setPhase requestId payload (.done .raised) }
  | .askEvent requestId event => s.advanceAsk requestId event

end ChatSystem

end Steps

end RagProject.Chat
