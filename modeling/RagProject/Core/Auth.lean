import RagProject.Core.Csrf
import RagProject.Core.LoginRateLimiter
import RagProject.Lib.Interleaving
import RagProject.Lib.Url

/-! Logins, sessions and the requests they let in (services/auth_service.py, services/csrf_service.py,
api/deps.py), as steps of requests that are worked on at the same time. Each step is one read or one
transaction of the database, or one call of the rate limiter. -/
namespace RagProject.Core
open Python

/-- The tables of numbers and of URLs together. -/
class AuthTables extends DigitTables, UrlTables

section Rows

structure Role where
  roleId : Nat
  roleName : List Char
  deriving DecidableEq, Repr

inductive UserStatus where
  | active | disabled
  deriving DecidableEq, Repr

structure User where
  userId : Nat
  roleId : Nat
  email : List Char
  passwordHash : Option (List Char)
  status : UserStatus
  deriving DecidableEq, Repr

/-- A row of user_sessions; the times are microseconds. -/
structure UserSession where
  sessionId : Nat
  userId : Nat
  sessionTokenHash : List Char
  csrfStateHash : Option (List Char)
  expiresAt : Int
  revokedAt : Option Int
  deriving DecidableEq, Repr

/-- The table user_sessions with its two unique keys. -/
structure SessionTable where
  rows : List UserSession
  ids : (rows.map UserSession.sessionId).Nodup
  tokens : (rows.map UserSession.sessionTokenHash).Nodup

def SessionTable.empty : SessionTable := ⟨[], .nil, .nil⟩

def adminRole : List Char := "admin".toList
def viewerRole : List Char := "viewer".toList
def knownRoles : List (List Char) := [adminRole, viewerRole]

/-- ensure_role. -/
def ensureRole (roleName : List Char) (allowed : List (List Char)) : Bool :=
  knownRoles.contains roleName && allowed.contains roleName

end Rows

section Requests

structure AuthSettings where
  csrf : CsrfSettings
  login : LoginSettings
  corsAllowedOrigins : List (List Char)
  trustedProxyIps : List (List Char)
  sessionCookieMaxAgeSeconds : Nat

/-- What the code reads of a request. -/
structure AuthRequest where
  method : List Char
  requestOrigin : List Char
  originHeader : Option (List Char)
  refererHeader : Option (List Char)
  csrfHeader : Option (List Char)
  forwardedFor : Option (List Char)
  peerHost : Option (List Char)
  sessionCookie : Option (List Char)
  preAuthCookie : Option (List Char)
  deriving DecidableEq, Repr

/-- A value that is there and not empty. -/
def given (value : Option (List Char)) : Option (List Char) := value.filter (· ≠ [])

variable (settings : AuthSettings) (request : AuthRequest)

def clientIp : Option (List Char) :=
  let peerIp := request.peerHost.map (·.take 45)
  match given request.forwardedFor with
  | some forwarded =>
    if peerIp.any settings.trustedProxyIps.contains then
      given (some ((strip (partition ',' forwarded).1).take 45))
    else peerIp
  | none => peerIp

def originAllowed (origin : List Char) : Bool :=
  settings.corsAllowedOrigins.contains origin || origin == request.requestOrigin

/-- The origin of a referer that has a scheme and a netloc. -/
def refererOrigin (parsed : Url) : List Char :=
  if parsed.scheme ≠ [] ∧ parsed.netloc ≠ [] then
    parsed.scheme ++ [':', '/', '/'] ++ parsed.netloc
  else []

/-- validate_origin_or_referer, where urlparse may raise a ValueError. -/
def validateOriginOrReferer [UrlTables] : Except CsrfFailure Unit :=
  match given request.originHeader, given request.refererHeader with
  | some origin, _ => if originAllowed settings request origin then .ok () else .error .csrfInvalid
  | none, some referer =>
    match urlSplit referer with
    | none => .error .valueError
    | some parsed =>
      let origin := refererOrigin parsed
      if origin ≠ [] ∧ originAllowed settings request origin then .ok ()
      else .error .csrfInvalid
  | none, none => .error .csrfInvalid

/-- validate_pre_auth_csrf, at a time in seconds. -/
def validatePreAuthCsrf [AuthTables] (seconds : Int) : Except CsrfFailure Unit :=
  match given request.csrfHeader with
  | none => .error .csrfMissing
  | some token => do
    validateOriginOrReferer settings request
    let _ ← verifyPreAuthState settings.csrf seconds token request.preAuthCookie
    return ()

def safeMethods : List (List Char) := ["GET".toList, "HEAD".toList, "OPTIONS".toList]

def sessionIsActive (session : UserSession) (now : Int) : Bool :=
  session.revokedAt.isNone && now < session.expiresAt

/-- validate_session_csrf, for the session as it was read. -/
def validateSessionCsrf [UrlTables] (session : UserSession) (now : Int) : Except CsrfFailure Unit :=
  if safeMethods.contains request.method then .ok ()
  else
    match given request.csrfHeader with
    | none => .error .csrfMissing
    | some token => do
      validateOriginOrReferer settings request
      if !sessionIsActive session now then .error .csrfInvalid
      else if !(← verifyTokenHash settings.csrf token (session.csrfStateHash.getD [])) then
        .error .csrfInvalid
      else return ()

end Requests

section Passwords

/-- pwd_context.verify, false where it raises. -/
abbrev Verify := List Char → List Char → Bool

def dummyPasswordHash : List Char :=
  "$2b$12$C6UzMDM.H6dfI/f/IKcEeO6Xq1yHYGg4KzucLSlbJjY1dxT9fF6Cy".toList

def verifyPassword (verify : Verify) (password : List Char) (passwordHash : Option (List Char)) :
    Bool :=
  (given passwordHash).any (verify password)

def verifyPasswordOrDummy (verify : Verify) (password : List Char)
    (passwordHash : Option (List Char)) : Bool :=
  verifyPassword verify password (some ((given passwordHash).getD dummyPasswordHash))

def normalizeEmail [UnicodeTables] (email : List Char) : List Char := lower (strip email)

end Passwords

section States

/-- A login as it was sent, and when its pre-auth state was checked. -/
structure LoginAttempt where
  request : AuthRequest
  email : List Char
  password : List Char
  seconds : Int
  monotonic : Rat
  deriving DecidableEq, Repr

/-- A route behind a session: logout, or another one with its dependencies. -/
inductive Route where
  | logout
  | guarded (requiresCsrf : Bool) (allowedRoles : List (List Char))
  deriving DecidableEq, Repr

def Route.requiresCsrf : Route → Bool
  | .logout => true
  | .guarded requiresCsrf _ => requiresCsrf

/-- Logout asks for no role but the known ones. -/
def Route.allowedRoles : Route → List (List Char)
  | .logout => knownRoles
  | .guarded _ allowedRoles => allowedRoles

inductive Call where
  | issueCsrf (request : AuthRequest)
  | login (request : AuthRequest) (email password : List Char)
  | enter (request : AuthRequest) (route : Route)
  deriving DecidableEq, Repr

/-- The session that a request found, with the time at which it was found active. -/
structure Entry where
  request : AuthRequest
  route : Route
  cookie : List Char
  session : UserSession
  readAt : Int
  deriving DecidableEq, Repr

structure SessionContext where
  entry : Entry
  user : User
  roleName : List Char
  deriving DecidableEq, Repr

/-- How far a request has come. -/
inductive Pending where
  | arrived (call : Call)
  | allowed (attempt : LoginAttempt)
  | lookedUp (attempt : LoginAttempt) (user : Option User)
  | judged (attempt : LoginAttempt) (verdict : Option (User × List Char))
  | opening (attempt : LoginAttempt) (user : User) (roleName : List Char)
  | renewing (request : AuthRequest) (session : UserSession)
  | writing (session : UserSession) (token : List Char)
  | sessionRead (entry : Entry)
  | userRead (entry : Entry) (user : User)
  | context (context : SessionContext)
  deriving DecidableEq, Repr

/-- A committed change of the sessions or the users. -/
inductive Change where
  | opened (session : UserSession) (attempt : LoginAttempt) (user : User) (roleName : List Char)
  | renewed (sessionId : Nat) (csrfStateHash : List Char)
  | closed (sessionId : Nat) (revokedAt : Int) (context : SessionContext)
  | userDeleted (userId : Nat)
  deriving DecidableEq, Repr

/-- What a change makes of a row of user_sessions that it keeps. -/
def Change.age : Change → UserSession → UserSession
  | .renewed sessionId csrfStateHash, row =>
    if row.sessionId = sessionId then { row with csrfStateHash := some csrfStateHash } else row
  | .closed sessionId revokedAt _, row =>
    if row.sessionId = sessionId then { row with revokedAt := some revokedAt, csrfStateHash := none }
    else row
  | .opened .., row | .userDeleted _, row => row

/-- The sessions of a deleted user go with it. -/
def Change.keeps : Change → UserSession → Bool
  | .userDeleted userId, row => row.userId ≠ userId
  | _, _ => true

/-- The row that a change inserts. -/
def Change.inserts : Change → List UserSession
  | .opened session .. => [session]
  | _ => []

structure AuditLog where
  actionType : String
  actorUserId : Option Nat
  errorCode : Option String
  deriving DecidableEq, Repr

inductive Answer where
  | csrfToken (token : List Char) (preAuthState : Option (List Char))
  | rateLimitExceeded
  | authenticationFailed
  | loggedIn (userId : Nat) (sessionToken csrfToken : List Char)
  | csrfFailure (failure : CsrfFailure)
  | authenticationRequired
  | permissionDenied
  | entered (context : SessionContext)
  | loggedOut (context : SessionContext)
  /-- A constraint of the database, or a row that is gone. -/
  | serverError
  deriving DecidableEq, Repr

structure AuthState where
  users : List User
  roles : List Role
  sessions : SessionTable
  limiter : LoginRateLimiter
  pending : Nat → Option Pending
  /-- The committed changes, the latest first. -/
  history : List Change
  auditLogs : List AuditLog
  answers : List (Nat × Answer)

/-- A database without sessions. -/
def AuthState.start (users : List User) (roles : List Role) : AuthState :=
  ⟨users, roles, .empty, .empty, fun _ => none, [], [], []⟩

namespace AuthState
variable (s : AuthState)

def park (n : Nat) (pending : Pending) : AuthState :=
  { s with pending := fun m => if m = n then some pending else s.pending m }

def answer (n : Nat) (answer : Answer) : AuthState :=
  { s with
    pending := fun m => if m = n then none else s.pending m
    answers := (n, answer) :: s.answers }

def audit (actionType : String) (actorUserId : Option Nat) (errorCode : Option String) : AuthState :=
  { s with auditLogs := ⟨actionType, actorUserId, errorCode⟩ :: s.auditLogs }

end AuthState
end States

section Tables

theorem Change.age_keys (change : Change) (row : UserSession) :
    (change.age row).sessionId = row.sessionId ∧
      (change.age row).sessionTokenHash = row.sessionTokenHash := by
  cases change with
  | opened | userDeleted => exact ⟨rfl, rfl⟩
  | renewed =>
    simp only [Change.age]
    constructor <;> split <;> rfl
  | closed =>
    simp only [Change.age]
    constructor <;> split <;> rfl

namespace SessionTable
variable (table : SessionTable)

/-- A change that inserts no row. -/
def aged (change : Change) : SessionTable where
  rows := (table.rows.filter change.keeps).map change.age
  ids := by
    rw [Table.map_keys fun row _ => (change.age_keys row).1]
    exact Table.filter_distinct table.ids _
  tokens := by
    rw [Table.map_keys fun row _ => (change.age_keys row).2]
    exact Table.filter_distinct table.tokens _

/-- The two unique keys of a row that is inserted. -/
def Fresh (session : UserSession) : Prop :=
  session.sessionId ∉ table.rows.map UserSession.sessionId ∧
    session.sessionTokenHash ∉ table.rows.map UserSession.sessionTokenHash

instance (session : UserSession) : Decidable (table.Fresh session) := by
  unfold Fresh
  infer_instance

def insert (session : UserSession) (fresh : table.Fresh session) : SessionTable where
  rows := table.rows ++ [session]
  ids := Table.append_distinct table.ids fun _ member same =>
    fresh.1 (same ▸ List.mem_map_of_mem member)
  tokens := Table.append_distinct table.tokens fun _ member same =>
    fresh.2 (same ▸ List.mem_map_of_mem member)

/-- get_session_by_raw_token. -/
def byRawToken (settings : CsrfSettings) (rawSessionToken : List Char) : Option UserSession :=
  Table.row UserSession.sessionTokenHash table.rows (hashToken settings rawSessionToken)

end SessionTable
end Tables

section Steps

/-- The clocks at a step, and what it draws at random. -/
structure Moment where
  now : Int
  monotonic : Rat
  sessionToken : List Char
  csrfToken : List Char
  sessionId : Nat
  deriving DecidableEq, Repr

/-- int(time.time()). -/
def Moment.seconds (moment : Moment) : Int := moment.now / 1000000

variable [AuthTables] (settings : AuthSettings) (verify : Verify)

def hashText (text : String) : String := String.ofList (hashToken settings.csrf text.toList)

def LoginAttempt.normalizedEmail (attempt : LoginAttempt) : List Char := normalizeEmail attempt.email

def LoginAttempt.key (attempt : LoginAttempt) : LoginKey :=
  ⟨String.ofList attempt.normalizedEmail,
    (clientIp settings attempt.request).map String.ofList⟩

/-- The verdict of login on a user and its role. -/
def credentials (attempt : LoginAttempt) (user : Option User) (roles : List Role) :
    Option (User × List Char) :=
  let passwordOk := verifyPasswordOrDummy verify attempt.password (user.bind User.passwordHash)
  match user with
  | none => none
  | some user =>
    match (roles.find? fun role => role.roleId == user.roleId).map Role.roleName with
    | none => none
    | some roleName =>
      if user.status = .active ∧ roleName ∈ knownRoles ∧ passwordOk then some (user, roleName)
      else none

/-- new_session. -/
def newSession (moment : Moment) (user : User) : UserSession where
  sessionId := moment.sessionId
  userId := user.userId
  sessionTokenHash := hashToken settings.csrf moment.sessionToken
  csrfStateHash := some (hashToken settings.csrf moment.csrfToken)
  expiresAt := moment.now + 1000000 * settings.sessionCookieMaxAgeSeconds
  revokedAt := none

namespace AuthState
variable (s : AuthState) (n : Nat) (moment : Moment)

/-- _audit_csrf_failure; the other failures are not caught. -/
def auditCsrfFailure (failure : CsrfFailure) : AuthState :=
  match failure with
  | .csrfMissing => s.audit "auth.csrf_rejected" none (some "csrf_missing")
  | .csrfInvalid => s.audit "auth.csrf_rejected" none (some "csrf_invalid")
  | .typeError | .valueError => s

/-- The end of issue_csrf_token without a session. -/
def issuePreAuth : AuthState :=
  match makePreAuthState settings.csrf moment.csrfToken none moment.seconds with
  | .ok state => s.answer n (.csrfToken moment.csrfToken (some state))
  | .error _ => s.answer n .serverError

/-- The update of one session, unless its row is gone. -/
def commitUpdate (sessionId : Nat) (change : Change) (logs : List AuditLog) (answer : Answer) :
    AuthState :=
  if s.sessions.rows.any (·.sessionId == sessionId) then
    { s with
      sessions := s.sessions.aged change
      history := change :: s.history
      auditLogs := logs ++ s.auditLogs }.answer n answer
  else s.answer n .serverError

/-- The transaction that ends a login. -/
def commitLogin (attempt : LoginAttempt) (user : User) (roleName : List Char) : AuthState :=
  let session := newSession settings moment user
  if fresh : s.sessions.Fresh session ∧ s.users.any (·.userId == user.userId) then
    ({ s with
      sessions := s.sessions.insert session fresh.1
      history := .opened session attempt user roleName :: s.history }.audit
        "auth.login_success" (some user.userId) none).answer n
      (.loggedIn user.userId moment.sessionToken moment.csrfToken)
  else s.answer n .serverError

/-- The dependencies of a route after its session, and its handler. -/
def enterRoute (context : SessionContext) : AuthState :=
  let entry := context.entry
  let checked := if entry.route.requiresCsrf then
    validateSessionCsrf settings entry.request entry.session moment.now else .ok ()
  match checked with
  | .error failure => (s.auditCsrfFailure failure).answer n (.csrfFailure failure)
  | .ok () =>
    if !ensureRole context.roleName entry.route.allowedRoles then s.answer n .permissionDenied
    else
      match entry.route with
      | .guarded _ _ => s.answer n (.entered context)
      | .logout =>
        s.commitUpdate n entry.session.sessionId
          (.closed entry.session.sessionId moment.now context)
          [⟨"auth.logout_success", some context.user.userId, none⟩] (.loggedOut context)

/-- The next step of a request. -/
def advance : Pending → AuthState
  | .arrived (.issueCsrf request) =>
    match (given request.sessionCookie).bind (s.sessions.byRawToken settings.csrf) with
    | none => s.issuePreAuth settings n moment
    | some session =>
      if sessionIsActive session moment.now then s.park n (.renewing request session)
      else s.issuePreAuth settings n moment
  | .renewing _ session =>
    match s.users.find? fun user => user.userId == session.userId with
    | none => s.issuePreAuth settings n moment
    | some user =>
      if user.status = .active then s.park n (.writing session moment.csrfToken)
      else s.issuePreAuth settings n moment
  | .writing session token =>
    let csrfStateHash := hashToken settings.csrf token
    -- A value that does not change is not written.
    if session.csrfStateHash = some csrfStateHash then s.answer n (.csrfToken token none)
    else s.commitUpdate n session.sessionId (.renewed session.sessionId csrfStateHash) []
      (.csrfToken token none)
  | .arrived (.login request email password) =>
    match validatePreAuthCsrf settings request moment.seconds with
    | .error failure => (s.auditCsrfFailure failure).answer n (.csrfFailure failure)
    | .ok () =>
      let attempt : LoginAttempt := ⟨request, email, password, moment.seconds, moment.monotonic⟩
      let checked := checkAllowed (hashText settings) settings.login s.limiter
        (attempt.key settings) moment.monotonic
      let s := { s with limiter := checked.1 }
      if checked.2 then s.park n (.allowed attempt)
      else (s.audit "auth.login_failure" none (some "rate_limit_exceeded")).answer n
        .rateLimitExceeded
  | .allowed attempt =>
    s.park n (.lookedUp attempt (s.users.find? fun user => user.email == attempt.normalizedEmail))
  | .lookedUp attempt user => s.park n (.judged attempt (credentials verify attempt user s.roles))
  | .judged attempt none =>
    let limiter := recordFailure (hashText settings) settings.login s.limiter
      (attempt.key settings) moment.monotonic
    ({ s with limiter := limiter }.audit "auth.login_failure" none
      (some "authentication_failed")).answer n .authenticationFailed
  | .judged attempt (some (user, roleName)) =>
    let limiter := reset (hashText settings) s.limiter (attempt.key settings)
    { s with limiter := limiter }.park n (.opening attempt user roleName)
  | .opening attempt user roleName => s.commitLogin settings n moment attempt user roleName
  | .arrived (.enter request route) =>
    match given request.sessionCookie with
    | none => s.answer n .authenticationRequired
    | some cookie =>
      match s.sessions.byRawToken settings.csrf cookie with
      | none => s.answer n .authenticationRequired
      | some session =>
        if sessionIsActive session moment.now then
          s.park n (.sessionRead ⟨request, route, cookie, session, moment.now⟩)
        else s.answer n .authenticationRequired
  | .sessionRead entry =>
    match s.users.find? fun user => user.userId == entry.session.userId with
    | none => s.answer n .authenticationRequired
    | some user =>
      if user.status = .active then s.park n (.userRead entry user)
      else s.answer n .authenticationRequired
  | .userRead entry user =>
    match (s.roles.find? fun role => role.roleId == user.roleId).map Role.roleName with
    | none => s.answer n .authenticationRequired
    | some roleName =>
      if roleName ∈ knownRoles then s.park n (.context ⟨entry, user, roleName⟩)
      else s.answer n .authenticationRequired
  | .context context => s.enterRoute settings n moment context

end AuthState

inductive AuthAction where
  | begin (n : Nat) (call : Call)
  | proceed (n : Nat) (moment : Moment)
  /-- The worker or the connection of a request is lost. -/
  | abort (n : Nat)
  | putUser (user : User)
  | deleteUser (userId : Nat)
  | putRoles (roles : List Role)
  deriving DecidableEq, Repr

/-- Logout is a POST. -/
def Call.routed : Call → Bool
  | .enter request .logout => request.method == "POST".toList
  | _ => true

def authStep (s : AuthState) : AuthAction → Option AuthState
  | .begin n call =>
    if (s.pending n).isNone && call.routed then some (s.park n (.arrived call)) else none
  | .proceed n moment => (s.pending n).map (s.advance settings verify n moment)
  | .abort n => some { s with pending := fun m => if m = n then none else s.pending m }
  | .putUser user =>
    if s.users.any fun other => other.userId != user.userId && other.email == user.email then none
    else some { s with users := s.users.filter (·.userId ≠ user.userId) ++ [user] }
  | .deleteUser userId =>
    if s.users.any (·.userId == userId) then
      let change := Change.userDeleted userId
      some { s with
        users := s.users.filter (·.userId ≠ userId)
        sessions := s.sessions.aged change
        history := change :: s.history }
    else none
  | .putRoles roles => some { s with roles := roles }

end Steps
end RagProject.Core
