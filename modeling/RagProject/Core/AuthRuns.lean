import RagProject.Core.AuthSteps

/-! Over every run of requests that are worked on at the same time, a session is open from the login
that opened it to the logout that closed it, and nothing enters but through one. -/
namespace RagProject.Core
open Python Interleaving

section Steps
variable [AuthTables] {settings : AuthSettings} {verify : Verify}
variable {past : AuthState → Prop} {s t : AuthState}

/-- A step keeps what is known, and changes the sessions by what is known. -/
theorem authStep_known (known : Known settings verify past s) (now : past s) {action : AuthAction}
    (stepped : authStep settings verify s action = some t) :
    Known settings verify past t ∧ Changed settings verify past s t := by
  have worked {n : Nat} {t : AuthState} (step : Worked settings verify past n s t) :
      Known settings verify past t ∧ Changed settings verify past s t := by
    refine ⟨⟨fun m p found => ?_, fun answer member => ?_, fun change member => ?_⟩, step.changed⟩
    · rcases step.pending m p found with old | ⟨_, new⟩
      · exact known.pending m p old
      · exact new
    · rcases step.answers answer member with old | new
      · exact known.answers answer old
      · exact new
    · rcases step.changed with ⟨_, history⟩ | ⟨new, _, there, _, history⟩ |
        ⟨_, _, _, _, _, there, _, history⟩
      · exact known.history change (history ▸ member)
      · rw [history] at member
        rcases List.mem_cons.mp member with rfl | old
        · exact there
        · exact known.history change old
      · rw [history] at member
        rcases List.mem_cons.mp member with rfl | old
        · exact there
        · exact known.history change old
  cases action with
  | begin n call =>
    simp only [authStep] at stepped
    split at stepped
    · rename_i free
      cases stepped
      exact worked (worked_park (aside_self s) (p := .arrived call)
        (Bool.and_eq_true_iff.mp free).2)
    · cases stepped
  | proceed n moment =>
    simp only [authStep, Option.map_eq_some_iff] at stepped
    obtain ⟨p, found, rfl⟩ := stepped
    exact worked (advance_worked now moment (known.pending n p found))
  | abort n =>
    cases stepped
    refine ⟨⟨fun m p found => ?_, known.answers, known.history⟩, .inl ⟨rfl, rfl⟩⟩
    dsimp only at found
    split at found
    · cases found
    · exact known.pending m p found
  | putUser user =>
    simp only [authStep] at stepped
    split at stepped
    · cases stepped
    · cases stepped
      exact ⟨⟨known.pending, known.answers, known.history⟩, .inl ⟨rfl, rfl⟩⟩
  | deleteUser userId =>
    simp only [authStep] at stepped
    split at stepped
    · cases stepped
      refine ⟨⟨known.pending, known.answers, fun change member => ?_⟩,
        .inr (.inl ⟨.userDeleted userId, rfl, trivial, rfl, rfl⟩)⟩
      rcases List.mem_cons.mp member with rfl | old
      · trivial
      · exact known.history change old
    · cases stepped
  | putRoles roles =>
    cases stepped
    exact ⟨⟨known.pending, known.answers, known.history⟩, .inl ⟨rfl, rfl⟩⟩

theorem changed_replayed (changed : Changed settings verify past s t) (replayed : Replayed s) :
    Replayed t := by
  rcases changed with ⟨sessions, history⟩ | ⟨change, inserts, _, sessions, history⟩ |
    ⟨session, attempt, user, roleName, fresh, _, sessions, history⟩
  · intro row
    rw [sessions, history]
    exact replayed row
  · exact replayed_aged replayed inserts sessions history
  · exact replayed_opened replayed fresh sessions history

theorem changed_suffix (changed : Changed settings verify past s t) : s.history <:+ t.history := by
  rcases changed with ⟨_, history⟩ | ⟨change, _, _, _, history⟩ | ⟨_, _, _, _, _, _, _, history⟩
  · rw [history]
  · rw [history]
    exact List.suffix_cons _ _
  · rw [history]
    exact List.suffix_cons _ _

end Steps

section Runs
variable [AuthTables] {settings : AuthSettings} {verify : Verify}
variable {users : List User} {roles : List Role} {actions : List AuthAction} {s : AuthState}

variable (settings verify users roles actions) in
/-- The states on the way of a run from a database without sessions. -/
def OnTheWay : AuthState → Prop :=
  Passed (authStep settings verify) (AuthState.start users roles) actions

/-- The invariant of the runs: what is known of the state, that its sessions are those of its
history, and that so were those of every state on the way. -/
structure Traced (settings : AuthSettings) (verify : Verify) (past : AuthState → Prop)
    (s : AuthState) : Prop where
  known : Known settings verify past s
  replayed : Replayed s
  before : ∀ e, past e → Replayed e ∧ e.history <:+ s.history

theorem start_known (past : AuthState → Prop) (users : List User) (roles : List Role) :
    Known settings verify past (AuthState.start users roles) := by
  refine ⟨fun n p found => ?_, fun answer member => absurd member List.not_mem_nil,
    fun change member => absurd member List.not_mem_nil⟩
  cases found

theorem run_traced
    (run : exec (authStep settings verify) (AuthState.start users roles) actions = some s) :
    Traced settings verify (OnTheWay settings verify users roles actions) s := by
  refine exec_keeps (fun actions s =>
    Traced settings verify (OnTheWay settings verify users roles actions) s) ?_ ?_ run
  · refine ⟨start_known _ users roles, start_replayed users roles, ?_⟩
    rintro e ⟨before, after, shape, done⟩
    obtain ⟨rfl, rfl⟩ := List.append_eq_nil_iff.mp shape.symm
    cases Option.some.inj done
    exact ⟨start_replayed users roles, List.suffix_rfl⟩
  · intro actions s action t done traced stepped
    have later : exec (authStep settings verify) (AuthState.start users roles) (actions ++ [action])
        = some t := by
      rw [exec_append, done]
      simp only [Option.bind_some, exec, stepped]
    obtain ⟨known, changed⟩ := authStep_known traced.known (passed_now done) stepped
    have replayed := changed_replayed changed traced.replayed
    refine ⟨known.widen fun e passed => passed.more action, replayed, fun e passed => ?_⟩
    rcases passed_last passed with before | last
    · obtain ⟨held, shorter⟩ := traced.before e before
      exact ⟨held, shorter.trans (changed_suffix changed)⟩
    · cases Option.some.inj (later.symm.trans last)
      exact ⟨replayed, List.suffix_rfl⟩

end Runs

section Open
variable [AuthTables] {settings : AuthSettings} {verify : Verify}
variable {s : AuthState} {past : AuthState → Prop} {later : List Change} {first row : UserSession}

theorem recorded_opened (known : Known settings verify past s)
    (recorded : Recorded s.history later first) :
    ∃ attempt user roleName earlier,
      s.history = later ++ .opened first attempt user roleName :: earlier ∧
      AttemptKnown settings past attempt ∧ CredentialsKnown verify past attempt user roleName ∧
      ∃ moment, first = newSession settings moment user := by
  obtain ⟨⟨attempt, user, roleName, earlier, shape⟩, _⟩ := recorded
  have there : Change.opened first attempt user roleName ∈ s.history := by
    rw [shape]
    exact List.mem_append_right _ List.mem_cons_self
  exact ⟨attempt, user, roleName, earlier, shape, known.history _ there⟩

theorem recorded_unrevoked (known : Known settings verify past s)
    (recorded : Recorded s.history later first) : first.revokedAt = none := by
  obtain ⟨_, _, _, _, _, _, _, moment, rfl⟩ := recorded_opened known recorded
  rfl

/-- A session that the history shows is found by its token, and active. -/
theorem shown_active (known : Known settings verify past s) (replayed : Replayed s)
    {cookie : List Char} {now : Int} (shown : Shown settings s.history cookie now later first row) :
    s.sessions.byRawToken settings.csrf cookie = some row ∧ sessionIsActive row now = true := by
  obtain ⟨since, token, timely, rfl⟩ := shown
  have recorded := open_recorded since
  have member := (replayed _).mpr ⟨later, first, recorded, rfl⟩
  rw [agedBy_open since.2] at member
  refine ⟨?_, ?_⟩
  · rw [SessionTable.byRawToken, ← token]
    exact Table.row_of_mem s.sessions.tokens member
  · simp only [sessionIsActive, recorded_unrevoked known recorded, Option.isNone_none,
      Bool.true_and, decide_eq_true timely]

theorem shown_csrf (known : Known settings verify past s) {request : AuthRequest}
    {cookie : List Char} {now : Int} (shown : Shown settings s.history cookie now later first row)
    (unguarded : request.method ∉ safeMethods) :
    validateSessionCsrf settings request row now = .ok () ↔
      ∃ token, given request.csrfHeader = some token ∧
        validateOriginOrReferer settings request = .ok () ∧
        lastCsrf first later = some (hashToken settings.csrf token) := by
  obtain ⟨since, _, timely, rfl⟩ := shown
  constructor
  · intro passed
    obtain ⟨token, header, origin, _, hash⟩ := csrf_passed passed unguarded
    exact ⟨token, header, origin, hash⟩
  · rintro ⟨token, header, origin, hash⟩
    have unrevoked := recorded_unrevoked known (open_recorded since)
    unfold validateSessionCsrf
    rw [if_neg (by simpa using unguarded), header]
    dsimp only
    rw [origin, hash, Option.getD_some, verifyTokenHash_cases, hashToken,
      (signatureOf_chars settings.csrf token).1]
    simp [sessionIsActive, unrevoked, timely, bind, Except.bind, pure, Except.pure]

end Open
section Runs
variable [AuthTables] {settings : AuthSettings} {verify : Verify}
variable {users : List User} {roles : List Role} {actions : List AuthAction} {s : AuthState}

/-- In every run, the tokens that find an active session are those that the history shows, and an
unsafe request passes with the CSRF token that its session was given last, and with no other. -/
theorem sessions_follow_history
    (run : exec (authStep settings verify) (AuthState.start users roles) actions = some s)
    (cookie : List Char) (now : Int) (row : UserSession) :
    (s.sessions.byRawToken settings.csrf cookie = some row ∧ sessionIsActive row now = true ↔
      ∃ later first, Shown settings s.history cookie now later first row) ∧
    ∀ later first, Shown settings s.history cookie now later first row →
      ∀ request : AuthRequest, request.method ∉ safeMethods →
        (validateSessionCsrf settings request row now = .ok () ↔
          ∃ token, given request.csrfHeader = some token ∧
            validateOriginOrReferer settings request = .ok () ∧
            lastCsrf first later = some (hashToken settings.csrf token)) := by
  have traced := run_traced run
  refine ⟨⟨?_, ?_⟩, ?_⟩
  · rintro ⟨found, active⟩
    exact active_shown traced.replayed found active
  · rintro ⟨later, first, shown⟩
    exact shown_active traced.known traced.replayed shown
  · intro later first shown request unguarded
    exact shown_csrf traced.known shown unguarded

/-- The context was let in: its handler was called, or it ended its own session. -/
def LetIn (s : AuthState) (context : SessionContext) : Prop :=
  (∃ n, (n, Answer.entered context) ∈ s.answers ∨ (n, Answer.loggedOut context) ∈ s.answers) ∨
  ∃ revokedAt, Change.closed context.entry.session.sessionId revokedAt context ∈ s.history

/-- The login brought a token and the state that was issued for it, which was not too old. -/
def PreAuthBrought (settings : AuthSettings) (attempt : LoginAttempt) : Prop :=
  ∃ token state, given attempt.request.csrfHeader = some token ∧
    validateOriginOrReferer settings attempt.request = .ok () ∧
    attempt.request.preAuthCookie = some state ∧
    Issued settings.csrf attempt.seconds token state

/-- The login that stands behind a request, and what the history of an earlier state says of its
session. -/
structure Behind (settings : AuthSettings) (verify : Verify) (past : AuthState → Prop)
    (e : AuthState) (context : SessionContext) (attempt : LoginAttempt) : Prop where
  passed : past e
  preAuth : PreAuthBrought settings attempt
  allowed : ∃ s, past s ∧ (checkAllowed (hashText settings) settings.login s.limiter
    (attempt.key settings) attempt.monotonic).2 = true
  session : ∃ cookie later first user roleName earlier,
    given context.entry.request.sessionCookie = some cookie ∧
    e.history = later ++ .opened first attempt user roleName :: earlier ∧
    Shown settings e.history cookie context.entry.readAt later first context.entry.session ∧
    CredentialsKnown verify past attempt user roleName ∧
    context.user.userId = user.userId ∧
    (context.entry.route.requiresCsrf = true → context.entry.request.method ∉ safeMethods →
      ∃ token, given context.entry.request.csrfHeader = some token ∧
        validateOriginOrReferer settings context.entry.request = .ok () ∧
        lastCsrf first later = some (hashToken settings.csrf token))

theorem preAuth_brought {past : AuthState → Prop} {attempt : LoginAttempt}
    (known : AttemptKnown settings past attempt) : PreAuthBrought settings attempt := by
  have passed := known.preAuth
  unfold validatePreAuthCsrf at passed
  cases header : given attempt.request.csrfHeader with
  | none =>
    rw [header] at passed
    cases passed
  | some token =>
    rw [header] at passed
    obtain ⟨_, origin, passed⟩ := Fallible.bind_ok passed
    obtain ⟨_, verified, _⟩ := Fallible.bind_ok passed
    have solid : token ≠ [] := by
      have filtered := (Option.filter_eq_some_iff.mp header).2
      simpa using filtered
    cases state : attempt.request.preAuthCookie with
    | none =>
      rw [state, verifyPreAuthState, if_neg solid] at verified
      cases verified
    | some text =>
      rw [state] at verified
      refine ⟨token, text, header, origin, state, ?_⟩
      rcases verified_cases settings.csrf attempt.seconds solid text with
        ⟨issued, _⟩ | ⟨_, raised⟩ | ⟨_, _, refused⟩
      · exact issued
      · rw [raised] at verified
        cases verified
      · rw [refused] at verified
        cases verified

/-- Whoever was let in showed a session that a login of the same user had opened, that nothing had
ended when it was read, and where a CSRF token is asked for, the one that it was given last. -/
theorem requests_let_in
    (run : exec (authStep settings verify) (AuthState.start users roles) actions = some s)
    {context : SessionContext} (entered : LetIn s context) :
    context.user.status = .active ∧ context.roleName ∈ context.entry.route.allowedRoles ∧
      ∃ e attempt, e.history <:+ s.history ∧
        Behind settings verify (OnTheWay settings verify users roles actions) e context attempt := by
  have traced := run_traced run
  have admitted : Admitted settings (OnTheWay settings verify users roles actions) context := by
    rcases entered with ⟨n, member | member⟩ | ⟨revokedAt, member⟩
    · exact traced.known.answers _ member
    · exact (traced.known.answers _ member).1
    · exact (traced.known.history _ member).1
  have owner := admitted.known.owner
  obtain ⟨shows, ⟨e, passed, found⟩, active, _⟩ := owner.session
  obtain ⟨replayed, shorter⟩ := traced.before e passed
  obtain ⟨later, first, shown⟩ := active_shown replayed found active
  obtain ⟨attempt, user, roleName, earlier, shape⟩ := shown.since.1
  have there : Change.opened first attempt user roleName ∈ s.history := by
    refine shorter.subset ?_
    rw [shape]
    exact List.mem_append_right _ List.mem_cons_self
  obtain ⟨attemptKnown, credentials, moment, made⟩ := traced.known.history _ there
  have same : context.user.userId = user.userId := by
    obtain ⟨_, _, _, sameId⟩ := owner.owner
    rw [sameId, shown.row, made]
    rfl
  refine ⟨owner.active, admitted.role, e, attempt, shorter, passed, preAuth_brought attemptKnown,
    attemptKnown.allowed, context.entry.cookie, later, first, user, roleName, earlier, shows, shape, shown,
    credentials, same, fun requires unguarded => ?_⟩
  obtain ⟨token, header, origin, hash⟩ := admitted.csrf requires unguarded
  refine ⟨token, header, origin, ?_⟩
  rw [shown.row] at hash
  exact hash

end Runs
section Visits
local instance authTables : AuthTables := { asciiDigits, asciiUrls with }

def homeSettings : AuthSettings where
  csrf := devSettings
  login := ⟨60, 5, 60, 100, Nat.le_add_left 1 59, Nat.le_add_left 1 4, Nat.le_add_left 1 59,
    Nat.le_add_left 1 99⟩
  corsAllowedOrigins := []
  trustedProxyIps := []
  sessionCookieMaxAgeSeconds := 3600

/-- A hash that is the password. -/
def plainVerify : Verify := fun password passwordHash => password == passwordHash

def home : List Char := "http://home".toList

def posted (csrfToken : List Char) (sessionCookie preAuthCookie : Option (List Char)) :
    AuthRequest where
  method := "POST".toList
  requestOrigin := home
  originHeader := some home
  refererHeader := none
  csrfHeader := some csrfToken
  forwardedFor := none
  peerHost := none
  sessionCookie := sessionCookie
  preAuthCookie := preAuthCookie

def early : Moment := ⟨1000000, 1, ['s'], ['c'], 1⟩

def issuedState : Option (List Char) := (makePreAuthState devSettings ['t'] none 1).toOption

def entering : AuthRequest := posted ['c'] (some ['s']) none

def ownRoute : Route := .guarded true [adminRole]

/-- A login, and a request of the new session. -/
def visit : List AuthAction :=
  .begin 0 (.login (posted ['t'] none issuedState) "Ann".toList "pw".toList) ::
    List.replicate 5 (.proceed 0 early) ++
  .begin 1 (.enter entering ownRoute) :: List.replicate 4 (.proceed 1 early)

def ann : User := ⟨1, 1, "ann".toList, some "pw".toList, .active⟩

def annSession : UserSession := newSession homeSettings early ann

def annContext : SessionContext := ⟨⟨entering, ownRoute, ['s'], annSession, early.now⟩, ann, adminRole⟩

def homeStart : AuthState := .start [ann] [⟨1, adminRole⟩]

theorem visit_runs : ∃ s, exec (authStep homeSettings plainVerify) homeStart visit = some s ∧
    s.sessions.byRawToken devSettings ['s'] = some annSession ∧
    (1, Answer.entered annContext) ∈ s.answers := by
  have ran : (exec (authStep homeSettings plainVerify) homeStart visit).any (fun s =>
      decide (s.sessions.byRawToken devSettings ['s'] = some annSession) &&
        decide ((1, Answer.entered annContext) ∈ s.answers)) = true := by decide +kernel
  obtain ⟨s, run, shows⟩ := (Option.any_eq_true _ _).mp ran
  obtain ⟨found, entered⟩ := Bool.and_eq_true_iff.mp shows
  exact ⟨s, run, of_decide_eq_true found, of_decide_eq_true entered⟩

theorem visit_followed : ∃ s, exec (authStep homeSettings plainVerify) homeStart visit = some s ∧
    ∃ later first, Shown homeSettings s.history ['s'] early.now later first annSession := by
  obtain ⟨s, run, found, _⟩ := visit_runs
  have active : sessionIsActive annSession early.now = true := by decide
  exact ⟨s, run, (sessions_follow_history run ['s'] early.now annSession).1.mp ⟨found, active⟩⟩

theorem visit_let_in : ∃ e attempt, Behind homeSettings plainVerify
    (OnTheWay homeSettings plainVerify [ann] [⟨1, adminRole⟩] visit) e annContext attempt := by
  obtain ⟨s, run, _, entered⟩ := visit_runs
  have letIn : LetIn s annContext := .inl ⟨1, .inl entered⟩
  obtain ⟨_, _, e, attempt, _, behind⟩ := requests_let_in run letIn
  exact ⟨e, attempt, behind⟩

end Visits
end RagProject.Core
