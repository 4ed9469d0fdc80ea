import RagProject.Core.AuthHistory

/-! What is known of a request at each of its steps, and of what it changed and answered. -/
namespace RagProject.Core
open Python

section Knowledge
variable [AuthTables] (settings : AuthSettings) (verify : Verify)
-- The states that were passed before a step.
variable (past : AuthState → Prop)

/-- The login brought a pre-auth state, and the rate limiter let it pass. -/
structure AttemptKnown (attempt : LoginAttempt) : Prop where
  preAuth : validatePreAuthCsrf settings attempt.request attempt.seconds = .ok ()
  allowed : ∃ s, past s ∧ (checkAllowed (hashText settings) settings.login s.limiter
    (attempt.key settings) attempt.monotonic).2 = true

/-- The credentials were those of an active user with a known role. -/
structure CredentialsKnown (attempt : LoginAttempt) (user : User) (roleName : List Char) :
    Prop where
  found : ∃ s, past s ∧ user ∈ s.users ∧ user.email = attempt.normalizedEmail
  active : user.status = .active
  password : verifyPasswordOrDummy verify attempt.password user.passwordHash = true
  role : ∃ s, past s ∧ ∃ role ∈ s.roles, role.roleId = user.roleId ∧ role.roleName = roleName
  known : roleName ∈ knownRoles

/-- The cookie of a request was that of a session, which was active when it was read. -/
structure EntryKnown (entry : Entry) : Prop where
  cookie : given entry.request.sessionCookie = some entry.cookie
  found : ∃ s, past s ∧ s.sessions.byRawToken settings.csrf entry.cookie = some entry.session
  active : sessionIsActive entry.session entry.readAt = true
  post : entry.route = .logout → entry.request.method = "POST".toList

structure OwnerKnown (entry : Entry) (user : User) : Prop where
  session : EntryKnown settings past entry
  owner : ∃ s, past s ∧ user ∈ s.users ∧ user.userId = entry.session.userId
  active : user.status = .active

structure ContextKnown (context : SessionContext) : Prop where
  owner : OwnerKnown settings past context.entry context.user
  role : ∃ s, past s ∧ ∃ role ∈ s.roles, role.roleId = context.user.roleId ∧
    role.roleName = context.roleName
  known : context.roleName ∈ knownRoles

/-- A request that its route let in: with the CSRF token of its session where one is asked for, and
with a role that is allowed. -/
structure Admitted (context : SessionContext) : Prop where
  known : ContextKnown settings past context
  csrf : context.entry.route.requiresCsrf = true →
    context.entry.request.method ∉ safeMethods →
    ∃ token, given context.entry.request.csrfHeader = some token ∧
      validateOriginOrReferer settings context.entry.request = .ok () ∧
      context.entry.session.csrfStateHash = some (hashToken settings.csrf token)
  role : context.roleName ∈ context.entry.route.allowedRoles

/-- Somebody showed the cookie of the session while it was active. -/
def SessionKnown (session : UserSession) : Prop :=
  ∃ s cookie now, past s ∧ s.sessions.byRawToken settings.csrf cookie = some session ∧
    sessionIsActive session now = true

def PendingKnown : Pending → Prop
  | .arrived call => call.routed = true
  | .allowed attempt => AttemptKnown settings past attempt
  | .lookedUp attempt user => AttemptKnown settings past attempt ∧
    ∀ row ∈ user, ∃ s, past s ∧ row ∈ s.users ∧ row.email = attempt.normalizedEmail
  | .judged attempt verdict => AttemptKnown settings past attempt ∧
    ∀ row ∈ verdict, CredentialsKnown verify past attempt row.1 row.2
  | .opening attempt user roleName => AttemptKnown settings past attempt ∧
    CredentialsKnown verify past attempt user roleName
  | .renewing _ session => SessionKnown settings past session
  | .writing session _ => SessionKnown settings past session
  | .sessionRead entry => EntryKnown settings past entry
  | .userRead entry user => OwnerKnown settings past entry user
  | .context context => ContextKnown settings past context

def AnswerKnown : Answer → Prop
  | .entered context => Admitted settings past context
  | .loggedOut context => Admitted settings past context ∧ context.entry.route = .logout
  | _ => True

def ChangeKnown : Change → Prop
  | .opened session attempt user roleName => AttemptKnown settings past attempt ∧
    CredentialsKnown verify past attempt user roleName ∧
    ∃ moment, session = newSession settings moment user
  | .renewed sessionId csrfStateHash => ∃ session, SessionKnown settings past session ∧
    sessionId = session.sessionId ∧ ∃ token, csrfStateHash = hashToken settings.csrf token
  | .closed sessionId _ context => Admitted settings past context ∧
    context.entry.route = .logout ∧ sessionId = context.entry.session.sessionId
  | .userDeleted _ => True

/-- What is known of a state. -/
structure Known (s : AuthState) : Prop where
  pending : ∀ n p, s.pending n = some p → PendingKnown settings verify past p
  answers : ∀ answer ∈ s.answers, AnswerKnown settings past answer.2
  history : ∀ change ∈ s.history, ChangeKnown settings verify past change

end Knowledge

section Widening
variable {settings : AuthSettings} {verify : Verify} {past more : AuthState → Prop}

theorem EntryKnown.widen (wider : ∀ s, past s → more s) {entry : Entry}
    (known : EntryKnown settings past entry) : EntryKnown settings more entry := by
  obtain ⟨cookie, ⟨s, passed, found⟩, active, post⟩ := known
  exact ⟨cookie, ⟨s, wider s passed, found⟩, active, post⟩

theorem OwnerKnown.widen (wider : ∀ s, past s → more s) {entry : Entry} {user : User}
    (known : OwnerKnown settings past entry user) : OwnerKnown settings more entry user := by
  obtain ⟨session, ⟨s, passed, found⟩, active⟩ := known
  exact ⟨session.widen wider, ⟨s, wider s passed, found⟩, active⟩

theorem ContextKnown.widen (wider : ∀ s, past s → more s) {context : SessionContext}
    (known : ContextKnown settings past context) : ContextKnown settings more context := by
  obtain ⟨owner, ⟨s, passed, role⟩, named⟩ := known
  exact ⟨owner.widen wider, ⟨s, wider s passed, role⟩, named⟩

theorem SessionKnown.widen (wider : ∀ s, past s → more s) {session : UserSession}
    (known : SessionKnown settings past session) : SessionKnown settings more session := by
  obtain ⟨s, cookie, now, passed, found⟩ := known
  exact ⟨s, cookie, now, wider s passed, found⟩

variable [AuthTables]

theorem AttemptKnown.widen (wider : ∀ s, past s → more s) {attempt : LoginAttempt}
    (known : AttemptKnown settings past attempt) : AttemptKnown settings more attempt := by
  obtain ⟨preAuth, s, passed, allowed⟩ := known
  exact ⟨preAuth, s, wider s passed, allowed⟩

theorem CredentialsKnown.widen (wider : ∀ s, past s → more s) {attempt : LoginAttempt}
    {user : User} {roleName : List Char} (known : CredentialsKnown verify past attempt user roleName) :
    CredentialsKnown verify more attempt user roleName := by
  obtain ⟨⟨s, passed, found⟩, active, password, ⟨t, passed', role⟩, named⟩ := known
  exact ⟨⟨s, wider s passed, found⟩, active, password, ⟨t, wider t passed', role⟩, named⟩

theorem Admitted.widen (wider : ∀ s, past s → more s) {context : SessionContext}
    (admitted : Admitted settings past context) : Admitted settings more context :=
  ⟨admitted.known.widen wider, admitted.csrf, admitted.role⟩

theorem PendingKnown.widen (wider : ∀ s, past s → more s) {p : Pending}
    (known : PendingKnown settings verify past p) : PendingKnown settings verify more p := by
  cases p with
  | arrived call => exact known
  | allowed attempt => exact AttemptKnown.widen wider known
  | lookedUp attempt user =>
    refine ⟨known.1.widen wider, fun row found => ?_⟩
    obtain ⟨s, passed, there⟩ := known.2 row found
    exact ⟨s, wider s passed, there⟩
  | judged attempt verdict =>
    exact ⟨known.1.widen wider, fun row found => (known.2 row found).widen wider⟩
  | opening attempt user roleName => exact ⟨known.1.widen wider, known.2.widen wider⟩
  | renewing request session => exact SessionKnown.widen wider known
  | writing session token => exact SessionKnown.widen wider known
  | sessionRead entry => exact EntryKnown.widen wider known
  | userRead entry user => exact OwnerKnown.widen wider known
  | context context => exact ContextKnown.widen wider known

theorem AnswerKnown.widen (wider : ∀ s, past s → more s) {answer : Answer}
    (known : AnswerKnown settings past answer) : AnswerKnown settings more answer := by
  cases answer with
  | entered context => exact Admitted.widen wider known
  | loggedOut context => exact ⟨known.1.widen wider, known.2⟩
  | _ => trivial

theorem ChangeKnown.widen (wider : ∀ s, past s → more s) {change : Change}
    (known : ChangeKnown settings verify past change) : ChangeKnown settings verify more change := by
  cases change with
  | opened session attempt user roleName =>
    exact ⟨known.1.widen wider, known.2.1.widen wider, known.2.2⟩
  | renewed sessionId csrfStateHash =>
    obtain ⟨session, shown, rest⟩ := known
    exact ⟨session, shown.widen wider, rest⟩
  | closed sessionId revokedAt context => exact ⟨known.1.widen wider, known.2⟩
  | userDeleted userId => trivial

theorem Known.widen (wider : ∀ s, past s → more s) {s : AuthState}
    (known : Known settings verify past s) : Known settings verify more s :=
  ⟨fun n p found => (known.pending n p found).widen wider,
    fun answer member => (known.answers answer member).widen wider,
    fun change member => (known.history change member).widen wider⟩

end Widening

section Effects

/-- A part of a step that only touches the rate limiter and the audit logs. -/
structure Aside (s r : AuthState) : Prop where
  pending : r.pending = s.pending
  answers : r.answers = s.answers
  sessions : r.sessions = s.sessions
  history : r.history = s.history

theorem aside_self (s : AuthState) : Aside s s := ⟨rfl, rfl, rfl, rfl⟩

theorem aside_limiter (s : AuthState) (limiter : LoginRateLimiter) :
    Aside s { s with limiter := limiter } := ⟨rfl, rfl, rfl, rfl⟩

theorem aside_failure (s : AuthState) (limiter : LoginRateLimiter) (actionType : String)
    (errorCode : Option String) :
    Aside s ({ s with limiter := limiter }.audit actionType none errorCode) :=
  ⟨rfl, rfl, rfl, rfl⟩

theorem aside_csrf (s : AuthState) (failure : CsrfFailure) : Aside s (s.auditCsrfFailure failure) := by
  cases failure <;> exact ⟨rfl, rfl, rfl, rfl⟩

theorem find_email {users : List User} {email : List Char} {user : User}
    (found : users.find? (fun user => user.email == email) = some user) :
    user ∈ users ∧ user.email = email :=
  ⟨List.mem_of_find?_eq_some found, by simpa using List.find?_some found⟩

theorem find_user {users : List User} {userId : Nat} {user : User}
    (found : users.find? (fun user => user.userId == userId) = some user) :
    user ∈ users ∧ user.userId = userId :=
  ⟨List.mem_of_find?_eq_some found, by simpa using List.find?_some found⟩

theorem find_role {roles : List Role} {roleId : Nat} {roleName : List Char}
    (found : (roles.find? fun role => role.roleId == roleId).map Role.roleName = some roleName) :
    ∃ role ∈ roles, role.roleId = roleId ∧ role.roleName = roleName := by
  obtain ⟨role, there, named⟩ := Option.map_eq_some_iff.mp found
  exact ⟨role, List.mem_of_find?_eq_some there, by simpa using List.find?_some there, named⟩

variable [AuthTables] (settings : AuthSettings) (verify : Verify) (past : AuthState → Prop)

/-- How the sessions and the history may change in a step: not at all, or by a change that is
known. -/
def Changed (s t : AuthState) : Prop :=
  (t.sessions = s.sessions ∧ t.history = s.history) ∨
  (∃ change, change.inserts = [] ∧ ChangeKnown settings verify past change ∧
    t.sessions = s.sessions.aged change ∧ t.history = change :: s.history) ∨
  ∃ session attempt user roleName, ∃ fresh : s.sessions.Fresh session,
    ChangeKnown settings verify past (.opened session attempt user roleName) ∧
    t.sessions = s.sessions.insert session fresh ∧
    t.history = .opened session attempt user roleName :: s.history

/-- What a step of one request does. -/
structure Worked (n : Nat) (s t : AuthState) : Prop where
  pending : ∀ m p, t.pending m = some p →
    s.pending m = some p ∨ m = n ∧ PendingKnown settings verify past p
  answers : ∀ answer ∈ t.answers, answer ∈ s.answers ∨ AnswerKnown settings past answer.2
  changed : Changed settings verify past s t

variable {settings verify past} {n : Nat} {s r t : AuthState}

theorem worked_park (aside : Aside s r) {p : Pending} (known : PendingKnown settings verify past p) :
    Worked settings verify past n s (r.park n p) := by
  refine ⟨fun m q found => ?_, fun answer member => .inl (aside.answers ▸ member),
    .inl ⟨aside.sessions, aside.history⟩⟩
  simp only [AuthState.park] at found
  split at found
  · rename_i same
    cases found
    exact .inr ⟨same, known⟩
  · exact .inl (aside.pending ▸ found)

theorem worked_answer (aside : Aside s r) {answer : Answer}
    (known : AnswerKnown settings past answer) :
    Worked settings verify past n s (r.answer n answer) := by
  refine ⟨fun m q found => ?_, fun other member => ?_, .inl ⟨aside.sessions, aside.history⟩⟩
  · simp only [AuthState.answer] at found
    split at found
    · cases found
    · exact .inl (aside.pending ▸ found)
  · rcases List.mem_cons.mp member with rfl | old
    · exact .inr known
    · exact .inl (aside.answers ▸ old)

theorem worked_update {sessionId : Nat} {change : Change} {logs : List AuditLog} {answer : Answer}
    (inserts : change.inserts = []) (known : ChangeKnown settings verify past change)
    (answered : AnswerKnown settings past answer) :
    Worked settings verify past n s (s.commitUpdate n sessionId change logs answer) := by
  unfold AuthState.commitUpdate
  split
  · have told : Worked settings verify past n s (s.answer n answer) :=
      worked_answer (aside_self s) answered
    obtain ⟨pending, answers, _⟩ := told
    exact ⟨pending, answers, .inr (.inl ⟨change, inserts, known, rfl, rfl⟩)⟩
  · exact worked_answer (aside_self s) trivial

theorem worked_preAuth {moment : Moment} :
    Worked settings verify past n s (s.issuePreAuth settings n moment) := by
  unfold AuthState.issuePreAuth
  split <;> exact worked_answer (aside_self s) trivial

theorem worked_login {moment : Moment} {attempt : LoginAttempt} {user : User}
    {roleName : List Char} (known : AttemptKnown settings past attempt)
    (credentials : CredentialsKnown verify past attempt user roleName) :
    Worked settings verify past n s (s.commitLogin settings n moment attempt user roleName) := by
  unfold AuthState.commitLogin
  dsimp only
  split
  · rename_i fresh
    have told : Worked settings verify past n s (s.answer n
        (.loggedIn user.userId moment.sessionToken moment.csrfToken)) :=
      worked_answer (aside_self s) trivial
    obtain ⟨pending, answers, _⟩ := told
    exact ⟨pending, answers, .inr (.inr ⟨newSession settings moment user, attempt, user, roleName,
      fresh.1, ⟨known, credentials, moment, rfl⟩, rfl, rfl⟩)⟩
  · exact worked_answer (aside_self s) trivial

/-- An unsafe request that passes brought the CSRF token of its session. -/
theorem csrf_passed {request : AuthRequest} {session : UserSession} {now : Int}
    (passed : validateSessionCsrf settings request session now = .ok ())
    (unguarded : request.method ∉ safeMethods) :
    ∃ token, given request.csrfHeader = some token ∧
      validateOriginOrReferer settings request = .ok () ∧ sessionIsActive session now = true ∧
      session.csrfStateHash = some (hashToken settings.csrf token) := by
  unfold validateSessionCsrf at passed
  rw [if_neg (by simpa using unguarded)] at passed
  cases header : given request.csrfHeader with
  | none =>
    rw [header] at passed
    cases passed
  | some token =>
    rw [header] at passed
    obtain ⟨_, origin, passed⟩ := Fallible.bind_ok passed
    split at passed
    · cases passed
    rename_i active
    obtain ⟨equal, verified, passed⟩ := Fallible.bind_ok passed
    rw [verifyTokenHash_cases] at verified
    split at verified
    · cases verified
    cases verified
    split at passed
    · cases passed
    rename_i same
    refine ⟨token, rfl, origin, by simpa using active, ?_⟩
    have hash : session.csrfStateHash.getD [] = hashToken settings.csrf token := by simpa using same
    cases stored : session.csrfStateHash with
    | none =>
      rw [stored] at hash
      exact absurd hash.symm (signatureOf_chars settings.csrf token).2.2
    | some value =>
      rw [stored] at hash
      exact congrArg some hash

theorem worked_enter {moment : Moment} {context : SessionContext}
    (known : ContextKnown settings past context) :
    Worked settings verify past n s (s.enterRoute settings n moment context) := by
  unfold AuthState.enterRoute
  dsimp only
  split
  · exact worked_answer (aside_csrf _ _) trivial
  rename_i checked
  split
  · exact worked_answer (aside_self s) trivial
  rename_i allowed
  have admitted : Admitted settings past context := by
    refine ⟨known, fun requires unguarded => ?_, ?_⟩
    · rw [if_pos requires] at checked
      obtain ⟨token, header, origin, _, hash⟩ := csrf_passed checked unguarded
      exact ⟨token, header, origin, hash⟩
    · simp only [ensureRole, Bool.not_eq_true', Bool.not_eq_false, Bool.and_eq_true,
        List.contains_eq_mem, decide_eq_true_eq] at allowed
      exact allowed.2
  split
  · exact worked_answer (aside_self s) admitted
  · rename_i route
    exact worked_update rfl ⟨admitted, route, rfl⟩ ⟨admitted, route⟩

theorem credentials_known (now : past s) {attempt : LoginAttempt} {user : Option User}
    (found : ∀ row ∈ user, ∃ s, past s ∧ row ∈ s.users ∧ row.email = attempt.normalizedEmail) :
    ∀ row ∈ credentials verify attempt user s.roles, CredentialsKnown verify past attempt row.1 row.2 := by
  rintro ⟨row, roleName⟩ judged
  unfold credentials at judged
  cases user with
  | none => cases judged
  | some user =>
    dsimp only at judged
    split at judged
    · cases judged
    rename_i name named
    split at judged
    · rename_i passed
      cases judged
      exact ⟨found _ rfl, passed.1, passed.2.2, ⟨s, now, find_role named⟩, passed.2.1⟩
    · cases judged

/-- A step of a request does what is known of it. -/
theorem advance_worked (now : past s) (moment : Moment) {p : Pending}
    (known : PendingKnown settings verify past p) :
    Worked settings verify past n s (s.advance settings verify n moment p) := by
  cases p with
  | arrived call =>
    cases call with
    | issueCsrf request =>
      simp only [AuthState.advance]
      split
      · exact worked_preAuth
      · rename_i session found
        split
        · rename_i active
          obtain ⟨cookie, _, there⟩ := Option.bind_eq_some_iff.mp found
          refine worked_park (aside_self s) ?_
          exact ⟨s, cookie, moment.now, now, there, active⟩
        · exact worked_preAuth
    | login request email password =>
      simp only [AuthState.advance]
      split
      · exact worked_answer (aside_csrf _ _) trivial
      · rename_i preAuth
        split
        · rename_i allowed
          refine worked_park (aside_limiter s _) ?_
          exact ⟨preAuth, s, now, allowed⟩
        · exact worked_answer (aside_failure s _ _ _) trivial
    | enter request route =>
      simp only [AuthState.advance]
      split
      · exact worked_answer (aside_self s) trivial
      · rename_i cookie shown
        split
        · exact worked_answer (aside_self s) trivial
        · rename_i session found
          split
          · rename_i active
            refine worked_park (aside_self s) (p := .sessionRead _) ⟨shown, ⟨s, now, found⟩, active, ?_⟩
            rintro rfl
            simpa [PendingKnown, Call.routed] using known
          · exact worked_answer (aside_self s) trivial
  | allowed attempt =>
    refine worked_park (aside_self s) ?_
    exact ⟨known, fun row found => ⟨s, now, find_email found⟩⟩
  | lookedUp attempt user =>
    refine worked_park (aside_self s) ?_
    exact ⟨known.1, credentials_known now known.2⟩
  | judged attempt verdict =>
    cases verdict with
    | none => exact worked_answer (aside_failure s _ _ _) trivial
    | some row =>
      refine worked_park (aside_limiter s _) ?_
      exact ⟨known.1, known.2 row rfl⟩
  | opening attempt user roleName => exact worked_login known.1 known.2
  | renewing request session =>
    simp only [AuthState.advance]
    split
    · exact worked_preAuth
    · split
      · refine worked_park (aside_self s) ?_
        exact known
      · exact worked_preAuth
  | writing session token =>
    simp only [AuthState.advance]
    split
    · exact worked_answer (aside_self s) trivial
    · exact worked_update rfl ⟨session, known, rfl, token, rfl⟩ trivial
  | sessionRead entry =>
    simp only [AuthState.advance]
    split
    · exact worked_answer (aside_self s) trivial
    · rename_i user found
      split
      · rename_i active
        refine worked_park (aside_self s) ?_
        exact ⟨known, ⟨s, now, find_user found⟩, active⟩
      · exact worked_answer (aside_self s) trivial
  | userRead entry user =>
    simp only [AuthState.advance]
    split
    · exact worked_answer (aside_self s) trivial
    · rename_i roleName found
      split
      · rename_i named
        refine worked_park (aside_self s) ?_
        exact ⟨known, ⟨s, now, find_role found⟩, named⟩
      · exact worked_answer (aside_self s) trivial
  | context context => exact worked_enter known

end Effects
end RagProject.Core
