import RagProject.Core.Auth

/-! The sessions are what the committed changes made of them, whatever requests were worked on at the
same time. -/
namespace RagProject.Core
open Python Interleaving

section Ages

variable {change : Change} {row first : UserSession} {later : List Change}

theorem age_owner (change : Change) (row : UserSession) :
    (change.age row).userId = row.userId ∧ (change.age row).expiresAt = row.expiresAt := by
  cases change with
  | opened | userDeleted => exact ⟨rfl, rfl⟩
  | renewed =>
    simp only [Change.age]
    constructor <;> split <;> rfl
  | closed =>
    simp only [Change.age]
    constructor <;> split <;> rfl

theorem age_keeps (change other : Change) (row : UserSession) :
    change.keeps (other.age row) = change.keeps row := by
  cases change with
  | userDeleted userId => simp only [Change.keeps, (age_owner other row).1]
  | opened | renewed | closed => rfl

/-- A session after the changes, the latest first. -/
def agedBy (later : List Change) (first : UserSession) : UserSession := later.foldr Change.age first

theorem agedBy_same (later : List Change) (first : UserSession) :
    (agedBy later first).sessionId = first.sessionId ∧
      (agedBy later first).sessionTokenHash = first.sessionTokenHash ∧
      (agedBy later first).userId = first.userId ∧
      (agedBy later first).expiresAt = first.expiresAt := by
  induction later with
  | nil => exact ⟨rfl, rfl, rfl, rfl⟩
  | cons change later ih =>
    obtain ⟨id, token, user, expires⟩ := ih
    obtain ⟨sameId, sameToken⟩ := change.age_keys (agedBy later first)
    obtain ⟨sameUser, sameExpires⟩ := age_owner change (agedBy later first)
    exact ⟨sameId.trans id, sameToken.trans token, sameUser.trans user, sameExpires.trans expires⟩

/-- The change ends the session: a logout, or its user is deleted. -/
def Change.ends (session : UserSession) : Change → Prop
  | .closed sessionId _ _ => sessionId = session.sessionId
  | .userDeleted userId => userId = session.userId
  | _ => False

/-- The hash of the CSRF token that was given to the session last. -/
def lastCsrf (session : UserSession) : List Change → Option (List Char)
  | [] => session.csrfStateHash
  | .renewed sessionId csrfStateHash :: later =>
    if sessionId = session.sessionId then some csrfStateHash else lastCsrf session later
  | _ :: later => lastCsrf session later

/-- A session that no change ended has its last CSRF hash, and is not revoked. -/
theorem agedBy_open (lasting : ∀ change ∈ later, ¬change.ends first) :
    agedBy later first = { first with csrfStateHash := lastCsrf first later } := by
  induction later with
  | nil => rfl
  | cons change later ih =>
    have before := ih fun other member => lasting other (List.mem_cons_of_mem _ member)
    have stays := lasting change List.mem_cons_self
    rw [show agedBy (change :: later) first = change.age (agedBy later first) from rfl, before]
    cases change with
    | opened | userDeleted => rfl
    | renewed sessionId csrfStateHash =>
      simp only [Change.age, lastCsrf]
      by_cases same : first.sessionId = sessionId
      · simp only [same, if_true]
      · simp only [same, Ne.symm same, if_false]
    | closed sessionId revokedAt context =>
      have other : first.sessionId ≠ sessionId := fun same => stays same.symm
      simp only [Change.age, lastCsrf, other, if_false]

/-- A session that was revoked stays so. -/
theorem agedBy_closed (closed : ∃ change ∈ later, ∃ revokedAt context,
    change = .closed first.sessionId revokedAt context) : (agedBy later first).revokedAt.isSome := by
  induction later with
  | nil =>
    obtain ⟨_, member, _⟩ := closed
    cases member
  | cons change later ih =>
    obtain ⟨old, member, revokedAt, context, rfl⟩ := closed
    rw [show agedBy (change :: later) first = change.age (agedBy later first) from rfl]
    rcases List.mem_cons.mp member with rfl | before
    · simp only [Change.age, (agedBy_same later first).1, if_true]
      rfl
    · have revoked := ih ⟨_, before, revokedAt, context, rfl⟩
      cases change with
      | opened | userDeleted => exact revoked
      | renewed =>
        simp only [Change.age]
        split <;> exact revoked
      | closed =>
        simp only [Change.age]
        split
        · rfl
        · exact revoked

end Ages

section Histories
variable {s : AuthState}

/-- A session of the history: it was opened, and its user was not deleted since. -/
def Recorded (history : List Change) (later : List Change) (first : UserSession) : Prop :=
  (∃ attempt user roleName earlier,
    history = later ++ .opened first attempt user roleName :: earlier) ∧
  ∀ change ∈ later, change.keeps first = true

/-- The rows are the sessions of the history, each with the changes since it was opened. -/
def Replayed (s : AuthState) : Prop :=
  ∀ row, row ∈ s.sessions.rows ↔
    ∃ later first, Recorded s.history later first ∧ row = agedBy later first

theorem recorded_aged {history later : List Change} {change : Change} {first : UserSession}
    (inserts : change.inserts = []) :
    Recorded (change :: history) later first ↔
      ∃ before, later = change :: before ∧ change.keeps first = true ∧
        Recorded history before first := by
  constructor
  · rintro ⟨⟨attempt, user, roleName, earlier, shape⟩, kept⟩
    cases later with
    | nil =>
      cases shape
      cases inserts
    | cons head before =>
      obtain ⟨rfl, rest⟩ := List.cons.inj shape
      exact ⟨before, rfl, kept _ List.mem_cons_self, ⟨attempt, user, roleName, earlier, rest⟩,
        fun other member => kept other (List.mem_cons_of_mem _ member)⟩
  · rintro ⟨before, rfl, keeps, ⟨attempt, user, roleName, earlier, rfl⟩, kept⟩
    refine ⟨⟨attempt, user, roleName, earlier, rfl⟩, fun other member => ?_⟩
    rcases List.mem_cons.mp member with rfl | old
    · exact keeps
    · exact kept other old

theorem replayed_aged {t : AuthState} {change : Change} (replayed : Replayed s)
    (inserts : change.inserts = []) (sessions : t.sessions = s.sessions.aged change)
    (history : t.history = change :: s.history) : Replayed t := by
  intro row
  rw [sessions, history]
  unfold SessionTable.aged
  simp only [List.mem_map, List.mem_filter]
  constructor
  · rintro ⟨old, ⟨member, keeps⟩, rfl⟩
    obtain ⟨before, first, recorded, rfl⟩ := (replayed old).mp member
    have kept : change.keeps first = true := by
      have owner := (agedBy_same before first).2.2.1
      cases change with
      | userDeleted userId => simpa only [Change.keeps, owner] using keeps
      | opened | renewed | closed => rfl
    exact ⟨change :: before, first, (recorded_aged inserts).mpr ⟨before, rfl, kept, recorded⟩, rfl⟩
  · rintro ⟨later, first, recorded, rfl⟩
    obtain ⟨before, rfl, keeps, old⟩ := (recorded_aged inserts).mp recorded
    refine ⟨agedBy before first, ⟨(replayed _).mpr ⟨before, first, old, rfl⟩, ?_⟩, rfl⟩
    have owner := (agedBy_same before first).2.2.1
    cases change with
    | userDeleted userId => simpa only [Change.keeps, owner] using keeps
    | opened | renewed | closed => rfl

theorem replayed_opened {t : AuthState} {session : UserSession} {attempt : LoginAttempt}
    {user : User} {roleName : List Char} (replayed : Replayed s) (fresh : s.sessions.Fresh session)
    (sessions : t.sessions = s.sessions.insert session fresh)
    (history : t.history = .opened session attempt user roleName :: s.history) : Replayed t := by
  intro row
  rw [sessions, history]
  unfold SessionTable.insert
  simp only [List.mem_append, List.mem_singleton]
  constructor
  · rintro (member | rfl)
    · obtain ⟨later, first, ⟨⟨attempt', user', roleName', earlier, shape⟩, kept⟩, rfl⟩ :=
        (replayed row).mp member
      refine ⟨.opened session attempt user roleName :: later, first,
        ⟨⟨attempt', user', roleName', earlier, by rw [shape]; rfl⟩, fun change inside => ?_⟩, rfl⟩
      rcases List.mem_cons.mp inside with rfl | old
      · rfl
      · exact kept change old
    · exact ⟨[], row, ⟨⟨attempt, user, roleName, s.history, rfl⟩,
        fun change inside => absurd inside List.not_mem_nil⟩, rfl⟩
  · rintro ⟨later, first, ⟨⟨attempt', user', roleName', earlier, shape⟩, kept⟩, rfl⟩
    cases later with
    | nil =>
      cases shape
      exact .inr rfl
    | cons head before =>
      obtain ⟨rfl, rest⟩ := List.cons.inj shape
      exact .inl ((replayed _).mpr ⟨before, first, ⟨⟨attempt', user', roleName', earlier, rest⟩,
        fun change inside => kept change (List.mem_cons_of_mem _ inside)⟩, rfl⟩)

end Histories

section Starts

theorem start_replayed (users : List User) (roles : List Role) :
    Replayed (AuthState.start users roles) := by
  intro row
  constructor
  · exact fun member => absurd member List.not_mem_nil
  · rintro ⟨later, first, ⟨⟨_, _, _, earlier, shape⟩, _⟩, _⟩
    exact absurd shape.symm (List.append_ne_nil_of_right_ne_nil _ (List.cons_ne_nil _ _))

end Starts

section Lasting
variable {history later : List Change} {first : UserSession}

/-- The session was opened in the history, and nothing ended it since. -/
def OpenSince (history later : List Change) (first : UserSession) : Prop :=
  (∃ attempt user roleName earlier,
    history = later ++ .opened first attempt user roleName :: earlier) ∧
  ∀ change ∈ later, ¬change.ends first

theorem open_recorded (since : OpenSince history later first) :
    Recorded history later first := by
  refine ⟨since.1, fun change member => ?_⟩
  have lasting := since.2 change member
  cases change with
  | userDeleted userId =>
    have other : first.userId ≠ userId := fun same => lasting same.symm
    exact decide_eq_true other
  | opened | renewed | closed => rfl

/-- A recorded session that is not revoked was not ended. -/
theorem recorded_open (recorded : Recorded history later first)
    (unrevoked : (agedBy later first).revokedAt = none) : OpenSince history later first := by
  refine ⟨recorded.1, fun change member ended => ?_⟩
  cases change with
  | opened | renewed => exact ended
  | closed sessionId revokedAt context =>
    have same : sessionId = first.sessionId := ended
    subst same
    have closed := agedBy_closed ⟨_, member, revokedAt, context, rfl⟩
    rw [unrevoked] at closed
    cases closed
  | userDeleted userId =>
    have same : userId = first.userId := ended
    subst same
    exact absurd rfl (of_decide_eq_true (recorded.2 _ member))

/-- A session as a token shows it: opened with the hash of the token, not ended since, and with the
CSRF hash that it was given last. -/
structure Shown (settings : AuthSettings) (history : List Change) (cookie : List Char) (now : Int)
    (later : List Change) (first row : UserSession) : Prop where
  since : OpenSince history later first
  token : first.sessionTokenHash = hashToken settings.csrf cookie
  timely : now < first.expiresAt
  row : row = { first with csrfStateHash := lastCsrf first later }

variable {settings : AuthSettings} {s : AuthState} {row : UserSession}

/-- A session that its token finds active is one that the history shows. -/
theorem active_shown (replayed : Replayed s) {cookie : List Char} {now : Int}
    (found : s.sessions.byRawToken settings.csrf cookie = some row)
    (active : sessionIsActive row now = true) :
    ∃ later first, Shown settings s.history cookie now later first row := by
  obtain ⟨member, token⟩ := Table.mem_of_row found
  obtain ⟨later, first, recorded, rfl⟩ := (replayed row).mp member
  obtain ⟨unrevoked, timely⟩ := Bool.and_eq_true_iff.mp active
  have since := recorded_open recorded (Option.isNone_iff_eq_none.mp unrevoked)
  obtain ⟨_, sameToken, _, sameExpires⟩ := agedBy_same later first
  refine ⟨later, first, since, sameToken.symm.trans token, ?_, agedBy_open since.2⟩
  rw [← sameExpires]
  exact of_decide_eq_true timely

end Lasting
end RagProject.Core
