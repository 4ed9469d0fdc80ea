import Mathlib.Data.List.Dedup
import Mathlib.Data.List.DropRight
import Mathlib.Tactic.Linarith
import RagProject.Core.LoginRateLimiter
import RagProject.Lib.Words

/-! A key is locked exactly when enough of its failures lie in one window, as long as no entry in
use is dropped to make room for another key. -/
namespace RagProject.Core

section History
variable (settings : LoginSettings) (calls : List LoginCall) (key : LoginKey)

def resets (call : LoginCall) : Bool := call.operation == .reset && call.key == key

def fails (call : LoginCall) : Bool := call.operation == .recordFailure && call.key == key

/-- The times of the failures of a key since its last reset. -/
def failuresSince : List Rat :=
  ((calls.rtakeWhile (!resets key ·)).filter (fails key)).map (·.now)

/-- Enough failures lie in the window that ends with the last of them. -/
def fills (failures : List Rat) (now : Rat) : Prop :=
  settings.maxAttempts ≤
    failures.countP fun u => now - settings.windowSeconds ≤ u ∧ u ≤ now

instance (failures : List Rat) (now : Rat) : Decidable (fills settings failures now) :=
  inferInstanceAs (Decidable (_ ≤ _))

/-- A failure that filled its window, with no reset since, set a lock that holds at the time. -/
def LockedOut (now : Rat) : Prop :=
  ∃ before call after, calls = before ++ call :: after ∧ fails key call = true ∧
    (∀ later ∈ after, resets key later = false) ∧
      call.now ≤ now ∧ now < call.now + settings.lockSeconds ∧
        fills settings (failuresSince (before ++ [call]) key) call.now

end History

section Snoc
variable {settings : LoginSettings} {calls : List LoginCall} {key : LoginKey} {call : LoginCall}

theorem failuresSince_reset (reset : resets key call = true) :
    failuresSince (calls ++ [call]) key = [] := by
  unfold failuresSince
  rw [List.rtakeWhile_concat_neg _ _ _ (by simpa using reset)]
  rfl

theorem failuresSince_other (reset : resets key call = false) (other : fails key call = false) :
    failuresSince (calls ++ [call]) key = failuresSince calls key := by
  unfold failuresSince
  rw [List.rtakeWhile_concat_pos _ _ _ (by simpa using reset), List.filter_append,
    List.filter_cons_of_neg (by simpa using other), List.filter_nil, List.append_nil]

theorem failuresSince_failure (failure : fails key call = true) :
    failuresSince (calls ++ [call]) key = failuresSince calls key ++ [call.now] := by
  have reset : resets key call = false := by
    unfold fails at failure
    unfold resets
    simp only [Bool.and_eq_true, beq_iff_eq] at failure
    rw [failure.1]
    rfl
  unfold failuresSince
  rw [List.rtakeWhile_concat_pos _ _ _ (by simpa using reset), List.filter_append,
    List.filter_cons_of_pos failure, List.filter_nil, List.map_append]
  rfl

theorem mem_failuresSince {u : Rat} (member : u ∈ failuresSince calls key) :
    ∃ c ∈ calls, c.now = u := by
  obtain ⟨c, there, rfl⟩ := List.mem_map.mp member
  exact ⟨c, (List.rtakeWhile_suffix _ _).subset (List.mem_filter.mp there).1, rfl⟩

/-- A call that does not reset the key keeps its locks. -/
theorem LockedOut.later {now : Rat} (locked : LockedOut settings calls key now)
    (reset : resets key call = false) : LockedOut settings (calls ++ [call]) key now := by
  obtain ⟨before, failure, after, rfl, same, none, rest⟩ := locked
  refine ⟨before, failure, after ++ [call], by simp, same, ?_, rest⟩
  intro later member
  rcases List.mem_append.mp member with old | new
  · exact none later old
  · rw [List.mem_singleton.mp new]
    exact reset

theorem lockedOut_snoc {now : Rat} :
    LockedOut settings (calls ++ [call]) key now ↔
      (resets key call = false ∧ LockedOut settings calls key now) ∨
        (fails key call = true ∧ call.now ≤ now ∧ now < call.now + settings.lockSeconds ∧
          fills settings (failuresSince (calls ++ [call]) key) call.now) := by
  constructor
  · rintro ⟨before, failure, after, split, same, none, rest⟩
    induction after using List.reverseRecOn with
    | nil =>
      obtain ⟨rfl, last⟩ := List.append_inj' split rfl
      obtain rfl := List.singleton_inj.mp last
      exact .inr ⟨same, rest⟩
    | append_singleton after last _ =>
      rw [← List.cons_append, ← List.append_assoc] at split
      obtain ⟨rfl, end_⟩ := List.append_inj' split rfl
      obtain rfl := List.singleton_inj.mp end_
      refine .inl ⟨none _ (List.mem_append_right _ List.mem_cons_self), before, failure, after, rfl,
        same, ?_, rest⟩
      exact fun later member => none later (List.mem_append_left _ member)
  · rintro (⟨reset, locked⟩ | ⟨failure, rest⟩)
    · exact locked.later reset
    · exact ⟨calls, call, [], rfl, failure, fun _ none => (nomatch none), rest⟩

end Snoc

section Agreement
variable (settings : LoginSettings)

/-- From a time on, the entry counts the failures of the key and locks it. -/
structure Agrees (calls : List LoginCall) (key : LoginKey) (now : Rat) (e : LoginRateLimitEntry) :
    Prop where
  failures : ∀ cutoff, now - settings.windowSeconds ≤ cutoff →
    e.failures.filter (cutoff ≤ ·) = (failuresSince calls key).filter (cutoff ≤ ·)
  locked : ∀ t, now ≤ t → (t < e.lockedUntil ↔ LockedOut settings calls key t)

/-- An entry without a lock and without failures in the window. -/
def Idle (now : Rat) (e : LoginRateLimitEntry) : Prop :=
  e.lockedUntil ≤ now ∧ ∀ u ∈ e.failures, u < now - settings.windowSeconds

instance (now : Rat) (e : LoginRateLimitEntry) : Decidable (Idle settings now e) :=
  inferInstanceAs (Decidable (_ ∧ _))

variable {settings} {calls : List LoginCall} {key : LoginKey} {now : Rat} {e : LoginRateLimitEntry}

theorem Agrees.mono (agrees : Agrees settings calls key now e) {later : Rat} (order : now ≤ later) :
    Agrees settings calls key later e := by
  constructor
  · intro cutoff recent
    exact agrees.failures cutoff (le_trans (sub_le_sub_right order _) recent)
  · exact fun t after => agrees.locked t (le_trans order after)

/-- Dropping an idle entry changes nothing. -/
theorem Agrees.dropped (agrees : Agrees settings calls key now e) (started : 0 ≤ now)
    (idle : Idle settings now e) : Agrees settings calls key now {} := by
  constructor
  · intro cutoff recent
    rw [← agrees.failures cutoff recent]
    symm
    rw [List.filter_nil, List.filter_eq_nil_iff]
    intro u member inside
    have old := idle.2 u member
    have inside : cutoff ≤ u := of_decide_eq_true inside
    linarith
  · intro t after
    rw [← agrees.locked t after]
    have released := idle.1
    have never : ¬t < ({} : LoginRateLimitEntry).lockedUntil := not_lt.mpr (le_trans started after)
    exact ⟨fun h => (never h).elim, fun h => absurd (lt_of_lt_of_le h released) (not_lt.mpr after)⟩

/-- Calls that are neither failures nor resets of the key. -/
theorem Agrees.other (agrees : Agrees settings calls key now e) {call : LoginCall}
    (reset : resets key call = false) (failure : fails key call = false) :
    Agrees settings (calls ++ [call]) key now e := by
  constructor
  · intro cutoff recent
    rw [failuresSince_other reset failure]
    exact agrees.failures cutoff recent
  · intro t after
    rw [agrees.locked t after, lockedOut_snoc]
    constructor
    · exact fun locked => .inl ⟨reset, locked⟩
    · rintro (⟨_, locked⟩ | ⟨fails, _⟩)
      · exact locked
      · rw [failure] at fails
        cases fails

/-- A reset leaves nothing to count. -/
theorem agrees_reset {call : LoginCall} (started : 0 ≤ now) (reset : resets key call = true) :
    Agrees settings (calls ++ [call]) key now {} := by
  constructor
  · intro cutoff _
    rw [failuresSince_reset reset]
  · intro t after
    have never : ¬t < ({} : LoginRateLimitEntry).lockedUntil := not_lt.mpr (le_trans started after)
    refine ⟨fun h => (never h).elim, fun locked => ?_⟩
    rcases lockedOut_snoc.mp locked with ⟨kept, _⟩ | ⟨failure, _⟩
    · rw [reset] at kept
      cases kept
    · unfold fails at failure
      unfold resets at reset
      simp only [Bool.and_eq_true, beq_iff_eq] at failure reset
      rw [failure.1] at reset
      exact absurd reset.1 (by decide)

/-- Failures before the window may be forgotten. -/
theorem Agrees.trimmed (agrees : Agrees settings calls key now e) :
    Agrees settings calls key now
      { e with failures := e.failures.filter (now - settings.windowSeconds ≤ ·) } := by
  refine ⟨fun cutoff recent => ?_, agrees.locked⟩
  rw [← agrees.failures cutoff recent, List.filter_filter]
  apply List.filter_congr
  intro u _
  simp only [Bool.and_eq_left_iff_imp, decide_eq_true_eq]
  exact le_trans recent

theorem Agrees.seen (agrees : Agrees settings calls key now e) (time : Rat) :
    Agrees settings calls key now { e with lastSeen := time } := ⟨agrees.failures, agrees.locked⟩

/-- A failure is counted, and locks the key where it fills its window. -/
theorem Agrees.failure {call : LoginCall} (agrees : Agrees settings calls key call.now e)
    (failure : fails key call = true) (past : ∀ c ∈ calls, c.now ≤ call.now) :
    let failures := e.failures.filter (call.now - settings.windowSeconds ≤ ·) ++ [call.now]
    Agrees settings (calls ++ [call]) key call.now
      { failures := failures
        lastSeen := call.now
        lockedUntil :=
          if settings.maxAttempts ≤ failures.length then call.now + settings.lockSeconds
          else e.lockedUntil } := by
  intro failures
  have window : failures = (failuresSince (calls ++ [call]) key).filter
      (call.now - settings.windowSeconds ≤ ·) := by
    rw [failuresSince_failure failure, List.filter_append, ← agrees.failures _ le_rfl,
      List.filter_cons_of_pos (by simp), List.filter_nil]
  have full : settings.maxAttempts ≤ failures.length ↔
      fills settings (failuresSince (calls ++ [call]) key) call.now := by
    unfold fills
    rw [window, ← List.countP_eq_length_filter]
    have same : (failuresSince (calls ++ [call]) key).countP
        (fun u => call.now - settings.windowSeconds ≤ u ∧ u ≤ call.now) =
          (failuresSince (calls ++ [call]) key).countP
            (call.now - settings.windowSeconds ≤ ·) := by
      apply List.countP_congr
      intro u member
      obtain ⟨c, there, rfl⟩ := mem_failuresSince member
      have before : c.now ≤ call.now := by
        rcases List.mem_append.mp there with old | last
        · exact past c old
        · rw [List.mem_singleton.mp last]
      simp [before]
    rw [same]
  constructor
  · intro cutoff recent
    dsimp only
    rw [window, List.filter_filter]
    apply List.filter_congr
    intro u _
    simp only [Bool.and_eq_left_iff_imp, decide_eq_true_eq]
    exact le_trans recent
  · intro t after
    dsimp only
    have reset : resets key call = false := by
      unfold fails at failure
      unfold resets
      simp only [Bool.and_eq_true, beq_iff_eq] at failure
      rw [failure.1]
      rfl
    rw [lockedOut_snoc]
    by_cases many : settings.maxAttempts ≤ failures.length
    · rw [if_pos many]
      constructor
      · exact fun locked => .inr ⟨failure, after, locked, full.mp many⟩
      · rintro (⟨_, before, c, later, rfl, _, _, _, inside, _⟩ | ⟨_, _, locked, _⟩)
        · have old := past c (List.mem_append_right _ List.mem_cons_self)
          linarith
        · exact locked
    · rw [if_neg many, agrees.locked t after]
      constructor
      · exact fun locked => .inl ⟨reset, locked⟩
      · rintro (⟨_, locked⟩ | ⟨_, _, _, filled⟩)
        · exact locked
        · exact absurd (full.mpr filled) many

end Agreement

section Runs
variable (hashToken : String → String) (settings : LoginSettings)

/-- The rows that _prune drops to make room. -/
def droppedForRoom (limiter : LoginRateLimiter) (now : Rat) :
    List (String × LoginRateLimitEntry) :=
  let limiter := limiter.fresh settings now
  limiter.entries.filter (·.1 ∈ limiter.oldestKeys settings)

/-- Only idle entries make room. -/
def Spares (limiter : LoginRateLimiter) (now : Rat) : Prop :=
  ∀ row ∈ droppedForRoom settings limiter now, Idle settings now row.2

/-- What the limiter holds of the keys after the calls. -/
structure Counted (keys : List LoginKey) (calls : List LoginCall) (now : Rat)
    (limiter : LoginRateLimiter) : Prop where
  agrees : ∀ key ∈ keys, Agrees settings calls key now (limiter.entry (hashToken key.text))
  seen : ∀ row ∈ limiter.entries, ∀ u ∈ row.2.failures, u ≤ row.2.lastSeen
  past : ∀ row ∈ limiter.entries, row.2.lastSeen ≤ now

variable {hashToken settings} {keys : List LoginKey} {calls : List LoginCall} {now : Rat}
variable {limiter : LoginRateLimiter}

theorem Counted.mono (counted : Counted hashToken settings keys calls now limiter) {later : Rat}
    (order : now ≤ later) : Counted hashToken settings keys calls later limiter :=
  ⟨fun key member => (counted.agrees key member).mono order, counted.seen,
    fun row member => le_trans (counted.past row member) order⟩

/-- Rows that are idle may go. -/
theorem Counted.kept (counted : Counted hashToken settings keys calls now limiter)
    (started : 0 ≤ now) {p : String × LoginRateLimitEntry → Bool}
    (idle : ∀ row ∈ limiter.entries, p row = false → Idle settings now row.2) :
    Counted hashToken settings keys calls now (limiter.keep p) := by
  refine ⟨?_, fun row member => counted.seen row (List.mem_filter.mp member).1,
    fun row member => counted.past row (List.mem_filter.mp member).1⟩
  · intro key member
    have agrees := counted.agrees key member
    rcases limiter.entry_keep p (hashToken key.text) with same | ⟨gone, there, dropped⟩
    · rw [same]
      exact agrees
    · rw [gone]
      exact agrees.dropped started (idle _ there dropped)

theorem stale_idle {row : String × LoginRateLimitEntry}
    (seen : ∀ u ∈ row.2.failures, u ≤ row.2.lastSeen)
    (stale : LoginRateLimiter.stale settings now row = true) : Idle settings now row.2 := by
  unfold LoginRateLimiter.stale at stale
  rw [Bool.and_eq_true, decide_eq_true_eq, decide_eq_true_eq] at stale
  refine ⟨le_of_lt stale.2, fun u member => ?_⟩
  have bound := le_max_left (settings.windowSeconds : Rat) settings.lockSeconds
  have last := seen u member
  linarith [stale.1]

theorem Counted.prune (counted : Counted hashToken settings keys calls now limiter)
    (started : 0 ≤ now) (spares : Spares settings limiter now) :
    Counted hashToken settings keys calls now (limiter.prune settings now) := by
  have fresh : Counted hashToken settings keys calls now (limiter.fresh settings now) := by
    apply counted.kept started
    intro row member dropped
    exact stale_idle (counted.seen row member) (by simpa using dropped)
  apply fresh.kept started
  intro row member dropped
  exact spares row (List.mem_filter.mpr ⟨member, by simpa using dropped⟩)

/-- A new entry for the key of a call, which no other key shares. -/
theorem Counted.put (counted : Counted hashToken settings keys calls now limiter)
    (injective : Function.Injective hashToken)
    (apart : ∀ k ∈ keys, ∀ l ∈ keys, k.text = l.text → k = l) {call : LoginCall}
    (known : call.key ∈ keys) (kind : call.operation ≠ .reset) {e : LoginRateLimitEntry}
    (agrees : Agrees settings (calls ++ [call]) call.key now e)
    (seen : ∀ u ∈ e.failures, u ≤ e.lastSeen) (past : e.lastSeen ≤ now) :
    Counted hashToken settings keys (calls ++ [call]) now
      (limiter.put (hashToken call.key.text) e) := by
  constructor
  · intro key member
    rw [limiter.entry_put]
    by_cases same : call.key = key
    · rw [same, if_pos rfl, ← same]
      exact agrees
    · rw [if_neg fun equal => same (apart _ known _ member (injective equal))]
      apply (counted.agrees key member).other
      · unfold resets
        simp [kind]
      · unfold fails
        simp [same]
  · intro row member
    rcases Table.mem_mergeRow.mp member with rfl | ⟨old, _⟩
    · exact seen
    · exact counted.seen row old
  · intro row member
    rcases Table.mem_mergeRow.mp member with rfl | ⟨old, _⟩
    · exact past
    · exact counted.past row old

/-- The failures of an entry lie in the past. -/
theorem Counted.entry_past (counted : Counted hashToken settings keys calls now limiter)
    (key : String) : ∀ u ∈ (limiter.entry key).failures, u ≤ now := by
  unfold LoginRateLimiter.entry
  cases found : Table.row Prod.fst limiter.entries key with
  | none => exact fun _ none => nomatch none
  | some row =>
    have member := (Table.mem_of_row found).1
    exact fun u inside => le_trans (counted.seen row member u inside) (counted.past row member)

theorem resets_of {call : LoginCall} {operation : LoginOperation} {key : LoginKey}
    (same : call.operation = operation) :
    resets key call = (operation == .reset && call.key == key) := by
  unfold resets
  rw [same]

theorem fails_of {call : LoginCall} {operation : LoginOperation} {key : LoginKey}
    (same : call.operation = operation) :
    fails key call = (operation == .recordFailure && call.key == key) := by
  unfold fails
  rw [same]

/-- What one call does to the entries of all keys. -/
theorem perform_counted (injective : Function.Injective hashToken)
    (apart : ∀ k ∈ keys, ∀ l ∈ keys, k.text = l.text → k = l) {call : LoginCall}
    (counted : Counted hashToken settings keys calls call.now limiter)
    (known : call.key ∈ keys) (started : 0 ≤ call.now) (past : ∀ c ∈ calls, c.now ≤ call.now)
    (spares : call.operation = .recordFailure → Spares settings limiter call.now) :
    Counted hashToken settings keys (calls ++ [call]) call.now
      (perform hashToken settings limiter call) := by
  unfold perform
  cases kind : call.operation with
  | checkAllowed =>
    have agrees : Agrees settings (calls ++ [call]) call.key call.now
        { limiter.entry (hashToken call.key.text) with lastSeen := call.now } :=
      ((counted.agrees _ known).seen call.now).other (resets_of kind) (fails_of kind)
    have inside := counted.entry_past (hashToken call.key.text)
    unfold checkAllowed
    dsimp only
    split
    · exact counted.put injective apart known (by rw [kind]; decide) agrees inside le_rfl
    · apply counted.put injective apart known (by rw [kind]; decide) agrees.trimmed _ le_rfl
      exact fun u member => inside u (List.mem_filter.mp member).1
  | recordFailure =>
    have pruned := counted.prune started (spares kind)
    have failure : fails call.key call = true := by
      rw [fails_of kind]
      simp
    apply pruned.put injective apart known (by rw [kind]; decide)
      ((pruned.agrees _ known).failure failure past) _ le_rfl
    intro u member
    rcases List.mem_append.mp member with old | last
    · exact pruned.entry_past _ u (List.mem_filter.mp old).1
    · rw [List.mem_singleton.mp last]
  | reset =>
    unfold reset
    constructor
    · intro key member
      by_cases same : call.key = key
      · have gone : (limiter.keep (·.1 ≠ hashToken call.key.text)).entry (hashToken key.text) =
            {} := by
          unfold LoginRateLimiter.entry LoginRateLimiter.keep
          rw [Table.row_filter limiter.distinct, same]
          cases found : Table.row Prod.fst limiter.entries (hashToken key.text) with
          | none => rfl
          | some row =>
            rw [Option.filter_some, if_neg (by simp [(Table.mem_of_row found).2])]
            rfl
        rw [gone]
        exact agrees_reset started (by rw [resets_of kind, same]; simp)
      · have kept : (limiter.keep (·.1 ≠ hashToken call.key.text)).entry (hashToken key.text) =
            limiter.entry (hashToken key.text) := by
          rcases limiter.entry_keep (·.1 ≠ hashToken call.key.text) (hashToken key.text) with
            kept | ⟨_, _, dropped⟩
          · exact kept
          · have equal : hashToken key.text = hashToken call.key.text := by simpa using dropped
            exact absurd (apart _ known _ member (injective equal).symm) same
        rw [kept]
        apply (counted.agrees key member).other
        · rw [resets_of kind]
          simp [same]
        · exact fails_of kind
    · exact fun row member => counted.seen row (List.mem_filter.mp member).1
    · exact fun row member => counted.past row (List.mem_filter.mp member).1

end Runs

section Claim

/-- The clock does not go back. -/
structure SerialCalls (calls : List LoginCall) : Prop where
  started : ∀ call ∈ calls, 0 ≤ call.now
  ordered : calls.Pairwise (·.now ≤ ·.now)

variable (hashToken : String → String) (settings : LoginSettings)

/-- No failure makes room by dropping an entry in use. -/
def SparedRun (calls : List LoginCall) : Prop :=
  ∀ before call after, calls = before ++ call :: after → call.operation = .recordFailure →
    Spares settings (limiterAfter hashToken settings before) call.now

variable {hashToken settings}

theorem limiterAfter_snoc (calls : List LoginCall) (call : LoginCall) :
    limiterAfter hashToken settings (calls ++ [call]) =
      perform hashToken settings (limiterAfter hashToken settings calls) call := by
  unfold limiterAfter
  rw [List.foldl_append]
  rfl

theorem empty_counted (keys : List LoginKey) {now : Rat} (started : 0 ≤ now) :
    Counted hashToken settings keys [] now .empty := by
  refine ⟨fun key _ => ⟨fun _ _ => rfl, fun t after => ?_⟩, fun _ none => (nomatch none),
    fun _ none => (nomatch none)⟩
  constructor
  · exact fun locked => absurd locked (not_lt.mpr (le_trans started after))
  · rintro ⟨before, call, later, split, _⟩
    simp at split

theorem run_counted (injective : Function.Injective hashToken) {keys : List LoginKey}
    (apart : ∀ k ∈ keys, ∀ l ∈ keys, k.text = l.text → k = l) {calls : List LoginCall}
    (known : ∀ call ∈ calls, call.key ∈ keys) (serial : SerialCalls calls)
    (spared : SparedRun hashToken settings calls) {now : Rat} (started : 0 ≤ now)
    (past : ∀ call ∈ calls, call.now ≤ now) :
    Counted hashToken settings keys calls now (limiterAfter hashToken settings calls) := by
  induction calls using List.reverseRecOn generalizing now with
  | nil => exact empty_counted keys started
  | append_singleton calls call ih =>
    have last : call ∈ calls ++ [call] := List.mem_append_right _ List.mem_cons_self
    obtain ⟨ordered, _, before⟩ := List.pairwise_append.mp serial.ordered
    have earlier : ∀ c ∈ calls, c.now ≤ call.now := fun c member =>
      before c member call List.mem_cons_self
    have counted := ih (fun c member => known c (List.mem_append_left _ member))
      ⟨fun c member => serial.started c (List.mem_append_left _ member), ordered⟩
      (fun front c back split kind => spared front c (back ++ [call]) (by rw [split]; simp) kind)
      (serial.started call last) earlier
    rw [limiterAfter_snoc]
    apply Counted.mono _ (past call last)
    exact perform_counted injective apart counted (known call last) (serial.started call last)
      earlier fun kind => spared calls call [] rfl kind

/-- Where every pair of an address and an IP has a text of its own, and no failure makes room by
dropping an entry in use, a check fails exactly for a key that is locked out. -/
theorem lockout_holds (hashToken : String → String) (injective : Function.Injective hashToken)
    (settings : LoginSettings) (calls : List LoginCall) (serial : SerialCalls calls)
    (texts : ∀ c ∈ calls, ∀ d ∈ calls, c.key.text = d.key.text → c.key = d.key)
    (spared : SparedRun hashToken settings calls) :
    ∀ before call after, calls = before ++ call :: after → call.operation = .checkAllowed →
      ((checkAllowed hashToken settings (limiterAfter hashToken settings before) call.key
        call.now).2 = false ↔ LockedOut settings before call.key call.now) := by
  rintro before call after rfl kind
  have here : call ∈ before ++ call :: after := List.mem_append_right _ List.mem_cons_self
  have apart : ∀ k ∈ (before ++ call :: after).map (·.key),
      ∀ l ∈ (before ++ call :: after).map (·.key), k.text = l.text → k = l := by
    intro k first l second same
    obtain ⟨c, one, rfl⟩ := List.mem_map.mp first
    obtain ⟨d, two, rfl⟩ := List.mem_map.mp second
    exact texts c one d two same
  obtain ⟨ordered, _, earlier⟩ := List.pairwise_append.mp serial.ordered
  have counted := run_counted injective apart
    (fun c member => List.mem_map_of_mem (List.mem_append_left _ member))
    ⟨fun c member => serial.started c (List.mem_append_left _ member), ordered⟩
    (fun front c back split same =>
      spared front c (back ++ call :: after) (by rw [split]; simp) same)
    (serial.started call here) fun c member => earlier c member call List.mem_cons_self
  rw [← (counted.agrees call.key (List.mem_map_of_mem here)).locked call.now le_rfl]
  unfold checkAllowed
  dsimp only
  split
  · next locked => exact iff_of_true rfl locked
  · next free => exact iff_of_false (by simp) free

/-- The limiter holds entries of called keys only. -/
theorem entries_called (calls : List LoginCall) :
    ∀ row ∈ (limiterAfter hashToken settings calls).entries,
      row.1 ∈ calls.map (hashToken ·.key.text) := by
  induction calls using List.reverseRecOn with
  | nil => exact fun _ none => nomatch none
  | append_singleton calls call ih =>
    have added {limiter : LoginRateLimiter} (before : ∀ row ∈ limiter.entries,
        row.1 ∈ calls.map (hashToken ·.key.text)) (e : LoginRateLimitEntry) :
        ∀ row ∈ (limiter.put (hashToken call.key.text) e).entries,
          row.1 ∈ (calls ++ [call]).map (hashToken ·.key.text) := by
      intro row member
      rw [List.map_append, List.mem_append]
      rcases Table.mem_mergeRow.mp member with rfl | ⟨old, _⟩
      · exact .inr List.mem_cons_self
      · exact .inl (before row old)
    rw [limiterAfter_snoc]
    unfold perform
    cases call.operation with
    | checkAllowed =>
      unfold checkAllowed
      dsimp only
      split
      · exact added ih _
      · exact added ih _
    | recordFailure =>
      apply added
      intro row member
      exact ih row (List.mem_filter.mp (List.mem_filter.mp member).1).1
    | reset =>
      intro row member
      rw [List.map_append, List.mem_append]
      exact .inl (ih row (List.mem_filter.mp member).1)

/-- As long as there are no more keys than the limiter may hold, it drops none of them. -/
theorem spared_of_few {calls : List LoginCall}
    (few : (calls.map (hashToken ·.key.text)).dedup.length ≤ settings.maxKeys) :
    SparedRun hashToken settings calls := by
  rintro before call after rfl _ row dropped
  have fresh : ((limiterAfter hashToken settings before).fresh settings call.now).entries.length ≤
      settings.maxKeys := by
    apply Nat.le_trans (List.length_filter_le _ _)
    apply Nat.le_trans _ few
    rw [← List.length_map Prod.fst]
    apply List.Subperm.length_le
    apply List.subperm_of_subset (limiterAfter hashToken settings before).distinct
    intro id member
    obtain ⟨entry, there, rfl⟩ := List.mem_map.mp member
    rw [List.mem_dedup, List.map_append, List.mem_append]
    exact .inl (entries_called before entry there)
  have none : ((limiterAfter hashToken settings before).fresh settings call.now).oldestKeys
      settings = [] := by
    unfold LoginRateLimiter.oldestKeys
    rw [Nat.sub_eq_zero_of_le fresh]
    rfl
  obtain ⟨_, oldest⟩ := List.mem_filter.mp dropped
  rw [none] at oldest
  simp at oldest

/-- Two failures within the window, and a check of each of two keys. -/
theorem lockout_of_two :
    let settings : LoginSettings := ⟨300, 2, 300, 100, by decide, by decide, by decide, by decide⟩
    let key : LoginKey := ⟨"a@example.com", some "10.0.0.1"⟩
    let failures : List LoginCall := [⟨.recordFailure, key, 0⟩, ⟨.recordFailure, key, 1⟩]
    (checkAllowed id settings (limiterAfter id settings failures) key 2).2 = false ∧
      LockedOut settings failures key 2 := by
  intro settings key failures
  have locked : (checkAllowed id settings (limiterAfter id settings failures) key 2).2 = false := by
    decide +kernel
  refine ⟨locked, ?_⟩
  have serial : SerialCalls (failures ++ [⟨.checkAllowed, key, 2⟩]) :=
    ⟨by decide +kernel, by decide +kernel⟩
  exact (lockout_holds id Function.injective_id settings (failures ++ [⟨.checkAllowed, key, 2⟩])
    serial (by decide) (spared_of_few (by decide +kernel)) failures ⟨.checkAllowed, key, 2⟩ [] rfl
      rfl).mp locked

/-- 102 keys fail one after the other, where 100 may be held: the first of them, which is locked,
makes room for the others. -/
theorem locked_key_evicted :
    ¬∀ (hashToken : String → String), Function.Injective hashToken → ∀ (settings : LoginSettings)
      (calls : List LoginCall), SerialCalls calls →
      (∀ c ∈ calls, ∀ d ∈ calls, c.key.text = d.key.text → c.key = d.key) →
      ∀ before call after, calls = before ++ call :: after → call.operation = .checkAllowed →
        ((checkAllowed hashToken settings (limiterAfter hashToken settings before) call.key
          call.now).2 = false ↔ LockedOut settings before call.key call.now) := by
  intro claim
  let settings : LoginSettings := ⟨1, 1, 300, 100, by decide, by decide, by decide, by decide⟩
  let key (i : Nat) : LoginKey := ⟨toString i, none⟩
  let failures : List LoginCall := (List.range 102).map fun i => ⟨.recordFailure, key i, i⟩
  have allowed : (checkAllowed id settings (limiterAfter id settings failures) (key 0) 102).2 =
      true := by decide +kernel
  have locked : LockedOut settings failures (key 0) 102 := by
    refine ⟨[], ⟨.recordFailure, key 0, 0⟩, failures.tail, by decide +kernel, ?_, ?_, ?_, ?_, ?_⟩
    all_goals decide +kernel
  have serial : SerialCalls (failures ++ [⟨.checkAllowed, key 0, 102⟩]) :=
    ⟨by decide +kernel, by decide +kernel⟩
  have keys : ∀ c ∈ failures ++ [⟨.checkAllowed, key 0, 102⟩], ∃ i, c.key = key i := by
    intro c member
    rcases List.mem_append.mp member with failure | last
    · obtain ⟨i, _, rfl⟩ := List.mem_map.mp failure
      exact ⟨i, rfl⟩
    · rw [List.mem_singleton.mp last]
      exact ⟨0, rfl⟩
  have texts : ∀ c ∈ failures ++ [⟨.checkAllowed, key 0, 102⟩],
      ∀ d ∈ failures ++ [⟨.checkAllowed, key 0, 102⟩], c.key.text = d.key.text →
        c.key = d.key := by
    intro c first d second same
    obtain ⟨i, one⟩ := keys c first
    obtain ⟨j, two⟩ := keys d second
    rw [one, two] at same ⊢
    have ids := (String.append_left_inj _).mp ((String.append_left_inj _).mp same)
    rw [Python.toString_injective ids]
  have blocked := (claim id Function.injective_id settings
    (failures ++ [⟨.checkAllowed, key 0, 102⟩]) serial texts failures
      ⟨.checkAllowed, key 0, 102⟩ [] rfl rfl).mpr locked
  dsimp only at blocked
  rw [allowed] at blocked
  cases blocked

end Claim

end RagProject.Core
