import Mathlib.Algebra.Order.Ring.Rat
import RagProject.Lib.Table

/-! LoginRateLimiter (core/security.py): the failed logins of each key in a sliding window, and the
lock that too many of them set. -/
namespace RagProject.Core

structure LoginSettings where
  windowSeconds : Nat
  maxAttempts : Nat
  lockSeconds : Nat
  maxKeys : Nat
  window : 1 ≤ windowSeconds
  attempts : 1 ≤ maxAttempts
  lock : 1 ≤ lockSeconds
  keys : 1 ≤ maxKeys
  deriving DecidableEq, Repr

structure LoginRateLimitEntry where
  failures : List Rat := []
  lockedUntil : Rat := 0
  lastSeen : Rat := 0
  deriving DecidableEq, Repr

/-- The dict of the entries, in the order of their keys. -/
structure LoginRateLimiter where
  entries : List (String × LoginRateLimitEntry)
  distinct : (entries.map Prod.fst).Nodup
  deriving DecidableEq, Repr

namespace LoginRateLimiter

def empty : LoginRateLimiter := ⟨[], .nil⟩

variable (limiter : LoginRateLimiter)

/-- What the defaultdict gives for a key. -/
def entry (key : String) : LoginRateLimitEntry :=
  ((Table.row Prod.fst limiter.entries key).map (·.2)).getD {}

def put (key : String) (entry : LoginRateLimitEntry) : LoginRateLimiter :=
  ⟨Table.mergeRow Prod.fst limiter.entries (key, entry), Table.mergeRow_distinct limiter.distinct⟩

def keep (p : String × LoginRateLimitEntry → Bool) : LoginRateLimiter :=
  ⟨limiter.entries.filter p, Table.filter_distinct limiter.distinct p⟩

theorem entry_put (key : String) (e : LoginRateLimitEntry) (other : String) :
    (limiter.put key e).entry other = if key = other then e else limiter.entry other := by
  unfold entry put
  rw [Table.row_mergeRow limiter.distinct]
  split <;> rfl

theorem entry_of_mem {row : String × LoginRateLimitEntry} (member : row ∈ limiter.entries) :
    limiter.entry row.1 = row.2 := by
  unfold entry
  rw [Table.row_of_mem limiter.distinct member]
  rfl

/-- A key keeps its entry, or its row was dropped. -/
theorem entry_keep (p : String × LoginRateLimitEntry → Bool) (key : String) :
    (limiter.keep p).entry key = limiter.entry key ∨
      (limiter.keep p).entry key = {} ∧ (key, limiter.entry key) ∈ limiter.entries ∧
        p (key, limiter.entry key) = false := by
  cases found : Table.row Prod.fst limiter.entries key with
  | none =>
    unfold entry keep
    rw [Table.row_filter limiter.distinct, found]
    exact .inl rfl
  | some row =>
    obtain ⟨member, rfl⟩ := Table.mem_of_row found
    rw [limiter.entry_of_mem member]
    unfold entry keep
    rw [Table.row_filter limiter.distinct, found]
    by_cases kept : p row = true
    · rw [Option.filter_some, if_pos kept]
      exact .inl rfl
    · rw [Option.filter_some, if_neg kept]
      exact .inr ⟨rfl, member, by simpa using kept⟩

variable (settings : LoginSettings) (now : Rat)

/-- Not seen for longer than a window and a lock, and not locked. -/
def stale (row : String × LoginRateLimitEntry) : Bool :=
  row.2.lastSeen < now - max (settings.windowSeconds : Rat) settings.lockSeconds &&
    row.2.lockedUntil < now

/-- The keys over the limit that were not seen for the longest time. -/
def oldestKeys : List String :=
  ((limiter.entries.insertionSort fun a b => a.2.lastSeen ≤ b.2.lastSeen).take
    (limiter.entries.length - settings.maxKeys)).map Prod.fst

def fresh : LoginRateLimiter := limiter.keep (!stale settings now ·)

/-- _prune. -/
def prune : LoginRateLimiter :=
  let limiter := limiter.fresh settings now
  limiter.keep (·.1 ∉ limiter.oldestKeys settings)

end LoginRateLimiter

section Calls

/-- A normalized e-mail address and a client IP. -/
structure LoginKey where
  normalizedEmail : String
  clientIp : Option String
  deriving DecidableEq, Repr

def LoginKey.text (key : LoginKey) : String :=
  key.normalizedEmail ++ ":" ++ ((key.clientIp.filter (· ≠ "")).getD "unknown")

variable (hashToken : String → String) (settings : LoginSettings) (limiter : LoginRateLimiter)
variable (key : LoginKey) (now : Rat)

def checkAllowed : LoginRateLimiter × Bool :=
  let id := hashToken key.text
  let entry := { limiter.entry id with lastSeen := now }
  if now < entry.lockedUntil then (limiter.put id entry, false)
  else
    (limiter.put id { entry with
      failures := entry.failures.filter (now - settings.windowSeconds ≤ ·) }, true)

def recordFailure : LoginRateLimiter :=
  let id := hashToken key.text
  let limiter := limiter.prune settings now
  let entry := limiter.entry id
  let failures := entry.failures.filter (now - settings.windowSeconds ≤ ·) ++ [now]
  limiter.put id
    { failures := failures
      lastSeen := now
      lockedUntil :=
        if settings.maxAttempts ≤ failures.length then now + settings.lockSeconds
        else entry.lockedUntil }

def reset : LoginRateLimiter := limiter.keep (·.1 ≠ hashToken key.text)

inductive LoginOperation where
  | checkAllowed | recordFailure | reset
  deriving DecidableEq, Repr

/-- A call with the time of the clock. -/
structure LoginCall where
  operation : LoginOperation
  key : LoginKey
  now : Rat
  deriving DecidableEq, Repr

def perform (limiter : LoginRateLimiter) (call : LoginCall) : LoginRateLimiter :=
  match call.operation with
  | .checkAllowed => (checkAllowed hashToken settings limiter call.key call.now).1
  | .recordFailure => recordFailure hashToken settings limiter call.key call.now
  | .reset => reset hashToken limiter call.key

/-- The limiter after the calls. -/
def limiterAfter (calls : List LoginCall) : LoginRateLimiter :=
  calls.foldl (perform hashToken settings) .empty

end Calls

end RagProject.Core
