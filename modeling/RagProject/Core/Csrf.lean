import RagProject.Lib.Integers
import RagProject.Lib.Sha256

/-! The signed state of a login before its session (core/csrf.py), with the token hashes of
core/security.py that it carries. -/
namespace RagProject.Core
open Python

inductive CsrfFailure where
  | csrfMissing
  | csrfInvalid
  /-- compare_digest, given a text that is not ASCII. -/
  | typeError
  /-- An integer of too many digits in a formatted string. -/
  | valueError
  deriving DecidableEq, Repr

structure CsrfSettings where
  sessionSecret : String
  csrfPreAuthMaxAgeSeconds : Nat
  age : 60 ≤ csrfPreAuthMaxAgeSeconds

def isAscii (text : List Char) : Bool := text.all fun c => c.toNat < 128

/-- hmac.compare_digest. -/
def compareDigest (a b : List Char) : Except CsrfFailure Bool :=
  if isAscii a && isAscii b then .ok (a == b) else .error .typeError

section Tokens
variable (settings : CsrfSettings)

/-- hmac.new(secret, payload, "sha256").hexdigest(). -/
def signatureOf (payload : List Char) : List Char :=
  (Sha256.keyedHexDigest (Sha256.utf8 settings.sessionSecret)
    (Sha256.utf8 (String.ofList payload))).toList

def hashToken (token : List Char) : List Char := signatureOf settings token

def verifyTokenHash (token tokenHash : List Char) : Except CsrfFailure Bool :=
  if tokenHash = [] then .ok false else compareDigest (hashToken settings token) tokenHash

theorem signatureOf_chars (payload : List Char) :
    isAscii (signatureOf settings payload) = true ∧ '.' ∉ signatureOf settings payload ∧
      signatureOf settings payload ≠ [] := by
  obtain ⟨length, hex⟩ := Sha256.hex_chars (Sha256.digest
    ((Sha256.keyBlock (Sha256.utf8 settings.sessionSecret)).map (· ^^^ 0x5c) ++
      (Sha256.digest ((Sha256.keyBlock (Sha256.utf8 settings.sessionSecret)).map (· ^^^ 0x36) ++
        Sha256.utf8 (String.ofList payload))).bytes))
  have small : ∀ c ∈ "0123456789abcdef".toList, c.toNat < 128 ∧ c ≠ '.' := by decide
  refine ⟨?_, fun dot => (small '.' (hex '.' dot)).2 rfl, fun empty => ?_⟩
  · rw [isAscii, List.all_eq_true]
    exact fun c member => decide_eq_true (small c (hex c member)).1
  · have none := congrArg List.length empty
    rw [signatureOf, Sha256.keyedHexDigest, length] at none
    cases none

theorem compareDigest_signature (signature payload : List Char) :
    compareDigest signature (signatureOf settings payload) =
      if isAscii signature = false then .error .typeError
      else .ok (decide (signature = signatureOf settings payload)) := by
  unfold compareDigest
  rw [(signatureOf_chars settings payload).1, Bool.and_true]
  cases isAscii signature <;> simp [Bool.beq_eq_decide_eq]

/-- The hash of a token is compared with a hash that a signed state carries. -/
theorem verifyTokenHash_cases (token tokenHash : List Char) :
    verifyTokenHash settings token tokenHash =
      if isAscii tokenHash = false then .error .typeError
      else .ok (decide (tokenHash = hashToken settings token)) := by
  have solid := signatureOf_chars settings token
  unfold verifyTokenHash compareDigest
  by_cases empty : tokenHash = []
  · have other : [] ≠ hashToken settings token := fun same => solid.2.2 same.symm
    have blank : isAscii [] = true := rfl
    simp [empty, blank, other]
  · rw [if_neg empty, hashToken, solid.1, Bool.true_and]
    by_cases ascii : isAscii tokenHash = true
    · simp [ascii, eq_comm, Bool.beq_eq_decide_eq]
    · simp [ascii]

end Tokens

section State
variable [DigitTables] (settings : CsrfSettings)

/-- The time is that of time.time(), unless one is given that is not zero. -/
def makePreAuthState (rawCsrfToken : List Char) (issuedAt : Option Int) (now : Int) :
    Except CsrfFailure (List Char) :=
  let timestamp := match issuedAt with
    | some t => if t = 0 then now else t
    | none => now
  match strOfInt timestamp with
  | none => .error .valueError
  | some text =>
    let payload := text ++ '.' :: hashToken settings rawCsrfToken
    .ok (payload ++ '.' :: signatureOf settings payload)

def verifyPreAuthState (now : Int) (rawCsrfToken : List Char) (signedState : Option (List Char)) :
    Except CsrfFailure Bool :=
  if rawCsrfToken = [] then .error .csrfMissing
  else
    match signedState with
    | none | some [] => .error .csrfInvalid
    | some state =>
      match state.splitOn '.' with
      | [issuedAtRaw, expectedHash, signature] => do
        let payload := issuedAtRaw ++ '.' :: expectedHash
        if !(← compareDigest signature (signatureOf settings payload)) then .error .csrfInvalid
        else
          match parseInt issuedAtRaw with
          | none => .error .csrfInvalid
          | some issuedAt =>
            if issuedAt + settings.csrfPreAuthMaxAgeSeconds < now then .error .csrfInvalid
            else if !(← verifyTokenHash settings rawCsrfToken expectedHash) then .error .csrfInvalid
            else .ok true
      | _ => .error .csrfInvalid

/-- The state was issued for the token, and its time is not over. -/
def Issued (now : Int) (rawCsrfToken state : List Char) : Prop :=
  ∃ i h, state.splitOn '.' = [i, h, signatureOf settings (i ++ '.' :: h)] ∧
    h = hashToken settings rawCsrfToken ∧
    ∃ t, parseInt i = some t ∧ now ≤ t + settings.csrfPreAuthMaxAgeSeconds

/-- A part of the state that is not ASCII comes to its comparison: the signature, or the hash of a
state that is signed and whose time is not over. -/
def Uncomparable (now : Int) (state : List Char) : Prop :=
  ∃ i h g, state.splitOn '.' = [i, h, g] ∧
    (isAscii g = false ∨ (g = signatureOf settings (i ++ '.' :: h) ∧ isAscii h = false ∧
      ∃ t, parseInt i = some t ∧ now ≤ t + settings.csrfPreAuthMaxAgeSeconds))

/-- What the check of a state is to do. -/
structure CheckedTotally (now : Int) (rawCsrfToken state : List Char) : Prop where
  accepts : ∀ t clock : Int, 0 < t → t ≤ now → now ≤ t + settings.csrfPreAuthMaxAgeSeconds →
    makePreAuthState settings rawCsrfToken (some t) clock = .ok state →
    verifyPreAuthState settings now rawCsrfToken (some state) = .ok true
  sound : verifyPreAuthState settings now rawCsrfToken (some state) = .ok true →
    Issued settings now rawCsrfToken state
  refuses : verifyPreAuthState settings now rawCsrfToken (some state) ≠ .ok true →
    verifyPreAuthState settings now rawCsrfToken (some state) = .error .csrfInvalid

variable {settings} {now : Int} {raw state : List Char}

theorem issued_comparable (issued : Issued settings now raw state) :
    ¬Uncomparable settings now state := by
  obtain ⟨i, h, parts, rfl, _⟩ := issued
  rintro ⟨i', h', g, same, wrong⟩
  rw [parts] at same
  cases same
  rcases wrong with signature | ⟨_, hash, _⟩
  · rw [(signatureOf_chars settings _).1] at signature
    cases signature
  · rw [hashToken, (signatureOf_chars settings _).1] at hash
    cases hash

theorem issued_parts {i h g : List Char} (parts : state.splitOn '.' = [i, h, g]) :
    Issued settings now raw state ↔ g = signatureOf settings (i ++ '.' :: h) ∧
      h = hashToken settings raw ∧
      ∃ t, parseInt i = some t ∧ now ≤ t + settings.csrfPreAuthMaxAgeSeconds := by
  unfold Issued
  rw [parts]
  constructor
  · rintro ⟨_, _, same, rest⟩
    cases same
    exact ⟨rfl, rest⟩
  · rintro ⟨rfl, rest⟩
    exact ⟨i, h, rfl, rest⟩

theorem uncomparable_parts {i h g : List Char} (parts : state.splitOn '.' = [i, h, g]) :
    Uncomparable settings now state ↔ isAscii g = false ∨
      (g = signatureOf settings (i ++ '.' :: h) ∧ isAscii h = false ∧
        ∃ t, parseInt i = some t ∧ now ≤ t + settings.csrfPreAuthMaxAgeSeconds) := by
  unfold Uncomparable
  rw [parts]
  constructor
  · rintro ⟨_, _, _, same, rest⟩
    cases same
    exact rest
  · exact fun rest => ⟨i, h, g, rfl, rest⟩

variable (settings now) in
/-- The three ways in which a check can end. -/
theorem verified_cases (token : raw ≠ []) (state : List Char) :
    (Issued settings now raw state ∧
      verifyPreAuthState settings now raw (some state) = .ok true) ∨
    (Uncomparable settings now state ∧
      verifyPreAuthState settings now raw (some state) = .error .typeError) ∨
    (¬Issued settings now raw state ∧ ¬Uncomparable settings now state ∧
      verifyPreAuthState settings now raw (some state) = .error .csrfInvalid) := by
  unfold verifyPreAuthState
  rw [if_neg token]
  split
  · rename_i none
    cases none
  · rename_i empty
    cases empty
    refine .inr (.inr ⟨?_, ?_, rfl⟩)
    · rintro ⟨_, _, parts, _⟩
      cases parts
    · rintro ⟨_, _, _, parts, _⟩
      cases parts
  · rename_i same
    cases same
    split
    · rename_i i h g parts
      dsimp only
      rw [issued_parts parts, uncomparable_parts parts, verifyTokenHash_cases,
        compareDigest_signature]
      cases ascii : isAscii g with
      | false => exact .inr (.inl ⟨.inl rfl, rfl⟩)
      | true =>
        by_cases signed : g = signatureOf settings (i ++ '.' :: h)
        · subst signed
          cases issuedAt : parseInt i with
          | none => exact .inr (.inr ⟨by simp, by simp, by simp [bind, Except.bind]⟩)
          | some t =>
            by_cases ended : t + settings.csrfPreAuthMaxAgeSeconds < now
            · have late : ¬now ≤ t + settings.csrfPreAuthMaxAgeSeconds := Int.not_le.mpr ended
              exact .inr (.inr ⟨by simp [late], by simp [late], by simp [bind, Except.bind, ended]⟩)
            · have timely := Int.not_lt.mp ended
              cases plain : isAscii h with
              | false =>
                exact .inr (.inl ⟨by simp [timely], by simp [bind, Except.bind, ended]⟩)
              | true =>
                by_cases hash : h = hashToken settings raw
                · exact .inl ⟨by simp [hash, timely], by simp [bind, Except.bind, ended, hash]⟩
                · exact .inr (.inr ⟨by simp [hash], by simp,
                    by simp [bind, Except.bind, ended, hash]⟩)
        · exact .inr (.inr ⟨by simp [signed], by simp [signed], by simp [bind, Except.bind, signed]⟩)
    · rename_i other
      refine .inr (.inr ⟨?_, ?_, rfl⟩)
      · rintro ⟨i, h, parts, _⟩
        exact other _ _ _ parts
      · rintro ⟨i, h, g, parts, _⟩
        exact other _ _ _ parts

/-- A state that is made for a token is one that was issued for it. -/
theorem made_issued {t clock : Int} (positive : 0 < t)
    (timely : now ≤ t + settings.csrfPreAuthMaxAgeSeconds)
    (made : makePreAuthState settings raw (some t) clock = .ok state) :
    Issued settings now raw state := by
  unfold makePreAuthState at made
  simp only [if_neg (Int.ne_of_gt positive)] at made
  cases written : strOfInt t with
  | none =>
    rw [written] at made
    cases made
  | some text =>
    rw [written] at made
    cases made
    refine ⟨text, hashToken settings raw, ?_, rfl, t, parseInt_str written, timely⟩
    have solid : ∀ part ∈ [text, hashToken settings raw,
        signatureOf settings (text ++ '.' :: hashToken settings raw)], '.' ∉ part := by
      intro part member
      simp only [List.mem_cons, List.not_mem_nil, or_false] at member
      rcases member with rfl | rfl | rfl
      · exact strOfInt_dot written
      · exact (signatureOf_chars settings _).2.1
      · exact (signatureOf_chars settings _).2.1
    have parts := List.splitOn_intercalate '.' solid (List.cons_ne_nil _ _)
    simpa [List.intercalate] using parts

/-- A check of a state ends as it is to, unless a text that is not ASCII comes to a comparison. -/
theorem state_checked (settings : CsrfSettings) (now : Int) (raw state : List Char)
    (token : raw ≠ []) :
    CheckedTotally settings now raw state ↔ ¬Uncomparable settings now state := by
  constructor
  · intro total wrong
    rcases verified_cases settings now token state with
      ⟨issued, _⟩ | ⟨_, ended⟩ | ⟨_, right, _⟩
    · exact issued_comparable issued wrong
    · have refused := total.refuses (by rw [ended]; simp)
      rw [ended] at refused
      cases refused
    · exact right wrong
  · intro right
    rcases verified_cases settings now token state with
      ⟨issued, ended⟩ | ⟨wrong, _⟩ | ⟨other, _, ended⟩
    · exact ⟨fun _ _ _ _ _ _ => ended, fun _ => issued, fun refused => absurd ended refused⟩
    · exact absurd wrong right
    · refine ⟨fun t clock positive _ timely made => ?_, fun accepted => ?_, fun _ => ended⟩
      · exact absurd (made_issued positive timely made) other
      · rw [ended] at accepted
        cases accepted

end State

section Cases
local instance csrfTables : DigitTables := asciiDigits

def devSettings : CsrfSettings := ⟨"dev-only-change-me", 600, by decide⟩

theorem state_checked_form : CheckedTotally devSettings 5 ['t'] "1.2.3".toList ↔
    ¬Uncomparable devSettings 5 "1.2.3".toList :=
  state_checked devSettings 5 ['t'] "1.2.3".toList (by decide)

/-- A signature with an accent. -/
theorem signature_not_compared :
    verifyPreAuthState devSettings 5 ['t'] (some "1.2.\u00e9".toList) = .error .typeError ∧
      ¬CheckedTotally devSettings 5 ['t'] "1.2.\u00e9".toList := by
  have ended : verifyPreAuthState devSettings 5 ['t'] (some "1.2.\u00e9".toList) =
      .error .typeError := by decide +kernel
  refine ⟨ended, fun total => ?_⟩
  have refused := total.refuses (by rw [ended]; simp)
  rw [ended] at refused
  cases refused

end Cases
end RagProject.Core
