import Mathlib.Data.Finset.Card
import RagProject.Context.EvidenceBounds
import RagProject.Lib.Runs

/-! Which evidence the compressor takes for a duplicate, measured by the words of the texts. -/
namespace RagProject.Context
open Python Sieve

section Words
variable [UnicodeTables] [CaseFold]

/-- str.isalnum of one character. -/
def isAlnum (c : Char) : Bool :=
  !isSpace c && if c.toNat < 128 then c.isAlphanum else UnicodeTables.alnum c

/-- The case-folded words of a text. -/
def wordsOf (text : String) : Finset (List Char) :=
  (runs isAlnum (casefold text.toList)).toFinset

/-- Texts that are normalised to one text have the same words. -/
theorem normalized_words {a b : String} (same : normalizeText a = normalizeText b) :
    wordsOf a = wordsOf b := by
  have solid : ∀ c, isSpace c = true → isAlnum c = false := by
    intro c blank
    simp [isAlnum, blank]
  have joined : join [' '] (splitWords (casefold a.toList)) =
      join [' '] (splitWords (casefold b.toList)) := String.ofList_injective same
  unfold wordsOf
  rw [← runs_join solid, joined, runs_join solid]

variable [Rounding]

/-- The Jaccard similarity of the words reaches the threshold. -/
def Alike (threshold : Rat) (a b : String) : Prop :=
  wordsOf a = wordsOf b ∨
    threshold ≤ Rounding.divide (wordsOf a ∩ wordsOf b).card (wordsOf a ∪ wordsOf b).card

end Words

section Duplicates
variable [UnicodeTables] [CaseFold] [Rounding] (policy : EvidencePackPolicy)

def packFates (candidates : List EvidenceCandidate) : List Fate :=
  (compressionTurns policy (candidates.map prepareCandidate)).map fateOf

def Fate.item (fate : Fate) : Option (EvidenceCandidate × EvidenceItem) :=
  (takenOf fate.2).map fun item => (fate.1, item)

/-- The accepted candidates with their items. -/
def keptOf (fates : List Fate) : List (EvidenceCandidate × EvidenceItem) :=
  fates.filterMap Fate.item

def textOf (c : EvidenceCandidate) : String := cleanText (c.text.getD "")

/-- The candidate has the words of an accepted text, or of what was sent of it. -/
def SameWords (done : List Fate) (c : EvidenceCandidate) : Prop :=
  ∃ a ∈ keptOf done, wordsOf (textOf c) = wordsOf (textOf a.1) ∨
    wordsOf (textOf c) = wordsOf a.2.evidenceTextForGeneration

def AlikeWords (done : List Fate) (c : EvidenceCandidate) : Prop :=
  ∃ a ∈ keptOf done, Alike policy.nearDuplicateThreshold (textOf c) (textOf a.1) ∨
    Alike policy.nearDuplicateThreshold (textOf c) a.2.evidenceTextForGeneration

/-- What a reason to drop a candidate says about its words. -/
def DropsAlike (done : List Fate) (c : EvidenceCandidate) : CompressionDropReason → Prop
  | .exactDuplicateRemoved | .normalizedDuplicateRemoved => SameWords done c
  | .nearDuplicateRemoved => AlikeWords policy done c
  | _ => True

def OnlyAlikeDropped (fates : List Fate) : Prop :=
  ∀ done c reason rest, fates = done ++ (c, .error reason) :: rest → DropsAlike policy done c reason

def HashedBefore (done : List Fate) (c : EvidenceCandidate) : Prop :=
  ∃ a ∈ keptOf done, Sha256.hexDigest (textOf a.1) = Sha256.hexDigest (textOf c)

def NormalizedBefore (done : List Fate) (c : EvidenceCandidate) : Prop :=
  ∃ a ∈ keptOf done, normalizeText (textOf a.1) = normalizeText (textOf c)

/-- A hash is that of one set of words only, and the tokens [a-z0-9]{2,} that a candidate shares
with an accepted text stand for its words. -/
structure Told (done : List Fate) (c : EvidenceCandidate) : Prop where
  hash : HashedBefore done c → SameWords done c
  tokens : ¬HashedBefore done c → ¬NormalizedBefore done c →
    nearDuplicate (prepareCandidate c) ((keptOf done).map (·.2)) policy.nearDuplicateThreshold →
      AlikeWords policy done c

def WordsTold (fates : List Fate) : Prop :=
  ∀ done c verdict rest, fates = done ++ (c, verdict) :: rest → textOf c ≠ "" → Told policy done c

variable {policy}

omit [UnicodeTables] [CaseFold] [Rounding] in
theorem kept_fates {turns : List CompressionTurn} (own : ∀ p a, (p, .ok a) ∈ turns → a.1 = p) :
    keptOf (turns.map fateOf) = (taken turns).map fun a => (a.1.candidate, a.2) := by
  induction turns with
  | nil => rfl
  | cons turn turns ih =>
    have rest := ih fun p a member => own p a (List.mem_cons_of_mem _ member)
    obtain ⟨p, verdict⟩ := turn
    unfold keptOf taken at rest ⊢
    rw [List.map_cons, List.filterMap_cons, List.filterMap_cons, rest]
    cases verdict with
    | error r => rfl
    | ok a =>
      rw [← own p a List.mem_cons_self]
      rfl

omit [UnicodeTables] [CaseFold] [Rounding] in
theorem fates_split {turns : List CompressionTurn} {before after : List Fate} {fate : Fate}
    (split : turns.map fateOf = before ++ fate :: after) :
    ∃ done turn rest, turns = done ++ turn :: rest ∧ done.map fateOf = before ∧
      fateOf turn = fate ∧ rest.map fateOf = after := by
  obtain ⟨done, others, rfl, first, second⟩ := List.map_eq_append_iff.mp split
  obtain ⟨turn, rest, rfl, here, last⟩ := List.map_eq_cons_iff.mp second
  exact ⟨done, turn, rest, rfl, first, here, last⟩

omit [UnicodeTables] in
variable (policy) in
/-- The reasons to take a candidate for a duplicate. -/
theorem refusal_duplicate {s : Compression} {p : CompressionCandidate} :
    (refusal policy s p = some .exactDuplicateRemoved ↔
      p.cleanText ≠ "" ∧ Sha256.hexDigest p.cleanText ∈ s.seenHashes) ∧
    (refusal policy s p = some .normalizedDuplicateRemoved ↔
      p.cleanText ≠ "" ∧ Sha256.hexDigest p.cleanText ∉ s.seenHashes ∧
        p.normalizedText ∈ s.seenNormalized) ∧
    (refusal policy s p = some .nearDuplicateRemoved ↔
      p.cleanText ≠ "" ∧ Sha256.hexDigest p.cleanText ∉ s.seenHashes ∧
        p.normalizedText ∉ s.seenNormalized ∧
          nearDuplicate p s.accepted policy.nearDuplicateThreshold) := by
  by_cases shows : p.cleanText = ""
  · rw [refusal, if_pos shows]
    simp [shows]
  · by_cases hash : Sha256.hexDigest p.cleanText ∈ s.seenHashes
    · rw [refusal, if_neg shows, if_pos hash]
      simp [shows, hash]
    · by_cases normalized : p.normalizedText ∈ s.seenNormalized
      · rw [refusal, if_neg shows, if_neg hash, if_pos normalized]
        simp [shows, hash, normalized]
      · by_cases near : nearDuplicate p s.accepted policy.nearDuplicateThreshold = true
        · rw [refusal, if_neg shows, if_neg hash, if_neg normalized, if_pos near]
          simp [shows, hash, normalized, near]
        · rw [refusal, if_neg shows, if_neg hash, if_neg normalized, if_neg near]
          have other : ∀ r : Option CompressionDropReason,
              r = none ∨ r = some .maxItemsExceeded ∨ r = some .maxItemsPerSource ∨
                r = some .maxTotalChars → r ≠ some .exactDuplicateRemoved ∧
                  r ≠ some .normalizedDuplicateRemoved ∧ r ≠ some .nearDuplicateRemoved := by
            rintro r (rfl | rfl | rfl | rfl) <;> exact ⟨by decide, by decide, by decide⟩
          have last := other (if policy.maxItems ≤ s.accepted.length then some .maxItemsExceeded
            else if policy.maxItemsPerSource ≤
              Counter.get s.itemsPerSource p.candidate.sourceGroupKey then some .maxItemsPerSource
            else if policy.maxTotalChars - s.outputChars = 0 then some .maxTotalChars
            else if evidenceText policy s p = "" then some .maxTotalChars
            else none) (by split_ifs <;> simp)
          simp [shows, hash, normalized, near, last]

/-- The tests of a turn, over the texts accepted before it. -/
theorem judged_before {candidates : List EvidenceCandidate} {done rest : List CompressionTurn}
    {p : CompressionCandidate} {verdict : Except CompressionDropReason Accepted}
    (turns : compressionTurns policy (candidates.map prepareCandidate) =
      done ++ (p, verdict) :: rest) :
    let fates := done.map fateOf
    p = prepareCandidate p.candidate ∧ verdict = judgeEvidence policy (taken done) p ∧
      (memory (taken done)).accepted = (keptOf fates).map (·.2) ∧
      (Sha256.hexDigest p.cleanText ∈ (memory (taken done)).seenHashes ↔
        HashedBefore fates p.candidate) ∧
      (p.normalizedText ∈ (memory (taken done)).seenNormalized ↔
        NormalizedBefore fates p.candidate) := by
  have here : (p, verdict) ∈ compressionTurns policy (candidates.map prepareCandidate) := by
    rw [turns]
    exact List.mem_append_right _ List.mem_cons_self
  have prepared : p = prepareCandidate p.candidate := turns_prepared here
  have own : ∀ q a, (q, .ok a) ∈ done → a.1 = q := by
    intro q a member
    have inside : (q, .ok a) ∈ compressionTurns policy (candidates.map prepareCandidate) := by
      rw [turns]
      exact List.mem_append_left _ member
    exact turns_accepted inside
  have each : ∀ a ∈ taken done, a.1 = prepareCandidate a.1.candidate := by
    intro a member
    have there : a ∈ taken (compressionTurns policy (candidates.map prepareCandidate)) := by
      rw [turns, taken_append]
      exact List.mem_append_left _ member
    exact (taken_excerpt there).2
  have kept := kept_fates own
  obtain ⟨accepted, hashes, _⟩ := memory_fields (taken done)
  have normalized : (memory (taken done)).seenNormalized =
      ((taken done).map (·.1.normalizedText)).reverse := by
    unfold memory stateOf
    rw [taken_ok]
  refine ⟨prepared, sift_judged turns, ?_, ?_, ?_⟩
  · rw [accepted, kept, List.map_map]
    rfl
  · rw [hashes, List.mem_reverse, List.mem_map]
    unfold HashedBefore
    rw [kept]
    constructor
    · rintro ⟨a, member, same⟩
      refine ⟨_, List.mem_map_of_mem member, ?_⟩
      rw [each a member, prepared] at same
      exact same
    · rintro ⟨_, member, same⟩
      obtain ⟨a, inside, rfl⟩ := List.mem_map.mp member
      refine ⟨a, inside, ?_⟩
      rw [each a inside, prepared]
      exact same
  · rw [normalized, List.mem_reverse, List.mem_map]
    unfold NormalizedBefore
    rw [kept]
    constructor
    · rintro ⟨a, member, same⟩
      refine ⟨_, List.mem_map_of_mem member, ?_⟩
      rw [each a member, prepared] at same
      exact same
    · rintro ⟨_, member, same⟩
      obtain ⟨a, inside, rfl⟩ := List.mem_map.mp member
      refine ⟨a, inside, ?_⟩
      rw [each a inside, prepared]
      exact same

theorem judgeEvidence_error {before : List Accepted} {p : CompressionCandidate}
    {reason : CompressionDropReason} :
    judgeEvidence policy before p = .error reason ↔
      refusal policy (memory before) p = some reason := by
  unfold judgeEvidence
  cases refusal policy (memory before) p with
  | none => simp
  | some r => simp

/-- When a candidate is dropped as a duplicate, in terms of the texts accepted before it. -/
theorem fate_duplicate {candidates : List EvidenceCandidate} {done rest : List Fate}
    {c : EvidenceCandidate} {verdict : Except CompressionDropReason EvidenceItem}
    (split : packFates policy candidates = done ++ (c, verdict) :: rest) :
    (verdict = .error .exactDuplicateRemoved ↔ textOf c ≠ "" ∧ HashedBefore done c) ∧
    (verdict = .error .normalizedDuplicateRemoved ↔
      textOf c ≠ "" ∧ ¬HashedBefore done c ∧ NormalizedBefore done c) ∧
    (verdict = .error .nearDuplicateRemoved ↔
      textOf c ≠ "" ∧ ¬HashedBefore done c ∧ ¬NormalizedBefore done c ∧
        nearDuplicate (prepareCandidate c) ((keptOf done).map (·.2))
          policy.nearDuplicateThreshold) := by
  obtain ⟨before, ⟨p, judged⟩, later, turns, rfl, here, rfl⟩ := fates_split split
  obtain ⟨prepared, rfl, accepted, hashes, normalized⟩ := judged_before turns
  obtain ⟨exact, folded, near⟩ := refusal_duplicate policy
    (s := memory (taken before)) (p := p)
  obtain ⟨rfl, rfl⟩ := Prod.mk.inj here
  have refused (reason : CompressionDropReason) :
      (fateOf (p, judgeEvidence policy (taken before) p)).2 = .error reason ↔
          refusal policy (memory (taken before)) p = some reason := by
    rw [← judgeEvidence_error]
    cases judgeEvidence policy (taken before) p with
    | ok a => simp [fateOf]
    | error r => simp [fateOf]
  have text : p.cleanText = textOf p.candidate := by
    rw [prepared]
    rfl
  rw [hashes, text] at exact
  rw [hashes, normalized, text] at folded
  rw [hashes, normalized, text, accepted] at near
  refine ⟨(refused _).trans exact, (refused _).trans folded, ?_⟩
  rw [← prepared]
  exact (refused _).trans near

/-- The evidence that is dropped as a duplicate has the words of accepted evidence if and only if
the hashes and the tokens tell the texts apart. -/
theorem only_alike_dropped (candidates : List EvidenceCandidate) :
    OnlyAlikeDropped policy (packFates policy candidates) ↔
      WordsTold policy (packFates policy candidates) := by
  constructor
  · intro alike done c verdict rest split shows
    obtain ⟨exact, _, near⟩ := fate_duplicate split
    constructor
    · intro hashed
      rw [exact.mpr ⟨shows, hashed⟩] at split
      exact alike done c _ rest split
    · intro unhashed fresh similar
      rw [near.mpr ⟨shows, unhashed, fresh, similar⟩] at split
      exact alike done c _ rest split
  · intro told done c reason rest split
    obtain ⟨exact, folded, near⟩ := fate_duplicate split
    cases reason with
    | exactDuplicateRemoved =>
      obtain ⟨shows, hashed⟩ := exact.mp rfl
      exact (told done c _ rest split shows).hash hashed
    | normalizedDuplicateRemoved =>
      obtain ⟨_, _, a, member, same⟩ := folded.mp rfl
      exact ⟨a, member, .inl (normalized_words same).symm⟩
    | nearDuplicateRemoved =>
      obtain ⟨shows, unhashed, fresh, similar⟩ := near.mp rfl
      exact (told done c _ rest split shows).tokens unhashed fresh similar
    | _ => exact trivial

end Duplicates

end RagProject.Context
