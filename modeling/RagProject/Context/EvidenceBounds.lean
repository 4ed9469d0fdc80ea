import RagProject.Context.Evidence
import RagProject.Lib.Sieve

/-! What the compressor sends to the generator: within every limit, each candidate accounted for,
and which texts can still be equal. -/
namespace RagProject.Context
open Python Sieve

section Turns
variable [UnicodeTables] [CaseFold] [Rounding] (policy : EvidencePackPolicy)

/-- A prepared candidate that was accepted, with its item. -/
abbrev Accepted := CompressionCandidate × EvidenceItem

abbrev CompressionTurn := CompressionCandidate × Except CompressionDropReason Accepted

def reasonOf : Except CompressionDropReason Accepted → Option CompressionDropReason
  | .ok _ => none
  | .error r => some r

def reasons (turns : List CompressionTurn) : List CompressionDropReason :=
  turns.filterMap fun turn => reasonOf turn.2

def refs (turns : List CompressionTurn) : List DroppedEvidenceRef :=
  turns.filterMap fun turn => (reasonOf turn.2).map (droppedRef turn.1)

/-- The state of the loop after its turns. -/
def stateOf (turns : List CompressionTurn) : Compression where
  drops := refs turns
  dropCounts := Counter.counted (reasons turns)
  accepted := (taken turns).map (·.2)
  seenHashes := ((taken turns).map fun a => Sha256.hexDigest a.1.cleanText).reverse
  seenNormalized := ((taken turns).map (·.1.normalizedText)).reverse
  itemsPerSource := Counter.counted ((taken turns).map (·.1.candidate.sourceGroupKey))
  outputChars := ((taken turns).map (·.2.outputCharCount)).sum

/-- What the loop remembers of the accepted candidates. -/
def memory (before : List Accepted) : Compression :=
  { stateOf (before.map fun a => (a.1, .ok a)) with drops := [], dropCounts := [] }

/-- The item of the next candidate that is accepted. -/
def nextItem (before : List Accepted) (prepared : CompressionCandidate) : EvidenceItem :=
  let text := evidenceText policy (memory before) prepared
  itemOf (before.length + 1) prepared text (compressionMethod policy prepared text)
    (safeContextString 255 prepared.candidate.sourceGroupKey)

def judgeEvidence (before : List Accepted) (prepared : CompressionCandidate) :
    Except CompressionDropReason Accepted :=
  match refusal policy (memory before) prepared with
  | some reason => .error reason
  | none => .ok (prepared, nextItem policy before prepared)

omit [UnicodeTables] [CaseFold] [Rounding] in
theorem taken_ok (before : List Accepted) :
    taken (before.map fun a => (a.1, (.ok a : Except CompressionDropReason Accepted))) = before := by
  induction before with
  | nil => rfl
  | cons a before ih =>
    unfold taken at ih ⊢
    rw [List.map_cons, List.filterMap_cons, ih]
    rfl

/-- The tests of a turn read the memory only. -/
theorem refusal_memory (turns : List CompressionTurn) (prepared : CompressionCandidate) :
    refusal policy (stateOf turns) prepared = refusal policy (memory (taken turns)) prepared ∧
      evidenceText policy (stateOf turns) prepared =
        evidenceText policy (memory (taken turns)) prepared := by
  unfold refusal evidenceText memory stateOf
  simp only [taken_ok, and_self]

omit [CaseFold] [Rounding] in
theorem stateOf_append (turns : List CompressionTurn) (turn : CompressionTurn) :
    stateOf (turns ++ [turn]) =
      match turn.2 with
      | .error r => drop (stateOf turns) turn.1 r
      | .ok a =>
        { stateOf turns with
          accepted := (stateOf turns).accepted ++ [a.2]
          seenHashes := Sha256.hexDigest a.1.cleanText :: (stateOf turns).seenHashes
          seenNormalized := a.1.normalizedText :: (stateOf turns).seenNormalized
          itemsPerSource := Counter.add (stateOf turns).itemsPerSource a.1.candidate.sourceGroupKey
          outputChars := (stateOf turns).outputChars + a.2.outputCharCount } := by
  obtain ⟨prepared, verdict⟩ := turn
  cases verdict with
  | error r =>
    simp [stateOf, refs, reasons, reasonOf, taken, takenOf, drop, Counter.counted]
  | ok a =>
    simp [stateOf, refs, reasons, reasonOf, taken, takenOf, Counter.counted]

theorem compressCandidate_turn {turns : List CompressionTurn} {prepared : CompressionCandidate}
    {s : Compression} (done : compressCandidate policy (stateOf turns) prepared = .ok s) :
    s = stateOf (turns ++ [(prepared, judgeEvidence policy (taken turns) prepared)]) := by
  obtain ⟨tests, text⟩ := refusal_memory policy turns prepared
  have number : (stateOf turns).accepted.length = (taken turns).length := List.length_map _
  rw [stateOf_append]
  unfold compressCandidate at done
  unfold judgeEvidence
  rw [tests, text, number] at done
  cases refused : refusal policy (memory (taken turns)) prepared with
  | some r =>
    rw [refused] at done
    cases done
    rfl
  | none =>
    rw [refused] at done
    obtain ⟨item, built, done⟩ := Fallible.bind_ok done
    cases done
    have item_eq : item = nextItem policy (taken turns) prepared := by
      unfold evidenceItem at built
      split at built
      · cases built
      · split at built
        · cases built
        · next key shown =>
          cases built
          rw [← ((safeOrNone_some (by decide)).mp shown).2]
          rfl
    rw [item_eq]
    rfl

/-- The turns of a whole run. -/
def compressionTurns (candidates : List CompressionCandidate) : List CompressionTurn :=
  sift (judgeEvidence policy) [] candidates

theorem loop_turns (done : List CompressionTurn) {candidates : List CompressionCandidate}
    {s : Compression}
    (ran : candidates.foldlM (compressCandidate policy) (stateOf done) = .ok s) :
    s = stateOf (done ++ sift (judgeEvidence policy) (taken done) candidates) := by
  induction candidates generalizing done with
  | nil =>
    cases ran
    rw [sift, List.append_nil]
  | cons p candidates ih =>
    rw [List.foldlM_cons] at ran
    obtain ⟨next, first, rest⟩ := Fallible.bind_ok ran
    rw [compressCandidate_turn policy first] at rest
    rw [ih _ rest, sift_cons, List.append_assoc, taken_append]
    rfl

end Turns

section Bounds
variable [UnicodeTables] [CaseFold] [Rounding] (policy : EvidencePackPolicy)

/-- A candidate that no test refuses. -/
structure Passes (s : Compression) (prepared : CompressionCandidate) : Prop where
  text : prepared.cleanText ≠ ""
  hash : Sha256.hexDigest prepared.cleanText ∉ s.seenHashes
  few : s.accepted.length < policy.maxItems
  source : Counter.get s.itemsPerSource prepared.candidate.sourceGroupKey <
    policy.maxItemsPerSource
  shows : evidenceText policy s prepared ≠ ""

omit [UnicodeTables] in
theorem passes_of_refusal {s : Compression} {prepared : CompressionCandidate}
    (free : refusal policy s prepared = none) : Passes policy s prepared := by
  unfold refusal at free
  split at free
  · cases free
  · next text =>
    split at free
    · cases free
    · next hash =>
      split at free
      · cases free
      · split at free
        · cases free
        · split at free
          · cases free
          · next few =>
            split at free
            · cases free
            · next source =>
              split at free
              · cases free
              · split at free
                · cases free
                · next shows => exact ⟨text, hash, by omega, by omega, shows⟩

omit [UnicodeTables] [CaseFold] [Rounding] in
theorem evidenceText_length (s : Compression) (prepared : CompressionCandidate) :
    (evidenceText policy s prepared).length ≤ policy.maxCharsPerItem ∧
      s.outputChars + (evidenceText policy s prepared).length ≤
        max s.outputChars policy.maxTotalChars ∧
      (evidenceText policy s prepared).toList <+: prepared.cleanText.toList := by
  have text : (evidenceText policy s prepared).toList = prepared.cleanText.toList.take
      (min policy.maxCharsPerItem (policy.maxTotalChars - s.outputChars)) := String.toList_ofList
  rw [← String.length_toList, text, List.length_take]
  exact ⟨by omega, by omega, List.take_prefix _ _⟩

/-- An item as an excerpt of its candidate. -/
structure Excerpt (prepared : CompressionCandidate) (item : EvidenceItem) : Prop where
  runItem : item.retrievalRunItemId = prepared.candidate.retrievalRunItemId
  chunk : item.documentChunkId = prepared.candidate.documentChunkId
  citation : item.localCitationId = prepared.candidate.localCitationId
  shows : item.evidenceTextForGeneration ≠ ""
  short : item.evidenceTextForGeneration.length ≤ policy.maxCharsPerItem
  cut : item.evidenceTextForGeneration.toList <+: prepared.cleanText.toList
  hash : item.evidenceTextHash = Sha256.hexDigest item.evidenceTextForGeneration
  chars : item.outputCharCount = item.evidenceTextForGeneration.length
  original : item.originalCharCount = prepared.originalCharCount

/-- The accepted candidates keep the limits. -/
structure Within (before : List Accepted) : Prop where
  few : before.length ≤ policy.maxItems
  perSource : ∀ key, (before.filter fun a => a.1.candidate.sourceGroupKey = key).length ≤
    policy.maxItemsPerSource
  total : (before.map (·.2.outputCharCount)).sum ≤ policy.maxTotalChars
  each : ∀ a ∈ before, Excerpt policy a.1 a.2

omit [CaseFold] [Rounding] in
theorem memory_fields (before : List Accepted) :
    (memory before).accepted = before.map (·.2) ∧
      (memory before).seenHashes = (before.map fun a => Sha256.hexDigest a.1.cleanText).reverse ∧
      (∀ key, Counter.get (memory before).itemsPerSource key =
        (before.filter fun a => a.1.candidate.sourceGroupKey = key).length) ∧
      (memory before).outputChars = (before.map (·.2.outputCharCount)).sum := by
  unfold memory stateOf
  rw [taken_ok]
  refine ⟨rfl, rfl, fun key => ?_, rfl⟩
  rw [Counter.get_counted, List.count_eq_countP, List.countP_map, List.countP_eq_length_filter]
  rfl

theorem judge_accepted {before : List Accepted} {prepared : CompressionCandidate} {a : Accepted}
    (ok : judgeEvidence policy before prepared = .ok a) :
    refusal policy (memory before) prepared = none ∧ a = (prepared, nextItem policy before prepared) := by
  unfold judgeEvidence at ok
  split at ok
  · cases ok
  · next free =>
    cases ok
    exact ⟨free, rfl⟩

theorem judge_free {before : List Accepted} {prepared : CompressionCandidate}
    (free : refusal policy (memory before) prepared = none) :
    judgeEvidence policy before prepared = .ok (prepared, nextItem policy before prepared) := by
  unfold judgeEvidence
  rw [free]

omit [CaseFold] in
theorem nextItem_excerpt {before : List Accepted} {prepared : CompressionCandidate}
    (passes : Passes policy (memory before) prepared) :
    Excerpt policy prepared (nextItem policy before prepared) := by
  obtain ⟨short, _, cut⟩ := evidenceText_length policy (memory before) prepared
  exact ⟨rfl, rfl, rfl, passes.shows, short, cut, rfl, rfl, rfl⟩

theorem within_step (before : List Accepted) (prepared : CompressionCandidate) (a : Accepted)
    (within : Within policy before) (ok : judgeEvidence policy before prepared = .ok a) :
    Within policy (before ++ [a]) := by
  obtain ⟨free, rfl⟩ := judge_accepted policy ok
  have passes := passes_of_refusal policy free
  obtain ⟨accepted, _, sources, chars⟩ := memory_fields before
  have few := passes.few
  rw [accepted, List.length_map] at few
  refine ⟨?_, fun key => ?_, ?_, fun b member => ?_⟩
  · rw [List.length_append, List.length_singleton]
    exact few
  · rw [List.filter_append, List.length_append]
    by_cases mine : prepared.candidate.sourceGroupKey = key
    · have room := passes.source
      rw [sources, mine] at room
      simpa [mine] using Nat.succ_le_of_lt room
    · simpa [mine] using within.perSource key
  · have total := (evidenceText_length policy (memory before) prepared).2.1
    have bound := within.total
    rw [chars, Nat.max_eq_right bound] at total
    simpa [nextItem, itemOf] using total
  · rcases List.mem_append.mp member with old | new
    · exact within.each b old
    · cases List.mem_singleton.mp new
      exact nextItem_excerpt policy passes

theorem turns_within (candidates : List CompressionCandidate) :
    Within policy (taken (compressionTurns policy candidates)) := by
  have start : Within policy [] := ⟨Nat.zero_le _, by simp, Nat.zero_le _, by simp⟩
  exact taken_keeps (P := Within policy) (within_step policy) start candidates

end Bounds

section Theorem
variable [UnicodeTables] [CaseFold] [Rounding] (policy : EvidencePackPolicy)

/-- What became of a candidate. -/
abbrev Fate := EvidenceCandidate × Except CompressionDropReason EvidenceItem

def Fate.dropped (fate : Fate) : Option DroppedEvidenceRef :=
  match fate.2 with
  | .ok _ => none
  | .error reason => some (droppedRef (prepareCandidate fate.1) reason)

def fromSource (key : String) (fate : Fate) : Bool :=
  fate.1.sourceGroupKey = key && (takenOf fate.2).isSome

/-- Every candidate is an item or a dropped reference, in order and within the limits. -/
structure Packed (candidates : List EvidenceCandidate) (items : List EvidenceItem)
    (drops : List DroppedEvidenceRef) (dropCounts : List (CompressionDropReason × Nat))
    (fates : List Fate) : Prop where
  each : fates.map (·.1) = candidates
  accepted : items = taken fates
  dropped : drops = fates.filterMap Fate.dropped
  counts : ∀ r, Counter.get dropCounts r = (drops.filter fun ref => ref.dropReason = r).length
  excerpts : ∀ c item, (c, .ok item) ∈ fates → Excerpt policy (prepareCandidate c) item
  few : items.length ≤ policy.maxItems
  perSource : ∀ key, (fates.filter (fromSource key)).length ≤ policy.maxItemsPerSource
  total : (items.map (·.outputCharCount)).sum ≤ policy.maxTotalChars

/-- At every turn that accepts a candidate, where its text or the text of an item accepted before
has been cut, the two texts differ. -/
def CutsApart (candidates : List EvidenceCandidate) : Prop :=
  ∀ done prepared rest s, candidates.map prepareCandidate = done ++ prepared :: rest →
    done.foldlM (compressCandidate policy) .empty = .ok s → refusal policy s prepared = none →
      ∀ item ∈ s.accepted,
        (item.outputCharCount < item.originalCharCount ∨
          (evidenceText policy s prepared).length < prepared.originalCharCount) →
        item.evidenceTextForGeneration ≠ evidenceText policy s prepared

def fateOf (turn : CompressionTurn) : Fate :=
  (turn.1.candidate, match turn.2 with
    | .ok a => .ok a.2
    | .error r => .error r)

variable {policy}

theorem turns_prepared {candidates : List EvidenceCandidate} {turn : CompressionTurn}
    (member : turn ∈ compressionTurns policy (candidates.map prepareCandidate)) :
    turn.1 = prepareCandidate turn.1.candidate := by
  have inside := List.mem_map_of_mem (f := (·.1)) member
  rw [compressionTurns, sift_candidates] at inside
  obtain ⟨c, _, same⟩ := List.mem_map.mp inside
  rw [← same]
  rfl

/-- A turn that accepts keeps the candidate beside the item. -/
theorem turns_accepted {candidates : List CompressionCandidate} {p : CompressionCandidate}
    {a : Accepted} (member : (p, .ok a) ∈ compressionTurns policy candidates) : a.1 = p := by
  obtain ⟨done, rest, split⟩ := List.append_of_mem member
  have judged := sift_judged split
  obtain ⟨_, rfl⟩ := judge_accepted policy judged.symm
  rfl

omit [UnicodeTables] [CaseFold] [Rounding] in
theorem taken_fates (turns : List CompressionTurn) :
    taken (turns.map fateOf) = (taken turns).map (·.2) := by
  induction turns with
  | nil => rfl
  | cons turn turns ih =>
    obtain ⟨p, verdict⟩ := turn
    unfold taken at ih ⊢
    cases verdict with
    | ok a => simpa [fateOf, takenOf] using ih
    | error r => simpa [fateOf, takenOf] using ih

omit [UnicodeTables] [CaseFold] [Rounding] in
theorem fromSource_fates (key : String) {turns : List CompressionTurn}
    (own : ∀ p a, (p, .ok a) ∈ turns → a.1 = p) :
    ((turns.map fateOf).filter (fromSource key)).length =
      ((taken turns).filter fun a => a.1.candidate.sourceGroupKey = key).length := by
  induction turns with
  | nil => rfl
  | cons turn turns ih =>
    have rest := ih fun p a member => own p a (List.mem_cons_of_mem _ member)
    obtain ⟨p, verdict⟩ := turn
    unfold taken at rest ⊢
    cases verdict with
    | error r => simpa [fateOf, fromSource, takenOf] using rest
    | ok a =>
      have mine := own p a List.mem_cons_self
      by_cases same : p.candidate.sourceGroupKey = key
      · simpa [fateOf, fromSource, takenOf, mine, same] using rest
      · simpa [fateOf, fromSource, takenOf, mine, same] using rest

theorem compress_turns {candidates : List EvidenceCandidate} {items : List EvidenceItem}
    {drops : List DroppedEvidenceRef} {dropCounts : List (CompressionDropReason × Nat)}
    (done : compress policy candidates = .ok (items, drops, dropCounts)) :
    let turns := compressionTurns policy (candidates.map prepareCandidate)
    items = (taken turns).map (·.2) ∧ drops = refs turns ∧
      dropCounts = Counter.counted (reasons turns) := by
  unfold compress at done
  obtain ⟨s, ran, done⟩ := Fallible.bind_ok done
  cases done
  have shape := loop_turns policy [] ran
  rw [shape]
  exact ⟨rfl, rfl, rfl⟩

omit [CaseFold] [Rounding] in
theorem refs_reasons (turns : List CompressionTurn) :
    (refs turns).map (·.dropReason) = reasons turns := by
  unfold refs reasons
  rw [List.map_filterMap]
  apply List.filterMap_congr
  intro turn _
  cases reasonOf turn.2 <;> rfl

theorem packed {candidates : List EvidenceCandidate} {items : List EvidenceItem}
    {drops : List DroppedEvidenceRef} {dropCounts : List (CompressionDropReason × Nat)}
    (done : compress policy candidates = .ok (items, drops, dropCounts)) :
    Packed policy candidates items drops dropCounts
      ((compressionTurns policy (candidates.map prepareCandidate)).map fateOf) := by
  obtain ⟨rfl, rfl, rfl⟩ := compress_turns done
  have within := turns_within policy (candidates.map prepareCandidate)
  refine ⟨?_, (taken_fates _).symm, ?_, fun r => ?_, fun c item member => ?_, ?_, fun key => ?_, ?_⟩
  · rw [List.map_map]
    have names : (compressionTurns policy (candidates.map prepareCandidate)).map
        ((·.1) ∘ fateOf) = ((compressionTurns policy (candidates.map prepareCandidate)).map
          (·.1)).map (·.candidate) := by
      rw [List.map_map]
      rfl
    rw [names, compressionTurns, sift_candidates, List.map_map]
    exact List.map_id candidates
  · rw [List.filterMap_map]
    apply List.filterMap_congr
    intro turn member
    have prepared := turns_prepared member
    obtain ⟨p, verdict⟩ := turn
    cases verdict with
    | ok a => rfl
    | error r =>
      simp only [fateOf, Fate.dropped, Function.comp, reasonOf, Option.map_some]
      rw [← prepared]
  · rw [Counter.get_counted, ← refs_reasons, List.count_eq_countP, List.countP_map,
      List.countP_eq_length_filter]
    rfl
  · obtain ⟨turn, inside, same⟩ := List.mem_map.mp member
    have prepared := turns_prepared inside
    obtain ⟨p, verdict⟩ := turn
    cases verdict with
    | error r => cases same
    | ok a =>
      cases same
      have mine := turns_accepted inside
      have excerpt := within.each a (List.mem_filterMap.mpr ⟨_, inside, rfl⟩)
      rw [mine] at excerpt
      exact prepared ▸ excerpt
  · rw [List.length_map]
    exact within.few
  · have same : (((compressionTurns policy (candidates.map prepareCandidate)).map fateOf).filter
        (fromSource key)).length = ((taken (compressionTurns policy
          (candidates.map prepareCandidate))).filter
            fun a => a.1.candidate.sourceGroupKey = key).length :=
      fromSource_fates key fun p a member => turns_accepted member
    rw [same]
    exact within.perSource key
  · rw [List.map_map]
    exact within.total

/-- A run that returned has passed through the state of its first candidates. -/
theorem loop_first {candidates : List EvidenceCandidate} {items : List EvidenceItem}
    {drops : List DroppedEvidenceRef} {dropCounts : List (CompressionDropReason × Nat)}
    {before rest : List CompressionCandidate}
    (done : compress policy candidates = .ok (items, drops, dropCounts))
    (split : candidates.map prepareCandidate = before ++ rest) :
    before.foldlM (compressCandidate policy) .empty =
      .ok (stateOf (sift (judgeEvidence policy) [] before)) := by
  unfold compress at done
  obtain ⟨s, ran, _⟩ := Fallible.bind_ok done
  rw [split, List.foldlM_append] at ran
  obtain ⟨mid, first, _⟩ := Fallible.bind_ok ran
  have shape := loop_turns policy [] first
  rw [first, shape]
  rfl

omit [UnicodeTables] [Rounding] in
/-- A text that was not cut is the whole text of its candidate. -/
theorem Excerpt.whole {c : EvidenceCandidate} {item : EvidenceItem}
    (excerpt : Excerpt policy (prepareCandidate c) item)
    (uncut : ¬item.outputCharCount < item.originalCharCount) :
    item.evidenceTextForGeneration = (prepareCandidate c).cleanText := by
  have long : (prepareCandidate c).cleanText.length ≤ item.evidenceTextForGeneration.length := by
    rw [← excerpt.chars]
    have original : item.originalCharCount = (prepareCandidate c).cleanText.length :=
      excerpt.original
    omega
  rw [← String.toList_inj]
  apply excerpt.cut.eq_of_length_le
  rw [String.length_toList, String.length_toList]
  exact long

omit [UnicodeTables] [CaseFold] [Rounding] in
theorem evidenceText_whole (s : Compression) {p : CompressionCandidate}
    (uncut : ¬(evidenceText policy s p).length < p.cleanText.length) :
    evidenceText policy s p = p.cleanText := by
  rw [← String.toList_inj]
  apply (evidenceText_length policy s p).2.2.eq_of_length_le
  rw [String.length_toList, String.length_toList]
  exact Nat.le_of_not_lt uncut

theorem taken_excerpt {candidates : List EvidenceCandidate} {c : Accepted}
    (member : c ∈ taken (compressionTurns policy (candidates.map prepareCandidate))) :
    Excerpt policy (prepareCandidate c.1.candidate) c.2 ∧
      c.1 = prepareCandidate c.1.candidate := by
  have excerpt := (turns_within policy _).each c member
  obtain ⟨⟨p, verdict⟩, inside, took⟩ := List.mem_filterMap.mp member
  cases verdict with
  | error r => cases took
  | ok a =>
    cases took
    have prepared := turns_prepared inside
    have mine := turns_accepted inside
    have own : c.1 = prepareCandidate c.1.candidate := by
      rw [mine]
      exact prepared
    exact ⟨own ▸ excerpt, own⟩

end Theorem

section Runs

def plainEvidence (documentChunkId : Nat) (text : String) : EvidenceCandidate :=
  ⟨documentChunkId, documentChunkId, documentChunkId, some text, none, none, none, none, none, none,
    none, none, "logical_document:1", true, none, none, none⟩

/-- The smallest limit for one item. -/
def shortExcerpts : EvidencePackPolicy := ⟨true, 12, 4, 20, 12000, 17 / 20, true⟩

theorem shortExcerpts_valid : shortExcerpts.Valid :=
  ⟨by decide, by decide, by decide, by decide, by decide +kernel⟩

end Runs

end RagProject.Context
