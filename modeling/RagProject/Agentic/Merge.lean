import Mathlib.Data.Prod.Lex
import Mathlib.Data.String.Basic
import RagProject.Documents.Store
import RagProject.Lib.Leaders
import RagProject.Lib.Number
import RagProject.Lib.Table

/-! The candidates of several retrieval attempts as one list (rag/agentic.py). Scores are finite. -/
namespace RagProject.Agentic
open Python Documents

inductive RetrievalStrategy where
  | dense | sparse | hybrid | graph | multiQueryDense | multiQueryHybrid | metadataFiltered
  | versionAware | agenticRouter | llmToolOrchestrator | langchainAgentic | langgraphAgentic
  | fallbackDense
  deriving DecidableEq, Repr

def RetrievalStrategy.value : RetrievalStrategy → String
  | .dense => "dense"
  | .sparse => "sparse"
  | .hybrid => "hybrid"
  | .graph => "graph"
  | .multiQueryDense => "multi_query_dense"
  | .multiQueryHybrid => "multi_query_hybrid"
  | .metadataFiltered => "metadata_filtered"
  | .versionAware => "version_aware"
  | .agenticRouter => "agentic_router"
  | .llmToolOrchestrator => "llm_tool_orchestrator"
  | .langchainAgentic => "langchain_agentic"
  | .langgraphAgentic => "langgraph_agentic"
  | .fallbackDense => "fallback_dense"

structure CheckedRetrievalCandidate where
  chunk : DocumentChunk
  documentVersion : DocumentVersion
  logicalDocument : LogicalDocument
  retrievalScore : Rat
  rankOrder : Nat
  payload : Dict
  deriving DecidableEq, Repr

/-- References to candidates, which `is` compares, with the candidate behind each of them. -/
class Objects (Ref : Type) where
  candidate : Ref → CheckedRetrievalCandidate

structure RetrievalAttemptResult (Ref : Type) where
  strategy : RetrievalStrategy
  candidates : List Ref
  qdrantCandidateCount : Nat
  sparseCandidateCount : Option Nat
  hybridCandidateCount : Option Nat
  excludedByRdbCheckCount : Nat
  role : String
  deriving Repr

def executionFamily (strategy : RetrievalStrategy) : String :=
  if strategy = .dense ∨ strategy = .fallbackDense then RetrievalStrategy.dense.value
  else strategy.value

def itemSourceForStrategy (strategy : RetrievalStrategy) : String :=
  if strategy = .fallbackDense then RetrievalStrategy.fallbackDense.value else strategy.value

section Payloads

def optionalFloat : Value → Option Rat
  | .int n => some n
  | .float q => some q
  | _ => none

def maxNumeric (left right : Value) : Value :=
  match optionalFloat left, optionalFloat right with
  | none, _ => right
  | _, none => left
  | some l, some r => .float (max l r)

def scoreKeys : List String := ["dense_score", "sparse_score", "fused_score"]

/-- One turn of the loop over the entries of the right payload. -/
def mergeEntry (merged : Dict) (entry : String × Value) : Dict :=
  if entry.1 ∈ scoreKeys then
    merged.set entry.1 (maxNumeric ((merged.get entry.1).getD .none) entry.2)
  else if (merged.get entry.1).getD .none = .none then merged.set entry.1 entry.2
  else merged

def mergePayloads (left right : Dict) : Dict := right.foldl mergeEntry left

/-- A value that is there is not replaced, unless it is a score. -/
theorem get_mergePayloads {left : Dict} {key : String} {value : Value} (right : Dict)
    (plain : key ∉ scoreKeys) (shows : value ≠ .none) (there : left.get key = some value) :
    (mergePayloads left right).get key = some value := by
  unfold mergePayloads
  induction right generalizing left with
  | nil => exact there
  | cons entry right ih =>
    apply ih
    unfold mergeEntry
    by_cases same : key = entry.1
    · rw [← same, if_neg plain, there, Option.getD_some, if_neg shows]
      exact there
    · split
      · rw [get_set_ne _ _ same]
        exact there
      · split
        · rw [get_set_ne _ _ same]
          exact there
        · exact there

end Payloads

section Merge
variable {Ref : Type} [DecidableEq Ref] [Objects Ref]

def chunkId (r : Ref) : Nat := (Objects.candidate r).chunk.documentChunkId

def retrievalScore (r : Ref) : Rat := (Objects.candidate r).retrievalScore

/-- The entry of by_chunk_id for a chunk. -/
structure Entry (Ref : Type) where
  documentChunkId : Nat
  candidate : Ref
  payload : Dict
  sources : List String

def preferCandidate (left right : Ref) : Ref :=
  if retrievalScore left < retrievalScore right then right
  else if retrievalScore right = retrievalScore left then
    if chunkId right < chunkId left then right else left
  else left

/-- sources.add(source_name). -/
def addSource (sources : List String) (source : String) : List String :=
  if source ∈ sources then sources else sources ++ [source]

def withFallback (attempt : RetrievalAttemptResult Ref) (payload : Dict) : Dict :=
  if attempt.role = "fallback" then
    payload.set "agentic_fallback_strategy" (.str attempt.strategy.value)
  else payload

def withPrimary (attempt : RetrievalAttemptResult Ref) (payload : Dict) : Dict :=
  payload.set "agentic_primary_source" (.str (itemSourceForStrategy attempt.strategy))

def firstEntry (initial : RetrievalStrategy) (attempt : RetrievalAttemptResult Ref)
    (candidate : Ref) : Entry Ref :=
  let sourceName := attempt.role ++ "_" ++ attempt.strategy.value
  let payload := withPrimary attempt (Objects.candidate candidate).payload
  let payload := payload.set "agentic_sources" (.list [.str sourceName])
  let payload := payload.set "agentic_initial_strategy" (.str initial.value)
  ⟨chunkId candidate, candidate, withFallback attempt payload, [sourceName]⟩

def mergedEntry (existing : Entry Ref) (attempt : RetrievalAttemptResult Ref) (candidate : Ref) :
    Entry Ref :=
  let sourceName := attempt.role ++ "_" ++ attempt.strategy.value
  let sources := addSource existing.sources sourceName
  let merged := mergePayloads existing.payload (Objects.candidate candidate).payload
  let merged := merged.set "agentic_sources"
    (.list ((sources.insertionSort (· ≤ ·)).map Value.str))
  let merged := withFallback attempt merged
  let primary := preferCandidate existing.candidate candidate
  let merged := if primary = candidate then withPrimary attempt merged else merged
  ⟨existing.documentChunkId, primary, merged, sources⟩

/-- One turn of the inner loop. -/
def mergeCandidate (initial : RetrievalStrategy) (byChunkId : List (Entry Ref))
    (turn : RetrievalAttemptResult Ref × Ref) : List (Entry Ref) :=
  let (attempt, candidate) := turn
  Table.mergeRow Entry.documentChunkId byChunkId
    (match Table.row Entry.documentChunkId byChunkId (chunkId candidate) with
    | none => firstEntry initial attempt candidate
    | some existing => mergedEntry existing attempt candidate)

/-- The turns of the two loops. -/
def turns (attempts : List (RetrievalAttemptResult Ref)) : List (RetrievalAttemptResult Ref × Ref) :=
  attempts.flatMap fun attempt => attempt.candidates.map fun candidate => (attempt, candidate)

/-- The sort key. -/
def rankKey (candidate : Ref) : Rat ×ₗ Nat := toLex (-retrievalScore candidate, chunkId candidate)

def rankedCandidate (entry : Entry Ref × Nat) : CheckedRetrievalCandidate :=
  { Objects.candidate entry.1.candidate with
    rankOrder := entry.2
    payload := entry.1.payload }

def mergeDedupeCandidates (attempts : List (RetrievalAttemptResult Ref)) (limit : Nat) :
    List CheckedRetrievalCandidate :=
  match attempts with
  | [] => []
  | initial :: _ =>
    let byChunkId := (turns attempts).foldl (mergeCandidate initial.strategy) []
    let ranked := Ranking.ranked (fun entry : Entry Ref => rankKey entry.candidate) byChunkId limit
    (ranked.zipIdx 1).map rankedCandidate

end Merge

section Best
variable {Ref : Type} [DecidableEq Ref] [Objects Ref]

omit [DecidableEq Ref] [Objects Ref] in
theorem get_withFallback (attempt : RetrievalAttemptResult Ref) {payload : Dict} {value : Value}
    (there : payload.get "agentic_primary_source" = some value) :
    (withFallback attempt payload).get "agentic_primary_source" = some value := by
  unfold withFallback
  split
  · rw [get_set_ne _ _ (by decide)]
    exact there
  · exact there

omit [DecidableEq Ref] in
theorem firstEntry_primary (initial : RetrievalStrategy) (attempt : RetrievalAttemptResult Ref)
    (r : Ref) : (firstEntry initial attempt r).payload.get "agentic_primary_source" =
      some (.str (itemSourceForStrategy attempt.strategy)) := by
  apply get_withFallback
  rw [get_set_ne _ _ (by decide), get_set_ne _ _ (by decide)]
  exact get_set_self _ _ _

omit [DecidableEq Ref] in
/-- Of two candidates for a chunk the better one is preferred, the earlier one when they tie. -/
theorem prefer_cases {left right : Ref} (same : chunkId left = chunkId right) :
    (retrievalScore left < retrievalScore right ∧ preferCandidate left right = right) ∨
    (retrievalScore right ≤ retrievalScore left ∧ preferCandidate left right = left) := by
  unfold preferCandidate
  by_cases worse : retrievalScore left < retrievalScore right
  · rw [if_pos worse]
    exact .inl ⟨worse, rfl⟩
  · rw [if_neg worse]
    refine .inr ⟨not_lt.mp worse, ?_⟩
    split
    · rw [if_neg (by omega)]
    · rfl

theorem mergedEntry_primary {existing : Entry Ref} (attempt : RetrievalAttemptResult Ref)
    (r : Ref) {source : String}
    (there : existing.payload.get "agentic_primary_source" = some (.str source)) :
    (mergedEntry existing attempt r).payload.get "agentic_primary_source" =
      some (.str (if preferCandidate existing.candidate r = r then
        itemSourceForStrategy attempt.strategy else source)) := by
  unfold mergedEntry
  dsimp only
  split
  · exact get_set_self _ _ _
  · apply get_withFallback
    rw [get_set_ne _ _ (by decide)]
    exact get_mergePayloads _ (by decide) (by simp) there

/-- What the table holds of one chunk. -/
structure BestEntry (seen : List (RetrievalAttemptResult Ref × Ref)) (e : Entry Ref) : Prop where
  chunk : e.documentChunkId = chunkId e.candidate
  present : e.candidate ∈ seen.map Prod.snd
  leads : Leaders.Leads chunkId retrievalScore (seen.map Prod.snd) e.candidate
  primary : ∃ turn ∈ seen, chunkId turn.2 = e.documentChunkId ∧
    retrievalScore turn.2 = retrievalScore e.candidate ∧
    e.payload.get "agentic_primary_source" =
      some (.str (itemSourceForStrategy turn.1.strategy))

/-- What the table holds of the turns so far: for each chunk a candidate with its highest score,
and the source of an attempt that reached it. -/
structure Best (seen : List (RetrievalAttemptResult Ref × Ref)) (table : List (Entry Ref)) : Prop where
  distinct : (table.map Entry.documentChunkId).Nodup
  each : ∀ e ∈ table, BestEntry seen e
  covers : ∀ r ∈ seen.map Prod.snd, ∃ e ∈ table, e.documentChunkId = chunkId r

omit [DecidableEq Ref] in
/-- A turn for another chunk leaves an entry as good as it was. -/
theorem BestEntry.other {seen : List (RetrievalAttemptResult Ref × Ref)} {e : Entry Ref}
    (best : BestEntry seen e) {turn : RetrievalAttemptResult Ref × Ref}
    (other : e.documentChunkId ≠ chunkId turn.2) : BestEntry (seen ++ [turn]) e := by
  obtain ⟨chunk, present, leads, first, member, same⟩ := best
  refine ⟨chunk, ?_, ?_, first, List.mem_append_left _ member, same⟩
  · rw [List.map_append]
    exact List.mem_append_left _ present
  · intro r there sameChunk
    rw [List.map_append] at there
    rcases List.mem_append.mp there with old | last
    · exact leads r old sameChunk
    · rw [List.map_singleton, List.mem_singleton] at last
      rw [last] at sameChunk
      exact absurd (chunk.trans sameChunk.symm) other

omit [DecidableEq Ref] in
theorem best_put {seen : List (RetrievalAttemptResult Ref × Ref)} {table : List (Entry Ref)}
    (best : Best seen table) {turn : RetrievalAttemptResult Ref × Ref} {e : Entry Ref}
    (chunk : e.documentChunkId = chunkId turn.2) (entry : BestEntry (seen ++ [turn]) e) :
    Best (seen ++ [turn]) (Table.mergeRow Entry.documentChunkId table e) := by
  refine ⟨Table.mergeRow_distinct best.distinct, fun f member => ?_, fun r member => ?_⟩
  · rcases Table.mem_mergeRow.mp member with rfl | ⟨old, other⟩
    · exact entry
    · exact (best.each f old).other (chunk ▸ other)
  · by_cases same : chunkId r = e.documentChunkId
    · exact ⟨e, Table.mem_mergeRow.mpr (.inl rfl), same.symm⟩
    · rw [List.map_append] at member
      rcases List.mem_append.mp member with old | last
      · obtain ⟨f, there, covers⟩ := best.covers r old
        exact ⟨f, Table.mem_mergeRow.mpr (.inr ⟨there, fun eq => same (covers.symm.trans eq)⟩), covers⟩
      · rw [List.map_singleton, List.mem_singleton] at last
        exact absurd (last ▸ chunk.symm) same

omit [DecidableEq Ref] in
theorem firstEntry_best {seen : List (RetrievalAttemptResult Ref × Ref)} (initial : RetrievalStrategy)
    (attempt : RetrievalAttemptResult Ref) {r : Ref}
    (fresh : ∀ s ∈ seen.map Prod.snd, chunkId s ≠ chunkId r) :
    BestEntry (seen ++ [(attempt, r)]) (firstEntry initial attempt r) := by
  refine ⟨rfl, by simp [firstEntry], ?_, (attempt, r), by simp, rfl, rfl,
    firstEntry_primary initial attempt r⟩
  intro s there sameChunk
  rw [List.map_append] at there
  rcases List.mem_append.mp there with old | last
  · exact absurd sameChunk (fresh s old)
  · rw [List.map_singleton, List.mem_singleton] at last
    exact le_of_eq (congrArg retrievalScore last)

theorem mergedEntry_best {seen : List (RetrievalAttemptResult Ref × Ref)} {e : Entry Ref}
    (best : BestEntry seen e) (attempt : RetrievalAttemptResult Ref) {r : Ref}
    (same : e.documentChunkId = chunkId r) :
    BestEntry (seen ++ [(attempt, r)]) (mergedEntry e attempt r) := by
  obtain ⟨chunk, present, leads, turn, member, turnChunk, turnScore, source⟩ := best
  have payload := mergedEntry_primary attempt r source
  have picked : (mergedEntry e attempt r).candidate = preferCandidate e.candidate r := rfl
  have inside : ∀ s ∈ (seen ++ [(attempt, r)]).map Prod.snd, s ∈ seen.map Prod.snd ∨ s = r := by
    intro s there
    simpa using there
  rcases prefer_cases (chunk.symm.trans same) with ⟨worse, right⟩ | ⟨least, left⟩
  · rw [right] at picked
    rw [right, if_pos rfl] at payload
    refine ⟨same.trans (congrArg chunkId picked.symm), by simp [picked], ?_, (attempt, r), by simp,
      same.symm, congrArg retrievalScore picked.symm, payload⟩
    rw [picked]
    intro s there sameChunk
    rcases inside s there with old | rfl
    · exact le_trans (leads s old (sameChunk.trans (same.symm.trans chunk))) (le_of_lt worse)
    · exact le_refl _
  · rw [left] at picked payload
    have kept : Leaders.Leads chunkId retrievalScore ((seen ++ [(attempt, r)]).map Prod.snd)
        e.candidate := by
      intro s there sameChunk
      rcases inside s there with old | rfl
      · exact leads s old sameChunk
      · exact least
    refine ⟨chunk.trans (congrArg chunkId picked.symm), ?_, picked ▸ kept, ?_⟩
    · rw [picked, List.map_append]
      exact List.mem_append_left _ present
    · rw [picked, payload]
      by_cases identical : e.candidate = r
      · exact ⟨(attempt, r), by simp, same.symm, congrArg retrievalScore identical.symm,
          by rw [if_pos identical]⟩
      · exact ⟨turn, List.mem_append_left _ member, turnChunk, turnScore,
          by rw [if_neg identical]⟩

theorem best_step {seen : List (RetrievalAttemptResult Ref × Ref)} {table : List (Entry Ref)}
    (best : Best seen table) (initial : RetrievalStrategy)
    (turn : RetrievalAttemptResult Ref × Ref) :
    Best (seen ++ [turn]) (mergeCandidate initial table turn) := by
  obtain ⟨attempt, r⟩ := turn
  unfold mergeCandidate
  dsimp only
  cases found : Table.row Entry.documentChunkId table (chunkId r) with
  | none =>
    apply best_put best rfl
    apply firstEntry_best
    intro s member same
    obtain ⟨e, there, covers⟩ := best.covers s member
    have shows : (Table.row Entry.documentChunkId table (chunkId r)).isSome :=
      Table.row_isSome there (covers.trans same)
    rw [found] at shows
    cases shows
  | some existing =>
    obtain ⟨there, same⟩ := Table.mem_of_row found
    exact best_put best same (mergedEntry_best (best.each existing there) attempt same)

theorem best_run (initial : RetrievalStrategy) (rest : List (RetrievalAttemptResult Ref × Ref))
    {seen : List (RetrievalAttemptResult Ref × Ref)} {table : List (Entry Ref)}
    (best : Best seen table) : Best (seen ++ rest) (rest.foldl (mergeCandidate initial) table) := by
  induction rest generalizing seen table with
  | nil =>
    rw [List.append_nil]
    exact best
  | cons turn rest ih =>
    have next := ih (best_step best initial turn)
    rw [List.append_assoc] at next
    exact next

/-- Everything that the attempts found. -/
def found (attempts : List (RetrievalAttemptResult Ref)) : List Ref :=
  attempts.flatMap RetrievalAttemptResult.candidates

omit [DecidableEq Ref] [Objects Ref] in
theorem turns_found (attempts : List (RetrievalAttemptResult Ref)) :
    (turns attempts).map Prod.snd = found attempts := by
  unfold turns found
  rw [List.map_flatMap]
  apply List.flatMap_congr
  intro attempt _
  rw [List.map_map]
  exact List.map_id _

/-- What the sort key says of a candidate. -/
def CheckedRetrievalCandidate.place (c : CheckedRetrievalCandidate) : Rat ×ₗ Nat :=
  toLex (-c.retrievalScore, c.chunk.documentChunkId)

/-- The chunks with the highest scores over all attempts, best first, equal scores by chunk. -/
def topChunks (attempts : List (RetrievalAttemptResult Ref)) (limit : Nat) : List (Rat ×ₗ Nat) :=
  Leaders.top chunkId retrievalScore rankKey (found attempts) limit

/-- The list holds the best chunks of the attempts and nothing else. -/
structure Merged (attempts : List (RetrievalAttemptResult Ref)) (limit : Nat)
    (final : List CheckedRetrievalCandidate) : Prop where
  top : final.map (·.place) = topChunks attempts limit
  distinct : (final.map (·.chunk.documentChunkId)).Nodup
  ranks : final.map (·.rankOrder) = List.range' 1 final.length
  rows : ∀ c ∈ final, ∃ r ∈ found attempts, c.chunk = (Objects.candidate r).chunk ∧
    c.documentVersion = (Objects.candidate r).documentVersion ∧
    c.logicalDocument = (Objects.candidate r).logicalDocument ∧
    c.retrievalScore = retrievalScore r ∧
    Leaders.Leads chunkId retrievalScore (found attempts) r
  primary : ∀ c ∈ final, ∃ attempt ∈ attempts, ∃ r ∈ attempt.candidates,
    chunkId r = c.chunk.documentChunkId ∧ retrievalScore r = c.retrievalScore ∧
    c.payload.get "agentic_primary_source" = some (.str (itemSourceForStrategy attempt.strategy))

theorem best_table (attempts : List (RetrievalAttemptResult Ref)) (initial : RetrievalStrategy) :
    Best (turns attempts) ((turns attempts).foldl (mergeCandidate initial) []) := by
  have start : Best ([] : List (RetrievalAttemptResult Ref × Ref)) [] :=
    ⟨List.nodup_nil, (fun _ member => nomatch member), (fun _ member => nomatch member)⟩
  exact best_run initial (turns attempts) start

omit [DecidableEq Ref] in
theorem rankKey_exact (a b : Ref) : rankKey a = rankKey b ↔
    retrievalScore a = retrievalScore b ∧ chunkId a = chunkId b := by
  unfold rankKey
  rw [EmbeddingLike.apply_eq_iff_eq, Prod.mk.injEq, neg_inj]

theorem best_board (attempts : List (RetrievalAttemptResult Ref)) (initial : RetrievalStrategy) :
    Leaders.Board chunkId retrievalScore (found attempts)
      (((turns attempts).foldl (mergeCandidate initial) []).map Entry.candidate) := by
  obtain ⟨distinct, each, covers⟩ := best_table attempts initial
  rw [turns_found] at covers
  constructor
  · have ids : ((turns attempts).foldl (mergeCandidate initial) []).map
        (chunkId ∘ Entry.candidate) =
        ((turns attempts).foldl (mergeCandidate initial) []).map Entry.documentChunkId :=
      List.map_congr_left fun e member => (each e member).chunk.symm
    rw [List.map_map, ids]
    exact distinct
  · intro r member
    obtain ⟨e, there, rfl⟩ := List.mem_map.mp member
    exact turns_found attempts ▸ (each e there).present
  · intro r member
    obtain ⟨e, there, rfl⟩ := List.mem_map.mp member
    exact turns_found attempts ▸ (each e there).leads
  · intro r member
    obtain ⟨e, there, same⟩ := covers r member
    exact ⟨e.candidate, List.mem_map_of_mem there, (each e there).chunk.symm.trans same⟩

theorem merged_ranking (attempts : List (RetrievalAttemptResult Ref)) (initial : RetrievalStrategy)
    (limit : Nat) : Merged attempts limit
      (((Ranking.ranked (fun entry : Entry Ref => rankKey entry.candidate)
        ((turns attempts).foldl (mergeCandidate initial) []) limit).zipIdx 1).map
          rankedCandidate) := by
  have best := best_table attempts initial
  have board := best_board attempts initial
  generalize (turns attempts).foldl (mergeCandidate initial) [] = table at best board
  have shown : ∀ e ∈ Ranking.ranked (fun entry : Entry Ref => rankKey entry.candidate) table limit,
      e ∈ table := fun e member => Ranking.ranked_subset member
  have top : (Ranking.ranked (fun entry : Entry Ref => rankKey entry.candidate) table limit).map
      (fun entry => rankKey entry.candidate) = topChunks attempts limit := by
    have through := board.ranked_top rankKey_exact limit
    rw [← Ranking.ranked_map Entry.candidate, List.map_map] at through
    exact through
  have unique : ((Ranking.ranked (fun entry : Entry Ref => rankKey entry.candidate) table limit).map
      Entry.documentChunkId).Nodup := Ranking.ranked_nodup _ best.distinct
  generalize Ranking.ranked (fun entry : Entry Ref => rankKey entry.candidate) table limit = listed
    at shown top unique
  have entries : ∀ {B : Type} (f : Entry Ref → B), (listed.zipIdx 1).map (fun p => f p.1) =
      listed.map f := by
    intro B f
    have firsts := List.zipIdx_map_fst 1 listed
    calc (listed.zipIdx 1).map (fun p => f p.1) = ((listed.zipIdx 1).map Prod.fst).map f := by
          rw [List.map_map]
          rfl
      _ = listed.map f := by rw [firsts]
  have member_of : ∀ c ∈ (listed.zipIdx 1).map rankedCandidate, ∃ e ∈ table,
      ∃ index, c = rankedCandidate (e, index) := by
    intro c member
    obtain ⟨p, there, rfl⟩ := List.mem_map.mp member
    have inside : p.1 ∈ (listed.zipIdx 1).map Prod.fst := List.mem_map_of_mem there
    rw [List.zipIdx_map_fst] at inside
    exact ⟨p.1, shown p.1 inside, p.2, rfl⟩
  constructor
  · rw [List.map_map]
    exact (entries _).trans top
  · have ids : listed.map (fun e => chunkId e.candidate) = listed.map Entry.documentChunkId :=
      List.map_congr_left fun e member => (best.each e (shown e member)).chunk.symm
    rw [List.map_map]
    rw [← ids, ← entries] at unique
    exact unique
  · rw [List.map_map, List.length_map, List.length_zipIdx]
    exact List.zipIdx_map_snd 1 listed
  · intro c member
    obtain ⟨e, there, index, rfl⟩ := member_of c member
    have entry := best.each e there
    have inside := entry.present
    have leads := entry.leads
    rw [turns_found] at inside leads
    exact ⟨e.candidate, inside, rfl, rfl, rfl, rfl, leads⟩
  · intro c member
    obtain ⟨e, there, index, rfl⟩ := member_of c member
    have entry := best.each e there
    obtain ⟨turn, seen, chunk, score, source⟩ := entry.primary
    obtain ⟨attempt, listed, inside⟩ := List.mem_flatMap.mp seen
    obtain ⟨r, candidate, rfl⟩ := List.mem_map.mp inside
    exact ⟨attempt, listed, r, candidate, chunk.trans entry.chunk, score, source⟩

theorem merge_ok (attempts : List (RetrievalAttemptResult Ref)) (limit : Nat) :
    Merged attempts limit (mergeDedupeCandidates attempts limit) := by
  cases attempts with
  | nil =>
    have none := merged_ranking ([] : List (RetrievalAttemptResult Ref)) .dense limit
    simpa [turns, Ranking.ranked, mergeDedupeCandidates] using none
  | cons initial later => exact merged_ranking (initial :: later) initial.strategy limit

omit [DecidableEq Ref] in
/-- The order of the attempts does not matter for what is listed. -/
theorem topChunks_perm {attempts others : List (RetrievalAttemptResult Ref)}
    (same : others.Perm attempts) (limit : Nat) : topChunks others limit = topChunks attempts limit := by
  apply Leaders.top_congr
  intro r
  exact (List.Perm.flatMap_right _ same).mem_iff

end Best

end RagProject.Agentic
