import RagProject.Documents.ComparePartition
import RagProject.Ingest.ChunkCover
import RagProject.Ingest.Transactions

/-! Whether a comparison recognises a text that stands at the same place of both versions. -/
namespace RagProject.Documents
open Python Jobs Ingest

section Model

def listAllChunks (documentVersionId : Nat) (db : Db) : List DocumentChunk :=
  (db.chunksOf documentVersionId).insertionSort fun a b =>
    a.chunkIndex < b.chunkIndex ∨
      (a.chunkIndex = b.chunkIndex ∧ a.documentChunkId ≤ b.documentChunkId)

variable [SourceText] {S : Type} [LinearOrder S] (similarity : DocumentChunk → DocumentChunk → S)
  (threshold : S)

/-- The part of compare_versions about chunks; none for ResourceNotFound. -/
def compareVersions (scores : Scores S) (maxItems : Nat)
    (logicalDocumentId baseVersionId targetVersionId : Nat) (db : Db) :
    Option (List (DocumentChunkDiffItem S) × DiffCounts × Bool) :=
  match db.getDocument logicalDocumentId, db.getVersion logicalDocumentId baseVersionId,
      db.getVersion logicalDocumentId targetVersionId with
  | some _, some base, some target =>
    some (chunkDiff similarity threshold scores maxItems
      (listAllChunks base.documentVersionId db) (listAllChunks target.documentVersionId db))
  | _, _, _ => none

end Model

section Hashes

/-- The rows of a version are chunks that FixedTokenChunker has made. -/
def ChunkedBy (documentVersionId : Nat) (rows : List DocumentChunk) : Prop :=
  ∃ config pages chunks, Ingest.chunk config documentVersionId pages = .ok chunks ∧
    List.Forall₂ (fun row c => ∃ now id, row = chunkRow now id c) rows chunks

/-- The text that the hash of a chunk is taken of. -/
def hashedText (row : DocumentChunk) : String :=
  normalizeChunkText row.contentText ++ toString row.documentVersionId ++ toString row.chunkIndex

theorem chunk_hashed {config : ChunkingConfig} {documentVersionId : Nat}
    {pages : List ExtractedPage} {chunks : List Chunk}
    (done : Ingest.chunk config documentVersionId pages = .ok chunks) :
    ∀ c ∈ chunks, c.documentVersionId = documentVersionId ∧
      c.chunkHash = chunkHash (normalizeChunkText c.contentText) documentVersionId c.chunkIndex := by
  intro c member
  have some_token : documentTokens pages ≠ [] := by
    intro none
    unfold Ingest.chunk at done
    rw [if_pos none] at done
    cases done
  rw [chunk_eq config documentVersionId some_token] at done
  cases done
  obtain ⟨i, w, _, rfl⟩ := List.mem_mapIdx.mp member
  exact ⟨rfl, rfl⟩

theorem row_hashed {documentVersionId : Nat} {rows : List DocumentChunk}
    (chunked : ChunkedBy documentVersionId rows) : ∀ row ∈ rows,
      row.documentVersionId = documentVersionId ∧
      row.chunkHash = Sha256.hexDigest (hashedText row) := by
  obtain ⟨config, pages, chunks, done, stored⟩ := chunked
  have each := chunk_hashed done
  clear done
  induction stored with
  | nil => simp
  | @cons row c rows chunks stored _ ih =>
    intro r member
    rcases List.mem_cons.mp member with rfl | later
    · obtain ⟨now, id, rfl⟩ := stored
      obtain ⟨version, hash⟩ := each c List.mem_cons_self
      refine ⟨version, ?_⟩
      have same : c.documentVersionId = documentVersionId := version
      rw [← same] at hash
      exact hash
    · exact ih (fun d inside => each d (List.mem_cons_of_mem _ inside)) r later

/-- Equal texts at one place of two versions are hashed with different version ids. -/
theorem hashedText_apart {b t : DocumentChunk}
    (text : normalizeChunkText b.contentText = normalizeChunkText t.contentText)
    (index : b.chunkIndex = t.chunkIndex) (apart : b.documentVersionId ≠ t.documentVersionId) :
    hashedText b ≠ hashedText t := by
  intro same
  unfold hashedText at same
  rw [text, index, String.append_left_inj, String.append_right_inj] at same
  exact apart (toString_injective same)

end Hashes

section Theorem
variable [SourceText] {S : Type} [LinearOrder S] (similarity : DocumentChunk → DocumentChunk → S)
  (threshold : S)

/-- Two chunks with one text at one place. -/
structure SameText (b t : DocumentChunk) : Prop where
  text : normalizeChunkText b.contentText = normalizeChunkText t.contentText
  index : b.chunkIndex = t.chunkIndex

instance (b t : DocumentChunk) : Decidable (SameText b t) :=
  decidable_of_iff (normalizeChunkText b.contentText = normalizeChunkText t.contentText ∧
    b.chunkIndex = t.chunkIndex) ⟨fun both => ⟨both.1, both.2⟩, fun same => ⟨same.text, same.index⟩⟩

omit [SourceText] in
theorem ChunkMatch.unchanged_hashes {m : ChunkMatch} {b t : DocumentChunk}
    (isBase : m.base = some b) (isTarget : m.target = some t)
    (unchanged : m.diffType = .unchanged) : b.chunkHash = t.chunkHash := by
  unfold ChunkMatch.diffType at unchanged
  rw [isBase, isTarget] at unchanged
  by_contra other
  simp only [if_neg other] at unchanged
  cases unchanged

/-- Every such pair is a match, and it is classified as unchanged. -/
def RecognisesUnchanged (base target : List DocumentChunk) : Prop :=
  ∀ b ∈ base, ∀ t ∈ target, SameText b t →
    ∃ m ∈ chunkMatches similarity threshold base target,
      m.base = some b ∧ m.target = some t ∧ m.diffType = .unchanged

theorem compareVersions_some {scores : Scores S} {maxItems : Nat}
    {logicalDocumentId baseVersionId targetVersionId : Nat} {db : Db}
    (compared : (compareVersions similarity threshold scores maxItems logicalDocumentId
      baseVersionId targetVersionId db).isSome) :
    compareVersions similarity threshold scores maxItems logicalDocumentId baseVersionId
        targetVersionId db =
      some (chunkDiff similarity threshold scores maxItems (listAllChunks baseVersionId db)
        (listAllChunks targetVersionId db)) := by
  have version {id : Nat} {v : DocumentVersion} (found : db.getVersion logicalDocumentId id = some v) :
      v.documentVersionId = id := by
    have named := List.find?_some found
    simp only [Bool.and_eq_true, beq_iff_eq] at named
    exact named.2
  unfold compareVersions at compared ⊢
  split at compared
  · next base target _ isBase isTarget =>
    simp only [version isBase, version isTarget]
  · cases compared

/-- The comparison of two versions recognises what is unchanged only where nothing is. -/
theorem unchanged_recognised_iff (scores : Scores S) (maxItems : Nat)
    (logicalDocumentId baseVersionId targetVersionId : Nat) (db : Db)
    (compared : (compareVersions similarity threshold scores maxItems logicalDocumentId
      baseVersionId targetVersionId db).isSome)
    (apart : baseVersionId ≠ targetVersionId)
    (baseChunked : ChunkedBy baseVersionId (listAllChunks baseVersionId db))
    (targetChunked : ChunkedBy targetVersionId (listAllChunks targetVersionId db))
    (collisionFree : ∀ b ∈ listAllChunks baseVersionId db, ∀ t ∈ listAllChunks targetVersionId db,
      Sha256.hexDigest (hashedText b) = Sha256.hexDigest (hashedText t) →
        hashedText b = hashedText t) :
    compareVersions similarity threshold scores maxItems logicalDocumentId baseVersionId
        targetVersionId db =
      some (chunkDiff similarity threshold scores maxItems (listAllChunks baseVersionId db)
        (listAllChunks targetVersionId db)) ∧
    (RecognisesUnchanged similarity threshold (listAllChunks baseVersionId db)
        (listAllChunks targetVersionId db) ↔
      ∀ b ∈ listAllChunks baseVersionId db, ∀ t ∈ listAllChunks targetVersionId db,
        ¬SameText b t) := by
  apply And.intro (compareVersions_some similarity threshold compared)
  constructor
  · intro recognises b inBase t inTarget same
    obtain ⟨m, _, isBase, isTarget, unchanged⟩ := recognises b inBase t inTarget same
    have hashes := ChunkMatch.unchanged_hashes isBase isTarget unchanged
    obtain ⟨baseVersion, baseHash⟩ := row_hashed baseChunked b inBase
    obtain ⟨targetVersion, targetHash⟩ := row_hashed targetChunked t inTarget
    rw [baseHash, targetHash] at hashes
    apply hashedText_apart same.text same.index _ (collisionFree b inBase t inTarget hashes)
    rw [baseVersion, targetVersion]
    exact apart
  · intro none b inBase t inTarget same
    exact absurd same (none b inBase t inTarget)

end Theorem

section Copies

/-- The one chunk of a page with one word. -/
def oneWordChunk (documentVersionId : Nat) (word : String) : Chunk :=
  windowChunk documentVersionId 0 [⟨word, some 1, none, []⟩]

theorem chunk_oneWord (documentVersionId : Nat) {word : String}
    (tokens : documentTokens [⟨word, some 1, none, []⟩] = [⟨word, some 1, none, []⟩]) :
    Ingest.chunk ⟨2, 0, by decide⟩ documentVersionId [⟨word, some 1, none, []⟩] =
      .ok [oneWordChunk documentVersionId word] := by
  have some_token : documentTokens [⟨word, some 1, none, []⟩] ≠ [] := by simp [tokens]
  rw [chunk_eq _ _ some_token, documentWindows, tokens]
  have segments (token : Token) : tokenSegments [token] = [[token]] := rfl
  have outside (token : Token) : segmentWindows ⟨2, 0, by decide⟩ [token] 2 = [] := by
    rw [segmentWindows, Windows.windowsFrom, if_neg (by simp)]
  rw [segments, List.map_singleton, segmentWindows_inside _ (by simp)]
  simp only [ChunkingConfig.step, outside]
  rfl

def readyVersion (documentVersionId versionNo : Nat) : DocumentVersion :=
  ⟨documentVersionId, 1, versionNo, "hash", .ready, false, none, "a.txt", "text/plain", 1, none,
    none, none, none, none, 1, 0, 0⟩

/-- A document of two versions, of one word each. -/
def wordVersions (first second : String) : Db where
  documents := [⟨1, 1, "notes", .active, none, 0, 0⟩]
  versions := [readyVersion 1 1, readyVersion 2 2]
  chunks := [chunkRow 0 1 (oneWordChunk 1 first), chunkRow 0 2 (oneWordChunk 2 second)]
  jobs := []
  nextJobId := 1
  corpusMarker := none
  graphIndexing := none
  graphExtractor := none

theorem wordVersions_chunked {first second : String} {documentVersionId : Nat} {word : String} (id : Nat)
    (tokens : documentTokens [⟨word, some 1, none, []⟩] = [⟨word, some 1, none, []⟩])
    (rows : listAllChunks documentVersionId (wordVersions first second) =
      [chunkRow 0 id (oneWordChunk documentVersionId word)]) :
    ChunkedBy documentVersionId (listAllChunks documentVersionId (wordVersions first second)) := by
  rw [rows]
  exact ⟨_, _, _, chunk_oneWord documentVersionId tokens, .cons ⟨0, id, rfl⟩ .nil⟩

/-- The similarity of texts that are equal or have nothing in common. -/
def equalTexts (b t : DocumentChunk) : Nat := if b.contentText = t.contentText then 1 else 0

/-- Versions with two different words have nothing to recognise. -/
theorem unchanged_recognised_words :
    let _ : SourceText := plainSource
    RecognisesUnchanged equalTexts 1 (listAllChunks 1 (wordVersions "a" "b"))
      (listAllChunks 2 (wordVersions "a" "b")) := by
  intro _
  apply (unchanged_recognised_iff equalTexts 1 ⟨1, id⟩ 200 1 1 2 (wordVersions "a" "b")
    (by decide +kernel) (by decide) (wordVersions_chunked 1 (by decide +kernel) rfl)
    (wordVersions_chunked 2 (by decide +kernel) rfl) (by decide +kernel)).2.mpr
  decide +kernel

/-- Both versions consist of the word a, and the comparison finds one chunk changed and none
unchanged. -/
theorem copy_changed :
    let _ : SourceText := plainSource
    ChunkedBy 1 (listAllChunks 1 (wordVersions "a" "a")) ∧
      ChunkedBy 2 (listAllChunks 2 (wordVersions "a" "a")) ∧
      (compareVersions equalTexts 1 ⟨1, id⟩ 200 1 1 2 (wordVersions "a" "a")).map (·.2.1) =
        some ⟨0, 0, 1, 0⟩ ∧
      ¬RecognisesUnchanged equalTexts 1 (listAllChunks 1 (wordVersions "a" "a"))
        (listAllChunks 2 (wordVersions "a" "a")) := by
  intro _
  refine ⟨wordVersions_chunked 1 (by decide +kernel) rfl,
    wordVersions_chunked 2 (by decide +kernel) rfl, by decide +kernel, ?_⟩
  intro recognises
  obtain ⟨m, _, isBase, isTarget, unchanged⟩ := recognises _ List.mem_cons_self _
    List.mem_cons_self ⟨rfl, rfl⟩
  have hashes := ChunkMatch.unchanged_hashes isBase isTarget unchanged
  revert hashes
  decide +kernel

end Copies

end RagProject.Documents
