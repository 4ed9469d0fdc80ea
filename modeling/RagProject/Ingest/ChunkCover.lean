import RagProject.Ingest.Chunking
import RagProject.Lib.Windows

/-! The chunks of a document are windows of its runs of tokens: nothing is lost, nothing is
reordered, and nothing crosses a boundary. -/
namespace RagProject.Ingest
open Python Windows

section Segments

/-- The loop of _token_segments keeps maximal runs. -/
theorem segments_fold {tokens : List Token} {segments : List (List Token)} {current : List Token}
    {currentKey : Option BoundaryKey}
    (done : tokens.foldl segmentToken ([], [], none) = (segments, current, currentKey)) :
    (tokens = [] ∧ segments = [] ∧ current = []) ∨
      (Runs Token.key tokens (segments ++ [current]) ∧ ∃ last ∈ current, last.key = currentKey) := by
  induction tokens using List.reverseRecOn generalizing segments current currentKey with
  | nil =>
    cases done
    exact .inl ⟨rfl, rfl, rfl⟩
  | append_singleton tokens token ih =>
    rw [List.foldl_append, List.foldl_cons, List.foldl_nil] at done
    obtain ⟨⟨before, open_run, key⟩, state⟩ : ∃ s, tokens.foldl segmentToken ([], [], none) = s :=
      ⟨_, rfl⟩
    rw [state] at done
    refine .inr ?_
    rcases ih state with ⟨rfl, rfl, rfl⟩ | ⟨cut, last, inside, hit⟩
    · cases done
      exact ⟨Runs.first _ _, token, by simp, rfl⟩
    · simp only [segmentToken] at done
      split at done
      · rename_i other
        cases done
        exact ⟨cut.begin inside (hit ▸ other.2), token, by simp, rfl⟩
      · rename_i same
        cases done
        have some_token : open_run ≠ [] := List.ne_nil_of_mem inside
        have equal : token.key = key := by
          by_contra other
          exact same ⟨some_token, other⟩
        exact ⟨cut.extend inside (equal.trans hit.symm), token, by simp, rfl⟩

theorem tokenSegments_runs (tokens : List Token) : Runs Token.key tokens (tokenSegments tokens) := by
  obtain ⟨⟨segments, current, key⟩, state⟩ : ∃ s, tokens.foldl segmentToken ([], [], none) = s :=
    ⟨_, rfl⟩
  simp only [tokenSegments, state]
  rcases segments_fold state with ⟨rfl, rfl, rfl⟩ | ⟨cut, last, inside, _⟩
  · exact ⟨rfl, by simp, by simp, .nil⟩
  · rw [if_neg (List.ne_nil_of_mem inside)]
    exact cut

end Segments

section Windows
variable (config : ChunkingConfig) (documentVersionId : Nat)

/-- The windows of a segment, as the loop over it takes them. -/
def segmentWindows (segment : List Token) (start : Nat) : List (Nat × List Token) :=
  windowsFrom config.chunkSizeTokens config.step config.step_pos segment start

theorem segmentWindows_inside {segment : List Token} {start : Nat} (inside : start < segment.length) :
    segmentWindows config segment start =
      (start, (segment.drop start).take config.chunkSizeTokens) ::
        segmentWindows config segment (start + config.step) := by
  unfold segmentWindows
  rw [windowsFrom, if_pos inside]

theorem chunkSegment_eq (segment : List Token) (start : Nat) (chunks : List Chunk) :
    chunkSegment config documentVersionId segment start chunks =
      (segmentWindows config segment start).foldl
        (fun chunks w => appendChunk documentVersionId chunks w.2) chunks := by
  fun_induction chunkSegment config documentVersionId segment start chunks with
  | case1 start chunks inside window ih =>
    rw [ih, segmentWindows_inside config inside, List.foldl_cons]
  | case2 start chunks outside =>
    rw [segmentWindows, windowsFrom, if_neg outside, List.foldl_nil]

/-- A window of words has a text, so it becomes a chunk. -/
theorem appendChunk_words {window : List Token} (some_token : window ≠ [])
    (words : ∀ t ∈ window, Word t.value.toList) (chunks : List Chunk) :
    contentText window = String.ofList (join [' '] (window.map (·.value.toList))) ∧
      appendChunk documentVersionId chunks window =
        chunks ++ [windowChunk documentVersionId chunks.length window] := by
  have each : ∀ w ∈ window.map (·.value.toList), Word w := by
    intro w member
    obtain ⟨t, inside, rfl⟩ := List.mem_map.mp member
    exact words t inside
  have content : contentText window = String.ofList (join [' '] (window.map (·.value.toList))) := by
    rw [contentText, strip_join each]
  refine ⟨content, if_neg fun empty => ?_⟩
  rw [content, normalizeChunkText, String.toList_ofList, splitWords_join each, strip_join each] at empty
  exact join_ne_nil each (by simpa using some_token) (String.ofList_eq_empty_iff.mp empty)

theorem foldl_append {windows : List (Nat × List Token)}
    (words : ∀ w ∈ windows, w.2 ≠ [] ∧ ∀ t ∈ w.2, Word t.value.toList) (chunks : List Chunk) :
    windows.foldl (fun chunks w => appendChunk documentVersionId chunks w.2) chunks =
      chunks ++ windows.mapIdx fun i w => windowChunk documentVersionId (chunks.length + i) w.2 := by
  induction windows generalizing chunks with
  | nil => simp
  | cons w windows ih =>
    obtain ⟨some_token, solid⟩ := words w List.mem_cons_self
    have rest := fun v member => words v (List.mem_cons_of_mem _ member)
    rw [List.foldl_cons, (appendChunk_words documentVersionId some_token solid chunks).2, ih rest,
      List.mapIdx_cons, List.append_assoc]
    simp only [List.length_append, List.length_singleton, List.singleton_append, Nat.add_zero]
    congr 3
    funext i v
    rw [Nat.add_right_comm, Nat.add_assoc]

end Windows

section Theorem
variable (config : ChunkingConfig) (documentVersionId : Nat)

/-- Windows of the run, a step apart, none of them longer than the chunk size, which bring all its
tokens in order. -/
structure Covers (run : List Token) (windows : List (Nat × List Token)) : Prop where
  places : ∀ i w, windows[i]? = some w →
    w.1 = i * (config.chunkSizeTokens - config.chunkOverlapTokens) ∧
      w.2 = (run.drop w.1).take config.chunkSizeTokens ∧ w.2 ≠ []
  whole : uncovered 0 windows = run

/-- The chunk of a window: its tokens and its pages. -/
structure ChunkOf (window : List Token) (index : Nat) (c : Chunk) : Prop where
  index : c.chunkIndex = index
  tokens : splitWords c.contentText.toList = window.map (·.value.toList)
  count : c.tokenCount = window.length
  bounded : window.length ≤ config.chunkSizeTokens
  pages : (pageNumbers window = [] ∧ c.pageFrom = none ∧ c.pageTo = none) ∨
    ∃ first last, c.pageFrom = some first ∧ c.pageTo = some last ∧ first ∈ pageNumbers window ∧
      last ∈ pageNumbers window ∧ (∀ n ∈ pageNumbers window, first ≤ n ∧ n ≤ last) ∧ first ≤ last

theorem segmentWindows_covers (run : List Token) :
    Covers config run (segmentWindows config run 0) := by
  refine ⟨fun i w found => ?_, ?_⟩
  · obtain ⟨place, inside, window⟩ := windowsFrom_get found
    refine ⟨place.trans (Nat.zero_add _), window, ?_⟩
    rw [window]
    have positive := Nat.lt_of_le_of_lt (Nat.zero_le _) config.smaller
    intro none
    have length := congrArg List.length none
    rw [List.length_take, List.length_drop, List.length_nil] at length
    omega
  · exact uncovered_windows (Nat.sub_le _ _) (.inl (Nat.le_refl 0))

theorem documentTokens_word (pages : List ExtractedPage) :
    ∀ t ∈ documentTokens pages, Word t.value.toList := by
  intro t member
  obtain ⟨page, _, inside⟩ := List.mem_flatMap.mp member
  obtain ⟨word, found, rfl⟩ := List.mem_map.mp inside
  rw [String.toList_ofList]
  exact word_of_split found

theorem windowChunk_of {window : List Token} (some_token : window ≠ [])
    (words : ∀ t ∈ window, Word t.value.toList) (bounded : window.length ≤ config.chunkSizeTokens)
    (index : Nat) : ChunkOf config window index (windowChunk documentVersionId index window) := by
  have content := (appendChunk_words documentVersionId some_token words []).1
  have each : ∀ w ∈ window.map (·.value.toList), Word w := by
    intro w member
    obtain ⟨t, inside, rfl⟩ := List.mem_map.mp member
    exact words t inside
  have tokens : splitWords (contentText window).toList = window.map (·.value.toList) := by
    rw [content, String.toList_ofList, splitWords_join each]
  refine ⟨rfl, tokens, ?_, bounded, ?_⟩
  · calc (windowChunk documentVersionId index window).tokenCount
        = (splitWords (contentText window).toList).length := rfl
      _ = window.length := by rw [tokens, List.length_map]
  · cases shape : pageNumbers window with
    | nil => exact .inl ⟨rfl, by simp [windowChunk, shape], by simp [windowChunk, shape]⟩
    | cons n rest =>
      obtain ⟨first, least⟩ := Option.isSome_iff_exists.mp
        (List.isSome_min?_of_ne_nil (show n :: rest ≠ [] by simp))
      obtain ⟨last, greatest⟩ := Option.isSome_iff_exists.mp
        (List.isSome_max?_of_ne_nil (show n :: rest ≠ [] by simp))
      obtain ⟨firstIn, below⟩ := List.min?_eq_some_iff.mp least
      obtain ⟨lastIn, above⟩ := List.max?_eq_some_iff.mp greatest
      refine .inr ⟨first, last, ?_, ?_, firstIn, lastIn, fun k member => ⟨below k member,
        above k member⟩, below last lastIn⟩
      · rw [← least, ← shape]
        rfl
      · rw [← greatest, ← shape]
        rfl

/-- The windows of all runs of a document, run by run. -/
def documentWindows (pages : List ExtractedPage) : List (List (Nat × List Token)) :=
  (tokenSegments (documentTokens pages)).map (segmentWindows config · 0)

theorem documentWindows_words (pages : List ExtractedPage) :
    ∀ w ∈ (documentWindows config pages).flatten, w.2 ≠ [] ∧
      w.2.length ≤ config.chunkSizeTokens ∧ ∀ t ∈ w.2, Word t.value.toList := by
  intro w member
  obtain ⟨ws, listed, inside⟩ := List.mem_flatten.mp member
  obtain ⟨run, segment, rfl⟩ := List.mem_map.mp listed
  obtain ⟨i, found⟩ := List.mem_iff_getElem?.mp inside
  obtain ⟨_, window, shows⟩ := (segmentWindows_covers config run).places i w found
  refine ⟨shows, ?_, fun t token => documentTokens_word pages t ?_⟩
  · rw [window, List.length_take]
    exact Nat.min_le_left _ _
  · rw [window] at token
    rw [← (tokenSegments_runs (documentTokens pages)).whole]
    exact List.mem_flatten_of_mem segment (List.mem_of_mem_drop (List.mem_of_mem_take token))

theorem documentWindows_covers (pages : List ExtractedPage) :
    List.Forall₂ (Covers config) (tokenSegments (documentTokens pages))
      (documentWindows config pages) :=
  List.forall₂_map_right_iff.mpr
    (List.forall₂_same.mpr fun run _ => segmentWindows_covers config run)

theorem documentWindows_some {pages : List ExtractedPage} (some_token : documentTokens pages ≠ []) :
    (documentWindows config pages).flatten ≠ [] := by
  have cut := tokenSegments_runs (documentTokens pages)
  have covers := documentWindows_covers config pages
  intro none
  generalize tokenSegments (documentTokens pages) = runs at cut covers
  generalize documentWindows config pages = windows at covers none
  cases covers with
  | nil => exact some_token cut.whole.symm
  | @cons run ws runs windows first _ =>
    have empty : ws = [] := (List.append_eq_nil_iff.mp none).1
    have whole := first.whole
    rw [empty] at whole
    exact cut.shows run List.mem_cons_self whole.symm

theorem chunk_eq {pages : List ExtractedPage} (some_token : documentTokens pages ≠ []) :
    chunk config documentVersionId pages =
      .ok ((documentWindows config pages).flatten.mapIdx fun i w =>
        windowChunk documentVersionId i w.2) := by
  have loops := foldl_append documentVersionId (fun w member =>
    ⟨(documentWindows_words config pages w member).1,
      (documentWindows_words config pages w member).2.2⟩) []
  simp only [List.length_nil, Nat.zero_add, List.nil_append] at loops
  have chunks : (tokenSegments (documentTokens pages)).foldl
      (fun chunks segment => chunkSegment config documentVersionId segment 0 chunks) [] =
      (documentWindows config pages).flatten.mapIdx fun i w =>
        windowChunk documentVersionId i w.2 := by
    rw [← loops, List.foldl_flatten, documentWindows, List.foldl_map]
    simp only [chunkSegment_eq]
  unfold chunk
  rw [if_neg some_token, chunks, if_neg]
  simpa using documentWindows_some config some_token

end Theorem

end RagProject.Ingest
