import RagProject.Generation.FallbackLow
import RagProject.Generation.RepairedSafe

/-! When the stored answer passes the safety check itself. -/
namespace RagProject.Generation
open Python Regex Markers Context

variable [DigitTables]

section Repaired
variable {sources : List CitationSource} {first : CitationSource} {text : String} {n : Nat}

omit [DigitTables] in
theorem any_marker {ps : List Piece} :
    ps.any Piece.isMarker = true ↔ ∃ digits, .marker digits ∈ ps := by
  rw [List.any_eq_true]
  constructor
  · rintro ⟨p, member, marked⟩
    cases p with
    | plain c => cases marked
    | marker digits => exact ⟨digits, member⟩
  · rintro ⟨digits, member⟩
    exact ⟨.marker digits, member, rfl⟩

theorem rewrite_unmarked {g : List Char → List Char} {s : List Char}
    (unmarked : ∀ digits, .marker digits ∉ pieces anyDigits s) : rewrite anyDigits g s = s := by
  have same : (pieces anyDigits s).map (Piece.relabel g) = (pieces anyDigits s).map id := by
    apply List.map_congr_left
    intro p member
    cases p with
    | plain c => rfl
    | marker digits => exact absurd member (unmarked digits)
  rw [rewrite, same, List.map_id, textOf_pieces]

/-- Zero names no source. -/
theorem zero_names (ok : SourcesOk sources) : ¬NamesSource sources ['0'] := by
  rintro ⟨source, member, same⟩
  have one := ok.positive source member
  have zero : intOf ['0'] = 0 := rfl
  rw [zero] at same
  omega

theorem digits_zero : Digits anyDigits ['0'] := ⟨by decide, by simp [isDecimal, digitValue], rfl⟩

theorem repairedText_rewrite (ok : SourcesOk sources) (number : first.localCitationId = n)
    (short : ShortMarkers text) :
    (repairedText (parsedOf text) sources first).toList =
      rewrite anyDigits (repairedDigits sources first) (markedAnswer text.toList) := by
  by_cases unmarked : (parsedOf text).markers = []
  · have none_there := parsedOf_markers.mp unmarked
    have plain : ¬(pieces anyDigits text.toList).any Piece.isMarker = true := by
      intro marked
      obtain ⟨digits, member⟩ := any_marker.mp marked
      exact none_there digits member
    have added : rewrite anyDigits (repairedDigits sources first) (bracketed ['0'] ++ []) =
        bracketed (toString n).toList := by
      have same : toString (n : Int) = toString n := rfl
      rw [rewrite_marker digits_zero, repairedDigits_invalid (zero_names ok), number, same]
      exact List.append_nil _
    rw [List.append_nil] at added
    rw [repairedText_unmarked number unmarked, markedAnswer, if_neg plain,
      rewrite_cut rfl (by decide) (by decide), rewrite_unmarked none_there, added]
  · have marked : (pieces anyDigits text.toList).any Piece.isMarker = true := by
      by_contra plain
      refine unmarked (parsedOf_markers.mpr fun digits member => plain ?_)
      exact any_marker.mpr ⟨digits, member⟩
    rw [repairedText_marked short unmarked, markedAnswer, if_pos marked]

theorem markedAnswer_lines {content : String}
    (shows : (normalizeAnswerText content).toList ≠ []) :
    ∃ lines, (∀ line ∈ lines, Line line) ∧
      markedAnswer (normalizeAnswerText content).toList = layout lines := by
  obtain ⟨lines, ok, shape⟩ := normalized_lines content
  unfold markedAnswer
  split
  · exact ⟨lines, ok, shape⟩
  · rw [shape]
    apply layout_append ok
    · rintro rfl
      exact shows shape
    · exact ⟨by decide, by decide⟩
    · decide

/-- The repaired answer quotes a context as the marked answer copies it. -/
theorem quotes_iff (ok : SourcesOk sources) (number : first.localCitationId = n) {content : String}
    (short : ShortMarkers (normalizeAnswerText content))
    (shows : (normalizeAnswerText content).toList ≠ [])
    (contextItems : List GenerationContextItem) :
    contextItems.any (quotesContext
        (repairedText (parsedOf (normalizeAnswerText content)) sources first)) = true ↔
      CopiesContext sources first contextItems
        (markedAnswer (normalizeAnswerText content).toList) := by
  obtain ⟨lines, lined, shape⟩ := markedAnswer_lines shows
  have whole := repairedText_rewrite ok number short
  have keeps : ∀ digits, Digits anyDigits digits →
      ∀ c ∈ repairedDigits sources first digits, isDecimal c = true :=
    fun digits okDigits => (repairedDigits_ok number okDigits).decimal
  have cleaned : (cleanText (repairedText (parsedOf (normalizeAnswerText content)) sources first)).toList =
      rewrite anyDigits (repairedDigits sources first) (cleanText (String.ofList (layout lines))).toList := by
    rw [cleanText_layout lined, rewrite_join rfl (by decide) (by decide),
      ← String.ofList_toList (s := repairedText _ _ _), whole, shape, rewrite_layout,
      cleanText_layout (rewrite_lines keeps lined), List.map_flatten]
  rw [List.any_eq_true, CopiesContext, shape]
  apply exists_congr
  intro item
  apply and_congr_right
  intro _
  unfold quotesContext
  simp only [Bool.and_eq_true, decide_eq_true_eq, contains_iff, cleaned, agrees_iff]
  apply and_congr_right
  intro _
  apply exists_congr
  intro front
  apply exists_congr
  intro back
  exact ⟨fun eq => eq.symm, fun eq => eq.symm⟩

theorem repaired_safe_iff (ok : SourcesOk sources) (number : first.localCitationId = n)
    {content : String} {contextItems : List GenerationContextItem}
    (accepted : Accepted content contextItems)
    (shows : (normalizeAnswerText content).toList ≠ []) :
    validateGenerationOutputSafety
        (repairedText (parsedOf (normalizeAnswerText content)) sources first) contextItems = .ok () ↔
      ¬AssignsSecret sources first (markedAnswer (normalizeAnswerText content).toList) ∧
      ¬CopiesContext sources first contextItems
        (markedAnswer (normalizeAnswerText content).toList) := by
  have no_address : ¬HasAddress (markedAnswer (normalizeAnswerText content).toList) := by
    intro address
    have found : search sensitiveOutputRe (normalizeAnswerText content).toList = true :=
      sensitive_iff.mpr (.inr (address_marked address))
    have safe := accepted.safe
    unfold validateGenerationOutputSafety at safe
    rw [found, if_pos rfl] at safe
    cases safe
  have secrets : _ ↔ AssignsSecret sources first
      (markedAnswer (normalizeAnswerText content).toList) ∨ _ := sensitive_rewritten number
  rw [← repairedText_rewrite ok number accepted.short, or_iff_left no_address] at secrets
  rw [← secrets, ← quotes_iff ok number accepted.short shows]
  unfold validateGenerationOutputSafety
  cases search sensitiveOutputRe
      (repairedText (parsedOf (normalizeAnswerText content)) sources first).toList <;>
    cases contextItems.any (quotesContext
      (repairedText (parsedOf (normalizeAnswerText content)) sources first)) <;> simp

end Repaired

section Repairs
variable {first : CitationSource} {rest : List CitationSource} {content : String} {n : Nat}

theorem pieces_repaired (ok : SourcesOk (first :: rest)) (number : first.localCitationId = n)
    (short : ShortMarkers (normalizeAnswerText content)) :
    pieces anyDigits (repairedText (parsedOf (normalizeAnswerText content)) (first :: rest) first).toList =
      (pieces anyDigits (markedAnswer (normalizeAnswerText content).toList)).map
        (Piece.relabel (repairedDigits (first :: rest) first)) := by
  rw [repairedText_rewrite ok number short, pieces_rewrite fun digits => repairedDigits_ok number]

theorem marked_pieces {text : List Char} {p : Piece} (member : p ∈ pieces anyDigits text) :
    p ∈ pieces anyDigits (markedAnswer text) := by
  unfold markedAnswer
  split
  · exact member
  · rw [pieces_cut rfl (by decide) (by decide)]
    exact List.mem_append_left _ member

theorem added_marker : pieces anyDigits (bracketed ['0']) = [.marker ['0']] := by
  have added : pieces anyDigits (bracketed ['0'] ++ []) = [.marker ['0']] := pieces_marker digits_zero []
  rwa [List.append_nil] at added

theorem marked_digits {text digits : List Char}
    (member : .marker digits ∈ pieces anyDigits (markedAnswer text)) :
    .marker digits ∈ pieces anyDigits text ∨ digits = ['0'] := by
  unfold markedAnswer at member
  split at member
  · exact .inl member
  · rw [pieces_cut rfl (by decide) (by decide), added_marker] at member
    rcases List.mem_append.mp member with old | new
    · exact .inl old
    · right
      simpa using new

/-- The marked answer has a marker. -/
theorem markedAnswer_marked (text : List Char) :
    ∃ digits, .marker digits ∈ pieces anyDigits (markedAnswer text) := by
  by_cases marked : (pieces anyDigits text).any Piece.isMarker = true
  · obtain ⟨digits, member⟩ := any_marker.mp marked
    exact ⟨digits, marked_pieces member⟩
  · refine ⟨['0'], ?_⟩
    rw [markedAnswer, if_neg marked, pieces_cut rfl (by decide) (by decide), added_marker]
    simp

/-- An answer whose markers are rejected, though it says something, has one that names no source. -/
theorem rejected_marker (ok : SourcesOk (first :: rest))
    (short : ShortMarkers (normalizeAnswerText content)) (says_more : SaysMore content)
    (rejected : ∀ valid, validateGenerationCitations (parsedOf (normalizeAnswerText content))
      (first :: rest) ≠ .ok valid) :
    (∃ digits, .marker digits ∈ pieces anyDigits (markedAnswer (normalizeAnswerText content).toList) ∧
      ¬NamesSource (first :: rest) digits) := by
  by_cases unmarked : (parsedOf (normalizeAnswerText content)).markers = []
  · obtain ⟨digits, member⟩ := markedAnswer_marked (normalizeAnswerText content).toList
    rcases marked_digits member with before | rfl
    · exact absurd before (parsedOf_markers.mp unmarked digits)
    · exact ⟨['0'], member, zero_names ok⟩
  · obtain ⟨c, member, shows⟩ := says_more
    rw [short.pieces] at member
    by_contra all
    have known : ∀ m ∈ (parsedOf (normalizeAnswerText content)).uniqueMarkerIds,
        (sourceOf (first :: rest) m).isSome := by
      intro m inside
      obtain ⟨digits, there, rfl⟩ := parsedOf_ids.mp inside
      rw [sourceOf_isSome]
      by_contra nameless
      exact all ⟨digits, marked_pieces there, nameless⟩
    obtain ⟨cited, found⟩ := Fallible.mapM_isSome.mpr known
    exact rejected cited ((validate_iff ok).mpr ⟨unmarked, ⟨c, member, shows⟩, found⟩)

theorem number_small (number : first.localCitationId = n) :
    first.localCitationId < 10 ^ maxMarkerDigits ↔ (toString n).toList.length ≤ maxMarkerDigits := by
  rw [(digits_toString n).2.2.2 maxMarkerDigits (by decide), number]
  norm_cast

/-- A short number of the first source keeps every marker short. -/
theorem small_repaired (ok : SourcesOk (first :: rest)) (number : first.localCitationId = n)
    (short : ShortMarkers (normalizeAnswerText content))
    (small : first.localCitationId < 10 ^ maxMarkerDigits) :
    ShortMarkers (repairedText (parsedOf (normalizeAnswerText content)) (first :: rest) first) := by
  have number_text : toString first.localCitationId = toString n := by rw [number]; rfl
  unfold ShortMarkers
  rw [pieces_repaired ok number short]
  intro digits member
  obtain ⟨p, inside, same⟩ := List.mem_map.mp member
  cases p with
  | plain c => cases same
  | marker old =>
    cases same
    by_cases names : NamesSource (first :: rest) old
    · rw [repairedDigits_valid names]
      rcases marked_digits inside with before | rfl
      · exact short old before
      · decide
    · rw [repairedDigits_invalid names, number_text]
      exact (number_small number).mp small

/-- A repair succeeds when the first source has a short number, and fails otherwise. -/
theorem short_repaired (ok : SourcesOk (first :: rest)) (number : first.localCitationId = n)
    (short : ShortMarkers (normalizeAnswerText content))
    (nameless : ∃ digits,
      .marker digits ∈ pieces anyDigits (markedAnswer (normalizeAnswerText content).toList) ∧
        ¬NamesSource (first :: rest) digits) :
    ShortMarkers (repairedText (parsedOf (normalizeAnswerText content)) (first :: rest) first) ↔
      first.localCitationId < 10 ^ maxMarkerDigits := by
  constructor
  · intro all
    have number_text : toString first.localCitationId = toString n := by rw [number]; rfl
    rw [number_small number]
    unfold ShortMarkers at all
    rw [pieces_repaired ok number short] at all
    obtain ⟨digits, member, other⟩ := nameless
    have there := List.mem_map_of_mem (f := Piece.relabel (repairedDigits (first :: rest) first)) member
    rw [Piece.relabel, repairedDigits_invalid other, number_text] at there
    exact all _ there
  · exact small_repaired ok number short

theorem repair_runs (ok : SourcesOk (first :: rest)) (number : first.localCitationId = n)
    (short : ShortMarkers (normalizeAnswerText content)) (more : SaysMore content)
    (shortly : ShortMarkers
      (repairedText (parsedOf (normalizeAnswerText content)) (first :: rest) first)) :
    ∃ cited, repairGenerationCitations (parsedOf (normalizeAnswerText content)) (first :: rest) =
      .ok (parsedOf (repairedText (parsedOf (normalizeAnswerText content)) (first :: rest) first),
        cited) := by
  obtain ⟨c, member, shows⟩ := more
  have unsaid : strip (withoutMarkers fewDigits (normalizeAnswerText content).toList) ≠ [] :=
    saysMore_iff.mpr ⟨c, member, shows⟩
  have some_text : (normalizeAnswerText content).toList ≠ [] := by
    intro none
    rw [none] at member
    cases member
  obtain ⟨lines, lined, shape⟩ := normalized_lines content
  obtain ⟨lines', lined', shape'⟩ :=
    repairedText_lines (first :: rest) number lined shape some_text short
  have again : parseGenerationOutput
      (repairedText (parsedOf (normalizeAnswerText content)) (first :: rest) first) =
        .ok (parsedOf (repairedText (parsedOf (normalizeAnswerText content)) (first :: rest) first)) := by
    rw [parse_ok, normalize_lines lined' shape']
    exact ⟨shortly, rfl⟩
  have labels := pieces_repaired ok number short
  have known : ∀ m ∈ (parsedOf (repairedText (parsedOf (normalizeAnswerText content))
      (first :: rest) first)).uniqueMarkerIds, (sourceOf (first :: rest) m).isSome := by
    intro m inside
    obtain ⟨digits, there, rfl⟩ := parsedOf_ids.mp inside
    rw [labels] at there
    obtain ⟨p, before, same⟩ := List.mem_map.mp there
    rw [sourceOf_isSome]
    cases p with
    | plain c => cases same
    | marker old =>
      cases same
      by_cases names : NamesSource (first :: rest) old
      · rw [repairedDigits_valid names]
        exact names
      · rw [repairedDigits_invalid names, number]
        refine ⟨first, List.mem_cons_self, ?_⟩
        have value : intOf (toString (n : Int)).toList = n := (digits_toString n).2.2.1
        rw [value, number]
  have marked : (parsedOf (repairedText (parsedOf (normalizeAnswerText content))
      (first :: rest) first)).markers ≠ [] := by
    intro none
    have plain := parsedOf_markers.mp none
    rw [labels] at plain
    obtain ⟨digits, there⟩ := markedAnswer_marked (normalizeAnswerText content).toList
    exact plain _ (List.mem_map_of_mem
      (f := Piece.relabel (repairedDigits (first :: rest) first)) there)
  obtain ⟨cited, found⟩ := Fallible.mapM_isSome.mpr known
  have valid : validateGenerationCitations (parsedOf (repairedText
      (parsedOf (normalizeAnswerText content)) (first :: rest) first)) (first :: rest) = .ok cited := by
    refine (validate_iff ok).mpr ⟨marked, ⟨c, ?_, shows⟩, found⟩
    rw [parsedOf_text, labels]
    rw [short.pieces] at member
    exact List.mem_map_of_mem (f := Piece.relabel (repairedDigits (first :: rest) first))
      (marked_pieces member)
  exact ⟨cited, repair_ok unsaid again valid⟩

end Repairs

section Stored
variable {content : String} {contextItems : List GenerationContextItem} {first : CitationSource}
  {rest : List CitationSource} {allowInsufficient allowValidation : Bool}

/-- An answer other than the fallback passes the safety check. -/
def StoredSafe (content : String) (contextItems : List GenerationContextItem)
    (first : CitationSource) (rest : List CitationSource)
    (allowInsufficient allowValidation : Bool) : Prop :=
  ∀ parsed cited flag,
    validatedGenerationOrFallback content contextItems (first :: rest) allowInsufficient
      allowValidation = .ok (parsed, cited, flag) →
    parsed.answerText ≠ fallbackText first.localCitationId →
    validateGenerationOutputSafety parsed.answerText contextItems = .ok ()

/-- The markers of a checked answer are repaired. -/
structure Repairs (content : String) (contextItems : List GenerationContextItem)
    (first : CitationSource) (rest : List CitationSource) (allowValidation : Bool) : Prop where
  strict : allowValidation = false
  accepted : Accepted content contextItems
  rejected : ∀ valid, validateGenerationCitations (parsedOf (normalizeAnswerText content))
    (first :: rest) ≠ .ok valid
  more : SaysMore content
  small : first.localCitationId < 10 ^ maxMarkerDigits

theorem repairs_run (ok : SourcesOk (first :: rest))
    (repairs : Repairs content contextItems first rest allowValidation) :
    ∃ cited, validatedGenerationOrFallback content contextItems (first :: rest) allowInsufficient
      allowValidation = .ok (parsedOf (repairedText (parsedOf (normalizeAnswerText content))
        (first :: rest) first), cited, false) ∧
      repairGenerationCitations (parsedOf (normalizeAnswerText content)) (first :: rest) =
        .ok (parsedOf (repairedText (parsedOf (normalizeAnswerText content)) (first :: rest) first),
          cited) := by
  obtain ⟨rfl, ⟨short, sufficient, safe⟩, rejected, more, small⟩ := repairs
  have one := ok.positive first List.mem_cons_self
  obtain ⟨n, number⟩ := Int.eq_ofNat_of_zero_le (Int.le_trans (by decide : (0 : Int) ≤ 1) one)
  have nameless := rejected_marker ok short more rejected
  obtain ⟨cited, repaired⟩ :=
    repair_runs ok number short more ((short_repaired ok number short nameless).mpr small)
  refine ⟨cited, ?_, repaired⟩
  have parsed : parseGenerationOutput content = .ok (parsedOf (normalizeAnswerText content)) :=
    parse_ok.mpr ⟨short, rfl⟩
  obtain ⟨e, invalid⟩ : ∃ e, validateGenerationCitations (parsedOf (normalizeAnswerText content))
      (first :: rest) = .error e := by
    cases valid : validateGenerationCitations (parsedOf (normalizeAnswerText content))
        (first :: rest) with
    | error e => exact ⟨e, rfl⟩
    | ok cited => exact absurd valid (rejected cited)
  unfold validatedGenerationOrFallback
  simp only [parsed, parsedOf_text, sufficient, Bool.false_eq_true, if_false, safe, invalid, repaired]
  rfl

theorem stored_safe_iff (ok : SourcesOk (first :: rest)) :
    StoredSafe content contextItems first rest allowInsufficient allowValidation ↔
      ¬Repairs content contextItems first rest allowValidation ∨
        (¬AssignsSecret (first :: rest) first (markedAnswer (normalizeAnswerText content).toList) ∧
          ¬CopiesContext (first :: rest) first contextItems
            (markedAnswer (normalizeAnswerText content).toList)) := by
  have one := ok.positive first List.mem_cons_self
  obtain ⟨n, number⟩ := Int.eq_ofNat_of_zero_le (Int.le_trans (by decide : (0 : Int) ≤ 1) one)
  have shows (more : SaysMore content) : (normalizeAnswerText content).toList ≠ [] := by
    obtain ⟨c, member, _⟩ := more
    intro none
    rw [none] at member
    cases member
  constructor
  · intro safe
    by_cases repairs : Repairs content contextItems first rest allowValidation
    · right
      obtain ⟨cited, run, repaired⟩ := repairs_run ok repairs
      have other := (repaired_text ok repairs.accepted repaired (saysMore_iff.mpr repairs.more)).2
      have stored := safe _ _ _ run other
      rw [parsedOf_text] at stored
      exact (repaired_safe_iff ok number repairs.accepted (shows repairs.more)).mp stored
    · exact .inl repairs
  · intro when_ok parsed cited flag done other
    rcases validated_cases done with ⟨_, fallback⟩ | ⟨_, accepted, valid | ⟨strict, rejected, repaired⟩⟩
    · exact absurd (fallback_answer ok fallback) other
    · obtain ⟨_, rfl⟩ := valid
      rw [parsedOf_text]
      exact accepted.safe
    · by_cases more : SaysMore content
      · obtain ⟨rfl, _⟩ := repaired_text ok accepted repaired (saysMore_iff.mpr more)
        rcases repair_cases repaired with ⟨bare, _⟩ | ⟨_, again, _⟩
        · exact absurd bare (saysMore_iff.mpr more)
        · have shortly := (repaired_parsed number accepted.short (shows more) again).2
          have nameless := rejected_marker ok accepted.short more rejected
          have small := (short_repaired ok number accepted.short nameless).mp shortly
          have clean := when_ok.resolve_left
            fun never => never ⟨strict, accepted, rejected, more, small⟩
          rw [parsedOf_text]
          exact (repaired_safe_iff ok number accepted (shows more)).mpr clean
      · rcases repair_cases repaired with ⟨_, fallback⟩ | ⟨unsaid, _⟩
        · exact absurd (fallback_answer ok fallback) other
        · exact absurd (saysMore_iff.mp unsaid) more

omit [DigitTables] in
theorem stored_safe_sentence :
    let _ : DigitTables := asciiDigits
    StoredSafe "Flights are booked in economy [7]." [] (numberedSource 1) [] true false ↔
      ¬Repairs "Flights are booked in economy [7]." [] (numberedSource 1) [] false ∨
        (¬AssignsSecret [numberedSource 1] (numberedSource 1)
            (markedAnswer (normalizeAnswerText "Flights are booked in economy [7].").toList) ∧
          ¬CopiesContext [numberedSource 1] (numberedSource 1) []
            (markedAnswer (normalizeAnswerText "Flights are booked in economy [7].").toList)) :=
  let _ : DigitTables := asciiDigits
  stored_safe_iff numberedSource_ok

def vacationRule : GenerationContextItem where
  documentChunkId := 1
  sourceLabel := "Vacation policy"
  text := "Employees may carry over at most five unused vacation days per calendar year, see table [1]."
  localCitationId := some 1
  pageFrom := none
  pageTo := none

omit [DigitTables] in
/-- A quote with another number in its brackets becomes the verbatim context as it is repaired. -/
theorem quoted_table :
    let _ : DigitTables := asciiDigits
    SourcesOk [numberedSource 1] ∧
      ¬StoredSafe
        "Employees may carry over at most five unused vacation days per calendar year, see table [2]."
        [vacationRule] (numberedSource 1) [] true false := by
  intro tables
  refine ⟨numberedSource_ok, fun safe => ?_⟩
  have run : validatedGenerationOrFallback
      "Employees may carry over at most five unused vacation days per calendar year, see table [2]."
      [vacationRule] [numberedSource 1] true false =
        .ok (⟨vacationRule.text, [⟨1, 88, 91⟩], [1]⟩, [numberedSource 1], false) := by
    decide +kernel
  have other : vacationRule.text ≠ fallbackText (numberedSource 1).localCitationId := by
    decide +kernel
  have accepted := safe _ _ _ run other
  have refused : validateGenerationOutputSafety vacationRule.text [vacationRule] ≠ .ok () := by
    decide +kernel
  exact refused accepted

end Stored

end RagProject.Generation
