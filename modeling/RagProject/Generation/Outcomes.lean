import RagProject.Generation.Fallback

/-! How an answer comes about: as the fallback, as the model wrote it, or with repaired markers. -/
namespace RagProject.Generation
open Python Markers Context

variable [DigitTables]

/-- The checks before the markers are looked at. -/
structure Accepted (content : String) (contextItems : List GenerationContextItem) : Prop where
  short : ShortMarkers (normalizeAnswerText content)
  sufficient : isInsufficientEvidenceAnswer (normalizeAnswerText content) = false
  safe : validateGenerationOutputSafety (normalizeAnswerText content) contextItems = .ok ()

section Cases
variable {content : String} {contextItems : List GenerationContextItem}
  {sources cited : List CitationSource} {allowInsufficient allowValidation : Bool}
  {parsed : ParsedGenerationOutput} {flag : Bool}

theorem validationErrorFallback_ok
    (done : validationErrorFallback sources = .ok (parsed, cited, flag)) :
    flag = true ∧ insufficientCitationFallback sources = .ok (parsed, cited) := by
  obtain ⟨out, fallback, done⟩ := Fallible.bind_ok done
  cases done
  exact ⟨rfl, fallback⟩

/-- What the function returns, by the branches that return. -/
theorem validated_cases
    (done : validatedGenerationOrFallback content contextItems sources allowInsufficient
      allowValidation = .ok (parsed, cited, flag)) :
    (flag = true ∧ insufficientCitationFallback sources = .ok (parsed, cited)) ∨
    (flag = false ∧ Accepted content contextItems ∧
      ((validateGenerationCitations (parsedOf (normalizeAnswerText content)) sources = .ok cited ∧
          parsed = parsedOf (normalizeAnswerText content)) ∨
        (allowValidation = false ∧
          (∀ valid, validateGenerationCitations (parsedOf (normalizeAnswerText content)) sources ≠
            .ok valid) ∧
          repairGenerationCitations (parsedOf (normalizeAnswerText content)) sources =
            .ok (parsed, cited)))) := by
  unfold validatedGenerationOrFallback at done
  split at done
  · split at done
    · exact .inl (validationErrorFallback_ok done)
    · cases done
  · rename_i first found
    obtain ⟨short, rfl⟩ := parse_ok.mp found
    split at done
    · split at done
      · obtain ⟨out, fallback, done⟩ := Fallible.bind_ok done
        cases done
        exact .inl ⟨rfl, fallback⟩
      · cases done
    · rename_i sufficient
      have enough : isInsufficientEvidenceAnswer (normalizeAnswerText content) = false :=
        Bool.not_eq_true _ ▸ sufficient
      split at done
      · split at done
        · exact .inl (validationErrorFallback_ok done)
        · cases done
      · rename_i safe
        have accepted : Accepted content contextItems := ⟨short, enough, safe⟩
        split at done
        · split at done
          · exact .inl (validationErrorFallback_ok done)
          · rename_i e rejected strict
            obtain ⟨out, repaired, done⟩ := Fallible.bind_ok done
            cases done
            refine .inr ⟨rfl, accepted, .inr ⟨by simpa using strict, fun valid accepts => ?_, repaired⟩⟩
            rw [accepts] at rejected
            cases rejected
        · rename_i valid
          cases done
          exact .inr ⟨rfl, accepted, .inl ⟨valid, rfl⟩⟩

variable {first : CitationSource} {rest : List CitationSource}

theorem repair_cases
    (done : repairGenerationCitations parsed (first :: rest) = .ok (parsed', cited)) :
    (strip (withoutMarkers fewDigits parsed.answerText.toList) = [] ∧
      insufficientCitationFallback (first :: rest) = .ok (parsed', cited)) ∨
    (strip (withoutMarkers fewDigits parsed.answerText.toList) ≠ [] ∧
      parseGenerationOutput (repairedText parsed (first :: rest) first) = .ok parsed' ∧
      validateGenerationCitations parsed' (first :: rest) = .ok cited) := by
  unfold repairGenerationCitations at done
  simp only at done
  split at done
  · next bare => exact .inl ⟨bare, done⟩
  · next shows =>
    obtain ⟨repaired, again, done⟩ := Fallible.bind_ok done
    obtain ⟨other, valid, done⟩ := Fallible.bind_ok done
    cases done
    exact .inr ⟨shows, again, valid⟩

theorem repair_ok (unsaid : strip (withoutMarkers fewDigits parsed.answerText.toList) ≠ [])
    (again : parseGenerationOutput (repairedText parsed (first :: rest) first) = .ok parsed')
    (valid : validateGenerationCitations parsed' (first :: rest) = .ok cited) :
    repairGenerationCitations parsed (first :: rest) = .ok (parsed', cited) := by
  unfold repairGenerationCitations
  simp only [unsaid, if_false, again]
  show (validateGenerationCitations parsed' (first :: rest) >>= fun cited =>
    Except.ok (parsed', cited)) = _
  rw [valid]
  rfl

end Cases

section Repair
variable {sources : List CitationSource} {first : CitationSource} {text : String} {n : Nat}

theorem repairedDigits_ok (number : first.localCitationId = n) {digits : List Char}
    (ok : Digits anyDigits digits) : Digits anyDigits (repairedDigits sources first digits) := by
  unfold repairedDigits
  split
  · exact ok
  · rw [number]
    exact number_digits n

/-- The repaired text of an answer with markers, over all of its markers. -/
theorem repairedText_marked (short : ShortMarkers text) (marked : (parsedOf text).markers ≠ []) :
    (repairedText (parsedOf text) sources first).toList =
      rewrite anyDigits (repairedDigits sources first) text.toList := by
  unfold repairedText
  rw [if_neg marked, String.toList_ofList]
  show textOf ((pieces fewDigits text.toList).map _) = _
  rw [short.pieces]
  rfl

theorem repairedText_unmarked (number : first.localCitationId = n)
    (unmarked : (parsedOf text).markers = []) :
    (repairedText (parsedOf text) sources first).toList =
      text.toList ++ ' ' :: bracketed (toString n).toList := by
  unfold repairedText
  rw [if_pos unmarked]
  have same : toString (n : Int) = toString n := rfl
  simp only [String.toList_append, number, same]
  simp [parsedOf, bracketed]

/-- A repaired answer is normalized. -/
theorem repairedText_lines (sources : List CitationSource) (number : first.localCitationId = n)
    {lines : List (List (List Char))} (ok : ∀ line ∈ lines, Line line)
    (shape : text.toList = layout lines) (shows : text.toList ≠ []) (short : ShortMarkers text) :
    ∃ lines', (∀ line ∈ lines', Line line) ∧
      (repairedText (parsedOf text) sources first).toList = layout lines' := by
  by_cases unmarked : (parsedOf text).markers = []
  · rw [repairedText_unmarked number unmarked, shape]
    apply layout_append ok
    · rintro rfl
      exact shows shape
    · refine ⟨by simp [bracketed], fun c member => ?_⟩
      simp only [bracketed, List.cons_append, List.mem_cons, List.mem_append, List.not_mem_nil,
        or_false] at member
      rcases member with rfl | digit | rfl
      · rfl
      · exact (digit_plain ((digits_toString n).2.1 c digit)).2.2
      · rfl
    · simp only [bracketed, List.cons_append, List.mem_cons, List.mem_append, List.not_mem_nil,
        or_false]
      rintro (same | digit | same)
      · exact absurd same (by decide)
      · have decimal := (digits_toString n).2.1 _ digit
        rw [decimal_zero] at decimal
        cases decimal
      · exact absurd same (by decide)
  · rw [repairedText_marked short unmarked, shape, rewrite_layout]
    exact ⟨_, rewrite_lines (fun digits ok => (repairedDigits_ok number ok).decimal) ok, rfl⟩

omit [DigitTables] in
theorem normalize_lines {lines : List (List (List Char))} (ok : ∀ line ∈ lines, Line line)
    (shape : text.toList = layout lines) : normalizeAnswerText text = text := by
  have same := normalize_layout ok
  rw [← shape, String.ofList_toList] at same
  exact same

/-- What is parsed again after a repair is the repaired text. -/
theorem repaired_parsed (number : first.localCitationId = n) {content : String}
    {parsed : ParsedGenerationOutput} (short : ShortMarkers (normalizeAnswerText content))
    (shows : (normalizeAnswerText content).toList ≠ [])
    (again : parseGenerationOutput
      (repairedText (parsedOf (normalizeAnswerText content)) sources first) = .ok parsed) :
    parsed = parsedOf (repairedText (parsedOf (normalizeAnswerText content)) sources first) ∧
      ShortMarkers (repairedText (parsedOf (normalizeAnswerText content)) sources first) := by
  obtain ⟨lines, ok, shape⟩ := normalized_lines content
  obtain ⟨lines', ok', shape'⟩ :=
    repairedText_lines sources number ok shape shows short
  obtain ⟨shortly, rfl⟩ := parse_ok.mp again
  rw [normalize_lines ok' shape'] at shortly ⊢
  exact ⟨rfl, shortly⟩

/-- Only the fallback with another marker is repaired to the fallback. -/
theorem repaired_fallback (number : first.localCitationId = n) (short : ShortMarkers text)
    (same : repairedText (parsedOf text) sources first = fallbackText n) :
    isInsufficientEvidenceAnswer text = true := by
  have letters := congrArg String.toList same
  by_cases unmarked : (parsedOf text).markers = []
  · rw [repairedText_unmarked number unmarked, fallbackText_digits] at letters
    have left : text.toList ++ ' ' :: bracketed (toString n).toList =
        (text.toList ++ ' ' :: '[' :: (toString n).toList) ++ [']'] := by simp [bracketed]
    have right : fallbackWith (toString n).toList =
        (fallbackLead ++ ' ' :: bracketed (toString n).toList) ++ ['。'] := by simp [fallbackWith]
    rw [left, right] at letters
    have ends := congrArg List.getLast? letters
    rw [List.getLast?_concat, List.getLast?_concat] at ends
    exact absurd (Option.some.inj ends) (by decide)
  · rw [repairedText_marked short unmarked] at letters
    have cut := congrArg (pieces anyDigits) letters
    rw [pieces_rewrite (fun digits ok => repairedDigits_ok number ok), pieces_fallbackText] at cut
    obtain ⟨front, back, split, lead, tail⟩ := List.map_eq_append_iff.mp cut
    obtain ⟨blank, back, rfl, blankPlain, tail⟩ := List.map_eq_cons_iff.mp tail
    obtain ⟨marker, back, rfl, isMarker, tail⟩ := List.map_eq_cons_iff.mp tail
    obtain ⟨stop, back, rfl, stopPlain, tail⟩ := List.map_eq_cons_iff.mp tail
    rw [List.map_eq_nil_iff] at tail
    subst tail
    have plain {p : Piece} {c : Char}
        (eq : Piece.relabel (repairedDigits sources first) p = .plain c) : p = .plain c := by
      cases p with
      | plain d => exact eq
      | marker d => cases eq
    obtain ⟨digits, rfl⟩ : ∃ digits, marker = .marker digits := by
      cases marker with
      | plain d => cases isMarker
      | marker d => exact ⟨d, rfl⟩
    have front_plain : front = fallbackLead.map Piece.plain := by
      have each : ∀ (ps : List Piece) (cs : List Char),
          ps.map (Piece.relabel (repairedDigits sources first)) = cs.map Piece.plain →
            ps = cs.map Piece.plain := by
        intro ps
        induction ps with
        | nil =>
          intro cs eq
          rw [List.map_nil] at eq
          exact eq
        | cons p ps ih =>
          intro cs eq
          cases cs with
          | nil => cases eq
          | cons c cs =>
            obtain ⟨one, more⟩ := List.cons_eq_cons.mp eq
            rw [plain one, ih cs more]
            rfl
      exact each front fallbackLead lead
    rw [plain blankPlain, plain stopPlain, front_plain] at split
    have ok : Digits anyDigits digits := pieces_digits (s := text.toList) (by rw [split]; simp)
    have few : Digits fewDigits digits :=
      ⟨ok.some_digit, ok.decimal, decide_eq_true (short digits (by rw [split]; simp))⟩
    have whole : text.toList = fallbackWith digits := by
      have all : textOf (pieces anyDigits text.toList) = text.toList := textOf_pieces _
      rw [← all, split, ← pieces_fallback ok, textOf_pieces]
    have told := fallback_insufficient few
    rw [← whole, String.ofList_toList] at told
    exact told

theorem fallbackText_insufficient (short : ShortMarkers (fallbackText n)) :
    isInsufficientEvidenceAnswer (fallbackText n) = true := by
  have few : Digits fewDigits (toString n).toList :=
    ⟨(digits_toString n).1, (digits_toString n).2.1,
      decide_eq_true (short _ (fallbackText_marker.mpr rfl))⟩
  have told := fallback_insufficient few
  rw [← fallbackText_digits, String.ofList_toList] at told
  exact told

/-- An answer that is not the fallback by its branch is not the fallback by its text. -/
theorem repaired_text {content : String} {contextItems : List GenerationContextItem}
    {rest cited : List CitationSource} {parsed : ParsedGenerationOutput}
    (ok : SourcesOk (first :: rest)) (accepted : Accepted content contextItems)
    (done : repairGenerationCitations (parsedOf (normalizeAnswerText content)) (first :: rest) =
      .ok (parsed, cited))
    (shows : strip (withoutMarkers fewDigits (normalizeAnswerText content).toList) ≠ []) :
    parsed = parsedOf (repairedText (parsedOf (normalizeAnswerText content)) (first :: rest) first) ∧
      parsed.answerText ≠ fallbackText first.localCitationId := by
  have one := ok.positive first List.mem_cons_self
  obtain ⟨n, number⟩ := Int.eq_ofNat_of_zero_le (Int.le_trans (by decide : (0 : Int) ≤ 1) one)
  rcases repair_cases done with ⟨bare, _⟩ | ⟨_, again, _⟩
  · exact absurd bare shows
  · have some_text : (normalizeAnswerText content).toList ≠ [] := by
      intro none
      rw [none] at shows
      exact shows rfl
    obtain ⟨rfl, _⟩ := repaired_parsed number accepted.short some_text again
    refine ⟨rfl, fun same => ?_⟩
    rw [parsedOf_text, number] at same
    have told := repaired_fallback number accepted.short same
    rw [accepted.sufficient] at told
    cases told

end Repair

end RagProject.Generation
