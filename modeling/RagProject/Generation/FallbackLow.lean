import RagProject.Generation.Confidence
import RagProject.Generation.Outcomes
import RagProject.Generation.Sensitive

/-! When the fallback for insufficient evidence is reported with low confidence. -/
namespace RagProject.Generation
open Python Regex Markers Context

variable [DigitTables]

/-- An output has more to say than short markers. -/
def SaysMore (content : String) : Prop :=
  ∃ c, .plain c ∈ pieces fewDigits (normalizeAnswerText content).toList ∧ isSpace c = false

section Bare
variable {s : List Char}

theorem bare_pieces (bare : ∀ c, .plain c ∈ pieces fewDigits s → isSpace c = true) :
    pieces anyDigits s = pieces fewDigits s := by
  induction s using piece_induction fewDigits with
  | nil => rfl
  | plain c s plain ih =>
    rw [pieces_plain plain] at bare ⊢
    have blank := bare c List.mem_cons_self
    have still : markerAt anyDigits (c :: s) = none := by
      rw [← Option.not_isSome_iff_eq_none, Option.isSome_iff_exists]
      rintro ⟨digits, found⟩
      obtain ⟨_, rest, shape⟩ := markerAt_some.mp found
      obtain ⟨rfl, _⟩ := List.cons_eq_cons.mp (show c :: s = '[' :: _ from shape)
      cases blank
    rw [pieces_plain still, ih fun d member => bare d (List.mem_cons_of_mem _ member)]
  | marker digits rest ok ih =>
    rw [pieces_marker ok] at bare ⊢
    have loose : Digits anyDigits digits := ⟨ok.some_digit, ok.decimal, rfl⟩
    rw [pieces_marker loose, ih fun d member => bare d (List.mem_cons_of_mem _ member)]

theorem bare_chars (bare : ∀ c, .plain c ∈ pieces fewDigits s → isSpace c = true) :
    ∀ c ∈ s, c = '[' ∨ c = ']' ∨ isDecimal c = true ∨ isSpace c = true := by
  induction s using piece_induction fewDigits with
  | nil => exact fun c member => nomatch member
  | plain d s plain ih =>
    rw [pieces_plain plain] at bare
    intro c member
    rcases List.mem_cons.mp member with rfl | later
    · exact .inr (.inr (.inr (bare c List.mem_cons_self)))
    · exact ih (fun e there => bare e (List.mem_cons_of_mem _ there)) c later
  | marker digits rest ok ih =>
    rw [pieces_marker ok] at bare
    intro c member
    rcases List.mem_append.mp member with here | later
    · simp only [bracketed, List.cons_append, List.mem_cons, List.mem_append, List.not_mem_nil,
        or_false] at here
      rcases here with rfl | digit | rfl
      · exact .inl rfl
      · exact .inr (.inr (.inl (ok.decimal c digit)))
      · exact .inr (.inl rfl)
    · exact ih (fun e there => bare e (List.mem_cons_of_mem _ there)) c later

/-- Markers alone are no secret and no address. -/
theorem bare_safe (bare : ∀ c, .plain c ∈ pieces fewDigits s → isSpace c = true) :
    search sensitiveOutputRe s = false := by
  have sign {c : Char} (member : c ∈ s) (other : c = ':' ∨ c = '=' ∨ c = '@') : False := by
    rcases bare_chars bare c member with rfl | rfl | decimal | blank
    · simp at other
    · simp at other
    · rcases other with rfl | rfl | rfl <;> cases decimal
    · rcases other with rfl | rfl | rfl <;> cases blank
  rw [← Bool.not_eq_true, sensitive_iff]
  rintro (⟨a, u, rest, shape, assignment, _⟩ | ⟨a, u, rest, shape, email⟩)
  · obtain ⟨c, inside, is_sign⟩ := assignment_sign assignment
    exact sign (shape ▸ by simp [inside]) (is_sign.imp_right .inl)
  · exact sign (shape ▸ by simp [email_at email]) (.inr (.inr rfl))

/-- Markers alone do not say that the evidence is insufficient. -/
theorem bare_not_insufficient {lines : List (List (List Char))} (ok : ∀ line ∈ lines, Line line)
    (bare : ∀ c, .plain c ∈ pieces fewDigits (layout lines) → isSpace c = true) :
    isInsufficientEvidenceAnswer (String.ofList (layout lines)) = false := by
  have blanks : ∀ c ∈ layout lines, c = '[' ∨ c = ']' ∨ isDecimal c = true ∨ c = ' ' ∨ c = '\n' := by
    intro c member
    rcases bare_chars bare c member with bracket | bracket | decimal | blank
    · exact .inl bracket
    · exact .inr (.inl bracket)
    · exact .inr (.inr (.inl decimal))
    · rcases join_chars member with br | ⟨text, inside, there⟩
      · exact .inr (.inr (.inr (.inr (List.mem_singleton.mp br))))
      · obtain ⟨words, line, rfl⟩ := List.mem_map.mp inside
        rcases join_chars there with between | ⟨w, word, deeper⟩
        · exact .inr (.inr (.inr (.inl (List.mem_singleton.mp between))))
        · rw [((ok words line).words w word).1.solid c deeper] at blank
          cases blank
  have fixed : ∀ c ∈ layout lines, lower [c] = [c] ∧ c ≠ '\x00' := by
    intro c member
    rcases blanks c member with rfl | rfl | decimal | rfl | rfl
    · exact ⟨rfl, by decide⟩
    · exact ⟨rfl, by decide⟩
    · refine ⟨lower_decimal decimal, ?_⟩
      rintro rfl
      rw [decimal_zero] at decimal
      cases decimal
    · exact ⟨rfl, by decide⟩
    · exact ⟨rfl, by decide⟩
  have lowered : withoutNul (lower (layout lines)) = layout lines := by
    rw [lower_fixed fun c member => (fixed c member).1,
      withoutNul_eq fun zero => (fixed _ zero).2 rfl]
  have kept : removePrefixes (layout lines).length (layout lines) = layout lines := by
    cases shape : layout lines with
    | nil => rfl
    | cons c rest =>
      have open_bracket : c = '[' := by
        cases found : markerAt fewDigits (c :: rest) with
        | none =>
          rw [shape, pieces_plain found] at bare
          have blank := bare c List.mem_cons_self
          rw [layout_head ok shape] at blank
          cases blank
        | some digits =>
          obtain ⟨_, _, marker⟩ := markerAt_some.mp found
          exact (List.cons_eq_cons.mp (show c :: rest = '[' :: _ from marker)).1
      have none_there : answerPrefixRe.ends ⟨none, c :: rest⟩ = [] := by
        rw [open_bracket]
        exact ends_nil (by decide +kernel) (by decide +kernel)
      simp only [List.length_cons, removePrefixes, removeStart, none_there, List.map_nil,
        List.foldl_nil, if_true]
  have nothing : splitWords (withoutMarkers fewDigits (layout lines)) = [] := by
    rw [splitWords_eq_nil]
    exact fun c member => bare c (mem_withoutMarkers.mp member)
  have candidate : standaloneInsufficientEvidenceCandidate (layout lines) = [] := by
    unfold standaloneInsufficientEvidenceCandidate
    simp only [lowered, kept, nothing]
    rfl
  unfold isInsufficientEvidenceAnswer
  rw [String.toList_ofList]
  simp only [candidate, if_true]

end Bare

section Reported
variable {content : String} {contextItems : List GenerationContextItem} {first : CitationSource}
  {rest : List CitationSource} {allowInsufficient allowValidation : Bool}
  {settings : ConfidenceSettings}

/-- When the answer is the fallback, the flag is set, and what ask stores with it is low. -/
def ReportedLow (settings : ConfidenceSettings) (content : String)
    (contextItems : List GenerationContextItem) (first : CitationSource)
    (rest : List CitationSource) (allowInsufficient allowValidation : Bool) : Prop :=
  ∀ parsed cited flag,
    validatedGenerationOrFallback content contextItems (first :: rest) allowInsufficient
      allowValidation = .ok (parsed, cited, flag) →
    parsed.answerText = fallbackText first.localCitationId →
    flag = true ∧ ∀ inputs, (storedConfidence inputs flag settings).confidenceLabel = .low ∧
      (storedConfidence inputs flag settings).answerConfidence < settings.confidenceMediumThreshold

theorem saysMore_iff : strip (withoutMarkers fewDigits (normalizeAnswerText content).toList) ≠ [] ↔
    SaysMore content := by
  rw [ne_eq, strip_eq_nil]
  simp only [mem_withoutMarkers, SaysMore, not_forall, Bool.not_eq_true, exists_prop]

/-- An output of nothing but markers ends in the fallback, with the flag of a repair. -/
theorem bare_fallback (ok : SourcesOk (first :: rest))
    (small : first.localCitationId < 10 ^ maxMarkerDigits) (bare : ¬SaysMore content)
    (quotes : contextItems.any (quotesContext (normalizeAnswerText content)) = false) :
    ∃ parsed cited, validatedGenerationOrFallback content contextItems (first :: rest)
        allowInsufficient false = .ok (parsed, cited, false) ∧
      parsed.answerText = fallbackText first.localCitationId := by
  have blank : ∀ c, .plain c ∈ pieces fewDigits (normalizeAnswerText content).toList →
      isSpace c = true := by
    intro c member
    by_contra shows
    exact bare ⟨c, member, by simpa using shows⟩
  have same := bare_pieces blank
  have short : ShortMarkers (normalizeAnswerText content) := by
    intro digits member
    rw [same] at member
    exact of_decide_eq_true (pieces_digits member).fits
  obtain ⟨lines, lined, shape⟩ := normalized_lines content
  have sufficient : isInsufficientEvidenceAnswer (normalizeAnswerText content) = false := by
    have told := bare_not_insufficient lined (shape ▸ blank)
    rw [← shape, String.ofList_toList] at told
    exact told
  have safe : validateGenerationOutputSafety (normalizeAnswerText content) contextItems = .ok () := by
    unfold validateGenerationOutputSafety
    rw [bare_safe blank, if_neg Bool.false_ne_true, quotes, if_neg Bool.false_ne_true]
  obtain ⟨out, fallback⟩ := (fallback_iff ok).mpr small
  refine ⟨out.1, out.2, ?_, fallback_answer ok fallback⟩
  have parsed : parseGenerationOutput content = .ok (parsedOf (normalizeAnswerText content)) :=
    parse_ok.mpr ⟨short, rfl⟩
  have unsaid := not_not.mp (mt saysMore_iff.mp bare)
  have repaired : repairGenerationCitations (parsedOf (normalizeAnswerText content))
      (first :: rest) = .ok out := by
    unfold repairGenerationCitations
    simp only [parsedOf_text, unsaid, if_true, fallback]
  have rejected : ∃ e, validateGenerationCitations (parsedOf (normalizeAnswerText content))
      (first :: rest) = .error e := by
    cases valid : validateGenerationCitations (parsedOf (normalizeAnswerText content))
        (first :: rest) with
    | error e => exact ⟨e, rfl⟩
    | ok cited =>
      obtain ⟨_, ⟨c, member, shows⟩, _⟩ := (validate_iff ok).mp valid
      rw [parsedOf_text, same] at member
      rw [blank c member] at shows
      cases shows
  obtain ⟨e, rejected⟩ := rejected
  unfold validatedGenerationOrFallback
  simp only [parsed, parsedOf_text, sufficient, Bool.false_eq_true, if_false, safe, rejected, repaired]
  rfl

/-- The fallback is reported low unless the output is nothing but markers, all checks let it pass
and no retry came before: then the repair makes the fallback. -/
theorem fallback_low_iff (ok : SourcesOk (first :: rest))
    (above : 1 / 100 < settings.confidenceMediumThreshold)
    (unit : settings.confidenceMediumThreshold ≤ 1) :
    ReportedLow settings content contextItems first rest allowInsufficient allowValidation ↔
      allowValidation = true ∨ SaysMore content ∨
        contextItems.any (quotesContext (normalizeAnswerText content)) = true ∨
        10 ^ maxMarkerDigits ≤ first.localCitationId := by
  constructor
  · intro low
    by_contra other
    simp only [not_or, Bool.not_eq_true, not_le] at other
    obtain ⟨strict, bare, quotes, small⟩ := other
    subst strict
    obtain ⟨parsed, cited, done, text⟩ := bare_fallback ok small bare quotes
    cases (low parsed cited false done text).1
  · intro when_ok parsed cited flag done text
    have raised : flag = true := by
      rcases validated_cases done with ⟨set, _⟩ | ⟨_, accepted, valid | ⟨strict, _, repaired⟩⟩
      · exact set
      · exfalso
        obtain ⟨_, rfl⟩ := valid
        have one := ok.positive first List.mem_cons_self
        obtain ⟨n, number⟩ := Int.eq_ofNat_of_zero_le (Int.le_trans (by decide : (0 : Int) ≤ 1) one)
        rw [parsedOf_text, number] at text
        have told := fallbackText_insufficient (text ▸ accepted.short)
        rw [← text, accepted.sufficient] at told
        cases told
      · exfalso
        by_cases bare : SaysMore content
        · exact (repaired_text ok accepted repaired (saysMore_iff.mpr bare)).2 text
        · rcases repair_cases repaired with ⟨_, fallback⟩ | ⟨shows, _⟩
          · have small := (fallback_iff ok).mp ⟨_, fallback⟩
            rcases when_ok with retried | more | quotes | large
            · rw [strict] at retried
              cases retried
            · exact bare more
            · have safe := accepted.safe
              unfold validateGenerationOutputSafety at safe
              rw [quotes] at safe
              split at safe <;> cases safe
            · omega
          · exact bare (saysMore_iff.mp shows)
    subst raised
    exact ⟨rfl, fun inputs => storedConfidence_low inputs above unit⟩

def numberedSource (localCitationId : Int) : CitationSource where
  localCitationId := localCitationId
  retrievalRunItemId := 1
  documentChunkId := 1
  sourceLabel := "Travel policy"
  snippet := "Flights are booked in economy."
  pageFrom := none
  pageTo := none
  sectionTitle := none
  sourceType := "upload"
  sourceUrl := none

def usualThresholds : ConfidenceSettings := ⟨80 / 100, 50 / 100, 80 / 100, 50 / 100⟩

omit [DigitTables] in
theorem numberedSource_ok : SourcesOk [numberedSource 1] :=
  ⟨by decide, by decide, by decide⟩

omit [DigitTables] in
theorem fallback_low_sentence :
    let _ : DigitTables := asciiDigits
    ReportedLow usualThresholds "Flights are booked in economy [7]." [] (numberedSource 1) [] true
        false ↔
      false = true ∨ SaysMore "Flights are booked in economy [7]." ∨
        ([] : List GenerationContextItem).any
          (quotesContext (normalizeAnswerText "Flights are booked in economy [7].")) = true ∨
        10 ^ maxMarkerDigits ≤ (numberedSource 1).localCitationId :=
  let _ : DigitTables := asciiDigits
  fallback_low_iff numberedSource_ok (by norm_num [usualThresholds]) (by norm_num [usualThresholds])

omit [DigitTables] in
/-- A marker alone, of a source that does not exist, is answered with the fallback of a repair. -/
theorem marker_alone :
    let _ : DigitTables := asciiDigits
    SourcesOk [numberedSource 1] ∧
      ¬ReportedLow usualThresholds "[9]" [] (numberedSource 1) [] true false := by
  intro tables
  refine ⟨numberedSource_ok, fun low => ?_⟩
  have run : validatedGenerationOrFallback "[9]" [] [numberedSource 1] true false =
      .ok (⟨fallbackText 1, [⟨1, 35, 38⟩], [1]⟩, [numberedSource 1], false) := by decide +kernel
  cases (low _ _ _ run rfl).1

end Reported

end RagProject.Generation
