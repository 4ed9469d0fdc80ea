import Mathlib.Algebra.Group.Int.Defs
import RagProject.Generation.CitationRules
import RagProject.Lib.Matching

/-! The fallback for insufficient evidence: which text it is, and when it exists. -/
namespace RagProject.Generation
open Python Regex Markers Context

section FallbackText

/-- The fallback up to its marker. -/
@[irreducible] def fallbackLead : List Char :=
  "検索された文書には、この質問に直接答えるための十分な根拠がありません".toList

/-- The fallback with the digits of its marker. -/
def fallbackWith (digits : List Char) : List Char :=
  fallbackLead ++ ' ' :: (bracketed digits ++ ['。'])

theorem fallbackText_digits (n : Nat) :
    (fallbackText n).toList = fallbackWith (toString n).toList := by
  have lead : "検索された文書には、この質問に直接答えるための十分な根拠がありません [".toList =
      fallbackLead ++ [' ', '['] := by decide +kernel
  have close : "]。".toList = [']', '。'] := by decide
  have number : toString (n : Int) = toString n := rfl
  unfold fallbackText fallbackWith
  rw [String.toList_append, String.toList_append, lead, close, number]
  simp [bracketed]

theorem fallbackLead_range : fallbackLead.head? = some '検' ∧
    ∀ c ∈ fallbackLead, 0x3001 ≤ c.toNat ∧ c.toNat ≤ 0x9fff := by
  decide +kernel

theorem fallbackLead_word : Word fallbackLead ∧ '\x00' ∉ fallbackLead ∧ '[' ∉ fallbackLead := by
  obtain ⟨first, range⟩ := fallbackLead_range
  have shows : fallbackLead ≠ [] := by
    intro none
    rw [none] at first
    cases first
  refine ⟨⟨shows, fun c member => ?_⟩, fun member => ?_, fun member => ?_⟩
  · obtain ⟨low, high⟩ := range c member
    simp only [isSpace, Bool.or_eq_false_iff, Bool.and_eq_false_iff, decide_eq_false_iff_not,
      beq_eq_false_iff_ne]
    omega
  · exact absurd (range _ member).1 (by decide)
  · exact absurd (range _ member).1 (by decide)

variable [DigitTables] {digits : List Char}

theorem lower_fixed {s : List Char} (fixed : ∀ c ∈ s, lower [c] = [c]) : lower s = s := by
  induction s with
  | nil => rfl
  | cons c s ih =>
    have split : lower (c :: s) = lower [c] ++ lower s := lower_append [c] s
    rw [split, fixed c List.mem_cons_self, ih fun d member => fixed d (List.mem_cons_of_mem _ member)]
    rfl

theorem lower_decimal {c : Char} (decimal : isDecimal c = true) : lower [c] = [c] := by
  unfold isDecimal digitValue at decimal
  by_cases ascii : c.toNat < 128
  · have all : ∀ n < 128, (Char.ofNat n).isDigit → (Char.ofNat n).toLower = Char.ofNat n := by
      decide +kernel
    have one := all c.toNat ascii
    rw [Char.ofNat_toNat] at one
    rw [if_pos ascii] at decimal
    have digit : c.isDigit = true := by
      by_contra other
      simp [other] at decimal
    simp [lower, ascii, one digit]
  · rw [if_neg ascii] at decimal
    have same := DigitTables.caseless c decimal
    simp only [lower, List.flatMap_cons, List.flatMap_nil, if_neg ascii, List.append_nil]
    exact same

theorem lower_kana {c : Char} (low : 0x3000 ≤ c.toNat) (high : c.toNat ≤ 0x9fff) :
    lower [c] = [c] := by
  have wide : ¬c.toNat < 128 := by omega
  simp only [lower, List.flatMap_cons, List.flatMap_nil, if_neg wide, List.append_nil]
  exact DigitTables.kana c low high

theorem pieces_fallback {fits : List Char → Bool} (ok : Digits fits digits) :
    pieces fits (fallbackWith digits) =
      fallbackLead.map Piece.plain ++ .plain ' ' :: [.marker digits, .plain '。'] := by
  have tail : pieces fits (bracketed digits ++ ['。']) = [.marker digits, .plain '。'] := by
    rw [pieces_marker ok]
    rfl
  unfold fallbackWith
  rw [pieces_cut rfl (by decide) (by decide), tail, pieces_free]
  rintro c member rfl
  exact fallbackLead_word.2.2 member

/-- The fallback with any marker says that the evidence is insufficient. -/
theorem fallback_insufficient (ok : Digits fewDigits digits) :
    isInsufficientEvidenceAnswer (String.ofList (fallbackWith digits)) = true := by
  have lowered : withoutNul (lower (fallbackWith digits)) = fallbackWith digits := by
    have fixed : ∀ c ∈ fallbackWith digits, lower [c] = [c] ∧ c ≠ '\x00' := by
      intro c member
      simp only [fallbackWith, bracketed, List.mem_append, List.mem_cons, List.not_mem_nil, or_false,
        List.cons_append] at member
      rcases member with lead | rfl | rfl | (inside | rfl) | rfl
      · obtain ⟨low, high⟩ := fallbackLead_range.2 c lead
        refine ⟨lower_kana (by omega) high, ?_⟩
        rintro rfl
        exact fallbackLead_word.2.1 lead
      · exact ⟨rfl, by decide⟩
      · exact ⟨rfl, by decide⟩
      · refine ⟨lower_decimal (ok.decimal c inside), ?_⟩
        rintro rfl
        have digit := ok.decimal _ inside
        rw [decimal_zero] at digit
        cases digit
      · exact ⟨rfl, by decide⟩
      · exact ⟨lower_kana (by decide) (by decide), by decide⟩
    rw [lower_fixed fun c member => (fixed c member).1,
      withoutNul_eq fun zero => (fixed _ zero).2 rfl]
  have kept : removePrefixes (fallbackWith digits).length (fallbackWith digits) =
      fallbackWith digits := by
    obtain ⟨more, lead⟩ := List.head?_eq_some_iff.mp fallbackLead_range.1
    obtain ⟨rest, shape⟩ : ∃ rest, fallbackWith digits = '検' :: rest :=
      ⟨_, by rw [fallbackWith, lead]; rfl⟩
    rw [shape]
    have none_there : answerPrefixRe.ends ⟨none, '検' :: rest⟩ = [] :=
      ends_nil (by decide +kernel) (by decide +kernel)
    simp only [List.length_cons, removePrefixes, removeStart, none_there, List.map_nil,
      List.foldl_nil, if_true]
  have without : withoutMarkers fewDigits (fallbackWith digits) = fallbackLead ++ [' ', '。'] := by
    have plains : (fallbackLead.map Piece.plain).filter (!Piece.isMarker ·) =
        fallbackLead.map Piece.plain := by
      apply List.filter_eq_self.mpr
      intro p member
      obtain ⟨c, _, rfl⟩ := List.mem_map.mp member
      rfl
    unfold withoutMarkers
    rw [pieces_fallback ok, List.filter_append, plains, textOf, List.flatMap_append]
    exact congrArg (· ++ [' ', '。']) (textOf_plain fallbackLead)
  have words : stripChars edgeNoiseChars
      (join [' '] (splitWords (fallbackLead ++ [' ', '。']))) = fallbackLead := by
    decide +kernel
  have candidate :
      standaloneInsufficientEvidenceCandidate (fallbackWith digits) = fallbackLead := by
    unfold standaloneInsufficientEvidenceCandidate
    simp only [lowered, kept, without, words]
  have japanese : fullMatch standaloneJapaneseInsufficientRe fallbackLead = true := by
    rw [fullMatch_edgeless _ asciiTables (by decide +kernel)]
    decide +kernel
  unfold isInsufficientEvidenceAnswer
  rw [String.toList_ofList]
  simp only [candidate, japanese, Bool.true_or, if_neg fallbackLead_word.1.shows]

end FallbackText

section Fallback
variable [DigitTables]

theorem number_digits (n : Nat) : Digits anyDigits (toString n).toList :=
  ⟨(digits_toString n).1, (digits_toString n).2.1, rfl⟩

theorem pieces_fallbackText (n : Nat) : pieces anyDigits (fallbackText n).toList =
    fallbackLead.map Piece.plain ++ .plain ' ' :: [.marker (toString n).toList, .plain '。'] := by
  rw [fallbackText_digits, pieces_fallback (number_digits n)]

theorem fallbackText_marker {n : Nat} {digits : List Char} :
    .marker digits ∈ pieces anyDigits (fallbackText n).toList ↔ digits = (toString n).toList := by
  rw [pieces_fallbackText]
  simp

theorem fallbackText_short (n : Nat) : ShortMarkers (fallbackText n) ↔ n < 10 ^ maxMarkerDigits := by
  rw [← (digits_toString n).2.2.2 maxMarkerDigits (by decide)]
  constructor
  · exact fun short => short _ (fallbackText_marker.mpr rfl)
  · intro small digits member
    rw [fallbackText_marker.mp member]
    exact small

theorem normalize_fallbackText (n : Nat) : normalizeAnswerText (fallbackText n) = fallbackText n := by
  have lines : ∀ line ∈ [[fallbackLead, bracketed (toString n).toList ++ ['。']]], Line line := by
    intro line member
    cases List.mem_singleton.mp member
    refine ⟨by simp, fun w inside => ?_⟩
    simp only [List.mem_cons, List.not_mem_nil, or_false] at inside
    rcases inside with rfl | rfl
    · exact ⟨fallbackLead_word.1, fallbackLead_word.2.1⟩
    · have solid : ∀ c ∈ bracketed (toString n).toList ++ ['。'], isSpace c = false ∧ c ≠ '\x00' := by
        intro c there
        simp only [bracketed, List.cons_append, List.mem_append, List.mem_cons, List.not_mem_nil,
          or_false] at there
        rcases there with rfl | (digit | rfl) | rfl
        · decide
        · have decimal := (digits_toString n).2.1 c digit
          refine ⟨(digit_plain decimal).2.2, ?_⟩
          rintro rfl
          rw [decimal_zero] at decimal
          cases decimal
        · decide
        · decide
      exact ⟨⟨by simp, fun c there => (solid c there).1⟩, fun zero => (solid _ zero).2 rfl⟩
  have shape : layout [[fallbackLead, bracketed (toString n).toList ++ ['。']]] =
      (fallbackText n).toList := by
    rw [fallbackText_digits]
    simp [layout, join, fallbackWith]
  have same := normalize_layout lines
  rw [shape, String.ofList_toList] at same
  exact same

variable {first : CitationSource} {rest : List CitationSource}

/-- The fallback exists for a first source of at most six digits, and only then. -/
theorem fallback_iff (ok : SourcesOk (first :: rest)) :
    (∃ out, insufficientCitationFallback (first :: rest) = .ok out) ↔
      first.localCitationId < 10 ^ maxMarkerDigits := by
  have one := ok.positive first List.mem_cons_self
  obtain ⟨n, number⟩ := Int.eq_ofNat_of_zero_le (Int.le_trans (by decide : (0 : Int) ≤ 1) one)
  have small : first.localCitationId < 10 ^ maxMarkerDigits ↔ n < 10 ^ maxMarkerDigits := by
    rw [number]
    norm_cast
  rw [small, ← fallbackText_short]
  unfold insufficientCitationFallback
  simp only [number]
  constructor
  · rintro ⟨out, done⟩
    obtain ⟨parsed, first_step, _⟩ := Fallible.bind_ok done
    have short := (parse_ok.mp first_step).1
    rw [normalize_fallbackText] at short
    exact short
  · intro short
    have parsed : parseGenerationOutput (fallbackText n) = .ok (parsedOf (fallbackText n)) := by
      refine parse_ok.mpr ?_
      rw [normalize_fallbackText]
      exact ⟨short, rfl⟩
    have marked : .marker (toString n).toList ∈ pieces anyDigits (fallbackText n).toList :=
      fallbackText_marker.mpr rfl
    have known : ∀ m ∈ (parsedOf (fallbackText n)).uniqueMarkerIds,
        (sourceOf (first :: rest) m).isSome := by
      intro m member
      obtain ⟨digits, inside, rfl⟩ := parsedOf_ids.mp member
      rw [fallbackText_marker.mp inside, (digits_toString n).2.2.1]
      exact sourceOf_isSome.mpr ⟨first, List.mem_cons_self, number⟩
    obtain ⟨cited, found⟩ := Fallible.mapM_isSome.mpr known
    have valid : validateGenerationCitations (parsedOf (fallbackText n)) (first :: rest) =
        .ok cited := by
      refine (validate_iff ok).mpr
        ⟨fun none => parsedOf_markers.mp none _ marked, ⟨'。', ?_, by decide⟩, found⟩
      show Piece.plain '。' ∈ pieces anyDigits (fallbackText n).toList
      rw [pieces_fallbackText]
      simp
    · refine ⟨(parsedOf (fallbackText n), cited), ?_⟩
      rw [parsed]
      show (validateGenerationCitations (parsedOf (fallbackText n)) (first :: rest) >>= fun cited =>
        Except.ok (parsedOf (fallbackText n), cited)) = _
      rw [valid]
      rfl

theorem fallback_answer (ok : SourcesOk (first :: rest))
    {out : ParsedGenerationOutput × List CitationSource}
    (done : insufficientCitationFallback (first :: rest) = .ok out) :
    out.1.answerText = fallbackText first.localCitationId := by
  have one := ok.positive first List.mem_cons_self
  obtain ⟨n, number⟩ := Int.eq_ofNat_of_zero_le (Int.le_trans (by decide : (0 : Int) ≤ 1) one)
  unfold insufficientCitationFallback at done
  obtain ⟨parsed, first_step, done⟩ := Fallible.bind_ok done
  obtain ⟨cited, _, done⟩ := Fallible.bind_ok done
  cases done
  rw [(parse_ok.mp first_step).2, number]
  exact normalize_fallbackText n

end Fallback

end RagProject.Generation
