import RagProject.Generation.AnswerText
import RagProject.Lib.Fallible

/-! When the markers of an answer are accepted, and when the fallback exists. -/
namespace RagProject.Generation
open Python Markers Context

/-- Sources as the prompt numbers them. -/
structure SourcesOk (sources : List CitationSource) : Prop where
  shows : sources ≠ []
  positive : ∀ source ∈ sources, 1 ≤ source.localCitationId
  distinct : (sources.map (·.localCitationId)).Nodup

section Parsing
variable [DigitTables]

def markerDigits : Piece → Option (List Char)
  | .plain _ => none
  | .marker digits => some digits

theorem markersFrom_ids (start : Nat) (ps : List Piece) :
    (markersFrom start ps).map (·.localCitationId) = (ps.filterMap markerDigits).map intOf := by
  induction ps generalizing start with
  | nil => rfl
  | cons p ps ih =>
    cases p with
    | plain c => exact ih (start + 1)
    | marker digits => exact congrArg (intOf digits :: ·) (ih _)

theorem mem_uniqueInOrder {values : List Nat} {n : Nat} : n ∈ uniqueInOrder values ↔ n ∈ values := by
  constructor
  · exact fun member => (KeepFirst.keepFirst_sublist [] values).subset member
  · intro member
    obtain ⟨kept, there, same⟩ :=
      KeepFirst.key_kept member (List.not_mem_nil : id n ∉ [])
    cases same
    exact there

/-- What is parsed from a normalized text. -/
def parsedOf (text : String) : ParsedGenerationOutput :=
  let markers := markersFrom 0 (pieces anyDigits text.toList)
  ⟨text, markers, uniqueInOrder (markers.map (·.localCitationId))⟩

@[simp] theorem parsedOf_text (text : String) : (parsedOf text).answerText = text := rfl

theorem parse_eq (content : String) :
    parseGenerationOutput content =
      if (pieces anyDigits (normalizeAnswerText content).toList).any tooLong then
        .error (.citationBuild "citation_parse_invalid")
      else .ok (parsedOf (normalizeAnswerText content)) := rfl

/-- Every marker of a text has one to six digits. -/
def ShortMarkers (text : String) : Prop :=
  ∀ digits, .marker digits ∈ pieces anyDigits text.toList → digits.length ≤ maxMarkerDigits

theorem short_iff {text : String} :
    ShortMarkers text ↔ (pieces anyDigits text.toList).any tooLong = false := by
  rw [List.any_eq_false]
  constructor
  · intro short p member
    cases p with
    | plain c => exact Bool.false_ne_true
    | marker digits => simpa [tooLong] using short digits member
  · intro short digits member
    simpa [tooLong] using short _ member

theorem parse_ok {content : String} {parsed : ParsedGenerationOutput} :
    parseGenerationOutput content = .ok parsed ↔
      ShortMarkers (normalizeAnswerText content) ∧ parsed = parsedOf (normalizeAnswerText content) := by
  rw [parse_eq, short_iff]
  cases (pieces anyDigits (normalizeAnswerText content).toList).any tooLong with
  | true => exact ⟨nofun, fun both => nomatch both.1⟩
  | false =>
    rw [if_neg Bool.false_ne_true]
    constructor
    · rintro ⟨⟩
      exact ⟨rfl, rfl⟩
    · rintro ⟨_, rfl⟩
      rfl

theorem ShortMarkers.pieces {text : String} (short : ShortMarkers text) :
    pieces fewDigits text.toList = pieces anyDigits text.toList :=
  pieces_stricter (fun digits member => decide_eq_true (short digits member)) fun _ _ => rfl

theorem parsedOf_ids {text : String} {n : Nat} : n ∈ (parsedOf text).uniqueMarkerIds ↔
    ∃ digits, .marker digits ∈ pieces anyDigits text.toList ∧ intOf digits = n := by
  simp only [parsedOf, mem_uniqueInOrder, markersFrom_ids, List.mem_map, List.mem_filterMap]
  constructor
  · rintro ⟨digits, ⟨p, member, named⟩, rfl⟩
    cases p with
    | plain c => cases named
    | marker other =>
      cases named
      exact ⟨digits, member, rfl⟩
  · rintro ⟨digits, member, rfl⟩
    exact ⟨digits, ⟨_, member, rfl⟩, rfl⟩

theorem parsedOf_markers {text : String} : (parsedOf text).markers = [] ↔
    ∀ digits, .marker digits ∉ pieces anyDigits text.toList := by
  constructor
  · intro none digits member
    have there := parsedOf_ids.mpr ⟨digits, member, rfl⟩
    simp only [parsedOf, mem_uniqueInOrder] at there none
    rw [none] at there
    cases there
  · intro none
    cases shape : (parsedOf text).markers with
    | nil => rfl
    | cons m ms =>
      have there : m.localCitationId ∈ (parsedOf text).uniqueMarkerIds := by
        simp only [parsedOf, mem_uniqueInOrder] at shape ⊢
        rw [shape]
        exact List.mem_cons_self
      obtain ⟨digits, member, _⟩ := parsedOf_ids.mp there
      exact absurd member (none digits)

theorem mem_withoutMarkers {fits : List Char → Bool} {text : List Char} {c : Char} :
    c ∈ withoutMarkers fits text ↔ .plain c ∈ pieces fits text := by
  unfold withoutMarkers textOf
  rw [List.mem_flatMap]
  constructor
  · rintro ⟨p, member, there⟩
    obtain ⟨inside, plain⟩ := List.mem_filter.mp member
    cases p with
    | plain d => exact List.mem_singleton.mp there ▸ inside
    | marker digits => cases plain
  · intro member
    exact ⟨.plain c, List.mem_filter.mpr ⟨member, rfl⟩, List.mem_cons_self⟩

end Parsing

section Validation
variable {sources cited : List CitationSource} {parsed : ParsedGenerationOutput}

theorem mapSources_ok {known : List CitationSource}
    (positive : ∀ source ∈ sources, 1 ≤ source.localCitationId)
    (distinct : ((known ++ sources).map (·.localCitationId)).Nodup) :
    sources.foldlM mapSource known = .ok (known ++ sources) := by
  induction sources generalizing known with
  | nil => rw [List.append_nil]; rfl
  | cons source sources ih =>
    have first := positive source List.mem_cons_self
    have fresh : (known.any (·.localCitationId = source.localCitationId)) = false := by
      rw [List.any_eq_false]
      intro other member same
      rw [List.map_append, List.nodup_append] at distinct
      exact distinct.2.2 _ (List.mem_map_of_mem member) _ (List.mem_map_of_mem List.mem_cons_self)
        (of_decide_eq_true same)
    have step : mapSource known source = .ok (known ++ [source]) := by
      unfold mapSource
      rw [if_neg (by omega), fresh, if_neg Bool.false_ne_true]
    have shape : known ++ source :: sources = (known ++ [source]) ++ sources := by simp
    rw [List.foldlM_cons, step]
    rw [shape] at distinct ⊢
    exact ih (fun other member => positive other (List.mem_cons_of_mem _ member)) distinct

/-- The source that a number stands for. -/
def sourceOf (sources : List CitationSource) (localId : Nat) : Option CitationSource :=
  sources.find? fun source => source.localCitationId = (localId : Int)

theorem sourceOf_some {n : Nat} {source : CitationSource} (found : sourceOf sources n = some source) :
    source ∈ sources ∧ source.localCitationId = n := by
  have named := List.find?_some found
  exact ⟨List.mem_of_find?_eq_some found, of_decide_eq_true named⟩

theorem sourceOf_isSome {n : Nat} :
    (sourceOf sources n).isSome ↔ ∃ source ∈ sources, source.localCitationId = n := by
  rw [sourceOf, List.find?_isSome]
  simp only [decide_eq_true_eq]

variable [DigitTables]

theorem validate_iff (ok : SourcesOk sources) :
    validateGenerationCitations parsed sources = .ok cited ↔
      parsed.markers ≠ [] ∧
      (∃ c, .plain c ∈ pieces anyDigits parsed.answerText.toList ∧ isSpace c = false) ∧
      parsed.uniqueMarkerIds.mapM (sourceOf sources) = some cited := by
  have mapped : sources.foldlM mapSource [] = .ok sources := mapSources_ok ok.positive ok.distinct
  have shows : strip (withoutMarkers anyDigits parsed.answerText.toList) = [] ↔
      ¬∃ c, .plain c ∈ pieces anyDigits parsed.answerText.toList ∧ isSpace c = false := by
    rw [strip_eq_nil]
    simp only [mem_withoutMarkers, not_exists, not_and, Bool.not_eq_false]
  unfold validateGenerationCitations
  by_cases unmarked : parsed.markers = []
  · rw [if_pos unmarked]
    exact ⟨nofun, fun all => absurd unmarked all.1⟩
  · rw [if_neg unmarked]
    by_cases blank : strip (withoutMarkers anyDigits parsed.answerText.toList) = []
    · rw [if_pos blank]
      exact ⟨nofun, fun all => absurd all.2.1 (shows.mp blank)⟩
    · have shown := not_not.mp (mt shows.mpr blank)
      rw [if_neg blank]
      simp only [unmarked, shown, ne_eq, not_false_eq_true, true_and, mapped]
      constructor
      · intro done
        split at done
        · cases done
        · obtain ⟨_, same, done⟩ := Fallible.bind_ok done
          cases same
          split at done
          · cases done
          · split at done
            · cases done
            · split at done
              · cases done
              · next found =>
                cases done
                exact found
      · intro found
        have known : ∀ n ∈ parsed.uniqueMarkerIds, ∃ source ∈ sources, source.localCitationId = n :=
          fun n member => sourceOf_isSome.mp (Fallible.mapM_isSome.mp ⟨cited, found⟩ n member)
        have positive : parsed.uniqueMarkerIds.any (· < 1) = false := by
          rw [List.any_eq_false]
          intro n member low
          obtain ⟨source, inside, same⟩ := known n member
          have one := ok.positive source inside
          simp only [decide_eq_true_eq] at low
          omega
        rw [positive, if_neg Bool.false_ne_true, Fallible.ok_bind]
        cases greatest : (sources.map CitationSource.localCitationId).max? with
        | none =>
          rw [List.max?_eq_none_iff, List.map_eq_nil_iff] at greatest
          exact absurd greatest ok.shows
        | some maxLocalId =>
          have bounded : (parsed.uniqueMarkerIds.any fun (localId : Nat) =>
              decide (maxLocalId < localId)) = false := by
            rw [List.any_eq_false]
            intro n member high
            obtain ⟨source, inside, same⟩ := known n member
            have low := (List.max?_eq_some_iff.mp greatest).2 _
              (List.mem_map_of_mem (f := CitationSource.localCitationId) inside)
            simp only [decide_eq_true_eq] at high
            omega
          have named : (parsed.uniqueMarkerIds.mapM fun (localId : Nat) =>
              sources.find? fun source => source.localCitationId = (localId : Int)) =
                some cited := found
          simp only [bounded, named]
          rw [if_neg Bool.false_ne_true]

/-- The citations are the sources of the markers, in the order of the markers. -/
theorem validate_ids (ok : SourcesOk sources)
    (valid : validateGenerationCitations parsed sources = .ok cited) :
    (cited.map fun source => source.localCitationId.toNat) = parsed.uniqueMarkerIds ∧
      ∀ source ∈ cited, source ∈ sources := by
  obtain ⟨_, _, found⟩ := (validate_iff ok).mp valid
  refine ⟨Fallible.mapM_key found fun n _ source named => ?_, fun source member => ?_⟩
  · rw [(sourceOf_some named).2]
    rfl
  · obtain ⟨n, _, named⟩ := Fallible.mapM_mem found source member
    exact (sourceOf_some named).1

end Validation

end RagProject.Generation
