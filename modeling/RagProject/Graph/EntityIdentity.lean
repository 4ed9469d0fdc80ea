import Mathlib.Logic.Relation
import RagProject.Graph.Normalization
import RagProject.Lib.Matching

/-! Which spellings of a label come to one entity. -/
namespace RagProject.Graph
open Python Regex

def isSeparator (c : Char) : Bool := isSpace c || c == '_' || c == '-'

def isPunctuation (c : Char) : Bool := surroundingPunctuation.contains c

/-- What is relied on of the character tables: NFKC is idempotent, holds for the parts of a text
and on both sides of a blank; a character that NFKC leaves outside ASCII is not lowered into
ASCII, and lowering makes neither blanks nor ASCII characters that are no letters. -/
structure LabelLaws [LabelText] : Prop where
  again : ∀ s : List Char, LabelText.nfkc (LabelText.nfkc s) = LabelText.nfkc s
  part : ∀ s t : List Char, LabelText.nfkc s = s → t <:+: s → LabelText.nfkc t = t
  cut : ∀ s t : List Char,
    LabelText.nfkc (s ++ ' ' :: t) = LabelText.nfkc s ++ ' ' :: LabelText.nfkc t
  blank : ∀ c : Char, 128 ≤ c.toNat → isSpace c = true → UnicodeTables.lower c = [c]
  graphic : ∀ c : Char, 128 ≤ c.toNat → isSpace c = false →
    UnicodeTables.lower c ≠ [] ∧ ∀ d ∈ UnicodeTables.lower c, isSpace d = false
  letters : ∀ c : Char, 128 ≤ c.toNat → ∀ d ∈ UnicodeTables.lower c, d.toNat < 128 →
    d.isAlpha = true
  foreign : ∀ s : List Char, ∀ c ∈ LabelText.nfkc s, 128 ≤ c.toNat →
    ∃ d ∈ UnicodeTables.lower c, 128 ≤ d.toNat

section Spaced

/-- str.replace("_", " ") and str.replace("-", " "), of one character. -/
def blankOf (c : Char) : Char := if c = '_' ∨ c = '-' then ' ' else c

theorem replaced (s : List Char) :
    replaceChar '-' ' ' (replaceChar '_' ' ' s) = s.map blankOf := by
  unfold replaceChar
  rw [List.map_map]
  apply List.map_congr_left
  intro c _
  unfold blankOf
  simp only [Function.comp]
  by_cases under : c = '_'
  · rw [under]
    rfl
  · simp only [under, if_false, false_or]

theorem spaced_eq (s : List Char) : spaced s = join [' '] (splitWords (s.map blankOf)) := by
  unfold spaced
  rw [replaced, strip_collapse]

theorem blankOf_separator (c : Char) : isSpace (blankOf c) = isSeparator c := by
  unfold blankOf isSeparator
  split
  · rename_i either
    rcases either with rfl | rfl <;> rfl
  · rename_i neither
    obtain ⟨under, dash⟩ := not_or.mp neither
    rw [beq_false_of_ne under, beq_false_of_ne dash, Bool.or_false, Bool.or_false]

theorem blankOf_graphic {c : Char} (graphic : isSeparator c = false) : blankOf c = c := by
  unfold blankOf
  rw [if_neg]
  rintro (rfl | rfl) <;> cases graphic

theorem words_of_spaced (s : List Char) : ∀ w ∈ splitWords (s.map blankOf), Word w :=
  fun _ member => word_of_split member

/-- What is no separator stays, in order. -/
theorem spaced_graphic (s : List Char) :
    (spaced s).filter (!isSpace ·) = s.filter (!isSeparator ·) := by
  rw [spaced_eq, join_graphic (words_of_spaced s), splitWords_flatten, List.filter_map]
  have same : ((!isSpace ·) ∘ blankOf) = (!isSeparator ·) := by
    funext c
    simp [blankOf_separator]
  have each : ∀ c ∈ s.filter (!isSeparator ·), blankOf c = id c := fun c member =>
    blankOf_graphic (by simpa using (List.mem_filter.mp member).2)
  rw [same, List.map_congr_left each, List.map_id]

theorem strip_spaced (s : List Char) : strip (spaced s) = spaced s := by
  rw [spaced_eq]
  exact strip_join (words_of_spaced s)

theorem spaced_spaced (s : List Char) : spaced (spaced s) = spaced s := by
  have each : ∀ c ∈ spaced s, blankOf c = id c := by
    intro c member
    rw [spaced_eq] at member
    unfold blankOf
    rw [if_neg, id]
    intro either
    have absent : ∀ d ∈ s.map blankOf, d ≠ '_' ∧ d ≠ '-' := by
      intro d there
      obtain ⟨x, _, rfl⟩ := List.mem_map.mp there
      unfold blankOf
      split
      · decide
      · rename_i neither
        exact not_or.mp neither
    rcases join_chars member with blank | ⟨w, there, inside⟩
    · rw [List.mem_singleton] at blank
      rcases either with rfl | rfl <;> cases blank
    · obtain ⟨under, dash⟩ := absent c (splitWords_chars there c inside)
      exact either.elim under dash
  rw [spaced_eq (spaced s), List.map_congr_left each, List.map_id, spaced_eq,
    splitWords_join (words_of_spaced s)]

end Spaced

section Lowered
variable [LabelText]

theorem lower_char (c : Char) :
    lower [c] = if c.toNat < 128 then [c.toLower] else UnicodeTables.lower c := by
  unfold lower
  rw [List.flatMap_singleton]

omit [LabelText] in
theorem toLower_far {c : Char} (far : 128 ≤ c.toNat) : c.toLower = c := by
  unfold Char.toLower
  rw [dif_neg]
  rintro ⟨_, upper⟩
  exact Nat.not_lt.mpr far (Nat.lt_of_le_of_lt upper (by decide))

omit [LabelText] in
/-- A class that does not tell the cases of ASCII letters apart. -/
theorem toLower_class {p : Char → Bool}
    (small : ∀ n < 128, p (Char.ofNat n).toLower = p (Char.ofNat n)) (c : Char) :
    p c.toLower = p c := by
  by_cases ascii : c.toNat < 128
  · have one := small c.toNat ascii
    rwa [Char.ofNat_toNat] at one
  · rw [toLower_far (Nat.le_of_not_lt ascii)]

omit [LabelText] in
theorem toLower_cases (c : Char) : c.toLower = c ∨ (c.isAlpha = true ∧ c.toLower.isAlpha = true) := by
  by_cases ascii : c.toNat < 128
  · have all : ∀ n < 128, (Char.ofNat n).toLower = Char.ofNat n ∨
        ((Char.ofNat n).isAlpha = true ∧ (Char.ofNat n).toLower.isAlpha = true) := by decide +kernel
    have one := all c.toNat ascii
    rwa [Char.ofNat_toNat] at one
  · exact .inl (toLower_far (Nat.le_of_not_lt ascii))

/-- A class of ASCII characters that are no letters. -/
theorem ascii_stable (laws : LabelLaws) {p : Char → Bool}
    (small : ∀ c, p c = true → c.toNat < 128 ∧ c.isAlpha = false) : CaseStable p := by
  constructor
  · intro c inside
    obtain ⟨ascii, letter⟩ := small c inside
    rw [lower_char, if_pos ascii]
    rcases toLower_cases c with same | ⟨there, _⟩
    · rw [same]
    · rw [letter] at there
      cases there
  · intro c outside
    rw [lower_char]
    split
    · refine ⟨by simp, fun d member => ?_⟩
      rw [List.mem_singleton.mp member]
      rcases toLower_cases c with same | ⟨_, there⟩
      · rw [same]
        exact outside
      · by_contra inside
        rw [(small _ (by simpa using inside)).2] at there
        cases there
    · rename_i far
      have far : 128 ≤ c.toNat := Nat.le_of_not_lt far
      constructor
      · by_cases blank : isSpace c = true
        · simp [laws.blank c far blank]
        · exact (laws.graphic c far (by simpa using blank)).1
      · intro d member
        by_contra inside
        obtain ⟨ascii, letter⟩ := small d (by simpa using inside)
        rw [laws.letters c far d member ascii] at letter
        cases letter

theorem blank_stable (laws : LabelLaws) : CaseStable isSpace := by
  constructor
  · intro c blank
    rw [lower_char]
    split
    · rename_i ascii
      rcases toLower_cases c with same | ⟨letter, _⟩
      · rw [same]
      · have all : ∀ n < 128, isSpace (Char.ofNat n) = true → (Char.ofNat n).isAlpha = false := by
          decide +kernel
        have one := all c.toNat ascii
        rw [Char.ofNat_toNat] at one
        rw [one blank] at letter
        cases letter
    · rename_i far
      exact laws.blank c (Nat.le_of_not_lt far) blank
  · intro c graphic
    rw [lower_char]
    split
    · rename_i ascii
      exact ⟨by simp, by simpa using (ascii_lower ascii).2.2 graphic⟩
    · rename_i far
      exact laws.graphic c (Nat.le_of_not_lt far) graphic

theorem punctuation_stable (laws : LabelLaws) : CaseStable isPunctuation := by
  apply ascii_stable laws
  intro c inside
  have all : ∀ d ∈ surroundingPunctuation, d.toNat < 128 ∧ d.isAlpha = false := by decide
  exact all c (by simpa [isPunctuation] using inside)

theorem stripChars_lower (laws : LabelLaws) (s : List Char) :
    stripChars surroundingPunctuation (lower s) = lower (stripChars surroundingPunctuation s) := by
  have stable := punctuation_stable laws
  calc stripChars surroundingPunctuation (lower s)
      = ((lower s).dropWhile isPunctuation).rdropWhile isPunctuation := rfl
    _ = (lower (s.dropWhile isPunctuation)).rdropWhile isPunctuation := by
      rw [dropWhile_lower stable]
    _ = lower ((s.dropWhile isPunctuation).rdropWhile isPunctuation) := rdropWhile_lower stable _

theorem blankOf_lower (laws : LabelLaws) (s : List Char) :
    (lower s).map blankOf = lower (s.map blankOf) := by
  have stable : CaseStable fun c => c == '_' || c == '-' := by
    apply ascii_stable laws
    intro c either
    rcases Bool.or_eq_true_iff.mp either with same | same
    · rw [beq_iff_eq.mp same]
      decide
    · rw [beq_iff_eq.mp same]
      decide
  induction s with
  | nil => rfl
  | cons c s ih =>
    rw [lower_cons, List.map_append, ih, List.map_cons, lower_cons (blankOf c)]
    congr 1
    by_cases inside : c = '_' ∨ c = '-'
    · rcases inside with rfl | rfl <;> rfl
    · have outside : blankOf c = c := if_neg inside
      obtain ⟨_, apart⟩ := stable.apart c (by simpa using inside)
      have each : ∀ d ∈ lower [c], blankOf d = id d := by
        intro d member
        have other := apart d member
        exact if_neg (by simpa using other)
      rw [outside, List.map_congr_left each, List.map_id]

theorem lower_spaced (laws : LabelLaws) (s : List Char) : lower (spaced s) = spaced (lower s) := by
  rw [spaced_eq, spaced_eq, lower_join, blankOf_lower laws, splitWords_lower (blank_stable laws)]

end Lowered

section Respelled
variable [LabelText]

/-- One change of the spelling: the case of letters, punctuation around the label, or what stands
between its parts. -/
inductive Respelled : List Char → List Char → Prop where
  | letterCase {a b : List Char} (same : lower a = lower b) : Respelled a b
  | punctuation {front back : List Char} (a : List Char)
      (before : ∀ c ∈ front, c ∈ surroundingPunctuation)
      (after : ∀ c ∈ back, c ∈ surroundingPunctuation) : Respelled a (front ++ a ++ back)
  | separators {s t : List Char} (a b : List Char) (some : s ≠ []) (other : t ≠ [])
      (left : ∀ c ∈ s, isSeparator c = true) (right : ∀ c ∈ t, isSeparator c = true) :
      Respelled (a ++ s ++ b) (a ++ t ++ b)

/-- The name a label comes to, in lower case. -/
def plainName (s : List Char) : List Char := lower (spaced (stripChars surroundingPunctuation s))

omit [LabelText] in
theorem splitWords_separators {s : List Char} (some : s ≠ [])
    (between : ∀ c ∈ s, isSeparator c = true) (a b : List Char) :
    splitWords ((a ++ s ++ b).map blankOf) =
      splitWords (a.map blankOf) ++ splitWords (b.map blankOf) := by
  obtain ⟨c, s, rfl⟩ := List.exists_cons_of_ne_nil some
  have blanks : ∀ d ∈ c :: s, isSpace (blankOf d) = true := fun d member =>
    (blankOf_separator d).trans (between d member)
  have rest : ∀ (u : List Char), (∀ d ∈ u, isSpace (blankOf d) = true) →
      splitWords ((u ++ b).map blankOf) = splitWords (b.map blankOf) := by
    intro u blanks
    induction u with
    | nil => rfl
    | cons d u ih =>
      rw [List.cons_append, List.map_cons, splitWords_blank (blanks d List.mem_cons_self),
        ih fun e member => blanks e (List.mem_cons_of_mem _ member)]
  rw [List.append_assoc, List.cons_append, List.map_append, List.map_cons,
    splitWords_cut (blanks c List.mem_cons_self),
    rest s fun d member => blanks d (List.mem_cons_of_mem _ member)]

theorem plainName_separators {s : List Char} (some : s ≠ [])
    (between : ∀ c ∈ s, isSeparator c = true) (a b : List Char) :
    plainName (a ++ s ++ b) = lower (join [' ']
      (splitWords ((a.dropWhile isPunctuation).map blankOf) ++
        splitWords ((b.rdropWhile isPunctuation).map blankOf))) := by
  have foreign : ∀ d, isSeparator d = true → d ∉ surroundingPunctuation := by
    intro d separator member
    have none : ∀ e ∈ surroundingPunctuation, isSeparator e = false := by decide
    rw [none d member] at separator
    cases separator
  unfold plainName
  rw [stripChars_between some fun d member => foreign d (between d member)]
  rw [spaced_eq, splitWords_separators some between]
  rfl

theorem plainName_respelled (laws : LabelLaws) {a b : List Char} (step : Respelled a b) :
    plainName a = plainName b := by
  cases step with
  | letterCase same =>
    unfold plainName
    rw [lower_spaced laws, lower_spaced laws, ← stripChars_lower laws, same,
      stripChars_lower laws]
  | punctuation _ before after =>
    unfold plainName
    rw [stripChars_around a before after]
  | separators a b some other left right =>
    rw [plainName_separators some left, plainName_separators other right]

end Respelled

section Stable
variable [LabelText]

omit [LabelText] in
theorem splitWords_part {s w : List Char} (member : w ∈ splitWords s) : w <:+: s := by
  induction s using words_induction with
  | nil => cases member
  | blank b s space ih =>
    rw [splitWords_blank space] at member
    exact (ih member).trans (List.suffix_cons b s).isInfix
  | word v word =>
    rw [splitWords_word word, List.mem_singleton] at member
    exact member ▸ List.infix_refl v
  | cut v b s word space ih =>
    rw [splitWords_append word space] at member
    rcases List.mem_cons.mp member with rfl | later
    · exact (List.prefix_append w _).isInfix
    · rw [splitWords_blank space] at ih
      exact (ih later).trans (List.suffix_append v _).isInfix

omit [LabelText] in
/-- The words between separators stand in the text as they are. -/
theorem words_part {s w : List Char} (member : w ∈ splitWords (s.map blankOf)) : w <:+: s := by
  obtain ⟨front, back, whole⟩ := splitWords_part member
  obtain ⟨u, back', rfl, left, _⟩ := List.map_eq_append_iff.mp whole.symm
  obtain ⟨front', w', rfl, _, inside⟩ := List.map_eq_append_iff.mp left
  have graphic := (word_of_split member).solid
  have each : ∀ c ∈ w', blankOf c = id c := by
    intro c there
    have shows := graphic (blankOf c) (inside ▸ List.mem_map_of_mem there)
    exact blankOf_graphic ((blankOf_separator c).symm.trans shows)
  rw [List.map_congr_left each, List.map_id] at inside
  exact inside ▸ ⟨front', back', rfl⟩

omit [LabelText] in
theorem stripChars_part (chars s : List Char) : stripChars chars s <:+: s :=
  (List.rdropWhile_prefix _ _).isInfix.trans (List.dropWhile_suffix _).isInfix

theorem nfkc_join (laws : LabelLaws) {ws : List (List Char)}
    (each : ∀ w ∈ ws, LabelText.nfkc w = w) :
    LabelText.nfkc (join [' '] ws) = join [' '] ws := by
  fun_induction join [' '] ws with
  | case1 => exact laws.part _ [] (laws.again []) (List.nil_infix)
  | case2 w => exact each w List.mem_cons_self
  | case3 w v ws ih =>
    have later := ih fun u member => each u (List.mem_cons_of_mem _ member)
    rw [List.append_assoc, List.singleton_append, laws.cut, later, each w List.mem_cons_self]

/-- A normalized label is in NFKC. -/
theorem nfkc_spaced (laws : LabelLaws) (s : List Char) :
    LabelText.nfkc (spaced (stripChars surroundingPunctuation (LabelText.nfkc s))) =
      spaced (stripChars surroundingPunctuation (LabelText.nfkc s)) := by
  rw [spaced_eq]
  apply nfkc_join laws
  intro w member
  apply laws.part (LabelText.nfkc s) w (laws.again s)
  exact (words_part member).trans (stripChars_part _ _)

end Stable

section Types
variable [LabelText]

omit [LabelText] in
theorem artifact_classes : artifactRe.keeps Char.toLower := by
  have head := toLower_class (p := fun c => isLetterAscii c || c == '_') (by decide +kernel)
  have part := toLower_class (p := fun c => isLetterAscii c || c.isDigit || c == '_')
    (by decide +kernel)
  have dot := toLower_class (p := fun c => c == '.') (by decide +kernel)
  exact ⟨⟨head, part, trivial⟩, ⟨⟨dot, head, part, trivial⟩, trivial⟩⟩

omit [LabelText] in
theorem artifact_ascii {c : Char} (used : artifactRe.uses c = true) : c.toNat < 128 := by
  have letter : isLetterAscii c = true → c.toNat < 128 := by
    intro inside
    simp only [isLetterAscii, isUpperAscii, isLowerAscii, Bool.or_eq_true, Bool.and_eq_true,
      decide_eq_true_eq] at inside
    rcases inside with ⟨_, below⟩ | ⟨_, below⟩
    · exact Nat.lt_of_le_of_lt below (by decide)
    · exact Nat.lt_of_le_of_lt below (by decide)
  have digit : c.isDigit = true → c.toNat < 128 := by
    intro inside
    simp only [Char.isDigit, Bool.and_eq_true, decide_eq_true_eq] at inside
    exact Nat.lt_of_le_of_lt inside.2 (by decide)
  have sign : ∀ d : Char, d.toNat < 128 → (c == d) = true → c.toNat < 128 := by
    intro d small same
    rw [beq_iff_eq.mp same]
    exact small
  simp only [artifactRe, Regex.sequence, Regex.optional, exactly, List.foldr_cons, List.foldr_nil,
    Pattern.uses, Bool.or_eq_true, Bool.or_false] at used
  have under := sign '_' (by decide)
  have dot := sign '.' (by decide)
  tauto

/-- No character outside ASCII is lowered into ASCII. -/
def Foreign (s : List Char) : Prop :=
  ∀ c ∈ s, 128 ≤ c.toNat → ∃ d ∈ UnicodeTables.lower c, 128 ≤ d.toNat

theorem lower_map {s : List Char} (ascii : ∀ c ∈ s, c.toNat < 128) :
    lower s = s.map Char.toLower := by
  induction s with
  | nil => rfl
  | cons c s ih =>
    rw [lower_cons, lower_char, if_pos (ascii c List.mem_cons_self),
      ih fun d member => ascii d (List.mem_cons_of_mem _ member)]
    rfl

theorem artifact_lower {a b : List Char} (foreign : Foreign b) (same : lower a = lower b)
    (matched : fullMatch artifactRe a = true) : fullMatch artifactRe b = true := by
  have ascii : ∀ c ∈ a, c.toNat < 128 := fun c member =>
    artifact_ascii (fullMatch_uses matched c member)
  have low : ∀ d ∈ lower b, d.toNat < 128 := by
    rw [← same, lower_map ascii]
    intro d member
    obtain ⟨c, there, rfl⟩ := List.mem_map.mp member
    exact (ascii_lower (ascii c there)).1
  have other : ∀ c ∈ b, c.toNat < 128 := by
    intro c member
    by_contra far
    obtain ⟨d, inside, outside⟩ := foreign c member (Nat.le_of_not_lt far)
    have there : d ∈ lower b := by
      refine List.mem_flatMap.mpr ⟨c, member, ?_⟩
      rw [if_neg far]
      exact inside
    exact Nat.not_lt.mpr outside (low d there)
  rw [← fullMatch_map artifact_classes, ← lower_map other, ← same, lower_map ascii,
    fullMatch_map artifact_classes]
  exact matched

theorem type_lower {a b : List Char} (strippedA : strip a = a) (strippedB : strip b = b)
    (foreignA : Foreign a) (foreignB : Foreign b) (same : lower a = lower b)
    (acronym : inferEntityType a = "acronym" ↔ inferEntityType b = "acronym") :
    inferEntityType a = inferEntityType b := by
  have artifact : fullMatch artifactRe a = fullMatch artifactRe b :=
    Bool.eq_iff_iff.mpr ⟨artifact_lower foreignB same, artifact_lower foreignA same.symm⟩
  by_cases upper : inferEntityType a = "acronym"
  · rw [upper, acronym.mp upper]
  · have other := mt acronym.mpr upper
    have lowered : ∀ {s : List Char}, strip s = s → inferEntityType s ≠ "acronym" →
        inferEntityType s =
          if technologyTerms.contains (String.ofList (lower s)) || mentionsTechnology (lower s) then
            "technology"
          else if fullMatch artifactRe s then "artifact" else "concept" := by
      intro s stripped plain
      unfold inferEntityType at plain ⊢
      rw [stripped] at plain ⊢
      dsimp only at plain ⊢
      split at plain
      · exact absurd rfl plain
      · rename_i lower_case
        rw [if_neg lower_case]
    rw [lowered strippedA upper, lowered strippedB other, same, artifact]

end Types

section Identity
variable [LabelText]

theorem validated {maxLength : Nat} {value : String} {result : String}
    (ok : validateSafeGraphLabel maxLength value = .ok result) :
    result = String.ofList (strip value.toList) := by
  unfold validateSafeGraphLabel at ok
  dsimp only at ok
  split at ok
  · cases ok
  · exact (Except.ok.inj ok).symm

/-- What a label that is accepted without a type went through. -/
structure Accepted (value : String) (canonical : List Char) (e : NormalizedGraphEntity) : Prop where
  raw : isSafeRawLabel 255 value = true
  label : normalizeLabel value = some canonical
  person : looksLikePersonName canonical = false
  graph : looksLikeGraphEntity canonical = true
  name : validateSafeGraphLabel 255 (String.ofList canonical) = .ok e.canonicalName
  type : validateSafeGraphLabel 80 (inferEntityType canonical) = .ok e.entityType
  aliases : e.aliases = []

theorem normalize_iff {value : String} {e : NormalizedGraphEntity} :
    normalize value none [] = some e ↔ ∃ canonical, Accepted value canonical e := by
  have passed : ∀ {maxLength : Nat} {text result : String},
      (validateSafeGraphLabel maxLength text).toOption = some result ↔
        validateSafeGraphLabel maxLength text = .ok result := by
    intro maxLength text result
    cases validateSafeGraphLabel maxLength text with
    | error _ => simp [Except.toOption]
    | ok _ => simp [Except.toOption]
  simp only [normalize, Option.bind_eq_bind, Option.bind_eq_some_iff, Option.guard_eq_some',
    Option.all_none, Option.filter_none, Option.getD_none, List.foldl_nil, List.take_nil,
    Option.pure_def, Option.some.injEq, passed, exists_const, Bool.not_eq_true', true_and]
  constructor
  · rintro ⟨raw, canonical, label, person, graph, name, named, kind, kinded, rfl⟩
    exact ⟨canonical, raw, label, person, graph, named, kinded, rfl⟩
  · rintro ⟨canonical, raw, label, person, graph, named, kinded, none⟩
    refine ⟨raw, canonical, label, person, graph, _, named, _, kinded, ?_⟩
    rw [← none]

theorem label_some {value : String} {canonical : List Char}
    (label : normalizeLabel value = some canonical) :
    canonical = spaced (stripChars surroundingPunctuation (LabelText.nfkc value.toList)) ∧
      (2 ≤ canonical.length ∧ canonical.length ≤ 255) := by
  unfold normalizeLabel at label
  dsimp only at label
  split at label
  · cases label
  · rename_i fits
    cases label
    simp only [Bool.or_eq_true, decide_eq_true_eq, not_or, not_lt] at fits
    exact ⟨rfl, fits⟩

theorem inferEntityType_plain (s : List Char) :
    String.ofList (strip (inferEntityType s).toList) = inferEntityType s := by
  unfold inferEntityType
  dsimp only
  split
  · decide
  · split
    · decide
    · split <;> decide

theorem Accepted.fields {value : String} {canonical : List Char} {e : NormalizedGraphEntity}
    (accepted : Accepted value canonical e) : strip canonical = canonical ∧
      e.canonicalName = String.ofList canonical ∧ e.entityType = inferEntityType canonical := by
  have stripped : strip canonical = canonical := by
    rw [(label_some accepted.label).1, strip_spaced]
  refine ⟨stripped, ?_, ?_⟩
  · rw [validated accepted.name, String.toList_ofList, stripped]
  · rw [validated accepted.type, inferEntityType_plain]

/-- When the punctuation around a label is stripped, none is left behind separators. -/
structure Tidy (value : String) : Prop where
  first : ∀ c ∈ ((stripChars surroundingPunctuation (LabelText.nfkc value.toList)).filter
    (!isSeparator ·)).head?, c ∉ surroundingPunctuation
  last : ∀ c ∈ ((stripChars surroundingPunctuation (LabelText.nfkc value.toList)).filter
    (!isSeparator ·)).getLast?, c ∉ surroundingPunctuation

theorem accepted_again (laws : LabelLaws) {value : String} {canonical : List Char}
    {e : NormalizedGraphEntity} (accepted : Accepted value canonical e) (tidy : Tidy value) :
    Accepted e.canonicalName canonical e := by
  obtain ⟨shape, long, fits⟩ := label_some accepted.label
  obtain ⟨stripped, name, _⟩ := accepted.fields
  obtain ⟨first, last, head, tail, graphicHead, graphicTail⟩ :=
    (strip_eq_self.mp stripped).resolve_left (List.ne_nil_of_length_pos (by omega))
  have shown := spaced_graphic (stripChars surroundingPunctuation (LabelText.nfkc value.toList))
  rw [← shape] at shown
  have again : stripChars surroundingPunctuation canonical = canonical := by
    apply stripChars_plain
    · intro c member
      obtain ⟨rest, whole⟩ := List.head?_eq_some_iff.mp head
      rw [head] at member
      apply tidy.first c
      rw [← shown, whole, List.filter_cons_of_pos (by simp [graphicHead])]
      exact member
    · intro c member
      obtain ⟨front, whole⟩ := List.getLast?_eq_some_iff.mp tail
      rw [tail] at member
      apply tidy.last c
      rw [← shown, whole, List.filter_append, List.filter_cons_of_pos (by simp [graphicTail]),
        List.filter_nil, List.getLast?_concat]
      exact member
  have nfkc : LabelText.nfkc canonical = canonical := by
    rw [shape]
    exact nfkc_spaced laws _
  refine ⟨?_, ?_, accepted.person, accepted.graph, accepted.name, accepted.type, accepted.aliases⟩
  · unfold isSafeRawLabel
    rw [name, accepted.name]
    rfl
  · unfold normalizeLabel
    rw [name, String.toList_ofList, nfkc, again]
    have same : spaced canonical = canonical := by rw [shape, spaced_spaced]
    rw [same]
    dsimp only
    rw [if_neg]
    simp only [Bool.or_eq_true, decide_eq_true_eq, not_or, not_lt]
    exact ⟨long, fits⟩

theorem label_foreign (laws : LabelLaws) {value : String} {canonical : List Char}
    (label : normalizeLabel value = some canonical) : Foreign canonical := by
  intro c member far
  rw [(label_some label).1, spaced_eq] at member
  rcases join_chars member with blank | ⟨w, there, inside⟩
  · rw [List.mem_singleton.mp blank] at far
    exact absurd far (by decide)
  · have whole := (words_part there).trans (stripChars_part _ _)
    exact laws.foreign _ c (whole.subset inside) far

theorem plainName_same (laws : LabelLaws) {a b : List Char}
    (related : Relation.EqvGen Respelled a b) : plainName a = plainName b := by
  induction related with
  | rel a b step => exact plainName_respelled laws step
  | refl a => rfl
  | symm a b _ ih => exact ih.symm
  | trans a b c _ _ first second => exact first.trans second

end Identity

section Examples

/-- Labels in ASCII, which NFKC leaves alone. -/
@[reducible] def asciiLabelText : LabelText where
  toGraphText := asciiGraphText
  nfkc s := s
  isUpper s := s.any isUpperAscii && !s.any isLowerAscii

theorem asciiLabelText_laws : @LabelLaws asciiLabelText := by
  let _ : LabelText := asciiLabelText
  refine ⟨fun _ => rfl, fun _ _ _ _ => rfl, fun _ _ => rfl, fun _ _ _ => rfl, ?_, ?_, ?_⟩
  · intro c _ graphic
    refine ⟨List.cons_ne_nil c [], fun d member => ?_⟩
    rw [List.mem_singleton.mp member]
    exact graphic
  · intro c far d member ascii
    rw [List.mem_singleton.mp member] at ascii
    exact absurd ascii (Nat.not_lt.mpr far)
  · intro _ c _ far
    exact ⟨c, List.mem_singleton_self c, far⟩

end Examples

end RagProject.Graph
