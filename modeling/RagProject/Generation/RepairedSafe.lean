import RagProject.Generation.Outcomes
import RagProject.Generation.Sensitive

/-! Whether a repaired answer still passes the safety check. -/
namespace RagProject.Generation
open Python Regex Markers Context

variable [DigitTables]

section Conditions
variable (sources : List CitationSource) (first : CitationSource)

/-- The answer in which markers are replaced: one without a marker gets one that names no source. -/
def markedAnswer (text : List Char) : List Char :=
  if (pieces anyDigits text).any Piece.isMarker then text else text ++ ' ' :: bracketed ['0']

/-- A marker names a source. -/
def NamesSource (digits : List Char) : Prop :=
  ∃ source ∈ sources, source.localCitationId = (intOf digits : Int)

/-- The characters before the first blank, where a marker that names no source counts as long as
the one of the first source. -/
def grownRun : List Piece → Nat
  | [] => 0
  | .plain c :: ps => if isSpace c then 0 else 1 + grownRun ps
  | .marker digits :: ps => (repairedDigits sources first digits).length + 2 + grownRun ps

/-- A secret is assigned, with a value that is or grows long enough. -/
def AssignsSecret (text : List Char) : Prop :=
  ∃ a u rest, text = a ++ (u ++ rest) ∧ Matches assignmentRe a.getLast? u rest ∧
    8 ≤ grownRun sources first (pieces anyDigits rest)

/-- A text has the characters of an answer, and the marker of the first source where the answer has
one that names no source. -/
inductive Agrees : List Piece → List Char → Prop where
  | nil : Agrees [] []
  | plain (c : Char) {ps : List Piece} {t : List Char} (later : Agrees ps t) :
      Agrees (.plain c :: ps) (c :: t)
  | valid {digits : List Char} {ps : List Piece} {t : List Char} (names : NamesSource sources digits)
      (later : Agrees ps t) : Agrees (.marker digits :: ps) (bracketed digits ++ t)
  | invalid {digits : List Char} {ps : List Piece} {t : List Char}
      (other : ¬NamesSource sources digits) (later : Agrees ps t) :
      Agrees (.marker digits :: ps) (bracketed (toString first.localCitationId).toList ++ t)

/-- A long context text is a part of a text that agrees with the cleaned answer. -/
def CopiesContext (contextItems : List GenerationContextItem) (text : List Char) : Prop :=
  ∃ item ∈ contextItems, verbatimChars ≤ (cleanText item.text).length ∧ ∃ front back,
    Agrees sources first (pieces anyDigits (cleanText (String.ofList text)).toList)
      (front ++ ((cleanText item.text).toList ++ back))

end Conditions

section Rewritten
variable {sources : List CitationSource} {first : CitationSource} {n : Nat}

theorem repairedDigits_valid {digits : List Char} (names : NamesSource sources digits) :
    repairedDigits sources first digits = digits := by
  unfold repairedDigits
  apply if_pos
  obtain ⟨source, member, same⟩ := names
  exact List.any_eq_true.mpr ⟨source, member, decide_eq_true same⟩

theorem repairedDigits_invalid {digits : List Char} (other : ¬NamesSource sources digits) :
    repairedDigits sources first digits = (toString first.localCitationId).toList := by
  unfold repairedDigits
  apply if_neg
  intro some_source
  obtain ⟨source, member, same⟩ := List.any_eq_true.mp some_source
  exact other ⟨source, member, of_decide_eq_true same⟩

theorem agrees_iff {ps : List Piece} {t : List Char} :
    Agrees sources first ps t ↔ t = textOf (ps.map (Piece.relabel (repairedDigits sources first))) := by
  constructor
  · intro agrees
    induction agrees with
    | nil => rfl
    | plain c later ih => exact congrArg (c :: ·) ih
    | valid names later ih =>
      rw [ih, List.map_cons, Piece.relabel, repairedDigits_valid names]
      rfl
    | invalid other later ih =>
      rw [ih, List.map_cons, Piece.relabel, repairedDigits_invalid other]
      rfl
  · rintro rfl
    induction ps with
    | nil => exact .nil
    | cons p ps ih =>
      cases p with
      | plain c => exact .plain c ih
      | marker digits =>
        rw [List.map_cons, Piece.relabel]
        by_cases names : NamesSource sources digits
        · rw [repairedDigits_valid names]
          exact .valid names ih
        · rw [repairedDigits_invalid names]
          exact .invalid names ih

theorem grownRun_eq (number : first.localCitationId = n) {ps : List Piece}
    (decimal : ∀ digits, .marker digits ∈ ps → Digits anyDigits digits) :
    ((textOf (ps.map (Piece.relabel (repairedDigits sources first)))).takeWhile
      fun c => !isSpace c).length = grownRun sources first ps := by
  induction ps with
  | nil => rfl
  | cons p ps ih =>
    have rest := ih fun digits member => decimal digits (List.mem_cons_of_mem _ member)
    cases p with
    | plain c =>
      show ((c :: textOf (ps.map _)).takeWhile _).length = _
      rw [List.takeWhile_cons, grownRun]
      by_cases blank : isSpace c = true
      · simp [blank]
      · simp only [blank, Bool.not_false, Bool.false_eq_true, if_false, if_true, List.length_cons, rest]
        omega
    | marker digits =>
      have ok : Digits anyDigits (repairedDigits sources first digits) :=
        repairedDigits_ok number (decimal digits List.mem_cons_self)
      have solid : ∀ c ∈ bracketed (repairedDigits sources first digits), (!isSpace c) = true := by
        intro c member
        simp only [bracketed, List.cons_append, List.mem_cons, List.mem_append, List.not_mem_nil,
          or_false] at member
        rcases member with rfl | digit | rfl
        · rfl
        · rw [(digit_plain (ok.decimal c digit)).2.2]
          rfl
        · rfl
      show ((bracketed _ ++ textOf (ps.map _)).takeWhile _).length = _
      rw [List.takeWhile_append_of_pos solid, List.length_append, rest, grownRun]
      simp [bracketed]

end Rewritten

section Occurrences
variable {g : List Char → List Char} {p : Pattern} {s u : List Char}

/-- A pattern whose texts stand between markers. -/
structure Between (p : Pattern) : Prop where
  near : p.near = true
  free : p.uses '[' = false ∧ p.uses ']' = false
  shows : ∀ before u rest, Matches p before u rest → ∃ c ∈ u, isDecimal c = false

theorem Between.chars (between : Between p) {before : Option Char} {rest : List Char}
    (matched : Matches p before u rest) : ∀ c ∈ u, c ≠ '[' ∧ c ≠ ']' := by
  intro c member
  have used := matched.chars c member
  constructor
  · rintro rfl
    rw [between.free.1] at used
    cases used
  · rintro rfl
    rw [between.free.2] at used
    cases used

/-- What a rewritten text matches was there before. -/
theorem Between.before (between : Between p)
    (keeps : ∀ digits, Digits anyDigits digits → Digits anyDigits (g digits)) {a rest : List Char}
    (shape : rewrite anyDigits g s = a ++ (u ++ rest)) (matched : Matches p a.getLast? u rest) :
    ∃ a' back, s = a' ++ (u ++ back) ∧ Matches p a'.getLast? u back ∧
      rest = textOf ((pieces anyDigits back).map (Piece.relabel g)) := by
  obtain ⟨y, there, other⟩ := between.shows _ _ _ matched
  have decimal : ∀ digits, .marker digits ∈ (pieces anyDigits s).map (Piece.relabel g) →
      ∀ c ∈ digits, isDecimal c = true := by
    intro digits member
    rw [← pieces_rewrite keeps] at member
    exact (pieces_digits member).decimal
  obtain ⟨front, back, cut, rfl, rfl⟩ :=
    locate decimal shape (between.chars matched) there other
  obtain ⟨front', middle, parts, rfl, later⟩ := List.map_eq_append_iff.mp cut
  obtain ⟨word, back', both, plain, rfl⟩ := List.map_eq_append_iff.mp later
  rw [both, relabel_plain plain] at parts
  have whole : s = textOf front' ++ (u ++ textOf back') := by
    rw [← textOf_plain u, ← textOf_append, ← textOf_append, ← parts, textOf_pieces]
  have tail : pieces anyDigits (textOf back') = back' := by
    rw [← List.append_assoc] at parts
    exact pieces_rest parts
  refine ⟨textOf front', textOf back', whole, ?_, by rw [tail]⟩
  exact matched.frame between.near (by rw [(relabel_ends g front').2]) (relabel_ends g back').1

/-- What a text matches is there when it is rewritten. -/
theorem Between.after (between : Between p) {a rest : List Char} (shape : s = a ++ (u ++ rest))
    (matched : Matches p a.getLast? u rest) :
    ∃ a', rewrite anyDigits g s = a' ++ (u ++ textOf ((pieces anyDigits rest).map (Piece.relabel g))) ∧
      Matches p a'.getLast? u (textOf ((pieces anyDigits rest).map (Piece.relabel g))) := by
  obtain ⟨y, there, other⟩ := between.shows _ _ _ matched
  have all : textOf (pieces anyDigits s) = a ++ (u ++ rest) := (textOf_pieces s).trans shape
  obtain ⟨front, back, cut, rfl, rfl⟩ :=
    locate (fun digits member => (pieces_digits member).decimal) all (between.chars matched) there
      other
  have tail : pieces anyDigits (textOf back) = back := by
    rw [← List.append_assoc] at cut
    exact pieces_rest cut
  have plain : (u.map Piece.plain).map (Piece.relabel g) = u.map Piece.plain := by
    rw [List.map_map]
    rfl
  rw [tail]
  refine ⟨textOf (front.map (Piece.relabel g)), ?_, ?_⟩
  · rw [rewrite, cut, List.map_append, List.map_append, plain, textOf_append, textOf_append,
      textOf_plain]
  · exact matched.frame between.near (by rw [(relabel_ends g front).2]) (relabel_ends g back).1.symm

theorem assignment_between : Between assignmentRe := by
  refine ⟨by decide +kernel, by decide +kernel, fun before u rest matched => ?_⟩
  obtain ⟨c, member, is_sign⟩ := assignment_sign matched
  refine ⟨c, member, ?_⟩
  rcases is_sign with rfl | rfl <;> rfl

theorem email_between : Between emailAddress := by
  refine ⟨by decide +kernel, by decide +kernel, fun before u rest matched => ?_⟩
  exact ⟨'@', email_at matched, rfl⟩

end Occurrences

section Sensitive
variable {sources : List CitationSource} {first : CitationSource} {n : Nat} {s : List Char}

/-- An answer holds an address. -/
def HasAddress (text : List Char) : Prop :=
  ∃ a u rest, text = a ++ (u ++ rest) ∧ Matches emailAddress a.getLast? u rest

theorem sensitive_rewritten (number : first.localCitationId = n) :
    search sensitiveOutputRe (rewrite anyDigits (repairedDigits sources first) s) = true ↔
      AssignsSecret sources first s ∨ HasAddress s := by
  have keeps : ∀ digits, Digits anyDigits digits →
      Digits anyDigits (repairedDigits sources first digits) :=
    fun digits ok => repairedDigits_ok number ok
  have run (rest : List Char) : ((textOf ((pieces anyDigits rest).map
      (Piece.relabel (repairedDigits sources first)))).takeWhile fun c => !isSpace c).length =
        grownRun sources first (pieces anyDigits rest) :=
    grownRun_eq number fun digits member => pieces_digits member
  rw [sensitive_iff]
  constructor
  · rintro (⟨a, u, rest, shape, matched, long⟩ | ⟨a, u, rest, shape, matched⟩)
    · obtain ⟨a', back, whole, there, rfl⟩ := assignment_between.before keeps shape matched
      rw [run] at long
      exact .inl ⟨a', u, back, whole, there, long⟩
    · obtain ⟨a', back, whole, there, _⟩ := email_between.before keeps shape matched
      exact .inr ⟨a', u, back, whole, there⟩
  · rintro (⟨a, u, rest, shape, matched, long⟩ | ⟨a, u, rest, shape, matched⟩)
    · obtain ⟨a', whole, there⟩ := assignment_between.after shape matched
      exact .inl ⟨a', u, _, whole, there, by rw [run]; exact long⟩
    · obtain ⟨a', whole, there⟩ := email_between.after shape matched
      exact .inr ⟨a', u, _, whole, there⟩

/-- An added marker brings no address. -/
theorem address_marked (address : HasAddress (markedAnswer s)) : HasAddress s := by
  unfold markedAnswer at address
  split at address
  · exact address
  · obtain ⟨a, u, rest, shape, matched⟩ := address
    have sign := email_at matched
    have blank : ' ' ∉ u := by
      intro member
      have used := matched.chars _ member
      have unused : emailAddress.uses ' ' = false := by decide +kernel
      rw [unused] at used
      cases used
    have cut : s ++ ' ' :: bracketed ['0'] = (a ++ u) ++ rest := by rw [shape, List.append_assoc]
    have within {m : List Char} (shape : s = (a ++ u) ++ m) : HasAddress s :=
      ⟨a, u, m, by rw [shape, List.append_assoc], matched.anywhere (by decide +kernel) _ _⟩
    rcases List.append_eq_append_iff.mp cut with ⟨m, front, back⟩ | ⟨m, front, back⟩
    · cases m with
      | nil => exact within (by rw [List.append_nil] at front ⊢; exact front.symm)
      | cons c m =>
        -- the address would reach into the added marker, which has no at sign
        exfalso
        obtain ⟨rfl, added⟩ := List.cons_eq_cons.mp back
        rcases List.append_eq_append_iff.mp front with ⟨k, _, word⟩ | ⟨k, _, word⟩
        · exact blank (by rw [word]; simp)
        · cases k with
          | nil => exact blank (by rw [List.nil_append] at word; rw [← word]; simp)
          | cons c k =>
            obtain ⟨_, rfl⟩ := List.cons_eq_cons.mp word
            have inside : '@' ∈ bracketed ['0'] := by
              rw [added]
              simp [sign]
            exact absurd inside (by decide)
    · exact within front

end Sensitive

end RagProject.Generation
