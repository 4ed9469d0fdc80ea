import RagProject.Generation.Answer
import RagProject.Lib.Matching

/-! What the patterns of the safety check take. -/
namespace RagProject.Generation
open Python Regex Context

variable [UnicodeTables] {before : Option Char} {u rest : List Char}

/-- An assignment has its sign, an address its at sign. -/
theorem assignment_sign (matched : Matches assignmentRe before u rest) :
    ∃ c ∈ u, c = ':' ∨ c = '=' := by
  unfold assignmentRe Regex.sequence at matched
  simp only [List.foldr] at matched
  obtain ⟨_, v, rfl, _, matched⟩ := matches_seq.mp matched
  obtain ⟨_, v, rfl, _, matched⟩ := matches_seq.mp matched
  obtain ⟨_, v, rfl, _, matched⟩ := matches_seq.mp matched
  obtain ⟨_, v, rfl, _, matched⟩ := matches_seq.mp matched
  obtain ⟨_, v, rfl, sign, _⟩ := matches_seq.mp matched
  obtain ⟨c, rfl, is_sign⟩ := matches_char.mp sign
  exact ⟨c, by simp, by simpa using is_sign⟩

theorem email_at (matched : Matches emailAddress before u rest) : '@' ∈ u := by
  unfold emailAddress Regex.sequence at matched
  simp only [List.foldr] at matched
  obtain ⟨_, v, rfl, _, matched⟩ := matches_seq.mp matched
  obtain ⟨_, v, rfl, sign, _⟩ := matches_seq.mp matched
  obtain ⟨c, rfl, is_at⟩ := matches_char.mp sign
  have same : c = '@' := by simpa using is_at
  simp [same]

/-- A secret is an assignment with a value of eight characters. -/
theorem sensitive_iff {text : List Char} : search sensitiveOutputRe text = true ↔
    (∃ a u rest, text = a ++ (u ++ rest) ∧ Matches assignmentRe a.getLast? u rest ∧
      8 ≤ (rest.takeWhile fun c => !isSpace c).length) ∨
    ∃ a u rest, text = a ++ (u ++ rest) ∧ Matches emailAddress a.getLast? u rest := by
  rw [search_iff]
  constructor
  · rintro ⟨a, u, rest, rfl, matched⟩
    cases matched with
    | altLeft left =>
      obtain ⟨v, w, rfl, assignment, value⟩ := matches_seq.mp left
      obtain ⟨long, solid⟩ := matches_atLeast_char.mp value
      refine .inl ⟨a, v, w ++ rest, by rw [List.append_assoc], assignment, ?_⟩
      rw [List.takeWhile_append_of_pos solid, List.length_append]
      omega
    | altRight right => exact .inr ⟨a, u, rest, rfl, right⟩
  · rintro (⟨a, u, rest, rfl, assignment, long⟩ | ⟨a, u, rest, rfl, email⟩)
    · have split := List.takeWhile_append_dropWhile (p := fun c => !isSpace c) (l := rest)
      refine ⟨a, u ++ rest.takeWhile fun c => !isSpace c, rest.dropWhile fun c => !isSpace c, ?_,
        .altLeft (matches_seq.mpr ⟨u, _, rfl, ?_, matches_atLeast_char.mpr ⟨long, ?_⟩⟩)⟩
      · rw [List.append_assoc, split]
      · rw [split]
        exact assignment
      · intro c member
        exact List.mem_takeWhile_imp (p := fun c => !isSpace c) member
    · exact ⟨a, u, rest, rfl, .altRight email⟩

end RagProject.Generation
