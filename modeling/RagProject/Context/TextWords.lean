import RagProject.Context.Texts

/-! The words of a text, which cleaning keeps and joining puts one after the other. -/
namespace RagProject.Context
open Python

/-- text.replace("\x00", " ").split(). -/
def textWords (text : String) : List (List Char) :=
  splitWords (text.toList.map fun c => if c = '\x00' then ' ' else c)

/-- " ".join(parts), " | ".join(parts) and their like. -/
def joinTexts (separator : String) (parts : List String) : String :=
  String.ofList (join separator.toList (parts.map String.toList))

theorem textWords_word {text : String} {w : List Char} (member : w ∈ textWords text) : Word w :=
  word_of_split member

theorem cleanText_eq (text : String) : cleanText text = String.ofList (join [' '] (textWords text)) :=
  rfl

theorem textWords_solid {text : String} {w : List Char} (member : w ∈ textWords text) :
    ∀ c ∈ w, c ≠ '\x00' := by
  rintro c inside rfl
  obtain ⟨d, _, same⟩ := List.mem_map.mp (splitWords_chars member _ inside)
  split at same
  · cases same
  · contradiction

/-- The words of a text that was joined from words. -/
theorem textWords_join {words : List (List Char)} (ok : ∀ w ∈ words, Word w ∧ ∀ c ∈ w, c ≠ '\x00') :
    textWords (String.ofList (join [' '] words)) = words := by
  have kept : (join [' '] words).map (fun c => if c = '\x00' then ' ' else c) =
      join [' '] words := by
    rw [List.map_congr_left, List.map_id']
    intro c member
    apply if_neg
    rcases join_chars member with between | ⟨w, inside, there⟩
    · rw [List.mem_singleton.mp between]
      decide
    · exact (ok w inside).2 c there
  unfold textWords
  rw [String.toList_ofList, kept, splitWords_join fun w member => (ok w member).1]

@[simp] theorem textWords_clean (text : String) : textWords (cleanText text) = textWords text := by
  rw [cleanText_eq]
  exact textWords_join fun w member => ⟨textWords_word member, textWords_solid member⟩

@[simp] theorem textWords_empty : textWords "" = [] := rfl

theorem cleanText_empty {text : String} : cleanText text = "" ↔ textWords text = [] := by
  constructor
  · intro empty
    rw [← textWords_clean, empty]
    rfl
  · intro none
    rw [cleanText_eq, none]
    rfl

theorem cleanText_congr {a b : String} (same : textWords a = textWords b) :
    cleanText a = cleanText b := by
  rw [cleanText_eq, same, cleanText_eq]

/-- The words of texts that are joined with blanks. -/
theorem textWords_blanks (parts : List String) :
    textWords (joinTexts " " parts) = parts.flatMap textWords := by
  have blanks : " ".toList = [' '] := rfl
  unfold joinTexts
  rw [blanks]
  induction parts with
  | nil => rfl
  | cons part parts ih =>
    cases parts with
    | nil =>
      unfold textWords
      simp [join]
    | cons next parts =>
      have shape : join [' '] ((part :: next :: parts).map String.toList) =
          part.toList ++ ' ' :: join [' '] ((next :: parts).map String.toList) := by
        simp [join]
      rw [List.flatMap_cons, ← ih, shape]
      unfold textWords
      rw [String.toList_ofList, String.toList_ofList, List.map_append, List.map_cons]
      exact splitWords_cut rfl _ _

end RagProject.Context
