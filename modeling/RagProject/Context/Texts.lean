import RagProject.Lib.Regex
import RagProject.Lib.Words

/-! The texts of a context item: cleaned for the prompt, measured in tokens (core/tokens.py), and
redacted for a trace (rag/trace.py). -/
namespace RagProject.Context
open Python

section Cleaning

/-- " ".join(text.replace("\x00", " ").split()). -/
def cleanText (text : String) : String :=
  String.ofList (join [' '] (splitWords (text.toList.map fun c => if c = '\x00' then ' ' else c)))

def estimateTokens (text : String) : Nat :=
  let asciiCount := (text.toList.filter fun c => c.toNat < 128).length
  (asciiCount + 3) / 4 + (text.length - asciiCount)

/-- A text has something to show. -/
def Shows (text : String) : Prop := ∃ c ∈ text.toList, isSpace c = false ∧ c ≠ '\x00'

instance (text : String) : Decidable (Shows text) :=
  inferInstanceAs (Decidable (∃ c ∈ text.toList, isSpace c = false ∧ c ≠ '\x00'))

theorem shows_ne_empty {text : String} (shows : Shows text) : text ≠ "" := by
  rintro rfl
  obtain ⟨c, member, _⟩ := shows
  cases member

theorem cleanText_words (text : String) :
    (cleanText text).toList =
      join [' '] (splitWords (text.toList.map fun c => if c = '\x00' then ' ' else c)) :=
  String.toList_ofList

/-- What is cleaned away is a text with nothing to show. -/
theorem cleanText_shows {text : String} : cleanText text ≠ "" ↔ Shows text := by
  have blanks : splitWords (text.toList.map fun c => if c = '\x00' then ' ' else c) = [] ↔
      ¬Shows text := by
    rw [splitWords_eq_nil, Shows]
    push Not
    constructor
    · intro all c member graphic
      by_contra zero
      have blank := all _ (List.mem_map_of_mem member)
      rw [if_neg zero, graphic] at blank
      cases blank
    · intro all c member
      obtain ⟨d, inside, rfl⟩ := List.mem_map.mp member
      split
      · rfl
      · next zero =>
        by_contra graphic
        exact zero (all d inside (by simpa using graphic))
  rw [← not_iff_not, ← blanks, not_not, ← String.toList_inj, cleanText_words]
  constructor
  · intro empty
    by_contra some_word
    exact join_ne_nil (fun w member => word_of_split member) some_word (by simpa using empty)
  · intro none
    simp [none, join]

/-- No NUL is left. -/
theorem cleanText_solid {text : String} {c : Char} (member : c ∈ (cleanText text).toList) :
    c ≠ '\x00' := by
  rintro rfl
  rw [cleanText_words] at member
  rcases join_chars member with between | ⟨w, inside, there⟩
  · cases List.mem_singleton.mp between
  · obtain ⟨d, _, same⟩ := List.mem_map.mp (splitWords_chars inside _ there)
    split at same
    · cases same
    · contradiction

/-- A cleaned text begins with a character that shows. -/
theorem cleanText_head {text : String} (shows : cleanText text ≠ "") :
    ∃ c rest, (cleanText text).toList = c :: rest ∧ isSpace c = false ∧ c ≠ '\x00' := by
  have nonempty : splitWords (text.toList.map fun c => if c = '\x00' then ' ' else c) ≠ [] := by
    intro none
    apply shows
    rw [← String.toList_inj, cleanText_words, none]
    rfl
  obtain ⟨first, _, head, _, graphic, _⟩ :=
    join_ends (fun w member => word_of_split member) nonempty
  obtain ⟨rest, shape⟩ := List.head?_eq_some_iff.mp head
  have whole := (cleanText_words text).trans shape
  exact ⟨first, rest, whole, graphic, cleanText_solid (whole ▸ List.mem_cons_self)⟩

/-- Words with single blanks between them are clean. -/
theorem cleanText_join {words : List (List Char)} (ok : ∀ w ∈ words, Word w)
    (solid : ∀ c ∈ join [' '] words, c ≠ '\x00') :
    cleanText (String.ofList (join [' '] words)) = String.ofList (join [' '] words) := by
  have kept : (join [' '] words).map (fun c => if c = '\x00' then ' ' else c) =
      join [' '] words := by
    rw [List.map_congr_left fun c member => if_neg (solid c member), List.map_id']
  rw [← String.toList_inj, cleanText_words, String.toList_ofList, kept, splitWords_join ok]

/-- A cleaned text is clean. -/
theorem cleanText_cleanText (text : String) : cleanText (cleanText text) = cleanText text := by
  have shape : cleanText text = String.ofList (join [' ']
      (splitWords (text.toList.map fun c => if c = '\x00' then ' ' else c))) := rfl
  have solid : ∀ c ∈ join [' ']
      (splitWords (text.toList.map fun c => if c = '\x00' then ' ' else c)), c ≠ '\x00' := by
    intro c member
    rw [← cleanText_words] at member
    exact cleanText_solid member
  rw [shape]
  exact cleanText_join (fun w member => word_of_split member) solid

end Cleaning

section Redaction
open Regex
variable [UnicodeTables]

def asciiLetterOrDigit (c : Char) : Bool :=
  ('a' ≤ c && c ≤ 'z') || ('A' ≤ c && c ≤ 'Z') || ('0' ≤ c && c ≤ '9')

/-- A class of letters, digits and some more characters, with case ignored. -/
def classOf (more : List Char) : Pattern :=
  .char (ignoreCase fun c => asciiLetterOrDigit c || more.contains c)

def lettersOnly : Pattern := .char (ignoreCase fun c => 'a' ≤ c && c ≤ 'z')

def apiKeyWord : Pattern :=
  sequence [literalIgnoreCase "api", optional (.char fun c => c == '_' || c == '-'),
    literalIgnoreCase "key"]

def secretAssignmentRe : Pattern :=
  sequence [.alt .textStart (.char isSpace),
    optional (sequence [literalIgnoreCase "export", plus (.char isSpace)]),
    .star (classOf ['_', '.', '-']),
    oneOf (apiKeyWord :: ["secret", "password", "token", "credential"].map literalIgnoreCase),
    .star (classOf ['_', '.', '-']), .star (.char isSpace), .char (fun c => c == ':' || c == '='),
    .star (.char isSpace), plus (.char fun c => !isSpace c)]

def urlRe : Pattern :=
  sequence [.wordEdge, lettersOnly, .star (classOf ['+', '.', '-']), literal "://"]

def emailAddress : Pattern :=
  sequence [plus (classOf ['.', '_', '%', '+', '-']), exactly '@', plus (classOf ['.', '-']),
    exactly '.', atLeast lettersOnly 2]

def emailRe : Pattern := sequence [.wordEdge, emailAddress, .wordEdge]

def windowsPathRe : Pattern :=
  sequence [.alt .textStart (.char isSpace), lettersOnly, exactly ':',
    .char fun c => c == '\\' || c == '/']

/-- TraceRedactor.safe_string. -/
def safeString (maxLength : Nat) (value : String) : String :=
  let normalized := cleanText value
  if search secretAssignmentRe normalized.toList || search urlRe normalized.toList ||
      search emailRe normalized.toList then "redacted"
  else String.ofList (normalized.toList.take maxLength)

/-- _safe_context_string, also _safe_evidence_string. -/
def safeContextString (maxLength : Nat) (value : String) : String :=
  let safe := safeString maxLength value
  let pathNormalized := safe.toList.map fun c => if c = '\\' then '/' else c
  if pathNormalized.head? = some '/' || search windowsPathRe pathNormalized then "redacted"
  else safe

/-- safe or None. -/
def safeOrNone (maxLength : Nat) (value : String) : Option String :=
  let safe := safeContextString maxLength value
  if safe = "" then none else some safe

variable {maxLength : Nat}

/-- A text with something to show keeps something that shows. -/
theorem safeString_shows (some_place : 0 < maxLength) {value : String} (shows : Shows value) :
    Shows (safeString maxLength value) := by
  simp only [safeString]
  split
  · decide
  · obtain ⟨c, rest, shape, graphic, solid⟩ := cleanText_head (cleanText_shows.mpr shows)
    refine ⟨c, ?_, graphic, solid⟩
    obtain ⟨n, rfl⟩ := Nat.exists_eq_succ_of_ne_zero (Nat.ne_of_gt some_place)
    rw [String.toList_ofList, shape, List.take_succ_cons]
    exact List.mem_cons_self

theorem safeString_blank {value : String} (blank : ¬Shows value) : safeString maxLength value = "" := by
  have empty : cleanText value = "" := by
    by_contra shows
    exact blank (cleanText_shows.mp shows)
  simp only [safeString, empty]
  have nothing : (search secretAssignmentRe "".toList || search urlRe "".toList ||
      search emailRe "".toList) = false := rfl
  rw [nothing, String.toList_empty, List.take_nil]
  rfl

theorem safeContextString_shows (some_place : 0 < maxLength) {value : String} (shows : Shows value) :
    Shows (safeContextString maxLength value) := by
  simp only [safeContextString]
  split
  · decide
  · exact safeString_shows some_place shows

theorem safeContextString_blank {value : String} (blank : ¬Shows value) :
    safeContextString maxLength value = "" := by
  simp only [safeContextString, safeString_blank blank]
  rfl

/-- Only a text with nothing to show becomes None. -/
theorem safeOrNone_some (some_place : 0 < maxLength) {value safe : String} :
    safeOrNone maxLength value = some safe ↔
      Shows value ∧ safeContextString maxLength value = safe := by
  unfold safeOrNone
  by_cases shows : Shows value
  · simp [shows, shows_ne_empty (safeContextString_shows some_place shows)]
  · simp [shows, safeContextString_blank shows]

end Redaction

end RagProject.Context
