import RagProject.Context.SameWords
import RagProject.Tools.PlannerInput

/-! Which tool results are taken for duplicates, measured by the words of their texts. -/
namespace RagProject.Tools
open Python Markers Context

section Turns
variable [DigitTables] [Rounding] (policy : ToolResultCompressionPolicy)
variable (manager : ToolResultBudgetManager) (toolCallId toolName : String)

/-- A candidate that was accepted among these. -/
def AcceptedIn (done : List PreparedToolResultCandidate) (a : PreparedToolResultCandidate) : Prop :=
  ∃ earlier later, done = earlier ++ a :: later ∧
    toolRefusal policy manager (compressAll policy manager toolCallId toolName earlier) a = none

/-- What the loop remembers are the texts and chunks of the accepted candidates. -/
theorem seen_accepted (done : List PreparedToolResultCandidate) :
    (∀ text, text ∈ (compressAll policy manager toolCallId toolName done).seenText ↔
      ∃ a, AcceptedIn policy manager toolCallId toolName done a ∧ a.normalizedText = text) ∧
    (∀ id, id ∈ (compressAll policy manager toolCallId toolName done).seenChunks ↔
      ∃ a, AcceptedIn policy manager toolCallId toolName done a ∧
        a.candidate.documentChunkId = id) := by
  induction done using List.reverseRecOn with
  | nil =>
    have none (a) : ¬AcceptedIn policy manager toolCallId toolName [] a := by
      rintro ⟨earlier, later, split, _⟩
      cases earlier <;> cases split
    constructor
    · intro text
      simp [compressAll, Compressing.start, none]
    · intro id
      simp [compressAll, Compressing.start, none]
  | append_singleton done p ih =>
    have turn : compressAll policy manager toolCallId toolName (done ++ [p]) =
        compressTurn policy manager toolCallId toolName
          (compressAll policy manager toolCallId toolName done) p := by
      unfold compressAll
      rw [List.foldl_append, List.foldl_cons, List.foldl_nil]
    have grown (a) : AcceptedIn policy manager toolCallId toolName (done ++ [p]) a ↔
        AcceptedIn policy manager toolCallId toolName done a ∨ a = p ∧
          toolRefusal policy manager (compressAll policy manager toolCallId toolName done) p =
            none := by
      constructor
      · rintro ⟨earlier, later, split, accepted⟩
        rcases List.eq_nil_or_concat later with rfl | ⟨front, last, rfl⟩
        · obtain ⟨rfl, same⟩ := List.append_inj' split rfl
          cases same
          exact .inr ⟨rfl, accepted⟩
        · rw [List.concat_eq_append, ← List.cons_append, ← List.append_assoc] at split
          obtain ⟨rfl, _⟩ := List.append_inj' split rfl
          exact .inl ⟨earlier, front, rfl, accepted⟩
      · rintro (⟨earlier, later, rfl, accepted⟩ | ⟨rfl, accepted⟩)
        · exact ⟨earlier, later ++ [p], by rw [List.append_assoc, List.cons_append], accepted⟩
        · exact ⟨done, [], rfl, accepted⟩
    rw [turn]
    unfold compressTurn
    cases refused : toolRefusal policy manager
        (compressAll policy manager toolCallId toolName done) p with
    | some reason =>
      simp only [grown, refused, reduceCtorEq, and_false, or_false]
      exact ih
    | none =>
      simp only [grown, refused, and_true, List.mem_cons, or_and_right, exists_or,
        exists_eq_left, ih.1, ih.2]
      constructor
      · intro text
        rw [or_comm, eq_comm]
      · intro id
        rw [or_comm, eq_comm]

variable [CaseFold] (candidates : List ToolResultCandidate)

/-- Whatever is dropped as a duplicate has the words of a text accepted before it. -/
def OnlyAlikeRemoved : Prop :=
  ∀ done p rest, preparedCandidates policy candidates = done ++ p :: rest →
    toolRefusal policy manager (compressAll policy manager toolCallId toolName done) p =
      some .exactDuplicateRemoved →
    ∃ a, AcceptedIn policy manager toolCallId toolName done a ∧
      wordsOf a.cleanText = wordsOf p.cleanText

/-- The tokens [a-z0-9]{2,} of an accepted text, which a text of another chunk has too, stand for
its words. -/
def TokensTold : Prop :=
  ∀ done p rest, preparedCandidates policy candidates = done ++ p :: rest → p.cleanText ≠ "" →
    (∀ a, AcceptedIn policy manager toolCallId toolName done a →
      a.candidate.documentChunkId ≠ p.candidate.documentChunkId) →
    (∃ a, AcceptedIn policy manager toolCallId toolName done a ∧
      a.normalizedText = p.normalizedText) →
    ∃ a, AcceptedIn policy manager toolCallId toolName done a ∧
      wordsOf a.cleanText = wordsOf p.cleanText

theorem only_alike_removed :
    OnlyAlikeRemoved policy manager toolCallId toolName candidates ↔
      TokensTold policy manager toolCallId toolName candidates := by
  have duplicate (done p) : toolRefusal policy manager
      (compressAll policy manager toolCallId toolName done) p = some .exactDuplicateRemoved ↔
        p.cleanText ≠ "" ∧
          (∀ a, AcceptedIn policy manager toolCallId toolName done a →
            a.candidate.documentChunkId ≠ p.candidate.documentChunkId) ∧
          ∃ a, AcceptedIn policy manager toolCallId toolName done a ∧
            a.normalizedText = p.normalizedText := by
    obtain ⟨texts, chunks⟩ := seen_accepted policy manager toolCallId toolName done
    rw [← texts]
    have apart : (∀ a, AcceptedIn policy manager toolCallId toolName done a →
        a.candidate.documentChunkId ≠ p.candidate.documentChunkId) ↔
          p.candidate.documentChunkId ∉
            (compressAll policy manager toolCallId toolName done).seenChunks := by
      rw [chunks]
      push Not
      rfl
    rw [apart]
    unfold toolRefusal
    dsimp only
    split_ifs <;> simp_all
  unfold OnlyAlikeRemoved TokensTold
  constructor
  · intro alike done p rest split shows fresh known
    exact alike done p rest split ((duplicate done p).mpr ⟨shows, fresh, known⟩)
  · intro told done p rest split removed
    obtain ⟨shows, fresh, known⟩ := (duplicate done p).mp removed
    exact told done p rest split shows fresh known

end Turns

section Claim
variable [DigitTables] [Rounding] [CaseFold]

end Claim

section Scripts

theorem kana_solid : ∀ c, (none : Option Nat).isSome → isSpace c = false := nofun

/-- Tables for texts in ASCII and in kana and kanji. -/
@[reducible] def kanaDigits : DigitTables where
  alnum c := 0x3040 ≤ c.toNat
  lower c := [c]
  decimal _ := none
  solid := kana_solid
  caseless _ none := nomatch none
  kana _ _ _ := rfl

def weather : String := "東京の天気"

def map : String := "大阪の地図"

def twoPlaces : List ToolResultCandidate := [plainToolCandidate 1 weather, plainToolCandidate 2 map]

def twoPlacesEvidence : List EvidenceCandidate :=
  [plainEvidence 1 ("rag " ++ weather), plainEvidence 2 ("rag " ++ map)]

theorem only_first [DigitTables] [Rounding]
    {policy : ToolResultCompressionPolicy} {manager : ToolResultBudgetManager}
    {toolCallId toolName : String} {p a : PreparedToolResultCandidate}
    (accepted : AcceptedIn policy manager toolCallId toolName [p] a) : a = p := by
  obtain ⟨earlier, later, split, _⟩ := accepted
  cases earlier with
  | nil => exact (List.cons.inj split).1.symm
  | cons b earlier => cases earlier <;> cases (List.cons.inj split).2

end Scripts

end RagProject.Tools
