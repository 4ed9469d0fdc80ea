import RagProject.Lib.Python

/-! Backtracking search for the patterns a program compiles once and asks only
whether they occur. Every end of a match is kept, so the answer does not depend
on the order in which alternatives are tried. -/
namespace Regex

inductive Pattern where
  | empty
  | char (accepts : Char → Bool)
  | seq (a b : Pattern)
  | alt (a b : Pattern)
  | star (a : Pattern)
  | textStart
  | wordEdge
  | notAhead (a : Pattern)

/-- A place in the text: the character before it and the rest. -/
structure Cursor where
  before : Option Char
  rest : List Char

/-- Repeat `f`, keeping only the turns that consume something. -/
def starEnds (f : Cursor → List Cursor) : Nat → Cursor → List Cursor
  | 0, c => [c]
  | fuel + 1, c =>
    c :: ((f c).filter fun d => d.rest.length < c.rest.length).flatMap (starEnds f fuel)

section
variable [Python.UnicodeTables]

def atWordEdge (c : Cursor) : Bool :=
  c.before.any Python.isWord != c.rest.head?.any Python.isWord

def Pattern.ends : Pattern → Cursor → List Cursor
  | .empty, c => [c]
  | .char accepts, c =>
    match c.rest with
    | x :: xs => if accepts x then [⟨some x, xs⟩] else []
    | [] => []
  | .seq a b, c => (a.ends c).flatMap b.ends
  | .alt a b, c => a.ends c ++ b.ends c
  | .star a, c => starEnds a.ends c.rest.length c
  | .textStart, c => if c.before.isNone then [c] else []
  | .wordEdge, c => if atWordEdge c then [c] else []
  | .notAhead a, c => if (a.ends c).isEmpty then [c] else []

def searchFrom (p : Pattern) (before : Option Char) : List Char → Bool
  | [] => !(p.ends ⟨before, []⟩).isEmpty
  | x :: xs => !(p.ends ⟨before, x :: xs⟩).isEmpty || searchFrom p (some x) xs

/-- bool(pattern.search(text)). -/
def search (p : Pattern) (text : List Char) : Bool := searchFrom p none text

/-- bool(pattern.fullmatch(text)). -/
def fullMatch (p : Pattern) (text : List Char) : Bool :=
  (p.ends ⟨none, text⟩).any fun d => d.rest.isEmpty

end

section Ascii

def Cursor.Ascii (c : Cursor) : Prop :=
  (∀ x ∈ c.before, x.toNat < 128) ∧ ∀ x ∈ c.rest, x.toNat < 128

theorem isWord_ascii (s t : Python.UnicodeTables) {x : Char} (ascii : x.toNat < 128) :
    @Python.isWord s x = @Python.isWord t x := by
  simp only [Python.isWord, ascii, if_true]

theorem atWordEdge_ascii (s t : Python.UnicodeTables) {c : Cursor} (ascii : c.Ascii) :
    @atWordEdge s c = @atWordEdge t c := by
  have before : c.before.any (@Python.isWord s) = c.before.any (@Python.isWord t) := by
    cases h : c.before with
    | none => rfl
    | some x => simpa using isWord_ascii s t (ascii.1 x (by simp [h]))
  have after : c.rest.head?.any (@Python.isWord s) = c.rest.head?.any (@Python.isWord t) := by
    cases h : c.rest with
    | nil => rfl
    | cons x xs => simpa using isWord_ascii s t (ascii.2 x (by simp [h]))
  unfold atWordEdge
  rw [before, after]

theorem starEnds_ascii {f g : Cursor → List Cursor}
    (same : ∀ c : Cursor, c.Ascii → f c = g c ∧ ∀ d ∈ f c, d.Ascii) (fuel : Nat) {c : Cursor}
    (ascii : c.Ascii) :
    starEnds f fuel c = starEnds g fuel c ∧ ∀ d ∈ starEnds f fuel c, d.Ascii := by
  induction fuel generalizing c with
  | zero => exact ⟨rfl, by simpa [starEnds] using ascii⟩
  | succ fuel ih =>
    obtain ⟨eq, ends⟩ := same c ascii
    have kept : ∀ d ∈ (f c).filter (fun d => d.rest.length < c.rest.length), d.Ascii :=
      fun d member => ends d (List.mem_filter.mp member).1
    simp only [starEnds, ← eq]
    constructor
    · have turns := List.flatMap_congr fun d member => (ih (kept d member)).1
      exact congrArg (c :: ·) turns
    · intro e member
      rcases List.mem_cons.mp member with rfl | later
      · exact ascii
      · obtain ⟨d, hd, he⟩ := List.mem_flatMap.mp later
        exact (ih (kept d hd)).2 e he

/-- A match over ASCII text never asks the tables, and stays in the text. -/
theorem ends_ascii (s t : Python.UnicodeTables) (p : Pattern) {c : Cursor} (ascii : c.Ascii) :
    @Pattern.ends s p c = @Pattern.ends t p c ∧ ∀ d ∈ @Pattern.ends s p c, d.Ascii := by
  induction p generalizing c with
  | empty => exact ⟨rfl, by simpa [Pattern.ends] using ascii⟩
  | char accepts =>
    refine ⟨rfl, ?_⟩
    intro d member
    unfold Pattern.ends at member
    split at member
    · rename_i x xs text
      split at member
      · cases List.mem_singleton.mp member
        have chars := ascii.2
        rw [text] at chars
        exact ⟨by simpa using chars x, fun y hy => chars y (List.mem_cons_of_mem _ hy)⟩
      · cases member
    · cases member
  | seq a b iha ihb =>
    obtain ⟨eq, ends⟩ := iha ascii
    simp only [Pattern.ends, ← eq]
    refine ⟨List.flatMap_congr fun d member => (ihb (ends d member)).1, ?_⟩
    intro e member
    obtain ⟨d, hd, he⟩ := List.mem_flatMap.mp member
    exact (ihb (ends d hd)).2 e he
  | alt a b iha ihb =>
    simp only [Pattern.ends, (iha ascii).1, (ihb ascii).1, true_and]
    intro d member
    rw [← (iha ascii).1, ← (ihb ascii).1] at member
    rcases List.mem_append.mp member with h | h
    · exact (iha ascii).2 d h
    · exact (ihb ascii).2 d h
  | star a ih =>
    simp only [Pattern.ends]
    exact starEnds_ascii (fun _ h => ih h) _ ascii
  | textStart =>
    refine ⟨rfl, fun d member => ?_⟩
    unfold Pattern.ends at member
    split at member
    · cases List.mem_singleton.mp member
      exact ascii
    · cases member
  | wordEdge =>
    simp only [Pattern.ends, atWordEdge_ascii s t ascii, true_and]
    intro d member
    split at member
    · cases List.mem_singleton.mp member
      exact ascii
    · cases member
  | notAhead a ih =>
    simp only [Pattern.ends, ← (ih ascii).1, true_and]
    intro d member
    split at member
    · cases List.mem_singleton.mp member
      exact ascii
    · cases member

theorem searchFrom_ascii (s t : Python.UnicodeTables) (p : Pattern) {before : Option Char}
    {text : List Char} (ascii : Cursor.Ascii ⟨before, text⟩) :
    @searchFrom s p before text = @searchFrom t p before text := by
  induction text generalizing before with
  | nil => simp only [searchFrom, (ends_ascii s t p ascii).1]
  | cons x xs ih =>
    have next : Cursor.Ascii ⟨some x, xs⟩ :=
      ⟨by simpa using ascii.2 x, fun y hy => ascii.2 y (List.mem_cons_of_mem _ hy)⟩
    simp only [searchFrom, (ends_ascii s t p ascii).1, ih next]

theorem search_ascii (s t : Python.UnicodeTables) (p : Pattern) {text : List Char}
    (ascii : ∀ x ∈ text, x.toNat < 128) : @search s p text = @search t p text :=
  searchFrom_ascii s t p ⟨by simp, ascii⟩

end Ascii

def exactly (x : Char) : Pattern := .char (· == x)

/-- Letters of the pattern and of the text agree when case is ignored. Besides the
two ASCII cases, four letters outside ASCII fold to an ASCII letter. -/
def foldCase (c : Char) : Char :=
  if c.toNat == 0x130 || c.toNat == 0x131 then 'i'
  else if c.toNat == 0x17f then 's'
  else if c.toNat == 0x212a then 'k'
  else c.toLower

def literal (s : String) : Pattern :=
  s.toList.foldr (fun x p => .seq (exactly x) p) .empty

def literalIgnoreCase (s : String) : Pattern :=
  s.toList.foldr (fun x p => .seq (.char fun y => foldCase y == foldCase x) p) .empty

/-- A class of ASCII characters, read with case ignored. -/
def ignoreCase (accepts : Char → Bool) : Char → Bool := fun c =>
  accepts c || accepts (foldCase c) || accepts (foldCase c).toUpper

def oneOf (ps : List Pattern) : Pattern :=
  match ps with
  | [] => .char fun _ => false
  | p :: ps => ps.foldl .alt p

def sequence (ps : List Pattern) : Pattern := ps.foldr .seq .empty

def plus (p : Pattern) : Pattern := .seq p (.star p)

def optional (p : Pattern) : Pattern := .alt p .empty

def times (p : Pattern) : Nat → Pattern
  | 0 => .empty
  | n + 1 => .seq p (times p n)

def atLeast (p : Pattern) (n : Nat) : Pattern := .seq (times p n) (.star p)

end Regex
