import Mathlib.Algebra.Group.Nat.Defs
import RagProject.Lib.Words

/-! Numbers in brackets within a text, as the patterns \[(\d+)\] and \[(\d{1,6})\] find them. -/
namespace Python

/-- The tables with the decimal digits outside ASCII. A digit is no blank, and it has no case;
nor has a character between U+3000 and U+9FFF. -/
class DigitTables extends UnicodeTables where
  decimal : Char → Option Nat
  solid : ∀ c, (decimal c).isSome → isSpace c = false
  caseless : ∀ c, (decimal c).isSome → lower c = [c]
  kana : ∀ c : Char, 0x3000 ≤ c.toNat → c.toNat ≤ 0x9fff → lower c = [c]

/-- Tables for texts whose digits are ASCII. -/
@[reducible] def asciiDigits : DigitTables where
  toUnicodeTables := asciiTables
  decimal _ := none
  solid _ none := nomatch none
  caseless _ none := nomatch none
  kana _ _ _ := rfl

/-- int of one character of the class \d. -/
def digitValue [DigitTables] (c : Char) : Option Nat :=
  if c.toNat < 128 then if c.isDigit then some (c.toNat - 48) else none
  else DigitTables.decimal c

/-- The class \d. -/
def isDecimal [DigitTables] (c : Char) : Bool := (digitValue c).isSome

/-- int(digits). -/
def intOf [DigitTables] (digits : List Char) : Nat :=
  digits.foldl (fun n c => n * 10 + (digitValue c).getD 0) 0

end Python

namespace Markers
open Python

/-- A piece of a text: a character, or a number in brackets. -/
inductive Piece where
  | plain (c : Char)
  | marker (digits : List Char)
  deriving DecidableEq, Repr

def bracketed (digits : List Char) : List Char := '[' :: digits ++ [']']

def Piece.text : Piece → List Char
  | .plain c => [c]
  | .marker digits => bracketed digits

def textOf (ps : List Piece) : List Char := ps.flatMap Piece.text

section
variable [DigitTables] (fits : List Char → Bool)

/-- The digits of a marker at the start of a text. -/
def markerAt : List Char → Option (List Char)
  | '[' :: s =>
    let digits := s.takeWhile isDecimal
    if digits ≠ [] ∧ fits digits ∧ (s.drop digits.length).head? = some ']' then some digits else none
  | _ => none

/-- The pieces of a text, of which the first characters were taken already. -/
def piecesFrom : Nat → List Char → List Piece
  | _, [] => []
  | skip + 1, _ :: s => piecesFrom skip s
  | 0, c :: s =>
    match markerAt fits (c :: s) with
    | some digits => .marker digits :: piecesFrom (digits.length + 1) s
    | none => .plain c :: piecesFrom 0 s

def pieces (s : List Char) : List Piece := piecesFrom fits 0 s

/-- The digits of a marker that is accepted. -/
structure Digits (digits : List Char) : Prop where
  some_digit : digits ≠ []
  decimal : ∀ c ∈ digits, isDecimal c = true
  fits : fits digits = true

variable {fits}

theorem digit_plain {c : Char} (decimal : isDecimal c = true) :
    c ≠ '[' ∧ c ≠ ']' ∧ isSpace c = false := by
  have bracket : isDecimal '[' = false ∧ isDecimal ']' = false := ⟨rfl, rfl⟩
  refine ⟨?_, ?_, ?_⟩
  · rintro rfl
    rw [bracket.1] at decimal
    cases decimal
  · rintro rfl
    rw [bracket.2] at decimal
    cases decimal
  · unfold isDecimal digitValue at decimal
    split at decimal
    · next ascii =>
      have digits : ∀ n < 128, (Char.ofNat n).isDigit → isSpace (Char.ofNat n) = false := by
        decide
      have one := digits c.toNat ascii
      rw [Char.ofNat_toNat] at one
      apply one
      by_contra other
      simp [other] at decimal
    · exact DigitTables.solid c decimal

theorem takeWhile_digits {digits rest : List Char} {c : Char}
    (decimal : ∀ d ∈ digits, isDecimal d = true) (stop : isDecimal c = false) :
    (digits ++ c :: rest).takeWhile isDecimal = digits := by
  rw [List.takeWhile_append_of_pos decimal, List.takeWhile_cons_of_neg (by simp [stop]),
    List.append_nil]

theorem markerAt_some {s digits : List Char} : markerAt fits s = some digits ↔
    Digits fits digits ∧ ∃ rest, s = bracketed digits ++ rest := by
  constructor
  · intro found
    unfold markerAt at found
    split at found
    · rename_i s
      simp only at found
      split at found
      · next all =>
        obtain ⟨some_digit, small, closed⟩ := all
        cases found
        obtain ⟨rest, shape⟩ := List.head?_eq_some_iff.mp closed
        refine ⟨⟨some_digit, fun c member => ?_, small⟩, rest, ?_⟩
        · exact List.mem_takeWhile_imp member
        · have whole := List.take_append_drop (s.takeWhile isDecimal).length s
          rw [shape, ← List.prefix_iff_eq_take.mp (List.takeWhile_prefix isDecimal)] at whole
          simp only [bracketed, List.cons_append, List.append_assoc, List.nil_append]
          rw [whole]
      · cases found
    · cases found
  · rintro ⟨⟨some_digit, decimal, small⟩, rest, rfl⟩
    have run : (digits ++ ']' :: rest).takeWhile isDecimal = digits := takeWhile_digits decimal rfl
    have shape : bracketed digits ++ rest = '[' :: (digits ++ ']' :: rest) := by
      simp [bracketed]
    rw [shape]
    simp [markerAt, run, some_digit, small]

theorem piecesFrom_skip (n : Nat) (s : List Char) : piecesFrom fits n s = pieces fits (s.drop n) := by
  induction n generalizing s with
  | zero => rfl
  | succ n ih =>
    cases s with
    | nil => rfl
    | cons c s => exact ih s

@[simp] theorem pieces_nil : pieces fits [] = [] := rfl

theorem pieces_plain {c : Char} {s : List Char} (plain : markerAt fits (c :: s) = none) :
    pieces fits (c :: s) = .plain c :: pieces fits s := by
  simp only [pieces, piecesFrom, plain]

theorem pieces_marker {digits : List Char} (ok : Digits fits digits) (rest : List Char) :
    pieces fits (bracketed digits ++ rest) = .marker digits :: pieces fits rest := by
  have found : markerAt fits (bracketed digits ++ rest) = some digits :=
    markerAt_some.mpr ⟨ok, rest, rfl⟩
  have shape : bracketed digits ++ rest = '[' :: (digits ++ [']'] ++ rest) := by
    simp [bracketed]
  rw [shape] at found ⊢
  have after : (digits ++ [']'] ++ rest).drop (digits.length + 1) = rest :=
    List.drop_left' (by simp)
  unfold pieces
  rw [piecesFrom, found]
  dsimp only
  rw [piecesFrom_skip, after]
  rfl

/-- A text is read marker by marker, and character by character between them. -/
theorem piece_induction (fits : List Char → Bool) {P : List Char → Prop} (nil : P [])
    (plain : ∀ c s, markerAt fits (c :: s) = none → P s → P (c :: s))
    (marker : ∀ digits rest, Digits fits digits → P rest → P (bracketed digits ++ rest))
    (s : List Char) : P s := by
  induction h : s.length using Nat.strongRecOn generalizing s with
  | ind n ih =>
    subst h
    cases s with
    | nil => exact nil
    | cons c s =>
      cases found : markerAt fits (c :: s) with
      | none => exact plain c s found (ih s.length (by simp) s rfl)
      | some digits =>
        obtain ⟨ok, rest, shape⟩ := markerAt_some.mp found
        rw [shape]
        refine marker digits rest ok (ih rest.length ?_ rest rfl)
        rw [shape]
        simp only [bracketed, List.cons_append, List.length_cons, List.length_append]
        omega

theorem textOf_pieces (s : List Char) : textOf (pieces fits s) = s := by
  induction s using piece_induction fits with
  | nil => rfl
  | plain c s plain ih =>
    rw [pieces_plain plain]
    exact congrArg (c :: ·) ih
  | marker digits rest ok ih =>
    rw [pieces_marker ok]
    exact congrArg (bracketed digits ++ ·) ih

theorem pieces_digits {s digits : List Char} (member : .marker digits ∈ pieces fits s) :
    Digits fits digits := by
  induction s using piece_induction fits with
  | nil => cases member
  | plain c s plain ih =>
    rw [pieces_plain plain] at member
    exact ih ((List.mem_cons.mp member).resolve_left fun same => nomatch same)
  | marker other rest ok ih =>
    rw [pieces_marker ok] at member
    rcases List.mem_cons.mp member with same | later
    · cases same
      exact ok
    · exact ih later

/-- A text without opening brackets has no markers. -/
theorem pieces_free {s : List Char} (free : ∀ c ∈ s, c ≠ '[') : pieces fits s = s.map Piece.plain := by
  induction s with
  | nil => rfl
  | cons c s ih =>
    have plain : markerAt fits (c :: s) = none := by
      rw [← Option.not_isSome_iff_eq_none, Option.isSome_iff_exists]
      rintro ⟨digits, found⟩
      obtain ⟨_, rest, shape⟩ := markerAt_some.mp found
      exact free c List.mem_cons_self (List.cons_eq_cons.mp shape).1
    rw [pieces_plain plain, ih fun d member => free d (List.mem_cons_of_mem _ member)]
    rfl

omit [DigitTables] in
theorem textOf_plain (s : List Char) : textOf (s.map Piece.plain) = s := by
  induction s with
  | nil => rfl
  | cons c s ih => exact congrArg (c :: ·) ih

section Numbers

theorem digitValue_ascii {c : Char} (digit : c.isDigit = true) :
    digitValue c = some (c.toNat - 48) := by
  have ascii : c.toNat < 128 := by
    simp only [Char.isDigit, Bool.and_eq_true, decide_eq_true_eq] at digit
    have small : c.val.toNat ≤ 57 := digit.2
    exact Nat.lt_of_le_of_lt small (by decide)
  unfold digitValue
  rw [if_pos ascii, if_pos digit]

/-- str(n) consists of digits, and int reads them back. -/
theorem digits_toString (n : Nat) :
    (toString n).toList ≠ [] ∧ (∀ c ∈ (toString n).toList, isDecimal c = true) ∧
      intOf (toString n).toList = n ∧ ∀ k, 0 < k → ((toString n).toList.length ≤ k ↔ n < 10 ^ k) := by
  have shape : (toString n).toList = Nat.toDigits 10 n := Nat.toList_repr
  have digit {c : Char} (member : c ∈ Nat.toDigits 10 n) : c.isDigit = true :=
    Nat.isDigit_of_mem_toDigits (by decide) (by decide) member
  rw [shape]
  refine ⟨Nat.toDigits_ne_nil, fun c member => ?_, ?_, fun k some_place =>
    Nat.length_toDigits_le_iff (by decide) some_place⟩
  · rw [isDecimal, digitValue_ascii (digit member)]
    rfl
  · have same : ∀ (cs : List Char) (start : Nat), (∀ c ∈ cs, c.isDigit = true) →
        cs.foldl (fun n c => n * 10 + (digitValue c).getD 0) start = Nat.ofDigitChars 10 cs start := by
      intro cs
      induction cs with
      | nil => exact fun _ _ => rfl
      | cons c cs ih =>
        intro start all
        rw [List.foldl_cons, ih _ fun d member => all d (List.mem_cons_of_mem _ member),
          Nat.ofDigitChars_cons, digitValue_ascii (all c List.mem_cons_self), Nat.mul_comm]
        rfl
    rw [intOf, same _ _ fun c member => digit member, Nat.ofDigitChars_ten_toDigits]

end Numbers

/-- A text may be cut at a character that no marker has. -/
theorem pieces_cut {c : Char} (stop : isDecimal c = false) (left : c ≠ '[') (right : c ≠ ']')
    (s t : List Char) : pieces fits (s ++ c :: t) = pieces fits s ++ .plain c :: pieces fits t := by
  have alone : markerAt fits (c :: t) = none := by
    rw [← Option.not_isSome_iff_eq_none, Option.isSome_iff_exists]
    rintro ⟨digits, found⟩
    obtain ⟨_, rest, shape⟩ := markerAt_some.mp found
    exact left (List.cons_eq_cons.mp shape).1
  induction s using piece_induction fits with
  | nil => exact pieces_plain alone
  | plain x s plain ih =>
    have still : markerAt fits (x :: s ++ c :: t) = none := by
      rw [← Option.not_isSome_iff_eq_none, Option.isSome_iff_exists]
      rintro ⟨digits, found⟩
      obtain ⟨ok, rest, shape⟩ := markerAt_some.mp found
      have inside : (x :: s) ++ c :: t = bracketed digits ++ rest := shape
      rcases List.append_eq_append_iff.mp inside with ⟨more, whole, _⟩ | ⟨more, whole, _⟩
      · have here : c ∈ bracketed digits ∨ more = [] := by
          cases more with
          | nil => exact .inr rfl
          | cons y more =>
            rename_i tail
            left
            rw [whole]
            have same := (List.cons_eq_cons.mp tail).1
            simp [same]
        rcases here with member | none
        · simp only [bracketed, List.cons_append, List.mem_cons, List.mem_append, List.not_mem_nil,
            or_false] at member
          rcases member with same | decimal | same
          · exact left same
          · rw [ok.decimal c decimal] at stop
            cases stop
          · exact right same
        · rw [none, List.append_nil] at whole
          rw [markerAt_some.mpr ⟨ok, [], by simp [whole]⟩] at plain
          cases plain
      · rw [markerAt_some.mpr ⟨ok, more, whole⟩] at plain
        cases plain
    rw [List.cons_append] at still ⊢
    rw [pieces_plain still, pieces_plain plain, ih]
    rfl
  | marker digits rest ok ih =>
    rw [List.append_assoc, pieces_marker ok, pieces_marker ok, ih]
    rfl

/-- What follows the first pieces of a text has the other pieces. -/
theorem pieces_rest {s : List Char} {front back : List Piece}
    (split : pieces fits s = front ++ back) : pieces fits (textOf back) = back := by
  induction s using piece_induction fits generalizing front with
  | nil =>
    obtain ⟨_, rfl⟩ := List.append_eq_nil_iff.mp split.symm
    rfl
  | plain c s plain ih =>
    cases front with
    | nil =>
      rw [List.nil_append] at split
      rw [← split, textOf_pieces]
    | cons p front =>
      rw [pieces_plain plain] at split
      exact ih (List.cons_eq_cons.mp split).2
  | marker digits rest ok ih =>
    cases front with
    | nil =>
      rw [List.nil_append] at split
      rw [← split, textOf_pieces]
    | cons p front =>
      rw [pieces_marker ok] at split
      exact ih (List.cons_eq_cons.mp split).2

/-- A stricter pattern finds the same markers, where it accepts them all. -/
theorem pieces_stricter {loose : List Char → Bool} {s : List Char}
    (all : ∀ digits, .marker digits ∈ pieces loose s → fits digits = true)
    (weaker : ∀ digits, fits digits = true → loose digits = true) :
    pieces fits s = pieces loose s := by
  induction s using piece_induction loose with
  | nil => rfl
  | plain c s plain ih =>
    rw [pieces_plain plain] at all ⊢
    have none_too : markerAt fits (c :: s) = none := by
      rw [← Option.not_isSome_iff_eq_none, Option.isSome_iff_exists]
      rintro ⟨digits, found⟩
      obtain ⟨ok, rest, shape⟩ := markerAt_some.mp found
      have loosely : markerAt loose (c :: s) = some digits :=
        markerAt_some.mpr ⟨⟨ok.some_digit, ok.decimal, weaker _ ok.fits⟩, rest, shape⟩
      rw [loosely] at plain
      cases plain
    rw [pieces_plain none_too, ih fun digits member => all digits (List.mem_cons_of_mem _ member)]
  | marker digits rest ok ih =>
    rw [pieces_marker ok] at all ⊢
    have strict : Digits fits digits := ⟨ok.some_digit, ok.decimal, all digits List.mem_cons_self⟩
    rw [pieces_marker strict, ih fun other member => all other (List.mem_cons_of_mem _ member)]

section Rewriting

/-- The piece with other digits in its marker. -/
def Piece.relabel (g : List Char → List Char) : Piece → Piece
  | .plain c => .plain c
  | .marker digits => .marker (g digits)

/-- pattern.sub with a function that gives another marker for each. -/
def rewrite (fits : List Char → Bool) (g : List Char → List Char) (s : List Char) : List Char :=
  textOf ((pieces fits s).map (Piece.relabel g))

variable {g : List Char → List Char}

/-- A run of digits and its closing bracket were in the text before. -/
theorem rewrite_digits {s digits rest : List Char} (decimal : ∀ c ∈ digits, isDecimal c = true)
    (shape : rewrite fits g s = digits ++ ']' :: rest) : ∃ more, s = digits ++ ']' :: more := by
  induction digits generalizing s with
  | nil =>
    induction s using piece_induction fits with
    | nil => cases shape
    | plain c s plain _ =>
      rw [rewrite, pieces_plain plain] at shape
      obtain ⟨rfl, _⟩ := List.cons_eq_cons.mp (show c :: _ = ']' :: rest from shape)
      exact ⟨s, rfl⟩
    | marker d r ok _ =>
      rw [rewrite, pieces_marker ok] at shape
      exact absurd (List.cons_eq_cons.mp (show '[' :: _ = ']' :: rest from shape)).1 (by decide)
  | cons x digits ih =>
    induction s using piece_induction fits with
    | nil => cases shape
    | plain c s plain _ =>
      rw [rewrite, pieces_plain plain] at shape
      obtain ⟨rfl, later⟩ :=
        List.cons_eq_cons.mp (show c :: rewrite fits g s = x :: (digits ++ ']' :: rest) from shape)
      obtain ⟨more, rfl⟩ := ih (fun d member => decimal d (List.mem_cons_of_mem _ member)) later
      exact ⟨more, rfl⟩
    | marker d r ok _ =>
      rw [rewrite, pieces_marker ok] at shape
      have same := (List.cons_eq_cons.mp (show '[' :: _ = x :: (digits ++ ']' :: rest) from shape)).1
      exact absurd same.symm (digit_plain (decimal x List.mem_cons_self)).1

theorem rewrite_plain {c : Char} {s : List Char} (plain : markerAt fits (c :: s) = none) :
    rewrite fits g (c :: s) = c :: rewrite fits g s := by
  rw [rewrite, pieces_plain plain]
  rfl

theorem rewrite_marker {digits : List Char} (ok : Digits fits digits) (rest : List Char) :
    rewrite fits g (bracketed digits ++ rest) = bracketed (g digits) ++ rewrite fits g rest := by
  rw [rewrite, pieces_marker ok]
  rfl

/-- The rewritten text has the same pieces with the new markers. -/
theorem pieces_rewrite (keeps : ∀ digits, Digits fits digits → Digits fits (g digits))
    (s : List Char) : pieces fits (rewrite fits g s) = (pieces fits s).map (Piece.relabel g) := by
  induction s using piece_induction fits with
  | nil => rfl
  | plain c s plain ih =>
    have still : markerAt fits (c :: rewrite fits g s) = none := by
      rw [← Option.not_isSome_iff_eq_none, Option.isSome_iff_exists]
      rintro ⟨digits, found⟩
      obtain ⟨ok, rest, shape⟩ := markerAt_some.mp found
      have parts : c :: rewrite fits g s = '[' :: (digits ++ ']' :: rest) := by
        rw [shape]
        simp [bracketed]
      obtain ⟨rfl, tail⟩ := List.cons_eq_cons.mp parts
      obtain ⟨more, rfl⟩ := rewrite_digits ok.decimal tail
      have before : markerAt fits ('[' :: (digits ++ ']' :: more)) = some digits :=
        markerAt_some.mpr ⟨ok, more, by simp [bracketed]⟩
      rw [before] at plain
      cases plain
    rw [rewrite_plain plain, pieces_plain still, pieces_plain plain, ih]
    rfl
  | marker digits rest ok ih =>
    rw [rewrite_marker ok, pieces_marker (keeps digits ok), pieces_marker ok, ih]
    rfl

theorem rewrite_cut {c : Char} (stop : isDecimal c = false) (left : c ≠ '[') (right : c ≠ ']')
    (s t : List Char) : rewrite fits g (s ++ c :: t) = rewrite fits g s ++ c :: rewrite fits g t := by
  simp only [rewrite, pieces_cut stop left right, List.map_append, List.map_cons, textOf,
    List.flatMap_append, List.flatMap_cons]
  rfl

end Rewriting

section Location

/-- A text without brackets that begins with a piece consists of characters of the text. -/
theorem locate_start {ps : List Piece} {x b : List Char} (shape : textOf ps = x ++ b)
    (open_text : ∀ c ∈ x, c ≠ '[') :
    ∃ back, ps = x.map Piece.plain ++ back ∧ textOf back = b := by
  induction x generalizing ps with
  | nil => exact ⟨ps, rfl, shape⟩
  | cons c x ih =>
    cases ps with
    | nil => cases shape
    | cons p ps =>
      cases p with
      | plain d =>
        obtain ⟨rfl, tail⟩ := List.cons_eq_cons.mp (show d :: textOf ps = c :: (x ++ b) from shape)
        obtain ⟨back, rfl, rest⟩ := ih tail fun e member => open_text e (List.mem_cons_of_mem _ member)
        exact ⟨back, rfl, rest⟩
      | marker digits =>
        have same := (List.cons_eq_cons.mp (show '[' :: _ = c :: (x ++ b) from shape)).1
        exact absurd same.symm (open_text c List.mem_cons_self)

/-- A text without brackets that is more than digits lies between the markers. -/
theorem locate {ps : List Piece} (decimal : ∀ digits, .marker digits ∈ ps →
      ∀ c ∈ digits, isDecimal c = true) {a x b : List Char} (shape : textOf ps = a ++ (x ++ b))
    (free : ∀ c ∈ x, c ≠ '[' ∧ c ≠ ']') {y : Char} (there : y ∈ x) (other : isDecimal y = false) :
    ∃ front back, ps = front ++ (x.map Piece.plain ++ back) ∧ textOf front = a ∧ textOf back = b := by
  induction ps generalizing a with
  | nil =>
    have none : a ++ (x ++ b) = [] := shape.symm
    simp only [List.append_eq_nil_iff] at none
    rw [none.2.1] at there
    cases there
  | cons p ps ih =>
    have later {a : List Char} :=
      @ih (fun digits member => decimal digits (List.mem_cons_of_mem _ member)) a
    rcases a with _ | ⟨c, a⟩
    · rw [List.nil_append] at shape
      obtain ⟨back, split, rest⟩ := locate_start shape fun c member => (free c member).1
      exact ⟨[], back, split, rfl, rest⟩
    · cases p with
      | plain d =>
        obtain ⟨rfl, tail⟩ :=
          List.cons_eq_cons.mp (show d :: textOf ps = c :: (a ++ (x ++ b)) from shape)
        obtain ⟨front, back, rfl, rfl, rest⟩ := later tail
        exact ⟨.plain d :: front, back, rfl, rfl, rest⟩
      | marker digits =>
        have parts : bracketed digits ++ textOf ps = (c :: a) ++ (x ++ b) := shape
        rcases List.append_eq_append_iff.mp parts with ⟨more, whole, tail⟩ | ⟨more, whole, tail⟩
        · obtain ⟨front, back, rfl, rfl, rest⟩ := later tail
          exact ⟨.marker digits :: front, back, rfl, whole.symm, rest⟩
        · cases more with
          | nil =>
            obtain ⟨front, back, rfl, empty, rest⟩ := @later [] tail.symm
            refine ⟨.marker digits :: front, back, rfl, ?_, rest⟩
            show bracketed digits ++ textOf front = c :: a
            rw [empty, whole, List.append_nil, List.append_nil]
          | cons e more =>
            -- a text that begins within the marker holds its bracket, or only digits
            exfalso
            obtain ⟨init, inside, cut⟩ : ∃ init, (∀ d ∈ init, d ∈ digits) ∧ e :: more = init ++ [']'] := by
              have open_marker : digits ++ [']'] = a ++ e :: more := (List.cons_eq_cons.mp whole).2
              rcases List.append_eq_append_iff.mp open_marker with ⟨m, _, ends⟩ | ⟨m, front, ends⟩
              · cases m with
                | nil => exact ⟨[], by simp, ends.symm⟩
                | cons d m => simp at ends
              · exact ⟨m, fun d member => front ▸ List.mem_append_right _ member, ends⟩
            rw [cut, List.append_assoc] at tail
            have digit {d : Char} (member : d ∈ init) : isDecimal d = true :=
              decimal digits List.mem_cons_self d (inside d member)
            rcases List.append_eq_append_iff.mp tail with ⟨m, front, _⟩ | ⟨m, front, ends⟩
            · rw [digit (front ▸ List.mem_append_left _ there)] at other
              cases other
            · cases m with
              | nil =>
                rw [front, List.append_nil] at there
                rw [digit there] at other
                cases other
              | cons d m =>
                have bracket := (List.cons_eq_cons.mp ends).1
                exact (free d (front ▸ by simp)).2 bracket.symm

theorem relabel_plain {g : List Char → List Char} {ps : List Piece} {u : List Char}
    (same : ps.map (Piece.relabel g) = u.map Piece.plain) : ps = u.map Piece.plain := by
  induction ps generalizing u with
  | nil => exact same
  | cons p ps ih =>
    cases u with
    | nil => cases same
    | cons c u =>
      obtain ⟨first, later⟩ := List.cons_eq_cons.mp same
      cases p with
      | plain d =>
        cases first
        rw [ih later]
        rfl
      | marker digits => cases first

theorem textOf_append (ps qs : List Piece) : textOf (ps ++ qs) = textOf ps ++ textOf qs :=
  List.flatMap_append

/-- Rewriting markers keeps the characters at both ends of a text. -/
theorem relabel_ends (g : List Char → List Char) (ps : List Piece) :
    (textOf (ps.map (Piece.relabel g))).head? = (textOf ps).head? ∧
      (textOf (ps.map (Piece.relabel g))).getLast? = (textOf ps).getLast? := by
  constructor
  · cases ps with
    | nil => rfl
    | cons p ps => cases p <;> rfl
  · rcases List.eq_nil_or_concat ps with rfl | ⟨init, p, rfl⟩
    · rfl
    · rw [List.concat_eq_append, List.map_append, textOf_append, textOf_append]
      cases p with
      | plain c => simp [textOf, Piece.relabel, Piece.text]
      | marker digits =>
        have close (d : List Char) (front : List Char) :
            (front ++ textOf [.marker d]).getLast? = some ']' := by
          have shape : front ++ textOf [.marker d] = (front ++ '[' :: d) ++ [']'] := by
            simp [textOf, Piece.text, bracketed]
          rw [shape, List.getLast?_concat]
        exact (close _ _).trans (close _ _).symm

end Location

end

end Markers
