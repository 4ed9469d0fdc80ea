import RagProject.Lib.Python

/-! JSON values over texts of code points. A surrogate may stand alone in a text, which then has no
encoding in UTF-8. -/

/-- A character of a text, surrogates included. -/
abbrev CodePoint := Fin 0x110000

inductive Json where
  | null
  | bool (b : Bool)
  | int (n : Int)
  | float (bits : BitVec 64)
  | str (text : List CodePoint)
  | list (items : List Json)
  | dict (entries : List (List CodePoint × Json))
  deriving Repr

namespace Json

abbrev Text := List CodePoint

abbrev Entries := List (Text × Json)

instance : LawfulBEq Text := inferInstanceAs (LawfulBEq (List CodePoint))

section Texts

def codePoint (c : Char) : CodePoint :=
  ⟨c.toNat, by
    rcases c.valid with low | high
    · exact Nat.lt_trans low (by decide)
    · exact high.2⟩

/-- The text of a string, which has no surrogates. -/
def chars (s : String) : Text := s.toList.map codePoint

def isSurrogate (c : CodePoint) : Bool := 0xd800 ≤ c.val && c.val ≤ 0xdfff

/-- text.encode("utf-8") succeeds. -/
def encodes (text : Text) : Bool := text.all fun c => !isSurrogate c

theorem codePoint_solid (c : Char) : isSurrogate (codePoint c) = false := by
  have shape : c.toNat < 0xd800 ∨ 0xdfff < c.toNat ∧ c.toNat < 0x110000 := c.valid
  unfold isSurrogate codePoint
  rw [Bool.and_eq_false_iff, decide_eq_false_iff_not, decide_eq_false_iff_not]
  dsimp only
  omega

@[simp] theorem chars_encodes (s : String) : encodes (chars s) = true := by
  unfold encodes chars
  rw [List.all_map, List.all_eq_true]
  intro c _
  simp only [Function.comp, codePoint_solid, Bool.not_false]

@[simp] theorem encodes_append (a b : Text) : encodes (a ++ b) = (encodes a && encodes b) :=
  List.all_append

theorem encodes_ascii {text : Text} (ascii : ∀ c ∈ text, c.val < 128) : encodes text = true := by
  unfold encodes
  rw [List.all_eq_true]
  intro c member
  have small := ascii c member
  simp only [isSurrogate, Bool.not_eq_true', Bool.and_eq_false_iff, decide_eq_false_iff_not]
  omega

/-- A character as the tables know it; a surrogate is none of theirs. -/
def charOf (c : CodePoint) : Char := Char.ofNat c.val

/-- str.strip(). -/
def strip (text : Text) : Text :=
  ((text.dropWhile fun c => Python.isSpace (charOf c)).reverse.dropWhile
    fun c => Python.isSpace (charOf c)).reverse

theorem strip_solid {text : Text} (solid : ∀ c ∈ text, Python.isSpace (charOf c) = false) :
    strip text = text := by
  have kept (s : Text) (each : ∀ c ∈ s, Python.isSpace (charOf c) = false) :
      s.dropWhile (fun c => Python.isSpace (charOf c)) = s := by
    cases s with
    | nil => rfl
    | cons c rest => exact List.dropWhile_cons_of_neg (by simp [each c List.mem_cons_self])
  unfold strip
  rw [kept _ solid, kept _ fun c member => solid c (List.mem_reverse.mp member),
    List.reverse_reverse]

end Texts

section Values

mutual
/-- Every text of a value can be encoded. -/
def plain : Json → Bool
  | .str text => encodes text
  | .list items => itemsPlain items
  | .dict entries => entriesPlain entries
  | .null | .bool _ | .int _ | .float _ => true
def itemsPlain : List Json → Bool
  | [] => true
  | v :: items => v.plain && itemsPlain items
def entriesPlain : List (List CodePoint × Json) → Bool
  | [] => true
  | (key, v) :: entries => encodes key && v.plain && entriesPlain entries
end

theorem itemsPlain_all (items : List Json) : itemsPlain items = items.all plain := by
  induction items with
  | nil => rfl
  | cons v items ih => rw [itemsPlain, ih, List.all_cons]

@[simp] theorem itemsPlain_nil : itemsPlain [] = true := rfl

@[simp] theorem itemsPlain_cons (v : Json) (items : List Json) :
    itemsPlain (v :: items) = (v.plain && itemsPlain items) := rfl

@[simp] theorem entriesPlain_nil : entriesPlain [] = true := rfl

@[simp] theorem entriesPlain_cons (key : Text) (v : Json) (entries : Entries) :
    entriesPlain ((key, v) :: entries) = (encodes key && v.plain && entriesPlain entries) := rfl

attribute [simp] plain

/-- entries.get(key). -/
def get (entries : Entries) (key : String) : Option Json := entries.lookup (chars key)

end Values
end Json
