import Mathlib.Data.List.Basic
import Mathlib.Data.List.DropRight
import Mathlib.Data.Rat.Defs

/-! Values of an interpreted language as they pass through JSON columns, and the
text primitives that programs over them use. Only the tables for characters
outside ASCII are left open. -/
namespace Python

-- Found before the instances that go through all characters.
section Members
variable {α : Type*} (p : α → Prop) [DecidablePred p]

instance (priority := 1100) decidableMembers (l : List α) : Decidable (∀ x, x ∈ l → p x) :=
  List.decidableBAll p l

instance (priority := 1100) decidableSomeMember (l : List α) : Decidable (∃ x, x ∈ l ∧ p x) :=
  List.decidableBEx p l

instance (priority := 1100) decidableOption (o : Option α) : Decidable (∀ x, x ∈ o → p x) :=
  Option.decidableForallMem o

instance (priority := 1100) decidableSomeOption (o : Option α) : Decidable (∃ x, x ∈ o ∧ p x) :=
  Option.decidableExistsMem o

end Members

inductive Value where
  | none
  | bool (b : Bool)
  | int (n : Int)
  | float (q : Rat)
  | str (s : String)
  | list (items : List Value)
  | dict (entries : List (String × Value))
  deriving Repr

/- Identity of values, by the constructors. It separates True, 1 and 1.0. -/
mutual
def Value.same : Value → Value → Bool
  | .none, .none => true
  | .bool a, .bool b => a == b
  | .int a, .int b => a == b
  | .float a, .float b => a == b
  | .str a, .str b => a == b
  | .list xs, .list ys => sameItems xs ys
  | .dict xs, .dict ys => sameEntries xs ys
  | _, _ => false
def sameItems : List Value → List Value → Bool
  | [], [] => true
  | x :: xs, y :: ys => x.same y && sameItems xs ys
  | _, _ => false
def sameEntries : List (String × Value) → List (String × Value) → Bool
  | [], [] => true
  | (k, x) :: xs, (l, y) :: ys => k == l && x.same y && sameEntries xs ys
  | _, _ => false
end

mutual
theorem Value.same_iff : ∀ a b : Value, a.same b = true ↔ a = b := by
  intro a b
  cases a <;> cases b <;> simp [Value.same]
  · exact sameItems_iff _ _
  · exact sameEntries_iff _ _
theorem sameItems_iff : ∀ xs ys : List Value, sameItems xs ys = true ↔ xs = ys
  | [], [] => by simp [sameItems]
  | [], _ :: _ => by simp [sameItems]
  | _ :: _, [] => by simp [sameItems]
  | x :: xs, y :: ys => by simp [sameItems, Value.same_iff x y, sameItems_iff xs ys]
theorem sameEntries_iff : ∀ xs ys : List (String × Value), sameEntries xs ys = true ↔ xs = ys
  | [], [] => by simp [sameEntries]
  | [], _ :: _ => by simp [sameEntries]
  | _ :: _, [] => by simp [sameEntries]
  | (k, x) :: xs, (l, y) :: ys => by
    simp [sameEntries, Value.same_iff x y, sameEntries_iff xs ys, and_assoc]
end

instance : DecidableEq Value := fun a b => decidable_of_iff _ (Value.same_iff a b)

/-- Induction over what a value holds. -/
@[elab_as_elim]
theorem Value.nested {P : Value → Prop} (none : P .none) (bool : ∀ b, P (.bool b))
    (int : ∀ n, P (.int n)) (float : ∀ q, P (.float q)) (str : ∀ s, P (.str s))
    (list : ∀ items, (∀ v ∈ items, P v) → P (.list items))
    (dict : ∀ entries, (∀ e ∈ entries, P e.2) → P (.dict entries)) (v : Value) : P v := by
  apply @Value.rec P (fun items => ∀ v ∈ items, P v) (fun entries => ∀ e ∈ entries, P e.2)
    (fun e => P e.2) none bool int float str list dict
  · exact fun v member => nomatch member
  · intro v items first rest w member
    rcases List.mem_cons.mp member with rfl | later
    · exact first
    · exact rest w later
  · exact fun e member => nomatch member
  · intro e entries first rest w member
    rcases List.mem_cons.mp member with rfl | later
    · exact first
    · exact rest w later
  · exact fun _ _ inner => inner

/-- An insertion-ordered mapping with distinct keys. -/
abbrev Dict := List (String × Value)

def Dict.get (d : Dict) (key : String) : Option Value := List.lookup key d

/-- Assignment keeps the place of a key that is there and appends a new one. -/
def Dict.set (d : Dict) (key : String) (value : Value) : Dict :=
  if d.any (fun e => e.1 == key)
  then d.map (fun e => if e.1 == key then (key, value) else e)
  else d ++ [(key, value)]

theorem get_cons (k key : String) (v : Value) (d : Dict) :
    Dict.get ((k, v) :: d) key = if key = k then some v else Dict.get d key := by
  unfold Dict.get
  by_cases same : key = k
  · simp [same]
  · have miss : (key == k) = false := by simpa using same
    simp only [List.lookup_cons, miss, same, if_false]

theorem get_nil (key : String) : Dict.get [] key = none := rfl

/-- Assignment to one key leaves the others. -/
theorem get_set_ne (d : Dict) {key other : String} (value : Value) (ne : key ≠ other) :
    Dict.get (Dict.set d other value) key = Dict.get d key := by
  have replaced : Dict.get (d.map fun e => if e.1 == other then (other, value) else e) key =
      Dict.get d key := by
    induction d with
    | nil => rfl
    | cons e d ih =>
      obtain ⟨k, v⟩ := e
      rw [List.map_cons, get_cons k key v d, ← ih]
      by_cases hit : k = other
      · simp only [hit, beq_self_eq_true, if_true, get_cons, ne, if_false]
      · simp only [beq_iff_eq, hit, if_false, get_cons]
  unfold Dict.set
  split
  · exact replaced
  · unfold Dict.get
    have miss : (key == other) = false := by simpa using ne
    rw [List.lookup_append]
    simp only [List.lookup_cons, List.lookup_nil, miss, Option.or_none]

theorem get_mem {d : Dict} {key : String} {value : Value} (found : Dict.get d key = some value) :
    (key, value) ∈ d := by
  induction d with
  | nil => cases found
  | cons e d ih =>
    obtain ⟨k, v⟩ := e
    rw [get_cons] at found
    split at found
    · rename_i same
      cases found
      exact same ▸ List.mem_cons_self
    · exact List.mem_cons_of_mem _ (ih found)

theorem get_set_self (d : Dict) (key : String) (value : Value) :
    Dict.get (Dict.set d key value) key = some value := by
  unfold Dict.set
  split
  · rename_i there
    induction d with
    | nil => cases there
    | cons e d ih =>
      obtain ⟨k, v⟩ := e
      rw [List.map_cons]
      by_cases same : k = key
      · simp [same, get_cons]
      · have rest : d.any (fun e => e.1 == key) = true := by simpa [same] using there
        have step := ih rest
        simpa only [beq_iff_eq, same, if_false, get_cons, Ne.symm same] using step
  · rename_i fresh
    have absent : Dict.get d key = none := by
      cases found : Dict.get d key with
      | none => rfl
      | some v => exact absurd (List.any_eq_true.mpr ⟨_, get_mem found, by simp⟩) fresh
    unfold Dict.get at absent ⊢
    rw [List.lookup_append, absent]
    simp

/-- The keys of a mapping stay distinct under assignment. -/
theorem set_distinct {d : Dict} (distinct : (d.map Prod.fst).Nodup) (key : String)
    (value : Value) : ((Dict.set d key value).map Prod.fst).Nodup := by
  unfold Dict.set
  split
  · have keys : (d.map fun e => if e.1 == key then (key, value) else e).map Prod.fst =
        d.map Prod.fst := by
      rw [List.map_map]
      refine List.map_congr_left fun e _ => ?_
      simp only [Function.comp]
      split
      · rename_i same
        exact (beq_iff_eq.mp same).symm
      · rfl
    rwa [keys]
  · rename_i fresh
    rw [List.map_append, List.nodup_append]
    refine ⟨distinct, by simp, ?_⟩
    intro k member l last same
    obtain ⟨e, he, rfl⟩ := List.mem_map.mp member
    have last : l = key := by simpa using last
    exact fresh (List.any_eq_true.mpr ⟨e, he, by simp [same, last]⟩)

theorem set_mem {d : Dict} {key : String} {value : Value} {e : String × Value}
    (member : e ∈ Dict.set d key value) : e = (key, value) ∨ e ∈ d := by
  unfold Dict.set at member
  split at member
  · obtain ⟨old, there, rfl⟩ := List.mem_map.mp member
    split
    · exact .inl rfl
    · exact .inr there
  · rcases List.mem_append.mp member with there | last
    · exact .inr there
    · exact .inl (List.mem_singleton.mp last)

theorem set_fresh {d : Dict} {key : String} {value : Value} (fresh : ∀ e ∈ d, e.1 ≠ key) :
    Dict.set d key value = d ++ [(key, value)] := by
  have absent : d.any (fun e => e.1 == key) = false := by simpa using fresh
  rw [Dict.set, absent, if_neg Bool.false_ne_true]

/-- Assignment commutes with a change of every value. -/
theorem set_map (f : Value → Value) (d : Dict) (key : String) (value : Value) :
    (Dict.set d key value).map (fun e => (e.1, f e.2)) =
      Dict.set (d.map fun e => (e.1, f e.2)) key (f value) := by
  have keys : (d.map fun e => (e.1, f e.2)).any (fun e => e.1 == key) =
      d.any (fun e => e.1 == key) := by
    rw [List.any_map]
    rfl
  unfold Dict.set
  rw [keys]
  split
  · rw [List.map_map, List.map_map]
    apply List.map_congr_left
    intro e _
    simp only [Function.comp]
    split <;> rfl
  · rw [List.map_append]
    rfl

/-- isinstance(value, int): booleans are integers. -/
def Value.isInt : Value → Bool
  | .int _ | .bool _ => true
  | _ => false

/-- An integer that is not a boolean and is at least one. -/
def Value.positiveInt : Value → Option Nat
  | .int n => if 1 ≤ n then some n.toNat else Option.none
  | _ => Option.none

theorem positiveInt_none : Value.positiveInt .none = none := rfl

theorem positiveInt_cast {n : Nat} (positive : 0 < n) : Value.positiveInt (.int n) = some n := by
  have h : (1 : Int) ≤ n := by omega
  simp [Value.positiveInt, h]

/-- bool(value). -/
def Value.truthy : Value → Bool
  | .none => false
  | .bool b => b
  | .int n => n != 0
  | .float q => q != 0
  | .str s => s != ""
  | .list items => !items.isEmpty
  | .dict entries => !entries.isEmpty

/-- What the interpreter's tables say of the characters outside ASCII. -/
class UnicodeTables where
  alnum : Char → Bool
  lower : Char → List Char

/-- Tables for texts that stay in ASCII. -/
@[reducible] def asciiTables : UnicodeTables where
  alnum _ := false
  lower c := [c]

/-- str.isspace of one character, also the class \s. -/
def isSpace (c : Char) : Bool :=
  let n := c.toNat
  (9 ≤ n && n ≤ 13) || (28 ≤ n && n ≤ 32) || n == 0x85 || n == 0xa0 || n == 0x1680 ||
    (0x2000 ≤ n && n ≤ 0x200a) || n == 0x2028 || n == 0x2029 || n == 0x202f ||
    n == 0x205f || n == 0x3000

/-- The class \w. -/
def isWord [UnicodeTables] (c : Char) : Bool :=
  if c.toNat < 128 then c.isAlphanum || c == '_' else UnicodeTables.alnum c

/-- str.lower. -/
def lower [UnicodeTables] (s : List Char) : List Char :=
  s.flatMap fun c => if c.toNat < 128 then [c.toLower] else UnicodeTables.lower c

theorem lower_ascii (s t : UnicodeTables) {text : List Char} (ascii : ∀ x ∈ text, x.toNat < 128) :
    @lower s text = @lower t text := by
  unfold lower
  refine List.flatMap_congr fun c member => ?_
  simp only [ascii c member, if_true]

/-- The substring test `part in s`. -/
def contains (s part : List Char) : Bool := s.tails.any (part.isPrefixOf ·)

/-- str.endswith. -/
def endsWith (s suffix : String) : Bool := suffix.toList.isSuffixOf s.toList

/-- str.split() without a separator: the maximal runs of other characters. -/
def splitWords : List Char → List (List Char)
  | [] => []
  | c :: cs =>
    if isSpace c then splitWords cs
    else match cs with
      | [] => [[c]]
      | d :: _ =>
        if isSpace d then [c] :: splitWords cs
        else match splitWords cs with
          | w :: ws => (c :: w) :: ws
          | [] => [[c]]

/-- sep.join(parts). -/
def join (sep : List Char) : List (List Char) → List Char
  | [] => []
  | [w] => w
  | w :: v :: ws => w ++ sep ++ join sep (v :: ws)

/-- str.strip(). -/
def strip (s : List Char) : List Char :=
  ((s.dropWhile isSpace).reverse.dropWhile isSpace).reverse

/-- A stripped text begins where the text without its leading blanks begins. -/
theorem strip_strip (s : List Char) : strip (strip s) = strip s := by
  have kept : (strip s).dropWhile isSpace = strip s := by
    have front : strip s <+: s.dropWhile isSpace := List.rdropWhile_prefix isSpace _
    cases shape : strip s with
    | nil => rfl
    | cons c rest =>
      rw [shape] at front
      obtain ⟨back, whole⟩ := front
      have first : (s.dropWhile isSpace).dropWhile isSpace = s.dropWhile isSpace :=
        List.dropWhile_idempotent isSpace _
      have graphic : isSpace c = false := by
        by_contra blank
        rw [← whole, List.cons_append, List.dropWhile_cons_of_pos (by simpa using blank)] at first
        have length := congrArg List.length first
        have shorter := (List.dropWhile_sublist (l := rest ++ back) isSpace).length_le
        simp only [List.length_cons] at length
        omega
      exact List.dropWhile_cons_of_neg (by simp [graphic])
  have ending : (strip s).rdropWhile isSpace = strip s := List.rdropWhile_idempotent isSpace _
  calc strip (strip s) = ((strip s).dropWhile isSpace).rdropWhile isSpace := rfl
    _ = (strip s).rdropWhile isSpace := by rw [kept]
    _ = strip s := ending

/-- What the case tables keep to: a lowered character stays when it is lowered again, and a
character that shows does not become a blank. -/
structure LowerLaws [UnicodeTables] : Prop where
  again : ∀ c : Char, 128 ≤ c.toNat → lower (UnicodeTables.lower c) = UnicodeTables.lower c
  graphic : ∀ c : Char, 128 ≤ c.toNat → isSpace c = false →
    UnicodeTables.lower c ≠ [] ∧ ∀ d ∈ UnicodeTables.lower c, isSpace d = false

theorem ascii_lower {c : Char} (ascii : c.toNat < 128) :
    c.toLower.toNat < 128 ∧ c.toLower.toLower = c.toLower ∧
      (isSpace c = false → isSpace c.toLower = false) := by
  have all : ∀ n < 128, (Char.ofNat n).toLower.toNat < 128 ∧
      (Char.ofNat n).toLower.toLower = (Char.ofNat n).toLower ∧
      (isSpace (Char.ofNat n) = false → isSpace (Char.ofNat n).toLower = false) := by
    decide +kernel
  have one := all c.toNat ascii
  rwa [Char.ofNat_toNat] at one

section
variable [UnicodeTables]

theorem lower_append (s t : List Char) : lower (s ++ t) = lower s ++ lower t :=
  List.flatMap_append

theorem lower_lower (laws : LowerLaws) (s : List Char) : lower (lower s) = lower s := by
  induction s with
  | nil => rfl
  | cons c s ih =>
    have split : lower (c :: s) = lower [c] ++ lower s := lower_append [c] s
    rw [split, lower_append, ih]
    congr 1
    by_cases ascii : c.toNat < 128
    · obtain ⟨small, again, _⟩ := ascii_lower ascii
      simp only [lower, List.flatMap_cons, List.flatMap_nil, if_pos ascii, List.append_nil,
        if_pos small, again]
    · simp only [lower, List.flatMap_cons, List.flatMap_nil, if_neg ascii, List.append_nil]
      exact laws.again c (Nat.le_of_not_lt ascii)

theorem lower_graphic (laws : LowerLaws) {c : Char} (graphic : isSpace c = false) :
    lower [c] ≠ [] ∧ ∀ d ∈ lower [c], isSpace d = false := by
  by_cases ascii : c.toNat < 128
  · simp only [lower, List.flatMap_cons, List.flatMap_nil, if_pos ascii, List.append_nil]
    exact ⟨by simp, by simpa using (ascii_lower ascii).2.2 graphic⟩
  · simp only [lower, List.flatMap_cons, List.flatMap_nil, if_neg ascii, List.append_nil]
    exact laws.graphic c (Nat.le_of_not_lt ascii) graphic

end

theorem strip_eq_self {s : List Char} :
    strip s = s ↔ s = [] ∨ ∃ first last, s.head? = some first ∧ s.getLast? = some last ∧
      isSpace first = false ∧ isSpace last = false := by
  cases s with
  | nil => simp [strip]
  | cons first rest =>
    have ends : (first :: rest).getLast? = some ((first :: rest).getLast (by simp)) :=
      List.getLast?_eq_some_getLast _
    simp only [reduceCtorEq, false_or, List.head?_cons, Option.some.injEq, ends]
    have right (l : List Char) : strip l = (l.dropWhile isSpace).rdropWhile isSpace := rfl
    constructor
    · intro same
      have front : (first :: rest).dropWhile isSpace = first :: rest := by
        refine (List.dropWhile_suffix isSpace).eq_of_length_le ?_
        have shorter := (List.rdropWhile_prefix isSpace ((first :: rest).dropWhile isSpace)).length_le
        rw [← right, same] at shorter
        exact shorter
      rw [right, front, List.rdropWhile_eq_self_iff] at same
      refine ⟨_, _, rfl, rfl, ?_, by simpa using same (by simp)⟩
      exact eq_false_of_ne_true (List.dropWhile_eq_self_iff.mp front (by simp))
    · rintro ⟨_, _, rfl, rfl, head, tail⟩
      rw [right, List.dropWhile_cons_of_neg (by simp [head]), List.rdropWhile_eq_self_iff]
      intro _
      simp [tail]

/-- A text without blanks at its ends has none when it is lowered. -/
theorem strip_lower [UnicodeTables] (laws : LowerLaws) {s : List Char} (stripped : strip s = s) :
    strip (lower s) = lower s := by
  rcases strip_eq_self.mp stripped with rfl | ⟨first, last, head, tail, graphicHead, graphicTail⟩
  · rfl
  · refine strip_eq_self.mpr (.inr ?_)
    obtain ⟨rest, rfl⟩ := List.head?_eq_some_iff.mp head
    obtain ⟨someHead, headSafe⟩ := lower_graphic laws graphicHead
    obtain ⟨someTail, tailSafe⟩ := lower_graphic laws graphicTail
    obtain ⟨front, shape⟩ := List.getLast?_eq_some_iff.mp tail
    obtain ⟨a, as, low⟩ := List.exists_cons_of_ne_nil someHead
    obtain ⟨bs, b, up⟩ := List.eq_nil_or_concat (lower [last]) |>.resolve_left someTail
    refine ⟨a, b, ?_, ?_, headSafe a (by simp [low]), tailSafe b (by simp [up])⟩
    · have split : lower (first :: rest) = lower [first] ++ lower rest := lower_append [first] rest
      rw [split, low]
      rfl
    · rw [shape, lower_append, up, List.concat_eq_append, ← List.append_assoc, List.getLast?_concat]

theorem lower_ne_nil [UnicodeTables] (laws : LowerLaws) {s : List Char} (stripped : strip s = s)
    (shows : s ≠ []) : lower s ≠ [] := by
  obtain ⟨first, _, head, _, graphic, _⟩ := (strip_eq_self.mp stripped).resolve_left shows
  obtain ⟨rest, rfl⟩ := List.head?_eq_some_iff.mp head
  have split : lower (first :: rest) = lower [first] ++ lower rest := lower_append [first] rest
  rw [split]
  exact List.append_ne_nil_of_left_ne_nil (lower_graphic laws graphic).1 _

end Python
