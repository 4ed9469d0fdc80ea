import RagProject.Lib.IpAddressText
import RagProject.Lib.Markers

/-! int(text) and str(n), with the limit that the interpreter sets to the digits of both. -/
namespace Python

/-- sys.get_int_max_str_digits(). -/
def maxStrDigits : Nat := 4300

/-- The blanks that int skips. The separators 28 to 31 are not among them. -/
def isIntSpace (c : Char) : Bool := isSpace c && !(28 ≤ c.toNat && c.toNat ≤ 31)

/-- str(n), which fails for too many digits. -/
def strOfInt (n : Int) : Option (List Char) :=
  let digits := Nat.toDigits 10 n.natAbs
  if maxStrDigits < digits.length then none
  else some (if n < 0 then '-' :: digits else digits)

theorem strOfInt_some {n : Int} {text : List Char} (written : strOfInt n = some text) :
    (Nat.toDigits 10 n.natAbs).length ≤ maxStrDigits ∧
      text = if n < 0 then '-' :: Nat.toDigits 10 n.natAbs else Nat.toDigits 10 n.natAbs := by
  unfold strOfInt at written
  by_cases long : maxStrDigits < (Nat.toDigits 10 n.natAbs).length
  · rw [if_pos long] at written
    cases written
  · rw [if_neg long] at written
    exact ⟨Nat.le_of_not_lt long, (Option.some.inj written).symm⟩

theorem strOfInt_dot {n : Int} {text : List Char} (written : strOfInt n = some text) :
    '.' ∉ text := by
  have digits : '.' ∉ Nat.toDigits 10 n.natAbs := fun member =>
    nomatch Nat.isDigit_of_mem_toDigits (by decide) (by decide) member
  rw [(strOfInt_some written).2]
  split
  · simpa using digits
  · exact digits

section Reading
variable [DigitTables]

/-- The digits of a number, with at most one underscore between two of them. -/
def digitGroups (text : List Char) : Option Nat :=
  let groups := text.splitOn '_'
  if groups.all (fun group => group ≠ [] && group.all isDecimal) = false then none
  else if maxStrDigits < groups.flatten.length then none
  else some (intOf groups.flatten)

/-- int(text). -/
def parseInt (text : List Char) : Option Int :=
  match ((text.dropWhile isIntSpace).reverse.dropWhile isIntSpace).reverse with
  | '+' :: digits => (digitGroups digits).map Int.ofNat
  | '-' :: digits => (digitGroups digits).map fun n : Nat => -(n : Int)
  | digits => (digitGroups digits).map Int.ofNat

theorem digitValue_ascii {c : Char} (digit : c.isDigit = true) :
    digitValue c = some (hexValue c) ∧ isIntSpace c = false := by
  have range : 48 ≤ c.toNat ∧ c.toNat ≤ 57 := by
    simp only [Char.isDigit, Bool.and_eq_true, decide_eq_true_eq, UInt32.le_iff_toNat_le] at digit
    exact digit
  constructor
  · unfold digitValue hexValue
    rw [if_pos (by omega), if_pos digit, if_pos digit]
    rfl
  · unfold isIntSpace isSpace
    grind

theorem intOf_ascii {digits : List Char} (all : ∀ c ∈ digits, c.isDigit = true) :
    intOf digits = ofDigits 10 digits := by
  have step : ∀ n, digits.foldl (fun n c => n * 10 + (digitValue c).getD 0) n =
      digits.foldl (fun n c => n * 10 + hexValue c) n := by
    induction digits with
    | nil => exact fun _ => rfl
    | cons c digits ih =>
      intro n
      rw [List.foldl_cons, List.foldl_cons, (digitValue_ascii (all c List.mem_cons_self)).1]
      exact ih (fun d member => all d (List.mem_cons_of_mem _ member)) _
  exact step 0

theorem digitGroups_digits {n : Nat} (fits : (Nat.toDigits 10 n).length ≤ maxStrDigits) :
    digitGroups (Nat.toDigits 10 n) = some n := by
  have digits : ∀ c ∈ Nat.toDigits 10 n, c.isDigit = true := fun c member =>
    Nat.isDigit_of_mem_toDigits (by decide) (by decide) member
  have single : (Nat.toDigits 10 n).splitOn '_' = [Nat.toDigits 10 n] := by
    have none : '_' ∉ Nat.toDigits 10 n := fun member => nomatch digits '_' member
    have split := List.splitOn_intercalate '_' (fun part member => List.mem_singleton.mp member ▸ none)
      (List.cons_ne_nil (Nat.toDigits 10 n) [])
    rwa [List.intercalate_singleton] at split
  have decimal : (Nat.toDigits 10 n).all isDecimal = true := by
    rw [List.all_eq_true]
    intro c member
    unfold isDecimal
    rw [(digitValue_ascii (digits c member)).1]
    rfl
  unfold digitGroups
  rw [single]
  simp only [List.all_cons, List.all_nil, decimal, List.flatten_cons, List.flatten_nil,
    List.append_nil, Nat.not_lt.mpr fits, intOf_ascii digits,
    (digits_read 10 (by decide) (by decide) n).1]
  simp

/-- What is written as a number is read as the number. -/
theorem parseInt_str {n : Int} {text : List Char} (written : strOfInt n = some text) :
    parseInt text = some n := by
  obtain ⟨fits, rfl⟩ := strOfInt_some written
  have read := digitGroups_digits fits
  have digits : ∀ c ∈ Nat.toDigits 10 n.natAbs, c.isDigit = true := fun c member =>
    Nat.isDigit_of_mem_toDigits (by decide) (by decide) member
  have solid : ∀ c ∈ if n < 0 then '-' :: Nat.toDigits 10 n.natAbs else Nat.toDigits 10 n.natAbs,
      isIntSpace c = false := by
    intro c member
    split at member
    · rcases List.mem_cons.mp member with rfl | inside
      · decide
      · exact (digitValue_ascii (digits c inside)).2
    · exact (digitValue_ascii (digits c member)).2
  have kept (s : List Char) (each : ∀ c ∈ s, isIntSpace c = false) : s.dropWhile isIntSpace = s := by
    cases s with
    | nil => rfl
    | cons c rest => exact List.dropWhile_cons_of_neg (by simp [each c List.mem_cons_self])
  unfold parseInt
  rw [kept _ solid, kept _ fun c member => solid c (List.mem_reverse.mp member), List.reverse_reverse]
  by_cases negative : n < 0
  · rw [if_pos negative]
    simp only [read, Option.map_some]
    congr 1
    omega
  · rw [if_neg negative]
    obtain ⟨first, rest, shape⟩ := List.exists_cons_of_ne_nil
      (Nat.toDigits_ne_nil (n := n.natAbs) (b := 10))
    have digit := digits first (by simp [shape])
    rw [shape] at read ⊢
    split
    · rename_i same
      cases same
      cases digit
    · rename_i same
      cases same
      cases digit
    · have whole : Int.ofNat n.natAbs = n := Int.natAbs_of_nonneg (Int.not_lt.mp negative)
      rw [read, Option.map_some, whole]

end Reading
end Python
