import RagProject.Lib.Regex

/-! What a pattern matches, told by the text it takes rather than by the search for it. -/
namespace Regex

/-- The character before the place after `taken`. -/
def lastOf (before : Option Char) (taken : List Char) : Option Char := taken.getLast?.or before

@[simp] theorem lastOf_nil (before : Option Char) : lastOf before [] = before := by
  simp [lastOf]

@[simp] theorem lastOf_append (before : Option Char) (u v : List Char) :
    lastOf before (u ++ v) = lastOf (lastOf before u) v := by
  simp only [lastOf, List.getLast?_append, Option.or_assoc]

@[simp] theorem lastOf_singleton (before : Option Char) (c : Char) :
    lastOf before [c] = some c := rfl

section
variable [Python.UnicodeTables]

/-- A pattern takes a text that stands between a character and a rest. -/
inductive Matches : Pattern → Option Char → List Char → List Char → Prop where
  | empty (before rest) : Matches .empty before [] rest
  | char {accepts : Char → Bool} {x : Char} (ok : accepts x = true) (before rest) :
      Matches (.char accepts) before [x] rest
  | seq {a b : Pattern} {before : Option Char} {u v rest : List Char}
      (first : Matches a before u (v ++ rest)) (second : Matches b (lastOf before u) v rest) :
      Matches (.seq a b) before (u ++ v) rest
  | altLeft {a b : Pattern} {before : Option Char} {u rest : List Char}
      (left : Matches a before u rest) : Matches (.alt a b) before u rest
  | altRight {a b : Pattern} {before : Option Char} {u rest : List Char}
      (right : Matches b before u rest) : Matches (.alt a b) before u rest
  | starDone (a : Pattern) (before rest) : Matches (.star a) before [] rest
  | starTurn {a : Pattern} {before : Option Char} {u v rest : List Char} (moves : u ≠ [])
      (turn : Matches a before u (v ++ rest)) (later : Matches (.star a) (lastOf before u) v rest) :
      Matches (.star a) before (u ++ v) rest
  | textStart (rest) : Matches .textStart none [] rest
  | wordEdge {before : Option Char} {rest : List Char} (edge : atWordEdge ⟨before, rest⟩ = true) :
      Matches .wordEdge before [] rest
  | notAhead {a : Pattern} {before : Option Char} {rest : List Char}
      (none_there : a.ends ⟨before, rest⟩ = []) : Matches (.notAhead a) before [] rest

/-- Every end that is found belongs to a text the pattern takes. -/
def Ends (p : Pattern) (c d : Cursor) : Prop :=
  ∃ u, c.rest = u ++ d.rest ∧ d.before = lastOf c.before u ∧ Matches p c.before u d.rest

theorem Ends.stay {p : Pattern} {c : Cursor} (matched : Matches p c.before [] c.rest) : Ends p c c :=
  ⟨[], rfl, by simp, matched⟩

theorem starEnds_ends {a : Pattern} {f : Cursor → List Cursor} (sound : ∀ c, ∀ d ∈ f c, Ends a c d)
    (fuel : Nat) (c : Cursor) : ∀ d ∈ starEnds f fuel c, Ends (.star a) c d := by
  induction fuel generalizing c with
  | zero =>
    intro d member
    cases List.mem_singleton.mp member
    exact .stay (.starDone _ _ _)
  | succ fuel ih =>
    intro e member
    rcases List.mem_cons.mp member with rfl | later
    · exact .stay (.starDone _ _ _)
    · obtain ⟨d, hd, he⟩ := List.mem_flatMap.mp later
      obtain ⟨there, shorter⟩ := List.mem_filter.mp hd
      obtain ⟨u, text, before, turn⟩ := sound c d there
      obtain ⟨v, textLater, beforeLater, rest⟩ := ih d e he
      refine ⟨u ++ v, by rw [text, textLater, List.append_assoc], ?_, ?_⟩
      · rw [beforeLater, before, lastOf_append]
      · refine .starTurn ?_ (textLater ▸ turn) (before ▸ rest)
        rintro rfl
        simp [text] at shorter

theorem ends_sound (p : Pattern) (c : Cursor) : ∀ d ∈ p.ends c, Ends p c d := by
  induction p generalizing c with
  | empty =>
    intro d member
    cases List.mem_singleton.mp member
    exact .stay (.empty _ _)
  | char accepts =>
    intro d member
    unfold Pattern.ends at member
    split at member
    · rename_i x xs text
      split at member
      · rename_i ok
        cases List.mem_singleton.mp member
        exact ⟨[x], text, rfl, .char ok _ _⟩
      · cases member
    · cases member
  | seq a b iha ihb =>
    intro e member
    obtain ⟨d, hd, he⟩ := List.mem_flatMap.mp member
    obtain ⟨u, text, before, first⟩ := iha c d hd
    obtain ⟨v, textLater, beforeLater, second⟩ := ihb d e he
    refine ⟨u ++ v, by rw [text, textLater, List.append_assoc], ?_, ?_⟩
    · rw [beforeLater, before, lastOf_append]
    · exact .seq (textLater ▸ first) (before ▸ second)
  | alt a b iha ihb =>
    intro d member
    rcases List.mem_append.mp member with left | right
    · obtain ⟨u, text, before, matched⟩ := iha c d left
      exact ⟨u, text, before, .altLeft matched⟩
    · obtain ⟨u, text, before, matched⟩ := ihb c d right
      exact ⟨u, text, before, .altRight matched⟩
  | star a ih => exact starEnds_ends ih _ c
  | textStart =>
    intro d member
    unfold Pattern.ends at member
    split at member
    · rename_i start
      cases List.mem_singleton.mp member
      refine .stay ?_
      rw [Option.isNone_iff_eq_none.mp start]
      exact .textStart _
    · cases member
  | wordEdge =>
    intro d member
    unfold Pattern.ends at member
    split at member
    · rename_i edge
      cases List.mem_singleton.mp member
      exact .stay (.wordEdge edge)
    · cases member
  | notAhead a ih =>
    intro d member
    unfold Pattern.ends at member
    split at member
    · rename_i none_there
      cases List.mem_singleton.mp member
      exact .stay (.notAhead (List.isEmpty_iff.mp none_there))
    · cases member

omit [Python.UnicodeTables] in
theorem mem_starEnds_self (f : Cursor → List Cursor) (fuel : Nat) (c : Cursor) :
    c ∈ starEnds f fuel c := by
  cases fuel <;> exact List.mem_cons_self

/-- A text the pattern takes is found. -/
theorem ends_complete {p : Pattern} {before : Option Char} {u rest : List Char}
    (matched : Matches p before u rest) :
    ⟨lastOf before u, rest⟩ ∈ p.ends ⟨before, u ++ rest⟩ ∧ ∀ a, p = .star a → ∀ fuel,
      u.length ≤ fuel → ⟨lastOf before u, rest⟩ ∈ starEnds a.ends fuel ⟨before, u ++ rest⟩ := by
  induction matched with
  | empty => simp [Pattern.ends]
  | char ok => simp [Pattern.ends, ok]
  | @seq a b before u v rest first second ihFirst ihSecond =>
    refine ⟨List.mem_flatMap.mpr ⟨⟨lastOf before u, v ++ rest⟩, ?_, ?_⟩, by simp⟩
    · rw [List.append_assoc]
      exact ihFirst.1
    · rw [lastOf_append]
      exact ihSecond.1
  | altLeft left ih => exact ⟨List.mem_append_left _ ih.1, by simp⟩
  | altRight right ih => exact ⟨List.mem_append_right _ ih.1, by simp⟩
  | starDone a before rest =>
    exact ⟨mem_starEnds_self _ _ _, fun _ _ fuel _ => mem_starEnds_self _ _ _⟩
  | @starTurn a before u v rest moves turn later ihTurn ihLater =>
    have found : ∀ fuel, (u ++ v).length ≤ fuel →
        ⟨lastOf before (u ++ v), rest⟩ ∈ starEnds a.ends fuel ⟨before, u ++ v ++ rest⟩ := by
      intro fuel enough
      have some_taken := List.length_pos_iff.mpr moves
      rw [List.length_append] at enough
      cases fuel with
      | zero => omega
      | succ fuel =>
        have next := ihTurn.1
        rw [← List.append_assoc] at next
        refine List.mem_cons_of_mem _ (List.mem_flatMap.mpr ⟨_, List.mem_filter.mpr ⟨next, ?_⟩, ?_⟩)
        · simp only [List.length_append, decide_eq_true_eq]
          omega
        · rw [lastOf_append]
          exact ihLater.2 a rfl fuel (by omega)
    refine ⟨found _ (by simp), ?_⟩
    rintro _ ⟨rfl⟩ fuel enough
    exact found fuel enough
  | textStart => simp [Pattern.ends]
  | wordEdge edge => simp [Pattern.ends, edge]
  | notAhead none_there => simp [Pattern.ends, none_there]

theorem ends_iff {p : Pattern} {c d : Cursor} : d ∈ p.ends c ↔ Ends p c d := by
  constructor
  · exact ends_sound p c d
  · rintro ⟨u, text, before, matched⟩
    have found := (ends_complete matched).1
    rw [← text, ← before] at found
    exact found

theorem searchFrom_iff {p : Pattern} {before : Option Char} {text : List Char} :
    searchFrom p before text = true ↔
      ∃ a u rest, text = a ++ (u ++ rest) ∧ Matches p (lastOf before a) u rest := by
  have here (before : Option Char) (text : List Char) :
      (!(p.ends ⟨before, text⟩).isEmpty) = true ↔
        ∃ u rest, text = u ++ rest ∧ Matches p before u rest := by
    rw [Bool.not_eq_true', List.isEmpty_eq_false_iff_exists_mem]
    constructor
    · rintro ⟨d, found⟩
      obtain ⟨u, shape, _, matched⟩ := ends_sound p _ d found
      exact ⟨u, d.rest, shape, matched⟩
    · rintro ⟨u, rest, rfl, matched⟩
      exact ⟨_, (ends_complete matched).1⟩
  induction text generalizing before with
  | nil =>
    rw [searchFrom, here]
    constructor
    · rintro ⟨u, rest, shape, matched⟩
      exact ⟨[], u, rest, shape, by simpa using matched⟩
    · rintro ⟨a, u, rest, shape, matched⟩
      obtain ⟨rfl, none⟩ := List.append_eq_nil_iff.mp shape.symm
      exact ⟨u, rest, none.symm, by simpa using matched⟩
  | cons x xs ih =>
    rw [searchFrom, Bool.or_eq_true, here]
    refine (or_congr Iff.rfl (@ih (some x))).trans ?_
    constructor
    · rintro (⟨u, rest, shape, matched⟩ | ⟨a, u, rest, shape, matched⟩)
      · exact ⟨[], u, rest, shape, by simpa using matched⟩
      · refine ⟨x :: a, u, rest, by rw [shape]; rfl, ?_⟩
        have last : lastOf before (x :: a) = lastOf (some x) a := lastOf_append before [x] a
        rw [last]
        exact matched
    · rintro ⟨a, u, rest, shape, matched⟩
      cases a with
      | nil => exact .inl ⟨u, rest, shape, by simpa using matched⟩
      | cons y a =>
        obtain ⟨rfl, tail⟩ := List.cons_eq_cons.mp shape
        have last : lastOf before (x :: a) = lastOf (some x) a := lastOf_append before [x] a
        rw [last] at matched
        exact .inr ⟨a, u, rest, tail, matched⟩

theorem search_iff {p : Pattern} {text : List Char} :
    search p text = true ↔ ∃ a u rest, text = a ++ (u ++ rest) ∧ Matches p a.getLast? u rest := by
  unfold search
  rw [searchFrom_iff]
  simp only [lastOf, Option.or_none]

/-- The characters that a pattern can take. -/
def Pattern.uses : Pattern → Char → Bool
  | .char accepts, c => accepts c
  | .seq a b, c | .alt a b, c => a.uses c || b.uses c
  | .star a, c => a.uses c
  | .empty, _ | .textStart, _ | .wordEdge, _ | .notAhead _, _ => false

omit [Python.UnicodeTables] in
theorem any_lastOf {f : Char → Bool} {before other : Option Char} (same : before.any f = other.any f)
    (u : List Char) : (lastOf before u).any f = (lastOf other u).any f := by
  unfold lastOf
  cases u.getLast? with
  | none => simpa using same
  | some c => rfl

theorem Matches.chars {p : Pattern} {before : Option Char} {u rest : List Char}
    (matched : Matches p before u rest) : ∀ c ∈ u, p.uses c = true := by
  induction matched with
  | char ok =>
    intro c member
    cases List.mem_singleton.mp member
    exact ok
  | seq first second ihFirst ihSecond =>
    intro c member
    simp only [Pattern.uses, Bool.or_eq_true]
    exact (List.mem_append.mp member).imp (ihFirst c) (ihSecond c)
  | altLeft left ih =>
    intro c member
    simp only [Pattern.uses, ih c member, Bool.true_or]
  | altRight right ih =>
    intro c member
    simp only [Pattern.uses, ih c member, Bool.or_true]
  | starTurn moves turn later ihTurn ihLater =>
    intro c member
    exact (List.mem_append.mp member).elim (ihTurn c) (ihLater c)
  | empty | starDone | textStart | wordEdge | notAhead => exact fun c member => nomatch member

/-- A pattern may take the empty text. -/
def Pattern.nullable : Pattern → Bool
  | .seq a b => a.nullable && b.nullable
  | .alt a b => a.nullable || b.nullable
  | .char _ => false
  | .empty | .star _ | .textStart | .wordEdge | .notAhead _ => true

/-- The characters that a text taken by a pattern may begin with. -/
def Pattern.starts : Pattern → Char → Bool
  | .char accepts, c => accepts c
  | .seq a b, c => a.starts c || (a.nullable && b.starts c)
  | .alt a b, c => a.starts c || b.starts c
  | .star a, c => a.starts c
  | .empty, _ | .textStart, _ | .wordEdge, _ | .notAhead _, _ => false

theorem Matches.first {p : Pattern} {before : Option Char} {u rest : List Char}
    (matched : Matches p before u rest) :
    (u = [] → p.nullable = true) ∧ ∀ c t, u = c :: t → p.starts c = true := by
  induction matched with
  | char ok =>
    refine ⟨(fun none => nomatch none), fun c t shape => ?_⟩
    obtain ⟨rfl, _⟩ := List.cons_eq_cons.mp shape
    exact ok
  | @seq a b before u v rest first second ihFirst ihSecond =>
    constructor
    · intro none
      obtain ⟨left, right⟩ := List.append_eq_nil_iff.mp none
      simp only [Pattern.nullable, ihFirst.1 left, ihSecond.1 right, Bool.and_self]
    · intro c t shape
      cases u with
      | nil => simp only [Pattern.starts, ihFirst.1 rfl, ihSecond.2 c t shape, Bool.and_self,
          Bool.or_true]
      | cons d u =>
        obtain ⟨rfl, _⟩ := List.cons_eq_cons.mp shape
        simp only [Pattern.starts, ihFirst.2 d u rfl, Bool.true_or]
  | altLeft left ih =>
    refine ⟨fun none => ?_, fun c t shape => ?_⟩
    · simp only [Pattern.nullable, ih.1 none, Bool.true_or]
    · simp only [Pattern.starts, ih.2 c t shape, Bool.true_or]
  | altRight right ih =>
    refine ⟨fun none => ?_, fun c t shape => ?_⟩
    · simp only [Pattern.nullable, ih.1 none, Bool.or_true]
    · simp only [Pattern.starts, ih.2 c t shape, Bool.or_true]
  | @starTurn a before u v rest moves turn later ihTurn ihLater =>
    refine ⟨fun _ => rfl, fun c t shape => ?_⟩
    obtain ⟨d, w, rfl⟩ := List.exists_cons_of_ne_nil moves
    obtain ⟨rfl, _⟩ := List.cons_eq_cons.mp shape
    exact ihTurn.2 d w rfl
  | empty | starDone | textStart | wordEdge | notAhead =>
    exact ⟨fun _ => rfl, (fun _ _ shape => nomatch shape)⟩

/-- A text that begins otherwise has no match at its start. -/
theorem ends_nil {p : Pattern} {before : Option Char} {c : Char} {text : List Char}
    (shows : p.nullable = false) (other : p.starts c = false) : p.ends ⟨before, c :: text⟩ = [] := by
  apply List.eq_nil_iff_forall_not_mem.mpr
  intro d member
  obtain ⟨u, shape, _, matched⟩ := ends_sound p _ d member
  cases u with
  | nil =>
    rw [matched.first.1 rfl] at shows
    cases shows
  | cons e u =>
    obtain ⟨rfl, _⟩ := List.cons_eq_cons.mp shape
    rw [matched.first.2 c u rfl] at other
    cases other

/-- A pattern that looks no further than the next character. -/
def Pattern.near : Pattern → Bool
  | .seq a b | .alt a b => a.near && b.near
  | .star a => a.near
  | .empty | .char _ | .wordEdge => true
  | .textStart | .notAhead _ => false

/-- Around the text it takes, such a pattern sees one character on each side. -/
theorem Matches.frame {p : Pattern} {before other : Option Char} {u rest another : List Char}
    (matched : Matches p before u rest) (near : p.near = true)
    (sameBefore : before.any Python.isWord = other.any Python.isWord)
    (sameHead : rest.head? = another.head?) : Matches p other u another := by
  have ahead {v s t : List Char} (same : s.head? = t.head?) : (v ++ s).head? = (v ++ t).head? := by
    cases v with
    | nil => exact same
    | cons => rfl
  induction matched generalizing other another with
  | empty => exact .empty _ _
  | char ok => exact .char ok _ _
  | seq first second ihFirst ihSecond =>
    obtain ⟨nearFirst, nearSecond⟩ := Bool.and_eq_true_iff.mp near
    exact .seq (ihFirst nearFirst sameBefore (ahead sameHead))
      (ihSecond nearSecond (any_lastOf sameBefore _) sameHead)
  | altLeft left ih => exact .altLeft (ih (Bool.and_eq_true_iff.mp near).1 sameBefore sameHead)
  | altRight right ih => exact .altRight (ih (Bool.and_eq_true_iff.mp near).2 sameBefore sameHead)
  | starDone => exact .starDone _ _ _
  | starTurn moves turn later ihTurn ihLater =>
    exact .starTurn moves (ihTurn near sameBefore (ahead sameHead))
      (ihLater near (any_lastOf sameBefore _) sameHead)
  | textStart => cases near
  | wordEdge edge =>
    refine .wordEdge ?_
    simp only [atWordEdge] at edge ⊢
    rw [← sameBefore, ← sameHead]
    exact edge
  | notAhead => cases near

/-- A pattern that looks at nothing but the text it takes. -/
def Pattern.blind : Pattern → Bool
  | .seq a b | .alt a b => a.blind && b.blind
  | .star a => a.blind
  | .empty | .char _ => true
  | .wordEdge | .textStart | .notAhead _ => false

/-- Such a pattern takes its text anywhere. -/
theorem Matches.anywhere {p : Pattern} {before : Option Char} {u rest : List Char}
    (matched : Matches p before u rest) (blind : p.blind = true) (other : Option Char)
    (another : List Char) : Matches p other u another := by
  induction matched generalizing other another with
  | empty => exact .empty _ _
  | char ok => exact .char ok _ _
  | seq first second ihFirst ihSecond =>
    obtain ⟨left, right⟩ := Bool.and_eq_true_iff.mp blind
    exact .seq (ihFirst left _ _) (ihSecond right _ _)
  | altLeft left ih => exact .altLeft (ih (Bool.and_eq_true_iff.mp blind).1 _ _)
  | altRight right ih => exact .altRight (ih (Bool.and_eq_true_iff.mp blind).2 _ _)
  | starDone => exact .starDone _ _ _
  | starTurn moves turn later ihTurn ihLater =>
    exact .starTurn moves (ihTurn blind _ _) (ihLater blind _ _)
  | textStart | wordEdge | notAhead => cases blind

/-- A pattern that does not look at what follows the text it takes. -/
def Pattern.onward : Pattern → Bool
  | .seq a b | .alt a b => a.onward && b.onward
  | .star a => a.onward
  | .empty | .char _ | .textStart => true
  | .wordEdge | .notAhead _ => false

/-- Such a pattern takes its text before any rest. -/
theorem Matches.before_any {p : Pattern} {before : Option Char} {u rest : List Char}
    (matched : Matches p before u rest) (onward : p.onward = true) (another : List Char) :
    Matches p before u another := by
  induction matched generalizing another with
  | empty => exact .empty _ _
  | char ok => exact .char ok _ _
  | seq first second ihFirst ihSecond =>
    obtain ⟨left, right⟩ := Bool.and_eq_true_iff.mp onward
    exact .seq (ihFirst left _) (ihSecond right _)
  | altLeft left ih => exact .altLeft (ih (Bool.and_eq_true_iff.mp onward).1 _)
  | altRight right ih => exact .altRight (ih (Bool.and_eq_true_iff.mp onward).2 _)
  | starDone => exact .starDone _ _ _
  | starTurn moves turn later ihTurn ihLater =>
    exact .starTurn moves (ihTurn onward _) (ihLater onward _)
  | textStart => exact .textStart _
  | wordEdge | notAhead => cases onward

section Classes
variable {accepts : Char → Bool} {before : Option Char} {u rest : List Char}

theorem matches_char :
    Matches (.char accepts) before u rest ↔ ∃ c, u = [c] ∧ accepts c = true := by
  constructor
  · rintro ⟨⟩
    exact ⟨_, rfl, by assumption⟩
  · rintro ⟨c, rfl, ok⟩
    exact .char ok _ _

theorem matches_seq {a b : Pattern} : Matches (.seq a b) before u rest ↔
    ∃ v w, u = v ++ w ∧ Matches a before v (w ++ rest) ∧ Matches b (lastOf before v) w rest := by
  constructor
  · rintro ⟨⟩
    exact ⟨_, _, rfl, by assumption, by assumption⟩
  · rintro ⟨v, w, rfl, first, second⟩
    exact .seq first second

theorem matches_empty : Matches .empty before u rest ↔ u = [] := by
  constructor
  · rintro ⟨⟩
    rfl
  · rintro rfl
    exact .empty _ _

theorem matches_star_char :
    Matches (.star (.char accepts)) before u rest ↔ ∀ c ∈ u, accepts c = true := by
  constructor
  · exact fun matched => matched.chars
  · intro all
    induction u generalizing before with
    | nil => exact .starDone _ _ _
    | cons c u ih =>
      have first : Matches (.char accepts) before [c] (u ++ rest) :=
        .char (all c List.mem_cons_self) _ _
      exact .starTurn (List.cons_ne_nil _ _) first
        (ih fun d member => all d (List.mem_cons_of_mem _ member))

theorem matches_times_char {n : Nat} : Matches (times (.char accepts) n) before u rest ↔
    u.length = n ∧ ∀ c ∈ u, accepts c = true := by
  induction n generalizing before u with
  | zero =>
    rw [times, matches_empty, List.length_eq_zero_iff]
    exact ⟨fun none => ⟨none, by simp [none]⟩, fun both => both.1⟩
  | succ n ih =>
    rw [times, matches_seq]
    constructor
    · rintro ⟨v, w, rfl, first, later⟩
      obtain ⟨c, rfl, ok⟩ := matches_char.mp first
      obtain ⟨length, all⟩ := ih.mp later
      exact ⟨by simp [length], by simpa [ok] using all⟩
    · rintro ⟨length, all⟩
      cases u with
      | nil => cases length
      | cons c u =>
        refine ⟨[c], u, rfl, .char (all c List.mem_cons_self) _ _, ih.mpr ⟨by simpa using length, ?_⟩⟩
        exact fun d member => all d (List.mem_cons_of_mem _ member)

theorem matches_atLeast_char {n : Nat} : Matches (atLeast (.char accepts) n) before u rest ↔
    n ≤ u.length ∧ ∀ c ∈ u, accepts c = true := by
  rw [atLeast, matches_seq]
  simp only [matches_times_char, matches_star_char]
  constructor
  · rintro ⟨v, w, rfl, ⟨length, first⟩, later⟩
    refine ⟨by rw [List.length_append]; omega, fun c member => ?_⟩
    exact (List.mem_append.mp member).elim (first c) (later c)
  · rintro ⟨length, all⟩
    refine ⟨u.take n, u.drop n, (List.take_append_drop n u).symm, ⟨?_, ?_⟩, ?_⟩
    · rw [List.length_take, Nat.min_eq_left length]
    · exact fun c member => all c (List.mem_of_mem_take member)
    · exact fun c member => all c (List.mem_of_mem_drop member)

end Classes

end

section Edgeless

/-- A pattern that never asks for the edge of a word. -/
def Pattern.edgeless : Pattern → Bool
  | .seq a b | .alt a b => a.edgeless && b.edgeless
  | .star a | .notAhead a => a.edgeless
  | .wordEdge => false
  | .empty | .char _ | .textStart => true

/-- Such a pattern does not look at the tables. -/
theorem ends_edgeless (s t : Python.UnicodeTables) {p : Pattern} (edgeless : p.edgeless = true)
    (c : Cursor) : @Pattern.ends s p c = @Pattern.ends t p c := by
  induction p generalizing c with
  | seq a b iha ihb =>
    obtain ⟨left, right⟩ := Bool.and_eq_true_iff.mp edgeless
    simp only [Pattern.ends, iha left]
    exact List.flatMap_congr fun d _ => ihb right d
  | alt a b iha ihb =>
    obtain ⟨left, right⟩ := Bool.and_eq_true_iff.mp edgeless
    simp only [Pattern.ends, iha left, ihb right]
  | star a ih =>
    have same : @Pattern.ends s a = @Pattern.ends t a := funext (ih edgeless)
    simp only [Pattern.ends, same]
  | notAhead a ih => simp only [Pattern.ends, ih edgeless]
  | wordEdge => cases edgeless
  | empty | char _ | textStart => rfl

theorem fullMatch_edgeless (s t : Python.UnicodeTables) {p : Pattern} (edgeless : p.edgeless = true)
    (text : List Char) : @fullMatch s p text = @fullMatch t p text := by
  unfold fullMatch
  rw [ends_edgeless s t edgeless]

end Edgeless

section Mapped
variable [Python.UnicodeTables] {f : Char → Char}

/-- The classes of a pattern do not tell a character from its image. -/
def Pattern.keeps (f : Char → Char) : Pattern → Prop
  | .char accepts => ∀ c, accepts (f c) = accepts c
  | .seq a b | .alt a b => a.keeps f ∧ b.keeps f
  | .star a | .notAhead a => a.keeps f
  | .wordEdge => False
  | .empty | .textStart => True

def Cursor.map (f : Char → Char) (c : Cursor) : Cursor := ⟨c.before.map f, c.rest.map f⟩

omit [Python.UnicodeTables] in
theorem starEnds_map {g : Cursor → List Cursor} (same : ∀ c, g (c.map f) = (g c).map (Cursor.map f))
    (fuel : Nat) (c : Cursor) :
    starEnds g fuel (c.map f) = (starEnds g fuel c).map (Cursor.map f) := by
  induction fuel generalizing c with
  | zero => rfl
  | succ fuel ih =>
    have kept : ((g c).map (Cursor.map f)).filter
        (fun d => d.rest.length < (c.map f).rest.length) =
        ((g c).filter fun d => d.rest.length < c.rest.length).map (Cursor.map f) := by
      rw [List.filter_map]
      congr 1
      apply List.filter_congr
      intro d _
      simp [Cursor.map]
    rw [starEnds, same, kept, starEnds, List.map_cons, List.flatMap_map, List.map_flatMap]
    simp only [ih]

theorem ends_map {p : Pattern} (keeps : p.keeps f) (c : Cursor) :
    p.ends (c.map f) = (p.ends c).map (Cursor.map f) := by
  induction p generalizing c with
  | empty => rfl
  | char accepts =>
    obtain ⟨before, rest⟩ := c
    have same : ∀ x, accepts (f x) = accepts x := keeps
    cases rest with
    | nil => rfl
    | cons x xs =>
      simp only [Pattern.ends, Cursor.map, List.map_cons, same x]
      split <;> rfl
  | seq a b iha ihb =>
    simp only [Pattern.ends, iha keeps.1, List.flatMap_map, List.map_flatMap, ihb keeps.2]
  | alt a b iha ihb => simp only [Pattern.ends, iha keeps.1, ihb keeps.2, List.map_append]
  | star a ih =>
    have length : (c.map f).rest.length = c.rest.length := List.length_map f
    simp only [Pattern.ends, length]
    exact starEnds_map (ih keeps) _ c
  | textStart =>
    have start : (c.map f).before.isNone = c.before.isNone := by
      cases first : c.before <;> simp [Cursor.map, first]
    simp only [Pattern.ends, start]
    split <;> rfl
  | wordEdge => exact keeps.elim
  | notAhead a ih =>
    simp only [Pattern.ends, ih keeps, List.isEmpty_map]
    split <;> rfl

theorem fullMatch_map {p : Pattern} (keeps : p.keeps f) (text : List Char) :
    fullMatch p (text.map f) = fullMatch p text := by
  have ends := ends_map keeps ⟨none, text⟩
  have rests : ∀ d : Cursor, (d.map f).rest.isEmpty = d.rest.isEmpty := fun d => by
    simp [Cursor.map]
  unfold fullMatch
  change (p.ends (Cursor.map f ⟨none, text⟩)).any _ = _
  rw [ends, List.any_map]
  simp only [Function.comp_def, rests]

/-- A text that matches as a whole is made of the characters of the pattern. -/
theorem fullMatch_uses {p : Pattern} {text : List Char} (matched : fullMatch p text = true) :
    ∀ c ∈ text, p.uses c = true := by
  obtain ⟨d, member, done⟩ := List.any_eq_true.mp matched
  obtain ⟨u, whole, _, matches_u⟩ := ends_iff.mp member
  have empty : d.rest = [] := by simpa using done
  have same : text = u := by simpa [empty] using whole
  rw [same]
  exact matches_u.chars

end Mapped

end Regex
