import RagProject.Lib.Fallible
import RagProject.Lib.IpAddress

/-! What is written as an IP address is read as the address. -/
namespace Python

section Numbers

theorem hexValue_digit (d : Fin 16) :
    hexValue (Nat.digitChar d) = d ∧ isHexDigit (Nat.digitChar d) = true ∧
      (0 < d.val → Nat.digitChar d ≠ '0') := by
  revert d
  decide

theorem ofDigits_concat (base : Nat) (text : List Char) (c : Char) :
    ofDigits base (text ++ [c]) = ofDigits base text * base + hexValue c := by
  unfold ofDigits
  rw [List.foldl_append, List.foldl_cons, List.foldl_nil]

/-- The digits of a number are read as the number. -/
theorem digits_read (base : Nat) (some_digit : 1 < base) (few : base ≤ 16) (n : Nat) :
    ofDigits base (Nat.toDigits base n) = n ∧ (∀ c ∈ Nat.toDigits base n, isHexDigit c = true) ∧
      (0 < n → (Nat.toDigits base n).head? ≠ some '0') := by
  induction n using Nat.strongRecOn with
  | ind n ih =>
    rw [Nat.toDigits_eq_if some_digit]
    by_cases small : n < base
    · obtain ⟨value, digit, first⟩ := hexValue_digit ⟨n, by omega⟩
      rw [if_pos small]
      refine ⟨?_, by simpa using digit, fun positive => by simpa using first positive⟩
      simpa [ofDigits] using value
    · have less : n / base < n := Nat.div_lt_self (by omega) some_digit
      obtain ⟨value, digits, first⟩ := ih (n / base) less
      obtain ⟨last, digit, _⟩ := hexValue_digit ⟨n % base, by
        have := Nat.mod_lt n (show 0 < base by omega)
        omega⟩
      rw [if_neg small, ofDigits_concat, value]
      refine ⟨?_, fun c member => ?_, fun _ => ?_⟩
      · rw [last]
        exact Nat.div_add_mod' n base
      · rcases List.mem_append.mp member with front | back
        · exact digits c front
        · rw [List.mem_singleton.mp back]
          exact digit
      · have some_part := first (Nat.div_pos (by omega) (by omega))
        rwa [List.head?_append_of_ne_nil _ Nat.toDigits_ne_nil]

/-- A number is written in small digits. -/
theorem digits_small (base : Nat) (some_digit : 1 < base) (few : base ≤ 16) (n : Nat) :
    ∀ c ∈ Nat.toDigits base n, ∃ d : Fin 16, c = Nat.digitChar d := by
  induction n using Nat.strongRecOn with
  | ind n ih =>
    rw [Nat.toDigits_eq_if some_digit]
    intro c member
    by_cases small : n < base
    · rw [if_pos small] at member
      exact ⟨⟨n, by omega⟩, List.mem_singleton.mp member⟩
    · rw [if_neg small] at member
      rcases List.mem_append.mp member with front | back
      · exact ih (n / base) (Nat.div_lt_self (by omega) some_digit) c front
      · have below := Nat.mod_lt n (show 0 < base by omega)
        exact ⟨⟨n % base, by omega⟩, List.mem_singleton.mp back⟩

theorem ofPlaces_concat (base : Nat) (digits : List Nat) (d : Nat) :
    ofPlaces base (digits ++ [d]) = ofPlaces base digits * base + d := by
  unfold ofPlaces
  rw [List.foldl_append, List.foldl_cons, List.foldl_nil]

theorem places_length (base k n : Nat) : (places base k n).length = k := by
  induction k generalizing n with
  | zero => rfl
  | succ k ih => rw [places, List.length_append, ih, List.length_singleton]

theorem places_below {base : Nat} (positive : 0 < base) (k n : Nat) : ∀ d ∈ places base k n, d < base := by
  induction k generalizing n with
  | zero => exact fun _ member => nomatch member
  | succ k ih =>
    intro d member
    rw [places] at member
    rcases List.mem_append.mp member with front | last
    · exact ih _ d front
    · rw [List.mem_singleton.mp last]
      exact Nat.mod_lt n positive

theorem ofPlaces_places (base k n : Nat) (bound : n < base ^ k) : ofPlaces base (places base k n) = n := by
  induction k generalizing n with
  | zero =>
    obtain rfl : n = 0 := by simpa using bound
    rfl
  | succ k ih =>
    have less : n / base < base ^ k := Nat.div_lt_of_lt_mul (by rwa [Nat.pow_succ'] at bound)
    rw [places, ofPlaces_concat, ih _ less]
    exact Nat.div_add_mod' n base

/-- Texts that are written from numbers are read as the numbers. -/
theorem mapM_written {A B : Type} {read : B → Option A} {write : A → B} {xs : List A}
    (each : ∀ x ∈ xs, read (write x) = some x) : (xs.map write).mapM read = some xs := by
  have same : xs.mapM (read ∘ write) = some (xs.map id) := Fallible.mapM_some each
  rw [List.mapM_map, same, List.map_id]

end Numbers

section Four

theorem parseOctet_digits {n : Nat} (small : n < 256) : parseOctet (Nat.toDigits 10 n) = some n := by
  obtain ⟨value, _, first⟩ := digits_read 10 (by decide) (by decide) n
  have digits : (Nat.toDigits 10 n).all Char.isDigit = true := by
    rw [List.all_eq_true]
    exact fun c member => Nat.isDigit_of_mem_toDigits (by decide) (by decide) member
  have short : (Nat.toDigits 10 n).length ≤ 3 :=
    (Nat.length_toDigits_le_iff (by decide) (by decide)).mpr (by omega)
  unfold parseOctet
  rw [value, if_neg (by simp [digits, Nat.toDigits_ne_nil, short]), if_neg ?_, if_neg (by omega)]
  rintro ⟨other, zero⟩
  by_cases positive : 0 < n
  · exact first positive zero
  · obtain rfl : n = 0 := by omega
    exact other rfl

theorem octetTexts_chars (value : Nat) : ∀ text ∈ octetTexts value, ∀ c ∈ text, c.isDigit = true := by
  intro text member c inside
  obtain ⟨n, _, rfl⟩ := List.mem_map.mp member
  exact Nat.isDigit_of_mem_toDigits (by decide) (by decide) inside

theorem octetTexts_split (value : Nat) :
    (['.'].intercalate (octetTexts value)).splitOn '.' = octetTexts value := by
  apply List.splitOn_intercalate
  · intro text member dot
    have digit := octetTexts_chars value text member '.' dot
    cases digit
  · intro none
    have length := congrArg List.length none
    rw [octetTexts, List.length_map, places_length] at length
    cases length

theorem intercalate_chars {separator c : Char} {parts : List (List Char)}
    (member : c ∈ [separator].intercalate parts) : c = separator ∨ ∃ part ∈ parts, c ∈ part := by
  induction parts with
  | nil => cases member
  | cons part parts ih =>
    cases parts with
    | nil =>
      rw [List.intercalate_singleton] at member
      exact .inr ⟨part, List.mem_cons_self, member⟩
    | cons next parts =>
      rw [List.intercalate_cons_cons] at member
      rcases List.mem_append.mp member with front | later
      · rcases List.mem_append.mp front with inside | between
        · exact .inr ⟨part, List.mem_cons_self, inside⟩
        · exact .inl (List.mem_singleton.mp between)
      · rcases ih later with between | ⟨other, there, inside⟩
        · exact .inl between
        · exact .inr ⟨other, List.mem_cons_of_mem _ there, inside⟩

theorem parseV4_octets (value : Fin (2 ^ 32)) :
    parseV4 (['.'].intercalate (octetTexts value)) = some value := by
  obtain ⟨n, bound⟩ := value
  have slash : '/' ∉ ['.'].intercalate (octetTexts n) := by
    intro member
    rcases intercalate_chars member with same | ⟨text, inside, there⟩
    · cases same
    · have digit := octetTexts_chars n text inside '/' there
      cases digit
  have read : (octetTexts n).mapM parseOctet = some (places 256 4 n) :=
    mapM_written fun d member => parseOctet_digits (places_below (by decide) 4 n d member)
  have four : places 256 4 n = [n / 256 / 256 / 256 % 256, n / 256 / 256 % 256,
      n / 256 % 256, n % 256] := rfl
  have whole := ofPlaces_places 256 4 n (by omega)
  rw [four] at whole read
  unfold parseV4
  rw [if_neg slash, octetTexts_split, read]
  simp only [whole]
  exact dif_pos bound

/-- What is read as an address of IPv4 consists of digits and dots. -/
theorem parseV4_chars {text : List Char} {value : Fin (2 ^ 32)} (read : parseV4 text = some value) :
    ∀ c ∈ text, c = '.' ∨ c.isDigit = true := by
  have digits {part : List Char} (octet : (parseOctet part).isSome) :
      ∀ c ∈ part, c.isDigit = true := by
    unfold parseOctet at octet
    split at octet
    · cases octet
    · next fits =>
      simp only [not_or, Decidable.not_not] at fits
      exact List.all_eq_true.mp fits.2.1
  unfold parseV4 at read
  split at read
  · cases read
  · split at read
    · next a b c d parts =>
      have each := Fallible.mapM_isSome.mp ⟨_, parts⟩
      intro c member
      have whole : ['.'].intercalate (text.splitOn '.') = text := List.intercalate_splitOn '.'
      rw [← whole] at member
      rcases intercalate_chars member with dot | ⟨part, inside, there⟩
      · exact .inl dot
      · exact .inr (digits (each part inside) c there)
    · cases read

end Four

section Six

theorem hexText_shows (n : Nat) : hexText n ≠ [] := Nat.toDigits_ne_nil

theorem parseHextet_text {n : Nat} (small : n < 65536) : parseHextet (hexText n) = some n := by
  obtain ⟨value, digits, _⟩ := digits_read 16 (by decide) (by decide) n
  have all : (hexText n).all isHexDigit = true := List.all_eq_true.mpr digits
  have short : (hexText n).length ≤ 4 :=
    (Nat.length_toDigits_le_iff (by decide) (by decide)).mpr (by omega)
  unfold parseHextet
  rw [if_neg (by simp [all, short, hexText_shows])]
  exact congrArg some value

/-- Places that are zeros as far as a list reaches. -/
def ZerosAt (hextets : List (List Char)) (run : Nat × Nat) : Prop :=
  ∀ i, run.1 ≤ i → i < run.1 + run.2 → hextets[i]? = some ['0']

theorem zeroRuns_zeros (whole rest : List (List Char)) (index length : Nat) (best : Nat × Nat)
    (here : whole.drop index = rest) (known : length ≤ index)
    (run : ZerosAt whole (index - length, length)) (inside : best.1 + best.2 ≤ index)
    (zeros : ZerosAt whole best) (fits : index ≤ whole.length) :
    (zeroRuns rest index length best).1 + (zeroRuns rest index length best).2 ≤ whole.length ∧
      ZerosAt whole (zeroRuns rest index length best) := by
  induction rest generalizing index length best with
  | nil => exact ⟨Nat.le_trans inside fits, zeros⟩
  | cons hextet rest ih =>
    have next : whole.drop (index + 1) = rest := by
      rw [← List.drop_drop, here]
      rfl
    have place : whole[index]? = some hextet := by
      have first := congrArg (fun hextets => hextets[0]?) here
      simpa using first
    have more : index + 1 ≤ whole.length := (List.getElem?_eq_some_iff.mp place).1
    rw [zeroRuns]
    by_cases zero : hextet = ['0']
    · rw [if_pos zero]
      have longer : ZerosAt whole (index + 1 - (length + 1), length + 1) := by
        intro i low high
        dsimp only at low high
        by_cases last : i = index
        · rw [last, place, zero]
        · exact run i (by dsimp only; omega) (by dsimp only; omega)
      apply ih _ _ _ next (by omega) longer ?_ ?_ more
      · split
        · dsimp only
          omega
        · omega
      · split
        · exact longer
        · exact zeros
    · rw [if_neg zero]
      apply ih _ _ _ next (Nat.zero_le _) ?_ (by omega) zeros more
      intro i low high
      dsimp only at low high
      omega

/-- One empty part between the others, which an empty part at an end belongs to. -/
theorem aroundColons_double {f b : List Char} {fs bs : List (List Char)} (high : [] ∉ fs)
    (low : [] ∉ bs) (front : f = [] → fs = []) (back : b = [] → bs = []) :
    aroundColons (f :: fs ++ [] :: (bs ++ [b])) =
      let above := if f = [] then [] else f :: fs
      let below := if b = [] then [] else bs ++ [b]
      if 8 ≤ above.length + below.length then none
      else some (above, 8 - (above.length + below.length), below) := by
  have interior : (f :: fs ++ [] :: (bs ++ [b])).tail.dropLast = fs ++ [] :: bs := by
    have shape : (f :: fs ++ [] :: (bs ++ [b])).tail = (fs ++ [] :: bs) ++ [b] := by simp
    rw [shape, List.dropLast_concat]
  have count : (fs ++ [] :: bs).count [] = 1 := by
    rw [List.count_append, List.count_eq_zero_of_not_mem high, List.count_cons_self,
      List.count_eq_zero_of_not_mem low]
  have place : (fs ++ [] :: bs).idxOf [] = fs.length := by
    rw [List.idxOf_append_of_notMem high, List.idxOf_cons_self, Nat.add_zero]
  have taken : (f :: fs ++ [] :: (bs ++ [b])).take (fs.length + 1) = f :: fs := by
    simp
  have dropped : (f :: fs ++ [] :: (bs ++ [b])).drop (fs.length + 1 + 1) = bs ++ [b] := by
    simp
  have head : (f :: fs ++ [] :: (bs ++ [b])).headD [] = f := rfl
  have tail : (f :: fs ++ [] :: (bs ++ [b])).getLastD [] = b := by
    have shape : f :: fs ++ [] :: (bs ++ [b]) = (f :: fs ++ [] :: bs) ++ [b] := by simp
    rw [shape, List.getLastD_concat]
  have fits : ¬((f = [] ∧ (f :: fs).length ≠ 1) ∨ (b = [] ∧ (bs ++ [b]).length ≠ 1)) := by
    rintro (⟨none, other⟩ | ⟨none, other⟩)
    · rw [front none] at other
      exact other rfl
    · rw [back none] at other
      exact other rfl
  unfold aroundColons
  simp only [interior, count, place, taken, dropped, head, tail, if_neg fits]

/-- The parts of a compressed address around its double colon. -/
theorem aroundColons_parts {a c : List (List Char)} (before : [] ∉ a) (after : [] ∉ c)
    (few : a.length + c.length < 8) :
    aroundColons ((if a = [] then [[]] else a) ++ [] :: (if c = [] then [[]] else c)) =
      some (a, 8 - (a.length + c.length), c) := by
  obtain ⟨f, fs, left, high, front, above⟩ : ∃ f fs, (if a = [] then [[]] else a) = f :: fs ∧
      [] ∉ fs ∧ (f = [] → fs = []) ∧ (if f = [] then [] else f :: fs) = a := by
    cases a with
    | nil => exact ⟨[], [], rfl, by simp, fun _ => rfl, rfl⟩
    | cons f fs =>
      obtain ⟨other, rest⟩ : [] ≠ f ∧ [] ∉ fs := by simpa using before
      exact ⟨f, fs, rfl, rest, fun none => absurd none.symm other, if_neg other.symm⟩
  obtain ⟨bs, b, right, low, back, below⟩ : ∃ bs b, (if c = [] then [[]] else c) = bs ++ [b] ∧
      [] ∉ bs ∧ (b = [] → bs = []) ∧ (if b = [] then [] else bs ++ [b]) = c := by
    rcases c.eq_nil_or_concat with rfl | ⟨bs, b, rfl⟩
    · exact ⟨[], [], rfl, by simp, fun _ => rfl, rfl⟩
    · obtain ⟨rest, other⟩ : [] ∉ bs ∧ [] ≠ b := by simpa using after
      exact ⟨bs, b, by simp, rest, fun none => absurd none.symm other, by simp [other.symm]⟩
  rw [left, right, aroundColons_double high low front back]
  simp only [above, below]
  exact if_neg (by omega)

/-- Without an empty part there is no double colon. -/
theorem aroundColons_whole {parts : List (List Char)} (shows : [] ∉ parts) (eight : parts.length = 8) :
    aroundColons parts = some (parts, 0, []) := by
  have none : parts.tail.dropLast.count [] = 0 := by
    apply List.count_eq_zero_of_not_mem
    exact fun member => shows (List.mem_of_mem_tail (List.dropLast_subset _ member))
  obtain ⟨f, fs, rfl⟩ := List.exists_cons_of_ne_nil (show parts ≠ [] by rintro rfl; cases eight)
  obtain ⟨bs, b, shape⟩ : ∃ bs b, f :: fs = bs ++ [b] := by
    rcases (f :: fs).eq_nil_or_concat with none | ⟨bs, b, whole⟩
    · cases none
    · exact ⟨bs, b, by simpa using whole⟩
  have first : (f :: fs).headD [] = f := rfl
  have last : (f :: fs).getLastD [] = b := by rw [shape, List.getLastD_concat]
  have other : f ≠ [] := by
    rintro rfl
    exact shows List.mem_cons_self
  have ended : b ≠ [] := by
    rintro rfl
    rw [shape] at shows
    exact shows (by simp)
  unfold aroundColons
  simp only [none, first, last]
  exact if_neg (by simp [other, ended]; simpa using eight)

theorem hextetTexts_length (value : Nat) : (hextetTexts value).length = 8 := by
  rw [hextetTexts, List.length_map, places_length]

theorem hextetTexts_chars (value : Nat) :
    ∀ text ∈ hextetTexts value, text ≠ [] ∧ ∀ c ∈ text, isHexDigit c = true := by
  intro text member
  obtain ⟨n, _, rfl⟩ := List.mem_map.mp member
  exact ⟨hexText_shows n, (digits_read 16 (by decide) (by decide) n).2.1⟩

theorem hexText_zero {n : Nat} (zero : hexText n = ['0']) : n = 0 := by
  have value := (digits_read 16 (by decide) (by decide) n).1
  unfold hexText at zero
  rw [zero] at value
  exact value.symm

theorem zeros_between {numbers : List Nat} {start length : Nat}
    (zeros : ZerosAt (numbers.map hexText) (start, length)) (fits : start + length ≤ numbers.length) :
    numbers.take start ++ List.replicate length 0 ++ numbers.drop (start + length) = numbers := by
  have middle : (numbers.drop start).take length = List.replicate length 0 := by
    rw [List.eq_replicate_iff]
    constructor
    · rw [List.length_take, List.length_drop]
      omega
    · intro n member
      obtain ⟨i, inside, rfl⟩ := List.getElem_of_mem member
      rw [List.length_take, List.length_drop] at inside
      have zero := zeros (start + i) (by omega) (by dsimp only; omega)
      rw [List.getElem?_map, List.getElem?_eq_getElem (by omega)] at zero
      rw [List.getElem_take, List.getElem_drop]
      exact hexText_zero (Option.some.inj zero)
  rw [← middle, List.append_assoc, ← List.drop_drop, List.take_append_drop, List.take_append_drop]

/-- The parts of a compressed address, and the numbers that they are read as. -/
theorem compressed_parts (value : Nat) : ∃ above skipped below,
    aroundColons (compressHextets (hextetTexts value)) =
      some (above.map hexText, skipped, below.map hexText) ∧
    above ++ List.replicate skipped 0 ++ below = places 65536 8 value ∧
    2 < (compressHextets (hextetTexts value)).length ∧
    (compressHextets (hextetTexts value)).length ≤ 9 := by
  have eight := hextetTexts_length value
  have shows : [] ∉ hextetTexts value := fun member => (hextetTexts_chars value _ member).1 rfl
  obtain ⟨fits, zeros⟩ := zeroRuns_zeros (hextetTexts value) (hextetTexts value) 0 0 (0, 0) rfl
    (Nat.le_refl 0) (fun i _ high => absurd high (Nat.not_lt_zero i)) (Nat.le_refl 0)
    (fun i _ high => absurd high (Nat.not_lt_zero i)) (Nat.zero_le _)
  unfold compressHextets
  generalize zeroRuns (hextetTexts value) 0 0 (0, 0) = run at fits zeros
  obtain ⟨start, length⟩ := run
  dsimp only at fits ⊢
  by_cases long : 1 < length
  · have front : (if start = 0 then [[]] else (hextetTexts value).take start) =
        if (hextetTexts value).take start = [] then [[]] else (hextetTexts value).take start := by
      by_cases zero : start = 0
      · rw [if_pos zero, zero]
        rfl
      · rw [if_neg zero, if_neg]
        intro none
        have count := congrArg List.length none
        rw [List.length_take, List.length_nil] at count
        omega
    have back : (if start + length = (hextetTexts value).length then [[]]
        else (hextetTexts value).drop (start + length)) =
        if (hextetTexts value).drop (start + length) = [] then [[]]
        else (hextetTexts value).drop (start + length) := by
      by_cases ended : start + length = (hextetTexts value).length
      · rw [if_pos ended, ended, List.drop_length]
        rfl
      · rw [if_neg ended, if_neg]
        intro none
        have count := congrArg List.length none
        rw [List.length_drop, List.length_nil] at count
        omega
    have few : ((hextetTexts value).take start).length +
        ((hextetTexts value).drop (start + length)).length = 8 - length := by
      rw [List.length_take, List.length_drop]
      omega
    have around := aroundColons_parts
      (fun member => shows (List.mem_of_mem_take member))
      (fun member => shows (List.mem_of_mem_drop member)) (by rw [few]; omega)
    rw [few] at around
    refine ⟨(places 65536 8 value).take start, length,
      (places 65536 8 value).drop (start + length), ?_, ?_, ?_, ?_⟩
    · have skipped : 8 - (8 - length) = length := by omega
      rw [if_pos long, front, back, around, skipped, hextetTexts, List.map_take, List.map_drop]
    · refine zeros_between zeros ?_
      rw [places_length]
      omega
    · have some_front : 0 < (if start = 0 then [[]] else (hextetTexts value).take start).length := by
        split
        · exact Nat.one_pos
        · rw [List.length_take]
          omega
      have some_back : 0 < (if start + length = (hextetTexts value).length then [[]]
          else (hextetTexts value).drop (start + length)).length := by
        split
        · exact Nat.one_pos
        · rw [List.length_drop]
          omega
      rw [if_pos long, List.length_append, List.length_cons]
      omega
    · rw [if_pos long, List.length_append, List.length_cons]
      split <;> split <;> simp only [List.length_singleton, List.length_take, List.length_drop] <;>
        omega
  · refine ⟨places 65536 8 value, 0, [], ?_, ?_, ?_, ?_⟩
    · rw [if_neg long, aroundColons_whole shows eight]
      rfl
    · simp
    · rw [if_neg long, eight]
      decide
    · rw [if_neg long, eight]
      decide

theorem compressed_known {value : Nat} {part : List Char}
    (member : part ∈ compressHextets (hextetTexts value)) : part = [] ∨ part ∈ hextetTexts value := by
  unfold compressHextets at member
  dsimp only at member
  split at member
  · rcases List.mem_append.mp member with front | rest
    · split at front
      · exact .inl (List.mem_singleton.mp front)
      · exact .inr (List.mem_of_mem_take front)
    · rcases List.mem_cons.mp rest with none | back
      · exact .inl none
      · split at back
        · exact .inl (List.mem_singleton.mp back)
        · exact .inr (List.mem_of_mem_drop back)
  · exact .inr member

theorem compressed_chars (value : Nat) :
    ∀ part ∈ compressHextets (hextetTexts value), ∀ c ∈ part, isHexDigit c = true := by
  intro part member c inside
  rcases compressed_known member with rfl | there
  · cases inside
  · exact (hextetTexts_chars value part there).2 c inside

theorem compressed_split (value : Nat) :
    ([':'].intercalate (compressHextets (hextetTexts value))).splitOn ':' =
      compressHextets (hextetTexts value) := by
  obtain ⟨_, _, _, _, _, many, _⟩ := compressed_parts value
  apply List.splitOn_intercalate
  · intro part member colon
    have digit := compressed_chars value part member ':' colon
    cases digit
  · intro none
    rw [none] at many
    cases many

theorem parseV6_compressed (value : Fin (2 ^ 128)) :
    parseV6 ([':'].intercalate (compressHextets (hextetTexts value))) = some value := by
  obtain ⟨n, bound⟩ := value
  obtain ⟨above, skipped, below, around, whole, many, few⟩ := compressed_parts n
  have chars := compressed_chars n
  have split := compressed_split n
  dsimp only at split ⊢
  have small : ∀ d ∈ above ++ List.replicate skipped 0 ++ below, d < 65536 := by
    rw [whole]
    exact places_below (by decide) 8 n
  have parts : hextetParts ([':'].intercalate (compressHextets (hextetTexts n))) =
      some (compressHextets (hextetTexts n)) := by
    unfold hextetParts
    rw [split]
    have dot : '.' ∉ (compressHextets (hextetTexts n)).getLastD [] := by
      intro member
      rcases List.mem_cons.mp (List.getLastD_mem_cons (l := compressHextets (hextetTexts n))) with
        none | inside
      · rw [none] at member
        cases member
      · have digit := chars _ inside '.' member
        cases digit
    rw [if_neg (by omega)]
    exact if_neg dot
  have high : (above.map hexText).mapM parseHextet = some above :=
    mapM_written fun d member => parseHextet_text (small d (by simp [member]))
  have low : (below.map hexText).mapM parseHextet = some below :=
    mapM_written fun d member => parseHextet_text (small d (by simp [member]))
  unfold parseV6
  rw [parts, Option.bind_eq_bind, Option.bind_some, if_neg (by omega), around]
  simp only [Option.bind_eq_bind, Option.bind_some, high, low, whole]
  have value := ofPlaces_places 65536 8 n (by simpa using bound)
  simp only [value]
  exact dif_pos bound

end Six

theorem compressed_text (value : Nat) :
    ':' ∈ [':'].intercalate (compressHextets (hextetTexts value)) ∧
      ∀ c ∈ [':'].intercalate (compressHextets (hextetTexts value)), c = ':' ∨ isHexDigit c = true := by
  constructor
  · obtain ⟨_, _, _, _, _, many, _⟩ := compressed_parts value
    match shape : compressHextets (hextetTexts value) with
    | [] => simp [shape] at many
    | [_] => simp [shape] at many
    | part :: next :: parts =>
      rw [List.intercalate_cons_cons]
      simp
  · intro c member
    rcases intercalate_chars member with colon | ⟨part, inside, there⟩
    · exact .inl colon
    · exact .inr (compressed_chars value part inside c there)

theorem splitScopeId_text {text : List Char} (plain : '%' ∉ text) (scope : Option ScopeId) :
    splitScopeId (text ++ scope.elim [] fun scope => '%' :: scope.text) = some (text, scope) := by
  have all : ∀ c ∈ text, (c ≠ '%') := by
    rintro c member rfl
    exact plain member
  unfold splitScopeId
  cases scope with
  | none =>
    have taken : text.takeWhile (· ≠ '%') = text := List.takeWhile_eq_self_iff.mpr (by simpa using all)
    have dropped : text.dropWhile (· ≠ '%') = [] := List.dropWhile_eq_nil_iff.mpr (by simpa using all)
    simp only [Option.elim_none, List.append_nil, taken, dropped]
  | some scope =>
    have taken : (text ++ '%' :: scope.text).takeWhile (· ≠ '%') = text := by
      rw [List.takeWhile_append_of_pos (by simpa using all)]
      simp
    have dropped : (text ++ '%' :: scope.text).dropWhile (· ≠ '%') = '%' :: scope.text := by
      rw [List.dropWhile_append_of_pos (by simpa using all)]
      simp
    simp only [Option.elim_some, taken, dropped]
    exact dif_pos ⟨scope.shows, scope.percent, scope.slash⟩

/-- What is written as an address is read as the address. -/
theorem ipAddress_compressed (ip : IpAddress) : ipAddress ip.compressed = some ip := by
  cases ip with
  | v4 value =>
    unfold ipAddress IpAddress.compressed
    rw [parseV4_octets]
  | v6 value scope =>
    obtain ⟨colon, chars⟩ := compressed_text value
    have percent : '%' ∉ [':'].intercalate (compressHextets (hextetTexts value)) := by
      intro member
      rcases chars '%' member with same | digit
      · cases same
      · cases digit
    have slash : '/' ∉ [':'].intercalate (compressHextets (hextetTexts value)) ++
        scope.elim [] fun scope => '%' :: scope.text := by
      intro member
      rcases List.mem_append.mp member with front | back
      · rcases chars '/' front with same | digit
        · cases same
        · cases digit
      · cases scope with
        | none => cases back
        | some scope => exact scope.slash (List.mem_of_ne_of_mem (by decide) back)
    have other : parseV4 (IpAddress.v6 value scope).compressed = none := by
      cases read : parseV4 (IpAddress.v6 value scope).compressed with
      | none => rfl
      | some four =>
        rcases parseV4_chars read ':' (List.mem_append_left _ colon) with same | digit
        · cases same
        · cases digit
    unfold ipAddress
    rw [other]
    unfold IpAddress.compressed
    simp only
    rw [if_neg slash, splitScopeId_text percent, Option.bind_eq_bind, Option.bind_some]
    simp only [parseV6_compressed, Option.bind_eq_bind, Option.bind_some, Option.pure_def]

/-- The characters of an address without a scope. -/
def addressChar (c : Char) : Bool := c == '.' || c == ':' || "0123456789abcdef".toList.contains c

theorem digit_addressChar (d : Fin 16) : addressChar (Nat.digitChar d) = true := by
  revert d
  decide

theorem written_chars {ip : IpAddress} {c : Char} (member : c ∈ ip.compressed) :
    addressChar c = true ∨ ∃ scope ∈ ip.scope, c = '%' ∨ c ∈ scope.text := by
  cases ip with
  | v4 value =>
    rcases intercalate_chars member with rfl | ⟨text, there, inside⟩
    · exact .inl rfl
    · obtain ⟨n, _, rfl⟩ := List.mem_map.mp there
      obtain ⟨d, rfl⟩ := digits_small 10 (by decide) (by decide) n c inside
      exact .inl (digit_addressChar d)
  | v6 value scope =>
    rcases List.mem_append.mp member with front | back
    · rcases intercalate_chars front with rfl | ⟨text, there, inside⟩
      · exact .inl rfl
      · rcases compressed_known there with rfl | known
        · cases inside
        · obtain ⟨n, _, rfl⟩ := List.mem_map.mp known
          obtain ⟨d, rfl⟩ := digits_small 16 (by decide) (by decide) n c inside
          exact .inl (digit_addressChar d)
    · cases scope with
      | none => cases back
      | some scope => exact .inr ⟨scope, rfl, List.mem_cons.mp back⟩

theorem compressed_plain {ip : IpAddress} (plain : ip.scope = none) :
    ∀ c ∈ ip.compressed, addressChar c = true := by
  intro c member
  rcases written_chars member with char | ⟨scope, there, _⟩
  · exact char
  · rw [plain] at there
    cases there

/-- The scope of an address is a part of its text. -/
theorem scope_chars {text : List Char} {ip : IpAddress} (read : ipAddress text = some ip)
    {scope : ScopeId} (named : ip.scope = some scope) : ∀ c ∈ scope.text, c ∈ text := by
  intro c member
  unfold ipAddress at read
  split at read
  · cases read
    cases named
  · split at read
    · cases read
    · rw [Option.bind_eq_bind, Option.bind_eq_some_iff] at read
      obtain ⟨⟨address, zone⟩, split, read⟩ := read
      rw [Option.bind_eq_bind, Option.bind_eq_some_iff] at read
      obtain ⟨value, _, read⟩ := read
      cases read
      cases named
      unfold splitScopeId at split
      dsimp only at split
      split at split
      · cases split
      · rename_i percent rest shape
        split at split
        · cases split
          refine List.dropWhile_subset (· ≠ '%') ?_
          rw [shape]
          exact List.mem_cons_of_mem _ member
        · cases split

end Python
