import RagProject.Context.Texts
import RagProject.Lib.Matching

/-! TraceRedactor (rag/trace.py): when a trace that is redacted a second time stays as it is, and is
free of what the first time has to remove. -/
namespace RagProject.Context
open Python Regex

section Redactor
variable [UnicodeTables]

def sensitiveTraceKeyParts : List String :=
  ["api-key", "api_key", "apikey", "chunk_text", "content_text", "credential", "cookie", "csrf",
   "full_context", "password", "pii", "private_key", "prompt", "raw_chunk", "raw_text", "secret",
   "session", "token"]

def isSensitiveKey (key : String) : Bool :=
  sensitiveTraceKeyParts.any fun part => contains (lower key.toList) part.toList

/-- max_length of safe_string, when nothing else is asked for. -/
def defaultLength : Nat := 255

/- A mapping comes as its entries, with the text of each key; a later entry of one text replaces
the value of an earlier one. -/
mutual
def redact : Value → Value
  | .str s => .str (safeString defaultLength s)
  | .list items => .list (redactItems items)
  | .dict entries => .dict (redactEntries [] entries)
  | .none => .none
  | .bool b => .bool b
  | .int n => .int n
  | .float q => .float q
def redactItems : List Value → List Value
  | [] => []
  | v :: vs => redact v :: redactItems vs
def redactEntries : Dict → List (String × Value) → Dict
  | safe, [] => safe
  | safe, (key, nested) :: entries =>
    if isSensitiveKey key then redactEntries safe entries
    else redactEntries (safe.set key (redact nested)) entries
end

/-- One of the three patterns occurs. -/
def redacts (text : List Char) : Bool :=
  search secretAssignmentRe text || search urlRe text || search emailRe text

end Redactor

section Strings
variable [UnicodeTables] {m : Nat} {s : String}

theorem safeString_eq (m : Nat) (s : String) : safeString m s =
    if redacts (cleanText s).toList then "redacted"
    else String.ofList ((cleanText s).toList.take m) := rfl

/-- The text ends with an e-mail address. -/
def EndsWithAddress (text : List Char) : Prop :=
  ∃ a u, text = a ++ u ∧ Matches emailRe a.getLast? u []

/-- The text is redacted as a whole, or fits, or is cut neither behind a blank nor behind an
address that goes on in the text. -/
def CutWell (m : Nat) (s : String) : Prop :=
  redacts (cleanText s).toList = true ∨ (cleanText s).toList.length ≤ m ∨
    (((cleanText s).toList.take m).getLast? ≠ some ' ' ∧
      ¬EndsWithAddress ((cleanText s).toList.take m))

structure StringSafe (m : Nat) (s : String) : Prop where
  again : safeString m (safeString m s) = safeString m s
  short : (safeString m s).length ≤ m
  free : redacts (safeString m s).toList = false

omit [UnicodeTables] in
theorem clean_redacted : cleanText "redacted" = "redacted" := by decide

theorem redacts_redacted : redacts "redacted".toList = false := by
  have ascii : ∀ x ∈ "redacted".toList, x.toNat < 128 := by decide
  unfold redacts
  rw [search_ascii _ asciiTables secretAssignmentRe ascii, search_ascii _ asciiTables urlRe ascii,
    search_ascii _ asciiTables emailRe ascii]
  decide +kernel

theorem redacted_safe (room : 8 ≤ m) : StringSafe m "redacted" ∧
    safeString m "redacted" = "redacted" := by
  have same : safeString m "redacted" = "redacted" := by
    rw [safeString_eq, clean_redacted, redacts_redacted, if_neg Bool.false_ne_true,
      List.take_of_length_le (Nat.le_trans (by decide) room), String.ofList_toList]
  exact ⟨⟨by rw [same, same], by rw [same]; exact Nat.le_trans (by decide) room,
    by rw [same]; exact redacts_redacted⟩, same⟩

omit [UnicodeTables] in
/-- The beginning of a clean text is clean, unless it ends in a blank. -/
theorem cleanText_take (m : Nat) (whole : ((cleanText s).toList.take m).getLast? ≠ some ' ') :
    cleanText (String.ofList ((cleanText s).toList.take m)) =
      String.ofList ((cleanText s).toList.take m) := by
  by_cases empty : (cleanText s).toList.take m = []
  · rw [empty]
    rfl
  · have front : (cleanText s).toList.take m <+:
        join [' '] (splitWords (s.toList.map fun c => if c = '\x00' then ' ' else c)) := by
      rw [← cleanText_words]
      exact List.take_prefix m _
    have solid : ∀ c ∈ (cleanText s).toList.take m, c ≠ '\x00' :=
      fun c member => cleanText_solid (List.mem_of_mem_take member)
    obtain ⟨vs, words, shape⟩ :=
      join_prefix (fun w member => word_of_split member) front empty whole
    rw [shape] at solid ⊢
    exact cleanText_join words solid

omit [UnicodeTables] in
/-- Cleaning takes the blank at the end of a text away. -/
theorem blank_unclean {text : List Char} (blank : text.getLast? = some ' ') :
    ¬text <+: (cleanText (String.ofList text)).toList := by
  rintro ⟨rest, whole⟩
  have solid : ∀ c ∈ text, c ≠ '\x00' := fun c member =>
    cleanText_solid (whole ▸ List.mem_append_left rest member)
  have kept : text.map (fun c => if c = '\x00' then ' ' else c) = text := by
    rw [List.map_congr_left fun c member => if_neg (solid c member), List.map_id']
  obtain ⟨front, rfl⟩ := List.getLast?_eq_some_iff.mp blank
  have words := cleanText_words (String.ofList (front ++ [' ']))
  rw [String.toList_ofList, kept] at words
  have cut : splitWords (front ++ [' ']) = splitWords front := by
    have nothing : splitWords ([] : List Char) = [] := rfl
    rw [splitWords_cut (by decide), nothing, List.append_nil]
  rw [words, cut, List.append_assoc, List.singleton_append] at whole
  have each : ∀ w ∈ splitWords front, Word w := fun w member => word_of_split member
  have blanks : splitWords rest = [] := by
    have again := splitWords_join each
    rw [← whole, splitWords_cut (by decide)] at again
    simpa using again
  have nonempty : splitWords front ≠ [] := by
    intro none
    rw [none] at whole
    simp [join] at whole
  obtain ⟨_, last, _, ended, _, graphic⟩ := join_ends each nonempty
  rw [← whole] at ended
  have member : last ∈ ' ' :: rest := by
    have tail : (front ++ ' ' :: rest).getLast? = (' ' :: rest).getLast? := by
      rw [List.getLast?_append]
      simp [List.getLast?_cons]
    rw [tail] at ended
    exact List.mem_of_getLast? ended
  rcases List.mem_cons.mp member with rfl | later
  · cases graphic
  · rw [splitWords_eq_nil.mp blanks last later] at graphic
    cases graphic

omit [UnicodeTables] in
theorem secret_onward : secretAssignmentRe.onward = true := by decide

/-- What a beginning of a text holds of a secret or of a URL, the text holds too. -/
theorem cut_free (m : Nat) {text : List Char} (free : redacts text = false) :
    search secretAssignmentRe (text.take m) = false ∧ search urlRe (text.take m) = false := by
  unfold redacts at free
  rw [Bool.or_eq_false_iff, Bool.or_eq_false_iff] at free
  have whole := List.take_append_drop m text
  constructor
  · by_contra found
    rw [Bool.not_eq_false, search_iff] at found
    obtain ⟨a, u, rest, shape, matched⟩ := found
    have there : search secretAssignmentRe text = true := by
      rw [search_iff]
      refine ⟨a, u, rest ++ text.drop m, ?_, matched.before_any secret_onward _⟩
      conv_lhs => rw [← whole, shape]
      simp
    rw [there] at free
    cases free.1.1
  · by_contra found
    rw [Bool.not_eq_false, search_iff] at found
    obtain ⟨a, u, rest, shape, matched⟩ := found
    have there : search urlRe text = true := by
      rw [search_iff]
      refine ⟨a, u, rest ++ text.drop m, ?_, ?_⟩
      · conv_lhs => rw [← whole, shape]
        simp
      · obtain ⟨v, w, rfl, edge, scheme⟩ := matches_seq.mp matched
        have shows : w ≠ [] := by
          rintro rfl
          have nullable := scheme.first.1 rfl
          revert nullable
          decide
        obtain ⟨c, w, rfl⟩ := List.exists_cons_of_ne_nil shows
        cases edge with
        | wordEdge edge =>
          exact .seq (u := []) (.wordEdge edge) (scheme.before_any (by decide) _)
    rw [there] at free
    cases free.1.2

/-- An address in the beginning of a text without one ends where the beginning ends. -/
theorem cut_address (m : Nat) {text : List Char} (free : redacts text = false) :
    search emailRe (text.take m) = true ↔ EndsWithAddress (text.take m) := by
  unfold redacts at free
  rw [Bool.or_eq_false_iff] at free
  constructor
  · intro found
    obtain ⟨a, u, rest, shape, matched⟩ := search_iff.mp found
    cases rest with
    | nil =>
      rw [List.append_nil] at shape
      exact ⟨a, u, shape, matched⟩
    | cons c rest =>
      have there : search emailRe text = true := by
        rw [search_iff]
        refine ⟨a, u, c :: rest ++ text.drop m, ?_, matched.frame (by decide) rfl rfl⟩
        conv_lhs => rw [← List.take_append_drop m text, shape]
        simp
      rw [there] at free
      cases free.2
  · rintro ⟨a, u, shape, matched⟩
    exact search_iff.mpr ⟨a, u, [], by rw [List.append_nil]; exact shape, matched⟩

theorem safeString_length (m : Nat) (s : String) (room : 8 ≤ m) : (safeString m s).length ≤ m := by
  rw [safeString_eq]
  split
  · exact Nat.le_trans (by decide) room
  · rw [String.length_ofList]
    exact List.length_take_le m _

/-- A redacted string is stable, short and free of the patterns exactly when it was cut well. -/
theorem string_safe_iff (room : 8 ≤ m) (s : String) : StringSafe m s ↔ CutWell m s := by
  by_cases found : redacts (cleanText s).toList = true
  · have told : safeString m s = "redacted" := by rw [safeString_eq, if_pos found]
    obtain ⟨safe, same⟩ := redacted_safe room
    refine ⟨fun _ => .inl found, fun _ => ⟨by rw [told, same], safeString_length m s room, ?_⟩⟩
    rw [told]
    exact redacts_redacted
  · have free : redacts (cleanText s).toList = false := by simpa using found
    have told : safeString m s = String.ofList ((cleanText s).toList.take m) := by
      rw [safeString_eq, if_neg found]
    obtain ⟨secret, url⟩ := cut_free m free
    have address := cut_address m free
    have clean_redacts : redacts (safeString m s).toList =
        search emailRe ((cleanText s).toList.take m) := by
      rw [told, String.toList_ofList]
      unfold redacts
      rw [secret, url]
      rfl
    constructor
    · intro safe
      by_cases fits : (cleanText s).toList.length ≤ m
      · exact .inr (.inl fits)
      · refine .inr (.inr ⟨fun blank => ?_, fun ended => ?_⟩)
        · have again := safe.again
          rw [told, safeString_eq] at again
          split at again
          · have letters : "redacted".toList = (cleanText s).toList.take m := by
              rw [again, String.toList_ofList]
            rw [← letters] at blank
            revert blank
            decide
          · have letters := congrArg String.toList again
            rw [String.toList_ofList, String.toList_ofList] at letters
            apply blank_unclean blank
            conv_lhs => rw [← letters]
            exact List.take_prefix m _
        · have still := safe.free
          rw [clean_redacts, address.mpr ended] at still
          cases still
    · intro cut
      have whole : ((cleanText s).toList.take m).getLast? ≠ some ' ' ∧
          search emailRe ((cleanText s).toList.take m) = false := by
        rcases cut with hidden | fits | ⟨last, ends⟩
        · exact absurd hidden found
        · rw [List.take_of_length_le fits]
          refine ⟨fun blank => ?_, ?_⟩
          · apply blank_unclean blank
            rw [String.ofList_toList, cleanText_cleanText]
          · unfold redacts at free
            rw [Bool.or_eq_false_iff] at free
            exact free.2
        · exact ⟨last, by simpa using mt address.mp ends⟩
      have clean := cleanText_take m whole.1
      refine ⟨?_, safeString_length m s room, clean_redacts.trans whole.2⟩
      have stays : redacts (cleanText (safeString m s)).toList = false := by
        rw [told, clean, ← told]
        exact clean_redacts.trans whole.2
      rw [safeString_eq m (safeString m s), stays, if_neg Bool.false_ne_true, told, clean,
        String.toList_ofList, List.take_take, Nat.min_self]

end Strings

section Nested
variable [UnicodeTables] {m : Nat}

/-- What is left of a mapping: the last value of each key that is not sensitive. -/
def keptEntries : Dict → List (String × Value) → Dict
  | kept, [] => kept
  | kept, (key, nested) :: entries =>
    if isSensitiveKey key then keptEntries kept entries
    else keptEntries (kept.set key nested) entries

/-- Every string that is left was cut well. -/
inductive Fine : Value → Prop
  | none : Fine .none
  | bool (b : Bool) : Fine (.bool b)
  | int (n : Int) : Fine (.int n)
  | float (q : Rat) : Fine (.float q)
  | str {s : String} (cut : CutWell defaultLength s) : Fine (.str s)
  | list {items : List Value} (each : ∀ v ∈ items, Fine v) : Fine (.list items)
  | dict {entries : Dict} (each : ∀ e ∈ keptEntries [] entries, Fine e.2) : Fine (.dict entries)

/-- No sensitive key and none of the three patterns, at any depth. -/
inductive Clean : Value → Prop
  | none : Clean .none
  | bool (b : Bool) : Clean (.bool b)
  | int (n : Int) : Clean (.int n)
  | float (q : Rat) : Clean (.float q)
  | str {s : String} (free : redacts s.toList = false) : Clean (.str s)
  | list {items : List Value} (each : ∀ v ∈ items, Clean v) : Clean (.list items)
  | dict {entries : Dict} (keys : ∀ e ∈ entries, isSensitiveKey e.1 = false)
      (each : ∀ e ∈ entries, Clean e.2) : Clean (.dict entries)

structure ValueSafe (v : Value) : Prop where
  again : redact (redact v) = redact v
  clean : Clean (redact v)

theorem redactItems_eq (items : List Value) : redactItems items = items.map redact := by
  induction items with
  | nil => rfl
  | cons v items ih => simp only [redactItems, ih, List.map_cons]

theorem redactEntries_eq (kept : Dict) (entries : List (String × Value)) :
    redactEntries (kept.map fun e => (e.1, redact e.2)) entries =
      (keptEntries kept entries).map fun e => (e.1, redact e.2) := by
  induction entries generalizing kept with
  | nil => simp only [redactEntries, keptEntries]
  | cons e entries ih =>
    obtain ⟨key, nested⟩ := e
    simp only [redactEntries, keptEntries]
    split
    · exact ih kept
    · rw [← set_map]
      exact ih _

theorem redact_dict (entries : Dict) : redact (.dict entries) =
    .dict ((keptEntries [] entries).map fun e => (e.1, redact e.2)) := by
  have kept := redactEntries_eq [] entries
  rw [List.map_nil] at kept
  rw [redact, kept]

theorem redact_list (items : List Value) : redact (.list items) = .list (items.map redact) := by
  rw [redact, redactItems_eq]

structure Kept (d : Dict) : Prop where
  distinct : (d.map Prod.fst).Nodup
  plain : ∀ e ∈ d, isSensitiveKey e.1 = false

theorem keptEntries_kept (entries : List (String × Value)) {kept : Dict} (before : Kept kept) :
    Kept (keptEntries kept entries) ∧
      ∀ e ∈ keptEntries kept entries, e ∈ kept ∨ e ∈ entries := by
  induction entries generalizing kept with
  | nil => exact ⟨before, fun e member => .inl member⟩
  | cons e entries ih =>
    obtain ⟨key, nested⟩ := e
    rw [keptEntries]
    split
    · obtain ⟨after, members⟩ := ih before
      exact ⟨after, fun e member => (members e member).imp id (List.mem_cons_of_mem _)⟩
    · rename_i plain
      have next : Kept (kept.set key nested) := by
        refine ⟨set_distinct before.distinct key nested, fun e member => ?_⟩
        rcases set_mem member with rfl | old
        · simpa using plain
        · exact before.plain e old
      obtain ⟨after, members⟩ := ih next
      refine ⟨after, fun e member => ?_⟩
      rcases members e member with there | later
      · rcases set_mem there with rfl | old
        · exact .inr List.mem_cons_self
        · exact .inl old
      · exact .inr (List.mem_cons_of_mem _ later)

/-- A mapping that was kept is kept whole. -/
theorem keptEntries_id (entries kept : Dict) (whole : Kept (kept ++ entries)) :
    keptEntries kept entries = kept ++ entries := by
  induction entries generalizing kept with
  | nil => rw [keptEntries, List.append_nil]
  | cons e entries ih =>
    obtain ⟨key, nested⟩ := e
    have plain : isSensitiveKey key = false :=
      whole.plain (key, nested) (List.mem_append_right _ List.mem_cons_self)
    have fresh : ∀ e ∈ kept, e.1 ≠ key := by
      have apart := whole.distinct
      rw [List.map_append, List.nodup_append] at apart
      exact fun e member => apart.2.2 e.1 (List.mem_map_of_mem member) key (by simp)
    rw [keptEntries, if_neg (by simp [plain]), set_fresh fresh]
    have regrouped : kept ++ (key, nested) :: entries = kept ++ [(key, nested)] ++ entries := by
      simp
    rw [regrouped] at whole ⊢
    exact ih _ whole

theorem kept_map {d : Dict} (kept : Kept d) : Kept (d.map fun e => (e.1, redact e.2)) := by
  refine ⟨?_, fun e member => ?_⟩
  · rw [List.map_map]
    exact kept.distinct
  · obtain ⟨old, there, rfl⟩ := List.mem_map.mp member
    exact kept.plain old there

/-- A nested trace is stable and clean exactly when every string that is left of it was cut
well. -/
theorem value_safe_iff (v : Value) : ValueSafe v ↔ Fine v := by
  induction v using Value.nested with
  | none => exact ⟨fun _ => .none, fun _ => ⟨by simp only [redact], by rw [redact]; exact .none⟩⟩
  | bool b =>
    exact ⟨fun _ => .bool b, fun _ => ⟨by simp only [redact], by rw [redact]; exact .bool b⟩⟩
  | int n =>
    exact ⟨fun _ => .int n, fun _ => ⟨by simp only [redact], by rw [redact]; exact .int n⟩⟩
  | float q =>
    exact ⟨fun _ => .float q, fun _ => ⟨by simp only [redact], by rw [redact]; exact .float q⟩⟩
  | str s =>
    have strings := string_safe_iff (m := defaultLength) (by decide) s
    constructor
    · rintro ⟨again, clean⟩
      simp only [redact, Value.str.injEq] at again clean
      cases clean with
      | str free =>
        refine .str (strings.mp ⟨again, ?_, free⟩)
        exact safeString_length _ _ (by decide)
    · rintro (_ | _ | _ | _ | cut | _ | _)
      have safe := strings.mpr cut
      refine ⟨by simp only [redact, safe.again], ?_⟩
      rw [redact]
      exact .str safe.free
  | list items ih =>
    constructor
    · rintro ⟨again, clean⟩
      simp only [redact_list, List.map_map, Value.list.injEq, List.map_inj_left] at again clean
      cases clean with
      | list each =>
        exact .list fun v member => (ih v member).mp
          ⟨again v member, each _ (List.mem_map_of_mem member)⟩
    · rintro (_ | _ | _ | _ | _ | each | _)
      have safe := fun v member => (ih v member).mpr (each v member)
      refine ⟨?_, ?_⟩
      · simp only [redact_list, List.map_map, Value.list.injEq, List.map_inj_left]
        exact fun v member => (safe v member).again
      · rw [redact_list]
        refine .list fun v member => ?_
        obtain ⟨old, there, rfl⟩ := List.mem_map.mp member
        exact (safe old there).clean
  | dict entries ih =>
    have nothing : Kept ([] : Dict) := ⟨List.nodup_nil, by simp⟩
    obtain ⟨kept, members⟩ := keptEntries_kept entries nothing
    have inner : ∀ e ∈ keptEntries [] entries, ValueSafe e.2 ↔ Fine e.2 := fun e member =>
      ih e ((members e member).resolve_left List.not_mem_nil)
    have twice : redact (redact (.dict entries)) = .dict ((keptEntries [] entries).map
        fun e => (e.1, redact (redact e.2))) := by
      rw [redact_dict, redact_dict, keptEntries_id _ [] (kept_map kept), List.nil_append,
        List.map_map]
      rfl
    constructor
    · rintro ⟨again, clean⟩
      rw [twice, redact_dict, Value.dict.injEq, List.map_inj_left] at again
      rw [redact_dict] at clean
      cases clean with
      | dict keys each =>
        refine .dict fun e member => (inner e member).mp ⟨?_, ?_⟩
        · exact (Prod.mk.inj (again e member)).2
        · exact each _ (List.mem_map_of_mem (f := fun e => (e.1, redact e.2)) member)
    · rintro (_ | _ | _ | _ | _ | _ | each)
      have safe := fun e member => (inner e member).mpr (each e member)
      refine ⟨?_, ?_⟩
      · rw [twice, redact_dict, Value.dict.injEq, List.map_inj_left]
        exact fun e member => by rw [(safe e member).again]
      · rw [redact_dict]
        refine .dict (kept_map kept).plain fun e member => ?_
        obtain ⟨old, there, rfl⟩ := List.mem_map.mp member
        exact (safe old there).clean

theorem trace_redaction (room : 8 ≤ m) (s : String) (v : Value) :
    (StringSafe m s ↔ CutWell m s) ∧ (ValueSafe v ↔ Fine v) :=
  ⟨string_safe_iff room s, value_safe_iff v⟩

omit [UnicodeTables] in
theorem dense_trace : let _ : UnicodeTables := asciiTables
    StringSafe 8 "dense" ∧ ValueSafe (.dict [("mode", .list [.str "dense", .int 3])]) := by
  intro _
  have word : ∀ n, 8 ≤ n → CutWell n "dense" := by
    intro n room
    refine .inr (.inl (Nat.le_trans ?_ room))
    decide
  have plain : keptEntries [] [("mode", .list [.str "dense", .int 3])] =
      [("mode", .list [.str "dense", .int 3])] := by decide +kernel
  have fine : Fine (.dict [("mode", .list [.str "dense", .int 3])]) := by
    refine .dict fun e member => ?_
    rw [plain, List.mem_singleton] at member
    subst member
    refine .list fun v inner => ?_
    rcases List.mem_cons.mp inner with rfl | inner
    · exact .str (word defaultLength (by decide))
    · rw [List.mem_singleton] at inner
      subst inner
      exact .int 3
  have safe := trace_redaction (Nat.le_refl 8) "dense"
    (.dict [("mode", .list [.str "dense", .int 3])])
  exact ⟨safe.1.mpr (word 8 (Nat.le_refl 8)), safe.2.mpr fine⟩

omit [UnicodeTables] in
/-- A cut in the middle of a word makes an address of it, and a cut behind a word leaves a blank
that the next pass takes away. -/
theorem cut_address_leaks : let _ : UnicodeTables := asciiTables
    (safeString 8 "a@b.comx1" = "a@b.comx" ∧ safeString 8 "a@b.comx" = "redacted" ∧
      search emailRe (safeString 8 "a@b.comx1").toList = true) ∧
    (safeString 8 "further on" = "further " ∧ safeString 8 "further " = "further") ∧
    ¬∀ m, 8 ≤ m → ∀ s, StringSafe m s := by
  intro _
  have first : safeString 8 "a@b.comx1" = "a@b.comx" := by decide +kernel
  have second : safeString 8 "a@b.comx" = "redacted" := by decide +kernel
  refine ⟨⟨first, second, ?_⟩, ⟨by decide +kernel, by decide +kernel⟩, fun each => ?_⟩
  · rw [first]
    decide +kernel
  · have again := (each 8 (Nat.le_refl 8) "a@b.comx1").again
    rw [first, second] at again
    revert again
    decide

end Nested

end RagProject.Context
