import RagProject.Context.Redactor

/-! What a text and a mapping are after a second and a third redaction. -/
namespace RagProject.Context
open Python Regex

section Lengths

/-- Single blanks between words are no more than the text had. -/
theorem join_split_length (s : List Char) :
    (join [' '] (splitWords s)).length ≤ s.length ∧
      ∀ c rest, s = c :: rest → isSpace c = true →
        (join [' '] (splitWords s)).length + 1 ≤ s.length := by
  induction s with
  | nil => exact ⟨Nat.le_refl _, fun c rest shape => by cases shape⟩
  | cons c cs ih =>
    by_cases blank : isSpace c = true
    · rw [splitWords_blank blank, List.length_cons]
      exact ⟨Nat.le_succ_of_le ih.1, fun _ _ _ _ => Nat.succ_le_succ ih.1⟩
    · refine ⟨?_, fun d rest shape solid => ?_⟩
      · rw [splitWords_cons, if_neg blank, List.length_cons]
        cases cs with
        | nil => simp [join]
        | cons d ds =>
          dsimp only
          split
          · next space =>
            have fewer := ih.2 d ds rfl space
            generalize splitWords (d :: ds) = words at fewer
            cases words with
            | nil =>
              simp only [join, List.length_cons, List.length_nil] at fewer ⊢
              omega
            | cons w ws =>
              simp only [join, List.length_append, List.length_cons, List.length_nil] at fewer ⊢
              omega
          · have fewer := ih.1
            generalize splitWords (d :: ds) = words at fewer
            cases words with
            | nil =>
              simp only [join, List.length_cons, List.length_nil]
              omega
            | cons w ws =>
              cases ws with
              | nil =>
                simp only [join, List.length_cons] at fewer ⊢
                omega
              | cons v ws =>
                simp only [join, List.length_append, List.length_cons] at fewer ⊢
                omega
      · rw [(List.cons.inj shape).1] at blank
        exact absurd solid blank

theorem cleanText_length (s : String) : (cleanText s).toList.length ≤ s.toList.length := by
  rw [cleanText_words]
  refine (join_split_length _).1.trans ?_
  rw [List.length_map]

end Lengths

section Strings
variable [UnicodeTables] {m : Nat}

theorem isSensitiveKey_ascii {key : String} (ascii : ∀ c ∈ key.toList, c.toNat < 128) :
    isSensitiveKey key = @isSensitiveKey asciiTables key := by
  unfold isSensitiveKey
  rw [lower_ascii _ asciiTables ascii]

theorem safeString_ascii {s : String}
    (ascii : ∀ c ∈ (cleanText s).toList, c.toNat < 128) :
    safeString m s = @safeString asciiTables m s := by
  have same : redacts (cleanText s).toList = @redacts asciiTables (cleanText s).toList := by
    unfold redacts
    rw [Regex.search_ascii _ asciiTables secretAssignmentRe ascii,
      Regex.search_ascii _ asciiTables urlRe ascii, Regex.search_ascii _ asciiTables emailRe ascii]
  rw [safeString_eq, @safeString_eq asciiTables, same]

/-- What a redaction leaves as it is. -/
theorem safeString_fixed (room : 8 ≤ m) {s : String} : safeString m s = s ↔
    cleanText s = s ∧ redacts s.toList = false ∧ s.toList.length ≤ m := by
  constructor
  · intro fixed
    by_cases found : redacts (cleanText s).toList = true
    · rw [safeString_eq, if_pos found] at fixed
      rw [← fixed]
      exact ⟨clean_redacted, redacts_redacted, room⟩
    · rw [safeString_eq, if_neg found] at fixed
      have letters : (cleanText s).toList.take m = s.toList := by
        have same := congrArg String.toList fixed
        rwa [String.toList_ofList] at same
      have short : s.toList.length ≤ m := by
        rw [← letters]
        exact List.length_take_le m _
      have whole : cleanText s = s := by
        rw [← String.toList_inj, ← letters]
        refine (List.take_of_length_le ?_).symm
        exact (cleanText_length s).trans short
      rw [whole] at found
      exact ⟨whole, by simpa using found, short⟩
  · rintro ⟨clean, free, short⟩
    rw [safeString_eq, clean, free, if_neg Bool.false_ne_true, List.take_of_length_le short,
      String.ofList_toList]

theorem safeString_again (room : 8 ≤ m) (s : String) :
    safeString m (safeString m s) = safeString m s ↔ CutWell m s := by
  rw [← string_safe_iff room]
  constructor
  · intro again
    exact ⟨again, safeString_length m s room, ((safeString_fixed room).mp again).2.1⟩
  · exact fun safe => safe.again

/-- A third redaction changes nothing. -/
theorem safeString_third (room : 8 ≤ m) (s : String) :
    safeString m (safeString m (safeString m s)) = safeString m (safeString m s) := by
  rw [safeString_again room]
  refine .inr (.inl ?_)
  exact (cleanText_length _).trans (safeString_length m s room)

end Strings

section Mappings
variable [UnicodeTables]

theorem keptEntries_distinct (entries kept : Dict)
    (distinct : ((kept ++ entries).map Prod.fst).Nodup) :
    keptEntries kept entries = kept ++ entries.filter fun e => !isSensitiveKey e.1 := by
  induction entries generalizing kept with
  | nil => rw [keptEntries, List.filter_nil, List.append_nil]
  | cons e entries ih =>
    obtain ⟨key, nested⟩ := e
    rw [keptEntries]
    have apart : ((kept ++ entries).map Prod.fst).Nodup :=
      distinct.sublist ((List.Sublist.append_left (List.sublist_cons_self _ _) kept).map _)
    split
    · next sensitive =>
      rw [ih kept apart, List.filter_cons_of_neg (by simp [sensitive])]
    · next plain =>
      have fresh : ∀ e ∈ kept, e.1 ≠ key := by
        intro e member same
        rw [List.map_append, List.nodup_append] at distinct
        exact distinct.2.2 e.1 (List.mem_map_of_mem member) key (by simp) same
      rw [set_fresh fresh, ih, List.filter_cons_of_pos (by simp [plain]), List.append_assoc]
      · rfl
      · rwa [List.append_assoc]

theorem get_filter {d : Dict} {key : String} (plain : isSensitiveKey key = false) :
    Dict.get (d.filter fun e => !isSensitiveKey e.1) key = Dict.get d key := by
  induction d with
  | nil => rfl
  | cons e d ih =>
    obtain ⟨k, v⟩ := e
    by_cases same : k = key
    · rw [List.filter_cons_of_pos (by simp [same, plain]), get_cons, get_cons, if_pos same.symm,
        if_pos same.symm]
    · have other : key ≠ k := fun eq => same eq.symm
      rw [get_cons, if_neg other, ← ih, List.filter_cons]
      split
      · rw [get_cons, if_neg other]
      · rfl

theorem get_redact {d : Dict} {key : String} :
    Dict.get (d.map fun e => (e.1, redact e.2)) key = (Dict.get d key).map redact := by
  induction d with
  | nil => rfl
  | cons e d ih =>
    obtain ⟨k, v⟩ := e
    rw [List.map_cons, get_cons, get_cons, ih]
    split <;> rfl

/-- A mapping whose entries are redacted. -/
theorem redactEntries_get {d : Dict} (distinct : (d.map Prod.fst).Nodup) {key : String}
    (plain : isSensitiveKey key = false) :
    Dict.get (redactEntries [] d) key = (Dict.get d key).map redact := by
  have kept := keptEntries_distinct d [] distinct
  have redacted := redactEntries_eq [] d
  rw [List.map_nil, kept, List.nil_append] at redacted
  rw [redacted, get_redact, get_filter plain]

theorem redactEntries_distinct {d : Dict} (distinct : (d.map Prod.fst).Nodup) :
    ((redactEntries [] d).map Prod.fst).Nodup := by
  have kept := keptEntries_distinct d [] distinct
  have redacted := redactEntries_eq [] d
  rw [List.map_nil, kept, List.nil_append] at redacted
  rw [redacted, List.map_map]
  exact distinct.sublist (List.filter_sublist.map _)

end Mappings

end RagProject.Context
