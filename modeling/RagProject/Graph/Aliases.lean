import RagProject.Graph.Persisted

/-! The aliases of an entity: what is kept of them, and which new ones come in. -/
namespace RagProject.Graph
open Python KeepFirst Jobs Fallible

section Aliases
variable [GraphText]

/-- Aliases as they stand in a row: safe labels, apart from the name and from each other. -/
structure AliasesOk (name : String) (aliases : List String) : Prop where
  safe : ∀ a ∈ aliases, validateSafeGraphLabel 120 a = .ok a
  distinct : (aliases.map lowerText).Nodup
  other : ∀ a ∈ aliases, lowerText a ≠ name
  bounded : aliases.length ≤ 32

/-- The list has the alias, up to case, or it is full. -/
def Known (aliases : List String) (text : String) : Prop :=
  32 ≤ aliases.length ∨ ∃ a ∈ aliases, lowerText a = lowerText text

theorem Known.grown {aliases more : List String} {text : String} (known : Known aliases text)
    (longer : aliases <+: more) : Known more text := by
  rcases known with full | ⟨a, member, same⟩
  · exact .inl (Nat.le_trans full longer.length_le)
  · exact .inr ⟨a, longer.subset member, same⟩

/-- Aliases that the row has already are taken over while there is room. -/
theorem mergeAliases_existing {existing rest seen merged : List String}
    (safe : ∀ a ∈ existing, validateSafeGraphLabel 120 a = .ok a)
    (distinct : (existing.map lowerText).Nodup) (fresh : ∀ a ∈ existing, lowerText a ∉ seen)
    (room : merged.length + existing.length < 32) :
    mergeAliases seen merged (existing ++ rest) =
      mergeAliases ((existing.map lowerText).reverse ++ seen) (merged ++ existing) rest := by
  induction existing generalizing seen merged with
  | nil => simp
  | cons a existing ih =>
    obtain ⟨new, others⟩ := List.nodup_cons.mp distinct
    simp only [List.length_cons] at room
    rw [List.cons_append, mergeAliases, safe a List.mem_cons_self]
    simp only [if_neg (fresh a List.mem_cons_self)]
    rw [if_neg (by omega), ih]
    · simp
    · exact fun b member => safe b (List.mem_cons_of_mem _ member)
    · exact others
    · intro b member again
      rcases List.mem_cons.mp again with same | old
      · exact new (same ▸ List.mem_map_of_mem member)
      · exact fresh b (List.mem_cons_of_mem _ member) old
    · simp only [List.length_append, List.length_singleton]
      omega

/-- A full list is taken over and nothing else comes in. -/
theorem mergeAliases_full {existing rest seen merged : List String} (some_alias : existing ≠ [])
    (safe : ∀ a ∈ existing, validateSafeGraphLabel 120 a = .ok a)
    (distinct : (existing.map lowerText).Nodup) (fresh : ∀ a ∈ existing, lowerText a ∉ seen)
    (full : merged.length + existing.length = 32) :
    mergeAliases seen merged (existing ++ rest) = .ok (merged ++ existing) := by
  obtain ⟨front, last, rfl⟩ := List.eq_nil_or_concat existing |>.resolve_left some_alias
  simp only [List.concat_eq_append, List.length_append, List.length_singleton, List.map_append,
    List.nodup_append] at *
  obtain ⟨distinct, _, apart⟩ := distinct
  rw [List.append_assoc, mergeAliases_existing
    (fun a member => safe a (List.mem_append_left _ member)) distinct
    (fun a member => fresh a (List.mem_append_left _ member)) (by omega)]
  have lastSafe := safe last (List.mem_append_right _ List.mem_cons_self)
  have unseen : lowerText last ∉ (front.map lowerText).reverse ++ seen := by
    intro again
    rcases List.mem_append.mp again with inside | old
    · exact apart _ (List.mem_reverse.mp inside) (lowerText last) (by simp) rfl
    · exact fresh last (List.mem_append_right _ List.mem_cons_self) old
  rw [List.cons_append, mergeAliases, lastSafe]
  simp only [if_neg unseen, List.length_append]
  rw [if_pos (by omega), List.append_assoc]

/-- The loop over new aliases: each comes in, is there already, or finds the list full. -/
theorem mergeAliases_new {name : String} {seen merged rest : List String}
    (safe : ∀ a ∈ rest, validateSafeGraphLabel 120 a = .ok a)
    (other : ∀ a ∈ rest, lowerText a ≠ name)
    (sees : ∀ k, k ∈ seen ↔ k = name ∨ k ∈ merged.map lowerText) (ok : AliasesOk name merged)
    (room : merged.length < 32) :
    ∃ out, mergeAliases seen merged rest = .ok out ∧ AliasesOk name out ∧ merged <+: out ∧
      ∀ a ∈ rest, Known out a := by
  induction rest generalizing seen merged with
  | nil => exact ⟨merged, rfl, ok, List.prefix_refl _, by simp⟩
  | cons a rest ih =>
    have later : ∀ b ∈ rest, validateSafeGraphLabel 120 b = .ok b :=
      fun b member => safe b (List.mem_cons_of_mem _ member)
    have laterOther : ∀ b ∈ rest, lowerText b ≠ name :=
      fun b member => other b (List.mem_cons_of_mem _ member)
    have first := other a List.mem_cons_self
    rw [mergeAliases, safe a List.mem_cons_self]
    by_cases known : lowerText a ∈ seen
    · simp only [if_pos known]
      obtain ⟨out, done, okOut, longer, covered⟩ := ih later laterOther sees ok room
      refine ⟨out, done, okOut, longer, fun b member => ?_⟩
      rcases List.mem_cons.mp member with rfl | inside
      · obtain ⟨c, there, same⟩ := List.mem_map.mp (((sees _).mp known).resolve_left first)
        exact .inr ⟨c, longer.subset there, same⟩
      · exact covered b inside
    · simp only [if_neg known]
      have fresh : lowerText a ∉ merged.map lowerText := fun h => known ((sees _).mpr (.inr h))
      have grown : AliasesOk name (merged ++ [a]) := by
        refine ⟨?_, ?_, ?_, ?_⟩
        · intro b member
          rcases List.mem_append.mp member with old | new
          · exact ok.safe b old
          · exact List.mem_singleton.mp new ▸ safe a List.mem_cons_self
        · refine Table.append_distinct ok.distinct fun b member same => fresh ?_
          exact same ▸ List.mem_map_of_mem member
        · intro b member
          rcases List.mem_append.mp member with old | new
          · exact ok.other b old
          · exact List.mem_singleton.mp new ▸ first
        · simp only [List.length_append, List.length_singleton]
          omega
      split
      · rename_i full
        refine ⟨_, rfl, grown, List.prefix_append _ _, fun b _ => .inl ?_⟩
        simpa using full
      · rename_i notFull
        have sees' (k : String) : k ∈ lowerText a :: seen ↔
            k = name ∨ k ∈ (merged ++ [a]).map lowerText := by
          rw [List.mem_cons, sees]
          simp only [List.map_append, List.mem_append, List.map_cons, List.map_nil,
            List.mem_singleton]
          tauto
        obtain ⟨out, done, okOut, longer, covered⟩ := ih later laterOther sees' grown
          (by simp only [List.length_append, List.length_singleton]; omega)
        refine ⟨out, done, okOut, (List.prefix_append _ _).trans longer, fun b member => ?_⟩
        rcases List.mem_cons.mp member with rfl | inside
        · exact .inr ⟨b, longer.subset (by simp), rfl⟩
        · exact covered b inside

/-- A merge keeps the aliases of the row, and the new ones are known afterwards. -/
theorem mergeAliases_ok {name : String} {existing rest : List String}
    (ok : AliasesOk name existing) (safe : ∀ a ∈ rest, validateSafeGraphLabel 120 a = .ok a)
    (other : ∀ a ∈ rest, lowerText a ≠ name) :
    ∃ out, mergeAliases [name] [] (existing ++ rest) = .ok out ∧ AliasesOk name out ∧
      existing <+: out ∧ ∀ a ∈ rest, Known out a := by
  have fresh : ∀ a ∈ existing, lowerText a ∉ [name] :=
    fun a member => by simpa using ok.other a member
  by_cases room : existing.length < 32
  · rw [mergeAliases_existing ok.safe ok.distinct fresh (by simpa using room), List.nil_append]
    refine mergeAliases_new safe other (fun k => ?_) ok room
    simp only [List.mem_append, List.mem_reverse, List.mem_singleton]
    exact or_comm
  · have bounded := ok.bounded
    have full : existing.length = 32 := by omega
    have some_alias : existing ≠ [] := by
      intro none
      simp [none] at full
    rw [mergeAliases_full some_alias ok.safe ok.distinct fresh (by simpa using full)]
    exact ⟨existing, rfl, ok, List.prefix_refl _, fun a _ => .inl (Nat.le_of_eq full.symm)⟩

/-- The aliases of a new row. -/
theorem validAliases_ok {name : String} {aliases out : List String}
    (safe : ∀ a ∈ aliases, validateSafeGraphLabel 120 a = .ok a)
    (other : ∀ a ∈ aliases, lowerText a ≠ name) (done : validAliases aliases = .ok out) :
    AliasesOk name out ∧ ∀ a ∈ aliases, Known out a := by
  unfold validAliases at done
  split at done
  · cases done
  · rename_i bounded
    have same : aliases.mapM (validateSafeGraphLabel 120) = .ok (aliases.map id) :=
      mapM_total safe
    rw [same, List.map_id] at done
    cases done
    have sub : (keepFirst lowerText [] aliases).Sublist aliases := keepFirst_sublist _ _
    refine ⟨⟨fun a member => safe a (sub.subset member), keepFirst_distinct _ _,
      fun a member => other a (sub.subset member), ?_⟩, fun a member => .inr ?_⟩
    · have := sub.length_le
      omega
    · exact key_kept member List.not_mem_nil

end Aliases

section Entities
variable [GraphText]

/-- A row as the checks of the schema and the normalizer leave it; the database lowers its name
as the code does. -/
structure GraphEntity.Ok (e : GraphEntity) : Prop where
  name : validateSafeGraphLabel 255 e.canonicalName = .ok e.canonicalName
  type : validateSafeGraphLabel 80 e.entityType = .ok e.entityType
  lowered : GraphText.dbLower e.canonicalName = lowerText e.canonicalName
  aliases : AliasesOk e.key.1 e.aliasesJson

theorem strip_label {maxLength : Nat} {label : String}
    (safe : validateSafeGraphLabel maxLength label = .ok label) : stripText label = label :=
  (safe_label safe).symm

theorem GraphEntity.Ok.key_eq {e : GraphEntity} (ok : e.Ok) :
    e.key = (lowerText e.canonicalName, e.entityType) := by
  unfold GraphEntity.key
  rw [strip_label ok.name, strip_label ok.type]

/-- The unique index of the rows is their key. -/
theorem GraphEntity.Ok.index {e : GraphEntity} (ok : e.Ok) : entityIndex e = e.key := by
  rw [ok.key_eq, entityIndex, ok.lowered]

theorem label_error {maxLength : Nat} {value : String} {error : GraphError}
    (failed : validateSafeGraphLabel maxLength value = .error error) : error = .value := by
  simp only [validateSafeGraphLabel] at failed
  split at failed <;> cases failed
  rfl

theorem field_error {maxLength : Nat} {value : String} {error : GraphError}
    (failed : labelField maxLength value = .error error) : error = .value := by
  unfold labelField at failed
  split at failed
  · cases failed
    rfl
  · exact label_error failed

theorem aliases_error {aliases : List String} {error : GraphError}
    (failed : validAliases aliases = .error error) : error = .value := by
  unfold validAliases at failed
  split at failed
  · cases failed
    rfl
  · rcases bind_error failed with first | ⟨_, _, rest⟩
    · exact mapM_error (p := fun error => error = .value) first fun _ _ failed => label_error failed
    · cases rest

/-- An insert is refused by the index only when a row has the same index. -/
theorem createEntity_refused {canonicalName entityType : String} {aliases : List String}
    {now : Time} {db : GraphDb}
    (failed : createEntity canonicalName entityType aliases now db = .error .other) :
    ∃ name type, labelField 255 canonicalName = .ok name ∧ labelField 80 entityType = .ok type ∧
      ∃ e ∈ db.entities, entityIndex e = (GraphText.dbLower name, type) := by
  unfold createEntity at failed
  rcases bind_error failed with first | ⟨name, named, failed⟩
  · cases field_error first
  rcases bind_error failed with first | ⟨type, typed, failed⟩
  · cases field_error first
  rcases bind_error failed with first | ⟨list, valid, failed⟩
  · cases aliases_error first
  rcases bind_error failed with refused | ⟨_, _, rest⟩
  · refine ⟨name, type, named, typed, ?_⟩
    unfold checkThat at refused
    split at refused
    · cases refused
    · rename_i hit
      simp only [Bool.not_eq_true', List.contains_eq_mem, decide_eq_false_iff_not,
        not_not, List.mem_map] at hit
      exact hit
  · cases rest

/-- A merge into a row of the table: the others stay, and the row keeps its aliases in front. -/
theorem mergeEntityAliases_rows {entityId : Nat} {aliases : List String} {now : Time} {db db' : GraphDb}
    (distinct : (db.entities.map (·.graphEntityId)).Nodup) {row : GraphEntity}
    (member : row ∈ db.entities) (sameId : row.graphEntityId = entityId) (ok : row.Ok)
    (safe : ∀ a ∈ aliases, validateSafeGraphLabel 120 a = .ok a)
    (other : ∀ a ∈ aliases, lowerText a ≠ row.key.1)
    (done : mergeEntityAliases entityId aliases now db = .ok db') :
    ∃ row' : GraphEntity, row'.Ok ∧ row'.name = row.name ∧
      row.aliasesJson <+: row'.aliasesJson ∧ (∀ a ∈ aliases, Known row'.aliasesJson a) ∧
      db' = { db with entities := db.entities.map fun e =>
        if e.graphEntityId = entityId then row' else e } := by
  have alone (e : GraphEntity) (inside : e ∈ db.entities) (hit : e.graphEntityId = entityId) : e = row :=
    Table.unique distinct inside member (hit.trans sameId.symm)
  have same : db = { db with entities := db.entities.map fun e =>
      if e.graphEntityId = entityId then row else e } := by
    have rows : (db.entities.map fun e => if e.graphEntityId = entityId then row else e) =
        db.entities := by
      conv_rhs => rw [← List.map_id db.entities]
      refine List.map_congr_left fun e inside => ?_
      split
      · rename_i hit
        exact (alone e inside hit).symm
      · rfl
    rw [rows]
  unfold mergeEntityAliases at done
  split at done
  · rename_i empty
    cases done
    have none := List.isEmpty_iff.mp empty
    exact ⟨row, ok, rfl, List.prefix_refl _, by simp [none], same⟩
  · have found : Table.row GraphEntity.graphEntityId db.entities entityId = some row :=
      sameId ▸ Table.row_of_mem distinct member
    rw [found] at done
    have existing : row.aliasesJson.mapM (validateSafeGraphLabel 120) = .ok row.aliasesJson := by
      have total := mapM_total (g := id) ok.aliases.safe
      rwa [List.map_id] at total
    simp only [existing] at done
    obtain ⟨out, merged, okOut, longer, known⟩ := mergeAliases_ok ok.aliases safe other
    have key : lowerText (stripText row.canonicalName) = row.key.1 := rfl
    rw [key] at done
    simp only [merged, bind, Except.bind, pure, Except.pure] at done
    split at done
    · rename_i unchanged
      cases done
      exact ⟨row, ok, rfl, List.prefix_refl _, unchanged ▸ known, same⟩
    · cases done
      refine ⟨{ row with aliasesJson := out, updatedAt := now },
        ⟨ok.name, ok.type, ok.lowered, okOut⟩, rfl, longer, known, ?_⟩
      congr 1
      refine List.map_congr_left fun e inside => ?_
      split
      · rename_i hit
        rw [alone e inside hit]
      · rfl

end Entities

end RagProject.Graph
