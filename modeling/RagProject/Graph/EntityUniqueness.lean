import RagProject.Graph.LockedKeys

/-! Entities under concurrent builds: one row for each name and type, no refused insert, and no
lost alias, as long as the database and the code lower the names alike. -/
namespace RagProject.Graph
open Python KeepFirst Jobs Documents Fallible Interleaving

section Writes
variable [GraphText]

/-- A mention whose name the database lowers as the code does. -/
structure EntityMentionCandidate.Ok (m : EntityMentionCandidate) : Prop
    extends m.Normalized where
  lowered : GraphText.dbLower m.canonicalName = lowerText m.canonicalName

structure EntityWrite.Ok (w : EntityWrite) : Prop where
  name : validateSafeGraphLabel 255 w.canonicalName = .ok w.canonicalName
  type : validateSafeGraphLabel 80 w.entityType = .ok w.entityType
  lowered : GraphText.dbLower w.canonicalName = lowerText w.canonicalName
  key : w.key = (lowerText w.canonicalName, w.entityType)
  aliases : ∀ a ∈ w.aliases, validateSafeGraphLabel 120 a = .ok a
  other : ∀ a ∈ w.aliases, lowerText a ≠ lowerText w.canonicalName

theorem mem_aliasesOf {mentions : List EntityMentionCandidate} {key : EntityKey}
    {a : String} : a ∈ aliasesOf mentions key ↔ ∃ m ∈ mentions, m.entityKey = key ∧ a ∈ m.aliases := by
  simp only [aliasesOf, List.mem_insertionSort, List.mem_dedup, List.mem_flatMap, List.mem_filter,
    beq_iff_eq, and_assoc]

theorem write_ok {mentions : List EntityMentionCandidate} (ok : ∀ m ∈ mentions, m.Ok)
    {w : EntityWrite} (member : w ∈ entityWrites mentions) : w.Ok := by
  obtain ⟨m, kept, rfl⟩ := List.mem_map.mp member
  have normal := ok m ((keepFirst_sublist _ _).subset kept)
  have aliases {a : String} (inside : a ∈ aliasesOf mentions m.entityKey) :
      validateSafeGraphLabel 120 a = .ok a ∧ lowerText a ≠ lowerText m.canonicalName := by
    obtain ⟨m', there, sameKey, listed⟩ := mem_aliasesOf.mp inside
    have name : lowerText m'.canonicalName = lowerText m.canonicalName := congrArg Prod.fst sameKey
    exact ⟨(ok m' there).aliases a listed, name ▸ (ok m' there).other a listed⟩
  exact ⟨normal.name, normal.type, normal.lowered, rfl, fun a h => (aliases h).1,
    fun a h => (aliases h).2⟩

/-- Each mention has its write, with its aliases. -/
theorem write_of_mention {mentions : List EntityMentionCandidate} {m : EntityMentionCandidate}
    (member : m ∈ mentions) : ∃ w ∈ entityWrites mentions, w.key = m.entityKey ∧
      ∀ a ∈ m.aliases, a ∈ w.aliases := by
  obtain ⟨kept, there, same⟩ : ∃ kept ∈ keepFirst EntityMentionCandidate.entityKey [] mentions,
      kept.entityKey = m.entityKey := key_kept member List.not_mem_nil
  refine ⟨_, List.mem_map_of_mem there, same, fun a listed => ?_⟩
  exact mem_aliasesOf.mpr ⟨m, member, same.symm, listed⟩

theorem write_key {txn : PersistTxn} {w : EntityWrite} (member : w ∈ entityWrites txn.mentions) :
    w.key ∈ txn.keys := List.mem_map_of_mem member

theorem label_shows {maxLength : Nat} {label : String}
    (safe : validateSafeGraphLabel maxLength label = .ok label) : label ≠ "" := by
  rintro rfl
  simp [validateSafeGraphLabel, strip] at safe

end Writes

section Invariant
variable [GraphText]

structure EntityTable (db : GraphDb) : Prop extends EntitiesOk db where
  rows : ∀ e ∈ db.entities, e.Ok
  index : (db.entities.map entityIndex).Nodup

/-- The rows of a session: those of the table under the keys of the transaction, with more aliases
perhaps, and new ones under the other keys. -/
structure SessionOk (db : GraphDb) (keys : List EntityKey) (loaded session : List GraphEntity) :
    Prop where
  rows : ∀ e ∈ session, e.Ok
  owned : ∀ e ∈ session, e.key ∈ keys
  ids : (session.map (·.graphEntityId)).Nodup
  keyed : ∀ e ∈ session, ∀ e' ∈ session, e.key = e'.key → e = e'
  fresh : ∀ e ∈ session, e.graphEntityId < db.nextEntityId
  found : ∀ e, e ∈ loaded ↔ e ∈ db.entities ∧ e.key ∈ keys
  kept : ∀ e ∈ loaded, ∃ e' ∈ session, e'.name = e.name ∧ e.aliasesJson <+: e'.aliasesJson
  new : ∀ e ∈ session, ∀ r ∈ db.entities, r.graphEntityId = e.graphEntityId → r ∈ loaded

structure MapOk (session : List GraphEntity) (entityMap : EntityMap) : Prop where
  leads : ∀ key id, entityMap.lookup key = some id → ∃ e ∈ session, e.graphEntityId = id ∧ e.key = key
  covers : ∀ e ∈ session, entityMap.lookup e.key = some e.graphEntityId

/-- The writes that are done have brought their aliases. -/
def Written (mentions : List EntityMentionCandidate) (session : List GraphEntity)
    (writes : List EntityWrite) : Prop :=
  ∀ w ∈ entityWrites mentions, w ∈ writes ∨
    ∃ e ∈ session, e.key = w.key ∧ ∀ a ∈ w.aliases, Known e.aliasesJson a

/-- The aliases of the mentions are among those of their entities. -/
def Contributed (db : GraphDb) (mentions : List EntityMentionCandidate) : Prop :=
  ∀ m ∈ mentions, ∀ a ∈ m.aliases, ∃ e ∈ db.entities, e.key = m.entityKey ∧ Known e.aliasesJson a

def PhaseOk (db : GraphDb) (txn : PersistTxn) : PersistPhase → Prop
  | .locking _ => True
  | .upserting writes session entityMap =>
    SessionOk db txn.keys txn.loaded session ∧ MapOk session entityMap ∧
      (∀ w ∈ writes, w ∈ entityWrites txn.mentions) ∧ Written txn.mentions session writes
  | .committing session _ _ =>
    SessionOk db txn.keys txn.loaded session ∧ Written txn.mentions session []
  | .committed => Contributed db txn.mentions
  | .rolledBack error => error ≠ .uniqueIndex

structure PersistInv (hash : String → Int) (s : EntitySystem) : Prop where
  table : EntityTable s.db
  locks : LockInv hash s
  mentions : ∀ txn ∈ s.txns, ∀ m ∈ txn.mentions, m.Ok
  phases : ∀ (i : Nat) txn, s.txns[i]? = some txn → PhaseOk s.db txn txn.phase
  apart : ∀ (i j : Nat) txn other, i ≠ j → s.txns[i]? = some txn → s.txns[j]? = some other →
    ∀ e ∈ txn.phase.session, ∀ e' ∈ other.phase.session, e.graphEntityId ≠ e'.graphEntityId

end Invariant

section Listing
variable [GraphText] {db : GraphDb} {txn : PersistTxn}

theorem key_of_name {e e' : GraphEntity} (same : e'.name = e.name) :
    e'.graphEntityId = e.graphEntityId ∧ e'.key = e.key := by
  simp only [GraphEntity.name, Prod.mk.injEq] at same
  obtain ⟨id, name, type⟩ := same
  refine ⟨id, ?_⟩
  unfold GraphEntity.key
  rw [name, type]

theorem EntityTable.keyed (table : EntityTable db) {e e' : GraphEntity} (member : e ∈ db.entities)
    (member' : e' ∈ db.entities) (same : e.key = e'.key) : e = e' := by
  refine Table.unique table.index member member' ?_
  rw [(table.rows e member).index, (table.rows e' member').index, same]

/-- The keys of a transaction are looked up as they are. -/
theorem mem_normalizedKeys (laws : LowerLaws) (normal : ∀ m ∈ txn.mentions, m.Normalized)
    {key : EntityKey} : key ∈ normalizedKeys txn.keys ↔ key ∈ txn.keys := by
  have fixed {k : EntityKey} (member : k ∈ txn.keys) :
      (if stripText k.1 = "" ∨ stripText k.2 = "" then none
        else some (lowerText (stripText k.1), stripText k.2)) = some k := by
    obtain ⟨m, mention, rfl⟩ := mem_keys member
    have ok := normal m mention
    obtain ⟨name, type⟩ := ok.key laws
    have showsName : stripText m.entityKey.1 ≠ "" := by
      have stripped : stripText m.entityKey.1 = m.entityKey.1 :=
        stripText_lower laws (strip_label ok.name)
      rw [stripped]
      intro empty
      refine lower_ne_nil laws (strip_toList (strip_label ok.name)) ?_
        (String.ofList_eq_empty_iff.mp empty)
      exact fun none => label_shows ok.name (String.toList_eq_nil_iff.mp none)
    have showsType : stripText m.entityKey.2 ≠ "" := by
      rw [type]
      exact label_shows ok.type
    rw [if_neg (by simp [showsName, showsType]), name, type]
  constructor
  · intro member
    obtain ⟨k, there, same⟩ := List.mem_filterMap.mp member
    rw [fixed there] at same
    exact Option.some.inj same ▸ there
  · intro member
    exact List.mem_filterMap.mpr ⟨key, member, fixed member⟩

theorem mem_listed {rows : List GraphEntity} (ok : ∀ e ∈ rows, e.Ok) {keys : List EntityKey}
    {key : EntityKey} {id : Nat} : (key, id) ∈ listEntitiesByKeys keys rows ↔
      ∃ e ∈ rows, e.key = key ∧ e.graphEntityId = id ∧ key ∈ normalizedKeys keys := by
  simp only [listEntitiesByKeys, List.mem_reverse, List.mem_map, List.mem_filter, Bool.and_eq_true,
    List.contains_eq_mem, decide_eq_true_eq, Prod.mk.injEq]
  constructor
  · rintro ⟨e, ⟨member, _, listed⟩, rfl, rfl⟩
    exact ⟨e, member, rfl, rfl, listed⟩
  · rintro ⟨e, member, rfl, rfl, listed⟩
    refine ⟨e, ⟨member, ⟨⟨e.key, listed, ?_⟩, ⟨e.key, listed, ?_⟩⟩, listed⟩, rfl, rfl⟩
    · rw [(ok e member).key_eq, (ok e member).lowered]
    · rw [(ok e member).key_eq]

/-- The rows of the keys, as the transaction finds them when it holds its locks. -/
theorem session_listed (laws : LowerLaws) (table : EntityTable db)
    (normal : ∀ m ∈ txn.mentions, m.Normalized) {loaded : List GraphEntity} {entityMap : EntityMap}
    (listed : entityMap = listEntitiesByKeys txn.keys db.entities)
    (rows : loaded = db.entities.filter fun e =>
      entityMap.any fun entry => entry.2 == e.graphEntityId) :
    SessionOk db txn.keys loaded loaded ∧ MapOk loaded entityMap := by
  have entry (key : EntityKey) (id : Nat) : (key, id) ∈ entityMap ↔
      ∃ e ∈ db.entities, e.key = key ∧ e.graphEntityId = id ∧ key ∈ txn.keys := by
    rw [listed, mem_listed table.rows, mem_normalizedKeys laws normal]
  have mem (e : GraphEntity) : e ∈ loaded ↔ e ∈ db.entities ∧ e.key ∈ txn.keys := by
    rw [rows, List.mem_filter, List.any_eq_true]
    constructor
    · rintro ⟨member, ⟨key, id⟩, inside, same⟩
      obtain ⟨e', member', rfl, sameId, owned⟩ := (entry key id).mp inside
      have one := Table.unique table.distinct member' member (sameId.trans (beq_iff_eq.mp same))
      exact ⟨member, one ▸ owned⟩
    · rintro ⟨member, owned⟩
      exact ⟨member, _, (entry e.key e.graphEntityId).mpr ⟨e, member, rfl, rfl, owned⟩, by simp⟩
  refine ⟨⟨?_, ?_, ?_, ?_, ?_, mem, ?_, ?_⟩, ?_, ?_⟩
  · exact fun e member => table.rows e ((mem e).mp member).1
  · exact fun e member => ((mem e).mp member).2
  · exact rows ▸ Table.filter_distinct table.distinct _
  · exact fun e member e' member' => table.keyed ((mem e).mp member).1 ((mem e').mp member').1
  · exact fun e member => table.fresh e ((mem e).mp member).1
  · exact fun e member => ⟨e, member, rfl, List.prefix_refl _⟩
  · intro e member r there same
    exact Table.unique table.distinct there ((mem e).mp member).1 same ▸ member
  · intro key id found
    obtain ⟨front, back, split, _⟩ := List.lookup_eq_some_iff.mp found
    obtain ⟨e, member, rfl, rfl, owned⟩ := (entry key id).mp (by simp [split])
    exact ⟨e, (mem e).mpr ⟨member, owned⟩, rfl, rfl⟩
  · intro e member
    obtain ⟨there, owned⟩ := (mem e).mp member
    have inside := (entry e.key e.graphEntityId).mpr ⟨e, there, rfl, rfl, owned⟩
    cases found : entityMap.lookup e.key with
    | none => exact absurd inside (by simpa using List.lookup_eq_none_iff.mp found _ inside)
    | some id =>
      obtain ⟨front, back, split, _⟩ := List.lookup_eq_some_iff.mp found
      obtain ⟨e', member', sameKey, rfl, _⟩ := (entry e.key id).mp (by simp [split])
      rw [table.keyed member' there sameKey]

end Listing

section Inserting
variable [GraphText] {db : GraphDb} {keys : List EntityKey} {loaded session : List GraphEntity}
  {entityMap : EntityMap} {write : EntityWrite} {now : Time}

theorem created_row (ok : write.Ok) {db' : GraphDb} {id : Nat}
    (done : createEntity write.canonicalName write.entityType write.aliases now db =
      .ok (db', id)) :
    ∃ row : GraphEntity, row.Ok ∧ row.key = write.key ∧ row.graphEntityId = db.nextEntityId ∧
      id = db.nextEntityId ∧ (∀ a ∈ write.aliases, Known row.aliasesJson a) ∧
      db' = { db with entities := db.entities ++ [row], nextEntityId := db.nextEntityId + 1 } := by
  obtain ⟨rfl, row, rowId, named, typed, valid, _, rfl⟩ := createEntity_ok done
  have name : row.canonicalName = write.canonicalName :=
    Except.ok.inj ((field_label named).symm.trans ok.name)
  have type : row.entityType = write.entityType :=
    Except.ok.inj ((field_label typed).symm.trans ok.type)
  have safeName : validateSafeGraphLabel 255 row.canonicalName = .ok row.canonicalName :=
    name ▸ ok.name
  have safeType : validateSafeGraphLabel 80 row.entityType = .ok row.entityType := type ▸ ok.type
  have key : row.key = (lowerText write.canonicalName, write.entityType) := by
    unfold GraphEntity.key
    rw [strip_label safeName, strip_label safeType, name, type]
  obtain ⟨aliases, known⟩ := validAliases_ok ok.aliases ok.other valid
  refine ⟨row, ⟨safeName, safeType, ?_, key ▸ aliases⟩, key.trans ok.key.symm, rowId, rfl, known, rfl⟩
  rw [name]
  exact ok.lowered

/-- No row of the session or of the others under the key: the insert is not refused. -/
theorem insert_not_refused (ok : write.Ok) {others : List GraphEntity}
    (rows : ∀ e ∈ db.entities, e.Ok) (absent : ∀ e ∈ db.entities, e.key ≠ write.key)
    (fresh : ∀ e ∈ db.entities, e.graphEntityId < db.nextEntityId)
    (apart : ∀ e ∈ others, e.Ok ∧ e.key ≠ write.key) :
    insertEntity others write.canonicalName write.entityType write.aliases now db ≠
      .error .uniqueIndex := by
  intro refused
  unfold insertEntity at refused
  split at refused
  · rename_i failed
    obtain ⟨name, type, named, typed, e, member, same⟩ := createEntity_refused failed
    have name_eq : name = write.canonicalName :=
      Except.ok.inj ((field_label named).symm.trans ok.name)
    have type_eq : type = write.entityType :=
      Except.ok.inj ((field_label typed).symm.trans ok.type)
    rw [(rows e member).index, name_eq, type_eq, ok.lowered, ← ok.key] at same
    exact absent e member same
  · cases refused
  · rename_i next id created
    obtain ⟨row, rowOk, sameKey, rowId, rfl, _, rfl⟩ := created_row ok created
    split at refused
    · rename_i hit
      obtain ⟨e, other, hit⟩ := List.any_eq_true.mp hit
      obtain ⟨r, member, hit⟩ := List.any_eq_true.mp hit
      simp only [Bool.and_eq_true, beq_iff_eq] at hit
      obtain ⟨eOk, eKey⟩ := apart e other
      rcases List.mem_append.mp member with old | new
      · have := fresh r old
        omega
      · cases List.mem_singleton.mp new
        rw [rowOk.index, eOk.index, sameKey] at hit
        exact eKey hit.2.symm
    · cases refused

theorem SessionOk.insert (ok : SessionOk db keys loaded session) (table : EntityTable db)
    {row : GraphEntity} (rowOk : row.Ok) (owned : row.key ∈ keys)
    (absent : ∀ e ∈ session, e.key ≠ row.key) (rowId : row.graphEntityId = db.nextEntityId) :
    SessionOk { db with nextEntityId := db.nextEntityId + 1 } keys loaded (session ++ [row]) := by
  have split {e : GraphEntity} (member : e ∈ session ++ [row]) : e ∈ session ∨ e = row := by
    simpa using member
  constructor
  · intro e member
    rcases split member with old | rfl
    · exact ok.rows e old
    · exact rowOk
  · intro e member
    rcases split member with old | rfl
    · exact ok.owned e old
    · exact owned
  · refine Table.append_distinct ok.ids fun e member same => ?_
    have := ok.fresh e member
    omega
  · intro e member e' member' same
    rcases split member with old | rfl
    · rcases split member' with old' | rfl
      · exact ok.keyed e old e' old' same
      · exact absurd same (absent e old)
    · rcases split member' with old' | rfl
      · exact absurd same.symm (absent e' old')
      · rfl
  · intro e member
    rcases split member with old | rfl
    · exact Nat.lt_succ_of_lt (ok.fresh e old)
    · exact rowId ▸ Nat.lt_succ_self _
  · exact ok.found
  · intro e member
    obtain ⟨e', inside, kept⟩ := ok.kept e member
    exact ⟨e', List.mem_append_left _ inside, kept⟩
  · intro e member r there same
    rcases split member with old | rfl
    · exact ok.new e old r there same
    · have := table.fresh r there
      omega

theorem MapOk.insert (ok : MapOk session entityMap) {row : GraphEntity}
    (absent : ∀ e ∈ session, e.key ≠ row.key) :
    MapOk (session ++ [row]) ((row.key, row.graphEntityId) :: entityMap) := by
  have lookup (key : EntityKey) : List.lookup key ((row.key, row.graphEntityId) :: entityMap) =
      if key = row.key then some row.graphEntityId else entityMap.lookup key := by
    by_cases same : key = row.key
    · simp [same]
    · have miss : (key == row.key) = false := by simpa using same
      simp only [List.lookup_cons, miss, same, if_false]
  constructor
  · intro key id found
    rw [lookup] at found
    split at found
    · rename_i same
      cases found
      exact ⟨row, by simp, rfl, same.symm⟩
    · obtain ⟨e, member, names⟩ := ok.leads key id found
      exact ⟨e, List.mem_append_left _ member, names⟩
  · intro e member
    rw [lookup]
    rcases List.mem_append.mp member with old | last
    · rw [if_neg (absent e old)]
      exact ok.covers e old
    · rw [List.mem_singleton.mp last, if_pos rfl]

end Inserting

section Merging
variable [GraphText] {db : GraphDb} {keys : List EntityKey} {loaded session : List GraphEntity}
  {entityMap : EntityMap} {g : GraphEntity → GraphEntity}

/-- A row as a merge leaves it: more aliases behind those it had. -/
structure Longer (e e' : GraphEntity) : Prop where
  ok : e'.Ok
  name : e'.name = e.name
  aliases : e.aliasesJson <+: e'.aliasesJson

theorem SessionOk.merge (ok : SessionOk db keys loaded session) (longer : ∀ e ∈ session, Longer e (g e)) :
    SessionOk db keys loaded (session.map g) := by
  have named {e : GraphEntity} (member : e ∈ session) := key_of_name (longer e member).name
  constructor
  · intro e member
    obtain ⟨old, inside, rfl⟩ := List.mem_map.mp member
    exact (longer old inside).ok
  · intro e member
    obtain ⟨old, inside, rfl⟩ := List.mem_map.mp member
    rw [(named inside).2]
    exact ok.owned old inside
  · rw [Table.map_keys fun e member => (named member).1]
    exact ok.ids
  · intro e member e' member' same
    obtain ⟨old, inside, rfl⟩ := List.mem_map.mp member
    obtain ⟨old', inside', rfl⟩ := List.mem_map.mp member'
    rw [(named inside).2, (named inside').2] at same
    rw [ok.keyed old inside old' inside' same]
  · intro e member
    obtain ⟨old, inside, rfl⟩ := List.mem_map.mp member
    rw [(named inside).1]
    exact ok.fresh old inside
  · exact ok.found
  · intro e member
    obtain ⟨e', inside, same, before⟩ := ok.kept e member
    have more := longer e' inside
    exact ⟨g e', List.mem_map_of_mem inside, more.name.trans same, before.trans more.aliases⟩
  · intro e member r there same
    obtain ⟨old, inside, rfl⟩ := List.mem_map.mp member
    exact ok.new old inside r there (same.trans (named inside).1)

theorem MapOk.merge (ok : MapOk session entityMap) (longer : ∀ e ∈ session, Longer e (g e)) :
    MapOk (session.map g) entityMap := by
  constructor
  · intro key id found
    obtain ⟨e, member, rfl, rfl⟩ := ok.leads key id found
    exact ⟨g e, List.mem_map_of_mem member, key_of_name (longer e member).name⟩
  · intro e member
    obtain ⟨old, inside, rfl⟩ := List.mem_map.mp member
    obtain ⟨id, key⟩ := key_of_name (longer old inside).name
    rw [id, key]
    exact ok.covers old inside

/-- What a session knows, it knows after more writes. -/
theorem Written.next {mentions : List EntityMentionCandidate} {write : EntityWrite}
    {rest : List EntityWrite} {session' : List GraphEntity}
    (written : Written mentions session (write :: rest))
    (kept : ∀ e ∈ session, ∃ e' ∈ session', e'.key = e.key ∧ e.aliasesJson <+: e'.aliasesJson)
    (done : ∃ e ∈ session', e.key = write.key ∧ ∀ a ∈ write.aliases, Known e.aliasesJson a) :
    Written mentions session' rest := by
  intro w member
  rcases written w member with waiting | ⟨e, inside, sameKey, known⟩
  · rcases List.mem_cons.mp waiting with rfl | later
    · exact .inr done
    · exact .inl later
  · obtain ⟨e', inside', same, longer⟩ := kept e inside
    exact .inr ⟨e', inside', same.trans sameKey, fun a listed => (known a listed).grown longer⟩

end Merging

section Turn
variable [GraphText] {db db' : GraphDb} {keys : List EntityKey} {loaded session : List GraphEntity}
  {entityMap entityMap' : EntityMap} {mentions : List EntityMentionCandidate} {write : EntityWrite}
  {rest : List EntityWrite} {others : List GraphEntity} {now : Time}

theorem MapOk.absent (ok : MapOk session entityMap) (missing : entityMap.lookup write.key = none) :
    ∀ e ∈ session, e.key ≠ write.key := by
  intro e member same
  have found := ok.covers e member
  rw [same, missing] at found
  cases found

theorem upsert_not_refused (sessionOk : SessionOk db keys loaded session)
    (mapOk : MapOk session entityMap) (ok : write.Ok)
    (apart : ∀ e ∈ others, e.Ok ∧ e.key ≠ write.key) :
    upsertRow others now ({ db with entities := session }, entityMap) write ≠
      .error .uniqueIndex := by
  intro refused
  unfold upsertRow at refused
  split at refused
  · rename_i missing
    split at refused
    · cases refused
    · rename_i error failed
      cases refused
      exact insert_not_refused ok sessionOk.rows (mapOk.absent missing) sessionOk.fresh apart failed
  · split at refused <;> cases refused

/-- A turn of the loop over the writes. -/
theorem upsert_turn (table : EntityTable db) (sessionOk : SessionOk db keys loaded session)
    (mapOk : MapOk session entityMap) (ok : write.Ok) (owned : write.key ∈ keys)
    (written : Written mentions session (write :: rest))
    (done : upsertRow others now ({ db with entities := session }, entityMap) write =
      .ok (db', entityMap')) :
    SessionOk { db with nextEntityId := db'.nextEntityId } keys loaded db'.entities ∧
      MapOk db'.entities entityMap' ∧ Written mentions db'.entities rest ∧
      db.nextEntityId ≤ db'.nextEntityId ∧
      ∀ e ∈ db'.entities, e.graphEntityId = db.nextEntityId ∨
        ∃ old ∈ session, old.graphEntityId = e.graphEntityId := by
  unfold upsertRow at done
  split at done
  · rename_i missing
    split at done
    · rename_i next id inserted
      cases done
      unfold insertEntity at inserted
      split at inserted
      · cases inserted
      · cases inserted
      · rename_i created
        split at inserted
        · cases inserted
        · cases inserted
          obtain ⟨row, rowOk, sameKey, rowId, rfl, known, rfl⟩ := created_row ok created
          have absent : ∀ e ∈ session, e.key ≠ row.key := sameKey ▸ mapOk.absent missing
          refine ⟨sessionOk.insert table rowOk (sameKey ▸ owned) absent rowId, ?_, ?_,
            Nat.le_succ _, ?_⟩
          · have longer := mapOk.insert absent
            rwa [sameKey, rowId] at longer
          · exact written.next (fun e member => ⟨e, List.mem_append_left _ member, rfl,
              List.prefix_refl _⟩) ⟨row, by simp, sameKey, known⟩
          · intro e member
            rcases List.mem_append.mp member with old | last
            · exact .inr ⟨e, old, rfl⟩
            · exact .inl (List.mem_singleton.mp last ▸ rowId)
    · cases done
  · rename_i id found
    split at done
    · rename_i next merged
      cases done
      obtain ⟨row, member, rowId, rowKey⟩ := mapOk.leads _ _ found
      have name : row.key.1 = lowerText write.canonicalName := by rw [rowKey, ok.key]
      have inside : row ∈ ({ db with entities := session } : GraphDb).entities := member
      obtain ⟨row', okRow, same, longer, known, rfl⟩ := mergeEntityAliases_rows sessionOk.ids inside
        rowId (sessionOk.rows row member) ok.aliases (name ▸ ok.other) merged
      have more : ∀ e ∈ session, Longer e (if e.graphEntityId = id then row' else e) := by
        intro e inside
        split
        · rename_i hit
          have one := Table.unique sessionOk.ids inside member (hit.trans rowId.symm)
          exact one ▸ ⟨okRow, same, longer⟩
        · exact ⟨sessionOk.rows e inside, rfl, List.prefix_refl _⟩
      refine ⟨sessionOk.merge more, mapOk.merge more, written.next (fun e inside => ?_) ?_,
        Nat.le_refl _, ?_⟩
      · have this := more e inside
        exact ⟨_, List.mem_map_of_mem inside, (key_of_name this.name).2, this.aliases⟩
      · refine ⟨row', List.mem_map.mpr ⟨row, member, if_pos rowId⟩, ?_, known⟩
        exact (key_of_name same).2.trans rowKey
      · intro e inside
        obtain ⟨old, there, rfl⟩ := List.mem_map.mp inside
        exact .inr ⟨old, there, (key_of_name (more old there).name).1.symm⟩
    · cases done

end Turn

section Publishing
variable [GraphText] {s : EntitySystem} {txn : PersistTxn} {session : List GraphEntity}
  {mentions : List GraphEntityMention} {relations : List GraphRelation}

/-- After the commit the table has the rows of the session under the keys of the transaction, and
under the other keys what it had. -/
theorem mem_publish (table : EntityTable s.db) (same : txn.phase.session = session)
    (ok : SessionOk s.db txn.keys txn.loaded session) {r : GraphEntity} :
    r ∈ (s.publish txn mentions relations).entities ↔
      r ∈ session ∨ (r ∈ s.db.entities ∧ r.key ∉ txn.keys) := by
  have dirty {e : GraphEntity} : e ∈ txn.dirty ↔ e ∈ session ∧ e ∉ txn.loaded := by
    simp [PersistTxn.dirty, same]
  have distinct : (txn.dirty.map (·.graphEntityId)).Nodup := by
    unfold PersistTxn.dirty
    exact same ▸ Table.filter_distinct ok.ids _
  have merged : r ∈ (s.publish txn mentions relations).entities ↔
      r ∈ txn.dirty ∨ (r ∈ s.db.entities ∧ r.graphEntityId ∉ txn.dirty.map (·.graphEntityId)) :=
    Table.mem_mergeRows distinct
  rw [merged]
  constructor
  · rintro (changed | ⟨old, unchanged⟩)
    · exact .inl (dirty.mp changed).1
    · by_cases owned : r.key ∈ txn.keys
      · have loaded := (ok.found r).mpr ⟨old, owned⟩
        obtain ⟨e, inside, name, _⟩ := ok.kept r loaded
        have sameId := (key_of_name name).1
        have clean : e ∈ txn.loaded := by
          by_contra fresh
          exact unchanged (sameId ▸ List.mem_map_of_mem (dirty.mpr ⟨inside, fresh⟩))
        have one := Table.unique table.distinct old ((ok.found e).mp clean).1 sameId.symm
        exact .inl (one ▸ inside)
      · exact .inr ⟨old, owned⟩
  · rintro (inside | ⟨old, other⟩)
    · by_cases clean : r ∈ txn.loaded
      · refine .inr ⟨((ok.found r).mp clean).1, fun again => ?_⟩
        obtain ⟨e, changed, sameId⟩ := List.mem_map.mp again
        obtain ⟨there, fresh⟩ := dirty.mp changed
        exact fresh (Table.unique ok.ids there inside sameId ▸ clean)
      · exact .inl (dirty.mpr ⟨inside, clean⟩)
    · refine .inr ⟨old, fun again => other ?_⟩
      obtain ⟨e, changed, sameId⟩ := List.mem_map.mp again
      exact ((ok.found r).mp (ok.new e (dirty.mp changed).1 r old sameId.symm)).2

theorem table_published (table : EntityTable s.db) (same : txn.phase.session = session)
    (ok : SessionOk s.db txn.keys txn.loaded session) :
    EntityTable (s.publish txn mentions relations) := by
  have mem {r : GraphEntity} : r ∈ (s.publish txn mentions relations).entities ↔
      r ∈ session ∨ (r ∈ s.db.entities ∧ r.key ∉ txn.keys) := mem_publish table same ok
  have rows : ∀ e ∈ (s.publish txn mentions relations).entities, e.Ok := by
    intro e member
    rcases mem.mp member with inside | ⟨old, _⟩
    · exact ok.rows e inside
    · exact table.rows e old
  have distinct : ((s.publish txn mentions relations).entities.map (·.graphEntityId)).Nodup :=
    Table.mergeRows_distinct table.distinct
  refine ⟨⟨distinct, fun e member => ?_⟩, rows, ?_⟩
  · rcases mem.mp member with inside | ⟨old, _⟩
    · exact ok.fresh e inside
    · exact table.fresh e old
  · refine (List.Nodup.of_map _ distinct).map_on fun e member e' member' index => ?_
    rw [(rows e member).index, (rows e' member').index] at index
    rcases mem.mp member with inside | ⟨old, other⟩
    · rcases mem.mp member' with inside' | ⟨_, other'⟩
      · exact ok.keyed e inside e' inside' index
      · have owned := ok.owned e inside
        rw [index] at owned
        exact absurd owned other'
    · rcases mem.mp member' with inside' | ⟨old', _⟩
      · have owned := ok.owned e' inside'
        rw [← index] at owned
        exact absurd owned other
      · exact table.keyed old old' index

end Publishing

section Frame
variable [GraphText] {db db' : GraphDb} {txn : PersistTxn}

/-- What the step of another transaction leaves of the table to a transaction. -/
structure Outside (db db' : GraphDb) (txn : PersistTxn) : Prop where
  next : db.nextEntityId ≤ db'.nextEntityId
  own : txn.held = txn.locks → ∀ e : GraphEntity, e.key ∈ txn.keys →
    (e ∈ db'.entities ↔ e ∈ db.entities)
  ids : ∀ e ∈ txn.phase.session, ∀ r ∈ db'.entities, r.graphEntityId = e.graphEntityId →
    r ∈ db.entities
  grown : ∀ e ∈ db.entities, ∃ e' ∈ db'.entities, e'.key = e.key ∧ e.aliasesJson <+: e'.aliasesJson

theorem Outside.same (entities : db'.entities = db.entities)
    (next : db.nextEntityId ≤ db'.nextEntityId) : Outside db db' txn := by
  refine ⟨next, fun _ e _ => by rw [entities], fun _ _ r there _ => entities ▸ there, ?_⟩
  exact fun e member => ⟨e, entities ▸ member, rfl, List.prefix_refl _⟩

theorem SessionOk.frame {session : List GraphEntity} (outside : Outside db db' txn)
    (holds : txn.held = txn.locks) (same : txn.phase.session = session)
    (ok : SessionOk db txn.keys txn.loaded session) :
    SessionOk db' txn.keys txn.loaded session := by
  refine ⟨ok.rows, ok.owned, ok.ids, ok.keyed, ?_, ?_, ok.kept, ?_⟩
  · exact fun e member => Nat.lt_of_lt_of_le (ok.fresh e member) outside.next
  · intro e
    rw [ok.found]
    exact and_congr_left fun owned => (outside.own holds e owned).symm
  · exact fun e member r there sameId =>
      ok.new e member r (outside.ids e (same ▸ member) r there sameId) sameId

theorem Contributed.grown {mentions : List EntityMentionCandidate}
    (contributed : Contributed db mentions)
    (grown : ∀ e ∈ db.entities, ∃ e' ∈ db'.entities, e'.key = e.key ∧
      e.aliasesJson <+: e'.aliasesJson) : Contributed db' mentions := by
  intro m mention a listed
  obtain ⟨e, member, same, known⟩ := contributed m mention a listed
  obtain ⟨e', member', same', longer⟩ := grown e member
  exact ⟨e', member', same'.trans same, known.grown longer⟩

/-- A transaction that works on entities holds all its locks. -/
theorem holds_locks (ok : LocksOk txn) (active : txn.phase.active = true)
    (none : txn.phase.waiting = []) : txn.held = txn.locks := by
  have all := ok.active active
  rwa [none, List.append_nil] at all

theorem phase_frame (locks : LocksOk txn) (outside : Outside db db' txn)
    (ok : PhaseOk db txn txn.phase) : PhaseOk db' txn txn.phase := by
  cases phase : txn.phase with
  | locking waiting => trivial
  | upserting writes session entityMap =>
    rw [phase] at ok
    obtain ⟨sessionOk, rest⟩ := ok
    have holds := holds_locks locks (by rw [phase]; rfl) (by rw [phase]; rfl)
    exact ⟨sessionOk.frame outside holds (by rw [phase]; rfl), rest⟩
  | committing session mentions relations =>
    rw [phase] at ok
    obtain ⟨sessionOk, written⟩ := ok
    have holds := holds_locks locks (by rw [phase]; rfl) (by rw [phase]; rfl)
    exact ⟨sessionOk.frame outside holds (by rw [phase]; rfl), written⟩
  | committed =>
    rw [phase] at ok
    exact Contributed.grown ok outside.grown
  | rolledBack error =>
    rw [phase] at ok
    exact ok

end Frame

section Preserved
variable [GraphText] {hash : String → Int} {s : EntitySystem} {i : Nat} {txn txn' : PersistTxn}
  {db : GraphDb}

/-- A transaction with rows in its session holds all its locks. -/
theorem PhaseOk.session {db : GraphDb} (locks : LocksOk txn) (ok : PhaseOk db txn txn.phase)
    {e : GraphEntity} (member : e ∈ txn.phase.session) :
    SessionOk db txn.keys txn.loaded txn.phase.session ∧ txn.held = txn.locks := by
  cases phase : txn.phase with
  | locking waiting =>
    rw [phase] at member
    cases member
  | upserting writes session entityMap =>
    rw [phase] at ok
    exact ⟨ok.1, holds_locks locks (by rw [phase]; rfl) (by rw [phase]; rfl)⟩
  | committing session mentions relations =>
    rw [phase] at ok
    exact ⟨ok.1, holds_locks locks (by rw [phase]; rfl) (by rw [phase]; rfl)⟩
  | committed =>
    rw [phase] at member
    cases member
  | rolledBack error =>
    rw [phase] at member
    cases member

theorem PersistInv.session (inv : PersistInv hash s) {j : Nat} {other : PersistTxn}
    (there : s.txns[j]? = some other) {e : GraphEntity} (member : e ∈ other.phase.session) :
    SessionOk s.db other.keys other.loaded other.phase.session ∧ other.held = other.locks :=
  PhaseOk.session (inv.locks.each j other there) (inv.phases j other there) member

/-- The rows that the index sees beside a session stand under other keys than its writes. -/
theorem PersistInv.otherRows (inv : PersistInv hash s) (found : s.txns[i]? = some txn)
    (holds : txn.held = txn.locks) {session : List GraphEntity}
    (ok : SessionOk s.db txn.keys txn.loaded session) {key : EntityKey} (owned : key ∈ txn.keys) :
    ∀ e ∈ s.otherRows i session, e.Ok ∧ e.key ≠ key := by
  intro e member
  rcases List.mem_append.mp member with committed | pending
  · obtain ⟨there, outside⟩ := List.mem_filter.mp committed
    refine ⟨inv.table.rows e there, ?_⟩
    rintro rfl
    obtain ⟨e', inside, name, _⟩ := ok.kept e ((ok.found e).mpr ⟨there, owned⟩)
    have sameId := (key_of_name name).1
    have hit : session.any (·.graphEntityId == e.graphEntityId) = true :=
      List.any_eq_true.mpr ⟨e', inside, by simpa using sameId⟩
    rw [hit] at outside
    cases outside
  · obtain ⟨other, elsewhere, changed⟩ := List.mem_flatMap.mp pending
    obtain ⟨j, ne, there⟩ := otherTxns_mem elsewhere
    have inside : e ∈ other.phase.session := (List.mem_filter.mp changed).1
    obtain ⟨otherOk, otherHolds⟩ := inv.session there inside
    refine ⟨otherOk.rows e inside, ?_⟩
    rintro rfl
    exact inv.locks.keys_apart ne found there holds otherHolds _ owned (otherOk.owned e inside)

/-- What a step does to the table, to its transaction and to the others. -/
structure Effect (s : EntitySystem) (i : Nat) (db : GraphDb) (txn' : PersistTxn) : Prop where
  table : EntityTable db
  phase : PhaseOk db txn' txn'.phase
  outside : ∀ (j : Nat) other, i ≠ j → s.txns[j]? = some other → Outside s.db db other
  apart : ∀ (j : Nat) other, i ≠ j → s.txns[j]? = some other → ∀ e ∈ txn'.phase.session,
    ∀ e' ∈ other.phase.session, e.graphEntityId ≠ e'.graphEntityId

theorem effect_closed (inv : PersistInv hash s) {phase : PersistPhase}
    (ok : PhaseOk s.db (txn.close phase) phase) (empty : phase.session = []) :
    Effect s i s.db (txn.close phase) := by
  refine ⟨inv.table, ok, fun _ _ _ _ => .same rfl (Nat.le_refl _), fun _ _ _ _ e member => ?_⟩
  have none : e ∈ phase.session := member
  rw [empty] at none
  cases none

theorem effect_committed (inv : PersistInv hash s) (found : s.txns[i]? = some txn)
    {session : List GraphEntity} {mentions : List GraphEntityMention}
    {relations : List GraphRelation} (phase : txn.phase = .committing session mentions relations) :
    Effect s i (s.publish txn mentions relations) (txn.close .committed) := by
  have ok := inv.phases i txn found
  rw [phase] at ok
  obtain ⟨sessionOk, written⟩ := ok
  have same : txn.phase.session = session := by rw [phase]; rfl
  have holds := holds_locks (inv.locks.each i txn found) (by rw [phase]; rfl) (by rw [phase]; rfl)
  have mem {r : GraphEntity} : r ∈ (s.publish txn mentions relations).entities ↔
      r ∈ session ∨ (r ∈ s.db.entities ∧ r.key ∉ txn.keys) := mem_publish inv.table same sessionOk
  refine ⟨table_published inv.table same sessionOk, ?_, ?_, fun _ _ _ _ e member => nomatch member⟩
  · intro m mention a listed
    obtain ⟨w, write, sameKey, aliases⟩ := write_of_mention mention
    rcases written w write with waiting | ⟨e, inside, key, known⟩
    · cases waiting
    · exact ⟨e, mem.mpr (.inl inside), key.trans sameKey, known a (aliases a listed)⟩
  · intro j other ne there
    refine ⟨Nat.le_refl _, ?_, ?_, ?_⟩
    · intro otherHolds e owned
      have foreign : e.key ∉ txn.keys := fun mine =>
        inv.locks.keys_apart ne found there holds otherHolds _ mine owned
      rw [mem]
      constructor
      · rintro (inside | ⟨old, _⟩)
        · exact absurd (sessionOk.owned e inside) foreign
        · exact old
      · exact fun old => .inr ⟨old, foreign⟩
    · intro e member r new sameId
      rcases mem.mp new with inside | ⟨old, _⟩
      · exact absurd sameId (inv.apart i j txn other ne found there r (same ▸ inside) e member)
      · exact old
    · intro e member
      by_cases owned : e.key ∈ txn.keys
      · obtain ⟨e', inside, name, longer⟩ := sessionOk.kept e
          ((sessionOk.found e).mpr ⟨member, owned⟩)
        exact ⟨e', mem.mpr (.inl inside), (key_of_name name).2, longer⟩
      · exact ⟨e, mem.mpr (.inr ⟨member, owned⟩), rfl, List.prefix_refl _⟩

theorem TxnStep.effect (laws : LowerLaws) (inv : PersistInv hash s)
    (found : s.txns[i]? = some txn) (step : TxnStep hash s i txn db txn') :
    Effect s i db txn' := by
  have mentions := inv.mentions txn (List.mem_of_getElem? found)
  have locks := inv.locks.each i txn found
  have ok := inv.phases i txn found
  cases step with
  | acquire phase free =>
    exact ⟨inv.table, trivial, fun _ _ _ _ => .same rfl (Nat.le_refl _),
      fun _ _ _ _ e member => nomatch member⟩
  | @list entityMap loaded phase listed rows =>
    have holds := holds_locks locks (by rw [phase]; rfl) (by rw [phase]; rfl)
    obtain ⟨sessionOk, mapOk⟩ := session_listed laws inv.table
      (fun m member => (mentions m member).toNormalized) listed rows
    refine ⟨inv.table, ⟨sessionOk, mapOk, fun w member => member, fun w member => .inl member⟩,
      fun _ _ _ _ => .same rfl (Nat.le_refl _), ?_⟩
    intro j other ne there e member e' member' same
    obtain ⟨otherOk, otherHolds⟩ := inv.session there member'
    obtain ⟨old, owned⟩ := (sessionOk.found e).mp member
    have theirs := (otherOk.found e).mp (otherOk.new e' member' e old same)
    exact inv.locks.keys_apart ne found there holds otherHolds _ owned theirs.2
  | @upsert now write rest session entityMap entityMap' next phase done =>
    rw [phase] at ok
    obtain ⟨sessionOk, mapOk, pending, written⟩ := ok
    have write_member := pending write List.mem_cons_self
    obtain ⟨sessionOk', mapOk', written', grown, ids⟩ := upsert_turn inv.table sessionOk mapOk
      (write_ok mentions write_member) (write_key write_member) written done
    refine ⟨⟨⟨inv.table.distinct, fun e member => ?_⟩, inv.table.rows, inv.table.index⟩,
      ⟨sessionOk', mapOk', fun w later => pending w (List.mem_cons_of_mem _ later), written'⟩,
      fun _ _ _ _ => .same rfl grown, ?_⟩
    · exact Nat.lt_of_lt_of_le (inv.table.fresh e member) grown
    · intro j other ne there e member e' member' same
      rcases ids e member with new | ⟨old, inside, sameId⟩
      · have := (inv.session there member').1.fresh e' member'
        omega
      · refine inv.apart i j txn other ne found there old ?_ e' member' (sameId.trans same)
        rw [phase]
        exact inside
  | @conflict now write rest session entityMap phase failed =>
    have holds := holds_locks locks (by rw [phase]; rfl) (by rw [phase]; rfl)
    rw [phase] at ok
    obtain ⟨sessionOk, mapOk, pending, _⟩ := ok
    have write_member := pending write List.mem_cons_self
    have apart := inv.otherRows found holds sessionOk (write_key write_member)
    exact absurd failed
      (upsert_not_refused sessionOk mapOk (write_ok mentions write_member) apart)
  | @writeRows session entityMap next phase done =>
    have holds := holds_locks locks (by rw [phase]; rfl) (by rw [phase]; rfl)
    have same : txn.phase.session = session := by rw [phase]; rfl
    rw [phase] at ok
    obtain ⟨sessionOk, _, _, written⟩ := ok
    have outside : Outside s.db { s.db with
        nextMentionId := next.nextMentionId, nextRelationId := next.nextRelationId } txn :=
      .same rfl (Nat.le_refl _)
    have kept := sessionOk.frame outside holds same
    refine ⟨⟨⟨inv.table.distinct, inv.table.fresh⟩, inv.table.rows, inv.table.index⟩,
      ⟨kept, written⟩,
      fun _ _ _ _ => .same rfl (Nat.le_refl _), ?_⟩
    intro j other ne there e member
    exact inv.apart i j txn other ne found there e (same ▸ member)
  | commit phase => exact effect_committed inv found phase
  | rollback active =>
    exact effect_closed inv (fun conflict => nomatch conflict) rfl

theorem persistInv_step (laws : LowerLaws) (inv : PersistInv hash s)
    (found : s.txns[i]? = some txn) (step : TxnStep hash s i txn db txn') :
    PersistInv hash ⟨db, s.txns.set i txn'⟩ := by
  have effect := step.effect laws inv found
  refine ⟨effect.table, lockInv_step inv.locks found step, ?_, ?_, ?_⟩
  · intro other member m mention
    rcases List.mem_or_eq_of_mem_set member with old | rfl
    · exact inv.mentions other old m mention
    · exact inv.mentions txn (List.mem_of_getElem? found) m (step.sameTask.mentions ▸ mention)
  · intro j other there
    rcases set_cases there with ⟨_, rfl⟩ | ⟨ne, old⟩
    · exact effect.phase
    · exact phase_frame (inv.locks.each j other old) (effect.outside j other ne old)
        (inv.phases j other old)
  · intro j k one two ne first second
    rcases set_cases first with ⟨rfl, rfl⟩ | ⟨no, old⟩
    · rcases set_cases second with ⟨rfl, _⟩ | ⟨no, old'⟩
      · exact absurd rfl ne
      · exact effect.apart k two no old'
    · rcases set_cases second with ⟨rfl, rfl⟩ | ⟨_, old'⟩
      · exact fun e member e' member' same => effect.apart j one no old e' member' e member same.symm
      · exact inv.apart j k one two ne old old'

end Preserved

end RagProject.Graph
