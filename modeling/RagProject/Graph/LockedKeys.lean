import Mathlib.Order.WithBot
import RagProject.Graph.PersistTransactions

/-! The advisory locks of concurrent builds. They are taken in one order, so that no transactions
wait for each other in a circle, and transactions with a common entity key exclude each other. -/
namespace RagProject.Graph
open Python KeepFirst Jobs Interleaving

section Keys
variable [GraphText]

/-- A mention as GraphEntityNormalizer.normalize leaves it: the checked texts, and no alias that is
the name. -/
structure EntityMentionCandidate.Normalized (m : EntityMentionCandidate) : Prop where
  name : validateSafeGraphLabel 255 m.canonicalName = .ok m.canonicalName
  type : validateSafeGraphLabel 80 m.entityType = .ok m.entityType
  aliases : ∀ a ∈ m.aliases, validateSafeGraphLabel 120 a = .ok a
  other : ∀ a ∈ m.aliases, lowerText a ≠ lowerText m.canonicalName

theorem strip_toList {s : String} (stripped : stripText s = s) : strip s.toList = s.toList := by
  conv_rhs => rw [← stripped]
  exact String.toList_ofList.symm

theorem stripText_lower (laws : LowerLaws) {s : String} (stripped : stripText s = s) :
    stripText (lowerText s) = lowerText s := by
  unfold stripText lowerText
  rw [String.toList_ofList, strip_lower laws (strip_toList stripped)]

theorem lowerText_lower (laws : LowerLaws) (s : String) : lowerText (lowerText s) = lowerText s := by
  unfold lowerText
  rw [String.toList_ofList, lower_lower laws]

/-- The key that a lock and a lookup make of the key of a mention is that key. -/
theorem EntityMentionCandidate.Normalized.key (laws : LowerLaws) {m : EntityMentionCandidate}
    (normal : m.Normalized) :
    lowerText (stripText m.entityKey.1) = m.entityKey.1 ∧ stripText m.entityKey.2 = m.entityKey.2 := by
  constructor
  · change lowerText (stripText (lowerText m.canonicalName)) = lowerText m.canonicalName
    rw [stripText_lower laws (strip_label normal.name), lowerText_lower laws]
  · exact strip_label normal.type

theorem mem_keys {txn : PersistTxn} {key : EntityKey} (member : key ∈ txn.keys) :
    ∃ m ∈ txn.mentions, m.entityKey = key := by
  unfold PersistTxn.keys entityWrites at member
  rw [List.map_map] at member
  obtain ⟨m, kept, rfl⟩ := List.mem_map.mp member
  exact ⟨m, (keepFirst_sublist _ _).subset kept, rfl⟩

theorem keys_distinct (txn : PersistTxn) : txn.keys.Nodup := by
  unfold PersistTxn.keys entityWrites
  rw [List.map_map]
  exact keepFirst_distinct _ _

omit [GraphText] in
theorem sortedKeys_sorted {keys : List EntityKey} (distinct : keys.Nodup) :
    (sortedKeys keys).Pairwise fun a b => toLex a < toLex b := by
  have order (a b : EntityKey) : (a.1 < b.1 ∨ (a.1 = b.1 ∧ a.2 ≤ b.2)) ↔ toLex a ≤ toLex b :=
    Prod.Lex.toLex_le_toLex.symm
  have total : Std.Total fun a b : EntityKey => a.1 < b.1 ∨ (a.1 = b.1 ∧ a.2 ≤ b.2) :=
    ⟨fun a b => by simpa only [order] using le_total (toLex a) (toLex b)⟩
  have trans : IsTrans EntityKey fun a b => a.1 < b.1 ∨ (a.1 = b.1 ∧ a.2 ≤ b.2) :=
    ⟨fun a b c first second => by
      rw [order] at first second ⊢
      exact le_trans first second⟩
  have sorted := List.pairwise_insertionSort
    (fun a b : EntityKey => a.1 < b.1 ∨ (a.1 = b.1 ∧ a.2 ≤ b.2)) keys
  have apart : (sortedKeys keys).Nodup := (List.perm_insertionSort _ _).nodup_iff.mpr distinct
  refine (List.pairwise_and_iff.mpr ⟨sorted, apart⟩).imp fun both => ?_
  exact lt_of_le_of_ne ((order _ _).mp both.1) fun same => both.2 (toLex.injective same)

/-- The place of a lock in the common order: the version first, then the keys by their texts. -/
def LockName.rank : LockName → WithBot (Lex EntityKey)
  | .documentVersion _ => ⊥
  | .entityKey canonicalName entityType => ((toLex (canonicalName, entityType) : Lex EntityKey) :)

theorem mem_locks {txn : PersistTxn} {key : EntityKey} (member : key ∈ txn.keys) :
    LockName.entityKey (lowerText (stripText key.1)) (stripText key.2) ∈ txn.locks := by
  refine List.mem_cons_of_mem _ (List.mem_map_of_mem ?_)
  exact (List.perm_insertionSort _ _).mem_iff.mpr member

/-- A transaction asks for its locks in the common order. -/
theorem locks_climb (laws : LowerLaws) {txn : PersistTxn}
    (normal : ∀ m ∈ txn.mentions, m.Normalized) :
    txn.locks.Pairwise fun a b => a.rank < b.rank := by
  have key {k : EntityKey} (member : k ∈ sortedKeys txn.keys) :
      lowerText (stripText k.1) = k.1 ∧ stripText k.2 = k.2 := by
    obtain ⟨m, mention, rfl⟩ := mem_keys ((List.perm_insertionSort _ _).mem_iff.mp member)
    exact (normal m mention).key laws
  unfold PersistTxn.locks
  refine List.pairwise_cons.mpr ⟨?_, List.pairwise_map.mpr ?_⟩
  · intro lock member
    obtain ⟨k, _, rfl⟩ := List.mem_map.mp member
    exact WithBot.bot_lt_coe (toLex (lowerText (stripText k.1), stripText k.2))
  · refine (sortedKeys_sorted (keys_distinct txn)).imp_of_mem fun first second below => ?_
    obtain ⟨name, type⟩ := key first
    obtain ⟨name', type'⟩ := key second
    simp only [LockName.rank, name, type, name', type']
    exact WithBot.coe_lt_coe.mpr below

end Keys

section Steps
variable [GraphText] (hash : String → Int)

/-- What a step does to the transaction that takes it, and to the tables. -/
inductive TxnStep (s : EntitySystem) (i : Nat) (txn : PersistTxn) :
    GraphDb → PersistTxn → Prop where
  | acquire {lock : LockName} {rest : List LockName} (phase : txn.phase = .locking (lock :: rest))
      (free : s.lockFree hash i lock = true) :
      TxnStep s i txn s.db { txn with held := txn.held ++ [lock], phase := .locking rest }
  | list {entityMap : EntityMap} {loaded : List GraphEntity} (phase : txn.phase = .locking [])
      (listed : entityMap = listEntitiesByKeys txn.keys s.db.entities)
      (rows : loaded = s.db.entities.filter fun e =>
        entityMap.any fun entry => entry.2 == e.graphEntityId) :
      TxnStep s i txn s.db { txn with
        loaded := loaded, phase := .upserting (entityWrites txn.mentions) loaded entityMap }
  | upsert {now : Time} {write : EntityWrite} {rest : List EntityWrite}
      {session : List GraphEntity} {entityMap entityMap' : EntityMap} {db : GraphDb}
      (phase : txn.phase = .upserting (write :: rest) session entityMap)
      (done : upsertRow (s.otherRows i session) now ({ s.db with entities := session }, entityMap)
        write = .ok (db, entityMap')) :
      TxnStep s i txn { s.db with nextEntityId := db.nextEntityId }
        { txn with phase := .upserting rest db.entities entityMap' }
  | conflict {now : Time} {write : EntityWrite} {rest : List EntityWrite}
      {session : List GraphEntity} {entityMap : EntityMap}
      (phase : txn.phase = .upserting (write :: rest) session entityMap)
      (failed : upsertRow (s.otherRows i session) now
        ({ s.db with entities := session }, entityMap) write = .error .uniqueIndex) :
      TxnStep s i txn s.db (txn.close (.rolledBack .uniqueIndex))
  | writeRows {session : List GraphEntity} {entityMap : EntityMap} {db : GraphDb}
      (phase : txn.phase = .upserting [] session entityMap)
      (done : writeVersionRows txn entityMap { s.db with entities := session } = .ok db) :
      TxnStep s i txn
        { s.db with nextMentionId := db.nextMentionId, nextRelationId := db.nextRelationId }
        { txn with
          phase := .committing session (db.mentionsOf txn.documentVersionId)
            (db.relationsOf txn.documentVersionId) }
  | commit {session : List GraphEntity} {mentions : List GraphEntityMention}
      {relations : List GraphRelation} (phase : txn.phase = .committing session mentions relations) :
      TxnStep s i txn (s.publish txn mentions relations) (txn.close .committed)
  | rollback {error : GraphError} (active : txn.phase.active = true) :
      TxnStep s i txn s.db (txn.close (.rolledBack (.raised error)))

theorem step_txn {s s' : EntitySystem} {action : TxnAction} (done : s.step hash action = some s') :
    ∃ i txn db txn', s.txns[i]? = some txn ∧ TxnStep hash s i txn db txn' ∧
      s' = ⟨db, s.txns.set i txn'⟩ := by
  cases action with
  | acquire i =>
    simp only [EntitySystem.step] at done
    split at done
    · rename_i txn found
      split at done
      · rename_i lock rest phase
        split at done
        · rename_i free
          cases done
          exact ⟨i, txn, _, _, found, .acquire phase free, rfl⟩
        · cases done
      · cases done
    · cases done
  | list i =>
    simp only [EntitySystem.step] at done
    split at done
    · rename_i txn found
      split at done
      · rename_i phase
        cases done
        exact ⟨i, txn, _, _, found, .list phase rfl rfl, rfl⟩
      · cases done
    · cases done
  | upsert i now =>
    simp only [EntitySystem.step] at done
    split at done
    · rename_i txn found
      split at done
      · rename_i write rest session entityMap phase
        split at done
        · rename_i db entityMap' wrote
          cases done
          exact ⟨i, txn, _, _, found, .upsert phase wrote, rfl⟩
        · rename_i error failed
          cases done
          cases error with
          | uniqueIndex => exact ⟨i, txn, _, _, found, .conflict phase failed, rfl⟩
          | raised error => exact ⟨i, txn, _, _, found, .rollback (by rw [phase]; rfl), rfl⟩
      · cases done
    · cases done
  | writeRows i =>
    simp only [EntitySystem.step] at done
    split at done
    · rename_i txn found
      split at done
      · rename_i session entityMap phase
        split at done
        · rename_i db wrote
          cases done
          exact ⟨i, txn, _, _, found, .writeRows phase wrote, rfl⟩
        · cases done
          exact ⟨i, txn, _, _, found, .rollback (by rw [phase]; rfl), rfl⟩
      · cases done
    · cases done
  | commit i =>
    simp only [EntitySystem.step] at done
    split at done
    · rename_i txn found
      split at done
      · rename_i session mentions relations phase
        cases done
        exact ⟨i, txn, _, _, found, .commit phase, rfl⟩
      · cases done
    · cases done
  | rollback i error =>
    simp only [EntitySystem.step] at done
    split at done
    · rename_i txn found
      split at done
      · rename_i active
        cases done
        exact ⟨i, txn, _, _, found, .rollback active, rfl⟩
      · cases done
    · cases done

end Steps

section Held
variable [GraphText] (hash : String → Int)

def PersistPhase.waiting : PersistPhase → List LockName
  | .locking waiting => waiting
  | _ => []

/-- A transaction holds the locks that it does not wait for, and none once it has ended. -/
structure LocksOk (txn : PersistTxn) : Prop where
  active : txn.phase.active = true → txn.held ++ txn.phase.waiting = txn.locks
  closed : txn.phase.active = false → txn.held = []

def Exclusive (held other : List LockName) : Prop :=
  ∀ a ∈ held, ∀ b ∈ other, hash a.text ≠ hash b.text

structure LockInv (s : EntitySystem) : Prop where
  each : ∀ (i : Nat) txn, s.txns[i]? = some txn → LocksOk txn
  exclusive : ∀ (i j : Nat) txn other, i ≠ j → s.txns[i]? = some txn → s.txns[j]? = some other →
    Exclusive hash txn.held other.held

/-- What a transaction was given stays. -/
structure SameTask (txn txn' : PersistTxn) : Prop where
  mentions : txn'.mentions = txn.mentions
  documentVersionId : txn'.documentVersionId = txn.documentVersionId

variable {hash} {s : EntitySystem} {i : Nat} {txn txn' : PersistTxn} {db : GraphDb}

theorem SameTask.keys (same : SameTask txn txn') : txn'.keys = txn.keys := by
  unfold PersistTxn.keys
  rw [same.mentions]

theorem SameTask.locks (same : SameTask txn txn') : txn'.locks = txn.locks := by
  unfold PersistTxn.locks
  rw [same.keys, same.documentVersionId]

theorem TxnStep.sameTask (step : TxnStep hash s i txn db txn') : SameTask txn txn' := by
  cases step <;> exact ⟨rfl, rfl⟩

omit [GraphText] in
theorem set_cases {txns : List PersistTxn} {j : Nat} {other : PersistTxn}
    (found : (txns.set i txn')[j]? = some other) :
    (i = j ∧ other = txn') ∨ (i ≠ j ∧ txns[j]? = some other) := by
  rw [List.getElem?_set] at found
  split at found
  · rename_i same
    split at found
    · cases found
      exact .inl ⟨same, rfl⟩
    · cases found
  · rename_i apart
    exact .inr ⟨apart, found⟩

omit [GraphText] in
theorem mem_otherTxns {j : Nat} {other : PersistTxn} (apart : i ≠ j)
    (found : s.txns[j]? = some other) : other ∈ s.otherTxns i := by
  unfold EntitySystem.otherTxns
  refine List.mem_map.mpr ⟨(other, j), List.mem_filter.mpr ⟨?_, by simpa using apart.symm⟩, rfl⟩
  exact List.mem_zipIdx_iff_getElem?.mpr found

omit [GraphText] in
theorem otherTxns_mem {other : PersistTxn} (member : other ∈ s.otherTxns i) :
    ∃ j, i ≠ j ∧ s.txns[j]? = some other := by
  unfold EntitySystem.otherTxns at member
  obtain ⟨⟨txn, j⟩, kept, rfl⟩ := List.mem_map.mp member
  obtain ⟨place, apart⟩ := List.mem_filter.mp kept
  exact ⟨j, fun same => by simp [same] at apart, List.mem_zipIdx_iff_getElem?.mp place⟩

/-- The locks of a step: one more that was free, the same ones, or none. -/
theorem TxnStep.locks (step : TxnStep hash s i txn db txn') (ok : LocksOk txn) :
    LocksOk txn' ∧ ∀ a ∈ txn'.held, a ∈ txn.held ∨ s.lockFree hash i a = true := by
  have task := step.sameTask.locks
  cases step with
  | @acquire lock rest phase free =>
    have active := ok.active (by rw [phase]; rfl)
    rw [phase] at active
    refine ⟨⟨fun _ => ?_, fun closed => nomatch closed⟩, fun a member => ?_⟩
    · rw [task, ← active]
      exact List.append_assoc _ _ _
    · rcases List.mem_append.mp member with old | new
      · exact .inl old
      · exact .inr (List.mem_singleton.mp new ▸ free)
  | list phase _ _ =>
    refine ⟨⟨fun _ => ?_, fun closed => nomatch closed⟩, fun a member => .inl member⟩
    have active := ok.active (by rw [phase]; rfl)
    rw [phase] at active
    exact task ▸ active
  | upsert phase _ | writeRows phase _ =>
    refine ⟨⟨fun _ => ?_, fun closed => nomatch closed⟩, fun a member => .inl member⟩
    have active := ok.active (by rw [phase]; rfl)
    rw [phase] at active
    exact task ▸ active
  | conflict _ _ | commit _ | rollback _ =>
    exact ⟨⟨fun active => (nomatch active), fun _ => rfl⟩, fun a member => (nomatch member)⟩

theorem lockInv_step (inv : LockInv hash s) (found : s.txns[i]? = some txn)
    (step : TxnStep hash s i txn db txn') : LockInv hash ⟨db, s.txns.set i txn'⟩ := by
  obtain ⟨ok, taken⟩ := step.locks (inv.each i txn found)
  have apart (j : Nat) (other : PersistTxn) (ne : i ≠ j) (there : s.txns[j]? = some other) :
      Exclusive hash txn'.held other.held := by
    intro a held b inside
    rcases taken a held with old | free
    · exact inv.exclusive i j txn other ne found there a old b inside
    · unfold EntitySystem.lockFree at free
      have all := List.all_eq_true.mp free other (mem_otherTxns ne there)
      have number := List.all_eq_true.mp all b inside
      exact fun same => (by simpa using number : hash b.text ≠ hash a.text) same.symm
  constructor
  · intro j other there
    rcases set_cases there with ⟨_, rfl⟩ | ⟨_, old⟩
    · exact ok
    · exact inv.each j other old
  · intro j k one two ne first second
    rcases set_cases first with ⟨rfl, rfl⟩ | ⟨no, old⟩
    · rcases set_cases second with ⟨rfl, _⟩ | ⟨_, old'⟩
      · exact absurd rfl ne
      · exact apart k two ne old'
    · rcases set_cases second with ⟨rfl, rfl⟩ | ⟨_, old'⟩
      · exact fun a held b inside same => apart j one no old b inside a held same.symm
      · exact inv.exclusive j k one two ne old old'

/-- Transactions that hold all their locks work on different keys. -/
theorem LockInv.keys_apart (inv : LockInv hash s) {j : Nat} {other : PersistTxn} (ne : i ≠ j)
    (found : s.txns[i]? = some txn) (there : s.txns[j]? = some other)
    (holds : txn.held = txn.locks) (otherHolds : other.held = other.locks) :
    ∀ key ∈ txn.keys, key ∉ other.keys := by
  intro key member again
  have first := mem_locks member
  have second := mem_locks again
  rw [← holds] at first
  rw [← otherHolds] at second
  exact inv.exclusive i j txn other ne found there _ first _ second rfl

end Held

section Waiting
variable [GraphText] (hash : String → Int) (s : EntitySystem)

/-- The transaction waits for the advisory lock with the number. -/
def EntitySystem.wants (i : Nat) (number : Int) : Prop :=
  ∃ txn lock rest, s.txns[i]? = some txn ∧ txn.phase = .locking (lock :: rest) ∧
    hash lock.text = number

def EntitySystem.holds (i : Nat) (number : Int) : Prop :=
  ∃ txn lock, s.txns[i]? = some txn ∧ lock ∈ txn.held ∧ hash lock.text = number

/-- One transaction waits for a lock that another one holds. -/
def EntitySystem.waitsFor : Nat → Nat → Prop := LockOrder.WaitsFor (s.wants hash) (s.holds hash)

/-- Different locks of the transactions have different numbers. -/
def DistinctNumbers : Prop :=
  ∀ one ∈ s.txns, ∀ two ∈ s.txns, ∀ a ∈ one.locks, ∀ b ∈ two.locks,
    hash a.text = hash b.text → a = b

variable {hash} {s}

theorem waits_acyclic (laws : LowerLaws) (inv : LockInv hash s) (numbers : DistinctNumbers hash s)
    (normal : ∀ txn ∈ s.txns, ∀ m ∈ txn.mentions, m.Normalized) (i : Nat) :
    ¬Relation.TransGen (s.waitsFor hash) i i := by
  intro cycle
  let wants (i : Nat) (lock : LockName) : Prop :=
    ∃ txn rest, s.txns[i]? = some txn ∧ txn.phase = .locking (lock :: rest)
  let holds (i : Nat) (lock : LockName) : Prop := ∃ txn, s.txns[i]? = some txn ∧ lock ∈ txn.held
  have ordered (i : Nat) (wanted held : LockName) (wanting : wants i wanted) (holding : holds i held) :
      held.rank < wanted.rank := by
    obtain ⟨txn, rest, found, phase⟩ := wanting
    obtain ⟨same, found', inside⟩ := holding
    cases Option.some.inj (found.symm.trans found')
    have active := (inv.each i txn found).active (by rw [phase]; rfl)
    have climb := locks_climb laws (normal txn (List.mem_of_getElem? found))
    rw [← active, phase] at climb
    exact (List.pairwise_append.mp climb).2.2 held inside wanted List.mem_cons_self
  have named (i j : Nat) (waits : s.waitsFor hash i j) : LockOrder.WaitsFor wants holds i j := by
    obtain ⟨ne, number, ⟨txn, lock, rest, found, phase, wanted⟩, other, held, there, inside, same⟩ :=
      waits
    have first := (inv.each i txn found).active (by rw [phase]; rfl)
    have mine : lock ∈ txn.locks := by
      rw [← first, phase]
      exact List.mem_append_right _ List.mem_cons_self
    have open_txn : other.phase.active = true := by
      by_contra ended
      rw [(inv.each j other there).closed (by simpa using ended)] at inside
      cases inside
    have theirs : held ∈ other.locks := by
      rw [← (inv.each j other there).active open_txn]
      exact List.mem_append_left _ inside
    have one := numbers txn (List.mem_of_getElem? found) other (List.mem_of_getElem? there) lock mine
      held theirs (wanted.trans same.symm)
    exact ⟨ne, lock, ⟨txn, rest, found, phase⟩, other, there, one ▸ inside⟩
  exact LockOrder.acyclic ordered i (Relation.TransGen.mono named i i cycle)

end Waiting

end RagProject.Graph
