import Mathlib.Data.Prod.Lex
import Mathlib.Data.String.Basic
import RagProject.Graph.Aliases
import RagProject.Lib.Interleaving
import RagProject.Lib.LockOrder

/-! persist_extraction_result as the transactions of concurrent builds: advisory locks first, one
after the other, then the statements on entities, mentions and relations, and at the end the
commit, which publishes the rows and lets the locks go. -/
namespace RagProject.Graph
open Python Jobs Documents Interleaving

section Locks

inductive LockName where
  | documentVersion (documentVersionId : Nat)
  | entityKey (canonicalName entityType : String)
  deriving DecidableEq, Repr

def LockName.text : LockName → String
  | .documentVersion documentVersionId =>
    "graph_index_document_version:" ++ toString documentVersionId
  | .entityKey canonicalName entityType =>
    "graph_entity_key:" ++ canonicalName ++ ":" ++ entityType

/-- sorted(keys): pairs of texts in lexicographic order. -/
def sortedKeys (keys : List EntityKey) : List EntityKey :=
  keys.insertionSort fun a b => a.1 < b.1 ∨ (a.1 = b.1 ∧ a.2 ≤ b.2)

end Locks

section Transactions

/-- Why a transaction is rolled back: the unique index of the entities, or something else. -/
inductive PersistError where
  | uniqueIndex
  | raised (error : GraphError)
  deriving DecidableEq, Repr

/-- Where a transaction stands: `session` holds the entity rows that it has loaded or created. -/
inductive PersistPhase where
  | locking (waiting : List LockName)
  | upserting (writes : List EntityWrite) (session : List GraphEntity) (entityMap : EntityMap)
  | committing (session : List GraphEntity) (mentions : List GraphEntityMention)
      (relations : List GraphRelation)
  | committed
  | rolledBack (error : PersistError)
  deriving DecidableEq, Repr

structure PersistTxn where
  documentVersionId : Nat
  allowedChunkIds : List Nat
  mentions : List EntityMentionCandidate
  relations : List RelationCandidate
  held : List LockName
  loaded : List GraphEntity
  phase : PersistPhase
  deriving DecidableEq, Repr

structure EntitySystem where
  db : GraphDb
  txns : List PersistTxn

inductive TxnAction where
  | acquire (txn : Nat)
  | list (txn : Nat)
  | upsert (txn : Nat) (now : Time)
  | writeRows (txn : Nat)
  | commit (txn : Nat)
  | rollback (txn : Nat) (error : GraphError)
  deriving DecidableEq, Repr

def PersistPhase.session : PersistPhase → List GraphEntity
  | .upserting _ session _ | .committing session _ _ => session
  | _ => []

def PersistPhase.active : PersistPhase → Bool
  | .committed | .rolledBack _ => false
  | _ => true

/-- The rows that the transaction has created or changed. -/
def PersistTxn.dirty (txn : PersistTxn) : List GraphEntity :=
  txn.phase.session.filter fun e => !txn.loaded.contains e

def PersistTxn.close (txn : PersistTxn) (phase : PersistPhase) : PersistTxn :=
  { txn with held := [], phase := phase }

variable [GraphText]

def PersistTxn.keys (txn : PersistTxn) : List EntityKey := (entityWrites txn.mentions).map (·.key)

/-- The locks of a transaction in the order in which it takes them. -/
def PersistTxn.locks (txn : PersistTxn) : List LockName :=
  .documentVersion txn.documentVersionId :: (sortedKeys txn.keys).map fun key =>
    .entityKey (lowerText (stripText key.1)) (stripText key.2)

/-- A row is inserted while no row of another transaction or of the table has its index. -/
def insertEntity (others : List GraphEntity) (canonicalName entityType : String)
    (aliases : List String) (now : Time) (session : GraphDb) :
    Except PersistError (GraphDb × Nat) :=
  match createEntity canonicalName entityType aliases now session with
  | .error .other => .error .uniqueIndex
  | .error error => .error (.raised error)
  | .ok (next, id) =>
    if others.any fun e => next.entities.any fun row =>
        row.graphEntityId == id && entityIndex row == entityIndex e then .error .uniqueIndex
    else .ok (next, id)

/-- One turn of the loop of _upsert_entities on the rows of the session. -/
def upsertRow (others : List GraphEntity) (now : Time) (state : GraphDb × EntityMap)
    (write : EntityWrite) : Except PersistError (GraphDb × EntityMap) :=
  match state.2.lookup write.key with
  | none =>
    match insertEntity others write.canonicalName write.entityType write.aliases now state.1 with
    | .ok (db, id) => .ok (db, (write.key, id) :: state.2)
    | .error error => .error error
  | some id =>
    match mergeEntityAliases id write.aliases now state.1 with
    | .ok db => .ok (db, state.2)
    | .error error => .error (.raised error)

/-- The mentions and the relations of the transaction, written after those of its version are
deleted. -/
def writeVersionRows (txn : PersistTxn) (entityMap : EntityMap) (db : GraphDb) :
    Except GraphError GraphDb := do
  let db := deleteIndexArtifactsForDocumentVersion db txn.documentVersionId
  let (db, _) ← persistMentions txn.mentions entityMap txn.documentVersionId txn.allowedChunkIds db
  let (db, _) ← persistRelations txn.relations entityMap txn.allowedChunkIds db
  return db

end Transactions

namespace EntitySystem

def setTxn (s : EntitySystem) (i : Nat) (txn : PersistTxn) : EntitySystem :=
  { s with txns := s.txns.set i txn }

/-- The other transactions, with their places. -/
def otherTxns (s : EntitySystem) (i : Nat) : List PersistTxn :=
  (s.txns.zipIdx.filter fun entry => entry.2 != i).map Prod.fst

/-- Rows that the index sees beside those of the session. -/
def otherRows (s : EntitySystem) (i : Nat) (session : List GraphEntity) : List GraphEntity :=
  (s.db.entities.filter fun e => !session.any (·.graphEntityId == e.graphEntityId)) ++
    (s.otherTxns i).flatMap (·.dirty)

/-- A commit publishes what the session has written, and the rows of the version. -/
def publish (s : EntitySystem) (txn : PersistTxn) (mentions : List GraphEntityMention)
    (relations : List GraphRelation) : GraphDb :=
  let kept := deleteIndexArtifactsForDocumentVersion s.db txn.documentVersionId
  { kept with
    entities := Table.mergeRows GraphEntity.graphEntityId s.db.entities txn.dirty
    mentions := kept.mentions ++ mentions
    relations := kept.relations ++ relations }

variable (hash : String → Int)

/-- pg_advisory_xact_lock: the number of the lock is held by no other transaction. -/
def lockFree (s : EntitySystem) (i : Nat) (lock : LockName) : Bool :=
  (s.otherTxns i).all fun txn => txn.held.all fun held => hash held.text != hash lock.text

variable [GraphText]

def step (s : EntitySystem) : TxnAction → Option EntitySystem
  | .acquire i =>
    match s.txns[i]? with
    | some txn =>
      match txn.phase with
      | .locking (lock :: rest) =>
        if s.lockFree hash i lock then
          some (s.setTxn i { txn with held := txn.held ++ [lock], phase := .locking rest })
        else none
      | _ => none
    | none => none
  | .list i =>
    match s.txns[i]? with
    | some txn =>
      match txn.phase with
      | .locking [] =>
        let entityMap := listEntitiesByKeys txn.keys s.db.entities
        let loaded := s.db.entities.filter fun e =>
          entityMap.any fun entry => entry.2 == e.graphEntityId
        some (s.setTxn i { txn with
          loaded := loaded, phase := .upserting (entityWrites txn.mentions) loaded entityMap })
      | _ => none
    | none => none
  | .upsert i now =>
    match s.txns[i]? with
    | some txn =>
      match txn.phase with
      | .upserting (write :: rest) session entityMap =>
        match upsertRow (s.otherRows i session) now ({ s.db with entities := session }, entityMap)
            write with
        | .ok (db, entityMap) =>
          let s := { s with db := { s.db with nextEntityId := db.nextEntityId } }
          some (s.setTxn i { txn with phase := .upserting rest db.entities entityMap })
        | .error error => some (s.setTxn i (txn.close (.rolledBack error)))
      | _ => none
    | none => none
  | .writeRows i =>
    match s.txns[i]? with
    | some txn =>
      match txn.phase with
      | .upserting [] session entityMap =>
        match writeVersionRows txn entityMap { s.db with entities := session } with
        | .ok db =>
          let s := { s with db := { s.db with
            nextMentionId := db.nextMentionId, nextRelationId := db.nextRelationId } }
          some (s.setTxn i { txn with
            phase := .committing session (db.mentionsOf txn.documentVersionId)
              (db.relationsOf txn.documentVersionId) })
        | .error error => some (s.setTxn i (txn.close (.rolledBack (.raised error))))
      | _ => none
    | none => none
  | .commit i =>
    match s.txns[i]? with
    | some txn =>
      match txn.phase with
      | .committing _ mentions relations =>
        some ({ s with db := s.publish txn mentions relations }.setTxn i (txn.close .committed))
      | _ => none
    | none => none
  | .rollback i error =>
    match s.txns[i]? with
    | some txn =>
      if txn.phase.active then some (s.setTxn i (txn.close (.rolledBack (.raised error)))) else none
    | none => none

end EntitySystem

section Alone
variable [GraphText]

/-- With no other rows in sight, a turn is the one of a transaction that runs alone. -/
theorem upsertRow_alone (now : Time) (state : GraphDb × EntityMap) (write : EntityWrite) :
    (upsertRow [] now state write).toOption = (upsertEntity now state write).toOption := by
  unfold upsertRow upsertEntity insertEntity
  cases state.2.lookup write.key with
  | none =>
    simp only
    cases createEntity write.canonicalName write.entityType write.aliases now state.1 with
    | error error => cases error <;> rfl
    | ok result => rfl
  | some id =>
    simp only
    cases mergeEntityAliases id write.aliases now state.1 <;> rfl

end Alone

end RagProject.Graph
