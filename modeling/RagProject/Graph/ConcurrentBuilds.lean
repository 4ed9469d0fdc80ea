import RagProject.Graph.EntityUniqueness
import RagProject.Graph.Replacement

/-! Concurrent builds over whole runs: no deadlock on the advisory locks, unique entities, and the
aliases of every committed build. -/
namespace RagProject.Graph
open Python Jobs Interleaving

section Theorem
variable [GraphText]

/-- Builds that have not begun, over a table that such builds have left. -/
structure PersistStart (hash : String → Int) (s : EntitySystem) : Prop where
  laws : LowerLaws
  table : EntityTable s.db
  begins : ∀ txn ∈ s.txns, txn.phase = .locking txn.locks ∧ txn.held = []
  normal : ∀ txn ∈ s.txns, ∀ m ∈ txn.mentions, m.Normalized
  numbers : DistinctNumbers hash s

/-- lower() of the database is str.lower on the names of the mentions. -/
def LowersAlike (s : EntitySystem) : Prop :=
  ∀ txn ∈ s.txns, ∀ m ∈ txn.mentions, GraphText.dbLower m.canonicalName = lowerText m.canonicalName

variable {hash : String → Int} {s : EntitySystem}

theorem PersistStart.inv (start : PersistStart hash s) (alike : LowersAlike s) :
    PersistInv hash s := by
  have begins {i : Nat} {txn : PersistTxn} (found : s.txns[i]? = some txn) :=
    start.begins txn (List.mem_of_getElem? found)
  refine ⟨start.table, ⟨fun i txn found => ?_, fun i j txn other _ found _ a member => ?_⟩,
    fun txn member m mention => ⟨start.normal txn member m mention, alike txn member m mention⟩,
    fun i txn found => ?_, fun i j txn other _ found _ e member => ?_⟩
  · obtain ⟨phase, held⟩ := begins found
    refine ⟨fun _ => ?_, fun closed => ?_⟩
    · rw [held, phase]
      rfl
    · rw [phase] at closed
      cases closed
  · rw [(begins found).2] at member
    cases member
  · rw [(begins found).1]
    trivial
  · rw [(begins found).1] at member
    cases member

theorem numbers_step {i : Nat} {txn txn' : PersistTxn} {db : GraphDb}
    (numbers : DistinctNumbers hash s) (found : s.txns[i]? = some txn)
    (step : TxnStep hash s i txn db txn') : DistinctNumbers hash ⟨db, s.txns.set i txn'⟩ := by
  have old {one : PersistTxn} (member : one ∈ s.txns.set i txn') :
      ∃ was ∈ s.txns, was.locks = one.locks := by
    rcases List.mem_or_eq_of_mem_set member with there | rfl
    · exact ⟨one, there, rfl⟩
    · exact ⟨txn, List.mem_of_getElem? found, step.sameTask.locks.symm⟩
  intro one first two second a mine b theirs
  obtain ⟨was, there, locks⟩ := old first
  obtain ⟨was', there', locks'⟩ := old second
  exact numbers was there was' there' a (locks ▸ mine) b (locks' ▸ theirs)

end Theorem

section Examples

/-- A text as a number. -/
def textNumber (text : String) : Int :=
  text.toList.foldl (fun number c => number * 1114112 + c.toNat) 1

theorem asciiLower_laws : @LowerLaws asciiTables := by
  refine @LowerLaws.mk asciiTables (fun c far => ?_) fun c _ graphic => ?_
  · change @lower asciiTables [c] = [c]
    simp only [lower, List.flatMap_singleton, if_neg (Nat.not_lt.mpr far)]
    rfl
  · change [c] ≠ [] ∧ ∀ d ∈ [c], isSpace d = false
    simp [graphic]

def buildOf [GraphText] (documentVersionId chunk : Nat) (names : List (String × List String)) :
    PersistTxn :=
  let mentions := names.map fun name => (⟨name.1, "technology", name.2, chunk, documentVersionId,
    textHash, 0, 6, 1⟩ : EntityMentionCandidate)
  let txn : PersistTxn :=
    { documentVersionId := documentVersionId, allowedChunkIds := [chunk], mentions := mentions
      relations := [], held := [], loaded := [], phase := .committed }
  { txn with phase := .locking txn.locks }

/-- Two versions with a chunk each, and an entity. -/
def twoBuildTables : GraphDb :=
  { graphStart.db with
    docs := { graphStart.db.docs with
      chunks := graphStart.db.docs.chunks ++
        [⟨2, 2, 0, "", "text", none, none, none, none, none, none, "text", 0⟩] }
    entities := [⟨1, "Qdrant", "technology", ["vector store"], 0⟩]
    nextEntityId := 2 }

def twoBuilds [GraphText] : EntitySystem where
  db := twoBuildTables
  txns := [buildOf 1 1 [("Qdrant", ["vector db"]), ("Neo4j", [])],
    buildOf 2 2 [("Neo4j", ["graph store"]), ("qdrant", ["VECTOR DB", "qd"])]]

/-- The second build waits for the first one in between. -/
def interleavedBuilds : List TxnAction :=
  [.acquire 0, .acquire 1, .acquire 0, .acquire 0, .list 0, .upsert 0 1, .upsert 0 2, .writeRows 0,
   .commit 0, .acquire 1, .acquire 1, .list 1, .upsert 1 3, .upsert 1 4, .writeRows 1, .commit 1]

theorem twoBuilds_start :
    let _ : GraphText := asciiGraphText
    PersistStart textNumber twoBuilds := by
  intro _
  have normal : ∀ txn ∈ twoBuilds.txns, ∀ m ∈ txn.mentions,
      validateSafeGraphLabel 255 m.canonicalName = .ok m.canonicalName ∧
      validateSafeGraphLabel 80 m.entityType = .ok m.entityType ∧
      (∀ a ∈ m.aliases, validateSafeGraphLabel 120 a = .ok a) ∧
      ∀ a ∈ m.aliases, lowerText a ≠ lowerText m.canonicalName := by
    decide +kernel
  refine ⟨asciiLower_laws, ⟨⟨by decide +kernel, by decide +kernel⟩, ?_, by decide +kernel⟩,
    by decide +kernel, fun txn member m mention => ?_, by unfold DistinctNumbers; decide +kernel⟩
  · intro e member
    cases List.mem_singleton.mp member
    exact ⟨by decide +kernel, by decide +kernel, by decide +kernel,
      by decide +kernel, by decide +kernel, by decide +kernel, by decide +kernel⟩
  · obtain ⟨name, type, aliases, other⟩ := normal txn member m mention
    exact ⟨name, type, aliases, other⟩

/-- A name outside ASCII: str.lower makes two characters of the dotted capital, the database one. -/
@[reducible] def dottedText : GraphText where
  alnum _ := false
  lower c := if c = 'İ' then ['i', '\u0307'] else [c]
  dbLower name := String.ofList (name.toList.map fun c => if c = 'İ' then 'i' else c.toLower)
  containsUnsafe _ := false

theorem dottedLower_laws : @LowerLaws dottedText.toUnicodeTables := by
  refine @LowerLaws.mk dottedText.toUnicodeTables (fun c far => ?_) fun c _ graphic => ?_
  · change @lower dottedText.toUnicodeTables (if c = 'İ' then ['i', '\u0307'] else [c]) =
      if c = 'İ' then ['i', '\u0307'] else [c]
    split
    · decide
    · rename_i other
      simp only [lower, List.flatMap_singleton, if_neg (Nat.not_lt.mpr far)]
      exact if_neg other
  · change (if c = 'İ' then ['i', '\u0307'] else [c]) ≠ [] ∧
      ∀ d ∈ (if c = 'İ' then ['i', '\u0307'] else [c]), isSpace d = false
    split
    · decide
    · simp [graphic]

/-- The same version twice, with one entity. -/
def dottedBuilds [GraphText] : EntitySystem where
  db := graphStart.db
  txns := [buildOf 1 1 [("İstanbul API", [])], buildOf 1 1 [("İstanbul API", [])]]

def successiveBuilds : List TxnAction :=
  [.acquire 0, .acquire 0, .list 0, .upsert 0 1, .writeRows 0, .commit 0,
   .acquire 1, .acquire 1, .list 1, .upsert 1 2]

end Examples

end RagProject.Graph
