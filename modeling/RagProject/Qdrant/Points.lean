import RagProject.Lib.Python

/-! The vector store as the backend sees it (ingest/qdrant.py): points with a payload, in
the order of their ids. Each function is one call of the HTTP client. -/
namespace RagProject.Qdrant
open Python

inductive PointId where
  | num (n : Nat)
  | uuid (text : String)
  deriving DecidableEq, Repr

/-- The order of a collection: numbers before UUIDs. -/
def PointId.before : PointId → PointId → Bool
  | .num a, .num b => a < b
  | .num _, .uuid _ => true
  | .uuid _, .num _ => false
  | .uuid a, .uuid b => a < b

structure Point where
  pointId : PointId
  payload : Dict
  deriving DecidableEq, Repr

abbrev Collection := List Point

/-- dict.update. -/
def update (payload fields : Dict) : Dict :=
  fields.foldl (fun d field => Dict.set d field.1 field.2) payload

/-- The filter of the calls that address a version. -/
def Point.carries (documentVersionId : Nat) (p : Point) : Bool :=
  Dict.get p.payload "document_version_id" == some (.int documentVersionId)

def setPayloadWhere (hit : Point → Bool) (fields : Dict) (points : Collection) : Collection :=
  points.map fun p => if hit p then { p with payload := update p.payload fields } else p

def setPayloadByDocumentVersion (documentVersionId : Nat) (fields : Dict) :
    Collection → Collection :=
  setPayloadWhere (·.carries documentVersionId) fields

def setPayloadByPointIds (pointIds : List Nat) (fields : Dict) : Collection → Collection :=
  setPayloadWhere (fun p => pointIds.any (p.pointId == .num ·)) fields

def deletePoints (pointIds : List Nat) (points : Collection) : Collection :=
  points.filter fun p => !pointIds.any (p.pointId == .num ·)

def deleteByDocumentVersion (documentVersionId : Nat) (points : Collection) : Collection :=
  points.filter fun p => !p.carries documentVersionId

/-- cleanup of the vector store: without ids it takes every point of the version. -/
def cleanup (documentVersionId : Nat) (pointIds : List Nat) (points : Collection) : Collection :=
  if pointIds.isEmpty then deleteByDocumentVersion documentVersionId points
  else deletePoints pointIds points

def upsertPoint (points : Collection) (p : Point) : Collection :=
  (points.takeWhile (·.pointId.before p.pointId)) ++
    p :: (points.dropWhile (·.pointId.before p.pointId)).filter (·.pointId != p.pointId)

def upsertPoints (new points : Collection) : Collection := new.foldl upsertPoint points

/-- The fields that sync_document_payload writes. -/
def syncFields (logicalDocumentStatus documentVersionStatus : String) (isActive : Bool) : Dict :=
  [("logical_document_status", .str logicalDocumentStatus),
   ("document_version_status", .str documentVersionStatus), ("is_active", .bool isActive)]

theorem get_update_other {fields : Dict} {key : String} (other : ∀ field ∈ fields, key ≠ field.1)
    (payload : Dict) : Dict.get (update payload fields) key = Dict.get payload key := by
  induction fields generalizing payload with
  | nil => rfl
  | cons field fields ih =>
    have rest := ih (fun f h => other f (List.mem_cons_of_mem _ h))
      (Dict.set payload field.1 field.2)
    exact rest.trans (get_set_ne payload field.2 (other field List.mem_cons_self))

/-- Every field of an update is there afterwards. -/
theorem get_update {fields : Dict} (distinct : (fields.map Prod.fst).Nodup) (payload : Dict) :
    ∀ field ∈ fields, Dict.get (update payload fields) field.1 = some field.2 := by
  induction fields generalizing payload with
  | nil =>
    intro field member
    cases member
  | cons first fields ih =>
    obtain ⟨fresh, rest⟩ := List.nodup_cons.mp distinct
    intro field member
    rcases List.mem_cons.mp member with rfl | later
    · have untouched : ∀ f ∈ fields, field.1 ≠ f.1 := by
        intro f hf same
        exact fresh (same ▸ List.mem_map_of_mem hf)
      exact (get_update_other untouched (Dict.set payload field.1 field.2)).trans
        (get_set_self payload field.1 field.2)
    · exact ih rest (Dict.set payload first.1 first.2) field later

end RagProject.Qdrant
