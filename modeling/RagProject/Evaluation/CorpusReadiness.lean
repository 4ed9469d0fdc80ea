import RagProject.Context.Evidence
import RagProject.Documents.CompareText
import RagProject.Evaluation.RunComparison
import RagProject.Lib.Interleaving

/-! EvaluationCorpusService (services/evaluation_corpus_service.py) on one isolated dataset: what a
readiness call reads, its retrieval preflight, and the columns of the dataset by which later calls do
without one. -/
namespace RagProject.Evaluation
open Python Jobs Documents Context

section Rows

inductive CorpusStatus where
  | notPrepared | preparing | ready | failed
  deriving DecidableEq, Repr

inductive SourceStatus where
  | pending | preparing | ready | failed
  deriving DecidableEq, Repr

/-- A row of evaluation_corpus_sources. -/
structure CorpusSource where
  sourceKey : String
  facts : List Dict
  logicalDocumentId : Option Nat
  documentVersionId : Option Nat
  ingestJobId : Option Nat
  status : SourceStatus
  failureCode : Option String
  preparedAt : Option Time
  updatedAt : Time
  deriving DecidableEq, Repr

structure CorpusCase where
  question : String
  active : Bool
  metadataJson : Option Dict
  expectedDocumentIds : Option (List Nat)
  updatedAt : Time
  deriving DecidableEq, Repr

structure CorpusDataset where
  evaluationDatasetId : Nat
  corpusStatus : CorpusStatus
  corpusFailureCode : Option String
  corpusPreparedAt : Option Time
  readinessCheckedAt : Option Time
  deriving DecidableEq, Repr

/-- The rows of one isolated dataset, its sources and cases in the order of their ids. -/
structure CorpusTables where
  db : Db
  dataset : CorpusDataset
  sources : List CorpusSource
  cases : List CorpusCase

def countChunksForVersion (documentVersionId : Option Nat) (db : Db) : Nat :=
  match documentVersionId with
  | none => 0
  | some id =>
    if (db.getVersionById id).any fun v => v.status == .ready && v.isActive then db.countChunks id
    else 0

end Rows

section Texts

/-- str() of a value of a JSON column. -/
class ValueTexts where
  text : Value → String

variable [ValueTexts]

/-- str(entries.get(key) or default). -/
def textOr (entries : Dict) (key default : String) : String :=
  match Dict.get entries key with
  | some value => if value.truthy then ValueTexts.text value else default
  | none => default

def statementOf (fact : Dict) : String := textOr fact "statement" ""

def CorpusCase.answerable (case : CorpusCase) : Bool :=
  case.metadataJson.bind (Dict.get · "answerable") == some (.bool true)

/-- The source keys of the expected evidence. -/
def evidenceKeys (metadata : Dict) : List String :=
  match Dict.get metadata "expected_evidence" with
  | some (.list rows) =>
    (rows.filterMap fun row =>
      match row with
      | .dict entries =>
        (Dict.get entries "source_key").bind fun value =>
          if value.truthy then some (ValueTexts.text value) else none
      | _ => none).dedup
  | _ => []

variable [CaseFold]

def normalizedContains (haystack needle : String) : Bool :=
  let normalizedNeedle := normalizeText needle
  normalizedNeedle != "" && contains (normalizeText haystack).toList normalizedNeedle.toList

end Texts

section Preflight

/-- The document ids of the items that a search returned, or an error. -/
abbrev Probe := String → List Nat → Nat → String → Option (List (Option Nat))

def validatedRetrievedDocumentIds (items : List (Option Nat)) (allowedIds : List Nat) :
    Option (List Nat) :=
  let returned := items.filterMap id
  if items.any Option.isNone || !returned.all (· ∈ allowedIds) then none else some returned

def preflightRequestId (evaluationDatasetId : Nat) (kind key : String) : String :=
  let digest := String.ofList ((Sha256.hexDigest key).toList.take 16)
  s!"evaluation-preflight-{evaluationDatasetId}-{kind}-{digest}"

structure PreflightResult where
  factRetrieved : Nat
  answerableRetrieved : Nat
  probeFailed : Bool
  deriving DecidableEq, Repr

variable [ValueTexts] (evaluationDatasetId : Nat) (probe : Probe)
  (sourceDocumentIds : List (String × Nat))

def allowedIdsOf : List Nat := (sourceDocumentIds.map Prod.snd).dedup.insertionSort (· ≤ ·)

/-- One call of the probe with the documents of the dataset. -/
def askProbe (query kind key : String) : Option (List (Option Nat)) :=
  let allowedIds := allowedIdsOf sourceDocumentIds
  probe query allowedIds (min 50 (max 10 allowedIds.length))
    (preflightRequestId evaluationDatasetId kind key)

def probeFact (source : CorpusSource) (fact : Dict) : Option (List (Option Nat)) :=
  askProbe evaluationDatasetId probe sourceDocumentIds (statementOf fact) "fact"
    (textOr fact "fact_id" source.sourceKey)

def probeCase (question : String) : Option (List (Option Nat)) :=
  askProbe evaluationDatasetId probe sourceDocumentIds question "case" question

/-- The ids that the items name, when all of them are allowed. -/
def returnedIds (items : Option (List (Option Nat))) : Option (List Nat) :=
  items.bind (validatedRetrievedDocumentIds · (allowedIdsOf sourceDocumentIds))

/-- The facts of a source are searched when the source has a document. -/
def factRetrieved (source : CorpusSource) (fact : Dict) : Bool :=
  match List.lookup source.sourceKey sourceDocumentIds with
  | none => false
  | some expectedDocumentId =>
    statementOf fact != "" &&
      (returnedIds sourceDocumentIds
        (probeFact evaluationDatasetId probe sourceDocumentIds source fact)).any
        (expectedDocumentId ∈ ·)

def factRaised (source : CorpusSource) (fact : Dict) : Bool :=
  (List.lookup source.sourceKey sourceDocumentIds).isSome && statementOf fact != "" &&
    (probeFact evaluationDatasetId probe sourceDocumentIds source fact).isNone

/-- A question without expected documents is not asked. -/
def caseRetrieved (expectation : String × List Nat) : Bool :=
  expectation.2 != [] &&
    (returnedIds sourceDocumentIds
      (probeCase evaluationDatasetId probe sourceDocumentIds expectation.1)).any fun returned =>
        expectation.2.all (· ∈ returned)

def caseRaised (expectation : String × List Nat) : Bool :=
  expectation.2 != [] && (probeCase evaluationDatasetId probe sourceDocumentIds expectation.1).isNone

/-- _run_retrieval_preflight. -/
def runRetrievalPreflight (sources : List CorpusSource)
    (answerableExpectations : List (String × List Nat)) : PreflightResult :=
  if (allowedIdsOf sourceDocumentIds).isEmpty then ⟨0, 0, true⟩
  else
    { factRetrieved := sources.foldl (fun n source => n + source.facts.countP
        (factRetrieved evaluationDatasetId probe sourceDocumentIds source)) 0
      answerableRetrieved := answerableExpectations.countP
        (caseRetrieved evaluationDatasetId probe sourceDocumentIds)
      probeFailed := (sources.any fun source => source.facts.any
          (factRaised evaluationDatasetId probe sourceDocumentIds source)) ||
        answerableExpectations.any (caseRaised evaluationDatasetId probe sourceDocumentIds) }

end Preflight

section Readiness
variable [ValueTexts] [CaseFold]

/-- The status of a source, with its failure code. -/
def sourceStatus (db : Db) (source : CorpusSource) : SourceStatus × Option String :=
  let version := source.documentVersionId.bind db.getVersionById
  let job := source.ingestJobId.bind (getJob db.jobs)
  if version.any fun v => v.status == .ready && v.isActive then
    (if 0 < countChunksForVersion source.documentVersionId db then .ready else .preparing, none)
  else if version.any (·.status == .failed) || job.any (·.status == .failed) then
    let code := match (version.bind (·.errorCode)).filter (· != "") with
      | some errorCode => some errorCode
      | none => job.bind (·.errorCode)
    (.failed, some ((code.filter (· != "")).getD "corpus_ingest_failed"))
  else if source.logicalDocumentId.isSome then (.preparing, none)
  else (if source.failureCode.any (· != "") then .failed else .pending, source.failureCode)

/-- The texts of the chunks of a version, in their order. -/
def indexedText (db : Db) (source : CorpusSource) : String :=
  String.ofList (join [' '] ((source.documentVersionId.elim [] fun id =>
    listAllChunks id db).map (·.contentText.toList)))

/-- What the loop over the sources has counted. -/
structure SourceTally where
  readyCount : Nat
  failedCount : Nat
  factCount : Nat
  presentCount : Nat
  indexCount : Nat
  failures : List String
  sourceDocumentIds : List (String × Nat)
  deriving DecidableEq, Repr

/-- Assignment to a key. -/
def assignId (ids : List (String × Nat)) (key : String) (id : Nat) : List (String × Nat) :=
  if ids.any (·.1 == key) then ids.map fun e => if e.1 == key then (key, id) else e
  else ids ++ [(key, id)]

def tallySource (db : Db) (tally : SourceTally) (source : CorpusSource) : SourceTally :=
  let tally := { tally with factCount := tally.factCount + source.facts.length }
  match sourceStatus db source with
  | (.ready, _) =>
    { tally with
      readyCount := tally.readyCount + 1
      indexCount := tally.indexCount + countChunksForVersion source.documentVersionId db
      sourceDocumentIds := source.logicalDocumentId.elim tally.sourceDocumentIds
        (assignId tally.sourceDocumentIds source.sourceKey)
      presentCount := tally.presentCount + source.facts.countP fun fact =>
        normalizedContains (indexedText db source) (statementOf fact) }
  | (.failed, failureCode) =>
    { tally with
      failedCount := tally.failedCount + 1
      failures := tally.failures ++
        [(failureCode.filter (· != "")).getD "corpus_ingest_failed"] }
  | _ => tally

def tallySources (t : CorpusTables) : SourceTally :=
  t.sources.foldl (tallySource t.db) ⟨0, 0, 0, 0, 0, [], []⟩

/-- What a readiness call writes to a source. -/
def refreshSource (now : Time) (db : Db) (source : CorpusSource) : CorpusSource :=
  let (status, failureCode) := sourceStatus db source
  { source with
    status := status
    failureCode := failureCode
    updatedAt := now
    preparedAt := if status = .ready then some (source.preparedAt.getD now) else source.preparedAt }

def expectedIdsOf (sourceDocumentIds : List (String × Nat)) (case : CorpusCase) : List Nat :=
  ((evidenceKeys (case.metadataJson.getD [])).filterMap (List.lookup · sourceDocumentIds)).insertionSort
    (· ≤ ·)

def refreshCase (now : Time) (sourceDocumentIds : List (String × Nat)) (case : CorpusCase) :
    CorpusCase :=
  let expectedIds := expectedIdsOf sourceDocumentIds case
  if case.active && case.answerable && expectedIds != case.expectedDocumentIds.getD [] then
    { case with expectedDocumentIds := some expectedIds, updatedAt := now }
  else case

/-- Five minutes. -/
def readinessCacheTtl : Time := 300000000

/-- The last call of a ready dataset stands in for a preflight. -/
def readinessIsFresh (now : Time) (dataset : CorpusDataset) : Bool :=
  dataset.corpusStatus == .ready && dataset.corpusPreparedAt.isSome &&
    dataset.readinessCheckedAt.any fun checkedAt => decide (now - checkedAt ≤ readinessCacheTtl)

structure ReadinessResponse where
  corpusStatus : CorpusStatus
  ready : Bool
  runAllowed : Bool
  sourceCount : Nat
  readySourceCount : Nat
  failedSourceCount : Nat
  factCount : Nat
  presentFactCount : Nat
  indexCount : Nat
  isolatedFactRetrievalCount : Nat
  answerableCaseCount : Nat
  answerableRetrievalCount : Nat
  failureReasons : List String
  checkedAt : Time
  deriving DecidableEq, Repr

/-- The answerable cases with their expected documents. -/
def answerableExpectations (t : CorpusTables) : List (String × List Nat) :=
  (t.cases.filter fun case => case.active && case.answerable).map fun case =>
    (case.question, expectedIdsOf (tallySources t).sourceDocumentIds case)

/-- The preflight of a call, where it has one. -/
def preflightOf (probe : Probe) (t : CorpusTables) : PreflightResult :=
  runRetrievalPreflight t.dataset.evaluationDatasetId probe (tallySources t).sourceDocumentIds
    t.sources (answerableExpectations t)

/-- Every source is ready, with all its facts in the text of its chunks. -/
def sourcesIndexed (t : CorpusTables) : Bool :=
  let tally := tallySources t
  !t.sources.isEmpty && tally.readyCount == t.sources.length && tally.presentCount == tally.factCount

/-- The retrieved facts and cases: all of them when the last answer is fresh, else those of the
preflight. -/
def retrievedCounts (now : Time) (probe : Probe) (t : CorpusTables) : PreflightResult :=
  if sourcesIndexed t then
    if readinessIsFresh now t.dataset then
      ⟨(tallySources t).factCount, (answerableExpectations t).length, false⟩
    else preflightOf probe t
  else ⟨0, 0, false⟩

def readiness (now : Time) (probe : Probe) (t : CorpusTables) : CorpusTables × ReadinessResponse :=
  let tally := tallySources t
  let answerable := answerableExpectations t
  let retrieved := retrievedCounts now probe t
  let ready := sourcesIndexed t && retrieved.factRetrieved == tally.factCount &&
    retrieved.answerableRetrieved == answerable.length
  let corpusStatus :=
    if tally.failedCount ≠ 0 then .failed
    else if ready then .ready
    else if t.sources.any (·.logicalDocumentId.isSome) then .preparing
    else .notPrepared
  let failures := tally.failures ++
    (if tally.presentCount < tally.factCount then ["corpus_fact_missing"] else []) ++
    (if retrieved.factRetrieved < tally.factCount then ["corpus_fact_not_retrievable"] else []) ++
    (if retrieved.answerableRetrieved < answerable.length then
      ["corpus_required_fact_not_retrievable"] else []) ++
    (if retrieved.probeFailed then ["corpus_retrieval_probe_failed"] else [])
  let failureReasons := sortedUnion failures []
  ({ t with
      sources := t.sources.map (refreshSource now t.db)
      cases := t.cases.map (refreshCase now tally.sourceDocumentIds)
      dataset :=
        { t.dataset with
          corpusStatus := corpusStatus
          corpusFailureCode := failureReasons.head?
          readinessCheckedAt := some now
          corpusPreparedAt :=
            if ready then some (t.dataset.corpusPreparedAt.getD now) else t.dataset.corpusPreparedAt } },
   { corpusStatus := corpusStatus
     ready := ready
     runAllowed := ready
     sourceCount := t.sources.length
     readySourceCount := tally.readyCount
     failedSourceCount := tally.failedCount
     factCount := tally.factCount
     presentFactCount := tally.presentCount
     indexCount := tally.indexCount
     isolatedFactRetrievalCount := retrieved.factRetrieved
     answerableCaseCount := answerable.length
     answerableRetrievalCount := retrieved.answerableRetrieved
     failureReasons := failureReasons
     checkedAt := now })

end Readiness

section Runs

/-- A readiness call, with the rows that it read. -/
structure CorpusCheck where
  now : Time
  probe : Probe
  tables : CorpusTables

/-- What has happened to the dataset. -/
inductive CorpusEvent where
  | prepared
  | checked (check : CorpusCheck)

structure CorpusSystem where
  tables : CorpusTables
  /-- The newest event is the first. -/
  history : List CorpusEvent

/-- A preparation resets the dataset, then changes rows source by source and ends with a readiness
call. A change is one of its steps, or any other write: the columns of the dataset are not touched. -/
inductive CorpusAction where
  | prepare
  | change (db : Db) (sources : List CorpusSource) (cases : List CorpusCase)
  | readiness (now : Time) (probe : Probe)

variable [ValueTexts] [CaseFold]

def CorpusCheck.allowed (check : CorpusCheck) : Bool :=
  (readiness check.now check.probe check.tables).2.runAllowed

def corpusStep (s : CorpusSystem) : CorpusAction → Option CorpusSystem
  | .prepare =>
    if s.tables.sources.isEmpty then none
    else some
      { tables := { s.tables with
          dataset := { s.tables.dataset with corpusStatus := .preparing, corpusFailureCode := none } }
        history := .prepared :: s.history }
  | .change db sources cases =>
    some { s with tables := { s.tables with db := db, sources := sources, cases := cases } }
  | .readiness now probe =>
    some
      { tables := (readiness now probe s.tables).1
        history := .checked ⟨now, probe, s.tables⟩ :: s.history }

end Runs
end RagProject.Evaluation
