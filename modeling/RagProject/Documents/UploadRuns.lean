import RagProject.Documents.Upload

/-! Runs of concurrent uploads: the version numbers of a document, in every run, and the stored
files, in the runs in which no call leaves a doubt about its effect. -/
namespace RagProject.Documents
open Python Jobs Interleaving

section Numbers

def UploadWorld.documentIds (w : UploadWorld) : List Nat := w.documents.map (·.logicalDocumentId)

/-- The versions of every document are 1 to k, of distinct contents. -/
structure Numbered (w : UploadWorld) : Prop where
  numbers : ∀ d, (w.versionsOf d).map (·.versionNo) = List.range' 1 (w.versionsOf d).length
  hashes : ∀ d, ((w.versionsOf d).map (·.contentHash)).Nodup

structure WorldOk (w : UploadWorld) : Prop extends Numbered w where
  lockDistinct : (w.locks.map Prod.fst).Nodup
  lockBelow : ∀ l ∈ w.locks, l.1 < w.nextDocumentId
  documentBelow : ∀ d ∈ w.documentIds, d < w.nextDocumentId
  known : ∀ v ∈ w.versions, v.logicalDocumentId ∈ w.documentIds

/-- What a request has made sure of when it writes a version. -/
structure MayAdd (w : UploadWorld) (request : Nat) (contentHash : String)
    (document : Option LogicalDocument) (logicalDocumentId versionNo : Nat) : Prop where
  locked : (logicalDocumentId, request) ∈ w.locks
  next : versionNo = (w.versionsOf logicalDocumentId).length + 1
  fresh : ∀ v ∈ w.versionsOf logicalDocumentId, v.contentHash ≠ contentHash
  present : document = none → logicalDocumentId ∈ w.documentIds
  new : ∀ d, document = some d →
    d.logicalDocumentId = logicalDocumentId ∧ logicalDocumentId ∉ w.documentIds

def Adds (contentHash : String) (request : Nat) (w : UploadWorld) : UploadPhase → Prop
  | .locked d | .validated d => (d, request) ∈ w.locks ∧ d ∈ w.documentIds
  | .hashed d => (d, request) ∈ w.locks ∧ d ∈ w.documentIds ∧
    ∀ v ∈ w.versionsOf d, v.contentHash ≠ contentHash
  | .numbered document d versionNo => MayAdd w request contentHash document d versionNo
  | .written rows _ | .saved rows _ => rows.version.contentHash = contentHash ∧
    MayAdd w request contentHash rows.document rows.version.logicalDocumentId rows.version.versionNo
  | _ => True

/-- What a call of one request keeps for the documents that other requests have locked. -/
structure Apart (request : Nat) (w w' : UploadWorld) : Prop where
  locks : ∀ l ∈ w.locks, l.2 ≠ request → l ∈ w'.locks
  documents : ∀ l ∈ w.locks, l.2 ≠ request → (l.1 ∈ w'.documentIds ↔ l.1 ∈ w.documentIds)
  versions : ∀ l ∈ w.locks, l.2 ≠ request → w'.versionsOf l.1 = w.versionsOf l.1

variable {w w' : UploadWorld} {request other d : Nat} {contentHash : String}

theorem Apart.refl (request : Nat) (w : UploadWorld) : Apart request w w :=
  ⟨fun _ member _ => member, fun _ _ _ => .rfl, fun _ _ _ => rfl⟩

theorem MayAdd.apart {document : Option LogicalDocument} {versionNo : Nat}
    (mayAdd : MayAdd w other contentHash document d versionNo) (apart : Apart request w w')
    (different : other ≠ request) : MayAdd w' other contentHash document d versionNo := by
  have documents := apart.documents _ mayAdd.locked different
  have versions := apart.versions _ mayAdd.locked different
  exact {
    locked := apart.locks _ mayAdd.locked different
    next := versions ▸ mayAdd.next
    fresh := versions ▸ mayAdd.fresh
    present := fun none => documents.mpr (mayAdd.present none)
    new := fun new same => ⟨(mayAdd.new new same).1, fun there =>
      (mayAdd.new new same).2 (documents.mp there)⟩ }

/-- A call of another request does not take from a request what it has made sure of. -/
theorem Adds.apart {phase : UploadPhase} (adds : Adds contentHash other w phase)
    (apart : Apart request w w') (different : other ≠ request) :
    Adds contentHash other w' phase := by
  have kept {d : Nat} (mine : (d, other) ∈ w.locks ∧ d ∈ w.documentIds) :
      (d, other) ∈ w'.locks ∧ d ∈ w'.documentIds :=
    ⟨apart.locks _ mine.1 different, (apart.documents _ mine.1 different).mpr mine.2⟩
  cases phase with
  | locked d => exact kept adds
  | validated d => exact kept adds
  | hashed d =>
    obtain ⟨locked, present, fresh⟩ := adds
    have versions := apart.versions _ locked different
    exact ⟨(kept ⟨locked, present⟩).1, (kept ⟨locked, present⟩).2, versions ▸ fresh⟩
  | numbered document d versionNo => exact MayAdd.apart adds apart different
  | written rows rest => exact ⟨adds.1, adds.2.apart apart different⟩
  | saved rows rest => exact ⟨adds.1, adds.2.apart apart different⟩
  | _ => trivial

theorem lock_ok (ok : WorldOk w) (free : d ∉ w.locks.map Prod.fst) (below : d < w.nextDocumentId) :
    WorldOk (w.lock d request) ∧ Apart request w (w.lock d request) := by
  constructor
  · refine ⟨⟨ok.numbers, ok.hashes⟩, ?_, ?_, ok.documentBelow, ok.known⟩
    · apply Table.append_distinct ok.lockDistinct
      intro l there same
      have here : l.1 = d := same
      exact free (here ▸ List.mem_map_of_mem there)
    · intro l member
      rcases List.mem_append.mp member with old | last
      · exact ok.lockBelow l old
      · cases List.mem_singleton.mp last
        exact below
  · exact ⟨fun _ member _ => List.mem_append_left _ member, fun _ _ _ => .rfl, fun _ _ _ => rfl⟩

theorem allocate_ok (ok : WorldOk w) :
    WorldOk (w.allocate request) ∧ Apart request w (w.allocate request) := by
  have free : w.nextDocumentId ∉ w.locks.map Prod.fst := by
    intro there
    obtain ⟨l, member, same⟩ := List.mem_map.mp there
    exact absurd (ok.lockBelow l member) (by omega)
  have widened : WorldOk { w with nextDocumentId := w.nextDocumentId + 1 } :=
    ⟨⟨ok.numbers, ok.hashes⟩, ok.lockDistinct, fun l member => Nat.lt_succ_of_lt (ok.lockBelow l member),
      fun d member => Nat.lt_succ_of_lt (ok.documentBelow d member), ok.known⟩
  obtain ⟨locked, apart⟩ := @lock_ok { w with nextDocumentId := w.nextDocumentId + 1 } request _
    widened free (Nat.lt_succ_self _)
  exact ⟨locked, apart.locks, apart.documents, apart.versions⟩

theorem release_ok (ok : WorldOk w) :
    WorldOk (w.release request) ∧ Apart request w (w.release request) := by
  constructor
  · exact ⟨⟨ok.numbers, ok.hashes⟩, ok.lockDistinct.sublist (List.filter_sublist.map _),
      fun l member => ok.lockBelow l (List.mem_filter.mp member).1, ok.documentBelow, ok.known⟩
  · exact ⟨fun l member other => List.mem_filter.mpr ⟨member, bne_iff_ne.mpr other⟩,
      fun _ _ _ => .rfl, fun _ _ _ => rfl⟩

theorem versionsOf_commit (rows : UploadRows) (d : Nat) :
    (w.commit rows request).versionsOf d = w.versionsOf d ++
      if rows.version.logicalDocumentId = d then [rows.version] else [] := by
  change (w.versions ++ [rows.version]).filter _ = w.versions.filter _ ++ _
  rw [List.filter_append, List.filter_singleton]
  by_cases here : rows.version.logicalDocumentId = d
  · simp [here]
  · simp [here, beq_eq_false_iff_ne.mpr here]

theorem mem_documentIds_commit (rows : UploadRows) (d : Nat) :
    d ∈ (w.commit rows request).documentIds ↔
      d ∈ w.documentIds ∨ ∃ new, rows.document = some new ∧ new.logicalDocumentId = d := by
  simp [UploadWorld.documentIds, UploadWorld.commit]

/-- Two requests do not lock one document. -/
theorem lock_apart (ok : WorldOk w) {l : Nat × Nat} (mine : (d, request) ∈ w.locks)
    (theirs : l ∈ w.locks) (different : l.2 ≠ request) : l.1 ≠ d := by
  intro same
  have one : l = (d, request) := List.inj_on_of_nodup_map ok.lockDistinct theirs mine same
  exact different (one ▸ rfl)

theorem commit_ok (ok : WorldOk w) {rows : UploadRows}
    (hash : rows.version.contentHash = contentHash)
    (mayAdd : MayAdd w request contentHash rows.document rows.version.logicalDocumentId
      rows.version.versionNo) :
    WorldOk (w.commit rows request) ∧ Apart request w (w.commit rows request) := by
  have below : rows.version.logicalDocumentId < w.nextDocumentId := ok.lockBelow _ mayAdd.locked
  have present : rows.version.logicalDocumentId ∈ (w.commit rows request).documentIds := by
    rw [mem_documentIds_commit]
    cases document : rows.document with
    | none => exact .inl (mayAdd.present document)
    | some new => exact .inr ⟨new, rfl, (mayAdd.new new document).1⟩
  constructor
  · refine ⟨⟨?_, ?_⟩, (release_ok ok).1.lockDistinct, (release_ok ok).1.lockBelow, ?_, ?_⟩
    · intro d
      rw [versionsOf_commit]
      split
      · rename_i here
        subst here
        rw [List.map_append, List.length_append, ok.numbers, List.map_singleton, mayAdd.next,
          List.length_singleton, List.range'_concat, Nat.one_mul, Nat.add_comm 1]
      · rw [List.append_nil]
        exact ok.numbers d
    · intro d
      rw [versionsOf_commit]
      split
      · rename_i here
        subst here
        rw [List.map_append, List.map_singleton, List.nodup_append]
        refine ⟨ok.hashes _, List.nodup_singleton _, fun a there b last same => ?_⟩
        obtain ⟨v, member, rfl⟩ := List.mem_map.mp there
        exact mayAdd.fresh v member ((same.trans (List.mem_singleton.mp last)).trans hash)
      · rw [List.append_nil]
        exact ok.hashes d
    · intro d member
      rcases (mem_documentIds_commit rows d).mp member with old | ⟨new, document, rfl⟩
      · exact ok.documentBelow d old
      · rw [(mayAdd.new new document).1]
        exact below
    · intro v member
      rcases List.mem_append.mp member with old | last
      · exact (mem_documentIds_commit rows _).mpr (.inl (ok.known v old))
      · cases List.mem_singleton.mp last
        exact present
  · refine ⟨(release_ok ok).2.locks, ?_, ?_⟩
    · intro l theirs different
      have other := lock_apart ok mayAdd.locked theirs different
      rw [mem_documentIds_commit]
      refine ⟨fun found => found.resolve_right ?_, .inl⟩
      rintro ⟨new, document, same⟩
      exact other (same.symm.trans (mayAdd.new new document).1)
    · intro l theirs different
      have other := lock_apart ok mayAdd.locked theirs different
      rw [versionsOf_commit, if_neg other.symm, List.append_nil]

theorem foldr_max_range' (n m : Nat) : (List.range' 1 n).foldr max m = max n m := by
  induction n generalizing m with
  | zero => simp
  | succ n ih =>
    rw [List.range'_concat, List.foldr_append, ih]
    simp only [List.foldr_cons, List.foldr_nil]
    omega

theorem maxVersionNo_eq (numbered : Numbered w) (d : Nat) :
    w.maxVersionNo d = (w.versionsOf d).length := by
  rw [UploadWorld.maxVersionNo, numbered.numbers, foldr_max_range', Nat.max_zero]

theorem attempt_adds {hash : String} {outcome : Outcome} {next handler : UploadPhase}
    (ok : WorldOk w) (after : WorldOk w' ∧ Apart request w w') (goesOn : Adds hash request w' next)
    (handled : ∀ w, Adds hash request w handler) :
    let result := attempt outcome next handler w w'
    WorldOk result.2 ∧ Apart request w result.2 ∧ Adds hash request result.2 result.1 := by
  cases outcome with
  | returns => exact ⟨after.1, after.2, goesOn⟩
  | raises => exact ⟨ok, .refl request w, handled w⟩
  | raisesAfter => exact ⟨after.1, after.2, handled w'⟩

theorem transition_adds {operation : UploadOperation} {e : UploadEvent} {phase : UploadPhase}
    {result : UploadResult} (ok : WorldOk w) (adds : Adds operation.file.contentHash e.request w phase)
    (done : transition operation e phase w = some result) :
    WorldOk result.2 ∧ Apart e.request w result.2 ∧
      Adds operation.file.contentHash e.request result.2 result.1 := by
  have still : WorldOk w ∧ Apart e.request w w := ⟨ok, .refl _ w⟩
  have ended : ∀ w, Adds operation.file.contentHash e.request w failed := fun _ => trivial
  cases phase with
  | start =>
    cases operation with
    | addVersion d file =>
      simp only [transition] at done
      split at done
      · cases done
      split at done
      · cases done
        exact attempt_adds ok still trivial ended
      · rename_i document found
        obtain ⟨member, same⟩ := Table.mem_of_row found
        have present : d ∈ w.documentIds := same ▸ List.mem_map_of_mem member
        split at done
        · cases done
        · rename_i free
          cases done
          refine attempt_adds ok (lock_ok ok free (ok.documentBelow d present)) ?_ ended
          split
          · trivial
          · exact ⟨List.mem_append_right _ (List.mem_singleton_self _), present⟩
    | uploadDocument title file =>
      simp only [transition] at done
      split at done <;> cases done
      exact attempt_adds ok still trivial fun _ => trivial
    | ingestUrl title file =>
      simp only [transition] at done
      split at done <;> cases done
      exact attempt_adds ok still trivial fun _ => trivial
  | prepared =>
    have created (title : String) (createdBy : Nat) (now : Time) (hash : String) :
        MayAdd (w.allocate e.request) e.request hash
          (some (newDocument w.nextDocumentId createdBy title now)) w.nextDocumentId 1 := by
      have unknown : w.nextDocumentId ∉ w.documentIds := fun there =>
        absurd (ok.documentBelow _ there) (Nat.lt_irrefl _)
      have none_yet : w.versionsOf w.nextDocumentId = [] := by
        rw [UploadWorld.versionsOf, List.filter_eq_nil_iff]
        intro v member here
        exact unknown (eq_of_beq here ▸ ok.known v member)
      have same : (w.allocate e.request).versionsOf w.nextDocumentId = [] := none_yet
      refine ⟨List.mem_append_right _ (List.mem_singleton_self _), by rw [same]; rfl, ?_, nofun, ?_⟩
      · intro v member
        rw [same] at member
        cases member
      · intro new same
        cases Option.some.inj same
        exact ⟨rfl, unknown⟩
    cases operation with
    | addVersion d file => cases done
    | uploadDocument title file =>
      simp only [transition] at done
      split at done <;> cases done
      exact attempt_adds ok (allocate_ok ok) (created _ _ _ _) ended
    | ingestUrl title file =>
      simp only [transition] at done
      split at done <;> cases done
      exact attempt_adds ok (allocate_ok ok) (created _ _ _ _) ended
  | locked d =>
    simp only [transition] at done
    split at done <;> cases done
    exact attempt_adds ok still adds ended
  | validated d =>
    simp only [transition] at done
    split at done
    · cases done
    · cases done
      refine attempt_adds ok still ?_ ended
      split
      · trivial
      · rename_i missing
        refine ⟨adds.1, adds.2, fun v member same => ?_⟩
        exact List.find?_eq_none.mp missing v member (beq_iff_eq.mpr same)
  | matched rest =>
    cases rest with
    | nil =>
      simp only [transition] at done
      split at done <;> cases done
      exact attempt_adds ok (release_ok ok) trivial ended
    | cons call rest =>
      simp only [transition] at done
      split at done <;> cases done
      exact attempt_adds ok still trivial ended
  | hashed d =>
    simp only [transition] at done
    split at done <;> cases done
    refine attempt_adds ok still ?_ ended
    exact ⟨adds.1, by rw [maxVersionNo_eq ok.toNumbered], adds.2.2, fun _ => adds.2.1, nofun⟩
  | numbered document d versionNo =>
    simp only [transition] at done
    split at done <;> cases done
    have counted : WorldOk { w with nextVersionId := w.nextVersionId + 1 } ∧
        Apart e.request w { w with nextVersionId := w.nextVersionId + 1 } :=
      ⟨⟨⟨ok.numbers, ok.hashes⟩, ok.lockDistinct, ok.lockBelow, ok.documentBelow, ok.known⟩,
        fun _ member _ => member, fun _ _ _ => .rfl, fun _ _ _ => rfl⟩
    refine attempt_adds ok counted ?_ ended
    split
    · trivial
    · exact ⟨rfl, MayAdd.mk adds.locked adds.next adds.fresh adds.present adds.new⟩
  | written rows rest =>
    cases rest with
    | nil =>
      simp only [transition] at done
      split at done <;> cases done
      have stored (key : String) : WorldOk (w.saveBytes key) ∧ Apart e.request w (w.saveBytes key) :=
        ⟨⟨⟨ok.numbers, ok.hashes⟩, ok.lockDistinct, ok.lockBelow, ok.documentBelow, ok.known⟩,
          fun _ member _ => member, fun _ _ _ => .rfl, fun _ _ _ => rfl⟩
      refine attempt_adds ok (stored _) ⟨adds.1, ?_⟩ ended
      exact MayAdd.mk adds.2.locked adds.2.next adds.2.fresh adds.2.present adds.2.new
    | cons call rest =>
      simp only [transition] at done
      split at done <;> cases done
      exact attempt_adds ok still adds ended
  | saved rows rest =>
    cases rest with
    | nil =>
      simp only [transition] at done
      split at done <;> cases done
      exact attempt_adds ok (commit_ok ok adds.1 adds.2) trivial fun _ => trivial
    | cons call rest =>
      simp only [transition] at done
      split at done <;> cases done
      exact attempt_adds ok still adds fun _ => trivial
  | committed rest =>
    cases rest with
    | nil =>
      simp only [transition] at done
      split at done <;> cases done
      exact attempt_adds ok still trivial fun _ => trivial
    | cons call rest =>
      simp only [transition] at done
      split at done <;> cases done
      exact attempt_adds ok still trivial fun _ => trivial
  | failing saved committed =>
    simp only [transition] at done
    split at done <;> cases done
    refine attempt_adds ok (release_ok ok) ?_ fun _ => trivial
    split <;> trivial
  | deleting =>
    simp only [transition] at done
    split at done <;> cases done
    have deleted (key : String) : WorldOk (w.delete key) ∧ Apart e.request w (w.delete key) :=
      ⟨⟨⟨ok.numbers, ok.hashes⟩, ok.lockDistinct, ok.lockBelow, ok.documentBelow, ok.known⟩,
        fun _ member _ => member, fun _ _ _ => .rfl, fun _ _ _ => rfl⟩
    exact attempt_adds ok (deleted _) trivial fun _ => trivial
  | ended => cases done
  | undeleted => cases done

end Numbers

section Files

def UploadWorld.Stored (w : UploadWorld) (storageKey : String) : Prop := storageKey ∈ w.objects

def UploadWorld.Referenced (w : UploadWorld) (storageKey : String) : Prop :=
  ∃ v ∈ w.versions, v.storageKey = some storageKey

/-- Where the file of a request is while it runs. -/
def Files (storageKey : String) (w : UploadWorld) : UploadPhase → Prop
  | .start | .prepared | .locked _ | .validated _ | .matched _ | .hashed _ | .numbered _ _ _
  | .failing false _ => ¬w.Stored storageKey ∧ ¬w.Referenced storageKey
  | .written rows _ => rows.version.storageKey = some storageKey ∧
    ¬w.Stored storageKey ∧ ¬w.Referenced storageKey
  | .saved rows _ => rows.version.storageKey = some storageKey ∧
    w.Stored storageKey ∧ ¬w.Referenced storageKey
  | .committed _ | .failing true true => w.Stored storageKey ∧ w.Referenced storageKey
  | .failing true false => w.Stored storageKey
  | .deleting => w.Stored storageKey ∧ ¬w.Referenced storageKey
  | .ended => w.Stored storageKey ↔ w.Referenced storageKey
  | .undeleted => True

/-- No call leaves a doubt about its effect: save_bytes does not raise after it has created the
object, and after a later exception rollback returns if and only if the row is not committed. -/
def Clean (operations : Nat → UploadOperation) (s : UploadSystem) (e : UploadEvent) : Prop :=
  (e.call = .saveBytes → e.outcome ≠ .raisesAfter) ∧
  (s.phases e.request = .failing true false →
    (e.outcome = .returns ↔ ¬s.world.Referenced (operations e.request).file.storageKey))

variable {w w' : UploadWorld} {key : String}

/-- What a call keeps for the other files. -/
def Elsewhere (key : String) (w w' : UploadWorld) : Prop :=
  ∀ other, other ≠ key → (w'.Stored other ↔ w.Stored other) ∧ (w'.Referenced other ↔ w.Referenced other)

theorem Files.same {phase : UploadPhase} (files : Files key w phase)
    (stored : w'.Stored key ↔ w.Stored key) (referenced : w'.Referenced key ↔ w.Referenced key) :
    Files key w' phase := by
  cases phase with
  | failing saved committed =>
    cases saved <;> cases committed <;> simpa only [Files, stored, referenced] using files
  | undeleted => trivial
  | _ => simpa only [Files, stored, referenced] using files

theorem Files.elsewhere {other : String} {phase : UploadPhase} (files : Files other w phase)
    (elsewhere : Elsewhere key w w') (different : other ≠ key) : Files other w' phase :=
  files.same (elsewhere other different).1 (elsewhere other different).2

theorem stored_saveBytes (key other : String) :
    (w.saveBytes key).Stored other ↔ w.Stored other ∨ other = key := by
  unfold UploadWorld.Stored UploadWorld.saveBytes
  dsimp only
  split
  · rename_i there
    exact ⟨.inl, fun found => found.elim id fun same => same ▸ there⟩
  · rw [List.mem_append, List.mem_singleton]

theorem stored_delete (key other : String) :
    (w.delete key).Stored other ↔ w.Stored other ∧ other ≠ key := by
  simp [UploadWorld.Stored, UploadWorld.delete]

theorem referenced_commit (rows : UploadRows) (request : Nat) (key : String) :
    (w.commit rows request).Referenced key ↔
      w.Referenced key ∨ rows.version.storageKey = some key := by
  simp [UploadWorld.Referenced, UploadWorld.commit, or_and_right, exists_or]

theorem attempt_files {outcome : Outcome} {next handler : UploadPhase}
    (elsewhere : Elsewhere key w w') (returns : outcome = .returns → Files key w' next)
    (raises : outcome = .raises → Files key w handler)
    (raisesAfter : outcome = .raisesAfter → Files key w' handler) :
    let result := attempt outcome next handler w w'
    Elsewhere key w result.2 ∧ Files key result.2 result.1 := by
  cases outcome with
  | returns => exact ⟨elsewhere, returns rfl⟩
  | raises => exact ⟨fun _ _ => ⟨.rfl, .rfl⟩, raises rfl⟩
  | raisesAfter => exact ⟨elsewhere, raisesAfter rfl⟩

/-- A call that reads, or writes neither versions nor objects. -/
theorem attempt_quiet {outcome : Outcome} {next handler : UploadPhase}
    (objects : w'.objects = w.objects) (versions : w'.versions = w.versions)
    (goesOn : Files key w next) (handled : Files key w handler) :
    let result := attempt outcome next handler w w'
    Elsewhere key w result.2 ∧ Files key result.2 result.1 := by
  have stored (other : String) : w'.Stored other ↔ w.Stored other := by
    rw [UploadWorld.Stored, objects]
    rfl
  have referenced (other : String) : w'.Referenced other ↔ w.Referenced other := by
    rw [UploadWorld.Referenced, versions]
    rfl
  exact attempt_files (fun other _ => ⟨stored other, referenced other⟩)
    (fun _ => goesOn.same (stored key) (referenced key)) (fun _ => handled)
    fun _ => handled.same (stored key) (referenced key)

theorem elsewhere_saveBytes : Elsewhere key w (w.saveBytes key) := fun other different =>
  ⟨(stored_saveBytes key other).trans (or_iff_left different), .rfl⟩

theorem elsewhere_delete : Elsewhere key w (w.delete key) := fun other different =>
  ⟨(stored_delete key other).trans (and_iff_left different), .rfl⟩

theorem elsewhere_commit {rows : UploadRows} {request : Nat}
    (mine : rows.version.storageKey = some key) : Elsewhere key w (w.commit rows request) := by
  intro other different
  refine ⟨.rfl, (referenced_commit rows request other).trans (or_iff_left fun same => ?_)⟩
  rw [mine] at same
  exact different (Option.some.inj same).symm

theorem transition_files {operation : UploadOperation} {e : UploadEvent} {phase : UploadPhase}
    {result : UploadResult} (files : Files operation.file.storageKey w phase)
    (saves : e.call = .saveBytes → e.outcome ≠ .raisesAfter)
    (rolls : phase = .failing true false →
      (e.outcome = .returns ↔ ¬w.Referenced operation.file.storageKey))
    (done : transition operation e phase w = some result) :
    Elsewhere operation.file.storageKey w result.2 ∧
      Files operation.file.storageKey result.2 result.1 := by
  cases phase with
  | start =>
    have neither : w.Stored operation.file.storageKey ↔ w.Referenced operation.file.storageKey :=
      iff_of_false files.1 files.2
    cases operation with
    | addVersion d file =>
      simp only [transition] at done
      split at done
      · cases done
      split at done
      · cases done
        exact attempt_quiet rfl rfl files files
      · split at done <;> cases done
        refine attempt_quiet rfl rfl ?_ files
        split <;> exact files
    | uploadDocument title file =>
      simp only [transition] at done
      split at done <;> cases done
      exact attempt_quiet rfl rfl files neither
    | ingestUrl title file =>
      simp only [transition] at done
      split at done <;> cases done
      exact attempt_quiet rfl rfl files neither
  | prepared =>
    cases operation with
    | addVersion d file => cases done
    | uploadDocument title file =>
      simp only [transition] at done
      split at done <;> cases done
      exact attempt_quiet rfl rfl files files
    | ingestUrl title file =>
      simp only [transition] at done
      split at done <;> cases done
      exact attempt_quiet rfl rfl files files
  | locked d =>
    simp only [transition] at done
    split at done <;> cases done
    exact attempt_quiet rfl rfl files files
  | validated d =>
    simp only [transition] at done
    split at done <;> cases done
    refine attempt_quiet rfl rfl ?_ files
    split <;> exact files
  | matched rest =>
    cases rest with
    | nil =>
      simp only [transition] at done
      split at done <;> cases done
      exact attempt_quiet rfl rfl (iff_of_false files.1 files.2) files
    | cons call rest =>
      simp only [transition] at done
      split at done <;> cases done
      exact attempt_quiet rfl rfl files files
  | hashed d =>
    simp only [transition] at done
    split at done <;> cases done
    exact attempt_quiet rfl rfl files files
  | numbered document d versionNo =>
    simp only [transition] at done
    split at done <;> cases done
    refine attempt_quiet rfl rfl ?_ files
    split
    · exact files
    · exact ⟨rfl, files⟩
  | written rows rest =>
    cases rest with
    | nil =>
      simp only [transition] at done
      split at done
      · rename_i call
        cases done
        refine attempt_files elsewhere_saveBytes (fun _ => ?_) (fun _ => files.2) fun raised => ?_
        · exact ⟨files.1, (stored_saveBytes _ _).mpr (.inr rfl), files.2.2⟩
        · exact absurd raised (saves call)
      · cases done
    | cons call rest =>
      simp only [transition] at done
      split at done <;> cases done
      exact attempt_quiet rfl rfl files files.2
  | saved rows rest =>
    cases rest with
    | nil =>
      simp only [transition] at done
      split at done <;> cases done
      refine attempt_files (elsewhere_commit files.1) (fun _ => ?_) (fun _ => files.2.1) fun _ => ?_
      · exact ⟨files.2.1, (referenced_commit _ _ _).mpr (.inr files.1)⟩
      · exact files.2.1
    | cons call rest =>
      simp only [transition] at done
      split at done <;> cases done
      exact attempt_quiet rfl rfl files files.2.1
  | committed rest =>
    cases rest with
    | nil =>
      simp only [transition] at done
      split at done <;> cases done
      exact attempt_quiet rfl rfl (iff_of_true files.1 files.2) (iff_of_true files.1 files.2)
    | cons call rest =>
      simp only [transition] at done
      split at done <;> cases done
      exact attempt_quiet rfl rfl files files
  | failing saved committed =>
    simp only [transition] at done
    split at done <;> cases done
    cases saved with
    | false => exact attempt_quiet rfl rfl (iff_of_false files.1 files.2) (iff_of_false files.1 files.2)
    | true =>
      cases committed with
      | true => exact attempt_quiet rfl rfl (iff_of_true files.1 files.2) (iff_of_true files.1 files.2)
      | false =>
        -- the row is committed when the rollback raises, so the file has to stay
        have raised (outcome : e.outcome ≠ .returns) :
            w.Stored operation.file.storageKey ↔ w.Referenced operation.file.storageKey := by
          refine iff_of_true files (not_not.mp fun missing => outcome ?_)
          exact (rolls rfl).mpr missing
        refine attempt_files (fun _ _ => ⟨.rfl, .rfl⟩) (fun outcome => ?_) (fun outcome => ?_)
          fun outcome => ?_
        · exact ⟨files, (rolls rfl).mp outcome⟩
        · exact raised (by rw [outcome]; exact Outcome.noConfusion)
        · exact raised (by rw [outcome]; exact Outcome.noConfusion)
  | deleting =>
    simp only [transition] at done
    split at done <;> cases done
    refine attempt_files elsewhere_delete (fun _ => ?_) (fun _ => trivial) fun _ => trivial
    exact iff_of_false (fun there => ((stored_delete _ _).mp there).2 rfl) files.2
  | ended => cases done
  | undeleted => cases done

end Files

section Runs
variable {operations : Nat → UploadOperation}

def storageKeyOf (operations : Nat → UploadOperation) (request : Nat) : String :=
  (operations request).file.storageKey

/-- No request has started, and no storage key is in use. -/
structure Initial (operations : Nat → UploadOperation) (s : UploadSystem) : Prop where
  world : WorldOk s.world
  start : ∀ request, s.phases request = .start
  unused : ∀ request, ¬s.world.Stored (storageKeyOf operations request) ∧
    ¬s.world.Referenced (storageKeyOf operations request)

theorem step_result {s t : UploadSystem} {e : UploadEvent}
    (done : UploadSystem.step operations s e = some t) :
    ∃ result, transition (operations e.request) e (s.phases e.request) s.world = some result ∧
      t.world = result.2 ∧ t.phases e.request = result.1 ∧
      ∀ other, other ≠ e.request → t.phases other = s.phases other := by
  obtain ⟨result, moved, rfl⟩ := Option.map_eq_some_iff.mp done
  exact ⟨result, moved, rfl, Function.update_self .., fun other different =>
    Function.update_of_ne different ..⟩

def NumbersOk (operations : Nat → UploadOperation) (s : UploadSystem) : Prop :=
  WorldOk s.world ∧ ∀ request,
    Adds (operations request).file.contentHash request s.world (s.phases request)

theorem step_numbers (s : UploadSystem) (e : UploadEvent) (t : UploadSystem)
    (ok : NumbersOk operations s) (done : UploadSystem.step operations s e = some t) :
    NumbersOk operations t := by
  obtain ⟨result, moved, world, phase, others⟩ := step_result done
  obtain ⟨after, apart, adds⟩ := transition_adds ok.1 (ok.2 e.request) moved
  rw [NumbersOk, world]
  refine ⟨after, fun request => ?_⟩
  by_cases mine : request = e.request
  · rw [mine, phase]
    exact adds
  · rw [others request mine]
    exact (ok.2 request).apart apart mine

theorem step_files (keys : Function.Injective (storageKeyOf operations)) (s : UploadSystem)
    (e : UploadEvent) (t : UploadSystem)
    (ok : ∀ request, Files (storageKeyOf operations request) s.world (s.phases request))
    (clean : Clean operations s e) (done : UploadSystem.step operations s e = some t) :
    ∀ request, Files (storageKeyOf operations request) t.world (t.phases request) := by
  obtain ⟨result, moved, world, phase, others⟩ := step_result done
  obtain ⟨elsewhere, files⟩ := transition_files (ok e.request) clean.1 clean.2 moved
  intro request
  rw [world]
  by_cases mine : request = e.request
  · rw [mine, phase]
    exact files
  · rw [others request mine]
    exact (ok request).elsewhere elsewhere fun same => mine (keys same)

/-- In every run the versions of a document are 1 to k, of distinct contents; in a run whose calls
leave no doubt about their effect, a request that has ended has its file in the storage if and only
if a committed version refers to it. -/
theorem uploads_keep_files (operations : Nat → UploadOperation)
    (keys : Function.Injective (storageKeyOf operations)) (start : UploadSystem)
    (initial : Initial operations start) (events : List UploadEvent) (final : UploadSystem) :
    (Run (UploadSystem.step operations) Free start events final → Numbered final.world) ∧
    (Run (UploadSystem.step operations) (Clean operations) start events final →
      ∀ request, final.phases request = .ended →
        (final.world.Stored (storageKeyOf operations request) ↔
          final.world.Referenced (storageKeyOf operations request))) := by
  constructor
  · intro run
    have first : NumbersOk operations start :=
      ⟨initial.world, fun request => by rw [initial.start request]; trivial⟩
    exact (run.preserves (fun s e t ok _ done => step_numbers s e t ok done) first).1.toNumbered
  · intro run request ended
    have first : ∀ request, Files (storageKeyOf operations request) start.world
        (start.phases request) := fun request => by
      rw [initial.start request]
      exact initial.unused request
    have files := run.preserves (step_files keys) first request
    rw [ended] at files
    exact files

def sampleUpload (request : Nat) : UploadOperation :=
  .uploadDocument "handbook" ⟨"handbook.md", "text/markdown", 4, "hash",
    String.ofList ('k' :: List.replicate request 'k'), none, 1⟩

theorem sample_keys : Function.Injective (storageKeyOf sampleUpload) := by
  intro a b same
  have same := congrArg (fun key => key.toList.length) same
  simpa [storageKeyOf, sampleUpload, UploadOperation.file] using same

def emptySystem : UploadSystem := ⟨⟨[], [], [], [], 1, 1⟩, fun _ => .start⟩

theorem empty_initial : Initial sampleUpload emptySystem where
  world := ⟨⟨fun _ => rfl, fun _ => List.nodup_nil⟩, List.nodup_nil, by simp [emptySystem],
    by simp [emptySystem, UploadWorld.documentIds], by simp [emptySystem]⟩
  start _ := rfl
  unused _ := ⟨List.not_mem_nil, by simp [UploadWorld.Referenced, emptySystem]⟩

/-- The calls up to save_bytes, and then the given ones. -/
def uploadEvents (rest : List (UploadCall × Outcome)) : List UploadEvent :=
  ((.prepare, .returns) :: (.createLogicalDocument, .returns) :: (.createVersion, .returns) ::
    rest).map fun call : UploadCall × Outcome => ⟨0, call.1, call.2, 5⟩

def committingUpload : List (UploadCall × Outcome) :=
  [(.saveBytes, .returns), (.createIngestJob, .returns), (.audit, .returns)]

theorem committed_upload :
    ∃ final, Run (UploadSystem.step sampleUpload) (Clean sampleUpload) emptySystem
        (uploadEvents (committingUpload ++ [(.commit, .returns), (.refresh "document", .returns),
          (.refresh "version", .returns), (.refresh "job", .returns), (.respond, .returns)])) final ∧
      final.phases 0 = .ended ∧ final.world.objects = ["k"] ∧ Numbered final.world ∧
      (final.world.Stored "k" ↔ final.world.Referenced "k") := by
  let test (s : UploadSystem) (e : UploadEvent) : Bool :=
    e.outcome == .returns && s.phases e.request != .failing true false
  have sound : ∀ s e, test s e = true → Clean sampleUpload s e := by
    intro s e passed
    obtain ⟨returns, elsewhere⟩ := Bool.and_eq_true_iff.mp passed
    refine ⟨fun _ => ?_, fun here => absurd here (bne_iff_ne.mp elsewhere)⟩
    rw [eq_of_beq returns]
    exact Outcome.noConfusion
  obtain ⟨final, done, ended, objects⟩ : ∃ final, exec (guarded (UploadSystem.step sampleUpload) test)
      emptySystem (uploadEvents (committingUpload ++ [(.commit, .returns),
        (.refresh "document", .returns), (.refresh "version", .returns), (.refresh "job", .returns),
        (.respond, .returns)])) = some final ∧
      final.phases 0 = .ended ∧ final.world.objects = ["k"] := ⟨_, rfl, rfl, rfl⟩
  have clean := run_of_guarded sound done
  exact ⟨final, clean, ended, objects,
    (uploads_keep_files sampleUpload sample_keys emptySystem empty_initial _ final).1 clean.free,
    (uploads_keep_files sampleUpload sample_keys emptySystem empty_initial _ final).2 clean 0 ended⟩

/-- save_bytes raises after it created the object, which stays without a row; commit raises after
it took effect, and the handler deletes the file of the committed row. -/
theorem interrupted_uploads :
    (∃ final, Run (UploadSystem.step sampleUpload) Free emptySystem
        (uploadEvents [(.saveBytes, .raisesAfter), (.rollback, .returns)]) final ∧
      final.phases 0 = .ended ∧ final.world.Stored (storageKeyOf sampleUpload 0) ∧
      ¬final.world.Referenced (storageKeyOf sampleUpload 0)) ∧
    (∃ final, Run (UploadSystem.step sampleUpload) Free emptySystem
        (uploadEvents (committingUpload ++ [(.commit, .raisesAfter), (.rollback, .returns),
          (.delete, .returns)])) final ∧
      final.phases 0 = .ended ∧ ¬final.world.Stored (storageKeyOf sampleUpload 0) ∧
      final.world.Referenced (storageKeyOf sampleUpload 0)) ∧
    ¬∀ (operations : Nat → UploadOperation) (start : UploadSystem) (events : List UploadEvent)
      (final : UploadSystem), Function.Injective (storageKeyOf operations) →
      Initial operations start → Run (UploadSystem.step operations) Free start events final →
      ∀ request, final.phases request = .ended →
        (final.world.Stored (storageKeyOf operations request) ↔
          final.world.Referenced (storageKeyOf operations request)) := by
  have leaked : ∃ final, Run (UploadSystem.step sampleUpload) Free emptySystem
      (uploadEvents [(.saveBytes, .raisesAfter), (.rollback, .returns)]) final ∧
      final.phases 0 = .ended ∧ final.world.Stored (storageKeyOf sampleUpload 0) ∧
      ¬final.world.Referenced (storageKeyOf sampleUpload 0) := by
    refine ⟨_, run_of_exec rfl, rfl, ?_, ?_⟩
    · exact List.mem_singleton_self _
    · rintro ⟨v, member, _⟩
      cases member
  refine ⟨leaked, ?_, fun claim => ?_⟩
  · refine ⟨_, run_of_exec rfl, rfl, ?_, ?_⟩
    · exact List.not_mem_nil
    · exact ⟨_, List.mem_singleton_self _, rfl⟩
  · obtain ⟨final, run, ended, stored, unreferenced⟩ := leaked
    exact unreferenced ((claim _ _ _ _ sample_keys empty_initial run 0 ended).mp stored)

end Runs

end RagProject.Documents
