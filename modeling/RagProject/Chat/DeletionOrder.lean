import RagProject.Chat.Deletion

/-! Deleting a chat session: every statement leaves a state that meets all constraints, nothing that
belongs to the session is left, and everything else is as it was. -/
namespace RagProject.Chat.Deletion
open Python Jobs References

section Statements
variable {db : Db} {chatSessionId : Nat} {runs : List Nat}

theorem mem_kept {R : Type} {rows : List R} {keep : R → Bool} {r : R}
    (member : r ∈ rows.filter keep) : r ∈ rows := (List.mem_filter.mp member).1

theorem deleteCitations_ok (ok : Constraints db) (runs : List Nat) :
    Constraints (Statement.exec db (.deleteCitations runs)) :=
  { ok with
    citationItem := ok.citationItem.filter _
    citationChecks := fun c member => ok.citationChecks c (mem_kept member) }

theorem detach_key (i : EvaluationRunItem) :
    (i.detach runs).evaluationRunItemId = i.evaluationRunItemId ∧
    (i.detach runs).evaluationRunId = i.evaluationRunId ∧
    (i.detach runs).evaluationCaseId = i.evaluationCaseId ∧
    ((i.detach runs).retrievalRunId = i.retrievalRunId ∨ (i.detach runs).retrievalRunId = none) ∧
    (i.detach runs).checks = i.checks := by
  unfold EvaluationRunItem.detach
  split
  · exact ⟨rfl, rfl, rfl, .inr rfl, rfl⟩
  · exact ⟨rfl, rfl, rfl, .inl rfl, rfl⟩

theorem detachEvaluationItems_ok (ok : Constraints db) (runs : List Nat) :
    Constraints (Statement.exec db (.detachEvaluationItems runs)) :=
  { ok with
    evaluationRun := ok.evaluationRun.rewrite fun i _ =>
      .inl (congrArg some (detach_key i).2.1)
    evaluationCase := ok.evaluationCase.rewrite fun i _ => .inl (detach_key i).2.2.1
    evaluationRetrieval := ok.evaluationRetrieval.rewrite fun i _ => (detach_key i).2.2.2.1
    evaluationResult := ok.evaluationResult.rewrite_parents fun i _ _ _ _ _ found =>
      (congrArg some (detach_key i).1).trans found
    evaluationChecks := by
      intro i member
      obtain ⟨old, there, rfl⟩ := List.mem_map.mp member
      rw [(detach_key old).2.2.2.2]
      exact ok.evaluationChecks old there }

/-- The items of runs may go once the citations of these runs are gone. -/
theorem deleteRunItems_ok (ok : Constraints db)
    (uncited : ∀ c ∈ db.citations, c.retrievalRunId ∉ runs) :
    Constraints (Statement.exec db (.deleteRunItems runs)) :=
  { ok with
    itemRun := ok.itemRun.filter _
    itemChunk := ok.itemChunk.filter _
    citationItem := ok.citationItem.filter_parents (by
      intro i _ c member k cites found
      have same : c.retrievalRunId = i.retrievalRunId := by
        rw [← cites] at found
        exact (Prod.mk.inj (Option.some.inj found)).1.symm
      simpa [← same] using uncited c member)
    itemChecks := fun i member => ok.itemChecks i (mem_kept member) }

theorem unlink_key (m : ChatMessage) :
    (m.unlink chatSessionId).chatSessionId = m.chatSessionId ∧
    (m.unlink chatSessionId).key = m.key ∧
    ((m.unlink chatSessionId).linked = m.linked ∨ (m.unlink chatSessionId).linked = none) := by
  unfold ChatMessage.unlink
  split
  · exact ⟨rfl, rfl, .inr rfl⟩
  · exact ⟨rfl, rfl, .inl rfl⟩

theorem unlink_checks {m : ChatMessage} (checked : holds m.checks) (chatSessionId : Nat) :
    holds (m.unlink chatSessionId).checks := by
  unfold ChatMessage.unlink
  split
  · intro check member
    simp only [ChatMessage.checks, List.mem_cons, List.not_mem_nil, or_false] at member
    rcases member with rfl | rfl | rfl | rfl | rfl
    · exact checked _ (.head _)
    · exact checked _ (.tail _ (.head _))
    · exact checked _ (.tail _ (.tail _ (.head _)))
    · exact checked _ (.tail _ (.tail _ (.tail _ (.head _))))
    · rfl
  · exact checked

theorem unlinkMessages_ok (ok : Constraints db) (chatSessionId : Nat) :
    Constraints (Statement.exec db (.unlinkMessages chatSessionId)) :=
  { ok with
    messageSession := ok.messageSession.rewrite fun m _ => .inl (congrArg some (unlink_key m).1)
    messageLinked := ok.messageLinked.rewrite fun m _ => (unlink_key m).2.2
    memorySource := ok.memorySource.rewrite_parents fun m _ _ _ _ _ found =>
      (unlink_key m).2.1.trans found
    runRequest := ok.runRequest.rewrite_parents fun m _ _ _ _ _ found =>
      (unlink_key m).2.1.trans found
    messageChecks := by
      intro m member
      obtain ⟨old, there, rfl⟩ := List.mem_map.mp member
      exact unlink_checks (ok.messageChecks old there) chatSessionId }

theorem run_detach_key (r : RetrievalRun) :
    (r.detach runs).retrievalRunId = r.retrievalRunId ∧
    ((r.detach runs).chatSessionId = r.chatSessionId ∨ (r.detach runs).chatSessionId = none) ∧
    ((r.detach runs).request = r.request ∨ (r.detach runs).request = none) := by
  unfold RetrievalRun.detach
  split
  · exact ⟨rfl, .inr rfl, .inr rfl⟩
  · exact ⟨rfl, .inl rfl, .inl rfl⟩

theorem run_detach_checks {r : RetrievalRun} (checked : holds r.checks) (runs : List Nat) :
    holds (r.detach runs).checks := by
  unfold RetrievalRun.detach
  split
  · intro check member
    rcases List.mem_cons.mp member with rfl | later
    · rfl
    · exact checked check (List.mem_cons_of_mem _ later)
  · exact checked

/-- A run may leave its session once no message is linked to it. -/
theorem detachRuns_ok (ok : Constraints db)
    (unlinked : ∀ m ∈ db.messages, ∀ run, m.linkedRetrievalRunId = some run → run ∉ runs) :
    Constraints (Statement.exec db (.detachRuns runs)) :=
  { ok with
    messageLinked := ok.messageLinked.rewrite_parents (by
      intro r _ m member k links found
      obtain ⟨run, there, rfl⟩ := Option.map_eq_some_iff.mp links
      obtain ⟨session, inside, same⟩ := Option.map_eq_some_iff.mp found
      have other : run ∉ runs := unlinked m member run there
      obtain ⟨_, same⟩ := Prod.mk.inj same
      have stays : r.detach runs = r := by
        unfold RetrievalRun.detach
        rw [if_neg (by simpa [same] using other)]
      rw [stays]
      exact found)
    runSession := ok.runSession.rewrite fun r _ => (run_detach_key r).2.1
    runRequest := ok.runRequest.rewrite fun r _ => (run_detach_key r).2.2
    itemRun := ok.itemRun.rewrite_parents fun r _ _ _ _ _ found =>
      (congrArg some (run_detach_key r).1).trans found
    pathRun := ok.pathRun.rewrite_parents fun r _ _ _ _ _ found =>
      (congrArg some (run_detach_key r).1).trans found
    evaluationRetrieval := ok.evaluationRetrieval.rewrite_parents fun r _ _ _ _ _ found =>
      (congrArg some (run_detach_key r).1).trans found
    runChecks := by
      intro r member
      obtain ⟨old, there, rfl⟩ := List.mem_map.mp member
      exact run_detach_checks (ok.runChecks old there) runs }

theorem deleteMemories_ok (ok : Constraints db) (chatSessionId : Nat) :
    Constraints (Statement.exec db (.deleteMemories chatSessionId)) :=
  { ok with
    memorySession := ok.memorySession.filter _
    memorySource := ok.memorySource.filter _
    memoryChecks := fun m member => ok.memoryChecks m (mem_kept member) }

theorem deleteTags_ok (ok : Constraints db) (chatSessionId : Nat) :
    Constraints (Statement.exec db (.deleteTags chatSessionId)) :=
  { ok with
    tagSession := ok.tagSession.filter _
    tagsChecked := fun t member => ok.tagsChecked t (mem_kept member) }

/-- The messages of a session may go once neither memories nor runs of it are left. -/
theorem deleteMessages_ok (ok : Constraints db)
    (noMemory : ∀ m ∈ db.memories, m.chatSessionId ≠ chatSessionId)
    (noRun : ∀ r ∈ db.runs, r.chatSessionId ≠ some chatSessionId) :
    Constraints (Statement.exec db (.deleteMessages chatSessionId)) :=
  { ok with
    messageSession := ok.messageSession.filter _
    messageLinked := ok.messageLinked.filter _
    memorySource := ok.memorySource.filter_parents (by
      intro m _ memory member k refersTo found
      have same : memory.chatSessionId = m.chatSessionId := by
        rw [← refersTo] at found
        exact (Prod.mk.inj (Option.some.inj found)).1.symm
      simpa [← same] using noMemory memory member)
    runRequest := ok.runRequest.filter_parents (by
      intro m _ r member k refersTo found
      obtain ⟨session, inside, refersTo⟩ := Option.bind_eq_some_iff.mp refersTo
      obtain ⟨message, _, rfl⟩ := Option.map_eq_some_iff.mp refersTo
      have same : m.chatSessionId = session := (Prod.mk.inj (Option.some.inj found)).1
      have other := noRun r member
      rw [inside] at other
      simpa [same] using other)
    messageChecks := fun m member => ok.messageChecks m (mem_kept member) }

/-- Runs may go once neither messages nor items nor evaluation items refer to them. -/
theorem deleteRuns_ok (ok : Constraints db)
    (unlinked : ∀ m ∈ db.messages, ∀ run, m.linkedRetrievalRunId = some run → run ∉ runs)
    (noItem : ∀ i ∈ db.items, i.retrievalRunId ∉ runs)
    (noEvaluation : ∀ i ∈ db.evaluationItems, ∀ run, i.retrievalRunId = some run → run ∉ runs) :
    Constraints (Statement.exec db (.deleteRuns runs)) :=
  { ok with
    messageLinked := ok.messageLinked.filter_parents (by
      intro r _ m member k links found
      obtain ⟨run, there, rfl⟩ := Option.map_eq_some_iff.mp links
      obtain ⟨session, _, same⟩ := Option.map_eq_some_iff.mp found
      obtain ⟨_, same⟩ := Prod.mk.inj same
      simpa [same] using unlinked m member run there)
    runSession := ok.runSession.filter _
    runRequest := ok.runRequest.filter _
    itemRun := ok.itemRun.filter_parents (by
      intro r _ i member k refersTo found
      rw [← refersTo] at found
      simpa [Option.some.inj found] using noItem i member)
    pathRun := by
      intro p member k refersTo
      obtain ⟨there, kept⟩ := List.mem_filter.mp member
      obtain ⟨r, present, same⟩ := ok.pathRun p there k refersTo
      refine ⟨r, List.mem_filter.mpr ⟨present, ?_⟩, same⟩
      rw [← refersTo] at same
      rwa [Option.some.inj same]
    evaluationRetrieval := ok.evaluationRetrieval.filter_parents (by
      intro r _ i member k refersTo found
      simpa [Option.some.inj found] using noEvaluation i member k refersTo)
    runChecks := fun r member => ok.runChecks r (mem_kept member)
    pathChecks := fun p member => ok.pathChecks p (mem_kept member) }

/-- A session may go once nothing in it is left. -/
theorem deleteSession_ok (ok : Constraints db)
    (noMessage : ∀ m ∈ db.messages, m.chatSessionId ≠ chatSessionId)
    (noTag : ∀ t ∈ db.tags, t.chatSessionId ≠ chatSessionId)
    (noMemory : ∀ m ∈ db.memories, m.chatSessionId ≠ chatSessionId)
    (noRun : ∀ r ∈ db.runs, r.chatSessionId ≠ some chatSessionId) :
    Constraints (Statement.exec db (.deleteSession chatSessionId)) :=
  { ok with
    sessionUser := ok.sessionUser.filter _
    messageSession := ok.messageSession.filter_parents (by
      intro s _ m member k refersTo found
      rw [← refersTo] at found
      simpa [Option.some.inj found] using noMessage m member)
    tagSession := ok.tagSession.filter_parents (by
      intro s _ t member k refersTo found
      rw [← refersTo] at found
      simpa [Option.some.inj found] using noTag t member)
    memorySession := ok.memorySession.filter_parents (by
      intro s _ m member k refersTo found
      rw [← refersTo] at found
      simpa [Option.some.inj found] using noMemory m member)
    runSession := ok.runSession.filter_parents (by
      intro s _ r member k refersTo found
      have other := noRun r member
      rw [refersTo] at other
      simpa [Option.some.inj found] using other) }

end Statements

section Runs
variable {db : Db} {chatSessionId : Nat}

@[simp]
theorem states_append (db : Db) (first later : List Statement) :
    states db (first ++ later) = states db first ++ states (execAll db first) later := by
  induction first generalizing db with
  | nil => rfl
  | cons s first ih => exact congrArg (s.exec db :: ·) (ih (s.exec db))

theorem execAll_append (db : Db) (first later : List Statement) :
    execAll db (first ++ later) = execAll (execAll db first) later := List.foldl_append ..

theorem listed_iff (keys : PrimaryKeys db) {r : RetrievalRun} (member : r ∈ db.runs) :
    r.retrievalRunId ∈ retrievalRunIds db chatSessionId ↔ r.chatSessionId = some chatSessionId := by
  constructor
  · intro listed
    obtain ⟨other, there, same⟩ := List.mem_map.mp listed
    obtain ⟨there, inside⟩ := List.mem_filter.mp there
    rw [← Table.unique keys.runs there member same]
    exact eq_of_beq inside
  · intro inside
    exact List.mem_map_of_mem (List.mem_filter.mpr ⟨member, beq_iff_eq.mpr inside⟩)

/-- A message is linked to runs of its own session only. -/
theorem linked_elsewhere (ok : Constraints db) (keys : PrimaryKeys db) {m : ChatMessage}
    (member : m ∈ db.messages) (outside : m.chatSessionId ≠ chatSessionId) {run : Nat}
    (links : m.linkedRetrievalRunId = some run) : run ∉ retrievalRunIds db chatSessionId := by
  have linked : m.linked = some (m.chatSessionId, run) := by
    rw [ChatMessage.linked, links]
    rfl
  obtain ⟨r, there, same⟩ := ok.messageLinked m member _ linked
  obtain ⟨session, inside, same⟩ := Option.map_eq_some_iff.mp same
  obtain ⟨rfl, rfl⟩ := Prod.mk.inj same
  intro listed
  have here := (listed_iff keys there).mp listed
  rw [inside] at here
  exact outside (Option.some.inj here)

/-- What the statements before the memories leave. -/
structure Released (db : Db) (chatSessionId : Nat) (runs : List Nat) : Prop where
  uncited : ∀ c ∈ db.citations, c.retrievalRunId ∉ runs
  unlinked : ∀ m ∈ db.messages, ∀ run, m.linkedRetrievalRunId = some run → run ∉ runs
  noItem : ∀ i ∈ db.items, i.retrievalRunId ∉ runs
  noEvaluation : ∀ i ∈ db.evaluationItems, ∀ run, i.retrievalRunId = some run → run ∉ runs
  noRun : ∀ r ∈ db.runs, r.chatSessionId ≠ some chatSessionId

theorem detached_elsewhere (runs : List Nat) {i : EvaluationRunItem} {run : Nat}
    (refersTo : (i.detach runs).retrievalRunId = some run) : run ∉ runs := by
  unfold EvaluationRunItem.detach at refersTo
  split at refersTo
  · cases refersTo
  · rename_i outside
    rw [refersTo] at outside
    simpa using outside

theorem no_listed_run (keys : PrimaryKeys db) {r : RetrievalRun}
    (member : r ∈ (db.runs.map (·.detach (retrievalRunIds db chatSessionId)))) :
    r.chatSessionId ≠ some chatSessionId := by
  obtain ⟨old, there, rfl⟩ := List.mem_map.mp member
  intro inside
  unfold RetrievalRun.detach at inside
  split at inside
  · cases inside
  · rename_i outside
    exact outside (List.contains_iff_mem.mpr ((listed_iff keys there).mpr inside))

theorem unlinked_elsewhere (ok : Constraints db) (keys : PrimaryKeys db) {m : ChatMessage}
    (member : m ∈ db.messages.map (·.unlink chatSessionId)) {run : Nat}
    (links : m.linkedRetrievalRunId = some run) : run ∉ retrievalRunIds db chatSessionId := by
  obtain ⟨old, there, rfl⟩ := List.mem_map.mp member
  unfold ChatMessage.unlink at links
  split at links
  · cases links
  · rename_i outside
    exact linked_elsewhere ok keys there outside links

/-- The statements before the memories, when the session has runs. -/
def release (chatSessionId : Nat) (runs : List Nat) : List Statement :=
  [.deleteCitations runs, .detachEvaluationItems runs, .deleteRunItems runs,
    .unlinkMessages chatSessionId, .detachRuns runs]

theorem release_ok (ok : Constraints db) (keys : PrimaryKeys db) (chatSessionId : Nat) :
    let runs := retrievalRunIds db chatSessionId
    (∀ state ∈ states db (release chatSessionId runs), Constraints state) ∧
    Constraints (execAll db (release chatSessionId runs)) ∧
    Released (execAll db (release chatSessionId runs)) chatSessionId runs := by
  intro runs
  have uncited : ∀ c ∈ db.citations.filter fun c => !runs.contains c.retrievalRunId,
      c.retrievalRunId ∉ runs := fun c member => by simpa using (List.mem_filter.mp member).2
  have unlinked : ∀ m ∈ db.messages.map (·.unlink chatSessionId), ∀ run,
      m.linkedRetrievalRunId = some run → run ∉ runs :=
    fun m member run links => unlinked_elsewhere ok keys member links
  have citations := deleteCitations_ok ok runs
  have evaluation := detachEvaluationItems_ok citations runs
  have items := deleteRunItems_ok evaluation uncited
  have messages := unlinkMessages_ok items chatSessionId
  have detached := detachRuns_ok messages unlinked
  refine ⟨?_, detached, ?_⟩
  · intro state member
    simp only [release, states, List.mem_cons, List.not_mem_nil, or_false] at member
    rcases member with rfl | rfl | rfl | rfl | rfl
    · exact citations
    · exact evaluation
    · exact items
    · exact messages
    · exact detached
  · exact {
      uncited := uncited
      unlinked := unlinked
      noItem := fun i member => by simpa using (List.mem_filter.mp member).2
      noEvaluation := fun i member run refersTo => by
        obtain ⟨old, _, rfl⟩ := List.mem_map.mp member
        exact detached_elsewhere runs refersTo
      noRun := fun r member => no_listed_run keys member }

theorem nothing_released (db : Db) (none_listed : retrievalRunIds db chatSessionId = []) :
    Released db chatSessionId [] := {
  uncited := fun _ _ => List.not_mem_nil
  unlinked := fun _ _ _ _ => List.not_mem_nil
  noItem := fun _ _ => List.not_mem_nil
  noEvaluation := fun _ _ _ _ => List.not_mem_nil
  noRun := fun r member inside => by
    have listed : r.retrievalRunId ∈ retrievalRunIds db chatSessionId :=
      List.mem_map_of_mem (List.mem_filter.mpr ⟨member, beq_iff_eq.mpr inside⟩)
    rw [none_listed] at listed
    cases listed }

/-- The statements from the memories to the session itself. -/
def empty (chatSessionId : Nat) (runs : List Nat) : List Statement :=
  [.deleteMemories chatSessionId, .deleteTags chatSessionId, .deleteMessages chatSessionId] ++
  (if runs.isEmpty then [] else [.deleteRuns runs]) ++ [.deleteSession chatSessionId]

theorem empty_ok (ok : Constraints db) {runs : List Nat} (released : Released db chatSessionId runs) :
    ∀ state ∈ states db (empty chatSessionId runs), Constraints state := by
  have fewer : ∀ {R : Type} {rows : List R} (id : R → Nat),
      ∀ r ∈ rows.filter (id · != chatSessionId), id r ≠ chatSessionId :=
    fun id r member => by simpa using (List.mem_filter.mp member).2
  have memories := deleteMemories_ok ok chatSessionId
  have tags := deleteTags_ok memories chatSessionId
  have messages := deleteMessages_ok tags (fewer _) released.noRun
  have runsGone := deleteRuns_ok messages
    (fun m member => released.unlinked m (mem_kept member)) released.noItem released.noEvaluation
  have noRun : ∀ r ∈ db.runs.filter fun r => !runs.contains r.retrievalRunId,
      r.chatSessionId ≠ some chatSessionId :=
    fun r member => released.noRun r (mem_kept member)
  by_cases empty : runs = []
  · subst empty
    have session := deleteSession_ok messages (fewer _) (fewer _) (fewer _) released.noRun
    intro state member
    simp only [Deletion.empty, List.isEmpty_nil, ↓reduceIte, List.cons_append, List.nil_append,
      List.append_nil, states, List.mem_cons, List.not_mem_nil, or_false] at member
    rcases member with rfl | rfl | rfl | rfl
    · exact memories
    · exact tags
    · exact messages
    · exact session
  · have session := deleteSession_ok runsGone (fewer _) (fewer _) (fewer _) noRun
    intro state member
    simp only [Deletion.empty, List.isEmpty_iff, empty, ↓reduceIte, List.cons_append,
      List.nil_append, states, List.mem_cons, List.not_mem_nil, or_false] at member
    rcases member with rfl | rfl | rfl | rfl | rfl
    · exact memories
    · exact tags
    · exact messages
    · exact runsGone
    · exact session

theorem deleteSession_eq (db : Db) (chatSessionId : Nat) :
    deleteSession db chatSessionId =
      (if (retrievalRunIds db chatSessionId).isEmpty then []
        else release chatSessionId (retrievalRunIds db chatSessionId)) ++
      empty chatSessionId (retrievalRunIds db chatSessionId) := by
  simp only [deleteSession, empty, release, List.append_assoc]

theorem delete_ok (ok : Constraints db) (keys : PrimaryKeys db) (chatSessionId : Nat) :
    ∀ state ∈ states db (deleteSession db chatSessionId), Constraints state := by
  intro state member
  rw [deleteSession_eq] at member
  by_cases none_listed : retrievalRunIds db chatSessionId = []
  · rw [none_listed, List.isEmpty_nil, if_pos rfl, List.nil_append] at member
    exact empty_ok ok (nothing_released db none_listed) state member
  · rw [if_neg (by simpa using none_listed), states_append] at member
    obtain ⟨during, after, released⟩ := release_ok ok keys chatSessionId
    rcases List.mem_append.mp member with first | later
    · exact during state first
    · exact empty_ok after released state later

/-- What is left once the session and its runs are gone. -/
def without (db : Db) (chatSessionId : Nat) (runs : List Nat) : Db :=
  { db with
    sessions := db.sessions.filter (·.chatSessionId != chatSessionId)
    messages := db.messages.filter (·.chatSessionId != chatSessionId)
    tags := db.tags.filter (·.chatSessionId != chatSessionId)
    memories := db.memories.filter (·.chatSessionId != chatSessionId)
    runs := db.runs.filter fun r => !runs.contains r.retrievalRunId
    items := db.items.filter fun i => !runs.contains i.retrievalRunId
    citations := db.citations.filter fun c => !runs.contains c.retrievalRunId
    paths := db.paths.filter fun p => !runs.contains p.retrievalRunId
    evaluationItems := db.evaluationItems.map (·.detach runs) }

theorem unlinked_filter (db : Db) (chatSessionId : Nat) :
    (db.messages.map (·.unlink chatSessionId)).filter (·.chatSessionId != chatSessionId) =
      db.messages.filter (·.chatSessionId != chatSessionId) := by
  apply Table.filter_rewritten
  · intro m _
    rw [(unlink_key m).1]
  · intro m _ outside
    rw [ChatMessage.unlink, if_neg (by simpa using outside)]

theorem detached_filter (db : Db) (runs : List Nat) :
    (db.runs.map (·.detach runs)).filter (fun r => !runs.contains r.retrievalRunId) =
      db.runs.filter fun r => !runs.contains r.retrievalRunId := by
  apply Table.filter_rewritten
  · intro r _
    rw [(run_detach_key r).1]
  · intro r _ outside
    rw [RetrievalRun.detach, if_neg (by simpa using outside)]

theorem detach_none (i : EvaluationRunItem) : i.detach [] = i := by
  rw [EvaluationRunItem.detach]
  cases i.retrievalRunId <;> rfl

theorem deleted_eq (db : Db) (chatSessionId : Nat) :
    execAll db (deleteSession db chatSessionId) =
      without db chatSessionId (retrievalRunIds db chatSessionId) := by
  rw [deleteSession_eq, execAll_append]
  generalize retrievalRunIds db chatSessionId = runs
  by_cases none_listed : runs = []
  · subst none_listed
    have same : db.evaluationItems.map (·.detach []) = db.evaluationItems :=
      (List.map_congr_left fun i _ => detach_none i).trans (List.map_id _)
    simp [execAll, empty, without, Statement.exec, same]
  · have listed : runs.isEmpty = false := by simpa using none_listed
    rw [if_neg (by simpa using none_listed), empty, listed]
    simp only [execAll, release, Statement.exec, List.foldl_cons, List.foldl_nil, List.cons_append,
      List.nil_append, unlinked_filter, detached_filter, without, Bool.false_eq_true, ↓reduceIte]

/-- No row refers to the session, to a message of it or to a run of it. -/
structure Complete (db after : Db) (chatSessionId : Nat) : Prop where
  session : ∀ s ∈ after.sessions, s.chatSessionId ≠ chatSessionId
  messages : ∀ m ∈ after.messages, m.chatSessionId ≠ chatSessionId
  tags : ∀ t ∈ after.tags, t.chatSessionId ≠ chatSessionId
  memories : ∀ m ∈ after.memories, m.chatSessionId ≠ chatSessionId
  runs : ∀ r ∈ after.runs, r.chatSessionId ≠ some chatSessionId
  ofMessages : ∀ m ∈ db.messages, m.chatSessionId = chatSessionId →
    (∀ kept ∈ after.messages, kept.chatMessageId ≠ m.chatMessageId) ∧
    (∀ memory ∈ after.memories, memory.sourceMessageUptoId ≠ m.chatMessageId) ∧
    ∀ r ∈ after.runs, r.requestMessageId ≠ some m.chatMessageId
  ofRuns : ∀ r ∈ db.runs, r.chatSessionId = some chatSessionId →
    (∀ kept ∈ after.runs, kept.retrievalRunId ≠ r.retrievalRunId) ∧
    (∀ m ∈ after.messages, m.linkedRetrievalRunId ≠ some r.retrievalRunId) ∧
    (∀ i ∈ after.items, i.retrievalRunId ≠ r.retrievalRunId) ∧
    (∀ c ∈ after.citations, c.retrievalRunId ≠ r.retrievalRunId) ∧
    (∀ p ∈ after.paths, p.retrievalRunId ≠ r.retrievalRunId) ∧
    ∀ i ∈ after.evaluationItems, i.retrievalRunId ≠ some r.retrievalRunId

/-- The rows of other sessions and of other runs are as they were; of the evaluation items, only
what refers to a run of the session is cleared. -/
structure Framed (db after : Db) (chatSessionId : Nat) : Prop where
  sessions : after.sessions = db.sessions.filter (·.chatSessionId != chatSessionId)
  messages : after.messages = db.messages.filter (·.chatSessionId != chatSessionId)
  tags : after.tags = db.tags.filter (·.chatSessionId != chatSessionId)
  memories : after.memories = db.memories.filter (·.chatSessionId != chatSessionId)
  runs : after.runs = db.runs.filter (·.chatSessionId != some chatSessionId)
  ofRuns : ∀ r ∈ db.runs, r.chatSessionId ≠ some chatSessionId →
    after.items.filter (·.retrievalRunId == r.retrievalRunId) =
      db.items.filter (·.retrievalRunId == r.retrievalRunId) ∧
    after.citations.filter (·.retrievalRunId == r.retrievalRunId) =
      db.citations.filter (·.retrievalRunId == r.retrievalRunId) ∧
    after.paths.filter (·.retrievalRunId == r.retrievalRunId) =
      db.paths.filter (·.retrievalRunId == r.retrievalRunId)
  evaluationItems : after.evaluationItems.map ({ · with retrievalRunId := none }) =
    db.evaluationItems.map ({ · with retrievalRunId := none })
  otherEvaluationItems : ∀ i ∈ db.evaluationItems,
    (∀ r ∈ db.runs, i.retrievalRunId = some r.retrievalRunId →
      r.chatSessionId ≠ some chatSessionId) → i ∈ after.evaluationItems
  referredTo : after.users = db.users ∧ after.documentChunks = db.documentChunks ∧
    after.evaluationRuns = db.evaluationRuns ∧ after.evaluationCases = db.evaluationCases ∧
    after.evaluationResults = db.evaluationResults

end Runs

section Results
variable {db : Db} {chatSessionId : Nat}

theorem kept_iff (keys : PrimaryKeys db) :
    (without db chatSessionId (retrievalRunIds db chatSessionId)).runs =
      db.runs.filter (·.chatSessionId != some chatSessionId) := by
  apply List.filter_congr
  intro r member
  rw [Bool.eq_iff_iff]
  simp [listed_iff keys member]

/-- A kept row that refers to a message of its own session does not refer to one of this session. -/
theorem message_elsewhere (keys : PrimaryKeys db) {m : ChatMessage} (member : m ∈ db.messages)
    (inside : m.chatSessionId = chatSessionId) {session : Nat} (outside : session ≠ chatSessionId)
    {source : Nat} (found : ∃ p ∈ db.messages, p.key = some (session, source)) :
    source ≠ m.chatMessageId := by
  obtain ⟨p, there, same⟩ := found
  obtain ⟨sameSession, sameId⟩ := Prod.mk.inj (Option.some.inj same)
  intro equal
  have one : p = m := Table.unique keys.messages there member (sameId.trans equal)
  rw [one, inside] at sameSession
  exact outside sameSession.symm

theorem delete_complete (ok : Constraints db) (keys : PrimaryKeys db) (chatSessionId : Nat) :
    Complete db (without db chatSessionId (retrievalRunIds db chatSessionId)) chatSessionId := by
  have fewer : ∀ {R : Type} {rows : List R} (id : R → Nat),
      ∀ r ∈ rows.filter (id · != chatSessionId), id r ≠ chatSessionId :=
    fun id r member => by simpa using (List.mem_filter.mp member).2
  have unlisted : ∀ {R : Type} {rows : List R} (id : R → Nat) {runs : List Nat} {run : Nat},
      run ∈ runs → ∀ r ∈ rows.filter (fun r => !runs.contains (id r)), id r ≠ run := by
    intro R rows id runs run listed r member same
    have outside := (List.mem_filter.mp member).2
    rw [same] at outside
    simp [listed] at outside
  have noRun : ∀ r ∈ (without db chatSessionId (retrievalRunIds db chatSessionId)).runs,
      r.chatSessionId ≠ some chatSessionId := by
    intro r member
    rw [kept_iff keys] at member
    simpa using (List.mem_filter.mp member).2
  refine {
    session := fewer _, messages := fewer _, tags := fewer _, memories := fewer _
    runs := noRun, ofMessages := ?_, ofRuns := ?_ }
  · intro m member inside
    refine ⟨?_, ?_, ?_⟩
    · intro kept there same
      have one : kept = m := Table.unique keys.messages (mem_kept there) member same
      exact fewer _ kept there (one ▸ inside)
    · intro memory there
      exact message_elsewhere keys member inside (fewer _ memory there)
        (ok.memorySource memory (mem_kept there) _ rfl)
    · intro r there refersTo
      have old : r ∈ db.runs := mem_kept there
      have origin : (r.chatSessionId.isNone == r.requestMessageId.isNone) = true :=
        ok.runChecks r old _ (.head _)
      cases session : r.chatSessionId with
      | none =>
        rw [session, refersTo] at origin
        cases origin
      | some session' =>
        have outside : session' ≠ chatSessionId := fun same =>
          noRun r there (session.trans (congrArg some same))
        have request : r.request = some (session', m.chatMessageId) := by
          rw [RetrievalRun.request, session, refersTo]
          rfl
        exact message_elsewhere keys member inside outside (ok.runRequest r old _ request) rfl
  · intro r member inside
    have listed := (listed_iff keys member).mpr inside
    refine ⟨unlisted _ listed, ?_, unlisted _ listed, unlisted _ listed, unlisted _ listed, ?_⟩
    · intro m there links
      exact linked_elsewhere ok keys (mem_kept there) (fewer _ m there) links listed
    · intro i there refersTo
      obtain ⟨old, _, rfl⟩ := List.mem_map.mp there
      exact detached_elsewhere _ refersTo listed

theorem delete_framed (keys : PrimaryKeys db) (chatSessionId : Nat) :
    Framed db (without db chatSessionId (retrievalRunIds db chatSessionId)) chatSessionId := by
  have same : ∀ {R : Type} {rows : List R} (id : R → Nat) {runs : List Nat} {run : Nat},
      run ∉ runs → (rows.filter fun r => !runs.contains (id r)).filter (id · == run) =
        rows.filter (id · == run) := by
    intro R rows id runs run outside
    rw [List.filter_filter]
    apply List.filter_congr
    intro r _
    by_cases here : id r = run
    · simp [here, outside]
    · simp [here]
  refine {
    sessions := rfl, messages := rfl, tags := rfl, memories := rfl, runs := kept_iff keys
    ofRuns := ?_, evaluationItems := ?_, otherEvaluationItems := ?_
    referredTo := ⟨rfl, rfl, rfl, rfl, rfl⟩ }
  · intro r member outside
    have unlisted : r.retrievalRunId ∉ retrievalRunIds db chatSessionId :=
      fun listed => outside ((listed_iff keys member).mp listed)
    exact ⟨same _ unlisted, same _ unlisted, same _ unlisted⟩
  · simp only [without, List.map_map]
    apply List.map_congr_left
    intro i _
    simp only [Function.comp, EvaluationRunItem.detach]
    split <;> rfl
  · intro i member elsewhere
    refine List.mem_map.mpr ⟨i, member, ?_⟩
    rw [EvaluationRunItem.detach, if_neg]
    intro refersTo
    cases here : i.retrievalRunId with
    | none =>
      rw [here] at refersTo
      cases refersTo
    | some run =>
      rw [here] at refersTo
      obtain ⟨r, there, rfl⟩ := List.mem_map.mp (List.contains_iff_mem.mp refersTo)
      obtain ⟨there, inside⟩ := List.mem_filter.mp there
      exact elsewhere r there here (eq_of_beq inside)

/-- Deleting a session meets every constraint after every statement, leaves nothing that refers to
the session and changes nothing else. -/
theorem session_deleted (db : Db) (ok : Constraints db) (keys : PrimaryKeys db)
    (chatSessionId : Nat) :
    (∀ state ∈ states db (deleteSession db chatSessionId), Constraints state) ∧
    Complete db (execAll db (deleteSession db chatSessionId)) chatSessionId ∧
    Framed db (execAll db (deleteSession db chatSessionId)) chatSessionId := by
  rw [deleted_eq]
  exact ⟨delete_ok ok keys chatSessionId, delete_complete ok keys chatSessionId,
    delete_framed keys chatSessionId⟩

def sampleSession (id : Nat) : ChatSession where
  chatSessionId := id
  userId := 7
  title := "notes"
  status := .active
  temporaryFlag := false
  ttlExpiresAt := none
  archivedAt := none
  createdAt := 0
  updatedAt := 0
  temporaryTtl := rfl
  archivedTime := rfl

def sampleMessage (id session : Nat) (role : String) (linked : Option Nat) : ChatMessage where
  chatMessageId := id
  chatSessionId := session
  role := role
  content := "text"
  clientMessageId := none
  linkedRetrievalRunId := linked
  editedFlag := false
  createdAt := 0
  updatedAt := 0

def sampleRun (id : Nat) (session request : Option Nat) : RetrievalRun where
  retrievalRunId := id
  chatSessionId := session
  requestMessageId := request
  status := "succeeded"
  errorCode := none
  startedAt := some 1
  finishedAt := some 2
  topK := some 5
  strategyType := "dense"
  queryHash := none
  answerConfidence := none
  groundednessScore := none
  confidenceLabel := none
  requestId := none
  others := []

/-- Sessions 1 and 2 with a run each, and a run of no session. -/
def sampleDb : Db where
  sessions := [sampleSession 1, sampleSession 2]
  messages := [sampleMessage 10 1 "user" none, sampleMessage 11 1 "assistant" (some 20),
    sampleMessage 12 2 "user" none, sampleMessage 13 2 "assistant" (some 21)]
  tags := [⟨1, 1, "tag", 0⟩, ⟨2, 2, "tag", 0⟩]
  memories := [⟨1, 1, 10, "summary", 0⟩]
  runs := [sampleRun 20 (some 1) (some 10), sampleRun 21 (some 2) (some 12),
    sampleRun 22 none none]
  items := [⟨1, 20, 30, 1, none, some "dense", []⟩, ⟨2, 22, 30, 1, none, some "graph", []⟩]
  citations := [⟨1, 20, 30, "snippet", none, none, "upload", none, "label", 1, 0⟩,
    ⟨2, 22, 30, "snippet", none, none, "upload", none, "label", 1, 0⟩]
  paths := [⟨1, 20, .dict [], .dict [], .list [], 0⟩]
  evaluationItems := [⟨40, 50, none, some 20, "dense", "succeeded", none, none, none, none, none, none,
    none, none, none, none, none, []⟩]
  users := [7]
  documentChunks := [30]
  evaluationRuns := [50]
  evaluationCases := []
  evaluationResults := [40]

theorem sample_ok : Constraints sampleDb where
  sessionUser := by decide
  messageSession := by decide
  messageLinked := by decide
  tagSession := by decide
  memorySession := by decide
  memorySource := by decide
  runSession := by decide
  runRequest := by decide
  itemRun := by decide
  itemChunk := by decide
  citationItem := by decide
  pathRun := by decide
  evaluationRun := by decide
  evaluationCase := by decide
  evaluationRetrieval := by decide
  evaluationResult := by decide
  messageChecks := by decide +kernel
  tagsChecked := by decide +kernel
  memoryChecks := by decide +kernel
  runChecks := by decide +kernel
  itemChecks := by decide +kernel
  citationChecks := by decide +kernel
  pathChecks := by decide +kernel
  evaluationChecks := by decide +kernel

theorem session_deleted_sample :
    (deleteSession sampleDb 1).length = 10 ∧
    (execAll sampleDb (deleteSession sampleDb 1)).runs.map (·.retrievalRunId) = [21, 22] ∧
    (∀ state ∈ states sampleDb (deleteSession sampleDb 1), Constraints state) ∧
    Complete sampleDb (execAll sampleDb (deleteSession sampleDb 1)) 1 ∧
    Framed sampleDb (execAll sampleDb (deleteSession sampleDb 1)) 1 :=
  ⟨by decide, by decide, session_deleted sampleDb sample_ok ⟨by decide, by decide⟩ 1⟩

end Results

end RagProject.Chat.Deletion
