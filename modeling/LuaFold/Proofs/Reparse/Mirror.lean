import LuaFold.Proofs.Reparse.Numbering
import LuaFold.Proofs.Reparse.Pool

/-!
# Pools that mirror one another

One pool mirrors what another one has of a document when it has just that, under the numbers of
the document.  A step about the document can then be made in both, with its number replaced, and
a step about any other document goes unnoticed.

The two agree on comparisons of numbers only, because all numbers that are ever compared belong
to the document, or are older than all its submissions under the state at hand.
-/

namespace LuaFold

namespace Reparser

namespace Pool

variable {Document : Type} [DecidableEq Document] {View : Type} {all : List Document}
  {document : Document} {pool whole part : Pool Document View}

/-- Every number that a pool knows is that of a submission of the document it is known for. -/
structure Issues (all : List Document) (pool : Pool Document View) : Prop where
  queue : Genuinely all pool.state.reparser.queue
  generations : ∀ submission ∈ pool.state.reparser.queue,
    Issued all submission.document submission.generation
  running : Genuinely all pool.running
  received : Genuinely all pool.state.reparser.received
  sent : Genuinely all pool.sent
  skipped : Genuinely all pool.skipped
  states : ∀ other known, pool.state.reparser.documents.get? other = some known →
    Issued all other known.generation
  newest : ∀ other generation sequence, Issued all other generation →
    pool.state.reparser.newest.get? generation = some sequence → Issued all other sequence

/-- One pool has of a document what another one has, under the numbers of the document. -/
structure Mirrors
    (document : Document)
    (all : List Document)
    (whole part : Pool Document View) :
    Prop where
  coalesce : part.state.reparser.coalesce = whole.state.reparser.coalesce
  lastSequence : part.state.reparser.lastSequence =
    rank document all whole.state.reparser.lastSequence
  newest : ∀ generation, Issued all document generation →
    part.state.reparser.newest.get? (rank document all generation) =
      (whole.state.reparser.newest.get? generation).map (rank document all)
  look : part.state.look document =
    renumberLook (rank document all) (whole.state.look document)
  queue : part.state.reparser.queue = narrow document all whole.state.reparser.queue
  received : part.state.reparser.received = narrow document all whole.state.reparser.received
  running : part.running = narrow document all whole.running
  sent : part.sent = narrow document all whole.sent
  skipped : part.skipped = narrow document all whole.skipped
  delivered : part.delivered = narrow document all whole.delivered

theorem Mirrors.documents (mirrors : Mirrors document all whole part) :
    part.state.reparser.documents.get? document =
      (whole.state.reparser.documents.get? document).map
        (DocumentState.renumber (rank document all)) :=
  congrArg Prod.fst mirrors.look

theorem Mirrors.views (mirrors : Mirrors document all whole part) :
    part.state.views.get? document = whole.state.views.get? document :=
  congrArg Prod.snd mirrors.look

theorem Issues.new
    (all : List Document)
    (coalesce : Bool) :
    Issues all (new coalesce : Pool Document View) := by
  constructor
  case states => intro other known found; cases found
  case newest => intro other generation sequence issued found; cases found
  all_goals exact fun item member => nomatch member

theorem Mirrors.new
    (document : Document)
    (all : List Document)
    (coalesce : Bool) :
    Mirrors document all (new coalesce : Pool Document View) (new coalesce) :=
  ⟨rfl, rfl, fun _ _ => rfl, rfl, rfl, rfl, rfl, rfl, rfl, rfl⟩

/-! ## Workers -/

/-- A submission of the document is skipped in both runs or in neither. -/
theorem Mirrors.skips
    (mirrors : Mirrors document all whole part)
    (issues : Issues all whole)
    {submission : Submission Document}
    (queued : submission ∈ whole.state.reparser.queue)
    (same : submission.document = document) :
    part.state.reparser.skips (Numbered.renumber (rank document all) submission) =
      whole.state.reparser.skips submission := by
  have issued := issues.queue submission queued
  have generated := issues.generations submission queued
  rw [same] at generated
  have newest := mirrors.newest _ generated
  rw [Reparser.skips, Reparser.skips, mirrors.coalesce, superseded, superseded]
  congr 1
  rw [decide_eq_decide, not_iff_not]
  change part.state.reparser.newest.get? (rank document all submission.generation) =
    some (rank document all submission.sequence) ↔ _
  rw [newest]
  cases kept : whole.state.reparser.newest.get? submission.generation with
  | none => simp
  | some sequence =>
      have kept := issues.newest document submission.generation sequence generated kept
      rw [Option.map_some, Option.some_inj, Option.some_inj]
      exact kept.rank_inj (same ▸ issued)

theorem Issues.start
    (issues : Issues all whole)
    {submission : Submission Document}
    (queued : submission ∈ whole.state.reparser.queue)
    (faulty : Bool) :
    Issues all (whole.start submission faulty) := by
  have issued := issues.queue submission queued
  have remains : (whole.state.reparser.queue.filter fun other =>
      other.sequence ≠ submission.sequence).Sublist whole.state.reparser.queue :=
    List.filter_sublist
  refine { issues with
    queue := issues.queue.sublist remains
    generations := fun other member => issues.generations other (remains.subset member)
    running := issues.running.append ?_
    skipped := issues.skipped.append ?_ }
  · intro cycle member
    split at member
    · cases member
    · cases List.mem_singleton.mp member
      exact issued
  · intro other member
    split at member
    · cases List.mem_singleton.mp member
      exact issued
    · cases member

theorem Issues.pickUp
    (issues : Issues all whole)
    (sequence : Nat)
    (faulty : Bool) :
    Issues all (whole.pickUp sequence faulty) := by
  rw [Pool.pickUp]
  split
  · exact issues
  · next submission found => exact issues.start (List.mem_of_find?_eq_some found) faulty

/-- A submission of another document is picked up unnoticed. -/
theorem Mirrors.start_other
    (mirrors : Mirrors document all whole part)
    (issues : Issues all whole)
    {submission : Submission Document}
    (foreign : ¬ Issued all document submission.sequence)
    (different : submission.document ≠ document)
    (faulty : Bool) :
    Mirrors document all (whole.start submission faulty) part := by
  have skipped : narrow document all
      (if whole.state.reparser.skips submission then [submission] else []) = [] := by
    split
    · exact narrow_of_ne different
    · rfl
  have running : narrow document all
      (if whole.state.reparser.skips submission then [] else [(submission, faulty)]) = [] := by
    split
    · rfl
    · exact narrow_of_ne different
  refine { mirrors with
    queue := mirrors.queue.trans (narrow_filter_of_not_issued issues.queue foreign).symm
    running := ?_
    skipped := ?_ }
  · rw [Pool.start, narrow_append, running, List.append_nil]
    exact mirrors.running
  · rw [Pool.start, narrow_append, skipped, List.append_nil]
    exact mirrors.skipped

theorem Mirrors.start
    (mirrors : Mirrors document all whole part)
    (issues : Issues all whole)
    {submission : Submission Document}
    (queued : submission ∈ whole.state.reparser.queue)
    (same : submission.document = document)
    (faulty : Bool) :
    Mirrors document all (whole.start submission faulty)
      (part.start (Numbered.renumber (rank document all) submission) faulty) := by
  have issued : Issued all document submission.sequence := same ▸ issues.queue submission queued
  have skipped : narrow document all [submission] =
      [Numbered.renumber (rank document all) submission] :=
    narrow_of_same same
  have running : narrow document all [(submission, faulty)] =
      [(Numbered.renumber (rank document all) submission, faulty)] :=
    narrow_of_same same
  refine { mirrors with
    queue := ?_
    running := ?_
    skipped := ?_ }
  · rw [Pool.start, Pool.start, mirrors.queue]
    exact filter_narrow issues.queue issued
  · rw [Pool.start, Pool.start, mirrors.skips issues queued same, mirrors.running, narrow_append]
    split
    · rfl
    · rw [running]
  · rw [Pool.start, Pool.start, mirrors.skips issues queued same, mirrors.skipped, narrow_append]
    split
    · rw [skipped]
    · rfl

theorem Issues.finish
    (issues : Issues all whole)
    (sequence : Nat) :
    Issues all (whole.finish sequence) := by
  rw [Pool.finish]
  split
  · exact issues
  · next cycle found =>
    have issued := issues.running cycle (List.mem_of_find?_eq_some found)
    have sends : Genuinely all [cycle.1.update cycle.2] := by
      intro update member
      cases List.mem_singleton.mp member
      exact issued
    exact { issues with
      running := issues.running.sublist List.filter_sublist
      received := issues.received.append sends
      sent := issues.sent.append sends }

/-- The result of a submission of another document is sent unnoticed. -/
theorem Mirrors.send_other
    (mirrors : Mirrors document all whole part)
    (issues : Issues all whole)
    {cycle : Submission Document × Bool}
    (foreign : ¬ Issued all document cycle.1.sequence)
    (different : cycle.1.document ≠ document) :
    Mirrors document all (whole.send cycle) part := by
  have sends : narrow document all [cycle.1.update cycle.2] = [] :=
    narrow_of_ne different
  refine { mirrors with
    running := mirrors.running.trans (narrow_filter_of_not_issued issues.running foreign).symm
    received := ?_
    sent := ?_ }
  · rw [Pool.send, narrow_append, sends, List.append_nil]
    exact mirrors.received
  · rw [Pool.send, narrow_append, sends, List.append_nil]
    exact mirrors.sent

theorem Mirrors.send
    (mirrors : Mirrors document all whole part)
    (issues : Issues all whole)
    {cycle : Submission Document × Bool}
    (running : cycle ∈ whole.running)
    (same : cycle.1.document = document) :
    Mirrors document all (whole.send cycle)
      (part.send (Numbered.renumber (rank document all) cycle)) := by
  have issued : Issued all document cycle.1.sequence := same ▸ issues.running cycle running
  have sends : narrow document all [cycle.1.update cycle.2] =
      [renumbered (rank document all) (cycle.1.update cycle.2)] :=
    narrow_of_same same
  refine { mirrors with
    received := ?_
    running := ?_
    sent := ?_ }
  · rw [Pool.send, Pool.send, narrow_append, sends, mirrors.received]
    rfl
  · rw [Pool.send, Pool.send, mirrors.running]
    exact filter_narrow issues.running issued
  · rw [Pool.send, Pool.send, narrow_append, sends, mirrors.sent]
    rfl

/-- A submission that is queued in one run is queued in the other. -/
theorem Mirrors.find?_queue
    (mirrors : Mirrors document all whole part)
    (issues : Issues all whole)
    {sequence : Nat}
    (issued : Issued all document sequence) :
    part.state.reparser.queue.find? (fun submission =>
        submission.sequence = rank document all sequence) =
      (whole.state.reparser.queue.find? fun submission => submission.sequence = sequence).map
        (Numbered.renumber (rank document all)) := by
  rw [mirrors.queue]
  exact find?_narrow issues.queue issued

theorem Mirrors.find?_running
    (mirrors : Mirrors document all whole part)
    (issues : Issues all whole)
    {sequence : Nat}
    (issued : Issued all document sequence) :
    part.running.find? (fun cycle => cycle.1.sequence = rank document all sequence) =
      (whole.running.find? fun cycle => cycle.1.sequence = sequence).map
        (Numbered.renumber (rank document all)) := by
  rw [mirrors.running]
  exact find?_narrow issues.running issued

theorem Mirrors.pickUp
    (mirrors : Mirrors document all whole part)
    (issues : Issues all whole)
    {sequence : Nat}
    (issued : Issued all document sequence)
    (faulty : Bool) :
    Mirrors document all (whole.pickUp sequence faulty)
      (part.pickUp (rank document all sequence) faulty) := by
  rw [Pool.pickUp, Pool.pickUp, mirrors.find?_queue issues issued]
  cases found : whole.state.reparser.queue.find? fun submission =>
      submission.sequence = sequence with
  | none => exact mirrors
  | some submission =>
      have queued := List.mem_of_find?_eq_some found
      have numbered : submission.sequence = sequence := by simpa using List.find?_some found
      exact mirrors.start issues queued (issues.queue.document_eq issued queued numbered) faulty

theorem Mirrors.pickUp_other
    (mirrors : Mirrors document all whole part)
    (issues : Issues all whole)
    {sequence : Nat}
    (foreign : ¬ Issued all document sequence)
    (faulty : Bool) :
    Mirrors document all (whole.pickUp sequence faulty) part := by
  rw [Pool.pickUp]
  split
  · exact mirrors
  · next submission found =>
    have issued := issues.queue submission (List.mem_of_find?_eq_some found)
    have numbered : submission.sequence = sequence := by simpa using List.find?_some found
    subst numbered
    exact mirrors.start_other issues foreign (fun same => foreign (same ▸ issued)) faulty

theorem Mirrors.finish
    (mirrors : Mirrors document all whole part)
    (issues : Issues all whole)
    {sequence : Nat}
    (issued : Issued all document sequence) :
    Mirrors document all (whole.finish sequence) (part.finish (rank document all sequence)) := by
  rw [Pool.finish, Pool.finish, mirrors.find?_running issues issued]
  cases found : whole.running.find? fun cycle => cycle.1.sequence = sequence with
  | none => exact mirrors
  | some cycle =>
      have running := List.mem_of_find?_eq_some found
      have numbered : cycle.1.sequence = sequence := by simpa using List.find?_some found
      exact mirrors.send issues running (issues.running.document_eq issued running numbered)

theorem Mirrors.finish_other
    (mirrors : Mirrors document all whole part)
    (issues : Issues all whole)
    {sequence : Nat}
    (foreign : ¬ Issued all document sequence) :
    Mirrors document all (whole.finish sequence) part := by
  rw [Pool.finish]
  split
  · exact mirrors
  · next cycle found =>
    have issued := issues.running cycle (List.mem_of_find?_eq_some found)
    have numbered : cycle.1.sequence = sequence := by simpa using List.find?_some found
    subst numbered
    exact mirrors.send_other issues foreign fun same => foreign (same ▸ issued)

/-! ## The channel -/

theorem Issues.collect
    (issues : Issues all whole)
    (sequence : Nat) :
    Issues all (whole.collect sequence) :=
  { issues with received := issues.received.sublist List.filter_sublist }

theorem Mirrors.collect
    (mirrors : Mirrors document all whole part)
    (issues : Issues all whole)
    {sequence : Nat}
    (issued : Issued all document sequence) :
    Mirrors document all (whole.collect sequence)
      (part.collect (rank document all sequence)) := by
  refine { mirrors with received := ?_ }
  rw [Pool.collect, Pool.collect, mirrors.received]
  exact filter_narrow issues.received issued

theorem Mirrors.collect_other
    (mirrors : Mirrors document all whole part)
    (issues : Issues all whole)
    {sequence : Nat}
    (foreign : ¬ Issued all document sequence) :
    Mirrors document all (whole.collect sequence) part :=
  { mirrors with
    received := mirrors.received.trans
      (narrow_filter_of_not_issued issues.received foreign).symm }

/-- What has been sent in one run has been sent in the other. -/
theorem Mirrors.result?
    (mirrors : Mirrors document all whole part)
    (issues : Issues all whole)
    {sequence : Nat}
    (issued : Issued all document sequence) :
    part.result? (rank document all sequence) =
      (whole.result? sequence).map (renumbered (rank document all)) := by
  rw [Pool.result?, Pool.result?, mirrors.sent]
  exact find?_narrow issues.sent issued

theorem Issues.of_result?
    (issues : Issues all whole)
    {sequence : Nat}
    {update : Update Document}
    (sent : whole.result? sequence = some update) :
    Issued all update.document sequence := by
  have issued := issues.sent update (List.mem_of_find?_eq_some sent)
  have numbered : update.sequence = sequence := by simpa using List.find?_some sent
  exact numbered ▸ issued

theorem Issues.filterMap_result?
    (issues : Issues all whole)
    (sequences : List Nat) :
    Genuinely all (sequences.filterMap whole.result?) := by
  intro update member
  obtain ⟨sequence, _, sent⟩ := List.mem_filterMap.mp member
  exact issues.sent update (List.mem_of_find?_eq_some sent)

theorem Mirrors.toList_result?
    (mirrors : Mirrors document all whole part)
    (issues : Issues all whole)
    (sequence : Nat) :
    ((renumber? document all sequence).bind part.result?).toList =
      narrow document all (whole.result? sequence).toList := by
  by_cases issued : Issued all document sequence
  · rw [renumber?_of_issued issued, Option.bind_some, mirrors.result? issues issued]
    cases sent : whole.result? sequence with
    | none => rfl
    | some update =>
        exact (narrow_of_same ((issues.of_result? sent).document_eq issued)).symm
  · rw [renumber?_of_not_issued issued]
    cases sent : whole.result? sequence with
    | none => rfl
    | some update =>
        have different : update.document ≠ document := fun same =>
          issued (same ▸ issues.of_result? sent)
        exact (narrow_of_ne different).symm

/-- A batch chosen by numbers, narrowed to a document. -/
theorem Mirrors.filterMap_result?
    (mirrors : Mirrors document all whole part)
    (issues : Issues all whole)
    (sequences : List Nat) :
    (sequences.filterMap (renumber? document all)).filterMap part.result? =
      narrow document all (sequences.filterMap whole.result?) := by
  rw [List.filterMap_filterMap, List.filterMap_eq_flatMap_toList,
    List.filterMap_eq_flatMap_toList]
  induction sequences with
  | nil => rfl
  | cons sequence sequences ih =>
      rw [List.flatMap_cons, List.flatMap_cons, narrow_append, mirrors.toList_result? issues, ih]

/-! ## Submissions -/

theorem Issues.generated
    (issues : Issues all whole)
    {other : Document}
    (next : Issued all other whole.state.reparser.nextSequence) :
    Issued all other (whole.state.reparser.stateFor other).generation := by
  rw [stateFor]
  cases found : whole.state.reparser.documents.get? other with
  | none => exact next
  | some known => exact issues.states other known found

theorem Issues.schedule
    (issues : Issues all whole)
    {other : Document}
    (next : Issued all other whole.state.reparser.nextSequence)
    (text : Text) :
    Issues all (whole.amid ⟨whole.state.reparser.schedule other text, whole.state.views⟩) := by
  have generated := issues.generated next
  refine { issues with
    queue := issues.queue.append ?_
    generations := ?_
    states := ?_
    newest := ?_ }
  · intro submission member
    cases List.mem_singleton.mp member
    exact next
  · intro submission member
    rcases List.mem_append.mp member with queued | added
    · exact issues.generations submission queued
    · cases List.mem_singleton.mp added
      exact generated
  · intro document known found
    simp only [amid, Reparser.schedule, Table.get?_set] at found
    split at found
    · next same =>
      cases found
      exact same ▸ generated
    · exact issues.states document known found
  · intro document generation sequence issued found
    simp only [amid, Reparser.schedule, Table.get?_set] at found
    split at found
    · next same =>
      cases found
      have same := (same ▸ generated).document_eq issued
      exact same ▸ next
    · exact issues.newest document generation sequence issued found

/-- A submission of another document does not count, and its generation is none of the document. -/
theorem Mirrors.schedule_other
    (mirrors : Mirrors document all whole part)
    (issues : Issues all whole)
    {other : Document}
    (different : other ≠ document)
    (next : Issued all other whole.state.reparser.nextSequence)
    (text : Text) :
    Mirrors document all
      (whole.amid ⟨whole.state.reparser.schedule other text, whole.state.views⟩) part := by
  have generated := issues.generated next
  have elsewhere : ¬ all[whole.state.reparser.lastSequence]? = some document := fun here =>
    different (next.document_eq (issued_succ.mpr here))
  refine { mirrors with
    lastSequence := ?_
    newest := ?_
    look := ?_
    queue := ?_ }
  · simp [amid, Reparser.schedule, nextSequence, rank_succ, elsewhere, mirrors.lastSequence]
  · intro generation issued
    have apart : (whole.state.reparser.stateFor other).generation ≠ generation := fun same =>
      different ((same ▸ generated).document_eq issued)
    simp only [amid, Reparser.schedule, Table.get?_set_of_ne _ apart]
    exact mirrors.newest generation issued
  · rw [mirrors.look]
    simp [amid, Applied.look, Reparser.schedule, Table.get?_set_of_ne _ different]
  · have added : narrow document all [Submission.mk other whole.state.reparser.nextSequence
        (whole.state.reparser.stateFor other).generation text] = [] :=
      narrow_of_ne different
    simp only [amid, Reparser.schedule, narrow_append, added, List.append_nil]
    exact mirrors.queue

/-- A document that has no state gets the same new one in both runs. -/
theorem Mirrors.stateFor
    (mirrors : Mirrors document all whole part)
    (next : Issued all document whole.state.reparser.nextSequence) :
    part.state.reparser.stateFor document =
      (whole.state.reparser.stateFor document).renumber (rank document all) := by
  rw [Reparser.stateFor, Reparser.stateFor, mirrors.documents, nextSequence, mirrors.lastSequence]
  cases whole.state.reparser.documents.get? document with
  | some known => rfl
  | none => simp [DocumentState.renumber, nextSequence, rank_succ, issued_succ.mp next]

theorem Mirrors.schedule
    (mirrors : Mirrors document all whole part)
    (issues : Issues all whole)
    (next : Issued all document whole.state.reparser.nextSequence)
    (text : Text) :
    Mirrors document all
      (whole.amid ⟨whole.state.reparser.schedule document text, whole.state.views⟩)
      (part.amid ⟨part.state.reparser.schedule document text, part.state.views⟩) := by
  have generated := issues.generated next
  have sequence : part.state.reparser.nextSequence =
      rank document all whole.state.reparser.nextSequence := by
    simp [nextSequence, rank_succ, issued_succ.mp next, mirrors.lastSequence]
  have state := mirrors.stateFor next
  have added : narrow document all [Submission.mk document whole.state.reparser.nextSequence
      (whole.state.reparser.stateFor document).generation text] = _ :=
    narrow_of_same rfl
  refine { mirrors with
    lastSequence := sequence
    newest := ?_
    look := ?_
    queue := ?_ }
  · intro generation issued
    have same_iff := generated.rank_inj issued
    simp only [amid, Reparser.schedule, Table.get?_set, state, sequence,
      DocumentState.renumber, same_iff]
    split
    · rfl
    · exact mirrors.newest generation issued
  · simp [amid, Applied.look, Reparser.schedule, renumberLook, state, mirrors.views]
  · simp only [amid, Reparser.schedule, narrow_append, mirrors.queue, state, sequence, added]
    rfl

/-! ## Documents and views -/

theorem Issues.forget
    (issues : Issues all whole)
    (other : Document) :
    Issues all (whole.amid ⟨whole.state.reparser.forget other, whole.state.views⟩) := by
  refine { issues with states := ?_ }
  intro document known found
  simp only [amid, Reparser.forget, Table.get?_remove] at found
  split at found
  · cases found
  · exact issues.states document known found

/-- Nothing but the document and its view matters to what is mirrored of a state. -/
theorem Mirrors.amid
    (mirrors : Mirrors document all whole part)
    {documents documents' : Table Document DocumentState}
    {views views' : Table Document View}
    (state : documents'.get? document =
      (documents.get? document).map (DocumentState.renumber (rank document all)))
    (view : views'.get? document = views.get? document) :
    Mirrors document all
      (whole.amid ⟨{ whole.state.reparser with documents := documents }, views⟩)
      (part.amid ⟨{ part.state.reparser with documents := documents' }, views'⟩) :=
  { mirrors with look := Prod.ext state view }

end Pool

end Reparser

end LuaFold
