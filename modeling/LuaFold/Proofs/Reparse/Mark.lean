import LuaFold.Proofs.Reparse.Delivery
import LuaFold.Reparse.Session

/-!
# Views never go back

Each document has a mark: the number of the newest update that its view took, or, without a
state, the number that a new state would start from.  No update up to the mark is taken, and the
mark never falls.  So the numbers that a view takes climb from one mark to the next, also across
states of the document.
-/

namespace LuaFold

namespace Reparser

variable {Document : Type} [DecidableEq Document] {View : Type} [Display View]

/-! ## Climbing -/

/-- The number up to which updates of a document come too late. -/
def Applied.mark (state : Applied Document View) (document : Document) : Nat :=
  ((state.reparser.documents.get? document).map DocumentState.applied).getD
    state.reparser.lastSequence

/-- Numbers that increase, from above one bound up to another. -/
structure Climbs (low high : Nat) (numbers : List Nat) : Prop where
  increasing : numbers.Pairwise (· < ·)
  between : ∀ number ∈ numbers, low < number ∧ number ≤ high
  bounds_le : low ≤ high

theorem Climbs.still {low high : Nat} (bounds_le : low ≤ high) : Climbs low high [] :=
  ⟨.nil, by simp, bounds_le⟩

theorem Climbs.append
    {low middle high : Nat}
    {numbers others : List Nat}
    (before : Climbs low middle numbers)
    (behind : Climbs middle high others) :
    Climbs low high (numbers ++ others) := by
  refine ⟨?_, ?_, before.bounds_le.trans behind.bounds_le⟩
  · refine List.pairwise_append.mpr ⟨before.increasing, behind.increasing, ?_⟩
    intro number first other second
    exact Nat.lt_of_le_of_lt (before.between number first).2 (behind.between other second).1
  · intro number member
    rcases List.mem_append.mp member with first | second
    · exact ⟨(before.between number first).1,
        (before.between number first).2.trans behind.bounds_le⟩
    · exact ⟨Nat.lt_of_le_of_lt before.bounds_le (behind.between number second).1,
        (behind.between number second).2⟩

/-- The numbers of the updates of a document. -/
def sequencesOf (document : Document) (updates : List (Update Document)) : List Nat :=
  (updatesOf document updates).map Update.sequence

theorem sequencesOf_append
    (document : Document)
    (first second : List (Update Document)) :
    sequencesOf document (first ++ second) =
      sequencesOf document first ++ sequencesOf document second := by
  simp [sequencesOf, updatesOf]

/-- Applying an update moves the mark of its document to it, if its view takes it. -/
theorem Applied.climbs_apply
    (state : Applied Document View)
    (update : Update Document)
    (document : Document) :
    Climbs (state.mark document) ((state.apply update).1.mark document)
      (sequencesOf document (state.taken [update])) := by
  rcases state.apply_cases update with dropped | ⟨known, view, stated, _, newer, applied⟩
  · simpa [Applied.taken, dropped, sequencesOf, updatesOf] using Climbs.still (Nat.le_refl _)
  · rcases eq_or_ne update.document document with rfl | different
    · have before : state.mark update.document = known.applied := by
        rw [Applied.mark, stated]
        rfl
      have after : (state.apply update).1.mark update.document = update.sequence := by
        rw [Applied.mark, applied, Table.get?_set_self]
        rfl
      have only : sequencesOf update.document (state.taken [update]) = [update.sequence] := by
        simp [sequencesOf, updatesOf, Applied.taken, applied]
      rw [before, after, only]
      exact ⟨List.pairwise_singleton _ _, by simp [newer], Nat.le_of_lt newer⟩
    · have same : (state.apply update).1.mark document = state.mark document := by
        rw [Applied.mark, applied, Table.get?_set_of_ne _ different]
        rfl
      have none_taken : sequencesOf document (state.taken [update]) = [] := by
        simp [sequencesOf, updatesOf, Applied.taken, applied, different]
      rw [same, none_taken]
      exact .still (Nat.le_refl _)

theorem Applied.climbs_applyAll
    (state : Applied Document View)
    (updates : List (Update Document))
    (document : Document) :
    Climbs (state.mark document) ((state.applyAll updates).1.mark document)
      (sequencesOf document (state.taken updates)) := by
  induction updates generalizing state with
  | nil => exact .still (Nat.le_refl _)
  | cons update updates ih =>
      rw [Applied.applyAll_cons, Applied.taken_cons, sequencesOf_append]
      exact (state.climbs_apply update document).append (ih _)

/-- Applying updates that are within a bound leaves a mark within it. -/
theorem Applied.mark_applyAll_le
    (state : Applied Document View)
    {updates : List (Update Document)}
    {document : Document}
    {bound : Nat}
    (marked : state.mark document ≤ bound)
    (within : ∀ update ∈ updates, update.sequence ≤ bound) :
    (state.applyAll updates).1.mark document ≤ bound := by
  induction updates generalizing state with
  | nil => exact marked
  | cons update updates ih =>
      rw [Applied.applyAll_cons]
      refine ih _ ?_ fun other member => within other (List.mem_cons_of_mem _ member)
      rcases state.apply_cases update with dropped | ⟨known, view, _, _, _, applied⟩
      · rw [dropped]
        exact marked
      · rcases eq_or_ne update.document document with rfl | different
        · rw [Applied.mark, applied, Table.get?_set_self]
          exact within update List.mem_cons_self
        · rw [Applied.mark, applied, Table.get?_set_of_ne _ different]
          exact marked

/-! ## Marks never fall -/

section Marks

omit [Display View]

variable {before after state : Applied Document View}

/-- No mark and no number in flight is beyond the number of the last submission. -/
structure Applied.Within (state : Applied Document View) : Prop where
  mark_le : ∀ document, state.mark document ≤ state.reparser.lastSequence
  inFlight_le : ∀ entry ∈ state.reparser.inFlight, entry.2 ≤ state.reparser.lastSequence

/-- No mark has fallen, and none is beyond the last submission. -/
structure Applied.Rises (before after : Applied Document View) : Prop where
  mark_le : ∀ document, before.mark document ≤ after.mark document
  within : after.Within

theorem Applied.within_new (coalesce : Bool) :
    Applied.Within (⟨.new coalesce, .empty⟩ : Applied Document View) :=
  ⟨fun _ => Nat.le_refl _, by simp [inFlight, unfinished, new]⟩

/-- Marks stay where neither states nor the number of submissions change. -/
theorem Applied.Within.keep
    (within : before.Within)
    (documents : after.reparser.documents = before.reparser.documents)
    (lastSequence : after.reparser.lastSequence = before.reparser.lastSequence)
    (inFlight : ∀ entry ∈ after.reparser.inFlight,
      entry ∈ before.reparser.inFlight ∨ entry.2 ≤ before.reparser.lastSequence) :
    before.Rises after := by
  have same : ∀ document, after.mark document = before.mark document := by
    intro document
    rw [Applied.mark, Applied.mark, documents, lastSequence]
  refine ⟨fun document => (same document).ge, fun document => ?_, fun entry member => ?_⟩
  · rw [same, lastSequence]
    exact within.mark_le document
  · rw [lastSequence]
    exact (inFlight entry member).elim (within.inFlight_le entry) id

/-- A new state starts from the mark that its document had without one. -/
theorem Applied.Within.schedule
    (within : state.Within)
    (document : Document)
    (text : Text) :
    state.Rises ⟨state.reparser.schedule document text, state.views⟩ := by
  have marks : ∀ other, state.mark other ≤
        Applied.mark ⟨state.reparser.schedule document text, state.views⟩ other ∧
      Applied.mark ⟨state.reparser.schedule document text, state.views⟩ other ≤
        state.reparser.lastSequence + 1 := by
    intro other
    have bound := within.mark_le other
    rw [Applied.mark] at bound
    rw [Applied.mark, Applied.mark]
    dsimp only [Reparser.schedule]
    rcases eq_or_ne document other with rfl | different
    · rw [Table.get?_set_self, stateFor]
      cases stated : state.reparser.documents.get? document with
      | none => simp
      | some known =>
          rw [stated] at bound
          exact ⟨Nat.le_refl _, Nat.le_succ_of_le bound⟩
    · rw [Table.get?_set_of_ne _ different]
      cases stated : state.reparser.documents.get? other with
      | none => exact ⟨Nat.le_succ _, Nat.le_refl _⟩
      | some known =>
          rw [stated] at bound
          exact ⟨Nat.le_refl _, Nat.le_succ_of_le bound⟩
  refine ⟨fun other => (marks other).1, fun other => (marks other).2, fun entry member => ?_⟩
  rw [inFlight_schedule] at member
  rcases List.mem_append.mp member with earlier | last
  · exact Nat.le_succ_of_le (within.inFlight_le entry earlier)
  · rw [List.mem_singleton.mp last]
    exact Nat.le_refl _

/-- A document that is forgotten is marked with the last submission. -/
theorem Applied.mark_forget
    (state : Applied Document View)
    (document : Document) :
    Applied.mark ⟨state.reparser.forget document, state.views⟩ document =
      state.reparser.lastSequence := by
  rw [Applied.mark, forget, Table.get?_remove_self]
  rfl

theorem Applied.Within.forget
    (within : state.Within)
    (document : Document) :
    state.Rises ⟨state.reparser.forget document, state.views⟩ := by
  have marks : ∀ other, state.mark other ≤
        Applied.mark ⟨state.reparser.forget document, state.views⟩ other ∧
      Applied.mark ⟨state.reparser.forget document, state.views⟩ other ≤
        state.reparser.lastSequence := by
    intro other
    rcases eq_or_ne document other with rfl | different
    · rw [Applied.mark_forget]
      exact ⟨within.mark_le document, Nat.le_refl _⟩
    · have same : Applied.mark ⟨state.reparser.forget document, state.views⟩ other =
          state.mark other := by
        rw [Applied.mark, Reparser.forget, Table.get?_remove_of_ne _ different]
        rfl
      rw [same]
      exact ⟨Nat.le_refl _, within.mark_le other⟩
  exact ⟨fun other => (marks other).1, fun other => (marks other).2, within.inFlight_le⟩

end Marks

omit [DecidableEq Document] in
theorem documents_pickUpFront
    (faulty : Nat → Bool)
    (reparser : Reparser Document) :
    (reparser.pickUpFront faulty).documents = reparser.documents := by
  rcases pickUpFront_cases faulty reparser with same | ⟨_, _, _, _, ⟨_, skipped⟩ | started⟩
  · rw [same]
  · rw [skipped]
  · rw [started]

omit [DecidableEq Document] in
theorem documents_finish (reparser : Reparser Document) :
    reparser.finish.documents = reparser.documents := by
  rcases finish_cases reparser with same | ⟨_, _, _, finished⟩
  · rw [same]
  · rw [finished]

/-- What is left of a batch comes from the batch. -/
theorem mem_of_mem_newestUpdates
    {updates : List (Update Document)}
    {update : Update Document}
    (member : update ∈ (newestUpdates updates).values) :
    update ∈ updates := by
  induction updates using List.reverseRecOn with
  | nil => cases member
  | append_singleton updates last ih =>
      have replaced : ∀ {kept : Table Document (Update Document)},
          (update ∈ kept.values → update ∈ updates) →
          update ∈ (kept.set last.document last).values → update ∈ updates ++ [last] := by
        intro kept earlier inside
        rcases List.mem_map.mp inside with ⟨entry, listed, rfl⟩
        rcases Table.mem_entries_set listed with rfl | known
        · simp
        · exact List.mem_append_left _ (earlier (List.mem_map_of_mem known))
      rw [newestUpdates, List.foldl_append, List.foldl_cons, List.foldl_nil] at member
      split at member
      · split at member
        · exact List.mem_append_left _ (ih member)
        · exact replaced ih member
      · exact replaced ih member

section Runs

variable {faulty : Nat → Bool} {state : Applied Document View}

/-- No mark falls before the updates of a move are applied. -/
theorem Applied.Within.prepared
    (within : state.Within)
    (move : Move Document View)
    (issued : ∀ update ∈ move.brings, update.sequence ≤ state.reparser.lastSequence) :
    state.Rises (state.prepared faulty move) := by
  have unchanged : state.Rises state := ⟨fun _ => Nat.le_refl _, within⟩
  cases move with
  | step step =>
      cases step with
      | owner call =>
          cases call with
          | schedule document text => exact within.schedule document text
          | forget document => exact within.forget document
          | drain =>
              exact within.keep rfl rfl fun entry member =>
                Or.inl (List.mem_append_right _ member)
          | place document view => exact within.keep rfl rfl fun entry => Or.inl
          | remove document => exact within.keep rfl rfl fun entry => Or.inl
      | pickUp =>
          have recedes := recedes_pickUpFront faulty state.reparser
          exact within.keep (documents_pickUpFront faulty state.reparser) recedes.lastSequence
            fun entry member => Or.inl (recedes.inFlight.subset member)
      | finish =>
          have recedes := recedes_finish state.reparser
          exact within.keep (documents_finish state.reparser) recedes.lastSequence
            fun entry member => Or.inl (recedes.inFlight.subset member)
  | arrive update =>
      refine within.keep rfl rfl fun entry member => ?_
      have split : entry ∈ state.reparser.inFlight ∨
          entry = (update.document, update.sequence) := by
        simp only [Applied.prepared, Applied.make, inFlight, List.map_append, List.mem_append,
          List.map_singleton, List.mem_singleton] at member ⊢
        tauto
      rcases split with known | rfl
      · exact Or.inl known
      · exact Or.inr (issued update List.mem_cons_self)
  | collect count =>
      refine within.keep rfl rfl fun entry member => Or.inl ?_
      refine (List.Sublist.append_right ?_ _).subset member
      exact (List.drop_sublist count state.reparser.received).map _
  | apply update => exact unchanged
  | applyBatch updates => exact unchanged

omit [Display View] in
/-- What is applied with a move comes from submissions, if what the move brings in does. -/
theorem Applied.Within.offers_le
    (within : state.Within)
    {move : Move Document View}
    (issued : ∀ update ∈ move.brings, update.sequence ≤ state.reparser.lastSequence) :
    ∀ update ∈ state.offers move, update.sequence ≤ state.reparser.lastSequence := by
  intro update member
  cases move with
  | step step =>
      cases step with
      | owner call =>
          cases call with
          | drain =>
              have received := mem_of_mem_newestUpdates member
              exact within.inFlight_le (update.document, update.sequence)
                (List.mem_append_left _ (List.mem_map_of_mem received))
          | schedule document text => cases member
          | forget document => cases member
          | place document view => cases member
          | remove document => cases member
      | pickUp => cases member
      | finish => cases member
  | arrive other => cases member
  | collect count => cases member
  | apply other => exact issued update member
  | applyBatch updates => exact issued update (mem_of_mem_newestUpdates member)

theorem Applied.lastSequence_make
    (faulty : Nat → Bool)
    (state : Applied Document View)
    (move : Move Document View) :
    (state.make faulty move).reparser.lastSequence =
      state.reparser.lastSequence + move.submits?.toList.length := by
  cases move with
  | step step =>
      cases step with
      | owner call =>
          cases call with
          | drain =>
              show state.drain.1.reparser.lastSequence = _
              rw [Applied.reparser_drain]
              rfl
          | schedule document text => rfl
          | forget document => rfl
          | place document view => rfl
          | remove document => rfl
      | pickUp => exact (recedes_pickUpFront faulty state.reparser).lastSequence
      | finish => exact (recedes_finish state.reparser).lastSequence
  | arrive update => rfl
  | collect count => rfl
  | apply update =>
      show (state.apply update).1.reparser.lastSequence = _
      rw [Applied.reparser_apply]
      rfl
  | applyBatch updates =>
      show (state.applyBatch updates).1.reparser.lastSequence = _
      rw [Applied.applyBatch, Applied.reparser_applyAll]
      rfl

/-- A move lets the views of a document climb from its mark before to its mark after. -/
theorem Applied.Within.make
    (within : state.Within)
    (move : Move Document View)
    (issued : ∀ update ∈ move.brings, update.sequence ≤ state.reparser.lastSequence) :
    (state.make faulty move).Within ∧
      ∀ document, Climbs (state.mark document) ((state.make faulty move).mark document)
        (sequencesOf document (state.delivers move)) := by
  have prepares : state.Rises (state.prepared faulty move) := within.prepared move issued
  have submitted := state.lastSequence_make faulty move
  rw [Applied.make_eq, Applied.reparser_applyAll] at submitted
  have offered : ∀ update ∈ state.offers move,
      update.sequence ≤ (state.prepared faulty move).reparser.lastSequence := by
    intro update member
    rw [submitted]
    exact Nat.le_add_right_of_le (within.offers_le issued update member)
  rw [Applied.make_eq, Applied.delivers_eq faulty]
  refine ⟨⟨fun document => ?_, fun entry member => ?_⟩, fun document => ?_⟩
  · rw [Applied.reparser_applyAll]
    exact Applied.mark_applyAll_le _ (prepares.within.mark_le document) offered
  · rw [Applied.reparser_applyAll] at member ⊢
    exact prepares.within.inFlight_le entry member
  · exact (Climbs.still (prepares.mark_le document)).append (Applied.climbs_applyAll _ _ document)

omit [DecidableEq Document] [Display View] in
theorem submissions_append
    (moves : List (Move Document View))
    (move : Move Document View) :
    (submissions (moves ++ [move])).length =
      (submissions moves).length + move.submits?.toList.length := by
  rw [submissions, submissions, List.filterMap_append]
  cases submitted : move.submits? with
  | none => simp [submitted]
  | some document => simp [submitted]

omit [DecidableEq Document] [Display View] in
theorem le_length_of_mem_submissions
    {moves : List (Move Document View)}
    {document : Document}
    {sequence : Nat}
    (submitted : (document, sequence) ∈ submissions moves) :
    sequence ≤ (submissions moves).length := by
  have bound := List.snd_lt_add_of_mem_zipIdx submitted
  rw [submissions, List.length_zipIdx]
  omega

omit [DecidableEq Document] [Display View] in
theorem Genuine.unsnoc
    {moves : List (Move Document View)}
    {move : Move Document View}
    (genuine : Genuine (moves ++ [move])) :
    Genuine moves ∧
      ∀ update ∈ move.brings, (update.document, update.sequence) ∈ submissions moves := by
  generalize whole : moves ++ [move] = all at genuine
  cases genuine with
  | nil => simp at whole
  | append earlier last issued =>
      obtain ⟨rfl, same⟩ := List.append_inj' whole rfl
      cases List.singleton_inj.mp same
      exact ⟨earlier, issued⟩

/-- Submissions are numbered by their count, and no mark is beyond it. -/
theorem Genuine.within
    {moves : List (Move Document View)}
    (genuine : Genuine moves)
    (coalesce : Bool)
    (faulty : Nat → Bool) :
    (reached coalesce faulty moves).reparser.lastSequence = (submissions moves).length ∧
      (reached coalesce faulty moves).Within := by
  induction genuine with
  | nil => exact ⟨rfl, Applied.within_new coalesce⟩
  | @append moves earlier move issued ih =>
      obtain ⟨counted, within⟩ := ih
      rw [reached_append, Applied.lastSequence_make, counted, submissions_append]
      refine ⟨rfl, (within.make move fun update member => ?_).1⟩
      rw [counted]
      exact le_length_of_mem_submissions (issued update member)

omit [DecidableEq Document] [Display View] in
/-- The first part of a run brings in only what was submitted in it. -/
theorem Genuine.earlier
    {before : List (Move Document View)}
    {after : List (Move Document View)}
    (genuine : Genuine (before ++ after)) :
    Genuine before := by
  induction after using List.reverseRecOn with
  | nil => simpa using genuine
  | append_singleton after move ih =>
      rw [← List.append_assoc] at genuine
      exact ih genuine.unsnoc.1

/-- In a part of a run a document climbs from its mark before to its mark after. -/
theorem Genuine.climbs
    {before : List (Move Document View)}
    (after : List (Move Document View))
    (genuine : Genuine (before ++ after))
    (coalesce : Bool)
    (faulty : Nat → Bool)
    (document : Document) :
    ∃ late, deliveries coalesce faulty (before ++ after) =
        deliveries coalesce faulty before ++ late ∧
      Climbs ((reached coalesce faulty before).mark document)
        ((reached coalesce faulty (before ++ after)).mark document)
        (sequencesOf document late) := by
  induction after using List.reverseRecOn with
  | nil =>
      rw [List.append_nil]
      exact ⟨[], by simp, .still (Nat.le_refl _)⟩
  | append_singleton after move ih =>
      rw [← List.append_assoc] at genuine ⊢
      obtain ⟨earlier, issued⟩ := genuine.unsnoc
      obtain ⟨late, delivered, climbs⟩ := ih earlier
      obtain ⟨counted, within⟩ := earlier.within coalesce faulty
      refine ⟨late ++ (reached coalesce faulty (before ++ after)).delivers move, ?_, ?_⟩
      · rw [deliveries_append, delivered, List.append_assoc]
      · rw [reached_append, sequencesOf_append]
        refine climbs.append ((within.make move fun update member => ?_).2 document)
        rw [counted]
        exact le_length_of_mem_submissions (issued update member)

end Runs

/--
The numbers of the updates that the view of a document takes increase over a whole run, whatever
is delivered when and how often, and however often the document is forgotten.  Nothing that was
submitted before it was forgotten reaches its view later.  What a view takes is just what it is
refreshed with, as long as it is not replaced.
-/
theorem sequences_increase
    (coalesce : Bool)
    (faulty : Nat → Bool)
    {moves : List (Move Document View)}
    (genuine : Genuine moves)
    (document : Document) :
    (sequencesOf document (deliveries coalesce faulty moves)).Pairwise (· < ·) ∧
      (∀ before after, moves = before ++ .step (.owner (.forget document)) :: after →
        ∃ late, deliveries coalesce faulty moves = deliveries coalesce faulty before ++ late ∧
          ∀ update ∈ updatesOf document late,
            (document, update.sequence) ∉ submissions before) ∧
      ∀ before move after, moves = before ++ move :: after → ¬ move.Replaces document →
        ∃ taken, deliveries coalesce faulty (before ++ [move]) =
            deliveries coalesce faulty before ++ taken ∧
          (reached coalesce faulty (before ++ [move])).views.get? document =
            ((reached coalesce faulty before).views.get? document).map fun view =>
              refreshAll view (updatesOf document taken) := by
  refine ⟨?_, ?_, ?_⟩
  · have all : Genuine ([] ++ moves) := genuine
    obtain ⟨late, delivered, climbs⟩ := all.climbs moves coalesce faulty document
    have whole : deliveries coalesce faulty moves = late := delivered
    rw [whole]
    exact climbs.increasing
  · intro before after split
    have whole : moves = (before ++ [.step (.owner (.forget document))]) ++ after := by
      rw [split, List.append_assoc]
      rfl
    rw [whole] at genuine
    obtain ⟨counted, _⟩ := genuine.earlier.earlier.within coalesce faulty
    obtain ⟨late, delivered, climbs⟩ := genuine.climbs after coalesce faulty document
    refine ⟨late, ?_, fun update member submitted => ?_⟩
    · have nothing : (reached coalesce faulty before).delivers
          (.step (.owner (.forget document))) = [] := rfl
      rw [whole, delivered, deliveries_append, nothing, List.append_nil]
    · -- the mark of a forgotten document is the number of submissions up to then
      have above := (climbs.between update.sequence (List.mem_map_of_mem member)).1
      have marked : (reached coalesce faulty before).make faulty
          (.step (.owner (.forget document))) = ⟨_, _⟩ := rfl
      rw [reached_append, marked, Applied.mark_forget, counted] at above
      exact Nat.not_lt.mpr (le_length_of_mem_submissions submitted) above
  · intro before move after _ keeps
    refine ⟨_, deliveries_append coalesce faulty before move, ?_⟩
    rw [reached_append]
    exact Applied.get?_views_make faulty _ keeps

/-- The result of the first submission of a document, and that of the second. -/
def firstResult : Update Nat :=
  ⟨0, 1, ['x'], []⟩

def secondResult : Update Nat :=
  ⟨0, 2, ['y'], []⟩

/-- A document is forgotten and submitted again while its first result is still held back. -/
def reopening : List (Move Nat Recorder) :=
  [.step (.owner (.place 0 .blank)), .step (.owner (.schedule 0 ['x'])), .apply firstResult,
    .step (.owner (.forget 0))]

/-- The first result is delivered once more, behind and among results of the new state. -/
def redelivering : List (Move Nat Recorder) :=
  [.step (.owner (.schedule 0 ['y'])), .arrive firstResult,
    .applyBatch [secondResult, firstResult], .step (.owner .drain)]

theorem sequences_increase_reopening :
    Genuine (reopening ++ redelivering) ∧
      deliveries true (fun _ => false) (reopening ++ redelivering) =
        [firstResult, secondResult] ∧
      (sequencesOf 0 (deliveries true (fun _ => false) (reopening ++ redelivering))).Pairwise
        (· < ·) := by
  have placed : Genuine [.step (.owner (.place 0 Recorder.blank))] :=
    Genuine.nil.append (.step (.owner (.place 0 Recorder.blank))) (by simp [Move.brings])
  have genuine : Genuine (reopening ++ redelivering) :=
    ((((((placed.append
      (.step (.owner (.schedule 0 ['x']))) (by simp [Move.brings])).append
      (.apply firstResult) (by decide)).append
      (.step (.owner (.forget 0))) (by simp [Move.brings])).append
      (.step (.owner (.schedule 0 ['y']))) (by simp [Move.brings])).append
      (.arrive firstResult) (by decide)).append
      (.applyBatch [secondResult, firstResult]) (by decide)).append
      (.step (.owner .drain)) (by simp [Move.brings])
  exact ⟨genuine, rfl, (sequences_increase true (fun _ => false) genuine 0).1⟩

end Reparser

end LuaFold
