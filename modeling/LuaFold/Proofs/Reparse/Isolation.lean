import LuaFold.Proofs.Reparse.Mirror

/-!
# Documents do not interfere

A run can be narrowed to one document: the moves that concern other documents are left out, and
in those that remain submissions get the numbers that they have among those of the document.  The
narrowed run is a run of its own.  Step by step it mirrors what the whole run does with the
document, up to the renumbering.
-/

namespace LuaFold

namespace Reparser

/-- The call concerns a document.  Receiving results concerns every one. -/
def Call.Concerns {Document View : Type} (document : Document) : Call Document View → Prop
  | .schedule other _ => other = document
  | .forget other => other = document
  | .drain => True
  | .place other _ => other = document
  | .remove other => other = document

instance
    {Document View : Type}
    [DecidableEq Document]
    (document : Document)
    (call : Call Document View) :
    Decidable (call.Concerns document) :=
  match call with
  | .schedule other _ => inferInstanceAs (Decidable (other = document))
  | .forget other => inferInstanceAs (Decidable (other = document))
  | .drain => inferInstanceAs (Decidable True)
  | .place other _ => inferInstanceAs (Decidable (other = document))
  | .remove other => inferInstanceAs (Decidable (other = document))

namespace Pool

variable {Document : Type} [DecidableEq Document] {View : Type}

/-- What is left of a move when everything that concerns other documents is left out. -/
def Move.narrow?
    (document : Document)
    (all : List Document) :
    Move Document View → Option (Move Document View)
  | .call request => if request.Concerns document then some (.call request) else none
  | .pickUp sequence faulty => (renumber? document all sequence).map (.pickUp · faulty)
  | .finish sequence => (renumber? document all sequence).map .finish
  | .collect sequence => (renumber? document all sequence).map .collect
  | .apply sequence => (renumber? document all sequence).map .apply
  | .applyBatch sequences => some (.applyBatch (sequences.filterMap (renumber? document all)))

/-- A run without everything that concerns other documents. -/
def alone
    (document : Document)
    (moves : List (Move Document View)) :
    List (Move Document View) :=
  moves.filterMap (Move.narrow? document (submitted moves))

variable [Display View] {all : List Document} {document : Document}
  {pool whole part : Pool Document View}

/-! ## What the owner applies -/

/-- The owner applies updates one after the other. -/
def offer (pool : Pool Document View) (updates : List (Update Document)) : Pool Document View :=
  { pool with
    state := (pool.state.applyAll updates).1
    delivered := pool.delivered ++ pool.state.taken updates }

theorem offer_nil (pool : Pool Document View) : pool.offer [] = pool := by
  simp [offer, Applied.applyAll]

/-- Whatever the owner does, it first prepares a state and then applies updates to it. -/
theorem serve_eq
    (pool : Pool Document View)
    (move : Reparser.Move Document View) :
    pool.serve move =
      (pool.amid (pool.state.prepared (fun _ => false) move)).offer (pool.state.offers move) := by
  rw [serve, Applied.make_eq, Applied.delivers_eq fun _ => false]
  rfl

/-- Nothing but documents, views and the record changes when updates are applied. -/
theorem offer_eq
    (pool : Pool Document View)
    (updates : List (Update Document)) :
    pool.offer updates =
      { pool.amid
          ⟨{ pool.state.reparser with
              documents := (pool.state.applyAll updates).1.reparser.documents },
            (pool.state.applyAll updates).1.views⟩ with
        delivered := pool.delivered ++ pool.state.taken updates } := by
  rw [offer, amid, ← Applied.reparser_applyAll]

theorem Issues.offer
    (issues : Issues all whole)
    (updates : List (Update Document)) :
    Issues all (whole.offer updates) := by
  rw [offer_eq]
  refine { issues with states := ?_ }
  intro other known found
  have generation := whole.state.generation_applyAll updates other
  rw [show (whole.state.applyAll updates).1.reparser.documents.get? other = some known from found,
    Option.map_some, eq_comm, Option.map_eq_some_iff] at generation
  obtain ⟨earlier, stated, same⟩ := generation
  exact same ▸ issues.states other earlier stated

theorem Mirrors.offer
    (mirrors : Mirrors document all whole part)
    {updates : List (Update Document)}
    (genuine : Genuinely all updates) :
    Mirrors document all (whole.offer updates) (part.offer (narrow document all updates)) := by
  have look := Applied.look_applyAll_narrow mirrors.look genuine
  have moved := mirrors.amid (congrArg Prod.fst look) (congrArg Prod.snd look)
  rw [offer_eq, offer_eq]
  refine { moved with delivered := ?_ }
  rw [narrow_append, mirrors.delivered, Applied.taken_narrow mirrors.look genuine]

theorem Genuinely.newestUpdates
    {updates : List (Update Document)}
    (genuine : Genuinely all updates) :
    Genuinely all (newestUpdates updates).values :=
  fun update member => genuine update (mem_of_mem_newestUpdates member)

/-! ## One move -/

section Make

variable (pool : Pool Document View)

theorem make_schedule
    (other : Document)
    (text : Text) :
    pool.make (.call (.schedule other text)) =
      pool.amid ⟨pool.state.reparser.schedule other text, pool.state.views⟩ :=
  (pool.serve_eq _).trans (offer_nil _)

theorem make_forget (other : Document) :
    pool.make (.call (.forget other)) =
      pool.amid ⟨pool.state.reparser.forget other, pool.state.views⟩ :=
  (pool.serve_eq _).trans (offer_nil _)

theorem make_drain :
    pool.make (.call .drain) =
      (pool.amid pool.state.cleared).offer (newestUpdates pool.state.reparser.received).values :=
  pool.serve_eq _

theorem make_place
    (other : Document)
    (view : View) :
    pool.make (.call (.place other view)) =
      pool.amid ⟨pool.state.reparser, pool.state.views.set other view⟩ :=
  (pool.serve_eq _).trans (offer_nil _)

theorem make_remove (other : Document) :
    pool.make (.call (.remove other)) =
      pool.amid ⟨pool.state.reparser, pool.state.views.remove other⟩ :=
  (pool.serve_eq _).trans (offer_nil _)

theorem make_apply (sequence : Nat) :
    pool.make (.apply sequence) = pool.offer (pool.result? sequence).toList := by
  rw [make]
  cases pool.result? sequence with
  | none => exact (offer_nil pool).symm
  | some update => exact pool.serve_eq _

theorem make_applyBatch (sequences : List Nat) :
    pool.make (.applyBatch sequences) =
      pool.offer (newestUpdates (sequences.filterMap pool.result?)).values :=
  pool.serve_eq _

end Make

theorem Issues.call
    (issues : Issues all whole)
    (call : Call Document View)
    (next : ∀ other, (Move.call call).submits? = some other →
      Issued all other whole.state.reparser.nextSequence) :
    Issues all (whole.make (.call call)) := by
  cases call with
  | schedule other text =>
      rw [make_schedule]
      exact issues.schedule (next other rfl) text
  | forget other =>
      rw [make_forget]
      exact issues.forget other
  | drain =>
      rw [make_drain]
      have cleared : Issues all (whole.amid whole.state.cleared) :=
        { issues with received := fun _ member => nomatch member }
      exact cleared.offer _
  | place other view =>
      rw [make_place]
      exact { issues with }
  | remove other =>
      rw [make_remove]
      exact { issues with }

theorem Issues.make
    (issues : Issues all whole)
    (move : Move Document View)
    (next : ∀ other, move.submits? = some other →
      Issued all other whole.state.reparser.nextSequence) :
    Issues all (whole.make move) := by
  cases move with
  | call call => exact issues.call call next
  | pickUp sequence faulty => exact issues.pickUp sequence faulty
  | finish sequence => exact issues.finish sequence
  | collect sequence => exact issues.collect sequence
  | apply sequence =>
      rw [make_apply]
      exact issues.offer _
  | applyBatch sequences =>
      rw [make_applyBatch]
      exact issues.offer _

/-- A call about the document does the same in both runs. -/
theorem Mirrors.call
    (mirrors : Mirrors document all whole part)
    (issues : Issues all whole)
    {call : Call Document View}
    (concerned : call.Concerns document)
    (next : ∀ other, (Move.call call).submits? = some other →
      Issued all other whole.state.reparser.nextSequence) :
    Mirrors document all (whole.make (.call call)) (part.make (.call call)) := by
  cases call with
  | schedule other text =>
      rw [make_schedule, make_schedule]
      cases concerned
      exact mirrors.schedule issues (next _ rfl) text
  | forget other =>
      rw [make_forget, make_forget]
      cases concerned
      refine mirrors.amid ?_ mirrors.views
      rw [Table.get?_remove_self, Table.get?_remove_self, Option.map_none]
  | drain =>
      rw [make_drain, make_drain, mirrors.received,
        newestUpdates_narrow issues.received]
      have cleared : Mirrors document all (whole.amid whole.state.cleared)
          (part.amid part.state.cleared) :=
        { mirrors with received := rfl }
      exact cleared.offer (Genuinely.newestUpdates issues.received)
  | place other view =>
      rw [make_place, make_place]
      cases concerned
      exact mirrors.amid mirrors.documents (by simp)
  | remove other =>
      rw [make_remove, make_remove]
      cases concerned
      exact mirrors.amid mirrors.documents (by simp)

/-- A call about another document goes unnoticed. -/
theorem Mirrors.call_other
    (mirrors : Mirrors document all whole part)
    (issues : Issues all whole)
    {call : Call Document View}
    (other : ¬ call.Concerns document)
    (next : ∀ other, (Move.call call).submits? = some other →
      Issued all other whole.state.reparser.nextSequence) :
    Mirrors document all (whole.make (.call call)) part := by
  have known := mirrors.documents
  have view := mirrors.views
  cases call with
  | schedule another text =>
      rw [make_schedule]
      exact mirrors.schedule_other issues other (next another rfl) text
  | forget another =>
      rw [make_forget]
      have kept := Table.get?_remove_of_ne whole.state.reparser.documents other
      rw [← kept] at known
      exact { mirrors with look := Prod.ext known view }
  | drain => exact absurd trivial other
  | place another added =>
      rw [make_place]
      have kept := Table.get?_set_of_ne whole.state.views other added
      exact { mirrors with look := Prod.ext known (view.trans kept.symm) }
  | remove another =>
      rw [make_remove]
      have kept := Table.get?_remove_of_ne whole.state.views other
      exact { mirrors with look := Prod.ext known (view.trans kept.symm) }

theorem Mirrors.make
    (mirrors : Mirrors document all whole part)
    (issues : Issues all whole)
    (move : Move Document View)
    (next : ∀ other, move.submits? = some other →
      Issued all other whole.state.reparser.nextSequence) :
    Mirrors document all (whole.make move)
      (match move.narrow? document all with
        | some narrowed => part.make narrowed
        | none => part) := by
  cases move with
  | call call =>
      by_cases concerned : call.Concerns document
      · simpa [Move.narrow?, concerned] using mirrors.call issues concerned next
      · simpa [Move.narrow?, concerned] using mirrors.call_other issues concerned next
  | pickUp sequence faulty =>
      by_cases issued : Issued all document sequence
      · rw [Move.narrow?, renumber?_of_issued issued]
        exact mirrors.pickUp issues issued faulty
      · rw [Move.narrow?, renumber?_of_not_issued issued]
        exact mirrors.pickUp_other issues issued faulty
  | finish sequence =>
      by_cases issued : Issued all document sequence
      · rw [Move.narrow?, renumber?_of_issued issued]
        exact mirrors.finish issues issued
      · rw [Move.narrow?, renumber?_of_not_issued issued]
        exact mirrors.finish_other issues issued
  | collect sequence =>
      by_cases issued : Issued all document sequence
      · rw [Move.narrow?, renumber?_of_issued issued]
        exact mirrors.collect issues issued
      · rw [Move.narrow?, renumber?_of_not_issued issued]
        exact mirrors.collect_other issues issued
  | apply sequence =>
      have genuine : Genuinely all (whole.result? sequence).toList := fun update sent =>
        issues.sent update (List.mem_of_find?_eq_some (Option.mem_toList.mp sent))
      have offered := mirrors.offer genuine
      rw [← mirrors.toList_result? issues] at offered
      rw [Move.narrow?, make_apply]
      cases renumbered : renumber? document all sequence with
      | none =>
          rw [renumbered, Option.bind_none, Option.toList_none, offer_nil] at offered
          exact offered
      | some rank =>
          rw [renumbered, Option.bind_some] at offered
          rw [Option.map_some]
          dsimp only
          rw [make_apply]
          exact offered
  | applyBatch sequences =>
      have genuine := issues.filterMap_result? sequences
      have offered := mirrors.offer (Genuinely.newestUpdates genuine)
      rw [← newestUpdates_narrow genuine, ← mirrors.filterMap_result? issues] at offered
      rw [Move.narrow?, make_applyBatch]
      dsimp only
      rw [make_applyBatch]
      exact offered

/-! ## Runs -/

omit [DecidableEq Document] [Display View] in
/-- The submissions of a run, past and to come, bear the numbers of their places in it. -/
theorem issued_next
    {past : List Document}
    {moves : List (Move Document View)}
    {move : Move Document View}
    (counted : pool.state.reparser.lastSequence = past.length)
    (other : Document)
    (submits : move.submits? = some other) :
    Issued (past ++ submitted (move :: moves)) other pool.state.reparser.nextSequence := by
  rw [nextSequence, issued_succ, counted, submitted, List.filterMap_cons_some submits]
  simp

/-- Only submissions are counted. -/
theorem lastSequence_make
    (pool : Pool Document View)
    (move : Move Document View) :
    (pool.make move).state.reparser.lastSequence =
      pool.state.reparser.lastSequence + move.submits?.toList.length := by
  have offered : ∀ (pool : Pool Document View) updates,
      (pool.offer updates).state.reparser.lastSequence = pool.state.reparser.lastSequence := by
    intro pool updates
    rw [offer_eq]
    rfl
  cases move with
  | call call =>
      cases call with
      | schedule other text => rw [make_schedule]; rfl
      | forget other => rw [make_forget]; rfl
      | drain => rw [make_drain, offered]; rfl
      | place other view => rw [make_place]; rfl
      | remove other => rw [make_remove]; rfl
  | pickUp sequence faulty =>
      rw [make, pickUp]
      split <;> rfl
  | finish sequence =>
      rw [make, finish]
      split <;> rfl
  | collect sequence => rfl
  | apply sequence => rw [make_apply, offered]; rfl
  | applyBatch sequences => rw [make_applyBatch, offered]; rfl

/--
Moves still to come keep the mirror.  The submissions of the whole run are known from the start;
those made so far have been counted.
-/
theorem Mirrors.foldl
    {past : List Document}
    (moves : List (Move Document View))
    (numbering : all = past ++ submitted moves)
    (issues : Issues all whole)
    (mirrors : Mirrors document all whole part)
    (counted : whole.state.reparser.lastSequence = past.length) :
    Issues all (moves.foldl Pool.make whole) ∧
      Mirrors document all (moves.foldl Pool.make whole)
        ((moves.filterMap (Move.narrow? document all)).foldl Pool.make part) := by
  induction moves generalizing past whole part with
  | nil => exact ⟨issues, mirrors⟩
  | cons move moves ih =>
      have next : ∀ other, move.submits? = some other →
          Issued all other whole.state.reparser.nextSequence := by
        rw [numbering]
        exact issued_next counted
      have longer : all = (past ++ move.submits?.toList) ++ submitted moves := by
        rw [numbering, List.append_assoc, submitted, submitted]
        cases submits : move.submits? with
        | none => rw [List.filterMap_cons_none submits]; rfl
        | some other => rw [List.filterMap_cons_some submits]; rfl
      have recounted : (whole.make move).state.reparser.lastSequence =
          (past ++ move.submits?.toList).length := by
        rw [lastSequence_make, counted, List.length_append]
      have moved := ih longer (issues.make move next) (mirrors.make issues move next) recounted
      rw [List.foldl_cons]
      cases narrowed : move.narrow? document all with
      | none =>
          rw [narrowed] at moved
          rw [List.filterMap_cons_none narrowed]
          exact moved
      | some kept =>
          rw [narrowed] at moved
          rw [List.filterMap_cons_some narrowed, List.foldl_cons]
          exact moved

/-- What a view is given with an update. -/
def content (update : Update Document) : Text × List Region × List OutlineEntry :=
  (update.text, update.regions, outline update.regions)

/--
Documents do not interfere.  Take any run and leave out all moves and all updates that concern
other documents than one.  In the run that remains the views of the document are given the same
content, in the same order; the same submissions of the document are skipped, under their new
numbers; and in the end its view is the same.
-/
theorem alone_mirrors
    (coalesce : Bool)
    (document : Document)
    (moves : List (Move Document View)) :
    let whole := reached coalesce moves
    let part := reached coalesce (alone document moves)
    part.delivered.map content = (updatesOf document whole.delivered).map content ∧
      part.skipped.map Submission.sequence =
        whole.skipped.filterMap
          (fun submission => renumber? document (submitted moves) submission.sequence) ∧
      part.state.views.get? document = whole.state.views.get? document := by
  intro whole part
  obtain ⟨issues, mirrors⟩ : Issues (submitted moves) whole ∧
      Mirrors document (submitted moves) whole part :=
    Mirrors.foldl moves (List.nil_append _).symm (.new _ coalesce) (.new document _ coalesce) rfl
  refine ⟨?_, ?_, mirrors.views⟩
  · rw [mirrors.delivered, narrow_updates, List.map_map]
    rfl
  · rw [mirrors.skipped]
    exact (filterMap_renumber? issues.skipped).symm

end Pool

end Reparser

end LuaFold
