import LuaFold.Proofs.Reparse.Invariant

/-!
# Deliveries to views

The owner need not apply results in the order in which they came in.  It may keep an update,
apply it once more, put several into one batch, and forget a document in between; and with more
than one worker the results come in any order to begin with.  All that is asked of an update is
that it comes from a submission.

A record is kept of every update that a view takes.  It is the right one: what is recorded of a
document is just what its view has been refreshed with.
-/

namespace LuaFold

namespace Reparser

/--
A move of a run in which updates may be delivered in any order: a step of the owner or of the
worker, a result that comes in from another worker, results that the owner takes off the channel
to keep them, and updates that it applies by hand.
-/
inductive Move (Document View : Type) where
  | step (step : Step Document View)
  | arrive (update : Update Document)
  | collect (count : Nat)
  | apply (update : Update Document)
  | applyBatch (updates : List (Update Document))

namespace Move

variable {Document View : Type}

/-- The document of which a move submits a text, if it does. -/
def submits? : Move Document View → Option Document
  | .step (.owner (.schedule document _)) => some document
  | _ => none

/-- The updates that a move brings in from outside. -/
def brings : Move Document View → List (Update Document)
  | .arrive update => [update]
  | .apply update => [update]
  | .applyBatch updates => updates
  | _ => []

/-- The move places or removes the view of a document. -/
def Replaces (document : Document) : Move Document View → Prop
  | .step (.owner (.place other _)) => other = document
  | .step (.owner (.remove other)) => other = document
  | _ => False

end Move

/-- The documents of the submissions in a run, each with the number of the submission. -/
def submissions
    {Document View : Type}
    (moves : List (Move Document View)) :
    List (Document × Nat) :=
  (moves.filterMap Move.submits?).zipIdx 1

/-- Every update that a run brings in comes from a submission made before. -/
inductive Genuine {Document View : Type} : List (Move Document View) → Prop where
  | nil : Genuine []
  | append
      {moves : List (Move Document View)}
      (earlier : Genuine moves)
      (move : Move Document View)
      (issued : ∀ update ∈ move.brings, (update.document, update.sequence) ∈ submissions moves) :
      Genuine (moves ++ [move])

variable {Document : Type} [DecidableEq Document] {View : Type} [Display View]

/-- The updates of a document, in order. -/
def updatesOf
    (document : Document)
    (updates : List (Update Document)) :
    List (Update Document) :=
  updates.filter fun update => update.document = document

/-- What a view becomes that takes updates one after the other. -/
def refreshAll (view : View) (updates : List (Update Document)) : View :=
  updates.foldl
    (fun shown update =>
      Display.refresh shown update.text update.regions (outline update.regions))
    view

namespace Applied

/-- Those of some updates that views take when they are applied one after the other. -/
def taken (state : Applied Document View) : List (Update Document) → List (Update Document)
  | [] => []
  | update :: updates =>
    let reached := state.apply update
    (if reached.2 then [update] else []) ++ reached.1.taken updates

/-- The same state with nothing on the channel. -/
def cleared (state : Applied Document View) : Applied Document View :=
  ⟨{ state.reparser with received := [] }, state.views⟩

def make
    (faulty : Nat → Bool)
    (state : Applied Document View) :
    Move Document View → Applied Document View
  | .step step => state.perform faulty step
  | .arrive update =>
    ⟨{ state.reparser with received := state.reparser.received ++ [update] }, state.views⟩
  | .collect count =>
    ⟨{ state.reparser with received := state.reparser.received.drop count }, state.views⟩
  | .apply update => (state.apply update).1
  | .applyBatch updates => (state.applyBatch updates).1

/-- The updates that views take with a move, in order. -/
def delivers (state : Applied Document View) : Move Document View → List (Update Document)
  | .step (.owner .drain) => state.cleared.taken (newestUpdates state.reparser.received).values
  | .apply update => state.taken [update]
  | .applyBatch updates => state.taken (newestUpdates updates).values
  | _ => []

end Applied

/-- What moves reach from no documents and no views, and every update that a view took. -/
def history
    (coalesce : Bool)
    (faulty : Nat → Bool)
    (moves : List (Move Document View)) :
    Applied Document View × List (Update Document) :=
  moves.foldl
    (fun (state, delivered) move => (state.make faulty move, delivered ++ state.delivers move))
    (⟨.new coalesce, .empty⟩, [])

/-- What moves reach from no documents and no views. -/
def reached
    (coalesce : Bool)
    (faulty : Nat → Bool)
    (moves : List (Move Document View)) :
    Applied Document View :=
  (history coalesce faulty moves).1

/-- Every update that a view took in the course of moves, in order. -/
def deliveries
    (coalesce : Bool)
    (faulty : Nat → Bool)
    (moves : List (Move Document View)) :
    List (Update Document) :=
  (history coalesce faulty moves).2

section Append

variable (coalesce : Bool) (faulty : Nat → Bool) (moves : List (Move Document View))
  (move : Move Document View)

theorem reached_append :
    reached coalesce faulty (moves ++ [move]) =
      (reached coalesce faulty moves).make faulty move := by
  rw [reached, history, List.foldl_append]
  rfl

theorem deliveries_append :
    deliveries coalesce faulty (moves ++ [move]) =
      deliveries coalesce faulty moves ++ (reached coalesce faulty moves).delivers move := by
  rw [deliveries, history, List.foldl_append]
  rfl

end Append

/-! ## What applying does -/

/-- An update is dropped, or it is newer than what its view took last, and the view takes it. -/
theorem Applied.apply_cases
    (state : Applied Document View)
    (update : Update Document) :
    state.apply update = (state, false) ∨
      ∃ known view, state.reparser.documents.get? update.document = some known ∧
        state.views.get? update.document = some view ∧
        known.applied < update.sequence ∧
        state.apply update =
          (⟨{ state.reparser with
              documents := state.reparser.documents.set update.document
                { known with applied := update.sequence } },
            state.views.set update.document (refreshAll view [update])⟩, true) := by
  rw [Applied.apply]
  cases state.reparser.documents.get? update.document with
  | none => exact Or.inl rfl
  | some known =>
      by_cases stale : update.sequence ≤ known.applied
      · exact Or.inl (if_pos stale)
      · cases state.views.get? update.document with
        | none => exact Or.inl (if_neg stale)
        | some view =>
            exact Or.inr ⟨known, view, rfl, rfl, Nat.lt_of_not_le stale, if_neg stale⟩

@[simp]
theorem Applied.taken_nil (state : Applied Document View) : state.taken [] = [] :=
  rfl

theorem Applied.taken_cons
    (state : Applied Document View)
    (update : Update Document)
    (updates : List (Update Document)) :
    state.taken (update :: updates) =
      state.taken [update] ++ (state.apply update).1.taken updates := by
  simp [Applied.taken]

/-- A view is refreshed with just the updates that it takes. -/
theorem Applied.get?_views_applyAll
    (state : Applied Document View)
    (updates : List (Update Document))
    (document : Document) :
    (state.applyAll updates).1.views.get? document =
      (state.views.get? document).map fun view =>
        refreshAll view (updatesOf document (state.taken updates)) := by
  induction updates generalizing state with
  | nil => simp [Applied.applyAll, updatesOf, refreshAll]
  | cons update updates ih =>
      rw [Applied.applyAll_cons, ih, Applied.taken_cons]
      rcases state.apply_cases update with dropped | ⟨known, view, _, shown, _, applied⟩
      · simp [Applied.taken, dropped]
      · rcases eq_or_ne update.document document with rfl | different
        · simp [Applied.taken, applied, shown, updatesOf, refreshAll]
        · simp [Applied.taken, applied, Table.get?_set_of_ne _ different, updatesOf, different]

/-! ## What a move does -/

/-- What a move makes of a state before any update is applied with it. -/
def Applied.prepared
    (faulty : Nat → Bool)
    (state : Applied Document View) :
    Move Document View → Applied Document View
  | .step (.owner .drain) => state.cleared
  | .apply _ => state
  | .applyBatch _ => state
  | move => state.make faulty move

/-- The updates that are applied with a move, one after the other. -/
def Applied.offers (state : Applied Document View) : Move Document View → List (Update Document)
  | .step (.owner .drain) => (newestUpdates state.reparser.received).values
  | .apply update => [update]
  | .applyBatch updates => (newestUpdates updates).values
  | _ => []

section Moves

variable {faulty : Nat → Bool} {state : Applied Document View}

theorem Applied.make_eq
    (faulty : Nat → Bool)
    (state : Applied Document View)
    (move : Move Document View) :
    state.make faulty move = ((state.prepared faulty move).applyAll (state.offers move)).1 := by
  cases move with
  | step step =>
      cases step with
      | owner call => cases call <;> rfl
      | pickUp => rfl
      | finish => rfl
  | arrive update => rfl
  | collect count => rfl
  | apply update => rfl
  | applyBatch updates => rfl

theorem Applied.delivers_eq
    (faulty : Nat → Bool)
    (state : Applied Document View)
    (move : Move Document View) :
    state.delivers move = (state.prepared faulty move).taken (state.offers move) := by
  cases move with
  | step step =>
      cases step with
      | owner call => cases call <;> rfl
      | pickUp => rfl
      | finish => rfl
  | arrive update => rfl
  | collect count => rfl
  | apply update => rfl
  | applyBatch updates => rfl

/-- A move refreshes a view that it does not replace with just what it delivers. -/
theorem Applied.get?_views_make
    (faulty : Nat → Bool)
    (state : Applied Document View)
    {move : Move Document View}
    {document : Document}
    (keeps : ¬ move.Replaces document) :
    (state.make faulty move).views.get? document =
      (state.views.get? document).map fun view =>
        refreshAll view (updatesOf document (state.delivers move)) := by
  have untouched : (state.prepared faulty move).views.get? document =
      state.views.get? document := by
    cases move with
    | step step =>
        cases step with
        | owner call =>
            cases call with
            | place other view => exact Table.get?_set_of_ne _ keeps view
            | remove other => exact Table.get?_remove_of_ne _ keeps
            | schedule other text => rfl
            | forget other => rfl
            | drain => rfl
        | pickUp => rfl
        | finish => rfl
    | arrive update => rfl
    | collect count => rfl
    | apply update => rfl
    | applyBatch updates => rfl
  rw [Applied.make_eq, Applied.delivers_eq faulty, Applied.get?_views_applyAll, untouched]

end Moves

end Reparser

end LuaFold
