import LuaFold.Fold.Outline
import LuaFold.Table

/-!
# Reparsing in the background

Every edit submits the whole text of a document.  A worker takes the submissions in order,
finds the regions of each text and sends them back; the owner of the views applies what came
back.  So a submission is first queued, then running, then received, and at last applied.

Submissions are numbered.  A view only ever takes a result with a greater number than the one
it shows, so the text submitted last wins in whatever order results are applied.  With
coalescing, a submission that a newer one has superseded is skipped when the worker picks it
up.

A document has a state from its first submission until it is forgotten.  What was queued under
a state that is forgotten keeps comparing itself with that state.
-/

namespace LuaFold

/-- What can show the text, the regions and the outline of a document. -/
class Display (View : Type) where
  /-- Show new content in place of the old. -/
  refresh : View → Text → List Region → List OutlineEntry → View

/-- A text submitted for a document, with its number and the state it was submitted under. -/
structure Submission (Document : Type) where
  document : Document
  sequence : Nat
  generation : Nat
  text : Text
deriving DecidableEq, Repr

/-- The regions found in a submitted text. -/
structure Update (Document : Type) where
  document : Document
  sequence : Nat
  text : Text
  regions : List Region
deriving DecidableEq, Repr

/-- The update that a submission leads to.  If the worker fails on it there are no regions. -/
def Submission.update
    {Document : Type}
    (submission : Submission Document)
    (faulty : Bool) :
    Update Document :=
  ⟨submission.document, submission.sequence, submission.text,
    if faulty then [] else foldRegions submission.text⟩

/--
The state of a document: its generation, which is the number of its first submission, and the
number of the newest submission handed to its view.
-/
structure DocumentState where
  generation : Nat
  applied : Nat
deriving DecidableEq, Repr

/--
The documents with their submissions.  The newest submission of each generation is kept even
when the document is forgotten, because the queue may still hold submissions of it.
-/
structure Reparser (Document : Type) where
  coalesce : Bool
  documents : Table Document DocumentState
  newest : Table Nat Nat
  lastSequence : Nat
  queue : List (Submission Document)
  running? : Option (Submission Document × Bool)
  received : List (Update Document)

namespace Reparser

variable {Document : Type} [DecidableEq Document]

/-- No documents and nothing submitted. -/
def new (coalesce : Bool) : Reparser Document :=
  ⟨coalesce, .empty, .empty, 0, [], none, []⟩

/-- The number that the next submission gets. -/
def nextSequence (reparser : Reparser Document) : Nat :=
  reparser.lastSequence + 1

/-- The state of a document, a new one if it has none. -/
def stateFor (reparser : Reparser Document) (document : Document) : DocumentState :=
  (reparser.documents.get? document).getD ⟨reparser.nextSequence, reparser.lastSequence⟩

/-- Queue a text of a document. -/
def schedule
    (reparser : Reparser Document)
    (document : Document)
    (text : Text) :
    Reparser Document :=
  let state := reparser.stateFor document
  let sequence := reparser.nextSequence
  { reparser with
    documents := reparser.documents.set document state
    newest := reparser.newest.set state.generation sequence
    lastSequence := sequence
    queue := reparser.queue ++ [⟨document, sequence, state.generation, text⟩] }

/-- Drop the state of a document. -/
def forget (reparser : Reparser Document) (document : Document) : Reparser Document :=
  { reparser with documents := reparser.documents.remove document }

/-- Whether a newer text was submitted under the state of a submission. -/
def superseded (reparser : Reparser Document) (submission : Submission Document) : Bool :=
  reparser.newest.get? submission.generation ≠ some submission.sequence

/-- Whether a submission is left out when the worker picks it up. -/
def skips (reparser : Reparser Document) (submission : Submission Document) : Bool :=
  reparser.coalesce && reparser.superseded submission

/--
Let the idle worker pick up the submission at the front of the queue, which it starts on or
skips.  The worker may be about to fail on what it starts.
-/
def pickUp (reparser : Reparser Document) (faulty : Bool) : Reparser Document :=
  match reparser.running?, reparser.queue with
  | none, submission :: queue =>
    if reparser.skips submission then { reparser with queue := queue }
    else { reparser with queue := queue, running? := some (submission, faulty) }
  | _, _ => reparser

/-- Let the worker finish what it is running. -/
def finish (reparser : Reparser Document) : Reparser Document :=
  match reparser.running? with
  | some (submission, faulty) =>
    { reparser with
      running? := none
      received := reparser.received ++ [submission.update faulty] }
  | none => reparser

/-- Whether the worker has nothing to do. -/
def isIdle (reparser : Reparser Document) : Bool :=
  reparser.running?.isNone && reparser.queue.isEmpty

/-- Let the worker run a number of queued submissions, after what it is running. -/
def runMany (reparser : Reparser Document) : Nat → Reparser Document
  | 0 => reparser.finish
  | count + 1 => (reparser.finish.pickUp false).runMany count

/-- Let the worker run everything that is queued. -/
def runAll (reparser : Reparser Document) : Reparser Document :=
  reparser.runMany reparser.queue.length

variable {View : Type} [Display View]

/-- The reparser and the views it applies results to. -/
structure Applied (Document View : Type) where
  reparser : Reparser Document
  views : Table Document View

/--
Apply an update to the view of its document, and say whether the view took it.  It does not if
the document was forgotten, if the view has an update as new, or if there is no view.
-/
def Applied.apply
    (state : Applied Document View)
    (update : Update Document) :
    Applied Document View × Bool :=
  match state.reparser.documents.get? update.document with
  | none => (state, false)
  | some known =>
    if update.sequence ≤ known.applied then (state, false)
    else
      match state.views.get? update.document with
      | none => (state, false)
      | some view =>
        let documents := state.reparser.documents.set update.document
          { known with applied := update.sequence }
        let shown := Display.refresh view update.text update.regions (outline update.regions)
        (⟨{ state.reparser with documents := documents },
          state.views.set update.document shown⟩, true)

/-- The newest update of each document, the first among equals. -/
def newestUpdates (updates : List (Update Document)) : Table Document (Update Document) :=
  updates.foldl
    (fun kept update =>
      match kept.get? update.document with
      | some earlier =>
        if update.sequence ≤ earlier.sequence then kept else kept.set update.document update
      | none => kept.set update.document update)
    .empty

/-- Apply updates one after the other, and count those that views took. -/
def Applied.applyAll
    (state : Applied Document View)
    (updates : List (Update Document)) :
    Applied Document View × Nat :=
  updates.foldl
    (fun (state, count) update =>
      let (state, taken) := state.apply update
      (state, if taken then count + 1 else count))
    (state, 0)

/-- Apply the newest update of each document, and count those that views took. -/
def Applied.applyBatch
    (state : Applied Document View)
    (updates : List (Update Document)) :
    Applied Document View × Nat :=
  state.applyAll (newestUpdates updates).values

/-- Apply everything received so far as one batch. -/
def Applied.drain (state : Applied Document View) : Applied Document View × Nat :=
  Applied.applyBatch ⟨{ state.reparser with received := [] }, state.views⟩
    state.reparser.received

end Reparser

end LuaFold
