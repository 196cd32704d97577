import LuaFold.Proofs.Reparse.Delivery

/-!
# Pools of workers

Several workers may serve one queue.  Each of them does what the one worker of a reparser does,
but they get to the check for newer texts in any order, run side by side and finish in any order.
The owner may take a result off the channel to keep it, and apply what it has kept in any order
and more than once.

Submissions, and with them cycles and results, are known by their numbers.  So a run is a list of
moves that can be read without knowing any state.
-/

namespace LuaFold

namespace Reparser

/--
A reparser with its views and what a pool of workers is running, and a record of the past: every
result that was sent, every submission that was skipped, and every update that a view took.
-/
structure Pool (Document View : Type) where
  state : Applied Document View
  running : List (Submission Document × Bool)
  sent : List (Update Document)
  skipped : List (Submission Document)
  delivered : List (Update Document)

namespace Pool

/--
A move of a run with many workers: a call of the owner; a worker that picks up a submission, on
which it may be about to fail, or finishes it; a result that the owner takes off the channel; and
results, one or a batch, that the owner applies by hand.
-/
inductive Move (Document View : Type) where
  | call (call : Call Document View)
  | pickUp (sequence : Nat) (faulty : Bool)
  | finish (sequence : Nat)
  | collect (sequence : Nat)
  | apply (sequence : Nat)
  | applyBatch (sequences : List Nat)

/-- The document of which a move submits a text, if it does. -/
def Move.submits? {Document View : Type} : Move Document View → Option Document
  | .call (.schedule document _) => some document
  | _ => none

/-- The documents of the submissions in a run, in order. -/
def submitted {Document View : Type} (moves : List (Move Document View)) : List Document :=
  moves.filterMap Move.submits?

variable {Document : Type} {View : Type}

/-- The same pool with another state. -/
def amid (pool : Pool Document View) (state : Applied Document View) : Pool Document View :=
  { pool with state := state }

/-- A worker takes a submission off the queue, and starts on it unless it is to be skipped. -/
def start
    (pool : Pool Document View)
    (submission : Submission Document)
    (faulty : Bool) :
    Pool Document View :=
  let reparser := pool.state.reparser
  let queue := reparser.queue.filter fun other => other.sequence ≠ submission.sequence
  let skipped := reparser.skips submission
  { pool with
    state := ⟨{ reparser with queue := queue }, pool.state.views⟩
    running := pool.running ++ if skipped then [] else [(submission, faulty)]
    skipped := pool.skipped ++ if skipped then [submission] else [] }

/-- Let a worker that is free pick up a queued submission. -/
def pickUp (pool : Pool Document View) (sequence : Nat) (faulty : Bool) : Pool Document View :=
  match pool.state.reparser.queue.find? fun submission => submission.sequence = sequence with
  | none => pool
  | some submission => pool.start submission faulty

/-- A worker sends the result of what it was running. -/
def send
    (pool : Pool Document View)
    (cycle : Submission Document × Bool) :
    Pool Document View :=
  let reparser := pool.state.reparser
  let update := cycle.1.update cycle.2
  { pool with
    state := ⟨{ reparser with received := reparser.received ++ [update] }, pool.state.views⟩
    running := pool.running.filter fun other => other.1.sequence ≠ cycle.1.sequence
    sent := pool.sent ++ [update] }

/-- Let a worker finish the submission that it is running. -/
def finish (pool : Pool Document View) (sequence : Nat) : Pool Document View :=
  match pool.running.find? fun cycle => cycle.1.sequence = sequence with
  | none => pool
  | some cycle => pool.send cycle

/-- Take a result off the channel. -/
def collect (pool : Pool Document View) (sequence : Nat) : Pool Document View :=
  let reparser := pool.state.reparser
  let received := reparser.received.filter fun update => update.sequence ≠ sequence
  { pool with state := ⟨{ reparser with received := received }, pool.state.views⟩ }

/-- The result of the submission with a number, if it has been sent. -/
def result? (pool : Pool Document View) (sequence : Nat) : Option (Update Document) :=
  pool.sent.find? fun update => update.sequence = sequence

variable [DecidableEq Document] [Display View]

/-- Nothing submitted and no views. -/
def new (coalesce : Bool) : Pool Document View :=
  ⟨⟨.new coalesce, .empty⟩, [], [], [], []⟩

/-- Let the owner move, and record what views take. -/
def serve
    (pool : Pool Document View)
    (move : Reparser.Move Document View) :
    Pool Document View :=
  { pool with
    state := pool.state.make (fun _ => false) move
    delivered := pool.delivered ++ pool.state.delivers move }

def make (pool : Pool Document View) : Move Document View → Pool Document View
  | .call call => pool.serve (.step (.owner call))
  | .pickUp sequence faulty => pool.pickUp sequence faulty
  | .finish sequence => pool.finish sequence
  | .collect sequence => pool.collect sequence
  | .apply sequence =>
    match pool.result? sequence with
    | none => pool
    | some update => pool.serve (.apply update)
  | .applyBatch sequences => pool.serve (.applyBatch (sequences.filterMap pool.result?))

/-- What moves reach from no documents and no views. -/
def reached (coalesce : Bool) (moves : List (Move Document View)) : Pool Document View :=
  moves.foldl make (new coalesce)

omit [DecidableEq Document] [Display View] in
/-- A worker that is alone does with the front of the queue what the worker of a reparser does. -/
theorem cycle_front
    (pool : Pool Document View)
    {submission : Submission Document}
    {queue : List (Submission Document)}
    (free : pool.running = [])
    (idle : pool.state.reparser.running? = none)
    (queued : pool.state.reparser.queue = submission :: queue)
    (single : ∀ other ∈ queue, other.sequence ≠ submission.sequence)
    (faulty : Bool) :
    ((pool.pickUp submission.sequence faulty).finish submission.sequence).state =
        ⟨(pool.state.reparser.pickUp faulty).finish, pool.state.views⟩ ∧
      ((pool.pickUp submission.sequence faulty).finish submission.sequence).running = [] := by
  have found : (submission :: queue).find? (fun other => other.sequence = submission.sequence) =
      some submission := by
    rw [List.find?_cons, decide_eq_true rfl]
  have left : (submission :: queue).filter (fun other => other.sequence ≠ submission.sequence) =
      queue := by
    rw [List.filter_cons, if_neg (by simp)]
    exact List.filter_eq_self.mpr fun other member => decide_eq_true (single other member)
  simp only [pickUp, queued, found, start, left, Reparser.pickUp, idle, free, List.nil_append]
  cases skipped : pool.state.reparser.skips submission with
  | true => simp [finish, Reparser.finish]
  | false => simp [finish, send, Reparser.finish]

end Pool

end Reparser

end LuaFold
