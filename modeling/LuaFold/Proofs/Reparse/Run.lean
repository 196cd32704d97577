import LuaFold.Proofs.Reparse.Batch

/-!
# Runs of a reparser

A run interleaves the calls of the owner with the moves of the one worker, in any order.  Which
submissions the worker fails on is not for the run to say; it is a function of their numbers.

An account of a document is kept from the calls of the owner alone.  It knows nothing of the
worker, and so it says what the views should show however the worker gets on.
-/

namespace LuaFold

namespace Reparser

/-- What the owner does: it submits, forgets and applies, and it places and removes views. -/
inductive Call (Document View : Type) where
  | schedule (document : Document) (text : Text)
  | forget (document : Document)
  | drain
  | place (document : Document) (view : View)
  | remove (document : Document)

/-- A step of a run: a call of the owner or a move of the worker. -/
inductive Step (Document View : Type) where
  | owner (call : Call Document View)
  | pickUp
  | finish

/-- The call that a step is, if it is one. -/
def Step.call? {Document View : Type} : Step Document View → Option (Call Document View)
  | .owner call => some call
  | .pickUp => none
  | .finish => none

def calls
    {Document View : Type}
    (steps : List (Step Document View)) :
    List (Call Document View) :=
  steps.filterMap Step.call?

variable {Document : Type} [DecidableEq Document]

/-- Let the worker pick up the front of the queue, and fail on it if it is faulty. -/
def pickUpFront (faulty : Nat → Bool) (reparser : Reparser Document) : Reparser Document :=
  match reparser.queue with
  | [] => reparser
  | submission :: _ => reparser.pickUp (faulty submission.sequence)

variable {View : Type} [Display View]

def Applied.answer (state : Applied Document View) : Call Document View → Applied Document View
  | .schedule document text => ⟨state.reparser.schedule document text, state.views⟩
  | .forget document => ⟨state.reparser.forget document, state.views⟩
  | .drain => state.drain.1
  | .place document view => ⟨state.reparser, state.views.set document view⟩
  | .remove document => ⟨state.reparser, state.views.remove document⟩

/-- Perform a step, with a worker that fails on the faulty submissions. -/
def Applied.perform
    (faulty : Nat → Bool)
    (state : Applied Document View) :
    Step Document View → Applied Document View
  | .owner call => state.answer call
  | .pickUp => ⟨state.reparser.pickUpFront faulty, state.views⟩
  | .finish => ⟨state.reparser.finish, state.views⟩

/-- What a run reaches from no documents and no views. -/
def run
    (coalesce : Bool)
    (faulty : Nat → Bool)
    (steps : List (Step Document View)) :
    Applied Document View :=
  steps.foldl (Applied.perform faulty) ⟨.new coalesce, .empty⟩

/-- Nothing is queued, nothing is running, and everything received has been applied. -/
def Applied.Settled (state : Applied Document View) : Prop :=
  state.reparser.isIdle = true ∧ state.reparser.received = []

/-- The view has just been refreshed with a text, its regions and their outline. -/
def Shows (view : View) (text : Text) (regions : List Region) : Prop :=
  ∃ earlier, view = Display.refresh earlier text regions (outline regions)

/-- What a view of a submission shows as regions. -/
def regionsOf (faulty : Nat → Bool) (sequence : Nat) (text : Text) : List Region :=
  if faulty sequence then [] else foldRegions text

/-! ## Accounts -/

/--
The last submission of a document that has a state, and whether the document is watched: its
view was there when it got this state, and has been neither replaced nor removed since.
-/
structure Submitted where
  sequence : Nat
  text : Text
  watched : Bool

/--
How many submissions there have been, whether the document has a view, and its last submission
if it has a state.
-/
structure Account where
  submissions : Nat
  present : Bool
  last? : Option Submitted

/-- The account after a submission of a text of the document. -/
def Account.submit (account : Account) (text : Text) : Account :=
  { account with
    submissions := account.submissions + 1
    last? := some ⟨account.submissions + 1, text,
      (account.last?.map Submitted.watched).getD account.present⟩ }

/-- The account after the view of the document was placed or removed. -/
def Account.disturb (account : Account) (present : Bool) : Account :=
  { account with
    present := present
    last? := account.last?.map fun last => { last with watched := false } }

/-- Enter a call of the owner in the account of a document. -/
def Account.enter (document : Document) (account : Account) : Call Document View → Account
  | .schedule other text =>
    if other = document then account.submit text
    else { account with submissions := account.submissions + 1 }
  | .forget other => if other = document then { account with last? := none } else account
  | .drain => account
  | .place other _ => if other = document then account.disturb true else account
  | .remove other => if other = document then account.disturb false else account

/-- The account of a document after calls of the owner. -/
def account (document : Document) (calls : List (Call Document View)) : Account :=
  calls.foldl (Account.enter document) ⟨0, false, none⟩

/-- The call submits a text of the document or forgets it. -/
def Call.Restates (document : Document) : Call Document View → Prop
  | .schedule other _ => other = document
  | .forget other => other = document
  | _ => False

/-- The call forgets the document, or places or removes its view. -/
def Call.Disturbs (document : Document) : Call Document View → Prop
  | .forget other => other = document
  | .place other _ => other = document
  | .remove other => other = document
  | _ => False

omit [Display View] in
/-- The text in an account is that of the last submission. -/
theorem text_account
    {document : Document}
    (before : List (Call Document View))
    (text : Text)
    {after : List (Call Document View)}
    (quiet : ∀ call ∈ after, ¬ call.Restates document) :
    (account document (before ++ .schedule document text :: after)).last?.map Submitted.text =
      some text := by
  rw [account, List.foldl_append, List.foldl_cons, Account.enter, if_pos rfl, Account.submit]
  induction after using List.reverseRecOn with
  | nil => rfl
  | append_singleton after call ih =>
      have ih := ih fun other member => quiet other (List.mem_append_left _ member)
      have still := quiet call (List.mem_append_right _ List.mem_cons_self)
      rw [List.foldl_append]
      generalize after.foldl _ _ = reached at ih ⊢
      cases call with
      | schedule other text' => simpa [Account.enter, show other ≠ document from still] using ih
      | forget other => simpa [Account.enter, show other ≠ document from still] using ih
      | drain => exact ih
      | place other view => by_cases same : other = document <;>
          simpa [Account.enter, Account.disturb, same] using ih
      | remove other => by_cases same : other = document <;>
          simpa [Account.enter, Account.disturb, same] using ih

omit [Display View] in
/-- A document is watched if it had a view when it got its state, and the view was left alone. -/
theorem watched_account
    {document : Document}
    {before : List (Call Document View)}
    (absent : (account document before).last? = none)
    (present : (account document before).present = true)
    (text : Text)
    {after : List (Call Document View)}
    (quiet : ∀ call ∈ after, ¬ call.Disturbs document) :
    (account document (before ++ .schedule document text :: after)).last?.map
      Submitted.watched = some true := by
  rw [account, List.foldl_append, List.foldl_cons, ← account, Account.enter, if_pos rfl,
    Account.submit, absent, present]
  induction after using List.reverseRecOn with
  | nil => rfl
  | append_singleton after call ih =>
      have ih := ih fun other member => quiet other (List.mem_append_left _ member)
      have still := quiet call (List.mem_append_right _ List.mem_cons_self)
      rw [List.foldl_append]
      generalize after.foldl _ _ = reached at ih ⊢
      cases call with
      | schedule other text' =>
          by_cases same : other = document
          · simp [Account.enter, Account.submit, same, ih]
          · simpa [Account.enter, same] using ih
      | forget other => simpa [Account.enter, show other ≠ document from still] using ih
      | drain => exact ih
      | place other view => simpa [Account.enter, show other ≠ document from still] using ih
      | remove other => simpa [Account.enter, show other ≠ document from still] using ih

/-! ## One step more -/

theorem run_append
    (coalesce : Bool)
    (faulty : Nat → Bool)
    (steps : List (Step Document View))
    (step : Step Document View) :
    run coalesce faulty (steps ++ [step]) = (run coalesce faulty steps).perform faulty step := by
  rw [run, List.foldl_append]
  rfl

omit [Display View] in
theorem account_append
    (document : Document)
    (steps : List (Step Document View))
    (step : Step Document View) :
    account document (calls (steps ++ [step])) =
      match step.call? with
      | some call => (account document (calls steps)).enter document call
      | none => account document (calls steps) := by
  rw [calls, List.filterMap_append, account, List.foldl_append]
  cases step <;> rfl

omit [DecidableEq Document] in
/-- The worker leaves the queue, skips its front if that is superseded, or starts on its front. -/
theorem pickUpFront_cases
    (faulty : Nat → Bool)
    (reparser : Reparser Document) :
    reparser.pickUpFront faulty = reparser ∨
      ∃ submission queue,
        reparser.running? = none ∧
        reparser.queue = submission :: queue ∧
        (reparser.superseded submission = true ∧
            reparser.pickUpFront faulty = { reparser with queue := queue } ∨
          reparser.pickUpFront faulty =
            { reparser with
              queue := queue
              running? := some (submission, faulty submission.sequence) }) := by
  rw [pickUpFront]
  cases queued : reparser.queue with
  | nil => exact Or.inl rfl
  | cons submission queue =>
      simp only [pickUp, queued]
      cases running : reparser.running? with
      | some busy => exact Or.inl rfl
      | none =>
          refine Or.inr ⟨submission, queue, rfl, rfl, ?_⟩
          by_cases skipped : reparser.skips submission = true
          · refine Or.inl ⟨?_, if_pos skipped⟩
            rw [skips, Bool.and_eq_true] at skipped
            exact skipped.2
          · exact Or.inr (if_neg skipped)

omit [DecidableEq Document] in
/-- The worker has nothing to finish, or hands over the update of what it was running. -/
theorem finish_cases (reparser : Reparser Document) :
    reparser.finish = reparser ∨
      ∃ submission faulty, reparser.running? = some (submission, faulty) ∧
        reparser.finish =
          { reparser with
            running? := none
            received := reparser.received ++ [submission.update faulty] } := by
  rw [finish]
  cases running : reparser.running? with
  | none => exact Or.inl rfl
  | some busy => exact Or.inr ⟨busy.1, busy.2, rfl, rfl⟩

/-! ## Settling -/

omit [DecidableEq Document] in
theorem running?_finish (reparser : Reparser Document) : reparser.finish.running? = none := by
  rw [finish]
  split
  · rfl
  · next idle => exact idle

omit [DecidableEq Document] in
theorem queue_finish (reparser : Reparser Document) :
    reparser.finish.queue = reparser.queue := by
  rw [finish]
  split <;> rfl

omit [DecidableEq Document] in
theorem queue_pickUpFront
    (faulty : Nat → Bool)
    {reparser : Reparser Document}
    {submission : Submission Document}
    {queue : List (Submission Document)}
    (idle : reparser.running? = none)
    (queued : reparser.queue = submission :: queue) :
    (reparser.pickUpFront faulty).queue = queue := by
  simp only [pickUpFront, pickUp, queued, idle]
  split <;> rfl

theorem exists_idle
    (faulty : Nat → Bool)
    (queue : List (Submission Document))
    (state : Applied Document View)
    (queued : state.reparser.queue = queue) :
    ∃ steps, calls steps = [] ∧
      (steps.foldl (Applied.perform faulty) state).reparser.isIdle = true := by
  induction queue generalizing state with
  | nil =>
      refine ⟨[.finish], rfl, ?_⟩
      simp [Applied.perform, isIdle, running?_finish, queue_finish, queued]
  | cons submission queue ih =>
      have finished : state.reparser.finish.queue = submission :: queue :=
        (queue_finish state.reparser).trans queued
      rcases ih ⟨state.reparser.finish.pickUpFront faulty, state.views⟩
          (queue_pickUpFront faulty (running?_finish state.reparser) finished) with
        ⟨steps, none_called, idle⟩
      exact ⟨.finish :: .pickUp :: steps, none_called, idle⟩

/-- Every run can be brought to settle by the worker alone and one last drain. -/
theorem exists_settled
    (coalesce : Bool)
    (faulty : Nat → Bool)
    (steps : List (Step Document View)) :
    ∃ more, calls more = [.drain] ∧ (run coalesce faulty (steps ++ more)).Settled := by
  rcases exists_idle faulty _ (run coalesce faulty steps) rfl with ⟨worked, none_called, idle⟩
  refine ⟨worked ++ [.owner .drain], ?_, ?_⟩
  · rw [calls, List.filterMap_append, ← calls, none_called]
    rfl
  · rw [← List.append_assoc, run_append, run, List.foldl_append, ← run]
    constructor
    · rw [Applied.perform, Applied.answer, Applied.reparser_drain]
      exact idle
    · rw [Applied.perform, Applied.answer, Applied.reparser_drain]

end Reparser

end LuaFold
