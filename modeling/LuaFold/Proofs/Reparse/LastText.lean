import LuaFold.Proofs.Reparse.Tracking
import LuaFold.Reparse.Session

/-!
# The last submission wins

When a run has settled, nothing is on its way any more.  So every watched document shows the
text that was submitted for it last, whatever was skipped, dropped or failed on the way there.
What it shows can be read off the calls of the owner, and so neither coalescing nor the
interleaving of the worker matters.
-/

namespace LuaFold

namespace Reparser

variable {Document : Type} [DecidableEq Document] {View : Type} [Display View]

/-! ## Along a run -/

section Steps

variable {faulty : Nat → Bool} {document : Document} {account : Account}
  {state : Applied Document View}

theorem Orderly.answer
    (orderly : Orderly state.reparser)
    (call : Call Document View) :
    Orderly (state.answer call).reparser := by
  cases call with
  | schedule other text => exact orderly.schedule other text
  | forget other => exact orderly.recede (recedes_forget state.reparser other)
  | drain => exact orderly.recede (recedes_drain state)
  | place other view => exact orderly
  | remove other => exact orderly

theorem Tracks.answer
    (tracks : Tracks faulty document account state)
    (orderly : Orderly state.reparser)
    (call : Call Document View) :
    Tracks faulty document (account.enter document call) (state.answer call) := by
  cases call with
  | schedule other text => exact tracks.schedule orderly other text
  | forget other => exact tracks.forget other
  | drain => exact tracks.drain orderly
  | place other view => exact tracks.place other view
  | remove other => exact tracks.remove other

theorem Orderly.perform
    (orderly : Orderly state.reparser)
    (step : Step Document View) :
    Orderly (state.perform faulty step).reparser := by
  cases step with
  | owner call => exact orderly.answer call
  | pickUp => exact orderly.recede (recedes_pickUpFront faulty state.reparser)
  | finish => exact orderly.recede (recedes_finish state.reparser)

end Steps

theorem orderly_run
    (coalesce : Bool)
    (faulty : Nat → Bool)
    (steps : List (Step Document View)) :
    Orderly (run coalesce faulty steps).reparser := by
  induction steps using List.reverseRecOn with
  | nil => exact orderly_new coalesce
  | append_singleton steps step ih =>
      rw [run_append]
      exact ih.perform step

/-- A run agrees with the account of every document. -/
theorem tracks_run
    (coalesce : Bool)
    (faulty : Nat → Bool)
    (steps : List (Step Document View))
    (document : Document) :
    Tracks faulty document (account document (calls steps))
      (run coalesce faulty steps) := by
  induction steps using List.reverseRecOn with
  | nil => exact tracks_new faulty coalesce document
  | append_singleton steps step ih =>
      rw [run_append, account_append]
      cases step with
      | owner call => exact ih.answer (orderly_run coalesce faulty steps) call
      | pickUp => exact ih.pickUpFront
      | finish => exact ih.finish

/-! ## When a run has settled -/

section Settled

variable {faulty : Nat → Bool} {document : Document} {account : Account}
  {state : Applied Document View}

omit [DecidableEq Document] [Display View] in
/-- Nothing is on its way when everything is done and applied. -/
theorem Applied.Settled.not_pending
    (settled : state.Settled)
    (submission : Submission Document) :
    ¬ Pending faulty submission state.reparser := by
  rcases settled with ⟨idle, received⟩
  rw [isIdle, Bool.and_eq_true, Option.isNone_iff_eq_none, List.isEmpty_iff] at idle
  rintro (listed | busy | listed)
  · rw [received] at listed
    cases listed
  · rw [idle.1] at busy
    cases busy
  · rw [idle.2] at listed
    cases listed

/--
A document has a state just when its account has a last submission, and if it is watched its
view shows this submission.
-/
def ShowsLast
    (faulty : Nat → Bool)
    (document : Document)
    (account : Account)
    (state : Applied Document View) :
    Prop :=
  state.reparser.documents.contains document = account.last?.isSome ∧
    ∀ last, account.last? = some last → last.watched = true →
      ∃ view, state.views.get? document = some view ∧
        Shows view last.text (regionsOf faulty last.sequence last.text)

theorem Tracks.contains (tracks : Tracks faulty document account state) :
    state.reparser.documents.contains document = account.last?.isSome := by
  rw [Table.contains]
  cases last? : account.last? with
  | none =>
      rw [tracks.absent last?]
      rfl
  | some last =>
      rcases tracks.current last last? with ⟨known, stated, _⟩
      rw [stated]
      rfl

theorem Tracks.showsLast
    (tracks : Tracks faulty document account state)
    (settled : state.Settled) :
    ShowsLast faulty document account state := by
  constructor
  · exact tracks.contains
  · intro last found watched
    rcases tracks.current last found with ⟨known, _, current⟩
    rcases current.outcome watched with ⟨view, shown, ⟨_, shows⟩ | ⟨_, pending⟩⟩
    · exact ⟨view, shown, shows⟩
    · exact absurd pending (settled.not_pending _)

end Settled

/-- What it is for a recorder to show something. -/
theorem shows_recorder_iff
    (recorder : Recorder)
    (text : Text)
    (regions : List Region) :
    Shows recorder text regions ↔
      recorder.text? = some text ∧
        recorder.regions = regions ∧
        recorder.outline = outline regions ∧ 0 < recorder.updates := by
  constructor
  · rintro ⟨earlier, rfl⟩
    exact ⟨rfl, rfl, rfl, Nat.succ_pos _⟩
  · rcases recorder with ⟨text?, listed, entries, count⟩
    rintro ⟨shown, same, outlined, counted⟩
    dsimp only at shown same outlined counted
    subst shown same outlined
    refine ⟨⟨none, [], [], count - 1⟩, ?_⟩
    exact congrArg (Recorder.mk _ _ _) (Nat.sub_add_cancel counted).symm

/--
Two states agree on a document by an account of it: it has a state in both or in neither, and
if it is watched, its views show the same text, regions and outline.
-/
def Agree
    (document : Document)
    (account : Account)
    (state other : Applied Document View) :
    Prop :=
  state.reparser.documents.contains document = other.reparser.documents.contains document ∧
    ∀ last, account.last? = some last → last.watched = true →
      ∃ view view' text regions, state.views.get? document = some view ∧
        other.views.get? document = some view' ∧ Shows view text regions ∧
        Shows view' text regions

/--
In every settled run each document that has a state shows what was last submitted for it, if it
is watched.  If the worker never fails, two settled runs of the same calls agree on every
document, with coalescing or without.
-/
theorem last_submission_wins :
    (∀ (coalesce : Bool)
        (faulty : Nat → Bool)
        (steps : List (Step Document View))
        (document : Document),
      (run coalesce faulty steps).Settled →
      ShowsLast faulty document (account document (calls steps)) (run coalesce faulty steps)) ∧
    ∀ (coalesce coalesce' : Bool)
        (steps steps' : List (Step Document View))
        (document : Document),
      calls steps = calls steps' →
      (run coalesce (fun _ => false) steps).Settled →
      (run coalesce' (fun _ => false) steps').Settled →
      Agree document (account document (calls steps))
        (run coalesce (fun _ => false) steps) (run coalesce' (fun _ => false) steps') := by
  constructor
  · intro coalesce faulty steps document settled
    exact (tracks_run coalesce faulty steps document).showsLast settled
  · intro coalesce coalesce' steps steps' document same settled settled'
    have tracks := tracks_run coalesce (fun _ => false) steps document
    have tracks' := tracks_run coalesce' (fun _ => false) steps' document
    rw [← same] at tracks'
    rcases tracks.showsLast settled with ⟨stated, shows⟩
    rcases tracks'.showsLast settled' with ⟨stated', shows'⟩
    constructor
    · exact stated.trans stated'.symm
    · intro last found watched
      rcases shows last found watched with ⟨view, shown, shows⟩
      rcases shows' last found watched with ⟨view', shown', shows'⟩
      exact ⟨view, view', _, _, shown, shown', shows, shows'⟩

/-- Two texts are submitted, and the worker runs both at once. -/
def prompt : List (Step Nat Recorder) :=
  [.owner (.place 0 .blank), .owner (.schedule 0 ['x']), .pickUp, .finish,
    .owner (.schedule 0 ['y']), .pickUp, .finish, .owner .drain]

/-- The same calls, with a worker that finds both texts in its queue. -/
def tardy : List (Step Nat Recorder) :=
  [.owner (.place 0 .blank), .owner (.schedule 0 ['x']), .owner (.schedule 0 ['y']), .pickUp,
    .pickUp, .finish, .owner .drain]

theorem last_submission_wins_tardy :
    (account 0 (calls tardy)).last? = some ⟨2, ['y'], true⟩ ∧
      ShowsLast (fun _ => false) 0 (account 0 (calls tardy))
        (run true (fun _ => false) tardy) ∧
      Agree 0 (account 0 (calls tardy)) (run true (fun _ => false) tardy)
        (run false (fun _ => false) prompt) := by
  refine ⟨rfl, ?_, ?_⟩
  · exact last_submission_wins.1 true (fun _ => false) tardy 0 ⟨rfl, rfl⟩
  · exact last_submission_wins.2 true false tardy prompt 0 rfl ⟨rfl, rfl⟩ ⟨rfl, rfl⟩

end Reparser

end LuaFold
