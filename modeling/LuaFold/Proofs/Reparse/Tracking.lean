import LuaFold.Proofs.Reparse.Invariant

/-!
# What an account says of the state

A document has a state just when its account has a last submission.  If the document is watched,
its view shows that submission already, or the submission is still in flight with a number that
the view has yet to take.  Each step of a run keeps this.
-/

namespace LuaFold

namespace Reparser

variable {Document : Type}

/-! ## Submissions on their way -/

section Pending

/-- A submission is on its way to its view: queued, running, or received as an update. -/
inductive Pending
    (faulty : Nat → Bool)
    (submission : Submission Document)
    (reparser : Reparser Document) :
    Prop where
  | received (listed : submission.update (faulty submission.sequence) ∈ reparser.received)
  | running (busy : reparser.running? = some (submission, faulty submission.sequence))
  | queued (listed : submission ∈ reparser.queue)

variable {faulty : Nat → Bool} {submission : Submission Document}
  {reparser : Reparser Document}

theorem Pending.schedule
    [DecidableEq Document]
    (pending : Pending faulty submission reparser)
    (document : Document)
    (text : Text) :
    Pending faulty submission (reparser.schedule document text) := by
  rcases pending with listed | busy | listed
  · exact .received listed
  · exact .running busy
  · exact .queued (List.mem_append_left _ listed)

theorem Pending.forget
    [DecidableEq Document]
    (pending : Pending faulty submission reparser)
    (document : Document) :
    Pending faulty submission (reparser.forget document) := by
  rcases pending with listed | busy | listed
  · exact .received listed
  · exact .running busy
  · exact .queued listed

/-- What is not superseded is not skipped. -/
theorem Pending.pickUpFront
    (pending : Pending faulty submission reparser)
    (newest : reparser.newest.get? submission.generation = some submission.sequence) :
    Pending faulty submission (reparser.pickUpFront faulty) := by
  rcases pickUpFront_cases faulty reparser with
    same | ⟨front, queue, idle, queued, ⟨superseded, skipped⟩ | started⟩
  · rw [same]
    exact pending
  · rw [skipped]
    rcases pending with listed | busy | listed
    · exact .received listed
    · exact .running busy
    · rw [queued] at listed
      rcases List.mem_cons.mp listed with rfl | later
      · -- what is skipped is superseded, which the newest submission of a generation is not
        simp [Reparser.superseded, newest] at superseded
      · exact .queued later
  · rw [started]
    rcases pending with listed | busy | listed
    · exact .received listed
    · rw [idle] at busy
      cases busy
    · rw [queued] at listed
      rcases List.mem_cons.mp listed with rfl | later
      · exact .running rfl
      · exact .queued later

theorem Pending.finish (pending : Pending faulty submission reparser) :
    Pending faulty submission reparser.finish := by
  rcases finish_cases reparser with same | ⟨running, fails, busy, finished⟩
  · rw [same]
    exact pending
  · rw [finished]
    rcases pending with listed | busy' | listed
    · exact .received (List.mem_append_left _ listed)
    · rw [busy] at busy'
      cases busy'
      exact .received (List.mem_append_right _ List.mem_cons_self)
    · exact .queued listed

theorem mem_unfinished_running
    {fails : Bool}
    (busy : reparser.running? = some (submission, fails)) :
    (submission.document, submission.sequence) ∈ reparser.unfinished := by
  simp [unfinished, busy]

theorem mem_unfinished_queued (listed : submission ∈ reparser.queue) :
    (submission.document, submission.sequence) ∈ reparser.unfinished :=
  List.mem_append_right _ (List.mem_map_of_mem listed)

end Pending

/-! ## Accounts and states -/

variable {faulty : Nat → Bool} {reparser : Reparser Document}
variable {View : Type} [Display View]

/-- The submission that an account has as its last one. -/
def Submitted.submission
    (last : Submitted)
    (document : Document)
    (generation : Nat) :
    Submission Document :=
  ⟨document, last.sequence, generation, last.text⟩

/-- How far the last submission of a watched document has come. -/
inductive Outcome
    (faulty : Nat → Bool)
    (document : Document)
    (last : Submitted)
    (known : DocumentState)
    (reparser : Reparser Document)
    (view : View) :
    Prop where
  | shown
      (applied : known.applied = last.sequence)
      (shows : Shows view last.text (regionsOf faulty last.sequence last.text))
  | due
      (applied : known.applied < last.sequence)
      (pending : Pending faulty (last.submission document known.generation) reparser)

variable {document : Document} {last : Submitted} {known : DocumentState}

theorem Outcome.applied_le
    {view : View}
    (outcome : Outcome faulty document last known reparser view) :
    known.applied ≤ last.sequence := by
  rcases outcome with ⟨applied, _⟩ | ⟨applied, _⟩
  · exact Nat.le_of_eq applied
  · exact Nat.le_of_lt applied

/-- What was on its way and is still on its way changes no outcome. -/
theorem Outcome.mono
    {after : Reparser Document}
    {view : View}
    (outcome : Outcome faulty document last known reparser view)
    (keeps : ∀ submission, submission.generation = known.generation →
      submission.sequence = last.sequence →
      Pending faulty submission reparser → Pending faulty submission after) :
    Outcome faulty document last known after view := by
  rcases outcome with ⟨applied, shows⟩ | ⟨applied, pending⟩
  · exact .shown applied shows
  · exact .due applied (keeps _ rfl rfl pending)

variable [DecidableEq Document]

/-- The state of a document agrees with its last submission. -/
structure Current
    (faulty : Nat → Bool)
    (document : Document)
    (last : Submitted)
    (known : DocumentState)
    (state : Applied Document View) :
    Prop where
  newest : state.reparser.newest.get? known.generation = some last.sequence
  latest : ∀ number, (document, number) ∈ state.reparser.inFlight → number ≤ last.sequence
  submitted : last.sequence ≤ state.reparser.lastSequence
  outcome : last.watched = true → ∃ view, state.views.get? document = some view ∧
    Outcome faulty document last known state.reparser view

/-- A state agrees with the account of a document. -/
structure Tracks
    (faulty : Nat → Bool)
    (document : Document)
    (account : Account)
    (state : Applied Document View) :
    Prop where
  submissions : account.submissions = state.reparser.lastSequence
  present : account.present = (state.views.get? document).isSome
  absent : account.last? = none → state.reparser.documents.get? document = none
  current : ∀ last, account.last? = some last →
    ∃ known, state.reparser.documents.get? document = some known ∧
      Current faulty document last known state

variable {account : Account} {state : Applied Document View}

theorem tracks_new
    (faulty : Nat → Bool)
    (coalesce : Bool)
    (document : Document) :
    Tracks faulty document ⟨0, false, none⟩
      (⟨.new coalesce, .empty⟩ : Applied Document View) := by
  constructor
  · rfl
  · rfl
  · intro _
    rfl
  · intro last found
    cases found

/-- A change that submits nothing keeps everything but, perhaps, the outcome. -/
theorem Current.carry
    (current : Current faulty document last known state)
    {after : Applied Document View}
    (recedes : Recedes state.reparser after.reparser)
    {known' : DocumentState}
    (generation : known'.generation = known.generation)
    (outcome : last.watched = true → ∃ view, after.views.get? document = some view ∧
      Outcome faulty document last known' after.reparser view) :
    Current faulty document last known' after := by
  constructor
  · rw [recedes.newest, generation]
    exact current.newest
  · intro number member
    exact current.latest number (recedes.inFlight.subset member)
  · rw [recedes.lastSequence]
    exact current.submitted
  · exact outcome

/-- A change that submits nothing and loses nothing leaves a document and its view alone. -/
theorem Current.recede
    (current : Current faulty document last known state)
    {after : Applied Document View}
    (recedes : Recedes state.reparser after.reparser)
    (view : after.views.get? document = state.views.get? document)
    (keeps : ∀ submission, submission.generation = known.generation →
      submission.sequence = last.sequence →
      Pending faulty submission state.reparser → Pending faulty submission after.reparser) :
    Current faulty document last known after := by
  apply current.carry recedes rfl
  intro watched
  rcases current.outcome watched with ⟨shown, found, outcome⟩
  exact ⟨shown, view.trans found, outcome.mono keeps⟩

theorem Tracks.recede
    (tracks : Tracks faulty document account state)
    {after : Applied Document View}
    (recedes : Recedes state.reparser after.reparser)
    (same : after.reparser.documents.get? document = state.reparser.documents.get? document)
    (view : after.views.get? document = state.views.get? document)
    (keeps : ∀ submission,
      state.reparser.newest.get? submission.generation = some submission.sequence →
      Pending faulty submission state.reparser → Pending faulty submission after.reparser) :
    Tracks faulty document account after := by
  constructor
  · rw [recedes.lastSequence]
    exact tracks.submissions
  · rw [view]
    exact tracks.present
  · intro missing
    exact same.trans (tracks.absent missing)
  · intro last found
    rcases tracks.current last found with ⟨known, stated, current⟩
    refine ⟨known, same.trans stated, current.recede recedes view ?_⟩
    intro submission generation sequence
    apply keeps
    rw [generation, sequence]
    exact current.newest

/-! ## The worker -/

theorem Tracks.pickUpFront (tracks : Tracks faulty document account state) :
    Tracks faulty document account ⟨state.reparser.pickUpFront faulty, state.views⟩ := by
  apply tracks.recede (recedes_pickUpFront faulty state.reparser)
  · rcases pickUpFront_cases faulty state.reparser with
      same | ⟨_, _, _, _, ⟨_, same⟩ | same⟩ <;> rw [same]
  · rfl
  · intro submission newest pending
    exact pending.pickUpFront newest

theorem Tracks.finish (tracks : Tracks faulty document account state) :
    Tracks faulty document account ⟨state.reparser.finish, state.views⟩ := by
  apply tracks.recede (recedes_finish state.reparser)
  · rcases finish_cases state.reparser with same | ⟨_, _, _, same⟩ <;> rw [same]
  · rfl
  · intro submission _ pending
    exact pending.finish

/-! ## The owner -/

theorem Tracks.forget
    (tracks : Tracks faulty document account state)
    (other : Document) :
    Tracks faulty document
      (account.enter document (.forget other : Call Document View))
      ⟨state.reparser.forget other, state.views⟩ := by
  rw [Account.enter]
  split
  · next same =>
    subst same
    constructor
    · exact tracks.submissions
    · exact tracks.present
    · intro _
      exact Table.get?_remove_self _ _
    · intro last found
      cases found
  · next different =>
    apply tracks.recede (recedes_forget state.reparser other)
    · exact Table.get?_remove_of_ne _ different
    · rfl
    · intro submission _ pending
      exact pending.forget other

/-- A document whose view was touched is not watched any more. -/
theorem Tracks.disturb
    (tracks : Tracks faulty document account state)
    (views : Table Document View) :
    Tracks faulty document (account.disturb (views.get? document).isSome)
      ⟨state.reparser, views⟩ := by
  constructor
  · exact tracks.submissions
  · rfl
  · intro missing
    exact tracks.absent (Option.map_eq_none_iff.mp missing)
  · intro last found
    rcases Option.map_eq_some_iff.mp found with ⟨earlier, entered, rfl⟩
    rcases tracks.current earlier entered with ⟨known, stated, current⟩
    exact ⟨known, stated, current.newest, current.latest, current.submitted, nofun⟩

/-- The views of other documents do not matter. -/
theorem Tracks.views
    (tracks : Tracks faulty document account state)
    (views : Table Document View)
    (same : views.get? document = state.views.get? document) :
    Tracks faulty document account ⟨state.reparser, views⟩ :=
  tracks.recede (Recedes.refl state.reparser) rfl same fun _ _ pending => pending

theorem Tracks.place
    (tracks : Tracks faulty document account state)
    (other : Document)
    (view : View) :
    Tracks faulty document (account.enter document (.place other view))
      ⟨state.reparser, state.views.set other view⟩ := by
  rw [Account.enter]
  split
  · next same =>
    have disturbed := tracks.disturb (state.views.set other view)
    subst same
    rwa [Table.get?_set_self] at disturbed
  · next different =>
    exact tracks.views _ (Table.get?_set_of_ne _ different _)

theorem Tracks.remove
    (tracks : Tracks faulty document account state)
    (other : Document) :
    Tracks faulty document
      (account.enter document (.remove other : Call Document View))
      ⟨state.reparser, state.views.remove other⟩ := by
  rw [Account.enter]
  split
  · next same =>
    have disturbed := tracks.disturb (state.views.remove other)
    subst same
    rwa [Table.get?_remove_self] at disturbed
  · next different =>
    exact tracks.views _ (Table.get?_remove_of_ne _ different)

/-! ### Submitting -/

/-- A submission of another document is counted under another generation. -/
theorem Orderly.stateFor_ne
    {other : Document}
    (orderly : Orderly reparser)
    (stated : reparser.documents.get? document = some known)
    (different : other ≠ document) :
    (reparser.stateFor other).generation ≠ known.generation := by
  rw [stateFor]
  cases found : reparser.documents.get? other with
  | none =>
      have bound := orderly.generated document known stated
      exact Nat.ne_of_gt (Nat.lt_succ_of_le bound)
  | some another =>
      intro same
      exact different (orderly.apart other document another known found stated same)

theorem Current.schedule_other
    {other : Document}
    (current : Current faulty document last known state)
    (orderly : Orderly state.reparser)
    (stated : state.reparser.documents.get? document = some known)
    (different : other ≠ document)
    (text : Text) :
    Current faulty document last known
      ⟨state.reparser.schedule other text, state.views⟩ := by
  constructor
  · rw [schedule, Table.get?_set_of_ne _ (orderly.stateFor_ne stated different)]
    exact current.newest
  · intro number member
    rw [inFlight_schedule] at member
    rcases List.mem_append.mp member with earlier | new
    · exact current.latest number earlier
    · cases List.mem_singleton.mp new
      exact absurd rfl different
  · exact Nat.le_succ_of_le current.submitted
  · intro watched
    rcases current.outcome watched with ⟨view, shown, outcome⟩
    refine ⟨view, shown, outcome.mono ?_⟩
    intro submission _ _ pending
    exact pending.schedule other text

/-- The state that a watched document submits under is behind the submission. -/
theorem Tracks.stateFor
    (tracks : Tracks faulty document account state)
    (watched : (account.last?.map Submitted.watched).getD account.present = true) :
    (∃ view, state.views.get? document = some view) ∧
      (state.reparser.stateFor document).applied < state.reparser.nextSequence := by
  cases last? : account.last? with
  | none =>
      rw [last?] at watched
      constructor
      · exact Option.isSome_iff_exists.mp (tracks.present.symm.trans watched)
      · rw [Reparser.stateFor, tracks.absent last?]
        exact Nat.lt_succ_self _
  | some last =>
      rw [last?] at watched
      rcases tracks.current last last? with ⟨known, stated, current⟩
      rcases current.outcome watched with ⟨view, shown, outcome⟩
      constructor
      · exact ⟨view, shown⟩
      · rw [Reparser.stateFor, stated]
        exact Nat.lt_succ_of_le (Nat.le_trans outcome.applied_le current.submitted)

/--
A submission by a document with a view is on its way to the view, if the document submits it
under a state that is behind it.
-/
theorem Tracks.resubmit
    (tracks : Tracks faulty document account state)
    (orderly : Orderly state.reparser)
    (text : Text)
    {watched : Bool}
    (ready : watched = true → (∃ view, state.views.get? document = some view) ∧
      (state.reparser.stateFor document).applied < state.reparser.nextSequence) :
    Tracks faulty document
      { account with
        submissions := account.submissions + 1
        last? := some ⟨account.submissions + 1, text, watched⟩ }
      ⟨state.reparser.schedule document text, state.views⟩ := by
  have next : account.submissions + 1 = state.reparser.nextSequence :=
    congrArg Nat.succ tracks.submissions
  constructor
  · exact next
  · exact tracks.present
  · intro missing
    cases missing
  · intro last found
    cases found
    refine ⟨state.reparser.stateFor document, Table.get?_set_self _ _ _, ?_⟩
    constructor
    · rw [next]
      exact Table.get?_set_self _ _ _
    · intro number member
      rw [inFlight_schedule] at member
      rw [next]
      rcases List.mem_append.mp member with earlier | new
      · exact Nat.le_succ_of_le (orderly.submitted _ earlier)
      · cases List.mem_singleton.mp new
        exact Nat.le_refl _
    · exact Nat.le_of_eq next
    · intro seen
      rcases ready seen with ⟨⟨view, shown⟩, behind⟩
      refine ⟨view, shown, .due ?_ (.queued ?_)⟩
      · rw [next]
        exact behind
      · simp [Submitted.submission, schedule, next]

theorem Tracks.submit
    (tracks : Tracks faulty document account state)
    (orderly : Orderly state.reparser)
    (text : Text) :
    Tracks faulty document (account.submit text)
      ⟨state.reparser.schedule document text, state.views⟩ :=
  tracks.resubmit orderly text tracks.stateFor

theorem Tracks.schedule
    (tracks : Tracks faulty document account state)
    (orderly : Orderly state.reparser)
    (other : Document)
    (text : Text) :
    Tracks faulty document
      (account.enter document (.schedule other text : Call Document View))
      ⟨state.reparser.schedule other text, state.views⟩ := by
  rw [Account.enter]
  split
  · next same =>
    subst same
    exact tracks.submit orderly text
  · next different =>
    have kept : (state.reparser.schedule other text).documents.get? document =
        state.reparser.documents.get? document :=
      Table.get?_set_of_ne _ different _
    constructor
    · exact congrArg Nat.succ tracks.submissions
    · exact tracks.present
    · intro missing
      exact kept.trans (tracks.absent missing)
    · intro last found
      rcases tracks.current last found with ⟨known, stated, current⟩
      exact ⟨known, kept.trans stated, current.schedule_other orderly stated different text⟩

/-! ### Applying -/

theorem recedes_drain (state : Applied Document View) :
    Recedes state.reparser state.drain.1.reparser := by
  constructor
  · rw [Applied.reparser_drain]
  · rw [Applied.reparser_drain]
  · rw [Applied.reparser_drain]
    exact List.sublist_append_right _ _
  · intro other known found
    have kept := state.generation_drain other
    rw [found] at kept
    rcases Option.map_eq_some_iff.mp kept.symm with ⟨earlier, stated, same⟩
    exact ⟨earlier, stated, same.symm⟩

/-- What the worker has not finished stays on its way. -/
theorem Pending.drain
    {submission : Submission Document}
    (pending : Pending faulty submission state.reparser) :
    submission.update (faulty submission.sequence) ∈ state.reparser.received ∨
      (submission.document, submission.sequence) ∈ state.reparser.unfinished ∧
        Pending faulty submission state.drain.1.reparser := by
  rw [Applied.reparser_drain]
  rcases pending with listed | busy | listed
  · exact Or.inl listed
  · exact Or.inr ⟨mem_unfinished_running busy, .running busy⟩
  · exact Or.inr ⟨mem_unfinished_queued listed, .queued listed⟩

theorem Current.drain_watched
    (current : Current faulty document last known state)
    (orderly : Orderly state.reparser)
    (stated : state.reparser.documents.get? document = some known)
    {view : View}
    (shown : state.views.get? document = some view)
    (outcome : Outcome faulty document last known state.reparser view) :
    ∃ known' view', state.drain.1.look document = (some known', some view') ∧
      known'.generation = known.generation ∧
      Outcome faulty document last known' state.drain.1.reparser view' := by
  rcases state.drain_cases stated shown with
    ⟨look, older⟩ | ⟨update, listed, same, newer, greatest, look⟩
  · refine ⟨known, view, look, rfl, ?_⟩
    rcases outcome with ⟨applied, shows⟩ | ⟨applied, pending⟩
    · exact .shown applied shows
    · rcases pending.drain with received | ⟨_, pending⟩
      · exact absurd (older _ received rfl) (Nat.not_le_of_lt applied)
      · exact .due applied pending
  · refine ⟨_, _, look, rfl, ?_⟩
    have bound : update.sequence ≤ last.sequence := by
      apply current.latest
      rw [← same]
      exact List.mem_append_left _ (List.mem_map_of_mem listed)
    rcases outcome with ⟨applied, _⟩ | ⟨_, pending⟩
    · exact absurd bound (Nat.not_le_of_lt (applied ▸ newer))
    · rcases pending.drain with received | ⟨unfinished, pending⟩
      · -- the update taken has the number of the last submission, so it is its update
        have number : update.sequence = last.sequence :=
          Nat.le_antisymm bound (greatest _ received rfl)
        have taken := orderly.received_unique listed received number
        subst taken
        exact .shown rfl ⟨view, rfl⟩
      · exact .due (orderly.received_lt listed unfinished) pending

theorem Current.drain
    (current : Current faulty document last known state)
    (orderly : Orderly state.reparser)
    (stated : state.reparser.documents.get? document = some known) :
    ∃ known', state.drain.1.reparser.documents.get? document = some known' ∧
      Current faulty document last known' state.drain.1 := by
  have recedes := recedes_drain state
  by_cases watched : last.watched = true
  · rcases current.outcome watched with ⟨view, shown, outcome⟩
    rcases current.drain_watched orderly stated shown outcome with
      ⟨known', view', look, generation, outcome'⟩
    have known_look := congrArg Prod.fst look
    have view_look := congrArg Prod.snd look
    exact ⟨known', known_look,
      current.carry recedes generation fun _ => ⟨view', view_look, outcome'⟩⟩
  · have kept := state.generation_drain document
    rw [stated] at kept
    rcases Option.map_eq_some_iff.mp kept with ⟨known', stated', generation⟩
    exact ⟨known', stated',
      current.carry recedes generation fun seen => absurd seen watched⟩

theorem Tracks.drain
    (tracks : Tracks faulty document account state)
    (orderly : Orderly state.reparser) :
    Tracks faulty document account state.drain.1 := by
  constructor
  · rw [(recedes_drain state).lastSequence]
    exact tracks.submissions
  · rw [state.isSome_view_drain document]
    exact tracks.present
  · intro missing
    have kept := state.generation_drain document
    rw [tracks.absent missing] at kept
    exact Option.map_eq_none_iff.mp kept
  · intro last found
    rcases tracks.current last found with ⟨known, stated, current⟩
    exact current.drain orderly stated

end Reparser

end LuaFold
