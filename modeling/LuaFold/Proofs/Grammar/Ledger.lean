import LuaFold.Proofs.Grammar.Rule

/-!
# A ledger of a parse

Every action but giving a node up adds an entry to a log.  Each token that is taken is worth nine
entries.  Most rules take a token first, and what they save of its worth pays for the nodes
without tokens that they leave behind where something is missing.

A rule can also stop without taking anything.  Then it stands where it began, and what it has
spent comes on top of what was spent there before.  The rest of a construct that is nested too
deeply may cost an entry like that, but only in front of a token at which skipping stops, since it
takes any other token.  Such a token lends two of the entries it is worth, and at the tightest
places both of them are used.
-/

namespace LuaFold

/-- Whether an action adds an entry to a log. -/
def Action.isEntry : Action → Bool
  | .abandon => false
  | _ => true

/-- Whether skipping stops at a token of a kind if no construct is open. -/
def Kind.isStop (kind : Kind) : Bool :=
  kind = .eof || Grammar.State.closing.contains kind || kind = .elseKw || kind = .elseifKw

namespace Grammar

namespace State

/-- The number of entries that the actions so far add to a log. -/
def entries (state : State) : Nat :=
  state.actions.countP Action.isEntry

/-- Whether skipping stops at the current token, as a number. -/
def margin (state : State) : Nat :=
  if state.current.isStop then 1 else 0

theorem margin_le_one (state : State) : state.margin ≤ 1 := by
  unfold margin
  split <;> omega

theorem margin_eq_zero
    {state : State}
    {kind : Kind}
    (found : state.current = kind)
    (moving : kind.isStop = false) :
    state.margin = 0 := by
  simp [margin, found, moving]

theorem margin_congr
    {first second : State}
    (same : second.ahead = first.ahead) :
    second.margin = first.margin := by
  unfold margin current
  rw [same]

theorem current_ne_eof {state : State} (moving : state.margin = 0) : state.current ≠ .eof := by
  intro isEnd
  simp [margin, isEnd, Kind.isStop] at moving

theorem current_ne_eof_of_isAt
    {state : State}
    {kind : Kind}
    (found : state.isAt kind = true)
    (notEnd : kind ≠ .eof) :
    state.current ≠ .eof := by
  rw [isAt_iff.mp found]
  exact notEnd

theorem entries_report
    (state : State)
    (fault : SyntaxFault) :
    (state.report fault).entries = state.entries :=
  rfl

theorem entries_record
    {state : State}
    {action : Action}
    (isEntry : action.isEntry = true) :
    (state.record action).entries = state.entries + 1 := by
  simp [entries, record, isEntry]

theorem entries_abandon (state : State) : state.abandon.entries = state.entries := by
  simp [entries, abandon, record, Action.isEntry]

/-! ## Savings -/

/--
From one state to another so many entries are saved of what the tokens taken meanwhile are worth,
when the token now current lends its entries for a number of times.
-/
def Saves (gain : Int) (credit : Nat) (before after : State) : Prop :=
  9 * (before.position : Int) + 2 * before.margin + after.entries + gain ≤
    9 * after.position + before.entries + credit * after.margin

/-- Nothing is taken, and a limited number of entries is added. -/
structure Rests (cost credit : Nat) (before after : State) : Prop where
  ahead : after.ahead = before.ahead
  position : after.position = before.position
  entries : after.entries ≤ before.entries + cost + credit * before.margin

/-- Either nothing is taken at a limited cost, or entries are saved. -/
def Pays (cost credit : Nat) (gain : Int) (before after : State) : Prop :=
  Rests cost credit before after ∨ Saves gain 2 before after

section Rests

variable {cost credit : Nat} {first second third before after : State}

theorem Rests.refl (state : State) : Rests 0 0 state state :=
  ⟨rfl, rfl, by omega⟩

theorem Rests.margin (rests : Rests cost credit before after) : after.margin = before.margin :=
  margin_congr rests.ahead

theorem Rests.mono
    (rests : Rests cost credit before after)
    {more extra : Nat}
    (dearer : cost ≤ more)
    (further : credit ≤ extra) :
    Rests more extra before after := by
  refine ⟨rests.ahead, rests.position, Nat.le_trans rests.entries ?_⟩
  have product := Nat.mul_le_mul_right before.margin further
  omega

theorem Rests.record
    {action : Action}
    (rests : Rests cost credit before after)
    (isEntry : action.isEntry = true) :
    Rests (cost + 1) credit before (after.record action) := by
  refine ⟨rests.ahead, rests.position, ?_⟩
  have spent := rests.entries
  rw [entries_record isEntry]
  omega

theorem Rests.report (state : State) (fault : SyntaxFault) : Rests 0 0 state (state.report fault) :=
  ⟨rfl, rfl, by rw [entries_report]; omega⟩

theorem Rests.start (state : State) : Rests 1 0 state state.start :=
  (Rests.refl state).record rfl

theorem Rests.trans
    (early : Rests cost credit first second)
    {more extra : Nat}
    (late : Rests more extra second third) :
    Rests (cost + more) (credit + extra) first third := by
  refine ⟨late.ahead.trans early.ahead, late.position.trans early.position, ?_⟩
  have spent := early.entries
  have spentBehind := late.entries
  rw [early.margin] at spentBehind
  rw [Nat.add_mul]
  omega

theorem Rests.abandon (rests : Rests cost credit before after) :
    Rests cost credit before after.abandon :=
  ⟨rests.ahead, rests.position, by rw [entries_abandon]; exact rests.entries⟩

end Rests

section Saves

variable {gain : Int} {credit : Nat} {first second third before after : State}

theorem Saves.refl (state : State) : Saves 0 2 state state := by
  unfold Saves
  omega

/-- Where skipping goes on nothing is lent. -/
theorem Saves.ofMoving {state : State} (moving : state.margin = 0) : Saves 0 0 state state := by
  unfold Saves
  rw [moving]
  omega

/-- A time at which nothing is lent costs an entry at most. -/
theorem Saves.mono
    (saves : Saves gain credit before after)
    {left : Int}
    {remaining : Nat}
    (smaller : left + ((credit - remaining : Nat) : Int) ≤ gain) :
    Saves left remaining before after := by
  unfold Saves at saves ⊢
  rcases Nat.le_one_iff_eq_zero_or_eq_one.mp after.margin_le_one with none | one
  · rw [none] at saves ⊢
    omega
  · rw [one] at saves ⊢
    omega

/-- What is saved in front of a state counts when more is saved behind it. -/
theorem Saves.trans
    (early : Saves gain credit first second)
    {more : Int}
    {extra : Nat}
    (late : Saves more extra second third)
    {left : Int}
    (smaller : left + ((credit - 2 : Nat) : Int) ≤ gain + more) :
    Saves left extra first third := by
  unfold Saves at early late ⊢
  rcases Nat.le_one_iff_eq_zero_or_eq_one.mp second.margin_le_one with none | one
  · rw [none] at early late
    omega
  · rw [one] at early late
    omega

/-- A rule that takes nothing uses up some of what is saved. -/
theorem Saves.rest
    (saves : Saves gain credit first second)
    {cost extra : Nat}
    (rests : Rests cost extra second third) :
    Saves (gain - cost) (credit + extra) first third := by
  have spent := rests.entries
  have position := rests.position
  unfold Saves at saves ⊢
  rw [rests.margin, position]
  rcases Nat.le_one_iff_eq_zero_or_eq_one.mp second.margin_le_one with none | one
  · rw [none] at saves spent ⊢
    omega
  · rw [one] at saves spent ⊢
    omega

/-- What is spent before anything is taken has to be saved later. -/
theorem Rests.save
    {cost extra : Nat}
    (rests : Rests cost extra first second)
    (saves : Saves gain credit second third) :
    Saves (gain - cost - extra) credit first third := by
  have spent := rests.entries
  have position := rests.position
  unfold Saves at saves ⊢
  rw [rests.margin, position] at saves
  rcases Nat.le_one_iff_eq_zero_or_eq_one.mp first.margin_le_one with none | one
  · rw [none] at saves spent ⊢
    omega
  · rw [one] at saves spent ⊢
    omega

/-- A rule behind what is saved, whether it takes something or not. -/
theorem Saves.pay
    (saves : Saves gain credit first second)
    {cost extra : Nat}
    {more : Int}
    (pays : Pays cost extra more second third)
    {left : Int}
    {remaining : Nat}
    (resting : left + cost + ((credit + extra - remaining : Nat) : Int) ≤ gain)
    (saving : left + ((credit - 2 : Nat) : Int) + ((2 - remaining : Nat) : Int) ≤ gain + more) :
    Saves left remaining first third := by
  rcases pays with rests | late
  · exact (saves.rest rests).mono (by omega)
  · have joined : Saves (left + ((2 - remaining : Nat) : Int)) 2 first third :=
      saves.trans late (by omega)
    exact joined.mono (by omega)

/-- What costs nothing or saves as much as a token keeps what is saved before it. -/
theorem Saves.keep
    (saves : Saves gain credit first second)
    (pays : Pays 0 0 6 second third)
    (few : credit ≤ 2) :
    Saves gain credit first third :=
  saves.pay pays (by omega) (by omega)

/-- An entry that takes nothing. -/
theorem Saves.record
    {action : Action}
    (saves : Saves gain credit before after)
    (isEntry : action.isEntry = true) :
    Saves (gain - 1) credit before (after.record action) := by
  have rests : Rests 1 0 after (after.record action) := (Rests.refl after).record isEntry
  simpa using saves.rest rests

theorem Saves.start (saves : Saves gain credit before after) :
    Saves (gain - 1) credit before after.start :=
  saves.record rfl

theorem Saves.complete
    (saves : Saves gain credit before after)
    (kind : Kind) :
    Saves (gain - 1) credit before (after.complete kind) :=
  saves.record rfl

theorem Saves.precede (saves : Saves gain credit before after) :
    Saves (gain - 1) credit before after.precede :=
  saves.record rfl

theorem Saves.report
    (saves : Saves gain credit before after)
    (fault : SyntaxFault) :
    Saves gain credit before (after.report fault) :=
  saves

theorem Saves.abandon (saves : Saves gain credit before after) :
    Saves gain credit before after.abandon := by
  unfold Saves at saves ⊢
  rw [entries_abandon]
  exact saves

theorem entries_advance
    {state : State}
    (notEnd : state.current ≠ .eof) :
    state.advance.entries = state.entries + 1 ∧ state.advance.position = state.position + 1 := by
  have stepped : state.advance =
      ⟨state.ahead.tail, state.position + 1, .advance :: state.actions, state.faults⟩ := by
    simp [State.advance, isAt, notEnd]
  rw [stepped]
  exact ⟨List.countP_cons_of_pos rfl, rfl⟩

/-- A token that is taken costs one of the entries that it is worth, and those it has lent. -/
theorem Saves.take
    (saves : Saves gain credit before after)
    (notEnd : after.current ≠ .eof) :
    Saves (gain + 8 - credit) 0 before after.advance := by
  obtain ⟨entries, position⟩ := entries_advance notEnd
  unfold Saves at saves ⊢
  rw [entries, position]
  rcases Nat.le_one_iff_eq_zero_or_eq_one.mp after.margin_le_one with none | one
  · rw [none] at saves
    omega
  · rw [one] at saves
    omega

/-- A node that begins with its token. -/
theorem Saves.opened
    {state : State}
    (moving : state.margin = 0) :
    Saves 7 0 state state.start.advance := by
  have saved := ((Saves.ofMoving moving).start).take (current_ne_eof moving)
  exact saved.mono (by omega)

end Saves

section Pays

variable {cost credit : Nat} {gain : Int} {first second third before after : State}

theorem Rests.pays
    (rests : Rests cost credit before after)
    (gain : Int) :
    Pays cost credit gain before after :=
  Or.inl rests

theorem Saves.pays
    (saves : Saves gain credit before after)
    {left : Int}
    (cost extra : Nat)
    (smaller : left + ((credit - 2 : Nat) : Int) ≤ gain) :
    Pays cost extra left before after :=
  Or.inr (saves.mono smaller)

theorem Pays.refl (state : State) (gain : Int) : Pays 0 0 gain state state :=
  (Rests.refl state).pays gain

theorem Pays.mono
    (pays : Pays cost credit gain before after)
    {more extra : Nat}
    {left : Int}
    (dearer : cost ≤ more)
    (further : credit ≤ extra)
    (smaller : left ≤ gain) :
    Pays more extra left before after := by
  rcases pays with rests | saves
  · exact Or.inl (rests.mono dearer further)
  · exact Or.inr (saves.mono (by omega))

/-- One rule behind another. -/
theorem Pays.trans
    (early : Pays cost credit gain first second)
    {cost' credit' : Nat}
    {gain' : Int}
    (late : Pays cost' credit' gain' second third)
    {left : Int}
    (resting : left + cost + credit ≤ gain')
    (saving : left + cost' + credit' ≤ gain)
    (both : left ≤ gain + gain') :
    Pays (cost + cost') (credit + credit') left first third := by
  rcases early with rests | saves
  · rcases late with later | saves
    · exact Or.inl (rests.trans later)
    · exact Or.inr ((rests.save saves).mono (by omega))
  · exact Or.inr (saves.pay late (by omega) (by omega))

/-- A node around what a rule adds. -/
theorem Pays.node
    (pays : Pays cost credit gain before.start after)
    (kind : Kind)
    {left : Int}
    (smaller : left + 2 ≤ gain) :
    Pays (cost + 2) credit left before (after.complete kind) := by
  rcases pays with rests | saves
  · have whole := (Rests.start before).trans rests
    have completed : Rests (1 + cost + 1) (0 + credit) before (after.complete kind) :=
      whole.record rfl
    exact Or.inl (completed.mono (by omega) (by omega))
  · have whole := ((Rests.start before).save saves).complete kind
    exact Or.inr (whole.mono (by omega))

/-- A token of a kind other than the end of the text is taken if it is there. -/
theorem Pays.accept
    (state : State)
    {kind : Kind}
    (notEnd : kind ≠ .eof) :
    Pays 0 0 6 state (state.accept kind) := by
  unfold State.accept
  split
  · next found =>
    have saved := (Saves.refl state).take (current_ne_eof_of_isAt found notEnd)
    exact Or.inr (saved.mono (by omega))
  · exact Pays.refl state 6

theorem Pays.expect
    (state : State)
    {kind : Kind}
    (notEnd : kind ≠ .eof) :
    Pays 0 0 6 state (state.expect kind) := by
  unfold State.expect
  split
  · next found =>
    have saved := (Saves.refl state).take (current_ne_eof_of_isAt found notEnd)
    exact Or.inr (saved.mono (by omega))
  · exact (Rests.report state _).pays 6

/-- The current token is taken unless it is the end of the text. -/
theorem Pays.advance (state : State) : Pays 0 0 6 state state.advance := by
  by_cases isEnd : state.current = .eof
  · have kept : state.advance = state := by simp [State.advance, isAt, isEnd]
    rw [kept]
    exact .refl state 6
  · exact Or.inr (((Saves.refl state).take isEnd).mono (by omega))

end Pays

/-! ## Loops -/

/-- Rounds that all save something, and a last one behind them. -/
theorem Pays.iterate
    {Value : Type}
    (view : Value → State)
    {round : Value → Turn Value}
    {cost credit : Nat}
    {gain : Int}
    (step : Int)
    (next : ∀ value later, round value = .next later → Saves step 2 (view value) (view later))
    (last : ∀ value later, round value = .last later →
      Pays cost credit gain (view value) (view later))
    (nonneg : 0 ≤ step)
    (enough : gain + cost + credit ≤ step)
    (tokens : List Kind)
    (value : Value) :
    Pays cost credit gain (view value) (view (iterate round tokens value)) := by
  induction tokens generalizing value with
  | nil => exact (Pays.refl (view value) gain).mono (Nat.zero_le _) (Nat.zero_le _) le_rfl
  | cons token tokens ih =>
      cases found : round value with
      | next later =>
          rw [Grammar.iterate, found]
          exact Or.inr ((next value later found).pay (ih later) (by omega) (by omega))
      | last later =>
          rw [Grammar.iterate, found]
          exact last value later found

theorem Pays.loop
    {round : State → Turn State}
    {cost credit : Nat}
    {gain : Int}
    (step : Int)
    (next : ∀ state later, round state = .next later → Saves step 2 state later)
    (last : ∀ state later, round state = .last later → Pays cost credit gain state later)
    (nonneg : 0 ≤ step)
    (enough : gain + cost + credit ≤ step)
    (state : State) :
    Pays cost credit gain state (state.loop round) :=
  Pays.iterate id step next last nonneg enough state.ahead state

/-- Items behind separators. -/
theorem Pays.separated
    {separator : Kind}
    {item : State → State}
    {cost credit : Nat}
    {gain left : Int}
    (moving : separator.isStop = false)
    (pays : ∀ state, Pays cost credit gain state (item state))
    (state : State)
    (resting : left + cost + ((credit - 2 : Nat) : Int) ≤ 8)
    (saving : left ≤ 8 + gain)
    (nonneg : 0 ≤ left) :
    Pays 0 0 left state (state.separated separator item) := by
  refine Pays.loop left ?_ ?_ nonneg (by omega) state
  · intro before later found
    split at found
    · next here =>
      cases found
      have still := margin_eq_zero (isAt_iff.mp here) moving
      have taken := (Saves.ofMoving still).take (current_ne_eof still)
      exact taken.pay (pays _) (by omega) (by omega)
    · cases found
  · intro before later found
    split at found
    · cases found
    · cases found
      exact .refl before left

end State

end Grammar

end LuaFold
