import LuaFold.Proofs.Grammar.Ledger
import LuaFold.Proofs.Grammar.Replay

/-!
# The size of a log

An action adds one event to a log at most, and giving a node up adds none.  So a log is no longer
than the number of entries among the actions, at every moment, and neither are the calls that it
is replayed to.  Forward pointers only lead forward.
-/

namespace LuaFold

namespace EventLog

/-- Every forward pointer of a log leads over some distance. -/
def Forward (log : EventLog) : Prop :=
  ∀ kind distance, .start kind (some distance) ∈ log.events → 0 < distance

/-- A log that grew by a number of entries from an empty one. -/
structure Grown (log : EventLog) (entries : Nat) : Prop where
  length_le : log.events.length ≤ entries
  position_le : log.position ≤ entries
  forward : log.Forward

theorem grown_new : Grown .new 0 :=
  ⟨Nat.le_refl _, Nat.le_refl _, fun _ _ member => by cases member⟩

section Grown

variable {log later : EventLog} {entries : Nat}

theorem Grown.mono
    (grown : log.Grown entries)
    {more : Nat}
    (le : entries ≤ more) :
    log.Grown more :=
  ⟨grown.length_le.trans le, grown.position_le.trans le, grown.forward⟩

/-- One more event, which points nowhere. -/
theorem Grown.append
    (grown : log.Grown entries)
    {event : Event}
    (unlinked : ∀ kind distance, event ≠ .start kind (some distance))
    {position : Nat}
    (few : position ≤ entries + 1)
    (opened : List Nat)
    (completed? : Option Nat) :
    Grown ⟨log.events ++ [event], position, opened, completed?⟩ (entries + 1) := by
  refine ⟨?_, few, fun kind distance member => ?_⟩
  · rw [List.length_append]
    exact Nat.succ_le_succ grown.length_le
  · rcases List.mem_append.mp member with early | last
    · exact grown.forward kind distance early
    · exact absurd (List.mem_singleton.mp last).symm (unlinked kind distance)

/-- An event is put in the place of another, with a pointer that leads over some distance. -/
theorem Grown.set
    (grown : log.Grown entries)
    (index : Nat)
    (kind : Kind)
    {parent? : Option Nat}
    (positive : ∀ distance ∈ parent?, 0 < distance)
    (opened : List Nat)
    (completed? : Option Nat) :
    Grown ⟨log.events.set index (.start kind parent?), log.position, opened, completed?⟩
      entries := by
  refine ⟨?_, grown.position_le, fun other distance member => ?_⟩
  · rw [List.length_set]
    exact grown.length_le
  · rcases List.mem_or_eq_of_mem_set member with kept | same
    · exact grown.forward other distance kept
    · cases same
      exact positive distance rfl

theorem Grown.start (grown : log.Grown entries) : log.start.Grown (entries + 1) :=
  grown.append (fun _ _ same => by cases same) (Nat.le_succ_of_le grown.position_le) _ _

theorem Grown.advance
    (grown : log.Grown entries)
    (performed : log.perform .advance = some later) :
    later.Grown (entries + 1) := by
  cases performed
  exact grown.append (fun _ _ same => by cases same) (Nat.succ_le_succ grown.position_le) _ _

theorem Grown.complete
    (grown : log.Grown entries)
    {kind : Kind}
    (performed : log.perform (.complete kind) = some later) :
    later.Grown (entries + 1) := by
  simp only [perform] at performed
  split at performed
  · cases performed
  split at performed
  · next _ index outer _ _ old parent? found =>
    cases performed
    have positive : ∀ distance ∈ parent?, 0 < distance := by
      rintro distance rfl
      exact grown.forward old distance (List.mem_of_getElem? found)
    have filled := grown.set index kind positive outer none
    exact filled.append (fun _ _ same => by cases same) (Nat.le_succ_of_le grown.position_le) _ _
  · cases performed

theorem Grown.abandon
    (grown : log.Grown entries)
    (performed : log.perform .abandon = some later) :
    later.Grown entries := by
  simp only [perform] at performed
  split at performed
  · cases performed
  cases performed
  split
  · refine ⟨?_, grown.position_le, fun kind distance member => ?_⟩
    · rw [List.length_dropLast]
      exact (Nat.sub_le _ _).trans grown.length_le
    · exact grown.forward kind distance (List.mem_of_mem_dropLast member)
  · exact ⟨grown.length_le, grown.position_le, grown.forward⟩

/-- A node around another one stands behind it, so the pointer to it leads over some distance. -/
theorem Grown.precede
    (grown : log.Grown entries)
    (performed : log.perform .precede = some later) :
    later.Grown (entries + 1) := by
  simp only [perform] at performed
  split at performed
  · cases performed
  split at performed
  · next _ index _ _ kind parent? found =>
    cases performed
    obtain ⟨inside, _⟩ := List.getElem?_eq_some_iff.mp found
    have positive : ∀ distance ∈ some (log.events.length - index), 0 < distance := by
      rintro distance ⟨⟩
      exact Nat.sub_pos_of_lt inside
    exact (grown.set index kind positive log.opened none).start
  · cases performed

theorem Grown.perform
    (grown : log.Grown entries)
    {action : Action}
    (performed : log.perform action = some later) :
    later.Grown (entries + if action.isEntry then 1 else 0) := by
  cases action with
  | start =>
      cases performed
      exact grown.start
  | advance => exact grown.advance performed
  | complete kind => exact grown.complete performed
  | abandon => exact grown.abandon performed
  | precede => exact grown.precede performed

theorem Grown.performAll
    (grown : log.Grown entries)
    {actions : List Action}
    (performed : log.performAll actions = some later) :
    later.Grown (entries + actions.countP Action.isEntry) := by
  induction actions generalizing log entries with
  | nil =>
      cases performed
      exact grown
  | cons action rest ih =>
      obtain ⟨middle, first, behind⟩ := Option.bind_eq_some_iff.mp performed
      have whole := ih (grown.perform first) behind
      rwa [List.countP_cons, Nat.add_comm (rest.countP _), ← Nat.add_assoc]

end Grown

end EventLog

namespace Event

/-- Whether an event makes a call when it is replayed. -/
def isCall : Event → Bool
  | .start .tombstone _ => false
  | _ => true

theorem isCall_start
    (kind : Kind)
    (parent? : Option Nat) :
    (start kind parent?).isCall = true ↔ kind ≠ .tombstone := by
  cases kind <;> simp [isCall]

/-- The call that a start makes is made for the kind that a pointer finds there. -/
theorem length_addKind
    (kind : Kind)
    (parent? : Option Nat)
    (kinds : List Kind)
    (events : List Event) :
    (addKind kind kinds).length + events.countP isCall =
      kinds.length + (start kind parent? :: events).countP isCall := by
  by_cases blank : kind = .tombstone
  · have unmade : ¬(start kind parent?).isCall = true := fun made =>
      (isCall_start _ _).mp made blank
    rw [List.countP_cons_of_neg unmade, addKind, if_pos blank]
  · rw [List.countP_cons_of_pos ((isCall_start _ _).mpr blank), addKind, if_neg blank,
      List.length_cons, Nat.add_right_comm, Nat.add_assoc]

/-- The starts that a pointer leads to make no call any more where they stand. -/
theorem length_kinds_climb
    {distance : Nat}
    {events blanked : List Event}
    {kinds : List Kind}
    (found : climb distance events = some (kinds, blanked)) :
    kinds.length + blanked.countP isCall = events.countP isCall := by
  have unmade : ¬tombstone.isCall = true := Bool.false_ne_true
  fun_induction climb distance events generalizing kinds blanked with
  | case1 kind rest =>
    cases found
    rw [List.countP_cons_of_neg unmade, length_addKind kind none, List.length_nil, Nat.zero_add]
  | case2 kind rest =>
    cases found
    rw [List.countP_cons_of_neg unmade, length_addKind kind (some 0), List.length_nil,
      Nat.zero_add]
  | case3 kind rest distance ih =>
    obtain ⟨⟨others, later⟩, below, same⟩ := Option.map_eq_some_iff.mp found
    cases same
    rw [List.countP_cons_of_neg unmade, length_addKind kind (some (distance + 1)),
      List.countP_cons, List.countP_cons, ← ih below, Nat.add_assoc]
  | case4 distance event rest ih =>
    obtain ⟨⟨others, later⟩, below, same⟩ := Option.map_eq_some_iff.mp found
    cases same
    rw [List.countP_cons, List.countP_cons, ← ih below, Nat.add_assoc]
  | case5 => cases found

/-- A log is replayed to as many calls as it has events that make one. -/
theorem length_replay
    {tokens : List Token}
    {events : List Event}
    {calls : List Call}
    (replayed : replay tokens events = some calls) :
    calls.length = events.countP isCall := by
  fun_induction replay tokens events generalizing calls with
  | case1 =>
    cases replayed
    rfl
  | case2 rest ih =>
    obtain ⟨others, behind, rfl⟩ := Option.map_eq_some_iff.mp replayed
    rw [List.countP_cons_of_pos rfl, List.length_cons, ih behind]
  | case3 => cases replayed
  | case4 index rest inner found ih =>
    obtain ⟨others, behind, rfl⟩ := Option.map_eq_some_iff.mp replayed
    rw [List.countP_cons_of_pos rfl, List.length_cons, ih behind]
  | case5 parent? rest ih =>
    rw [List.countP_cons_of_neg Bool.false_ne_true, ih replayed]
  | case6 kind rest proper ih =>
    obtain ⟨others, behind, rfl⟩ := Option.map_eq_some_iff.mp replayed
    rw [List.countP_cons_of_pos ((isCall_start _ _).mpr proper), List.length_cons, ih behind]
  | case7 kind rest proper ih =>
    obtain ⟨others, behind, rfl⟩ := Option.map_eq_some_iff.mp replayed
    rw [List.countP_cons_of_pos ((isCall_start _ _).mpr proper), List.length_cons, ih behind]
  | case8 => cases replayed
  | case9 kind distance rest proper kinds blanked found ih =>
    obtain ⟨others, behind, rfl⟩ := Option.map_eq_some_iff.mp replayed
    rw [List.countP_cons_of_pos ((isCall_start _ _).mpr proper), ← length_kinds_climb found,
      ← ih behind, List.length_append, List.length_map, List.length_reverse, List.length_cons]
    omega

end Event

end LuaFold
