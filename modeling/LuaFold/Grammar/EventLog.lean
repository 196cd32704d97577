import LuaFold.Grammar.Action
import LuaFold.Tree.Builder

/-!
# Logs of events

A parse can also keep a log while it decides on its actions, and make the calls that build its
tree only at the end.  The start of a node is logged before its kind is known, as a tombstone
that is filled in when the node is completed.  A node started around a finished one stands
behind it in the log, so the start of the finished one points forward to that of its parent.

Replaying a log follows these pointers and opens the outermost node first.  Logging and
replaying fail where an index leads nowhere or to an event that starts no node, and where an
action finds no node to work on.
-/

namespace LuaFold

/-- An entry of a log: the start of a node, the number of a token, or the end of a node. -/
inductive Event where
  | start (kind : Kind) (parent? : Option Nat)
  | token (index : Nat)
  | finish
deriving DecidableEq, Repr

namespace Event

/-- The start of a node whose kind is not known. -/
def tombstone : Event :=
  .start .tombstone none

end Event

/--
A log being written: its events, the number of tokens logged, the places where open nodes
start, innermost first, and the place of the node that was completed last, unless something
has been logged since.
-/
structure EventLog where
  events : List Event
  position : Nat
  opened : List Nat
  completed? : Option Nat
deriving DecidableEq, Repr

namespace EventLog

/-- Nothing logged yet. -/
def new : EventLog :=
  ⟨[], 0, [], none⟩

/-- Log the start of a node that is open from now on. -/
def start (log : EventLog) : EventLog :=
  ⟨log.events ++ [.tombstone], log.position, log.events.length :: log.opened, none⟩

/-- Log what an action does. -/
def perform (log : EventLog) : Action → Option EventLog
  | .start => some log.start
  | .advance => some ⟨log.events ++ [.token log.position], log.position + 1, log.opened, none⟩
  | .complete kind =>
    match log.opened with
    | [] => none
    | index :: outer =>
      match log.events[index]? with
      | some (.start _ parent?) =>
        some ⟨log.events.set index (.start kind parent?) ++ [.finish], log.position, outer,
          some index⟩
      | _ => none
  | .abandon =>
    match log.opened with
    | [] => none
    | index :: outer =>
      let events := if index + 1 = log.events.length then log.events.dropLast else log.events
      some ⟨events, log.position, outer, none⟩
  | .precede =>
    match log.completed? with
    | none => none
    | some index =>
      match log.events[index]? with
      | some (.start kind _) =>
        let linked := log.events.set index (.start kind (some (log.events.length - index)))
        some (start ⟨linked, log.position, log.opened, none⟩)
      | _ => none

/-- Log what actions do, in order. -/
def performAll (log : EventLog) (actions : List Action) : Option EventLog :=
  actions.foldlM perform log

end EventLog

namespace Event

/-- A kind in front of others, unless it is that of a tombstone. -/
def addKind (kind : Kind) (kinds : List Kind) : List Kind :=
  if kind = .tombstone then kinds else kind :: kinds

/--
Follow a forward pointer over a number of events: the kinds of the nodes that it leads to, the
inner ones first, and the events with the starts of these nodes blanked.  A pointer over no
distance leads to an event that has been blanked already.
-/
def climb : Nat → List Event → Option (List Kind × List Event)
  | 0, .start kind parent? :: rest =>
    match parent? with
    | none | some 0 => some (addKind kind [], .tombstone :: rest)
    | some (distance + 1) =>
      (climb distance rest).map fun (kinds, blanked) =>
        (addKind kind kinds, .tombstone :: blanked)
  | distance + 1, event :: rest =>
    (climb distance rest).map fun (kinds, blanked) => (kinds, event :: blanked)
  | _, _ => none

theorem length_climb
    {distance : Nat}
    {events blanked : List Event}
    {kinds : List Kind}
    (found : climb distance events = some (kinds, blanked)) :
    blanked.length = events.length := by
  fun_induction climb distance events generalizing kinds blanked with
  | case1 kind rest => cases found; rfl
  | case2 kind rest => cases found; rfl
  | case3 kind rest distance ih =>
    obtain ⟨⟨others, later⟩, below, same⟩ := Option.map_eq_some_iff.mp found
    cases same
    simp [ih below]
  | case4 distance event rest ih =>
    obtain ⟨⟨others, later⟩, below, same⟩ := Option.map_eq_some_iff.mp found
    cases same
    simp [ih below]
  | case5 => cases found

/-- The call that adds a token to the open node. -/
def tokenCall (inner : Token) : Call :=
  .token (inner.leading.map Trivia.measure) inner.kind inner.innerWidth
    (inner.trailing.map Trivia.measure)

/-- The calls that a list of events makes over tokens. -/
def replay (tokens : List Token) : List Event → Option (List Call)
  | [] => some []
  | .finish :: rest => (replay tokens rest).map (.finish :: ·)
  | .token index :: rest =>
    match tokens[index]? with
    | none => none
    | some inner => (replay tokens rest).map (tokenCall inner :: ·)
  | .start .tombstone _ :: rest => replay tokens rest
  | .start kind none :: rest => (replay tokens rest).map (.start kind :: ·)
  | .start kind (some 0) :: rest => (replay tokens rest).map (.start kind :: ·)
  | .start kind (some (distance + 1)) :: rest =>
    match found : climb distance rest with
    | none => none
    | some (kinds, blanked) =>
      (replay tokens blanked).map ((kind :: kinds).reverse.map .start ++ ·)
termination_by events => events.length
decreasing_by
  · exact Nat.lt_succ_self _
  · exact Nat.lt_succ_self _
  · exact Nat.lt_succ_self _
  · exact Nat.lt_succ_self _
  · exact Nat.lt_succ_self _
  · -- blanking leaves as many events as there were behind the start
    rw [length_climb found]
    exact Nat.lt_succ_self _

end Event

end LuaFold
