import LuaFold.Grammar.EventLog
import LuaFold.Proofs.Grammar.Word

/-!
# Replay of logs

Logging the actions that form a node never fails, and touches nothing that was logged before.
The events that it adds replay to the calls that build the element of the node.  While the
node can still be wrapped, its start points nowhere; as soon as a node is started around it,
the pointer leads to the start directly behind its events, and the calls that open the outer
nodes come first.
-/

namespace LuaFold

namespace Element

mutual

/-- The calls that build an element. -/
def calls : Element → List Call
  | .token inner => [Event.tokenCall inner]
  | .node kind _ children => .start kind :: (allCalls children ++ [.finish])

def allCalls : List Element → List Call
  | [] => []
  | first :: rest => first.calls ++ allCalls rest

end

@[simp]
theorem allCalls_eq_flatMap (elements : List Element) :
    allCalls elements = elements.flatMap calls := by
  induction elements with
  | nil => rfl
  | cons first rest ih => simp [allCalls, ih]

@[simp]
theorem calls_token (inner : Token) : (token inner).calls = [Event.tokenCall inner] := by
  simp [calls]

@[simp]
theorem calls_node
    (kind : Kind)
    (extent : Extent)
    (children : List Element) :
    (node kind extent children).calls =
      .start kind :: (children.flatMap calls ++ [.finish]) := by
  simp [calls]

mutual

theorem map_call_walked (offset : Nat) :
    (element : Element) → (element.walked offset).map Visit.call = element.calls
  | .token inner => by simp [walked, Visit.call, Event.tokenCall]
  | .node kind extent children => by
      have below := map_call_allWalked offset children
      simp [walked, Visit.call, below]

/-- A walk retraces the calls that build what it walks through. -/
theorem map_call_allWalked (offset : Nat) :
    (elements : List Element) →
      (allWalked offset elements).map Visit.call = elements.flatMap calls
  | [] => rfl
  | first :: rest => by
      have here := map_call_walked offset first
      have there := map_call_allWalked (offset + first.width) rest
      rw [allWalked, List.map_append, here, there, List.flatMap_cons]

end

end Element

theorem SyntaxTree.calls_eq (tree : SyntaxTree) :
    tree.calls = tree.roots.flatMap Element.calls := by
  rw [SyntaxTree.calls, SyntaxTree.visits, Element.visits_eq, Element.map_call_allWalked]

namespace Event

/-- Events that make given calls, whatever follows them. -/
def Replays (tokens : List Token) (events : List Event) (calls : List Call) : Prop :=
  ∀ rest, replay tokens (events ++ rest) = (replay tokens rest).map (calls ++ ·)

namespace Replays

variable {tokens : List Token}

theorem nil : Replays tokens [] [] := by
  intro rest
  simp

theorem append
    {first second : List Event}
    {calls more : List Call}
    (before : Replays tokens first calls)
    (behind : Replays tokens second more) :
    Replays tokens (first ++ second) (calls ++ more) := by
  intro rest
  rw [List.append_assoc, before, behind, Option.map_map]
  simp [Function.comp_def]

theorem tombstone : Replays tokens [.tombstone] [] := by
  intro rest
  simp [Event.tombstone, replay]

theorem finish : Replays tokens [.finish] [.finish] := by
  intro rest
  simp [replay]

theorem token
    {position : Nat}
    {inner : Token}
    (stands : [inner] <+: tokens.drop position) :
    Replays tokens [.token position] [tokenCall inner] := by
  intro rest
  obtain ⟨behind, drops⟩ := stands
  have found : tokens[position]? = some inner := by
    rw [← List.head?_drop, ← drops]
    rfl
  simp [replay, found]

end Replays

/-- Following a pointer skips the events that it points over. -/
theorem climb_append
    {distance : Nat}
    {rest blanked : List Event}
    {kinds : List Kind}
    (found : climb distance rest = some (kinds, blanked))
    (events : List Event) :
    climb (events.length + distance) (events ++ rest) = some (kinds, events ++ blanked) := by
  induction events with
  | nil => simpa using found
  | cons event events ih =>
      rw [List.length_cons, Nat.add_right_comm, List.cons_append, climb, ih]
      rfl

/-- What a forward pointer leads to behind a number of events: nothing, or outer nodes. -/
inductive Reaches (crossed : Nat) : Option Nat → List Event → List Kind → List Event → Prop where
  | nowhere (rest : List Event) : Reaches crossed none rest [] rest
  | outer
      {distance : Nat}
      {rest blanked : List Event}
      {kinds : List Kind}
      (found : climb distance rest = some (kinds, blanked)) :
      Reaches crossed (some (crossed + distance + 1)) rest kinds blanked

/-- The start of a node, and what its pointer leads to behind the events of the node. -/
theorem replay_start
    {tokens : List Token}
    {kind : Kind}
    (proper : kind ≠ .tombstone)
    {parent? : Option Nat}
    {inside rest blanked : List Event}
    {kinds : List Kind}
    (reaches : Reaches inside.length parent? rest kinds blanked) :
    replay tokens (.start kind parent? :: (inside ++ rest)) =
      (replay tokens (inside ++ blanked)).map ((kind :: kinds).reverse.map .start ++ ·) := by
  cases reaches with
  | nowhere =>
      rw [replay]
      · simp
      · exact proper
  | outer found =>
      rw [replay, climb_append found inside]
      exact proper

/--
The events of a finished node that can still be wrapped: its outermost start, what stands
before it and what stands behind it.  Wherever its pointer will lead, the calls that open the
outer nodes come before its own.
-/
def Links
    (tokens : List Token)
    (before : List Event)
    (kind : Kind)
    (after : List Event)
    (calls : List Call) :
    Prop :=
  ∀ {parent? : Option Nat} {rest blanked : List Event} {kinds : List Kind},
    Reaches after.length parent? rest kinds blanked →
      replay tokens (before ++ .start kind parent? :: (after ++ rest)) =
        (replay tokens blanked).map (kinds.reverse.map .start ++ calls ++ ·)

namespace Links

variable {tokens : List Token}

/-- A node that nothing is started around. -/
theorem replays
    {before after : List Event}
    {kind : Kind}
    {calls : List Call}
    (links : Links tokens before kind after calls) :
    Replays tokens (before ++ .start kind none :: after) calls := by
  intro rest
  rw [List.append_assoc, List.cons_append, links (.nowhere rest)]
  simp

/-- A node with nothing but its children in it. -/
theorem single
    {kind : Kind}
    (proper : kind ≠ .tombstone)
    {events : List Event}
    {calls : List Call}
    (inside : Replays tokens events calls) :
    Links tokens [] kind (events ++ [.finish]) (.start kind :: (calls ++ [.finish])) := by
  intro parent? rest blanked kinds reaches
  rw [List.nil_append, replay_start proper reaches, (inside.append .finish) blanked]
  simp [Function.comp_def]

/-- A node started around another one. -/
theorem around
    {before after events : List Event}
    {inner kind : Kind}
    {calls more : List Call}
    (wrapped : Links tokens before inner after calls)
    (proper : kind ≠ .tombstone)
    (inside : Replays tokens events more) :
    Links tokens (before ++ .start inner (some (after.length + 1)) :: after) kind
      (events ++ [.finish]) (.start kind :: (calls ++ more ++ [.finish])) := by
  intro parent? rest blanked kinds reaches
  -- the start of the wrapped node points to the start of this one, which climbs on from there
  have climbed : climb 0 (.start kind parent? :: (events ++ [.finish] ++ rest)) =
      some (kind :: kinds, .tombstone :: (events ++ [.finish] ++ blanked)) := by
    cases reaches with
    | nowhere => simp [climb, addKind, proper]
    | outer found =>
        have skipped := climb_append found (events ++ [.finish])
        simpa [climb, addKind, proper] using skipped
  have content := (inside.append .finish) blanked
  have blank : replay tokens (.tombstone :: (events ++ [.finish] ++ blanked)) = _ :=
    Replays.tombstone (events ++ [.finish] ++ blanked)
  rw [List.append_assoc, List.cons_append, wrapped (.outer climbed)]
  rw [blank, content]
  simp [Function.comp_def]

end Links

end Event

namespace EventLog

theorem performAll_append
    (log : EventLog)
    (first second : List Action) :
    log.performAll (first ++ second) =
      (log.performAll first).bind fun later => later.performAll second := by
  simp [performAll, List.foldlM_append]

end EventLog

namespace Action

open Event (Replays Links)

theorem prefix_drop_of_append
    {tokens first second : List Token}
    {position : Nat}
    (stand : first ++ second <+: tokens.drop position) :
    second <+: tokens.drop (position + first.length) := by
  obtain ⟨behind, drops⟩ := stand
  refine ⟨behind, ?_⟩
  rw [← List.drop_drop, ← drops, List.append_assoc, List.drop_left]

/-- Logging a word adds events and counts tokens; the nodes that were open stay open. -/
def Logs (word : List Action) (position count : Nat) (events : List Event) : Prop :=
  ∀ log : EventLog, log.position = position → ∃ completed?, log.performAll word =
    some ⟨log.events ++ events, position + count, log.opened, completed?⟩

theorem Logs.append
    {first second : List Action}
    {position count more : Nat}
    {events others : List Event}
    (before : Logs first position count events)
    (behind : Logs second (position + count) more others) :
    Logs (first ++ second) position (count + more) (events ++ others) := by
  intro log placed
  obtain ⟨between, performed⟩ := before log placed
  obtain ⟨completed, finished⟩ := behind ⟨_, _, log.opened, between⟩ rfl
  refine ⟨completed, ?_⟩
  rw [EventLog.performAll_append, performed, Option.bind_some, finished]
  simp [Nat.add_assoc]

/-- Logging a word that forms a node leaves the start of this node as the one completed last. -/
def LogsNode
    (word : List Action)
    (position count : Nat)
    (before : List Event)
    (kind : Kind)
    (after : List Event) :
    Prop :=
  ∀ log : EventLog, log.position = position → log.performAll word =
    some ⟨log.events ++ (before ++ .start kind none :: after), position + count, log.opened,
      some (log.events.length + before.length)⟩

theorem LogsNode.logs
    {word : List Action}
    {position count : Nat}
    {before after : List Event}
    {kind : Kind}
    (logged : LogsNode word position count before kind after) :
    Logs word position count (before ++ .start kind none :: after) :=
  fun log placed => ⟨_, logged log placed⟩

/-- Completing a node fills in its start and logs its end. -/
theorem performAll_complete
    {word : List Action}
    {position count : Nat}
    {events : List Event}
    (inside : Logs word position count events)
    (log : EventLog)
    (placed : log.position = position)
    (kind : Kind) :
    log.start.performAll (word ++ [.complete kind]) =
      some ⟨log.events ++ .start kind none :: (events ++ [.finish]), position + count,
        log.opened, some log.events.length⟩ := by
  obtain ⟨completed, performed⟩ := inside log.start placed
  rw [EventLog.performAll_append, performed]
  simp [EventLog.performAll, EventLog.perform, EventLog.start, Event.tombstone]

theorem LogsNode.single
    {word : List Action}
    {position count : Nat}
    {events : List Event}
    (inside : Logs word position count events)
    (kind : Kind) :
    LogsNode (.start :: (word ++ [.complete kind])) position count [] kind
      (events ++ [.finish]) := by
  intro log placed
  simpa [EventLog.performAll, EventLog.perform] using performAll_complete inside log placed kind

/-- Starting a node around a finished one points the start of the latter forward. -/
theorem perform_precede
    (events before after : List Event)
    (inner : Kind)
    (position : Nat)
    (opened : List Nat) :
    EventLog.perform ⟨events ++ (before ++ .start inner none :: after), position, opened,
        some (events.length + before.length)⟩ .precede =
      some (EventLog.start
        ⟨events ++ (before ++ .start inner (some (after.length + 1)) :: after), position,
          opened, none⟩) := by
  have distance : events.length + (before.length + (after.length + 1)) -
      (events.length + before.length) = after.length + 1 := by omega
  rw [← List.append_assoc, ← List.append_assoc, ← List.length_append]
  simp [EventLog.perform, distance]

theorem LogsNode.around
    {first word : List Action}
    {position count more : Nat}
    {before after events : List Event}
    {inner : Kind}
    (wrapped : LogsNode first position count before inner after)
    (inside : Logs word (position + count) more events)
    (kind : Kind) :
    LogsNode (first ++ .precede :: (word ++ [.complete kind])) position (count + more)
      (before ++ .start inner (some (after.length + 1)) :: after) kind
      (events ++ [.finish]) := by
  intro log placed
  have completed := performAll_complete inside
    ⟨log.events ++ (before ++ .start inner (some (after.length + 1)) :: after),
      position + count, log.opened, none⟩ rfl kind
  rw [EventLog.performAll_append, wrapped log placed, Option.bind_some,
    EventLog.performAll, List.foldlM_cons, perform_precede]
  refine completed.trans ?_
  simp [Nat.add_assoc]

/-- Giving up a node takes back its start if nothing has been logged since. -/
theorem Logs.abandon
    {word : List Action}
    {position count : Nat}
    {events : List Event}
    (inside : Logs word position count events) :
    Logs (.start :: (word ++ [.abandon])) position count
      (if events = [] then [] else .tombstone :: events) := by
  intro log placed
  obtain ⟨completed, performed⟩ := inside log.start placed
  refine ⟨none, ?_⟩
  rw [EventLog.performAll, List.foldlM_cons]
  show log.start.performAll (word ++ [.abandon]) = _
  rw [EventLog.performAll_append, performed, Option.bind_some]
  by_cases empty : events = []
  · simp [EventLog.performAll, EventLog.perform, EventLog.start, empty]
  · simp [EventLog.performAll, EventLog.perform, EventLog.start, empty]

/-- The log of a word over the tokens of elements replays to the calls of these elements. -/
structure Logged
    (tokens : List Token)
    (word : List Action)
    (elements : List Element)
    (position : Nat)
    (events : List Event) :
    Prop where
  replays : Replays tokens events (elements.flatMap Element.calls)
  logs : Logs word position (elements.flatMap Element.tokens).length events

namespace Logged

variable {tokens : List Token} {word : List Action} {elements : List Element} {position : Nat}
  {events : List Event}

theorem nil : Logged tokens [] [] position [] := by
  refine ⟨.nil, fun log placed => ⟨log.completed?, ?_⟩⟩
  simp [EventLog.performAll, ← placed]

theorem append
    {second : List Action}
    {others : List Element}
    {more : List Event}
    (before : Logged tokens word elements position events)
    (behind : Logged tokens second others
      (position + (elements.flatMap Element.tokens).length) more) :
    Logged tokens (word ++ second) (elements ++ others) position (events ++ more) := by
  constructor
  · rw [List.flatMap_append]
    exact before.replays.append behind.replays
  · rw [List.flatMap_append, List.length_append]
    exact before.logs.append behind.logs

theorem advance
    {inner : Token}
    (stands : [inner] <+: tokens.drop position) :
    Logged tokens [.advance] [.token inner] position [.token position] := by
  constructor
  · simpa using Replays.token stands
  · intro log placed
    refine ⟨none, ?_⟩
    simp [EventLog.performAll, EventLog.perform, placed]

theorem node
    {element : Element}
    {before after : List Event}
    {kind : Kind}
    (links : Links tokens before kind after element.calls)
    (logged : LogsNode word position element.tokens.length before kind after) :
    Logged tokens word [element] position (before ++ .start kind none :: after) := by
  constructor
  · simpa using links.replays
  · simpa using logged.logs

theorem abandon (logged : Logged tokens word elements position events) :
    Logged tokens (.start :: (word ++ [.abandon])) elements position
      (if events = [] then [] else .tombstone :: events) := by
  constructor
  · split
    · next empty => simpa [empty] using logged.replays
    · exact Replays.tombstone.append logged.replays
  · exact logged.logs.abandon

end Logged

mutual

/-- The log of a word that forms a node replays to the calls of the node. -/
theorem Forms.logs
    {tokens : List Token}
    {word : List Action}
    {shape : Shape} :
    Forms word shape → (element : Element) → element.shape = shape → (position : Nat) →
      element.tokens <+: tokens.drop position →
      ∃ before kind after, Links tokens before kind after element.calls ∧
        LogsNode word position element.tokens.length before kind after
  | @Forms.complete word _ kind inside proper, element, same, position, stand => by
      obtain ⟨extent, children, rfl, shapes⟩ := Element.shape_eq_node.mp same
      rw [Element.tokens_node] at stand
      obtain ⟨events, logged⟩ := inside.logs children shapes position stand
      refine ⟨[], kind, events ++ [.finish], ?_, ?_⟩
      · rw [Element.calls_node]
        exact Links.single proper logged.replays
      · rw [Element.tokens_node]
        exact LogsNode.single logged.logs kind
  | @Forms.around first word _ _ kind wrapped inside proper, element, same, position, stand => by
      obtain ⟨extent, children, rfl, shapes⟩ := Element.shape_eq_node.mp same
      obtain ⟨inner, others, rfl, innerShape, otherShapes⟩ := List.map_eq_cons_iff.mp shapes
      rw [Element.tokens_node, List.flatMap_cons] at stand
      obtain ⟨before, innerKind, after, links, logsNode⟩ :=
        wrapped.logs inner innerShape position ((List.prefix_append _ _).trans stand)
      obtain ⟨events, logged⟩ := inside.logs others otherShapes
        (position + inner.tokens.length) (prefix_drop_of_append stand)
      refine ⟨before ++ .start innerKind (some (after.length + 1)) :: after, kind,
        events ++ [.finish], ?_, ?_⟩
      · rw [Element.calls_node, List.flatMap_cons]
        exact links.around proper logged.replays
      · rw [Element.tokens_node, List.flatMap_cons, List.length_append]
        exact logsNode.around logged.logs kind

/-- The log of a word that builds shapes replays to the calls of their elements. -/
theorem Builds.logs
    {tokens : List Token}
    {word : List Action}
    {shapes : List Shape} :
    Builds word shapes → (elements : List Element) → elements.map Element.shape = shapes →
      (position : Nat) → elements.flatMap Element.tokens <+: tokens.drop position →
      ∃ events, Logged tokens word elements position events
  | .nil, elements, same, position, stand => by
      rw [List.map_eq_nil_iff] at same
      subst same
      exact ⟨[], .nil⟩
  | .advance before kind, elements, same, position, stand => by
      obtain ⟨first, last, rfl, firstShapes, lastShapes⟩ := List.map_eq_append_iff.mp same
      obtain ⟨element, rfl, leaf⟩ := List.map_eq_singleton_iff.mp lastShapes
      obtain ⟨inner, rfl, _⟩ := Element.shape_eq_leaf.mp leaf
      rw [List.flatMap_append] at stand
      obtain ⟨events, logged⟩ :=
        before.logs first firstShapes position ((List.prefix_append _ _).trans stand)
      have token : [inner] <+:
          tokens.drop (position + (first.flatMap Element.tokens).length) := by
        simpa using prefix_drop_of_append stand
      exact ⟨_, logged.append (.advance token)⟩
  | .node before formed, elements, same, position, stand => by
      obtain ⟨first, last, rfl, firstShapes, lastShapes⟩ := List.map_eq_append_iff.mp same
      obtain ⟨element, rfl, shape⟩ := List.map_eq_singleton_iff.mp lastShapes
      rw [List.flatMap_append] at stand
      obtain ⟨events, logged⟩ :=
        before.logs first firstShapes position ((List.prefix_append _ _).trans stand)
      obtain ⟨_, kind, after, links, logsNode⟩ :=
        formed.logs element shape (position + (first.flatMap Element.tokens).length)
          (by simpa using prefix_drop_of_append stand)
      exact ⟨_, logged.append (.node links logsNode)⟩
  | .abandon before given, elements, same, position, stand => by
      obtain ⟨first, last, rfl, firstShapes, lastShapes⟩ := List.map_eq_append_iff.mp same
      rw [List.flatMap_append] at stand
      obtain ⟨events, logged⟩ :=
        before.logs first firstShapes position ((List.prefix_append _ _).trans stand)
      obtain ⟨others, inside⟩ :=
        given.logs last lastShapes (position + (first.flatMap Element.tokens).length)
          (prefix_drop_of_append stand)
      exact ⟨_, logged.append inside.abandon⟩

end

end Action

end LuaFold
