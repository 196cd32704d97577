import LuaFold.Grammar.EventLog

/-!
# Markers

The rules of the parser do not name the node that they work on by its position on a stack.  They
hold a marker for every node that is open and for every node that is completed, and a marker
knows the place in the log where its node starts.  Nothing in the log itself keeps a rule from
closing the wrong node or from starting a node around one that is not the last.

The discipline that the rules follow is a check of its own.  It remembers which nodes are open
and what they hold, and fails at the first step that closes another node than the innermost one,
that gives up a node started around another, or that starts a node around anything but the last
thing in the innermost node.  It also fails where a node is completed as a tombstone, since this
is no kind of a node but the mark of a start that no node is completed for.
-/

namespace LuaFold.Marker

/--
A step of a parse, with the marker that it works on.  Markers are numbered in the order in which
they are handed out, by starting a node or by starting one around another.
-/
inductive Step where
  | start
  | advance
  | takeEnd
  | complete (marker : Nat) (kind : Kind)
  | abandon (marker : Nat)
  | precede (marker : Nat)
deriving DecidableEq, Repr

namespace Step

/--
What a step does to the elements of the open nodes when every node is worked on in its turn.
Advancing never takes the token that ends the text; this one has a step of its own.
-/
def perform (assembly : Assembly) : Step → Assembly
  | .start => assembly.perform .start
  | .advance =>
    if assembly.tokens.head?.map Token.kind = some .eof then assembly
    else assembly.perform .advance
  | .takeEnd => assembly.perform .advance
  | .complete _ kind => assembly.perform (.complete kind)
  | .abandon _ => assembly.perform .abandon
  | .precede _ => assembly.perform .precede

/-- The elements that steps put together from tokens. -/
def assemble (steps : List Step) (tokens : List Token) : List Element :=
  (steps.foldl perform (.new tokens)).roots

end Step

/-- A log that is written with markers: its events, the number of tokens taken, and the places
that the markers know. -/
structure Log where
  events : List Event
  position : Nat
  places : List Nat
deriving DecidableEq, Repr

namespace Log

/-- Nothing logged and no marker handed out. -/
def new : Log :=
  ⟨[], 0, []⟩

/-- Log the start of a node and hand out a marker for it. -/
def start (log : Log) : Log :=
  ⟨log.events ++ [.tombstone], log.position, log.places ++ [log.events.length]⟩

/-- Replace the start of a node at a place. -/
def amend (log : Log) (place : Nat) (change : Kind → Option Nat → Event) : Option Log :=
  match log.events[place]? with
  | some (.start kind parent?) =>
    some ⟨log.events.set place (change kind parent?), log.position, log.places⟩
  | _ => none

/--
Log one step of a parse over tokens.  A node that is given up loses its start only if nothing
stands behind it.
-/
def perform (tokens : List Token) (log : Log) : Step → Option Log
  | .start => some log.start
  | .advance => do
    let next ← tokens[log.position]?
    if next.kind = .eof then return log
    else return ⟨log.events ++ [.token log.position], log.position + 1, log.places⟩
  | .takeEnd => do
    let next ← tokens[log.position]?
    if next.kind = .eof then
      return ⟨log.events ++ [.token log.position], log.position, log.places⟩
    else none
  | .complete marker kind => do
    let place ← log.places[marker]?
    let named ← log.amend place fun _ parent? => .start kind parent?
    return ⟨named.events ++ [.finish], named.position, named.places⟩
  | .abandon marker => do
    let place ← log.places[marker]?
    let events := if place + 1 = log.events.length then log.events.dropLast else log.events
    return ⟨events, log.position, log.places⟩
  | .precede marker => do
    let place ← log.places[marker]?
    log.start.amend place fun kind _ => .start kind (some (log.events.length - place))

/-- Log the steps of a parse in order. -/
def performAll (tokens : List Token) (log : Log) (steps : List Step) : Option Log :=
  steps.foldlM (perform tokens) log

end Log

/--
An open node: its marker, whether it was started around another node, and what stands before it
in the node that it is in, newest first.
-/
structure Opened where
  marker : Nat
  isAround : Bool
  before : List (Option Nat)
deriving DecidableEq, Repr

/--
What the discipline remembers: the number of markers handed out, the number of tokens left with
the one that ends the text, the open nodes, innermost first, and what the innermost of them
holds, newest first.  A completed node stands there with its marker until another one is started
around it; tokens have none.
-/
structure Discipline where
  markers : Nat
  left : Nat
  opened : List Opened
  inside : List (Option Nat)
deriving DecidableEq, Repr

namespace Discipline

/-- Nothing done yet, with a number of tokens ahead. -/
def new (count : Nat) : Discipline :=
  ⟨0, count, [], []⟩

/-- Check one step. -/
def perform (discipline : Discipline) : Step → Option Discipline
  | .start =>
    some ⟨discipline.markers + 1, discipline.left,
      ⟨discipline.markers, false, discipline.inside⟩ :: discipline.opened, []⟩
  | .advance =>
    if discipline.left ≤ 1 then some discipline
    else
      some ⟨discipline.markers, discipline.left - 1, discipline.opened, none :: discipline.inside⟩
  | .takeEnd =>
    if discipline.left = 1 then
      some ⟨discipline.markers, 0, discipline.opened, none :: discipline.inside⟩
    else none
  | .complete marker kind =>
    match discipline.opened with
    | [] => none
    | node :: outer =>
      if node.marker = marker ∧ kind ≠ .tombstone then
        some ⟨discipline.markers, discipline.left, outer, some marker :: node.before⟩
      else none
  | .abandon marker =>
    match discipline.opened with
    | [] => none
    | node :: outer =>
      if node.marker = marker ∧ node.isAround = false then
        some ⟨discipline.markers, discipline.left, outer, discipline.inside ++ node.before⟩
      else none
  | .precede marker =>
    match discipline.inside with
    | [] => none
    | last :: before =>
      if last = some marker then
        some ⟨discipline.markers + 1, discipline.left,
          ⟨discipline.markers, true, before⟩ :: discipline.opened, [none]⟩
      else none

/-- Check steps in order. -/
def performAll (discipline : Discipline) (steps : List Step) : Option Discipline :=
  steps.foldlM perform discipline

/-- Whether steps over a number of tokens keep to the discipline and close every node. -/
def accepts (count : Nat) (steps : List Step) : Bool :=
  match (new count).performAll steps with
  | some discipline => discipline.opened.isEmpty
  | none => false

end Discipline

end LuaFold.Marker
