import LuaFold.Grammar.EventLog
import LuaFold.Tree.Arena

/-!
# Numbers of 32 bits

Logs and arenas count with numbers of any size, but places can also be stored as numbers of 32
bits.  Here actions are logged and calls are performed in this way: the places in a log where nodes
start, the numbers of its tokens, and all that an arena stores about places among its nodes, tokens
and children and in its text are cut to 32 bits.  Only the number of a node is checked instead, so
that there can be too many nodes.

The numbers that are made narrow in a step are also listed.  Where a forward pointer is set, both
ends of it are narrow already, so its distance is not among them.
-/

namespace LuaFold

/-- A number that fits into 32 bits. -/
def IsNarrow (number : Nat) : Prop :=
  number < UInt32.size

/-- What is left of a number in 32 bits. -/
def narrow (number : Nat) : Nat :=
  (UInt32.ofNat number).toNat

theorem narrow_eq {number : Nat} (fits : IsNarrow number) : narrow number = number :=
  UInt32.toNat_ofNat_of_lt' fits

namespace EventLog

/-- Log the start of a node at a place of 32 bits. -/
def startNarrowly (log : EventLog) : EventLog :=
  ⟨log.events ++ [.tombstone], log.position, narrow log.events.length :: log.opened, none⟩

/-- Log what an action does, with places of 32 bits. -/
def performNarrowly (log : EventLog) : Action → Option EventLog
  | .start => some log.startNarrowly
  | .advance =>
    some ⟨log.events ++ [.token (narrow log.position)], log.position + 1, log.opened, none⟩
  | .precede =>
    match log.completed? with
    | none => none
    | some index =>
      match log.events[index]? with
      | some (.start kind _) =>
        let distance := narrow log.events.length - index
        let linked := log.events.set index (.start kind (some distance))
        some (startNarrowly ⟨linked, log.position, log.opened, none⟩)
      | _ => none
  | action => log.perform action

/-- The numbers that are made narrow when an action is logged. -/
def narrowed (log : EventLog) : Action → List Nat
  | .start | .precede => [log.events.length]
  | .advance => [log.position]
  | .complete _ | .abandon => []

/-- Actions are logged from the start on, and every number that is made narrow for one fits. -/
def StaysNarrow (actions : List Action) : Prop :=
  ∀ done action rest, actions = done ++ action :: rest →
    ∃ log, new.performAll done = some log ∧ ∀ number ∈ log.narrowed action, IsNarrow number

end EventLog

namespace ArenaBuilder

/-- Close a node inside others, with places of 32 bits. -/
def leaveNarrowly
    (builder : ArenaBuilder)
    (inner : OpenNode)
    (outer : List OpenNode) :
    ArenaBuilder :=
  let arena := builder.arena
  let nodes := arena.nodes.modify inner.index fun node =>
    node.close (narrow arena.children.length) (narrow inner.children.length)
      (narrow arena.tokens.length - 1)
  ⟨⟨arena.text, arena.tokens, nodes, arena.children ++ inner.children⟩, outer,
    [] :: builder.spare, builder.offset⟩

/-- Store a token or a trivia piece, which stops at an offset of 32 bits. -/
def pushNarrowly
    (builder : ArenaBuilder)
    (kind : Kind)
    (length parent leading trailing : Nat) :
    Except ArenaFault ArenaBuilder :=
  let arena := builder.arena
  let stop := narrow (builder.offset + length)
  if (Text.cut? stop arena.text).isSome then
    .ok ⟨⟨arena.text, arena.tokens ++ [⟨kind, stop, parent, leading, trailing⟩], arena.nodes,
      arena.children⟩, builder.opened, builder.spare, stop⟩
  else .error (.refused .brokenCharacter)

/-- Store trivia pieces one after the other, with offsets of 32 bits. -/
def pushTriviaNarrowly
    (parent : Nat)
    (builder : ArenaBuilder)
    (pieces : List Measured) :
    Except ArenaFault ArenaBuilder :=
  pieces.foldlM
    (fun builder piece => builder.pushNarrowly piece.kind.kind piece.length parent 0 0) builder

/-- Where trivia pieces stop that follow each other from an offset on. -/
def stopOf (offset : Nat) (pieces : List Measured) : Nat :=
  pieces.foldl (fun stop piece => stop + piece.length) offset

/-- Store a token between its trivia, with places of 32 bits. -/
def tokenNarrowly
    (builder : ArenaBuilder)
    (leading : List Measured)
    (kind : Kind)
    (length : Nat)
    (trailing : List Measured) :
    Except ArenaFault ArenaBuilder :=
  match builder.opened with
  | [] => .error (.refused .tokenOutsideNodes)
  | inner :: _ => do
    let before ← builder.pushTriviaNarrowly inner.index leading
    let inside ← before.pushNarrowly kind length inner.index (narrow leading.length)
      (narrow trailing.length)
    let behind ← inside.pushTriviaNarrowly inner.index trailing
    let arena := behind.arena
    let reach : Reach := ⟨narrow builder.arena.tokens.length, narrow arena.tokens.length - 1⟩
    return ⟨⟨arena.text, arena.tokens, fill reach builder.opened arena.nodes, arena.children⟩,
      addChild (.token (narrow before.arena.tokens.length)) behind.opened, behind.spare,
      behind.offset⟩

/-- Perform one call with places of 32 bits, unless it is refused or there are too many nodes. -/
def performNarrowly (builder : ArenaBuilder) : Call → Option ArenaBuilder
  | .start kind =>
    if builder.arena.nodes.length < UInt32.size then some (builder.start kind) else none
  | .token leading kind length trailing =>
    (builder.tokenNarrowly leading kind length trailing).toOption
  | .finish =>
    match builder.opened with
    | [] => none
    | inner :: outer => some (builder.leaveNarrowly inner outer)

/-- How many tokens are stored before the first piece of a token, before each one behind it, and
behind the last. -/
def placesOf (builder : ArenaBuilder) (leading trailing : List Measured) : List Nat :=
  List.range' builder.arena.tokens.length (leading.length + 1 + trailing.length + 1)

/--
The numbers that are made narrow when a call is performed.  Of the offsets where the parts of a
token stop it is the last one, and the others are no larger.
-/
def narrowed (builder : ArenaBuilder) : Call → List Nat
  | .start _ => [builder.arena.nodes.length]
  | .token leading _ length trailing =>
    stopOf (stopOf builder.offset leading + length) trailing ::
      leading.length :: trailing.length :: builder.placesOf leading trailing
  | .finish =>
    match builder.opened with
    | [] => []
    | inner :: _ =>
      [builder.arena.children.length, inner.children.length, builder.arena.tokens.length]

/-- Calls are performed over a text, and every number that is made narrow for one fits. -/
def StaysNarrow (text : Text) (calls : List Call) : Prop :=
  ∀ done call rest, calls = done ++ call :: rest →
    ∃ builder, done.foldlM perform (new text) = .ok builder ∧
      ∀ number ∈ builder.narrowed call, IsNarrow number

end ArenaBuilder

/-- The arena that a list of calls builds over a text with places of 32 bits. -/
def Arena.buildNarrowly (text : Text) (calls : List Call) : Option (Arena Reach) := do
  let builder ← calls.foldlM ArenaBuilder.performNarrowly (.new text)
  builder.finish.toOption

end LuaFold
