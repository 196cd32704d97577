import LuaFold.Tree.ArenaReading
import LuaFold.Proofs.Token.Partition
import Mathlib.Data.List.Infix

/-!
# What calls lay out

A list of calls says by itself what an arena has to hold.  It numbers the nodes in the order in
which they are opened and the stored tokens in the order in which they are pushed, and every node
spans the bytes that are pushed between its opening and its closing.

The calls are laid out in an arena from one place to another when the tokens, the closed nodes
and their lists of children stand there one after the other.  The nodes in a node come directly
behind it and its list of children comes behind theirs, and a node reaches over the tokens
between the place where it is opened and the place where it is closed.
-/

namespace LuaFold

/-! ## What calls say -/

/-- The number of bytes in trivia pieces. -/
def Measured.total (pieces : List Measured) : Nat :=
  (pieces.map length).sum

namespace Call

/-- The kinds of the tokens that a call stores: a token between its trivia, or none. -/
def kinds : Call → List Kind
  | .token leading kind _ trailing =>
    leading.map (fun piece => piece.kind.kind) ++ kind :: trailing.map fun piece => piece.kind.kind
  | _ => []

/--
The nodes and tokens that calls add, in order, from the numbers of the next node and of the next
stored token on.  A trivia piece is stored as a token, but it is not added to a node.
-/
def items (node token : Nat) : List Call → List Child
  | [] => []
  | .start _ :: rest => .node node :: items (node + 1) token rest
  | .finish :: rest => items node token rest
  | .token leading _ _ trailing :: rest =>
    .token (token + leading.length) ::
      items node (token + (leading.length + 1 + trailing.length)) rest

/-- The number of bytes pushed up to the call that closes a node with a number of open nodes in
it. -/
def bytesInside : Nat → List Call → Nat
  | _, [] => 0
  | depth, .start _ :: rest => bytesInside (depth + 1) rest
  | 0, .finish :: _ => 0
  | depth + 1, .finish :: rest => bytesInside depth rest
  | depth, .token leading _ length trailing :: rest =>
    Measured.total leading + length + Measured.total trailing + bytesInside depth rest

/-- The kinds and the spans of the nodes that calls open at an offset, in order. -/
def outlines (offset : Nat) : List Call → List (Kind × Span)
  | [] => []
  | .start kind :: rest =>
    (kind, ⟨offset, offset + bytesInside 0 rest⟩) :: outlines offset rest
  | .finish :: rest => outlines offset rest
  | .token leading _ length trailing :: rest =>
    outlines (offset + (Measured.total leading + length + Measured.total trailing)) rest

/-- Nothing is numbered below the numbers that calls start from. -/
theorem le_of_mem_items
    {node token : Nat}
    {calls : List Call} :
    (∀ index, Child.node index ∈ items node token calls → node ≤ index) ∧
      ∀ index, Child.token index ∈ items node token calls → token ≤ index := by
  fun_induction items node token calls with
  | case1 => simp
  | case2 node token kind rest ih => grind
  | case3 node token rest ih => exact ih
  | case4 node token leading kind length trailing rest ih => grind

/-- What calls add is numbered differently. -/
theorem nodup_items (node token : Nat) (calls : List Call) : (items node token calls).Nodup := by
  fun_induction items node token calls with
  | case1 => exact List.nodup_nil
  | case2 node token kind rest ih =>
      exact List.nodup_cons.mpr
        ⟨fun member => Nat.lt_irrefl _ (le_of_mem_items.1 node member), ih⟩
  | case3 node token rest ih => exact ih
  | case4 node token leading kind length trailing rest ih =>
      refine List.nodup_cons.mpr ⟨fun member => ?_, ih⟩
      have bound := le_of_mem_items.2 _ member
      omega

end Call

/-! ## Stored tokens -/

namespace StoredToken

/-- The tokens that trivia pieces are stored as, from an offset on. -/
def ofPieces (parent offset : Nat) : List Measured → List StoredToken
  | [] => []
  | piece :: rest =>
      ⟨piece.kind.kind, offset + piece.length, parent, 0, 0⟩ ::
        ofPieces parent (offset + piece.length) rest

/-- The tokens that a token call stores, from an offset on. -/
def ofCall
    (parent offset : Nat)
    (leading : List Measured)
    (kind : Kind)
    (length : Nat)
    (trailing : List Measured) :
    List StoredToken :=
  ofPieces parent offset leading ++
    ⟨kind, offset + Measured.total leading + length, parent, leading.length, trailing.length⟩ ::
      ofPieces parent (offset + Measured.total leading + length) trailing

@[simp]
theorem length_ofPieces
    (parent offset : Nat)
    (pieces : List Measured) :
    (ofPieces parent offset pieces).length = pieces.length := by
  induction pieces generalizing offset with
  | nil => rfl
  | cons piece rest ih => simp [ofPieces, ih]

@[simp]
theorem map_kind_ofPieces
    (parent offset : Nat)
    (pieces : List Measured) :
    (ofPieces parent offset pieces).map kind = pieces.map fun piece => piece.kind.kind := by
  induction pieces generalizing offset with
  | nil => rfl
  | cons piece rest ih => simp [ofPieces, ih]

/-- The spans of tokens that are stored one after the other from an offset on. -/
def spans (offset : Nat) : List StoredToken → List Span
  | [] => []
  | inner :: rest => ⟨offset, inner.stop⟩ :: spans inner.stop rest

theorem spans_append
    {offset stop : Nat}
    {first : List StoredToken}
    (tile : Span.Tile offset (spans offset first) stop)
    (second : List StoredToken) :
    spans offset (first ++ second) = spans offset first ++ spans stop second := by
  induction first generalizing offset with
  | nil =>
      cases tile
      rfl
  | cons inner rest ih =>
      obtain ⟨_, _, others⟩ := tile
      rw [List.cons_append, spans, spans, ih others]
      rfl

/-- Tokens that leave no gap stop where the last of them does. -/
theorem stop_last
    {offset stop : Nat}
    {tokens : List StoredToken}
    {last : StoredToken}
    (tile : Span.Tile offset (spans offset (tokens ++ [last])) stop) :
    last.stop = stop := by
  induction tokens generalizing offset with
  | nil => exact tile.2.2
  | cons inner rest ih => exact ih tile.2.2

theorem tile_ofPieces
    (parent offset : Nat)
    (pieces : List Measured) :
    Span.Tile offset (spans offset (ofPieces parent offset pieces))
      (offset + Measured.total pieces) := by
  induction pieces generalizing offset with
  | nil => rfl
  | cons piece rest ih =>
      refine ⟨rfl, Nat.le_add_right _ _, ?_⟩
      have others := ih (offset + piece.length)
      rwa [Nat.add_assoc] at others

section OfCall

variable (parent offset : Nat) (leading : List Measured) (kind : Kind) (length : Nat)
  (trailing : List Measured)

theorem length_ofCall :
    (ofCall parent offset leading kind length trailing).length =
      leading.length + 1 + trailing.length := by
  simp [ofCall]
  omega

/-- The tokens of a call leave no gap. -/
theorem tile_ofCall :
    Span.Tile offset (spans offset (ofCall parent offset leading kind length trailing))
      (offset + (Measured.total leading + length + Measured.total trailing)) := by
  have before := tile_ofPieces parent offset leading
  have behind := tile_ofPieces parent (offset + Measured.total leading + length) trailing
  rw [ofCall, spans_append before]
  refine before.append ⟨rfl, Nat.le_add_right _ _, ?_⟩
  simpa only [Nat.add_assoc] using behind

end OfCall

end StoredToken

/-! ## Places -/

/--
A place in an arena: how many nodes, tokens and children are stored before, and how many bytes
the tokens fill.
-/
structure Place where
  node : Nat
  token : Nat
  child : Nat
  offset : Nat

namespace Place

/-- The place where calls start, behind the token that comes first. -/
def origin : Place :=
  ⟨0, 1, 0, 0⟩

/-- The place in a node that is opened. -/
def enter (place : Place) : Place :=
  ⟨place.node + 1, place.token, place.child, place.offset⟩

/-- The place behind a token with its trivia. -/
def read
    (place : Place)
    (leading : List Measured)
    (length : Nat)
    (trailing : List Measured) :
    Place :=
  ⟨place.node, place.token + (leading.length + 1 + trailing.length), place.child,
    place.offset + (Measured.total leading + length + Measured.total trailing)⟩

/-- The place behind a node that is closed with a number of children. -/
def leave (place : Place) (count : Nat) : Place :=
  ⟨place.node, place.token, place.child + count, place.offset⟩

end Place

/-- What is stored for good: tokens, children of closed nodes, and these nodes. -/
structure Archive where
  tokens : List StoredToken
  children : List Child
  node? : Nat → Option (StoredNode Reach)

/-- One archive is followed by another. -/
structure Archive.Grows (first second : Archive) : Prop where
  tokens : first.tokens <+: second.tokens
  children : first.children <+: second.children
  node? : ∀ index node, first.node? index = some node → second.node? index = some node

/-- The archive of a finished arena. -/
def Arena.archive (arena : Arena Reach) : Archive where
  tokens := arena.tokens
  children := arena.children
  node? index := arena.nodes[index]?

/--
Calls that open and close nodes in pairs are laid out from one place to another, in the node with
a number or in none, and add children to it.
-/
inductive Laid (archive : Archive) : Option Nat → Place → List Call → List Child → Place → Prop
  where
  | nil {parent? : Option Nat} {start : Place} : Laid archive parent? start [] [] start
  | token
      {parent : Nat}
      {start here : Place}
      {calls : List Call}
      {kids : List Child}
      {leading trailing : List Measured}
      {kind : Kind}
      {length : Nat}
      (before : Laid archive (some parent) start calls kids here)
      (stored : StoredToken.ofCall parent here.offset leading kind length trailing <+:
        archive.tokens.drop here.token) :
      Laid archive (some parent) start (calls ++ [.token leading kind length trailing])
        (kids ++ [.token (here.token + leading.length)]) (here.read leading length trailing)
  | node
      {parent? : Option Nat}
      {start here there : Place}
      {calls inner : List Call}
      {kids own : List Child}
      {kind : Kind}
      (before : Laid archive parent? start calls kids here)
      (inside : Laid archive (some here.node) here.enter inner own there)
      (stored : archive.node? here.node =
        some ⟨parent?, kind, there.child, own.length, ⟨here.token, there.token - 1⟩⟩)
      (listed : own <+: archive.children.drop there.child) :
      Laid archive parent? start (calls ++ .start kind :: (inner ++ [.finish]))
        (kids ++ [.node here.node]) (there.leave own.length)

namespace Laid

variable {archive : Archive} {parent? : Option Nat} {start finish : Place} {calls : List Call}
  {kids : List Child}

/-- What is laid out stays so. -/
theorem mono
    (laid : Laid archive parent? start calls kids finish)
    {later : Archive}
    (grows : archive.Grows later) :
    Laid later parent? start calls kids finish := by
  induction laid with
  | nil => exact .nil
  | token before stored ih =>
      exact ih.token (stored.trans (grows.tokens.drop _))
  | node before inside stored listed ih inner =>
      exact ih.node inner (grows.node? _ _ stored) (listed.trans (grows.children.drop _))

/-- Places only move on. -/
theorem le (laid : Laid archive parent? start calls kids finish) :
    start.node ≤ finish.node ∧ start.token ≤ finish.token ∧ start.offset ≤ finish.offset := by
  induction laid with
  | nil => exact ⟨Nat.le_refl _, Nat.le_refl _, Nat.le_refl _⟩
  | token before stored ih => exact ⟨ih.1, by grind [Place.read], by grind [Place.read]⟩
  | node before inside stored listed ih inner =>
      simp only [Place.leave, Place.enter] at inner ⊢
      omega

end Laid

end LuaFold
