import LuaFold.Proofs.Tree.Survey

/-!
# Arenas represent their calls

Everything that is read from a finished arena follows from the calls that are laid out in it.  A
place in the arena is anchored when the last token before it stops at its offset, and so are all
places behind it; the span of a node or of a token with its trivia goes from one anchored place
to another.  A walk enters the nodes of a piece in the order of their numbers, and the children
of a node are the items of the piece inside it that have this node as their parent.
-/

namespace LuaFold

theorem Span.Tile.concat
    {start middle stop : Nat}
    {spans : List Span}
    (tile : Tile start spans middle)
    (forward : middle ≤ stop) :
    Tile start (spans ++ [⟨middle, stop⟩]) stop :=
  tile.append ⟨rfl, forward, rfl⟩

namespace Arena

variable {arena : Arena Reach}

/-- The last token before a place stops at the offset of the place. -/
def Anchored (arena : Arena Reach) (place : Place) : Prop :=
  arena.start? place.token = some place.offset

theorem Anchored.pos {place : Place} (anchored : arena.Anchored place) : 0 < place.token := by
  refine Nat.pos_of_ne_zero fun zero => ?_
  rw [Anchored, zero] at anchored
  cases anchored

/-- Tokens that are stored without a gap stop where what is stored behind them starts. -/
theorem start?_behind
    {stored : List StoredToken}
    {index offset stop : Nat}
    (present : stored ≠ [])
    (stands : stored <+: arena.tokens.drop index)
    (tile : Span.Tile offset (StoredToken.spans offset stored) stop) :
    arena.start? (index + stored.length) = some stop := by
  obtain ⟨front, last, rfl⟩ := (List.eq_nil_or_concat' stored).resolve_left present
  obtain ⟨behind, drops⟩ := stands
  have found : arena.tokens[index + front.length]? = some last := by
    rw [← List.getElem?_drop, ← drops]
    simp
  have next : index + (front ++ [last]).length = index + front.length + 1 := by
    simp [Nat.add_assoc]
  rw [next, start?, stop?, found, Option.map_some, StoredToken.stop_last tile]

/-- The span up to a token stops where what is stored behind it starts. -/
theorem spanBetween?_eq
    {first last start stop : Nat}
    (opens : arena.start? first = some start)
    (closes : arena.start? (last + 1) = some stop)
    (forward : start ≤ stop) :
    arena.spanBetween? first last = some ⟨start, stop⟩ := by
  rw [start?] at closes
  simp [spanBetween?, opens, closes, forward]

/-- A token is stored between its trivia. -/
theorem fullSpan?_eq
    {here : Place}
    (anchored : arena.Anchored here)
    {parent : Nat}
    {leading trailing : List Measured}
    {kind : Kind}
    {length : Nat}
    (stored : StoredToken.ofCall parent here.offset leading kind length trailing <+:
      arena.tokens.drop here.token) :
    arena.Anchored (here.read leading length trailing) ∧
      arena.parent? (.token (here.token + leading.length)) = some parent ∧
      arena.fullSpan? (here.token + leading.length) =
        some ⟨here.offset, (here.read leading length trailing).offset⟩ := by
  have tile := StoredToken.tile_ofCall parent here.offset leading kind length trailing
  have count := StoredToken.length_ofCall parent here.offset leading kind length trailing
  have present : StoredToken.ofCall parent here.offset leading kind length trailing ≠ [] :=
    List.ne_nil_of_length_pos (by omega)
  have behind := start?_behind present stored tile
  rw [count] at behind
  obtain ⟨rest, drops⟩ := stored
  have found : arena.tokens[here.token + leading.length]? = some ⟨kind,
      here.offset + Measured.total leading + length, parent, leading.length, trailing.length⟩ := by
    rw [← List.getElem?_drop, ← drops]
    simp [StoredToken.ofCall]
  refine ⟨behind, by simp [parent?, found], ?_⟩
  have last : here.token + leading.length + trailing.length + 1 =
      here.token + (leading.length + 1 + trailing.length) := by omega
  have span := spanBetween?_eq anchored (last.symm ▸ behind) (Nat.le_add_right _ _)
  rw [fullSpan?, found]
  simpa [Place.read] using span

/-- The children of a node are those that were listed when it was closed. -/
theorem nodeChildren_of_prefix
    {own : List Child}
    {start : Nat}
    {parent? : Option Nat}
    {kind : Kind}
    {reach : Reach}
    (listed : own <+: arena.archive.children.drop start) :
    arena.nodeChildren ⟨parent?, kind, start, own.length, reach⟩ = own :=
  (List.prefix_iff_eq_take.mp listed).symm

/-- The span of a node goes from the place where it is opened to the place where it is closed. -/
theorem nodeSpan?_eq
    {here there : Place}
    (opens : arena.Anchored here)
    (closes : arena.Anchored there)
    (further : here.token ≤ there.token)
    (forward : here.offset ≤ there.offset)
    {node : StoredNode Reach}
    (reach : node.reach = ⟨here.token, there.token - 1⟩) :
    arena.nodeSpan? node = some ⟨here.offset, there.offset⟩ := by
  have pos := closes.pos
  have last : there.token - 1 + 1 = there.token := Nat.sub_add_cancel pos
  rw [nodeSpan?, reach]
  split
  · next empty =>
    -- no token was stored in between, so both places are the same
    have same : here.token = there.token := by simp only at empty; omega
    rw [Anchored, same] at opens
    have still : here.offset = there.offset := Option.some.inj (opens.symm.trans closes)
    rw [Anchored, ← last, start?] at closes
    simp only
    rw [closes, still]
    rfl
  · exact spanBetween?_eq opens (by rw [last]; exact closes) forward

end Arena

namespace Laid

open Arena (Anchored)

variable {arena : Arena Reach} {parent? : Option Nat} {start finish : Place} {calls : List Call}
  {kids : List Child}

/-! ## Spans -/

theorem anchored
    (laid : Laid arena.archive parent? start calls kids finish)
    (opens : arena.Anchored start) :
    arena.Anchored finish := by
  induction laid with
  | nil => exact opens
  | token before stored ih => exact (Arena.fullSpan?_eq (ih opens) stored).1
  | node before inside stored listed ih inner => exact inner (ih opens)

/-- The children of a piece have spans, which leave no gap between its places. -/
theorem tile
    (laid : Laid arena.archive parent? start calls kids finish)
    (opens : arena.Anchored start) :
    ∃ spans, kids.mapM arena.childSpan? = some spans ∧
      Span.Tile start.offset spans finish.offset := by
  induction laid with
  | nil => exact ⟨[], rfl, rfl⟩
  | @token parent start here calls kids leading trailing kind length before stored ih =>
      obtain ⟨spans, read, tile⟩ := ih opens
      have span := (Arena.fullSpan?_eq (before.anchored opens) stored).2.2
      refine ⟨_, ?_, tile.concat (Nat.le_add_right _ _)⟩
      simp [List.mapM_append, read, Arena.childSpan?, span, Place.read]
  | @node parent? start here there calls inner kids own kind before inside stored listed ih _ =>
      obtain ⟨spans, read, tile⟩ := ih opens
      have opened := before.anchored opens
      have span : arena.nodeSpan?
          ⟨parent?, kind, there.child, own.length, ⟨here.token, there.token - 1⟩⟩ = _ :=
        Arena.nodeSpan?_eq opened (inside.anchored opened) inside.le.2.1 inside.le.2.2 rfl
      have found : arena.nodes[here.node]? = _ := stored
      refine ⟨_, ?_, tile.concat inside.le.2.2⟩
      simp [List.mapM_append, read, Arena.childSpan?, found, span, Place.leave]

/-! ## Nodes -/

/-- A node of a piece is stored, with a piece of its own inside it. -/
structure Holds (arena : Arena Reach) (number : Nat) (node : StoredNode Reach) : Prop where
  found : arena.nodes[number]? = some node
  inside : ∃ here inner own there, here.node = number ∧ arena.Anchored here ∧
    Laid arena.archive (some number) here.enter inner own there ∧
    arena.nodeChildren node = own ∧ node.reach = ⟨here.token, there.token - 1⟩

/-- The nodes between the places of a piece are all stored. -/
theorem holds
    (laid : Laid arena.archive parent? start calls kids finish)
    (opens : arena.Anchored start)
    {number : Nat}
    (above : start.node ≤ number)
    (below : number < finish.node) :
    ∃ node, Holds arena number node := by
  induction laid with
  | nil => omega
  | token before stored ih => exact ih opens above below
  | @node parent? start here there calls inner kids own kind before inside stored listed ih
      nested =>
      have opened := before.anchored opens
      rcases Nat.lt_trichotomy number here.node with earlier | rfl | later
      · exact ih opens above earlier
      · exact ⟨_, stored, here, inner, own, there, rfl, opened, inside,
          Arena.nodeChildren_of_prefix listed, rfl⟩
      · exact nested opened later below

/-! ## Items -/

/-- What is laid out takes its numbers from those between its places. -/
theorem items_append
    (laid : Laid arena.archive parent? start calls kids finish)
    (rest : List Call) :
    Call.items start.node start.token (calls ++ rest) =
      Call.items start.node start.token calls ++ Call.items finish.node finish.token rest := by
  suffices all : ∃ own, ∀ rest, Call.items start.node start.token (calls ++ rest) =
      own ++ Call.items finish.node finish.token rest by
    obtain ⟨own, split⟩ := all
    have alone := split []
    rw [List.append_nil, Call.items, List.append_nil] at alone
    rw [split, alone]
  clear rest
  induction laid with
  | nil => exact ⟨[], fun rest => rfl⟩
  | @token parent start here calls kids leading trailing kind length before stored ih =>
      obtain ⟨own, split⟩ := ih
      refine ⟨own ++ [.token (here.token + leading.length)], fun rest => ?_⟩
      rw [List.append_assoc, split]
      simp [Call.items, Place.read]
  | @node parent? start here there calls inner kids _ kind before inside stored listed ih nested =>
      obtain ⟨own, split⟩ := ih
      obtain ⟨deep, further⟩ := nested
      refine ⟨own ++ .node here.node :: deep, fun rest => ?_⟩
      have next := further (.finish :: rest)
      simp only [Place.enter] at next
      rw [List.append_assoc, split]
      simp [Call.items, next, Place.leave]

theorem items_token
    {parent : Nat}
    {here : Place}
    {leading trailing : List Measured}
    {kind : Kind}
    {length : Nat}
    (before : Laid arena.archive (some parent) start calls kids here) :
    Call.items start.node start.token (calls ++ [.token leading kind length trailing]) =
      Call.items start.node start.token calls ++ [.token (here.token + leading.length)] := by
  rw [before.items_append]
  rfl

theorem items_node
    {here there : Place}
    {inner : List Call}
    {own : List Child}
    {kind : Kind}
    (before : Laid arena.archive parent? start calls kids here)
    (inside : Laid arena.archive (some here.node) here.enter inner own there) :
    Call.items start.node start.token (calls ++ .start kind :: (inner ++ [.finish])) =
      Call.items start.node start.token calls ++
        .node here.node :: Call.items here.enter.node here.enter.token inner := by
  have nested := inside.items_append [.finish]
  rw [before.items_append, Call.items]
  simp only [Place.enter] at nested ⊢
  simp [nested, Call.items]

/-- The nodes that a piece opens are those between its places. -/
theorem node_mem_items
    (laid : Laid arena.archive parent? start calls kids finish)
    {number : Nat} :
    Child.node number ∈ Call.items start.node start.token calls ↔
      start.node ≤ number ∧ number < finish.node := by
  induction laid with
  | nil =>
      simp only [Call.items, List.not_mem_nil, false_iff]
      omega
  | token before stored ih => simp [before.items_token, ih, Place.read]
  | @node parent? start here there calls inner kids own kind before inside stored listed ih
      nested =>
      have forward := before.le.1
      have further := inside.le.1
      rw [before.items_node inside, List.mem_append, List.mem_cons, ih, nested, Child.node.injEq]
      simp only [Place.enter, Place.leave] at further ⊢
      omega

/-- What a piece adds has a parent around the piece, or inside it. -/
theorem parent?_of_mem
    (laid : Laid arena.archive parent? start calls kids finish)
    (opens : arena.Anchored start)
    {child : Child}
    (member : child ∈ Call.items start.node start.token calls) :
    arena.parent? child = parent? ∨
      ∃ number,
        arena.parent? child = some number ∧
        start.node ≤ number ∧
        number < finish.node := by
  induction laid with
  | nil => cases member
  | @token parent start here calls kids leading trailing kind length before stored ih =>
      rw [before.items_token, List.mem_append, List.mem_singleton] at member
      rcases member with earlier | rfl
      · exact ih opens earlier
      · exact .inl (Arena.fullSpan?_eq (before.anchored opens) stored).2.1
  | @node parent? start here there calls inner kids own kind before inside stored listed ih
      nested =>
      have forward := before.le.1
      have further := inside.le.1
      rw [before.items_node inside, List.mem_append, List.mem_cons] at member
      simp only [Place.enter] at further
      rcases member with earlier | rfl | deeper
      · rcases ih opens earlier with same | ⟨number, isParent, above, below⟩
        · exact .inl same
        · refine .inr ⟨number, isParent, above, ?_⟩
          simp only [Place.leave]
          omega
      · have found : arena.nodes[here.node]? = _ := stored
        exact .inl (by simp [Arena.parent?, found])
      · refine .inr ?_
        rcases nested (before.anchored opens) deeper with same | ⟨number, isParent, above, below⟩
        · refine ⟨here.node, same, forward, ?_⟩
          simp only [Place.leave]
          omega
        · refine ⟨number, isParent, ?_, below⟩
          simp only [Place.enter] at above
          omega

/-- Every token that a piece adds has a parent. -/
theorem housed_of_mem
    (laid : Laid arena.archive parent? start calls kids finish)
    (opens : arena.Anchored start)
    {number : Nat}
    (member : Child.token number ∈ Call.items start.node start.token calls) :
    (arena.parent? (.token number)).isSome := by
  induction laid with
  | nil => cases member
  | @token parent start here calls kids leading trailing kind length before stored ih =>
      rw [before.items_token, List.mem_append, List.mem_singleton] at member
      rcases member with earlier | same
      · exact ih opens earlier
      · rw [same, (Arena.fullSpan?_eq (before.anchored opens) stored).2.1]
        rfl
  | node before inside stored listed ih nested =>
      rw [before.items_node inside, List.mem_append, List.mem_cons] at member
      rcases member with earlier | same | deeper
      · exact ih opens earlier
      · cases same
      · exact nested (before.anchored opens) deeper

/-- Everything that the piece inside a node adds has a parent. -/
theorem isSome_parent?_of_mem
    {around : Nat}
    (inside : Laid arena.archive (some around) start calls kids finish)
    (opens : arena.Anchored start)
    {child : Child}
    (member : child ∈ Call.items start.node start.token calls) :
    (arena.parent? child).isSome := by
  rcases inside.parent?_of_mem opens member with same | ⟨_, isParent, _⟩
  · rw [same]
    rfl
  · rw [isParent]
    rfl

/-- A node that is neither around a piece nor in it is the parent of nothing that the piece adds. -/
theorem filter_items_eq_nil
    (laid : Laid arena.archive parent? start calls kids finish)
    (opens : arena.Anchored start)
    {other : Option Nat}
    (outside : parent? ≠ other)
    (apart : ∀ number, other = some number → number < start.node ∨ finish.node ≤ number) :
    (Call.items start.node start.token calls).filter
      (fun child => arena.parent? child = other) = [] := by
  refine List.filter_eq_nil_iff.mpr fun child member same => ?_
  have isOther := of_decide_eq_true same
  rcases laid.parent?_of_mem opens member with around | ⟨number, isParent, above, below⟩
  · exact outside (around.symm.trans isOther)
  · rcases apart number (isOther.symm.trans isParent) with before | behind
    · exact absurd before (Nat.not_lt.mpr above)
    · exact absurd below (Nat.not_lt.mpr behind)

/-- The children of a piece are those of its items that have its parent. -/
theorem kids_eq
    (laid : Laid arena.archive parent? start calls kids finish)
    (opens : arena.Anchored start)
    (around : ∀ number, parent? = some number → number < start.node) :
    kids = (Call.items start.node start.token calls).filter fun child =>
      arena.parent? child = parent? := by
  induction laid with
  | nil => rfl
  | @token parent start here calls kids leading trailing kind length before stored ih =>
      have isParent := (Arena.fullSpan?_eq (before.anchored opens) stored).2.1
      rw [before.items_token, List.filter_append, ← ih opens around]
      simp [isParent]
  | @node parent? start here there calls inner kids own kind before inside stored listed ih _ =>
      have found : arena.nodes[here.node]? = _ := stored
      have forward := before.le.1
      have none : (Call.items here.enter.node here.enter.token inner).filter
          (fun child => arena.parent? child = parent?) = [] := by
        refine inside.filter_items_eq_nil (before.anchored opens) (fun same => ?_)
          fun number same => .inl ((around number same).trans_le (forward.trans (Nat.le_succ _)))
        exact absurd (around here.node same.symm) (Nat.not_lt.mpr forward)
      rw [before.items_node inside, List.filter_append, ← ih opens around, List.filter_cons, none]
      simp [Arena.parent?, found]

/-- The children of a node in a piece are those of its items that have this node as parent. -/
theorem nodeChildren_eq
    (laid : Laid arena.archive parent? start calls kids finish)
    (opens : arena.Anchored start)
    (around : ∀ number, parent? = some number → number < start.node)
    {number : Nat}
    (above : start.node ≤ number)
    (below : number < finish.node)
    {node : StoredNode Reach}
    (found : arena.nodes[number]? = some node) :
    arena.nodeChildren node = (Call.items start.node start.token calls).filter fun child =>
      arena.parent? child = some number := by
  induction laid with
  | nil => omega
  | @token parent start here calls kids leading trailing kind length before stored ih =>
      have isParent := (Arena.fullSpan?_eq (before.anchored opens) stored).2.1
      have outside := around parent rfl
      rw [before.items_token, List.filter_append, ← ih opens around above below]
      simp [isParent]
      omega
  | @node parent? start here there calls inner kids own kind before inside stored listed ih
      nested =>
      have opened := before.anchored opens
      have isHere : arena.nodes[here.node]? = _ := stored
      have notHere : parent? ≠ some number := fun same => by
        have outside := around number same
        omega
      have early (later : here.node ≤ number) : (Call.items start.node start.token calls).filter
          (fun child => arena.parent? child = some number) = [] :=
        before.filter_items_eq_nil opens notHere fun other same => by cases same; exact .inr later
      have late (earlier : number < here.node) :
          (Call.items here.enter.node here.enter.token inner).filter
            (fun child => arena.parent? child = some number) = [] :=
        inside.filter_items_eq_nil opened (fun same => by cases same; omega) fun other same => by
          cases same
          exact .inl (earlier.trans (Nat.lt_succ_self _))
      have split : (Call.items start.node start.token
          (calls ++ .start kind :: (inner ++ [.finish]))).filter
            (fun child => arena.parent? child = some number) =
          (Call.items start.node start.token calls).filter
              (fun child => arena.parent? child = some number) ++
            (Call.items here.enter.node here.enter.token inner).filter
              fun child => arena.parent? child = some number := by
        rw [before.items_node inside, List.filter_append, List.filter_cons]
        simp [Arena.parent?, isHere, notHere]
      rw [split]
      rcases Nat.lt_trichotomy number here.node with earlier | rfl | later
      · rw [late earlier, List.append_nil]
        exact ih opens around above earlier
      · rw [early (Nat.le_refl _), List.nil_append]
        cases isHere.symm.trans found
        have listing : own = _ :=
          inside.kids_eq opened fun outer same => by cases same; exact Nat.lt_succ_self _
        rw [← listing]
        exact Arena.nodeChildren_of_prefix listed
      · rw [early later.le, List.nil_append]
        exact nested opened (fun outer same => by cases same; exact Nat.lt_succ_self _) later below

end Laid

/-! ## Walks -/

namespace Arena

variable {arena : Arena Reach}

/-- The nodes that a walk enters from a child, if it is a node. -/
def enteredFrom (arena : Arena Reach) : Child → List Nat
  | .node index => arena.enteredAt index
  | .token _ => []

theorem enteredIn_eq
    {index : Nat}
    {child : Child}
    (inside : ∀ number, child = .node number → index < number ∧ number < arena.nodes.length) :
    arena.enteredIn index child = arena.enteredFrom child := by
  cases child with
  | node number => rw [enteredIn, dif_pos (inside number rfl), enteredFrom]
  | token number => rw [enteredIn, enteredFrom]

end Arena

namespace Laid

variable {arena : Arena Reach} {parent? : Option Nat} {start finish : Place} {calls : List Call}
  {kids : List Child}

theorem node_of_mem
    (laid : Laid arena.archive parent? start calls kids finish)
    {number : Nat}
    (member : Child.node number ∈ kids) :
    start.node ≤ number ∧ number < arena.nodes.length := by
  induction laid with
  | nil => cases member
  | token before stored ih =>
      rcases List.mem_append.mp member with earlier | last
      · exact ih earlier
      · cases List.mem_singleton.mp last
  | node before inside stored listed ih _ =>
      rcases List.mem_append.mp member with earlier | last
      · exact ih earlier
      · cases List.mem_singleton.mp last
        exact ⟨before.le.1, (List.getElem?_eq_some_iff.mp stored).1⟩

/-- The numbers up to a place, split at one of them. -/
theorem range'_split
    {start here there : Nat}
    (forward : start ≤ here)
    (further : here + 1 ≤ there) :
    List.range' start (there - start) =
      List.range' start (here - start) ++ here :: List.range' (here + 1) (there - (here + 1)) := by
  have place : start + (here - start) = here := by omega
  have count : there - start = here - start + (there - (here + 1) + 1) := by omega
  rw [count, ← List.range'_append_1, place, List.range'_succ]

/-- A walk through the children of a piece enters its nodes in the order of their numbers. -/
theorem entered (laid : Laid arena.archive parent? start calls kids finish) :
    kids.flatMap arena.enteredFrom = List.range' start.node (finish.node - start.node) := by
  induction laid with
  | nil => simp
  | token before stored ih => simpa [Arena.enteredFrom, Place.read] using ih
  | @node parent? start here there calls inner kids own kind before inside stored listed ih
      nested =>
      have found : arena.nodes[here.node]? = _ := stored
      have below : own.flatMap (arena.enteredIn here.node) = own.flatMap arena.enteredFrom :=
        List.flatMap_congr fun child member => Arena.enteredIn_eq fun number same => by
          subst same
          exact inside.node_of_mem member
      have entered : arena.enteredAt here.node =
          here.node :: List.range' (here.node + 1) (there.node - (here.node + 1)) := by
        rw [Arena.enteredAt, found]
        simp only [Arena.nodeChildren_of_prefix listed, below, nested]
        rfl
      rw [List.flatMap_append, ih, Place.leave, range'_split before.le.1 inside.le.1]
      simp [Arena.enteredFrom, entered]

/-- A piece that lies in no node adds the nodes without a parent. -/
theorem roots_eq
    (laid : Laid arena.archive parent? start calls kids finish)
    (opens : arena.Anchored start)
    (outermost : parent? = none) :
    kids = ((List.range' start.node (finish.node - start.node)).filter fun number =>
      (arena.parent? (.node number)).isNone).map Child.node := by
  induction laid with
  | nil => simp
  | token before stored ih => cases outermost
  | @node parent? start here there calls inner kids own kind before inside stored listed ih _ =>
      have found : arena.nodes[here.node]? = _ := stored
      have none : (List.range' (here.node + 1) (there.node - (here.node + 1))).filter
          (fun number => (arena.parent? (.node number)).isNone) = [] := by
        refine List.filter_eq_nil_iff.mpr fun number member root => ?_
        have bounds := List.mem_range'_1.mp member
        have further := inside.le.1
        simp only [Place.enter] at further
        have within : Child.node number ∈ Call.items here.enter.node here.enter.token inner :=
          inside.node_mem_items.mpr ⟨bounds.1, by omega⟩
        have housed := inside.isSome_parent?_of_mem (before.anchored opens) within
        rw [Option.isNone_iff_eq_none.mp root] at housed
        cases housed
      rw [Place.leave, range'_split before.le.1 inside.le.1, List.filter_append,
        List.filter_cons, none, List.map_append, ← ih opens outermost]
      simp [Arena.parent?, found, outermost]

/-! ## Outlines -/

/-- The bytes of a piece are pushed before what follows it. -/
theorem bytesInside_append
    (laid : Laid arena.archive parent? start calls kids finish)
    (depth : Nat)
    (rest : List Call) :
    start.offset + Call.bytesInside depth (calls ++ rest) =
      finish.offset + Call.bytesInside depth rest := by
  induction laid generalizing depth rest with
  | nil => rfl
  | token before stored ih =>
      rw [List.append_assoc, ih]
      simp [Call.bytesInside, Place.read, Nat.add_assoc]
  | node before inside stored listed ih nested =>
      rw [List.append_assoc, ih]
      have further := nested (depth + 1) (.finish :: rest)
      simpa [Call.bytesInside, Place.enter, Place.leave] using further

/-- The nodes of a piece have the kinds and spans that the calls say. -/
theorem outlines
    (laid : Laid arena.archive parent? start calls kids finish)
    (opens : arena.Anchored start) :
    ∃ outlines,
      (List.range' start.node (finish.node - start.node)).mapM
        (fun number => arena.nodes[number]?.bind arena.outline?) = some outlines ∧
      ∀ rest, Call.outlines start.offset (calls ++ rest) =
        outlines ++ Call.outlines finish.offset rest := by
  induction laid with
  | nil => exact ⟨[], by simp, fun rest => rfl⟩
  | token before stored ih =>
      obtain ⟨outlines, read, split⟩ := ih opens
      refine ⟨outlines, read, fun rest => ?_⟩
      rw [List.append_assoc, split]
      rfl
  | @node parent? start here there calls inner kids own kind before inside stored listed ih
      nested =>
      have opened := before.anchored opens
      obtain ⟨outlines, read, split⟩ := ih opens
      obtain ⟨deep, readDeep, splitDeep⟩ := nested opened
      have found : arena.nodes[here.node]? = _ := stored
      have span : arena.nodeSpan?
          ⟨parent?, kind, there.child, own.length, ⟨here.token, there.token - 1⟩⟩ = _ :=
        Arena.nodeSpan?_eq opened (inside.anchored opened) inside.le.2.1 inside.le.2.2 rfl
      refine ⟨outlines ++ (kind, ⟨here.offset, there.offset⟩) :: deep, ?_, fun rest => ?_⟩
      · rw [Place.leave, range'_split before.le.1 inside.le.1, List.mapM_append, read]
        simp only [Place.enter] at readDeep
        simp [List.mapM_cons, found, Arena.outline?, span, readDeep]
      · have bytes := inside.bytesInside_append 0 (.finish :: rest)
        have next := splitDeep (.finish :: rest)
        simp only [Place.enter, Call.bytesInside, Nat.add_zero] at bytes next
        rw [List.append_assoc, split]
        simp [Call.outlines, Place.leave, bytes, next]

end Laid

/-! ## Tokens -/

namespace Arena

variable {arena : Arena Reach}

/-- A token leads to all tokens stored behind it. -/
theorem tokensAfter_eq
    (arena : Arena Reach)
    (index : Nat) :
    arena.tokensAfter index = List.range' (index + 1) (arena.tokens.length - (index + 1)) := by
  fun_induction tokensAfter arena index with
  | case1 index found =>
      have last : ¬ index + 1 < arena.tokens.length := by simpa [nextToken?] using found
      rw [Nat.sub_eq_zero_of_le (Nat.not_lt.mp last), List.range'_zero]
  | case2 index next found ih =>
      have inside : index + 1 < arena.tokens.length ∧ index + 1 = next := by
        simpa [nextToken?] using found
      obtain ⟨inside, rfl⟩ := inside
      have count : arena.tokens.length - (index + 1) =
          arena.tokens.length - (index + 1 + 1) + 1 := by omega
      rw [ih, count, List.range'_succ]

/-- The spans of tokens that are stored without a gap, one after the other. -/
theorem mapM_tokenSpan?
    {front stored : List StoredToken}
    {before : StoredToken}
    {stop : Nat}
    (tokens : arena.tokens = front ++ before :: stored)
    (tile : Span.Tile before.stop (StoredToken.spans before.stop stored) stop) :
    (List.range' (front.length + 1) stored.length).mapM arena.tokenSpan? =
      some (StoredToken.spans before.stop stored) := by
  induction stored generalizing front before with
  | nil => rfl
  | cons inner rest ih =>
      obtain ⟨_, forward, others⟩ := tile
      have next := @ih (front ++ [before]) inner (by simp [tokens]) others
      rw [List.length_append, List.length_singleton] at next
      have span : arena.tokenSpan? (front.length + 1) = some ⟨before.stop, inner.stop⟩ :=
        spanBetween?_eq (by simp [start?, stop?, tokens]) (by simp [start?, stop?, tokens]) forward
      rw [List.length_cons, List.range'_succ, List.mapM_cons, span, next]
      rfl

/--
An arena over a text represents the calls that built it.  Its nodes are numbered in the order in
which they are opened and span what is pushed until they are closed; walks through the lists of
children enter them in this order.  The lists of children and the links to parents are inverse
to each other, the children of a node leave no gap in its span, and the stored tokens, visited
one after the other, leave no gap in the text.
-/
structure Represents (arena : Arena Reach) (text : Text) (calls : List Call) : Prop where
  outlines : arena.nodes.mapM arena.outline? = some (Call.outlines 0 calls)
  entered : arena.entered = List.range arena.nodes.length
  numbered : ∀ number, Child.node number ∈ Call.items 0 1 calls ↔ number < arena.nodes.length
  housed : ∀ number, Child.token number ∈ Call.items 0 1 calls →
    (arena.parent? (.token number)).isSome
  parents : ∀ child ∈ Call.items 0 1 calls, ∀ parent, arena.parent? child = some parent →
    parent < arena.nodes.length
  inverse : ∀ number node, arena.nodes[number]? = some node → ∀ child,
    (arena.nodeChildren node).count child =
      if child ∈ Call.items 0 1 calls ∧ arena.parent? child = some number then 1 else 0
  tiled : ∀ node ∈ arena.nodes, ∃ span spans, arena.nodeSpan? node = some span ∧
    (arena.nodeChildren node).mapM arena.childSpan? = some spans ∧
    Span.Tile span.start spans span.stop
  visited : arena.tokensAfter 0 = List.range' 1 (arena.tokens.length - 1)
  kinds : arena.tokens.tail.map StoredToken.kind = calls.flatMap Call.kinds
  covered : ∃ spans, (arena.tokensAfter 0).mapM arena.tokenSpan? = some spans ∧
    Span.Tile 0 spans (Text.size text)

/-- Reading a list by its numbers is reading it in order. -/
theorem mapM_getElem?
    {Item Value : Type}
    (read : Item → Option Value)
    (front rest : List Item) :
    (List.range' front.length rest.length).mapM (fun number => (front ++ rest)[number]?.bind read) =
      rest.mapM read := by
  induction rest generalizing front with
  | nil => rfl
  | cons item rest ih =>
      have next := ih (front ++ [item])
      rw [List.length_append, List.length_singleton, List.append_assoc,
        List.singleton_append] at next
      rw [List.length_cons, List.range'_succ, List.mapM_cons, List.mapM_cons, next]
      simp

section LaysOut

variable {text : Text} {calls : List Call} {kids : List Child} {finish : Place}
  (laid : Laid arena.archive none .origin calls kids finish)
  (opens : arena.Anchored .origin) (count : finish.node = arena.nodes.length)
include laid opens count

theorem outlines_eq : arena.nodes.mapM arena.outline? = some (Call.outlines 0 calls) := by
  obtain ⟨outlines, read, split⟩ := laid.outlines opens
  have alone := split []
  rw [List.append_nil, Call.outlines, List.append_nil] at alone
  have all := mapM_getElem? arena.outline? [] arena.nodes
  rw [count] at read
  rw [← all]
  exact read.trans (congrArg some alone.symm)

theorem entered_eq : arena.entered = List.range arena.nodes.length := by
  have roots := laid.roots_eq opens rfl
  have entered := laid.entered
  rw [count] at roots entered
  simp only [Place.origin, Nat.sub_zero, ← List.range_eq_range'] at roots entered
  rw [roots, List.flatMap_map] at entered
  exact entered

theorem count_nodeChildren
    {number : Nat}
    {node : StoredNode Reach}
    (found : arena.nodes[number]? = some node)
    (child : Child) :
    (arena.nodeChildren node).count child =
      if child ∈ Call.items 0 1 calls ∧ arena.parent? child = some number then 1 else 0 := by
  obtain ⟨inside, _⟩ := List.getElem?_eq_some_iff.mp found
  have listing := laid.nodeChildren_eq opens (fun _ outer => by cases outer) (Nat.zero_le number)
    (count ▸ inside) found
  rw [listing]
  have distinct := Call.nodup_items 0 1 calls
  by_cases isParent : arena.parent? child = some number
  · rw [List.count_filter (by simpa using isParent)]
    simp [Place.origin, distinct.count, isParent]
  · rw [List.count_eq_zero_of_not_mem (by simp [isParent])]
    simp [isParent]

theorem tile_nodeChildren
    {node : StoredNode Reach}
    (member : node ∈ arena.nodes) :
    ∃ span spans, arena.nodeSpan? node = some span ∧
      (arena.nodeChildren node).mapM arena.childSpan? = some spans ∧
      Span.Tile span.start spans span.stop := by
  obtain ⟨number, found⟩ := List.mem_iff_getElem?.mp member
  obtain ⟨inside, _⟩ := List.getElem?_eq_some_iff.mp found
  obtain ⟨other, isOther, here, inner, own, there, _, opened, within, children, reach⟩ :=
    laid.holds opens (Nat.zero_le number) (count ▸ inside)
  cases found.symm.trans isOther
  obtain ⟨spans, read, tile⟩ := within.tile opened
  have span := nodeSpan?_eq opened (within.anchored opened) within.le.2.1 within.le.2.2 reach
  exact ⟨_, spans, span, children ▸ read, tile⟩

end LaysOut

theorem LaysOut.represents
    {text : Text}
    {calls : List Call}
    (laysOut : arena.LaysOut text calls) :
    arena.Represents text calls := by
  obtain ⟨⟨kids, laid⟩, stored, tokens, tile, kinds⟩ := laysOut
  have opens : arena.Anchored .origin := by
    simp [Anchored, start?, stop?, tokens, Place.origin]
  have count : arena.tokens.length - 1 = stored.length := by simp [tokens]
  constructor
  · exact outlines_eq laid opens rfl
  · exact entered_eq laid opens rfl
  · intro number
    exact laid.node_mem_items.trans (and_iff_right (Nat.zero_le number))
  · exact fun number member => laid.housed_of_mem opens member
  · intro child member parent isParent
    rcases laid.parent?_of_mem opens member with outer | ⟨number, same, _, below⟩
    · cases outer.symm.trans isParent
    · cases same.symm.trans isParent
      exact below
  · exact fun number node found => count_nodeChildren laid opens rfl found
  · exact fun node member => tile_nodeChildren laid opens rfl member
  · exact tokensAfter_eq arena 0
  · rw [tokens]
    exact kinds
  · refine ⟨StoredToken.spans 0 stored, ?_, tile⟩
    rw [tokensAfter_eq, count]
    have behind : arena.tokens = [] ++ ⟨.tombstone, 0, 0, 0, 0⟩ :: stored := tokens
    exact mapM_tokenSpan? behind tile

/--
Calls that build an arena are represented by it: the links to parents and the lists of children
are inverse to each other, the nodes are numbered as walks enter them, and the spans of the
children of a node as well as those of all stored tokens leave no gap.
-/
theorem represents_of_build
    {text : Text}
    {calls : List Call}
    {arena : Arena Reach}
    (built : Arena.build text calls = .ok arena) :
    arena.Represents text calls :=
  (laysOut_of_build built).represents

theorem represents_of_build_nested :
    let text := " xy".toList
    let calls : List Call :=
      [.start .chunk, .start .block, .finish, .token [⟨.whitespace, 1⟩] .name 1 [⟨.newline, 0⟩],
        .token [] .eof 1 [], .finish, .start .block, .finish]
    let arena : Arena Reach :=
      ⟨text,
        [⟨.tombstone, 0, 0, 0, 0⟩, ⟨.whitespace, 1, 0, 0, 0⟩, ⟨.name, 2, 0, 1, 1⟩,
          ⟨.newline, 2, 0, 0, 0⟩, ⟨.eof, 3, 0, 0, 0⟩],
        [⟨none, .chunk, 0, 3, ⟨1, 4⟩⟩, ⟨some 0, .block, 0, 0, ⟨1, 0⟩⟩,
          ⟨none, .block, 3, 0, ⟨5, 4⟩⟩],
        [.node 1, .token 2, .token 4]⟩
    Arena.build text calls = .ok arena ∧ arena.Represents text calls := by
  intro text calls arena
  have built : Arena.build text calls = .ok arena := by rfl
  exact ⟨built, represents_of_build built⟩

end Arena

end LuaFold
