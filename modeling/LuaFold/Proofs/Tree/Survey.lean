import LuaFold.Proofs.Tree.ArenaNodes
import LuaFold.Proofs.Tree.ArenaTokens
import LuaFold.Proofs.Tree.Layout

/-!
# Building lays calls out

While an arena is built, the calls performed so far are laid out in pieces: those outside of all
nodes, and for every open node those since it was opened.  Each of the three calls keeps this
up.  A token fills in from which token on the open nodes reach; the nodes that wait for it lie
innermost, for an outer node waits only if nothing was pushed since, and so do those in it.
When all nodes are closed, there is one piece, and it is laid out in the finished arena.
-/

namespace LuaFold

/-- A stored node that knows what it reaches over. -/
def StoredNode.settled? (node : StoredNode (Option Reach)) : Option (StoredNode Reach) :=
  node.reach.map fun reach => ⟨node.parent?, node.kind, node.start, node.count, reach⟩

/-- What two steps give is what the second one makes of the outcome of the first. -/
theorem exists_of_bind_eq_ok
    {Fault First Second : Type}
    {first : Except Fault First}
    {next : First → Except Fault Second}
    {last : Second}
    (both : first >>= next = .ok last) :
    ∃ between, first = .ok between ∧ next between = .ok last := by
  cases first with
  | error fault => cases both
  | ok between => exact ⟨between, rfl, both⟩

/-! ## Pieces of a layout -/

/--
Calls that are laid out up to a place while nodes are open, innermost first, with the places
where these were opened.  Of each open node it is known what was stored when it was opened.  The
innermost node may already list a node that is about to be opened in it.
-/
inductive Charted
    (archive : Archive)
    (static : Nat → Option (StoredNode Unit)) :
    Option Nat → List Place → List OpenNode → List Call → Place → Prop where
  | roots
      {pending? : Option Nat}
      {calls : List Call}
      {kids : List Child}
      {here : Place}
      (laid : Laid archive none .origin calls kids here) :
      Charted archive static pending? [] [] calls here
  | node
      {pending? : Option Nat}
      {places : List Place}
      {opened : List OpenNode}
      {outer inside : List Call}
      {here there : Place}
      {kind : Kind}
      {front : List Child}
      (around : Charted archive static (some here.node) places opened outer here)
      (isOpen : static here.node =
        some ⟨opened.head?.map OpenNode.index, kind, 0, 0, ()⟩)
      (laid : Laid archive (some here.node) here.enter inside front there) :
      Charted archive static pending? (here :: places)
        (⟨here.node, front ++ (pending?.map Child.node).toList⟩ :: opened)
        (outer ++ .start kind :: inside) there

namespace Charted

variable {archive : Archive} {static : Nat → Option (StoredNode Unit)} {pending? : Option Nat}
  {places : List Place} {opened : List OpenNode} {calls : List Call} {here : Place}

/-- What is stored, and what is known about the open nodes, stays so. -/
theorem mono
    {later : Archive}
    {known : Nat → Option (StoredNode Unit)}
    (grows : archive.Grows later)
    (charted : Charted archive static pending? places opened calls here)
    (same : ∀ place ∈ places, known place.node = static place.node) :
    Charted later known pending? places opened calls here := by
  induction charted with
  | roots laid => exact .roots (laid.mono grows)
  | node around isOpen laid ih =>
      exact .node (ih fun place member => same place (List.mem_cons_of_mem _ member))
        ((same _ List.mem_cons_self).trans isOpen) (laid.mono grows)

theorem numbers_eq (charted : Charted archive static pending? places opened calls here) :
    opened.map OpenNode.index = places.map Place.node := by
  induction charted with
  | roots laid => rfl
  | node around isOpen laid ih => simp [ih]

/-- An outer node is opened no later than those in it. -/
theorem sorted (charted : Charted archive static pending? places opened calls here) :
    (∀ place ∈ places, place.token ≤ here.token) ∧
      places.Pairwise fun inner outer => outer.token ≤ inner.token := by
  induction charted with
  | roots laid => simp
  | @node pending? places opened outer inside here there kind front around isOpen laid ih =>
      have forward : here.token ≤ there.token := laid.le.2.1
      refine ⟨List.forall_mem_cons.mpr ⟨forward, fun place member => ?_⟩,
        List.pairwise_cons.mpr ⟨ih.1, ih.2⟩⟩
      exact (ih.1 place member).trans forward

/-- The innermost node lists a node that is opened in it. -/
theorem enter
    (charted : Charted archive static none places opened calls here)
    (number : Nat) :
    Charted archive static (some number) places (ArenaBuilder.addChild (.node number) opened)
      calls here := by
  cases charted with
  | roots laid => exact .roots laid
  | @node _ places opened outer inside start _ kind front around isOpen laid =>
      have listed : front ++ ((none : Option Nat).map Child.node).toList ++ [.node number] =
          front ++ ((some number).map Child.node).toList := by
        simp
      rw [ArenaBuilder.addChild, listed]
      exact .node around isOpen laid

/-- The innermost node is closed and stored. -/
theorem leave
    {inner : OpenNode}
    {outer : List OpenNode}
    {opening : Place}
    (charted : Charted archive static none (opening :: places) (inner :: outer) calls here)
    (stored : ∀ kind, static opening.node =
        some ⟨outer.head?.map OpenNode.index, kind, 0, 0, ()⟩ →
      archive.node? opening.node = some ⟨outer.head?.map OpenNode.index, kind, here.child,
        inner.children.length, ⟨opening.token, here.token - 1⟩⟩)
    (listed : inner.children <+: archive.children.drop here.child) :
    Charted archive static none places outer (calls ++ [.finish])
      (here.leave inner.children.length) := by
  cases charted with
  | @node _ _ _ earlier inside _ _ kind front around isOpen laid =>
      have found := stored kind isOpen
      simp only [Option.map_none, Option.toList_none, List.append_nil] at found listed ⊢
      rw [List.append_assoc, List.cons_append]
      cases around with
      | roots before => exact .roots (before.node laid found listed)
      | @node _ others opened first between start _ other kids further isOther before =>
          have whole : Charted archive static none _ _ _ _ :=
            .node further isOther (before.node laid found listed)
          simpa using whole

/-- A token is added to the innermost node. -/
theorem read
    {inner : OpenNode}
    {outer : List OpenNode}
    {leading trailing : List Measured}
    {kind : Kind}
    {length : Nat}
    (charted : Charted archive static none places (inner :: outer) calls here)
    (stored : StoredToken.ofCall inner.index here.offset leading kind length trailing <+:
      archive.tokens.drop here.token) :
    Charted archive static none places
      (ArenaBuilder.addChild (.token (here.token + leading.length)) (inner :: outer))
      (calls ++ [.token leading kind length trailing])
      (here.read leading length trailing) := by
  cases charted with
  | @node _ others _ earlier inside opening _ own front around isOpen laid =>
      have whole : Charted archive static none _ _ _ _ :=
        .node around isOpen (laid.token stored)
      simpa [ArenaBuilder.addChild] using whole

end Charted

namespace ArenaBuilder

/-! ## What open nodes reach over -/

/--
What an open node knows of its reach when a number of tokens is stored, if it was opened at a
mark: nothing as long as none was stored since, and then the first of these.
-/
inductive Reaching (count mark : Nat) : Option Reach → Prop where
  | waiting (nothing : count = mark) : Reaching count mark none
  | known {last : Nat} (pushed : mark < count) : Reaching count mark (some ⟨mark, last⟩)

/-- The node opened at a place knows of its reach what it can know. -/
def Marked (count : Nat) (nodes : List (StoredNode (Option Reach))) (place : Place) : Prop :=
  ∃ node, nodes[place.node]? = some node ∧ Reaching count place.token node.reach

theorem Marked.known
    {count more : Nat}
    {nodes : List (StoredNode (Option Reach))}
    {place : Place}
    (marked : Marked count nodes place)
    (before : place.token < count)
    (further : count ≤ more) :
    Marked more nodes place := by
  obtain ⟨node, found, reaching⟩ := marked
  refine ⟨node, found, ?_⟩
  cases known : node.reach with
  | none =>
      rw [known] at reaching
      cases reaching with
      | waiting nothing => omega
  | some reach =>
      rw [known] at reaching
      cases reaching with
      | known pushed => exact .known (pushed.trans_le further)

/-- A token fills in every node that waits for it. -/
theorem marked_fill
    {count more last : Nat}
    (further : count < more)
    {opened : List OpenNode}
    {places : List Place}
    {nodes : List (StoredNode (Option Reach))}
    (same : opened.map OpenNode.index = places.map Place.node)
    (distinct : (places.map Place.node).Nodup)
    (sorted : places.Pairwise fun inner outer => outer.token ≤ inner.token)
    (marked : ∀ place ∈ places, Marked count nodes place) :
    ∀ place ∈ places, Marked more (fill ⟨count, last⟩ opened nodes) place := by
  induction places generalizing opened nodes with
  | nil => simp
  | cons place places ih =>
      obtain ⟨inner, outer, rfl, isPlace, others⟩ := List.map_eq_cons_iff.mp same
      obtain ⟨different, distinct⟩ := List.nodup_cons.mp distinct
      obtain ⟨before, sorted⟩ := List.pairwise_cons.mp sorted
      obtain ⟨⟨node, found, reaching⟩, marked⟩ := List.forall_mem_cons.mp marked
      cases known : node.reach with
      | some reach =>
          -- the nodes around this one were opened before, so they know their reach as well
          have stops : fill ⟨count, last⟩ (inner :: outer) nodes = nodes := by
            simp [fill, isPlace, found, known]
          rw [stops]
          rw [known] at reaching
          cases reaching with
          | known pushed =>
              refine List.forall_mem_cons.mpr ⟨⟨node, found, ?_⟩, fun other member => ?_⟩
              · rw [known]
                exact .known (pushed.trans further)
              · exact (marked other member).known ((before other member).trans_lt pushed)
                  further.le
      | none =>
          let filled : StoredNode (Option Reach) :=
            ⟨node.parent?, node.kind, node.start, node.count, some ⟨count, last⟩⟩
          have goesOn : fill ⟨count, last⟩ (inner :: outer) nodes =
              fill ⟨count, last⟩ outer (nodes.set place.node filled) := by
            simp [fill, isPlace, found, known, filled]
          rw [goesOn]
          rw [known] at reaching
          cases reaching with
          | waiting nothing =>
              obtain ⟨inside, _⟩ := List.getElem?_eq_some_iff.mp found
              have here : (nodes.set place.node filled)[place.node]? = some filled := by
                simp [inside]
              refine List.forall_mem_cons.mpr ⟨⟨filled, ?_, ?_⟩, ih others distinct sorted ?_⟩
              · exact getElem?_fill _ outer here rfl
              · subst nothing
                exact .known further
              · intro other member
                obtain ⟨stored, isOther, waiting⟩ := marked other member
                refine ⟨stored, ?_, waiting⟩
                rw [List.getElem?_set_ne (fun clash => ?_), isOther]
                exact different (clash ▸ List.mem_map_of_mem member)

/-! ## Builders -/

/-- What is stored for good while an arena is built, where only closed nodes are. -/
def archive (builder : ArenaBuilder) : Archive where
  tokens := builder.arena.tokens
  children := builder.arena.children
  node? index :=
    if index ∈ builder.numbers then none
    else builder.arena.nodes[index]?.bind StoredNode.settled?

/-- What is known about the nodes apart from their reach. -/
def static (builder : ArenaBuilder) (index : Nat) : Option (StoredNode Unit) :=
  builder.arena.nodes[index]?.map StoredNode.bare

/-- The place behind everything that is stored. -/
def place (builder : ArenaBuilder) : Place :=
  ⟨builder.arena.nodes.length, builder.arena.tokens.length, builder.arena.children.length,
    builder.offset⟩

theorem node?_archive
    {builder : ArenaBuilder}
    {index : Nat}
    {node : StoredNode Reach} :
    builder.archive.node? index = some node ↔
      index ∉ builder.numbers ∧
        ∃ known, builder.arena.nodes[index]? = some known ∧ known.settled? = some node := by
  simp only [archive]
  split
  · next opened => simp [opened]
  · next closed => simp [closed, Option.bind_eq_some_iff]

/--
The calls performed so far are laid out in pieces, the open nodes know their reach as far as they
can, and the tokens leave no gap and have the kinds that were pushed.
-/
structure Surveyed (text : Text) (builder : ArenaBuilder) (calls : List Call) : Prop where
  whole : builder.arena.text = text
  numbered : builder.Numbered
  charted : ∃ places,
    Charted builder.archive builder.static none places builder.opened calls builder.place ∧
      ∀ place ∈ places, Marked builder.arena.tokens.length builder.arena.nodes place
  tokens : ∃ stored, builder.arena.tokens = ⟨.tombstone, 0, 0, 0, 0⟩ :: stored ∧
    Span.Tile 0 (StoredToken.spans 0 stored) builder.offset ∧
    stored.map StoredToken.kind = calls.flatMap Call.kinds

namespace Surveyed

variable {text : Text} {builder : ArenaBuilder} {calls : List Call}

theorem new (text : Text) : Surveyed text (.new text) [] :=
  ⟨rfl, .new text, ⟨[], .roots .nil, by simp⟩, [], rfl, rfl, rfl⟩

/-! ### Opening a node -/

theorem archive_start
    (builder : ArenaBuilder)
    (kind : Kind) :
    builder.archive.Grows (builder.start kind).archive := by
  refine ⟨List.prefix_refl _, List.prefix_refl _, fun index node found => ?_⟩
  obtain ⟨closed, known, isKnown, settled⟩ := node?_archive.mp found
  obtain ⟨kept, different⟩ := getElem?_start builder kind isKnown
  refine node?_archive.mpr ⟨?_, known, kept, settled⟩
  rw [numbers_start, List.mem_cons, not_or]
  exact ⟨different, closed⟩

theorem start
    (surveyed : Surveyed text builder calls)
    (kind : Kind) :
    Surveyed text (builder.start kind) (calls ++ [.start kind]) := by
  obtain ⟨whole, numbered, ⟨places, charted, marked⟩, stored, tokens, tile, kinds⟩ := surveyed
  have kept : ∀ place ∈ places,
      (builder.start kind).arena.nodes[place.node]? = builder.arena.nodes[place.node]? := by
    intro place member
    have bound := numbered.bounded place.node (by
      rw [ArenaBuilder.numbers, charted.numbers_eq]
      exact List.mem_map_of_mem member)
    rw [parents, List.length_map] at bound
    exact List.getElem?_append_left bound
  have buffer : builder.spare.headD [] = [] := by
    cases spare : builder.spare with
    | nil => rfl
    | cons buffer others => exact numbered.spare buffer (by simp [spare])
  have same : ∀ place ∈ places,
      (builder.start kind).static place.node = builder.static place.node :=
    fun place member => congrArg (Option.map StoredNode.bare) (kept place member)
  have around := (charted.mono (archive_start builder kind) same).enter builder.place.node
  have isOpen : (builder.start kind).static builder.place.node =
      some ⟨(addChild (.node builder.place.node) builder.opened).head?.map OpenNode.index, kind, 0,
        0, ()⟩ := by
    rw [← List.head?_map, map_index_addChild, List.head?_map]
    simp [static, ArenaBuilder.start, ArenaBuilder.place, StoredNode.bare]
  refine ⟨whole, numbered.start kind, ⟨builder.place :: places, ?_, ?_⟩, stored, tokens, tile, ?_⟩
  · have nested : (builder.start kind).opened =
        ⟨builder.place.node, []⟩ :: addChild (.node builder.place.node) builder.opened := by
      rw [ArenaBuilder.start, buffer]
      rfl
    have further : (builder.start kind).place = builder.place.enter := by
      simp [ArenaBuilder.start, ArenaBuilder.place, Place.enter]
    rw [nested, further]
    exact .node around isOpen .nil
  · refine List.forall_mem_cons.mpr ⟨⟨⟨builder.opened.head?.map OpenNode.index, kind, 0, 0, none⟩,
      ?_, .waiting rfl⟩, fun place member => ?_⟩
    · simp [ArenaBuilder.start, ArenaBuilder.place]
    · obtain ⟨node, found, reaching⟩ := marked place member
      exact ⟨node, (kept place member).trans found, reaching⟩
  · simp [kinds, Call.kinds]

/-! ### Closing a node -/

theorem archive_leave
    {inner : OpenNode}
    {outer : List OpenNode}
    (opened : builder.opened = inner :: outer) :
    builder.archive.Grows (builder.leave inner outer).archive := by
  refine ⟨List.prefix_refl _, List.prefix_append _ _, fun index node found => ?_⟩
  obtain ⟨closed, known, isKnown, settled⟩ := node?_archive.mp found
  rw [numbers_leave opened, List.mem_cons, not_or] at closed
  refine node?_archive.mpr ⟨closed.2, known, ?_, settled⟩
  rw [getElem?_leave_of_ne builder outer closed.1, isKnown]

/-- A node that is closed reaches from its mark up to the last token. -/
theorem settled?_close
    {count mark start size : Nat}
    {node : StoredNode (Option Reach)}
    (present : 0 < count)
    (reaching : Reaching count mark node.reach) :
    (node.close start size (count - 1)).settled? =
      some ⟨node.parent?, node.kind, start, size, ⟨mark, count - 1⟩⟩ := by
  cases known : node.reach with
  | none =>
      rw [known] at reaching
      cases reaching with
      | waiting nothing =>
          subst nothing
          simp [StoredNode.settled?, StoredNode.close, known, Nat.sub_add_cancel present]
  | some reach =>
      rw [known] at reaching
      cases reaching with
      | known pushed => simp [StoredNode.settled?, StoredNode.close, known]

/-- The node that was closed is stored for good. -/
theorem node?_leave
    {inner : OpenNode}
    {outer : List OpenNode}
    (numbered : builder.Numbered)
    (opened : builder.opened = inner :: outer)
    {node : StoredNode (Option Reach)}
    (found : builder.arena.nodes[inner.index]? = some node)
    {mark : Nat}
    (present : 0 < builder.arena.tokens.length)
    (reaching : Reaching builder.arena.tokens.length mark node.reach) :
    (builder.leave inner outer).archive.node? inner.index =
      some ⟨node.parent?, node.kind, builder.arena.children.length, inner.children.length,
        ⟨mark, builder.arena.tokens.length - 1⟩⟩ := by
  have distinct := numbered.distinct
  rw [numbers_leave opened, List.nodup_cons] at distinct
  refine node?_archive.mpr ⟨distinct.1, _, ?_, settled?_close present reaching⟩
  rw [getElem?_leave_self, found]
  rfl

theorem leave
    (surveyed : Surveyed text builder calls)
    {inner : OpenNode}
    {outer : List OpenNode}
    (opened : builder.opened = inner :: outer) :
    Surveyed text (builder.leave inner outer) (calls ++ [.finish]) := by
  obtain ⟨whole, numbered, ⟨places, charted, marked⟩, stored, tokens, tile, kinds⟩ := surveyed
  have distinct := numbered.distinct
  have numbers := charted.numbers_eq
  rw [ArenaBuilder.numbers, numbers] at distinct
  rw [opened] at charted numbers
  cases places with
  | nil => cases numbers
  | cons opening places =>
      obtain ⟨isInner, others⟩ := List.cons_eq_cons.mp numbers
      obtain ⟨different, _⟩ := List.nodup_cons.mp distinct
      obtain ⟨⟨node, found, reaching⟩, marked⟩ := List.forall_mem_cons.mp marked
      have kept : ∀ place ∈ places, (builder.leave inner outer).arena.nodes[place.node]? =
          builder.arena.nodes[place.node]? := by
        intro place member
        refine getElem?_leave_of_ne builder outer fun same => different ?_
        rw [← isInner, ← same]
        exact List.mem_map_of_mem member
      have same : ∀ place ∈ places,
          (builder.leave inner outer).static place.node = builder.static place.node :=
        fun place member => congrArg (Option.map StoredNode.bare) (kept place member)
      have closed := node?_leave numbered opened (isInner ▸ found) (by simp [tokens]) reaching
      have left := (charted.mono (archive_leave opened) fun _ _ => rfl).leave
        (fun kind isOpen => by
          have isNode : node.bare = ⟨outer.head?.map OpenNode.index, kind, 0, 0, ()⟩ := by
            simpa [static, found] using isOpen
          have isParent : node.parent? = outer.head?.map OpenNode.index :=
            congrArg (fun bare : StoredNode Unit => bare.parent?) isNode
          have isKind : node.kind = kind :=
            congrArg (fun bare : StoredNode Unit => bare.kind) isNode
          rw [isInner, isParent, isKind] at closed
          exact closed)
        ⟨[], (List.append_nil _).trans List.drop_left.symm⟩
      refine ⟨whole, numbered.leave opened, ⟨places, ?_, fun place member => ?_⟩, stored, tokens,
        tile, ?_⟩
      · have kept := left.mono ⟨List.prefix_refl _, List.prefix_refl _, fun _ _ => id⟩ same
        simpa [ArenaBuilder.leave, ArenaBuilder.place, Place.leave] using kept
      · obtain ⟨other, isOther, waiting⟩ := marked place member
        exact ⟨other, (kept place member).trans isOther, waiting⟩
      · simp [kinds, Call.kinds]

/-! ### Storing a token -/

theorem push_eq_ok
    {later : ArenaBuilder}
    {kind : Kind}
    {length parent leading trailing : Nat}
    (pushed : builder.push kind length parent leading trailing = .ok later) :
    later = builder.store [⟨kind, builder.offset + length, parent, leading, trailing⟩]
      (builder.offset + length) := by
  rw [push] at pushed
  split at pushed
  · cases pushed
    rfl
  · cases pushed

theorem pushTrivia_eq_ok
    {later : ArenaBuilder}
    {parent : Nat}
    {pieces : List Measured}
    (pushed : builder.pushTrivia parent pieces = .ok later) :
    later = builder.store (StoredToken.ofPieces parent builder.offset pieces)
      (builder.offset + Measured.total pieces) := by
  induction pieces generalizing builder with
  | nil =>
      cases pushed
      simp [store, StoredToken.ofPieces, Measured.total]
  | cons piece pieces ih =>
      rw [pushTrivia, List.foldlM_cons] at pushed
      obtain ⟨between, first, others⟩ := exists_of_bind_eq_ok pushed
      rw [ih others, push_eq_ok first]
      simp [store, StoredToken.ofPieces, Measured.total, Nat.add_assoc]

/-- An accepted token is stored with its trivia, and listed by the innermost node. -/
theorem token_eq_ok
    {later : ArenaBuilder}
    {leading trailing : List Measured}
    {kind : Kind}
    {length : Nat}
    (stored : builder.token leading kind length trailing = .ok later) :
    ∃ inner outer last, builder.opened = inner :: outer ∧
      later = builder.put
        (StoredToken.ofCall inner.index builder.offset leading kind length trailing)
        (builder.place.read leading length trailing).offset ⟨builder.arena.tokens.length, last⟩
        (builder.arena.tokens.length + leading.length) := by
  rw [token] at stored
  split at stored
  · cases stored
  · next inner outer opened =>
    obtain ⟨before, front, stored⟩ := exists_of_bind_eq_ok stored
    obtain ⟨inside, middle, stored⟩ := exists_of_bind_eq_ok stored
    obtain ⟨behind, back, stored⟩ := exists_of_bind_eq_ok stored
    have whole : behind = builder.store
        (StoredToken.ofCall inner.index builder.offset leading kind length trailing)
        (builder.place.read leading length trailing).offset := by
      rw [pushTrivia_eq_ok back, push_eq_ok middle, pushTrivia_eq_ok front]
      simp [store, StoredToken.ofCall, Place.read, ArenaBuilder.place, Nat.add_assoc]
    have index : before.arena.tokens.length = builder.arena.tokens.length + leading.length := by
      simp [pushTrivia_eq_ok front, store]
    cases stored
    refine ⟨inner, outer, behind.arena.tokens.length - 1, opened, ?_⟩
    rw [index, whole]
    rfl

theorem archive_put
    (numbered : builder.Numbered)
    (stored : List StoredToken)
    (offset : Nat)
    (reach : Reach)
    (index : Nat) :
    builder.archive.Grows (builder.put stored offset reach index).archive := by
  refine ⟨List.prefix_append _ _, List.prefix_refl _, fun place node found => ?_⟩
  obtain ⟨closed, known, isKnown, settled⟩ := node?_archive.mp found
  refine node?_archive.mpr ⟨by rwa [numbers_put], known, ?_, settled⟩
  exact getElem?_fill reach builder.opened isKnown (numbered.reached place known isKnown closed)

theorem length_fill
    (reach : Reach)
    (opened : List OpenNode)
    (nodes : List (StoredNode (Option Reach))) :
    (fill reach opened nodes).length = nodes.length := by
  simpa using congrArg List.length (map_bare_fill reach opened nodes)

theorem token
    (surveyed : Surveyed text builder calls)
    {later : ArenaBuilder}
    {leading trailing : List Measured}
    {kind : Kind}
    {length : Nat}
    (performed : builder.token leading kind length trailing = .ok later) :
    Surveyed text later (calls ++ [.token leading kind length trailing]) := by
  obtain ⟨inner, outer, last, opened, isLater⟩ := token_eq_ok performed
  obtain ⟨whole, numbered, ⟨places, charted, marked⟩, stored, tokens, tile, kinds⟩ := surveyed
  have gapless := StoredToken.tile_ofCall inner.index builder.offset leading kind length trailing
  have count := StoredToken.length_ofCall inner.index builder.offset leading kind length trailing
  have place : later.place = builder.place.read leading length trailing := by
    simp [isLater, ArenaBuilder.place, ArenaBuilder.put, Place.read, count, length_fill]
  have distinct := numbered.distinct
  rw [ArenaBuilder.numbers, charted.numbers_eq] at distinct
  refine ⟨isLater ▸ whole, isLater ▸ numbered.put _ _ _ _, ⟨places, ?_, fun place member => ?_⟩, ?_⟩
  · have grows : builder.archive.Grows later.archive := isLater ▸ archive_put numbered _ _ _ _
    have same : ∀ place ∈ places, later.static place.node = builder.static place.node :=
      fun place _ => isLater ▸ getElem?_put builder _ _ _ _ id place.node
    have listed : later.opened =
        addChild (.token (builder.place.token + leading.length)) (inner :: outer) := by
      rw [isLater, ← opened]
      rfl
    have moved := charted.mono grows same
    rw [opened] at moved
    rw [place, listed]
    refine moved.read ?_
    rw [isLater]
    show _ <+: (builder.arena.tokens ++ _).drop builder.arena.tokens.length
    rw [List.drop_left]
    exact List.prefix_refl _
  · have more : builder.arena.tokens.length < later.arena.tokens.length := by
      rw [isLater]
      simp only [ArenaBuilder.put, List.length_append, count]
      omega
    have nodes : later.arena.nodes =
        fill ⟨builder.arena.tokens.length, last⟩ builder.opened builder.arena.nodes := by
      rw [isLater]
      rfl
    rw [nodes]
    exact marked_fill more charted.numbers_eq distinct charted.sorted.2 marked place member
  · refine ⟨stored ++ StoredToken.ofCall inner.index builder.offset leading kind length trailing,
      ?_, ?_, ?_⟩
    · rw [isLater]
      simp [ArenaBuilder.put, tokens]
    · rw [StoredToken.spans_append tile, isLater]
      exact tile.append gapless
    · simp [kinds, Call.kinds, StoredToken.ofCall]

/-! ### Whole lists of calls -/

theorem perform
    (surveyed : Surveyed text builder calls)
    {call : Call}
    {later : ArenaBuilder}
    (performed : builder.perform call = .ok later) :
    Surveyed text later (calls ++ [call]) := by
  cases call with
  | start kind =>
      cases performed
      exact surveyed.start kind
  | token leading kind length trailing => exact surveyed.token performed
  | finish =>
      rw [ArenaBuilder.perform, close] at performed
      split at performed
      · cases performed
      · next inner outer opened =>
        cases performed
        exact surveyed.leave opened

theorem foldlM
    (surveyed : Surveyed text builder calls)
    {more : List Call}
    {later : ArenaBuilder}
    (performed : more.foldlM ArenaBuilder.perform builder = .ok later) :
    Surveyed text later (calls ++ more) := by
  induction more generalizing builder calls with
  | nil =>
      cases performed
      simpa using surveyed
  | cons call more ih =>
      rw [List.foldlM_cons] at performed
      obtain ⟨between, first, rest⟩ := exists_of_bind_eq_ok performed
      simpa using ih (surveyed.perform first) rest

end Surveyed

/-- Nodes that are completed are the settled ones. -/
theorem getElem?_complete
    {nodes : List (StoredNode (Option Reach))}
    {completed : List (StoredNode Reach)}
    (finished : nodes.mapM complete = .ok completed) :
    completed.length = nodes.length ∧
      ∀ index : Nat, completed[index]? = nodes[index]?.bind StoredNode.settled? := by
  induction nodes generalizing completed with
  | nil =>
      cases finished
      simp
  | cons node nodes ih =>
      rw [List.mapM_cons] at finished
      obtain ⟨first, settled, finished⟩ := exists_of_bind_eq_ok finished
      obtain ⟨others, rest, finished⟩ := exists_of_bind_eq_ok finished
      cases finished
      obtain ⟨length, same⟩ := ih rest
      have known : node.settled? = some first := by
        unfold complete at settled
        split at settled
        · cases settled
        · next reach isReach =>
          cases settled
          simp [StoredNode.settled?, isReach]
      refine ⟨by simp [length], fun index => ?_⟩
      cases index with
      | zero => simp [known]
      | succ index => simpa using same index

end ArenaBuilder

/--
Calls are laid out in an arena over a text as a whole, and behind the token that comes first the
tokens leave no gap in the text and have the kinds that were pushed.
-/
structure Arena.LaysOut (arena : Arena Reach) (text : Text) (calls : List Call) : Prop where
  laid : ∃ kids, Laid arena.archive none .origin calls kids
    ⟨arena.nodes.length, arena.tokens.length, arena.children.length, Text.size text⟩
  tokens : ∃ stored, arena.tokens = ⟨.tombstone, 0, 0, 0, 0⟩ :: stored ∧
    Span.Tile 0 (StoredToken.spans 0 stored) (Text.size text) ∧
    stored.map StoredToken.kind = calls.flatMap Call.kinds

/-- When all nodes are closed, the calls are laid out in the finished arena. -/
theorem ArenaBuilder.Surveyed.finish
    {text : Text}
    {builder : ArenaBuilder}
    {calls : List Call}
    (surveyed : Surveyed text builder calls)
    {arena : Arena Reach}
    (finished : builder.finish = .ok arena) :
    arena.LaysOut text calls := by
  obtain ⟨whole, numbered, ⟨places, charted, _⟩, stored, tokens, tile, kinds⟩ := surveyed
  rw [ArenaBuilder.finish] at finished
  split at finished
  · cases finished
  · next opened =>
    split at finished
    · cases finished
    · split at finished
      · cases finished
      · next covered =>
        obtain ⟨completed, settled, finished⟩ := exists_of_bind_eq_ok finished
        cases finished
        obtain ⟨length, same⟩ := getElem?_complete settled
        have closed : builder.opened = [] := by simpa using opened
        have offset : builder.offset = Text.size text := by
          rw [← whole]
          exact Decidable.not_not.mp covered
        have archive : builder.archive = Arena.archive
            ⟨builder.arena.text, builder.arena.tokens, completed, builder.arena.children⟩ := by
          simp [ArenaBuilder.archive, Arena.archive, numbers, closed, same]
        have place : builder.place = ⟨completed.length, builder.arena.tokens.length,
            builder.arena.children.length, Text.size text⟩ := by
          rw [ArenaBuilder.place, length, offset]
        rw [closed, archive, place] at charted
        cases charted with
        | roots laid => exact ⟨⟨_, laid⟩, stored, tokens, offset ▸ tile, kinds⟩

/-- Calls that build an arena are laid out in it. -/
theorem Arena.laysOut_of_build
    {text : Text}
    {calls : List Call}
    {arena : Arena Reach}
    (built : Arena.build text calls = .ok arena) :
    arena.LaysOut text calls := by
  obtain ⟨builder, performed, finished⟩ := exists_of_bind_eq_ok built
  exact ((ArenaBuilder.Surveyed.new text).foldlM performed).finish finished

end LuaFold
