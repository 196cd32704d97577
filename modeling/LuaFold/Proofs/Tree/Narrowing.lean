import LuaFold.Proofs.Tree.Demand
import LuaFold.Proofs.Tree.Survey
import LuaFold.Tree.Narrowing

/-!
# Numbers of 32 bits are enough

A call stores one node at most and lists one child at most, and closing a node only moves the
children that are listed already.  So there are no more of either than calls have been performed.
The tokens are those that the calls pushed, behind the one that comes first, and they stop behind
the bytes that the calls took.  These counts bound every number that is made narrow when the next
call is performed.

Where all these numbers fit, it makes no difference that places have 32 bits, for a step and so for
all of them.  Whether calls are accepted or refused, it is enough that they are few and that what
they push is short.
-/

namespace LuaFold

/-! ## Counts in an arena under construction -/

namespace ArenaBuilder

/-- The number of children of open nodes. -/
def awaiting (opened : List OpenNode) : Nat :=
  (opened.map fun inner => inner.children.length).sum

/-- The number of children that are listed anywhere, in closed nodes, open nodes and buffers. -/
def listed (builder : ArenaBuilder) : Nat :=
  builder.arena.children.length + awaiting builder.opened + (builder.spare.map List.length).sum

/-- A builder in which a number of calls pay for every node and for every listed child. -/
structure PaidBy (builder : ArenaBuilder) (count : Nat) : Prop where
  nodes : builder.arena.nodes.length ≤ count
  listed : builder.listed ≤ count

theorem awaiting_addChild_le
    (child : Child)
    (opened : List OpenNode) :
    awaiting (addChild child opened) ≤ awaiting opened + 1 := by
  cases opened with
  | nil => exact Nat.zero_le _
  | cons inner outer =>
    simp only [awaiting, addChild, List.map_cons, List.sum_cons, List.length_append,
      List.length_singleton]
    omega

theorem listed_start_le
    (builder : ArenaBuilder)
    (kind : Kind) :
    (builder.start kind).listed ≤ builder.listed + 1 := by
  have inside := awaiting_addChild_le (.node builder.arena.nodes.length) builder.opened
  have buffers : (builder.spare.headD []).length + (builder.spare.tail.map List.length).sum =
      (builder.spare.map List.length).sum := by
    cases builder.spare <;> rfl
  have opened : awaiting (builder.start kind).opened = (builder.spare.headD []).length +
      awaiting (addChild (.node builder.arena.nodes.length) builder.opened) := rfl
  simp only [listed, opened]
  simp only [start]
  omega

/-- Closing a node moves its children. -/
theorem listed_leave
    {builder : ArenaBuilder}
    {inner : OpenNode}
    {outer : List OpenNode}
    (opened : builder.opened = inner :: outer) :
    (builder.leave inner outer).listed = builder.listed := by
  simp only [listed, leave, opened, awaiting, List.length_append, List.map_cons, List.sum_cons,
    List.length_nil]
  omega

namespace PaidBy

variable {builder later : ArenaBuilder} {count : Nat}

theorem new (text : Text) : PaidBy (.new text) 0 :=
  ⟨Nat.le_refl _, Nat.le_refl _⟩

theorem perform
    (paid : builder.PaidBy count)
    {call : Call}
    (performed : builder.perform call = .ok later) :
    later.PaidBy (count + 1) := by
  obtain ⟨nodes, listed⟩ := paid
  cases call with
  | start kind =>
    cases performed
    refine ⟨?_, (listed_start_le builder kind).trans (Nat.succ_le_succ listed)⟩
    simp only [ArenaBuilder.start, List.length_append, List.length_singleton]
    omega
  | token leading kind length trailing =>
    obtain ⟨inner, outer, last, opened, rfl⟩ := Surveyed.token_eq_ok performed
    refine ⟨?_, ?_⟩
    · simp only [put, Surveyed.length_fill]
      omega
    · have inside := awaiting_addChild_le
        (.token (builder.arena.tokens.length + leading.length)) builder.opened
      simp only [ArenaBuilder.listed] at listed
      simp only [ArenaBuilder.listed, put]
      omega
  | finish =>
    rw [ArenaBuilder.perform, close] at performed
    split at performed
    · cases performed
    · next inner outer opened =>
      cases performed
      refine ⟨?_, ?_⟩
      · simp only [leave, List.length_modify]
        omega
      · rw [listed_leave opened]
        exact Nat.le_succ_of_le listed

theorem performAll
    (paid : builder.PaidBy count)
    {calls : List Call}
    (performed : calls.foldlM ArenaBuilder.perform builder = .ok later) :
    later.PaidBy (count + calls.length) := by
  induction calls generalizing builder count with
  | nil =>
    cases performed
    exact paid
  | cons call rest ih =>
    rw [List.foldlM_cons] at performed
    obtain ⟨between, first, others⟩ := exists_of_bind_eq_ok performed
    rw [List.length_cons, Nat.add_comm rest.length, ← Nat.add_assoc]
    exact ih (paid.perform first) others

end PaidBy

/-- The tokens stored so far are those that calls pushed, behind the one that comes first. -/
theorem length_tokens
    {text : Text}
    {builder : ArenaBuilder}
    {calls : List Call}
    (performed : calls.foldlM ArenaBuilder.perform (.new text) = .ok builder) :
    builder.arena.tokens.length = (calls.flatMap Call.kinds).length + 1 := by
  obtain ⟨stored, tokens, _, kinds⟩ := ((Surveyed.new text).foldlM performed).tokens
  rw [tokens, List.length_cons, ← List.nil_append calls, ← kinds, List.length_map]

theorem stopOf_eq
    (offset : Nat)
    (pieces : List Measured) :
    stopOf offset pieces = offset + Measured.total pieces := by
  induction pieces generalizing offset with
  | nil => rfl
  | cons piece rest ih =>
    have both : Measured.total (piece :: rest) = piece.length + Measured.total rest := rfl
    rw [both, ← Nat.add_assoc]
    exact ih (offset + piece.length)

/-- The next call goes on behind the bytes that it takes. -/
theorem offset_perform
    {builder later : ArenaBuilder}
    {call : Call}
    (performed : builder.perform call = .ok later) :
    later.offset = builder.offset + call.lengths.sum := by
  cases call with
  | start kind =>
    cases performed
    rfl
  | token leading kind length trailing =>
    obtain ⟨inner, outer, last, opened, rfl⟩ := Surveyed.token_eq_ok performed
    simp [put, Place.read, place, Call.lengths, Measured.total, Nat.add_assoc]
  | finish =>
    rw [perform, close] at performed
    split at performed
    · cases performed
    · cases performed
      rfl

/-- Calls go on behind the bytes that they take. -/
theorem offset_performAll
    {builder later : ArenaBuilder}
    {calls : List Call}
    (performed : calls.foldlM perform builder = .ok later) :
    later.offset = builder.offset + Call.bytes calls := by
  induction calls generalizing builder with
  | nil =>
    cases performed
    rfl
  | cons call rest ih =>
    rw [List.foldlM_cons] at performed
    obtain ⟨between, first, others⟩ := exists_of_bind_eq_ok performed
    rw [ih others, offset_perform first, Call.bytes, Call.bytes, List.flatMap_cons, List.sum_append,
      Nat.add_assoc]

/-- What is made narrow in performing the next call is bounded by the calls and what they push. -/
theorem le_of_mem_narrowed
    {text : Text}
    {builder : ArenaBuilder}
    {done : List Call}
    (performed : done.foldlM ArenaBuilder.perform (.new text) = .ok builder)
    {call : Call}
    {number : Nat}
    (member : number ∈ builder.narrowed call) :
    number ≤ done.length ∨ number ≤ ((done ++ [call]).flatMap Call.kinds).length + 1 ∨
      number ≤ Call.bytes (done ++ [call]) := by
  obtain ⟨nodes, listed⟩ := (PaidBy.new text).performAll performed
  rw [Nat.zero_add] at nodes listed
  have tokens := length_tokens performed
  cases call with
  | start kind =>
    rw [narrowed, List.mem_singleton] at member
    rw [member]
    exact .inl nodes
  | token leading kind length trailing =>
    have pushed : (Call.token leading kind length trailing).kinds.length =
        leading.length + 1 + trailing.length := by
      simp only [Call.kinds, List.length_append, List.length_map, List.length_cons]
      omega
    have taken : Call.bytes (done ++ [.token leading kind length trailing]) =
        stopOf (stopOf builder.offset leading + length) trailing := by
      rw [stopOf_eq, stopOf_eq, offset_performAll performed]
      simp [Call.bytes, Call.lengths, Measured.total, new, Nat.add_assoc]
    right
    rw [List.flatMap_append, List.flatMap_singleton, List.length_append, pushed, taken]
    simp only [narrowed, placesOf, List.mem_cons, List.mem_range'_1] at member
    omega
  | finish =>
    simp only [narrowed] at member
    split at member
    · cases member
    · next inner outer opened =>
      rw [ArenaBuilder.listed, opened, awaiting, List.map_cons, List.sum_cons] at listed
      simp only [List.mem_cons, List.not_mem_nil, or_false] at member
      rw [List.flatMap_append, List.length_append]
      omega

end ArenaBuilder

/-! ## Steps with places of 32 bits -/

namespace EventLog

/-- Where every number fits, an action is logged as with numbers of any size. -/
theorem performNarrowly_eq
    {log : EventLog}
    {action : Action}
    (fits : ∀ number ∈ log.narrowed action, IsNarrow number) :
    log.performNarrowly action = log.perform action := by
  cases action with
  | start =>
    have place := narrow_eq (fits _ (List.mem_singleton_self _))
    rw [performNarrowly, startNarrowly, place]
    rfl
  | advance =>
    have place := narrow_eq (fits _ (List.mem_singleton_self _))
    rw [performNarrowly, place]
    rfl
  | precede =>
    have place := narrow_eq (fits _ (List.mem_singleton_self _))
    cases completed : log.completed? with
    | none => simp only [performNarrowly, perform, completed]
    | some index =>
      cases found : log.events[index]? with
      | none => simp only [performNarrowly, perform, completed, found]
      | some event =>
        cases event with
        | start kind parent? =>
          simp only [performNarrowly, perform, startNarrowly, EventLog.start, completed, found,
            List.length_set, place]
        | token position => simp only [performNarrowly, perform, completed, found]
        | finish => simp only [performNarrowly, perform, completed, found]
  | complete kind => rfl
  | abandon => rfl

theorem StaysNarrow.front
    {done rest : List Action}
    (stays : StaysNarrow (done ++ rest)) :
    StaysNarrow done := by
  intro before action behind split
  refine stays before action (behind ++ rest) ?_
  rw [split, List.append_assoc, List.cons_append]

/-- Where every number fits all along, actions are logged as with numbers of any size. -/
theorem StaysNarrow.foldlM_eq
    {actions : List Action}
    (stays : StaysNarrow actions) :
    actions.foldlM performNarrowly new = new.performAll actions := by
  induction actions using List.reverseRecOn with
  | nil => rfl
  | append_singleton done action ih =>
    obtain ⟨log, performed, fits⟩ := stays done action [] rfl
    rw [performAll_append, List.foldlM_append, ih stays.front, performed]
    simp only [performAll, List.foldlM_cons, List.foldlM_nil, bind_pure]
    exact performNarrowly_eq fits

end EventLog

namespace ArenaBuilder

/-- What comes behind an outcome matters only where this is accepted. -/
theorem bind_congr_of_ok
    {First Second : Type}
    {first : Except ArenaFault First}
    {next other : First → Except ArenaFault Second}
    (same : ∀ value, first = .ok value → next value = other value) :
    first >>= next = first >>= other := by
  cases first with
  | error fault => rfl
  | ok value => exact same value rfl

theorem leaveNarrowly_eq
    {builder : ArenaBuilder}
    {inner : OpenNode}
    {outer : List OpenNode}
    (opened : builder.opened = inner :: outer)
    (fits : ∀ number ∈ builder.narrowed .finish, IsNarrow number) :
    builder.leaveNarrowly inner outer = builder.leave inner outer := by
  simp only [narrowed, opened, List.forall_mem_cons] at fits
  obtain ⟨children, own, tokens, _⟩ := fits
  rw [leaveNarrowly, narrow_eq children, narrow_eq own, narrow_eq tokens]
  rfl

theorem pushNarrowly_eq
    {builder : ArenaBuilder}
    {length : Nat}
    (fits : IsNarrow (builder.offset + length))
    (kind : Kind)
    (parent leading trailing : Nat) :
    builder.pushNarrowly kind length parent leading trailing =
      builder.push kind length parent leading trailing := by
  rw [pushNarrowly, narrow_eq fits]
  rfl

/-- Where the last offset fits, those before it fit as well. -/
theorem pushTriviaNarrowly_eq
    {builder : ArenaBuilder}
    {pieces : List Measured}
    (fits : IsNarrow (builder.offset + Measured.total pieces))
    (parent : Nat) :
    pushTriviaNarrowly parent builder pieces = pushTrivia parent builder pieces := by
  induction pieces generalizing builder with
  | nil => rfl
  | cons piece rest ih =>
    have both : Measured.total (piece :: rest) = piece.length + Measured.total rest := rfl
    unfold IsNarrow at fits
    rw [both] at fits
    rw [pushTriviaNarrowly, pushTrivia, List.foldlM_cons, List.foldlM_cons,
      pushNarrowly_eq (by unfold IsNarrow; omega)]
    refine bind_congr_of_ok fun later pushed => ih ?_
    have reached : later.offset = builder.offset + piece.length := by
      rw [Surveyed.push_eq_ok pushed]
      rfl
    unfold IsNarrow
    omega

theorem tokenNarrowly_eq
    {builder : ArenaBuilder}
    {leading trailing : List Measured}
    {kind : Kind}
    {length : Nat}
    (fits : ∀ number ∈ builder.narrowed (.token leading kind length trailing), IsNarrow number) :
    builder.tokenNarrowly leading kind length trailing =
      builder.token leading kind length trailing := by
  simp only [narrowed, placesOf, List.forall_mem_cons, List.mem_range'_1] at fits
  obtain ⟨bytes, before, behind, places⟩ := fits
  rw [stopOf_eq, stopOf_eq, IsNarrow] at bytes
  rw [tokenNarrowly, token, narrow_eq before, narrow_eq behind]
  cases builder.opened with
  | nil => rfl
  | cons inner outer =>
    dsimp only
    rw [pushTriviaNarrowly_eq (by unfold IsNarrow; omega)]
    refine bind_congr_of_ok fun first front => ?_
    have begun : first.offset = builder.offset + Measured.total leading := by
      rw [Surveyed.pushTrivia_eq_ok front]
      rfl
    rw [pushNarrowly_eq (by unfold IsNarrow; omega)]
    refine bind_congr_of_ok fun second middle => ?_
    have passed : second.offset = first.offset + length := by
      rw [Surveyed.push_eq_ok middle]
      rfl
    rw [pushTriviaNarrowly_eq (by unfold IsNarrow; omega)]
    refine bind_congr_of_ok fun third back => ?_
    have index : first.arena.tokens.length = builder.arena.tokens.length + leading.length := by
      simp [Surveyed.pushTrivia_eq_ok front, store]
    have last : third.arena.tokens.length = first.arena.tokens.length + (trailing.length + 1) := by
      simp [Surveyed.pushTrivia_eq_ok back, Surveyed.push_eq_ok middle, store]
    have isFirst := narrow_eq (places builder.arena.tokens.length (by omega))
    have isIndex := narrow_eq (places first.arena.tokens.length (by omega))
    have isLast := narrow_eq (places third.arena.tokens.length (by omega))
    simp only [isFirst, isIndex, isLast]

/-- Where every number fits, a call is performed as with numbers of any size. -/
theorem performNarrowly_eq
    {builder : ArenaBuilder}
    {call : Call}
    (fits : ∀ number ∈ builder.narrowed call, IsNarrow number) :
    builder.performNarrowly call = (builder.perform call).toOption := by
  cases call with
  | start kind =>
    have few : builder.arena.nodes.length < UInt32.size := fits _ (List.mem_singleton_self _)
    rw [performNarrowly, if_pos few]
    rfl
  | token leading kind length trailing =>
    rw [performNarrowly, tokenNarrowly_eq fits]
    rfl
  | finish =>
    cases opened : builder.opened with
    | nil => simp only [performNarrowly, perform, close, opened, Except.toOption]
    | cons inner outer =>
      simp only [performNarrowly, perform, close, opened, Except.toOption,
        leaveNarrowly_eq opened fits]

/-- Where every number fits in front of a call, calls are performed as with numbers of any size. -/
theorem foldlM_performNarrowly_eq
    {text : Text}
    {calls : List Call}
    (fits : ∀ done call rest builder, calls = done ++ call :: rest →
      done.foldlM perform (new text) = .ok builder →
        ∀ number ∈ builder.narrowed call, IsNarrow number) :
    calls.foldlM performNarrowly (new text) = (calls.foldlM perform (new text)).toOption := by
  induction calls using List.reverseRecOn with
  | nil => rfl
  | append_singleton done call ih =>
    have earlier := ih fun before other rest builder split =>
      fits before other (rest ++ [call]) builder (by rw [split, List.append_assoc]; rfl)
    rw [List.foldlM_append, List.foldlM_append, earlier]
    cases performed : done.foldlM perform (new text) with
    | error fault => rfl
    | ok builder =>
      simp only [List.foldlM_cons, List.foldlM_nil, bind_pure]
      exact performNarrowly_eq (fits done call [] builder rfl performed)

theorem StaysNarrow.foldlM_eq
    {text : Text}
    {calls : List Call}
    (stays : StaysNarrow text calls) :
    calls.foldlM performNarrowly (new text) = (calls.foldlM perform (new text)).toOption := by
  refine foldlM_performNarrowly_eq fun done call rest builder split performed => ?_
  obtain ⟨other, same, fits⟩ := stays done call rest split
  cases performed.symm.trans same
  exact fits

end ArenaBuilder

/--
A list of calls builds the same arena with places of 32 bits, and it is accepted in the same cases,
if the calls, the tokens that they store and the bytes that they take can be counted in 32 bits.
-/
theorem Arena.buildNarrowly_eq
    {text : Text}
    {calls : List Call}
    (few : IsNarrow calls.length)
    (pushed : IsNarrow ((calls.flatMap Call.kinds).length + 1))
    (short : IsNarrow (Call.bytes calls)) :
    Arena.buildNarrowly text calls = (Arena.build text calls).toOption := by
  unfold IsNarrow at few pushed short
  have same : calls.foldlM ArenaBuilder.performNarrowly (.new text) =
      (calls.foldlM ArenaBuilder.perform (.new text)).toOption := by
    refine ArenaBuilder.foldlM_performNarrowly_eq
      fun done call rest builder split performed number member => ?_
    have bounded := ArenaBuilder.le_of_mem_narrowed performed member
    rw [List.append_cons] at split
    rw [split, Call.bytes, List.flatMap_append, List.sum_append, ← Call.bytes] at short
    rw [split, List.flatMap_append, List.length_append] at pushed
    rw [split, List.length_append, List.length_append] at few
    unfold IsNarrow
    omega
  rw [buildNarrowly, build, same]
  cases calls.foldlM ArenaBuilder.perform (.new text) with
  | error fault => rfl
  | ok builder => rfl

end LuaFold
