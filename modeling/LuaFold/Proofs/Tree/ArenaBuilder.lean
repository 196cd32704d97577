import LuaFold.Proofs.Tree.ArenaNodes
import LuaFold.Proofs.Tree.ArenaTokens

/-!
# Building into an arena

A builder of an arena and a builder of elements that are given the same calls accept the same
ones and find the same faults.  All the while what the one has finished is stored in the arena
of the other: the roots under the numbers of the nodes in no other node, and the children of an
open node in its buffer, where the node that is open inside it has its number already.
-/

namespace LuaFold

namespace ArenaBuilder

/--
Open nodes of both builders correspond: each has its kind and the children that it has so far,
and behind them perhaps the number of a node that is open inside it.
-/
def Frames (view : ArenaView) : Option Nat → List OpenNode → List (Kind × List Element) → Prop
  | _, [], [] => True
  | pending?, inner :: outer, (kind, elements) :: others =>
      view.kind? inner.index = some kind ∧
        (∃ front, inner.children = front ++ (pending?.map Child.node).toList ∧
          Element.AllStoredAs view elements.reverse front) ∧
        (∀ child, Child.node child ∈ inner.children → inner.index < child) ∧
        Frames view (some inner.index) outer others
  | _, _, _ => False

namespace Frames

variable {view : ArenaView}

theorem grows
    {later : ArenaView}
    (grows : view.Grows later)
    {pending? : Option Nat}
    {opened : List OpenNode}
    {others : List (Kind × List Element)}
    (frames : Frames view pending? opened others) :
    Frames later pending? opened others := by
  induction opened generalizing pending? others with
  | nil =>
      cases others with
      | nil => trivial
      | cons frame others => exact frames.elim
  | cons inner outer ih =>
      cases others with
      | nil => exact frames.elim
      | cons frame others =>
          obtain ⟨kind, ⟨front, children, stored⟩, forward, around⟩ := frames
          exact ⟨grows.kind? _ _ kind, ⟨front, children, stored.grows grows⟩, forward, ih around⟩

/-- A node is opened inside the innermost open one. -/
theorem enter
    {opened : List OpenNode}
    {others : List (Kind × List Element)}
    {index : Nat}
    (frames : Frames view none opened others)
    (behind : ∀ inner ∈ opened.head?, inner.index < index) :
    Frames view (some index) (addChild (.node index) opened) others := by
  cases opened with
  | nil =>
      cases others with
      | nil => trivial
      | cons frame others => exact frames.elim
  | cons inner outer =>
      cases others with
      | nil => exact frames.elim
      | cons frame others =>
          obtain ⟨kind, ⟨front, children, stored⟩, forward, around⟩ := frames
          refine ⟨kind, ⟨front, by simpa using children, stored⟩, fun child member => ?_, around⟩
          rcases List.mem_append.mp member with early | last
          · exact forward child early
          · cases List.mem_singleton.mp last
            exact behind inner rfl

/-- The node that was open inside the innermost one is a finished child of it. -/
theorem leave
    {inner : OpenNode}
    {outer : List OpenNode}
    {kind : Kind}
    {elements : List Element}
    {others : List (Kind × List Element)}
    {index : Nat}
    {element : Element}
    (frames : Frames view (some index) (inner :: outer) ((kind, elements) :: others))
    (stored : element.StoredAs view (.node index)) :
    Frames view none (inner :: outer) ((kind, element :: elements) :: others) := by
  obtain ⟨isKind, ⟨front, children, inside⟩, forward, around⟩ := frames
  refine ⟨isKind, ⟨front ++ [.node index], by simpa using children, ?_⟩, forward, around⟩
  rw [List.reverse_cons]
  exact inside.append ⟨stored, trivial⟩

/-- A token is added to the innermost open node. -/
theorem add
    {inner : OpenNode}
    {outer : List OpenNode}
    {kind : Kind}
    {elements : List Element}
    {others : List (Kind × List Element)}
    {token : Token}
    {index : Nat}
    (frames : Frames view none (inner :: outer) ((kind, elements) :: others))
    (stored : view.HasToken token index) :
    Frames view none (addChild (.token index) (inner :: outer))
      ((kind, .token token :: elements) :: others) := by
  obtain ⟨isKind, ⟨front, children, inside⟩, forward, around⟩ := frames
  refine ⟨isKind, ⟨front ++ [.token index], by simpa using children, ?_⟩, ?_, around⟩
  · rw [List.reverse_cons]
    exact inside.append ⟨stored, trivial⟩
  · intro child member
    rcases List.mem_append.mp member with early | last
    · exact forward child early
    · cases List.mem_singleton.mp last

theorem isEmpty_eq
    {pending? : Option Nat}
    {opened : List OpenNode}
    {others : List (Kind × List Element)}
    (frames : Frames view pending? opened others) :
    opened.isEmpty = others.isEmpty := by
  cases opened <;> cases others
  · rfl
  · exact frames.elim
  · exact frames.elim
  · rfl

end Frames

/-- What a builder of elements has finished is stored by a builder of an arena. -/
structure Simulates (first : ArenaBuilder) (second : Builder) : Prop where
  aligned : Aligned first second
  numbered : first.Numbered
  frames : Frames first.view none first.opened second.opened
  roots : ∃ closed : List Nat,
    rootIndices first.parents = closed ++ first.numbers.getLast?.toList ∧
      Element.AllStoredAs first.view second.roots.reverse (closed.map Child.node)

namespace Simulates

theorem new (text : Text) : Simulates (.new text) (.new text) :=
  ⟨⟨⟨[], rfl, rfl⟩, rfl, [], _, rfl, rfl⟩, .new text, trivial, [], rfl, trivial⟩

variable {first : ArenaBuilder} {second : Builder}

/-- Both builders have the same number of open nodes, so they see the same case. -/
theorem opened_cases (simulates : Simulates first second) :
    (first.opened = [] ∧ second.opened = []) ∨
      ∃ inner outer kind elements others, first.opened = inner :: outer ∧
        second.opened = (kind, elements) :: others := by
  have same := simulates.frames.isEmpty_eq
  cases opened : first.opened with
  | nil =>
      rw [opened] at same
      exact .inl ⟨rfl, List.isEmpty_iff.mp same.symm⟩
  | cons inner outer =>
      cases also : second.opened with
      | nil => simp [opened, also] at same
      | cons frame others => exact .inr ⟨inner, outer, frame.1, frame.2, others, rfl, rfl⟩

/-- Both builders open a node. -/
theorem start
    (simulates : Simulates first second)
    (kind : Kind) :
    Agree Simulates (first.perform (.start kind)) (second.perform (.start kind)) := by
  obtain ⟨aligned, numbered, frames, closed, indices, stored⟩ := simulates
  have grows := grows_start first kind
  have buffer : first.spare.headD [] = [] := by
    cases spare : first.spare with
    | nil => rfl
    | cons buffer others => exact numbered.spare buffer (by simp [spare])
  refine .accepted ⟨⟨aligned.whole, aligned.pushed, aligned.last⟩, numbered.start kind,
    ⟨?_, ⟨[], buffer, trivial⟩, ?_, (frames.grows grows).enter ?_⟩, closed, ?_, stored.grows grows⟩
  · simp [ArenaBuilder.view, ArenaBuilder.start]
  · show ∀ child, Child.node child ∈ first.spare.headD [] → first.arena.nodes.length < child
    rw [buffer]
    simp
  · intro inner isHead
    have bound := numbered.bounded inner.index
      (List.mem_map_of_mem (List.mem_of_mem_head? isHead))
    rwa [parents, List.length_map] at bound
  · rw [parents_start, numbers_start, rootIndices_append, indices]
    cases first.numbers with
    | nil => simp
    | cons number numbers => simp

/-- Both builders close the innermost node, which is then stored as a child or as a root. -/
theorem leave
    (simulates : Simulates first second)
    {inner : OpenNode}
    {outer : List OpenNode}
    {kind : Kind}
    {elements : List Element}
    {others : List (Kind × List Element)}
    (opened : first.opened = inner :: outer)
    (also : second.opened = (kind, elements) :: others) :
    Simulates (first.leave inner outer)
      (Builder.add ⟨second.rest, second.pushed, others, second.roots⟩
        (.branch kind elements.reverse)) := by
  obtain ⟨aligned, numbered, frames, closed, indices, finished⟩ := simulates
  rw [opened, also] at frames
  obtain ⟨isKind, ⟨front, children, inside⟩, forward, around⟩ := frames
  have grows := grows_leave opened
  have stored : Element.StoredAs (first.leave inner outer).view
      (.branch kind elements.reverse) (.node inner.index) := by
    refine ⟨inner.children, hasNode_leave opened numbered isKind forward, ?_⟩
    have same : inner.children = front := by simpa using children
    rw [same]
    exact inside.grows grows
  replace around := around.grows grows
  replace finished := finished.grows grows
  rw [← parents_leave first inner outer, numbers_leave opened] at indices
  cases outer with
  | nil =>
      cases others with
      | cons frame others => exact around.elim
      | nil =>
          refine ⟨⟨aligned.whole, aligned.pushed, aligned.last⟩, numbered.leave opened, trivial,
            closed ++ [inner.index], ?_, ?_⟩
          · simpa [numbers, ArenaBuilder.leave] using indices
          · have last : Element.AllStoredAs (first.leave inner []).view
                [.branch kind elements.reverse] [.node inner.index] := ⟨stored, trivial⟩
            simpa [Builder.add] using finished.append last
  | cons next outer =>
      cases others with
      | nil => exact around.elim
      | cons frame others =>
          exact ⟨⟨aligned.whole, aligned.pushed, aligned.last⟩, numbered.leave opened,
            around.leave stored, closed, indices, finished⟩

/-- Both builders close a node, or have none to close. -/
theorem close (simulates : Simulates first second) :
    Agree Simulates (first.perform .finish) (second.perform .finish) := by
  rw [perform, ArenaBuilder.close, Builder.perform]
  rcases simulates.opened_cases with ⟨opened, also⟩ | ⟨_, _, _, _, _, opened, also⟩
  · rw [opened, also]
    exact .refused _
  · have left := simulates.leave opened also
    rw [opened, also]
    exact .accepted left

/-- A token that is cut off is added to the innermost open node. -/
theorem put
    (simulates : Simulates first second)
    {inner : OpenNode}
    {outer : List OpenNode}
    (opened : first.opened = inner :: outer)
    {later : Builder}
    (token : Token)
    (reach : Reach)
    (sameOpened : later.opened = second.opened)
    (sameRoots : later.roots = second.roots)
    (aligned : Aligned (first.store (StoredToken.ofToken inner.index first.offset token)
      (first.offset + token.width)) later) :
    Simulates (first.put (StoredToken.ofToken inner.index first.offset token)
        (first.offset + token.width) reach (first.arena.tokens.length + token.leading.length))
      (later.add (.token token)) := by
  obtain ⟨⟨_, _, earlier, last, tokens, stop⟩, numbered, frames, closed, indices, finished⟩ :=
    simulates
  let index := first.arena.tokens.length + token.leading.length
  let stored := StoredToken.ofToken inner.index first.offset token
  have grows := grows_put first stored (first.offset + token.width) reach index
  have has : (first.put stored (first.offset + token.width) reach index).view.HasToken token
      index := by
    refine ⟨earlier, last, inner.index, [], ?_, by simp [index, tokens]⟩
    simp [ArenaBuilder.put, view, stored, tokens, stop]
  replace frames := frames.grows grows
  rw [← parents_put first stored (first.offset + token.width) reach index,
    ← numbers_put first stored (first.offset + token.width) reach index] at indices
  rw [opened] at frames
  cases also : second.opened with
  | nil => simp [also, Frames] at frames
  | cons frame others =>
      obtain ⟨kind, elements⟩ := frame
      rw [also] at frames sameOpened
      have added : later.add (.token token) = ⟨later.rest, later.pushed,
          (kind, .token token :: elements) :: others, later.roots⟩ := by
        simp [Builder.add, sameOpened]
      rw [added]
      refine ⟨⟨aligned.whole, aligned.pushed, aligned.last⟩,
        numbered.put stored (first.offset + token.width) reach index, ?_, closed, indices, ?_⟩
      · have here := frames.add has
        rwa [← opened] at here
      · rw [sameRoots]
        exact finished.grows grows

/-- Both builders add a token, or refuse it. -/
theorem token
    (simulates : Simulates first second)
    (leading : List Measured)
    (kind : Kind)
    (length : Nat)
    (trailing : List Measured) :
    Agree Simulates (first.perform (.token leading kind length trailing))
      (second.perform (.token leading kind length trailing)) := by
  rw [Builder.perform_token, perform, ArenaBuilder.token]
  rcases simulates.opened_cases with ⟨opened, also⟩ | ⟨inner, outer, _, _, _, opened, also⟩
  · rw [opened, also]
    exact .refused _
  · rw [opened, if_neg (by simp [also])]
    refine (simulates.aligned.pushTrivia inner.index leading).bind ?_
    rintro before ⟨front, rest⟩ ⟨stored, ahead, firstOpened, firstRoots, aligned⟩
    refine (aligned.push kind length inner.index leading.length trailing.length).bind ?_
    rintro inside ⟨text, rest⟩ ⟨between, counted, secondOpened, secondRoots, aligned⟩
    refine (aligned.pushTrivia inner.index trailing).bind ?_
    rintro behind ⟨back, rest⟩ ⟨last, follow, thirdOpened, thirdRoots, aligned⟩
    let token : Token := ⟨front, kind, text, back, none⟩
    have whole : behind = first.store (StoredToken.ofToken inner.index first.offset token)
        (first.offset + token.width) := by
      rw [last, between, stored]
      simp [store, StoredToken.ofToken, token, Token.span, Token.width, Token.innerWidth,
        ahead, follow, counted, Nat.add_assoc]
    rw [whole] at aligned
    have place : before.arena.tokens.length =
        first.arena.tokens.length + token.leading.length := by
      simp [stored, store, token]
    rw [place, ← opened, whole]
    exact .accepted (simulates.put opened token _
      (thirdOpened.trans (secondOpened.trans firstOpened))
      (thirdRoots.trans (secondRoots.trans firstRoots)) aligned)

end Simulates

end ArenaBuilder

end LuaFold
