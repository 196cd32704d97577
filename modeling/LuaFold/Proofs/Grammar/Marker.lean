import LuaFold.Grammar.Marker
import LuaFold.Proofs.Tree.Rebuild

/-!
# Replay of a log with markers

Steps that keep to the discipline are never refused by the log, and the replay of the log makes
the calls that build what the actions of these steps assemble.

The log of such steps falls into segments, one for every open node and one for what stands
outside of all of them.  Between two segments stands the start of the node that the second one
belongs to, and before this start the events of the node that it was started around, if any.  A
segment replays to the calls of its elements; its last node can still be linked to a node around
it, even if the starts of given up nodes stand behind it.
-/

namespace LuaFold

namespace Event

/-- A start that is blank does not come between a node and one around it. -/
theorem Links.blank
    {tokens : List Token}
    {before after : List Event}
    {kind : Kind}
    {calls : List Call}
    (links : Links tokens before kind after calls) :
    Links tokens before kind (after ++ [.tombstone]) calls := by
  intro parent? rest blanked kinds reaches
  have crossed :
      Reaches after.length parent? (.tombstone :: rest) kinds (.tombstone :: blanked) := by
    cases reaches with
    | nowhere => exact .nowhere _
    | @outer distance _ _ _ found =>
        have further : climb (distance + 1) (.tombstone :: rest) =
            some (kinds, .tombstone :: blanked) := by
          simp [climb, found]
        have place : (after ++ [Event.tombstone]).length + distance + 1 =
            after.length + (distance + 1) + 1 := by simp; omega
        rw [place]
        exact .outer further
  have skipped : replay tokens (.tombstone :: blanked) = _ := Replays.tombstone blanked
  have linked := links crossed
  rw [skipped] at linked
  simpa using linked

end Event

namespace Marker

open Event (Replays Links)

/-! ## Segments of a log -/

/-- Events from a place on that build elements, newest first, with the markers of the nodes among
them. -/
inductive Segment
    (tokens : List Token)
    (places : List Nat)
    (place : Nat) :
    List Event → List (Option Nat) → List Element → Prop where
  | nil : Segment tokens places place [] [] []
  | token
      {events : List Event}
      {marks : List (Option Nat)}
      {elements : List Element}
      (before : Segment tokens places place events marks elements)
      {index : Nat}
      {inner : Token}
      (found : tokens[index]? = some inner) :
      Segment tokens places place (events ++ [.token index]) (none :: marks)
        (.token inner :: elements)
  | node
      {events : List Event}
      {marks : List (Option Nat)}
      {elements : List Element}
      (before : Segment tokens places place events marks elements)
      {front after : List Event}
      {kind : Kind}
      {element : Element}
      (links : Links tokens front kind after element.calls)
      {marker : Nat}
      (placed : places[marker]? = some (place + events.length + front.length)) :
      Segment tokens places place (events ++ (front ++ .start kind none :: after))
        (some marker :: marks) (element :: elements)
  | blank
      {events : List Event}
      {marks : List (Option Nat)}
      {elements : List Element}
      (before : Segment tokens places place events marks elements) :
      Segment tokens places place (events ++ [.tombstone]) marks elements

namespace Segment

variable {tokens : List Token} {places : List Nat} {place : Nat} {events : List Event}
  {marks : List (Option Nat)} {elements : List Element}

/-- A segment replays to the calls of its elements. -/
theorem replays (segment : Segment tokens places place events marks elements) :
    Replays tokens events (elements.reverse.flatMap Element.calls) := by
  induction segment with
  | nil => exact .nil
  | @token events marks elements before index inner found ih =>
      have token : Replays tokens [.token index] (Element.token inner).calls := by
        intro rest
        simp [Event.replay, found]
      simpa using ih.append token
  | node before links placed ih => simpa using ih.append links.replays
  | blank before ih => simpa using ih.append Replays.tombstone

/-- Markers that are handed out later know other places. -/
theorem mono
    (segment : Segment tokens places place events marks elements)
    (later : List Nat) :
    Segment tokens (places ++ later) place events marks elements := by
  induction segment with
  | nil => exact .nil
  | token before found ih => exact ih.token found
  | @node events marks elements before front after kind element links marker placed ih =>
      refine ih.node links ?_
      obtain ⟨inside, _⟩ := List.getElem?_eq_some_iff.mp placed
      rw [List.getElem?_append_left inside, placed]
  | blank before ih => exact ih.blank

theorem append
    {more : List Event}
    {others : List (Option Nat)}
    {behind : List Element}
    (segment : Segment tokens places place events marks elements)
    (next : Segment tokens places (place + events.length) more others behind) :
    Segment tokens places place (events ++ more) (others ++ marks) (behind ++ elements) := by
  induction next with
  | nil => simpa using segment
  | token before found ih =>
      rw [← List.append_assoc]
      exact ih.token found
  | node before links placed ih =>
      rw [← List.append_assoc]
      refine ih.node links ?_
      rw [placed, List.length_append]
      congr 1
      omega
  | blank before ih =>
      rw [← List.append_assoc]
      exact ih.blank

/-- Nothing is built without an event. -/
theorem eq_nil (segment : Segment tokens places place [] marks elements) :
    marks = [] ∧ elements = [] := by
  generalize same : ([] : List Event) = none at segment
  cases segment with
  | nil => exact ⟨rfl, rfl⟩
  | token before found => simp at same
  | node before links placed => simp at same
  | blank before => simp at same

/-- A node that is the last element of a segment can be linked to a node around it. -/
theorem last
    {marker : Nat}
    (segment : Segment tokens places place events (some marker :: marks) elements) :
    ∃ first front kind after element others,
      events = first ++ (front ++ .start kind none :: after) ∧
      elements = element :: others ∧
      Segment tokens places place first marks others ∧
      Links tokens front kind after element.calls ∧
      places[marker]? = some (place + first.length + front.length) := by
  generalize same : some marker :: marks = all at segment
  induction segment with
  | nil => cases same
  | token before found ih => cases same
  | node before links placed ih =>
      cases same
      exact ⟨_, _, _, _, _, _, rfl, rfl, before, links, placed⟩
  | blank before ih =>
      obtain ⟨first, front, kind, after, element, others, rfl, rfl, earlier, links, placed⟩ :=
        ih same
      exact ⟨first, front, kind, after ++ [.tombstone], element, others, by simp, rfl, earlier,
        links.blank, placed⟩

end Segment

/-! ## Open nodes -/

/-- The events of the element that an open node was started around, if any. -/
inductive Wraps (tokens : List Token) : Bool → List Event → List Element → Prop where
  | nothing : Wraps tokens false [] []
  | node
      {front after : List Event}
      {kind : Kind}
      {element : Element}
      (links : Links tokens front kind after element.calls) :
      Wraps tokens true (front ++ .start kind (some (after.length + 1)) :: after) [element]

/-- A completed node is linked to whatever is started around it in its turn. -/
theorem Wraps.links
    {tokens : List Token}
    {isAround : Bool}
    {wrapped inside : List Event}
    {held elements : List Element}
    (wraps : Wraps tokens isAround wrapped held)
    {kind : Kind}
    (proper : kind ≠ .tombstone)
    (replays : Replays tokens inside (elements.reverse.flatMap Element.calls)) :
    Links tokens wrapped kind (inside ++ [.finish])
      (Element.branch kind (elements ++ held).reverse).calls := by
  rw [Element.branch, Element.calls_node]
  cases wraps with
  | nothing =>
      rw [List.append_nil]
      exact Links.single proper replays
  | node links =>
      rw [List.reverse_append, List.reverse_singleton, List.singleton_append, List.flatMap_cons]
      exact links.around proper replays

/-- Elements that no marker is known for any more. -/
def unmarked (held : List Element) : List (Option Nat) :=
  held.map fun _ => none

/--
The events before the innermost segment: for every open node the segment before it, the node
that it was started around, and its own start.
-/
inductive Framed
    (tokens : List Token)
    (places : List Nat) :
    List Opened → List (List Element) → List Event → List Element → Prop where
  | nil : Framed tokens places [] [] [] []
  | node
      {opened : List Opened}
      {frames : List (List Element)}
      {events before wrapped : List Event}
      {held elements inner : List Element}
      {marks : List (Option Nat)}
      {isAround : Bool}
      {marker : Nat}
      (outer : Framed tokens places opened frames events held)
      (segment : Segment tokens places events.length before marks elements)
      (wraps : Wraps tokens isAround wrapped inner)
      (placed : places[marker]? = some (events ++ before ++ wrapped).length) :
      Framed tokens places (⟨marker, isAround, marks ++ unmarked held⟩ :: opened)
        ((elements ++ held) :: frames) (events ++ before ++ wrapped ++ [.tombstone]) inner

theorem Framed.mono
    {tokens : List Token}
    {places : List Nat}
    {opened : List Opened}
    {frames : List (List Element)}
    {events : List Event}
    {held : List Element}
    (framed : Framed tokens places opened frames events held)
    (later : List Nat) :
    Framed tokens (places ++ later) opened frames events held := by
  induction framed with
  | nil => exact .nil
  | node outer segment wraps placed ih =>
      refine ih.node (segment.mono later) wraps ?_
      obtain ⟨inside, _⟩ := List.getElem?_eq_some_iff.mp placed
      rw [List.getElem?_append_left inside, placed]

/-- Tokens that end with the end of the text, which is nowhere else. -/
def Ending (tokens : List Token) : Prop :=
  ∃ kinds, tokens.map Token.kind = kinds ++ [.eof] ∧ Kind.eof ∉ kinds

theorem Ending.kind_eq_eof
    {tokens : List Token}
    (ending : Ending tokens)
    {position : Nat}
    {inner : Token}
    (found : tokens[position]? = some inner) :
    inner.kind = .eof ↔ position + 1 = tokens.length := by
  obtain ⟨kinds, split, absent⟩ := ending
  have count : tokens.length = kinds.length + 1 := by
    rw [← List.length_map Token.kind, split, List.length_append, List.length_singleton]
  have inBounds : position < tokens.length := (List.getElem?_eq_some_iff.mp found).1
  have kind : (kinds ++ [Kind.eof])[position]? = some inner.kind := by
    rw [← split, List.getElem?_map, found]
    rfl
  by_cases isLast : position = kinds.length
  · subst isLast
    simp at kind
    simp [← kind, count]
  · rw [List.getElem?_append_left (by omega)] at kind
    have other : inner.kind ≠ .eof := fun same => absent (same ▸ List.mem_of_getElem? kind)
    simp only [other, false_iff]
    omega

/--
The log of steps that keep to the discipline, and what these steps have put together.  A log
stays at the end of the text when this is taken.
-/
inductive Agrees (tokens : List Token) : Discipline → Log → Assembly → Prop where
  | intro
      {places : List Nat}
      {opened : List Opened}
      {frames : List (List Element)}
      {events inside : List Event}
      {held elements : List Element}
      {marks : List (Option Nat)}
      {position left : Nat}
      (framed : Framed tokens places opened frames events held)
      (segment : Segment tokens places events.length inside marks elements)
      (taken : position + max left 1 = tokens.length) :
      Agrees tokens ⟨places.length, left, opened, marks ++ unmarked held⟩
        ⟨events ++ inside, position, places⟩
        ⟨tokens.drop (tokens.length - left), (elements ++ held) :: frames⟩

/-- The token that comes next, while some are left. -/
theorem drop_left
    {tokens : List Token}
    {position left : Nat}
    (taken : position + max left 1 = tokens.length)
    (some : 0 < left) :
    ∃ inner, tokens[position]? = .some inner ∧
      tokens.drop (tokens.length - left) = inner :: tokens.drop (tokens.length - (left - 1)) := by
  have inBounds : position < tokens.length := by omega
  have here : tokens.length - left = position := by omega
  have behind : tokens.length - (left - 1) = position + 1 := by omega
  refine ⟨tokens[position], List.getElem?_eq_getElem inBounds, ?_⟩
  rw [here, behind, List.drop_eq_getElem_cons inBounds]

theorem Agrees.new
    {tokens : List Token}
    (ending : Ending tokens) :
    Agrees tokens (.new tokens.length) .new (.new tokens) := by
  obtain ⟨kinds, split, _⟩ := ending
  have some : 0 + max tokens.length 1 = tokens.length := by
    rw [← List.length_map Token.kind, split, List.length_append, List.length_singleton]
    omega
  have empty : Agrees tokens ⟨[].length, tokens.length, [], [] ++ unmarked []⟩ ⟨[] ++ [], 0, []⟩
      ⟨tokens.drop (tokens.length - tokens.length), [[] ++ []]⟩ := .intro .nil .nil some
  rw [Nat.sub_self] at empty
  exact empty

/-! ## Steps -/

/-- A change at the start of a node that stands behind given events. -/
theorem Log.amend_append
    (front behind : List Event)
    (kind : Kind)
    (parent? : Option Nat)
    (position : Nat)
    (places : List Nat)
    (change : Kind → Option Nat → Event) :
    Log.amend ⟨front ++ .start kind parent? :: behind, position, places⟩ front.length change =
      some ⟨front ++ change kind parent? :: behind, position, places⟩ := by
  simp [Log.amend]

/-- The steps that a log and an assembly take together, as far as the discipline allows. -/
def Keeps (tokens : List Token) (step : Step) : Prop :=
  ∀ {discipline next : Discipline} {log : Log} {assembly : Assembly},
    Agrees tokens discipline log assembly → discipline.perform step = some next →
      ∃ later, log.perform tokens step = some later ∧
        Agrees tokens next later (step.perform assembly)

section Steps

variable {tokens : List Token}

theorem keeps_start : Keeps tokens .start := by
  intro discipline next log assembly agrees allowed
  cases agrees with
  | @intro places opened frames events inside held elements marks position left framed segment
      taken =>
      cases allowed
      have placed : (places ++ [(events ++ inside).length])[places.length]? =
          some (events ++ inside ++ []).length := by simp
      have nested := Agrees.intro ((framed.mono _).node (segment.mono _) .nothing placed) .nil taken
      refine ⟨_, rfl, ?_⟩
      simpa [Log.start, Step.perform, Assembly.perform, unmarked] using nested

theorem keeps_advance (ending : Ending tokens) : Keeps tokens .advance := by
  intro discipline next log assembly agrees allowed
  cases agrees with
  | @intro places opened frames events inside held elements marks position left framed segment
      taken =>
      simp only [Discipline.perform] at allowed
      split at allowed
      · next few =>
        -- at the end of the text nothing changes, whether or not it has been taken
        cases allowed
        have inBounds : position < tokens.length := by omega
        have found : tokens[position]? = some tokens[position] := List.getElem?_eq_getElem inBounds
        have isEnd : tokens[position].kind = .eof := (ending.kind_eq_eof found).mpr (by omega)
        refine ⟨⟨events ++ inside, position, places⟩, by simp [Log.perform, found, isEnd], ?_⟩
        have same := Agrees.intro framed segment taken
        obtain rfl | one : left = 0 ∨ 0 < left := Nat.eq_zero_or_pos left
        · rw [Nat.sub_zero, List.drop_length] at same ⊢
          exact same
        · obtain ⟨inner, here, drops⟩ := drop_left taken one
          have same := Agrees.intro framed segment taken
          cases found.symm.trans here
          rw [drops] at same ⊢
          simpa [Step.perform, isEnd] using same
      · next more =>
        cases allowed
        obtain ⟨inner, found, drops⟩ := drop_left taken (by omega)
        have notEnd : inner.kind ≠ .eof := fun isEnd => by
          have last := (ending.kind_eq_eof found).mp isEnd
          omega
        have read := Agrees.intro framed (segment.token found)
          (by omega : position + 1 + max (left - 1) 1 = tokens.length)
        refine ⟨⟨events ++ (inside ++ [.token position]), position + 1, places⟩, ?_, ?_⟩
        · simp [Log.perform, found, notEnd]
        · rw [Step.perform, drops]
          simpa [notEnd, Assembly.perform] using read

theorem keeps_takeEnd (ending : Ending tokens) : Keeps tokens .takeEnd := by
  intro discipline next log assembly agrees allowed
  cases agrees with
  | @intro places opened frames events inside held elements marks position left framed segment
      taken =>
      simp only [Discipline.perform] at allowed
      split at allowed
      · next one =>
        cases allowed
        subst one
        obtain ⟨inner, found, drops⟩ := drop_left taken Nat.one_pos
        have isEnd : inner.kind = .eof := (ending.kind_eq_eof found).mpr (by omega)
        have read := Agrees.intro framed (segment.token found)
          (by omega : position + max 0 1 = tokens.length)
        refine ⟨⟨events ++ (inside ++ [.token position]), position, places⟩, ?_, ?_⟩
        · simp [Log.perform, found, isEnd]
        · rw [Step.perform, drops]
          simpa [Assembly.perform] using read
      · cases allowed

theorem keeps_complete (marker : Nat) (kind : Kind) : Keeps tokens (.complete marker kind) := by
  intro discipline next log assembly agrees allowed
  cases agrees with
  | @intro places _ _ _ inside inner elements marks position left framed segment taken =>
      cases framed with
      | nil => cases allowed
      | @node opened frames events before wrapped held others _ earlier isAround named outer
          previous wraps placed =>
          simp only [Discipline.perform] at allowed
          split at allowed
          · next closes =>
            cases allowed
            obtain ⟨rfl, proper⟩ := closes
            have amended : Log.amend
                ⟨events ++ before ++ wrapped ++ [.tombstone] ++ inside, position, places⟩
                (events ++ before ++ wrapped).length (fun _ parent? => .start kind parent?) =
                  some ⟨events ++ before ++ wrapped ++ .start kind none :: inside, position,
                    places⟩ := by
              have changed := Log.amend_append (events ++ before ++ wrapped) inside .tombstone none
                position places fun _ parent? => .start kind parent?
              simpa [Event.tombstone] using changed
            have known :
                places[named]? = some (events.length + before.length + wrapped.length) := by
              simpa [Nat.add_assoc] using placed
            have node := Agrees.intro outer
              (previous.node (wraps.links proper segment.replays) known) taken
            refine ⟨⟨events ++ before ++ wrapped ++ .start kind none :: (inside ++ [.finish]),
              position, places⟩, ?_, ?_⟩
            · simp only [Log.perform, placed, amended, bind, Option.bind, pure]
              simp
            · simpa [Step.perform, Assembly.perform] using node
          · cases allowed

theorem keeps_abandon (marker : Nat) : Keeps tokens (.abandon marker) := by
  intro discipline next log assembly agrees allowed
  cases agrees with
  | @intro places _ _ _ inside inner elements marks position left framed segment taken =>
      cases framed with
      | nil => cases allowed
      | @node opened frames events before wrapped held others _ earlier isAround named outer
          previous wraps placed =>
          simp only [Discipline.perform] at allowed
          split at allowed
          · next closes =>
            cases allowed
            obtain ⟨rfl, rfl⟩ := closes
            cases wraps
            by_cases empty : inside = []
            · -- nothing stands behind the start, which is taken back
              subst empty
              obtain ⟨rfl, rfl⟩ := segment.eq_nil
              have kept := Agrees.intro outer previous taken
              refine ⟨⟨events ++ before, position, places⟩, ?_, ?_⟩
              · simp [Log.perform, placed, Nat.add_assoc]
              · simpa [Step.perform, Assembly.perform, unmarked] using kept
            · have behind : Segment tokens places
                  (events.length + (before ++ [Event.tombstone]).length) inside marks elements := by
                simpa [Nat.add_assoc] using segment
              have given := Agrees.intro outer (previous.blank.append behind) taken
              refine ⟨⟨events ++ (before ++ [.tombstone] ++ inside), position, places⟩, ?_, ?_⟩
              · simp [Log.perform, placed, empty, Nat.add_assoc]
              · simpa [Step.perform, Assembly.perform, unmarked] using given
          · cases allowed

theorem keeps_precede (marker : Nat) : Keeps tokens (.precede marker) := by
  intro discipline next log assembly agrees allowed
  cases agrees with
  | @intro places opened frames events inside held elements marks position left framed segment
      taken =>
      simp only [Discipline.perform] at allowed
      cases marks with
      | nil =>
          -- an element that is held has no marker any more
          cases held with
          | nil => cases allowed
          | cons element others => simp [unmarked] at allowed
      | cons last marks =>
          simp only [List.cons_append] at allowed
          split at allowed
          · next isLast =>
            cases allowed
            subst isLast
            obtain ⟨first, front, kind, after, element, others, rfl, rfl, earlier, links, known⟩ :=
              segment.last
            let all := events ++ (first ++ (front ++ .start kind none :: after))
            let linked := front ++ .start kind (some (after.length + 1)) :: after
            have distance : all.length - (events.length + first.length + front.length) =
                after.length + 1 := by
              simp [all]
              omega
            have amended : Log.amend ⟨all ++ [.tombstone], position, places ++ [all.length]⟩
                (events.length + first.length + front.length)
                (fun kind _ => .start kind (some (after.length + 1))) =
                  some ⟨events ++ first ++ linked ++ [.tombstone], position,
                    places ++ [all.length]⟩ := by
              have changed := Log.amend_append (events ++ first ++ front) (after ++ [.tombstone])
                kind none position (places ++ [all.length])
                fun kind _ => .start kind (some (after.length + 1))
              simpa [all, linked, Nat.add_assoc] using changed
            have placed : (places ++ [all.length])[places.length]? =
                some (events ++ first ++ linked).length := by
              simp [all, linked]
            have nested := Agrees.intro
              ((framed.mono _).node (earlier.mono _) (.node links) placed) .nil taken
            refine ⟨⟨events ++ first ++ linked ++ [.tombstone], position,
              places ++ [all.length]⟩, ?_, ?_⟩
            · simp only [Log.perform, known, Log.start, bind, Option.bind]
              rw [distance]
              exact amended
            · simpa [Step.perform, Assembly.perform, unmarked, linked] using nested
          · cases allowed

theorem keeps (ending : Ending tokens) (step : Step) : Keeps tokens step := by
  cases step with
  | start => exact keeps_start
  | advance => exact keeps_advance ending
  | takeEnd => exact keeps_takeEnd ending
  | complete marker kind => exact keeps_complete marker kind
  | abandon marker => exact keeps_abandon marker
  | precede marker => exact keeps_precede marker

/-- Steps that keep to the discipline are never refused by the log. -/
theorem Agrees.performAll
    (ending : Ending tokens)
    {steps : List Step}
    {discipline next : Discipline}
    {log : Log}
    {assembly : Assembly}
    (agrees : Agrees tokens discipline log assembly)
    (allowed : discipline.performAll steps = some next) :
    ∃ later, log.performAll tokens steps = some later ∧
      Agrees tokens next later (steps.foldl Step.perform assembly) := by
  induction steps generalizing discipline log assembly with
  | nil =>
      cases allowed
      exact ⟨log, rfl, agrees⟩
  | cons step steps ih =>
      obtain ⟨between, first, rest⟩ := Option.bind_eq_some_iff.mp allowed
      obtain ⟨logged, performed, agree⟩ := keeps ending step agrees first
      obtain ⟨later, all, agreeAll⟩ := ih agree rest
      exact ⟨later, Option.bind_eq_some_iff.mpr ⟨logged, performed, all⟩, agreeAll⟩

end Steps

end Marker

end LuaFold
