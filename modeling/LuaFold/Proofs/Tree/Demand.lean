import LuaFold.Proofs.Token.Partition
import LuaFold.Proofs.Tree.Remembered

/-!
# What calls ask for

A list of calls builds a tree exactly when everything holds that its calls ask for.  A node is
finished while one is open, a token is added inside an open node, and every trivia piece and
every token stops between two characters of the text.  At the end every node is finished, there
is a node at all, and the tokens cover the text.

What a call asks for depends on the calls before it only through how many nodes they start and
finish and how many bytes they take.  So the demands of a list of calls can be written down
without building anything.  The first of them that does not hold is the fault of the list, and
nothing else can go wrong: a node that has been closed always knows what it reaches over.
-/

namespace LuaFold

namespace Call

/-- Whether a call starts a node. -/
def isStart : Call → Bool
  | .start _ => true
  | _ => false

/-- The lengths of the pieces that a call takes off the text, one behind the other. -/
def lengths : Call → List Nat
  | .start _ | .finish => []
  | .token leading _ length trailing =>
      leading.map Measured.length ++ length :: trailing.map Measured.length

/-- The number of nodes that calls start. -/
def started (calls : List Call) : Nat :=
  calls.countP isStart

/-- The number of nodes that calls finish. -/
def finished (calls : List Call) : Nat :=
  calls.count .finish

/-- The number of bytes that calls take off the text. -/
def bytes (calls : List Call) : Nat :=
  (calls.flatMap lengths).sum

/-- Calls leave a node open when they start more nodes than they finish. -/
def LeaveOpen (calls : List Call) : Prop :=
  finished calls < started calls

@[simp]
theorem started_append (calls others : List Call) :
    started (calls ++ others) = started calls + started others :=
  List.countP_append

end Call

/-- Something that calls ask for, and the fault if it does not hold. -/
structure Demand where
  holds : Prop
  fault : BuildFault

namespace Demand

/-- The first of some demands that does not hold. -/
def IsFirstBroken (demands : List Demand) (demand : Demand) : Prop :=
  ∃ earlier later, demands = earlier ++ demand :: later ∧
    (∀ other ∈ earlier, other.holds) ∧ ¬ demand.holds

/-- Pieces that follow each other from an offset on each stop between two characters. -/
def ofLengths (text : Text) (offset : Nat) : List Nat → List Demand
  | [] => []
  | length :: rest =>
      ⟨text.IsBoundary (offset + length), .brokenCharacter⟩ ::
        ofLengths text (offset + length) rest

/-- What a call asks for behind other calls. -/
def ofCall (text : Text) (before : List Call) : Call → List Demand
  | .start _ => []
  | .finish => [⟨Call.LeaveOpen before, .nothingToFinish⟩]
  | .token leading kind length trailing =>
      ⟨Call.LeaveOpen before, .tokenOutsideNodes⟩ ::
        ofLengths text (Call.bytes before) (Call.token leading kind length trailing).lengths

/-- What calls ask for behind other calls, in their order. -/
def behind (text : Text) (before : List Call) : List Call → List Demand
  | [] => []
  | call :: rest => ofCall text before call ++ behind text (before ++ [call]) rest

/-- What has to hold at the end of all calls. -/
def atEnd (text : Text) (calls : List Call) : List Demand :=
  [⟨¬ Call.LeaveOpen calls, .unfinishedNodes⟩,
    ⟨0 < Call.started calls, .noRoot⟩,
    ⟨Call.bytes calls = Text.size text, .uncovered (Call.bytes calls) (Text.size text)⟩]

/-- Everything that a list of calls asks for, in the order in which it does so. -/
def ofCalls (text : Text) (calls : List Call) : List Demand :=
  behind text [] calls ++ atEnd text calls

theorem IsFirstBroken.unique
    {demands : List Demand}
    {first second : Demand}
    (isFirst : IsFirstBroken demands first)
    (isSecond : IsFirstBroken demands second) :
    first = second := by
  obtain ⟨earlier, later, rfl, held, broken⟩ := isFirst
  obtain ⟨front, rest, same, frontHeld, alsoBroken⟩ := isSecond
  rcases List.append_eq_append_iff.mp same with ⟨middle, rfl, split⟩ | ⟨middle, rfl, split⟩
  · cases middle with
    | nil => exact (List.cons.inj split).1
    | cons demand others =>
        cases (List.cons.inj split).1
        exact absurd (frontHeld first (by simp)) broken
  · cases middle with
    | nil => exact (List.cons.inj split).1.symm
    | cons demand others =>
        cases (List.cons.inj split).1
        exact absurd (held second (by simp)) alsoBroken

theorem ofLengths_append
    (text : Text)
    (offset : Nat)
    (first second : List Nat) :
    ofLengths text offset (first ++ second) =
      ofLengths text offset first ++ ofLengths text (offset + first.sum) second := by
  induction first generalizing offset with
  | nil => simp [ofLengths]
  | cons length rest ih => simp [ofLengths, ih, Nat.add_assoc]

/-- Pieces stop between two characters when each front part of them does. -/
theorem forall_ofLengths
    {text : Text}
    {offset : Nat}
    {lengths : List Nat} :
    (∀ demand ∈ ofLengths text offset lengths, demand.holds) ↔
      ∀ front, front <+: lengths → front ≠ [] → text.IsBoundary (offset + front.sum) := by
  induction lengths generalizing offset with
  | nil => simp [ofLengths]
  | cons length rest ih =>
      rw [ofLengths, List.forall_mem_cons, ih]
      constructor
      · rintro ⟨here, there⟩ front isFront nonempty
        rcases List.prefix_cons_iff.mp isFront with rfl | ⟨others, rfl, isOthers⟩
        · exact absurd rfl nonempty
        · by_cases none : others = []
          · simpa [none] using here
          · simpa [Nat.add_assoc] using there others isOthers none
      · intro all
        refine ⟨by simpa using all [length] ⟨rest, rfl⟩ (by simp), fun front isFront _ => ?_⟩
        simpa [Nat.add_assoc] using
          all (length :: front) (List.cons_prefix_cons.mpr ⟨rfl, isFront⟩) (by simp)

/-- What calls ask for is what each of them asks for behind those before it. -/
theorem forall_behind
    {text : Text}
    {before calls : List Call} :
    (∀ demand ∈ behind text before calls, demand.holds) ↔
      ∀ earlier call later, calls = earlier ++ call :: later →
        ∀ demand ∈ ofCall text (before ++ earlier) call, demand.holds := by
  induction calls generalizing before with
  | nil => simp [behind]
  | cons first rest ih =>
      rw [behind, List.forall_mem_append, ih]
      constructor
      · rintro ⟨here, there⟩ earlier call later split
        cases earlier with
        | nil =>
            cases split
            simpa using here
        | cons other earlier =>
            obtain ⟨rfl, rest⟩ := List.cons.inj split
            simpa using there earlier call later rest
      · intro all
        refine ⟨by simpa using all [] first rest rfl, fun earlier call later split => ?_⟩
        simpa using all (first :: earlier) call later (by rw [split, List.cons_append])

end Demand

/--
The calls of a well-formed list finish nodes and add tokens only while a node is open, cut the
text between characters only, and finish some node and all nodes over the whole text.
-/
structure Call.WellFormed (text : Text) (calls : List Call) : Prop where
  finish : ∀ before later, calls = before ++ .finish :: later → LeaveOpen before
  token : ∀ before leading kind length trailing later,
    calls = before ++ .token leading kind length trailing :: later → LeaveOpen before
  boundary : ∀ before call later, calls = before ++ call :: later →
    ∀ front, front <+: call.lengths → front ≠ [] → text.IsBoundary (bytes before + front.sum)
  closed : ¬ LeaveOpen calls
  rooted : 0 < started calls
  covered : bytes calls = Text.size text

/-- A list of calls is well-formed when everything holds that it asks for. -/
theorem Demand.forall_ofCalls
    {text : Text}
    {calls : List Call} :
    (∀ demand ∈ ofCalls text calls, demand.holds) ↔ Call.WellFormed text calls := by
  rw [ofCalls, List.forall_mem_append, forall_behind]
  simp only [List.nil_append, atEnd, List.forall_mem_cons]
  constructor
  · rintro ⟨each, closed, rooted, covered, _⟩
    refine ⟨fun before later split => ?_, fun before leading kind length trailing later split => ?_,
      fun before call later split => ?_, closed, rooted, covered⟩
    · exact each before .finish later split _ List.mem_cons_self
    · exact each before _ later split _ List.mem_cons_self
    · have asked := each before call later split
      cases call with
      | token leading kind length trailing =>
          exact forall_ofLengths.mp (List.forall_mem_cons.mp asked).2
      | _ => simp [Call.lengths]
  · rintro ⟨finish, token, boundary, closed, rooted, covered⟩
    refine ⟨fun before call later split => ?_, closed, rooted, covered, by simp⟩
    cases call with
    | start kind => simp [ofCall]
    | finish => simpa [ofCall] using finish before later split
    | token leading kind length trailing =>
        exact List.forall_mem_cons.mpr ⟨token before leading kind length trailing later split,
          forall_ofLengths.mpr (boundary before _ later split)⟩

/--
Demands decide an outcome: it is accepted if all of them hold, and refused for the fault of the
first one that does not.
-/
inductive Decided
    {Outcome : Type}
    (reached : Outcome → Prop)
    (demands : List Demand) :
    Except BuildFault Outcome → Prop where
  | accepted
      {outcome : Outcome}
      (held : ∀ demand ∈ demands, demand.holds)
      (here : reached outcome) :
      Decided reached demands (.ok outcome)
  | refused
      {demand : Demand}
      (first : demand.IsFirstBroken demands) :
      Decided reached demands (.error demand.fault)

namespace Decided

variable
    {First Second : Type}
    {reached : First → Prop}
    {further : Second → Prop}
    {demands others : List Demand}

/-- The demands of the first part come before those of what follows it. -/
theorem bind
    {first : Except BuildFault First}
    {next : First → Except BuildFault Second}
    (here : Decided reached demands first)
    (there : ∀ outcome, reached outcome → Decided further others (next outcome)) :
    Decided further (demands ++ others) (first >>= next) := by
  cases here with
  | refused isFirst =>
      obtain ⟨earlier, later, rfl, held, broken⟩ := isFirst
      exact .refused ⟨earlier, later ++ others, by simp, held, broken⟩
  | @accepted outcome held isReached =>
      have rest := there outcome isReached
      rw [show (Except.ok outcome >>= next) = next outcome from rfl]
      generalize next outcome = second at rest
      cases rest with
      | accepted heldToo isFurther =>
          exact .accepted (List.forall_mem_append.mpr ⟨held, heldToo⟩) isFurther
      | refused isFirst =>
          obtain ⟨earlier, later, rfl, heldToo, broken⟩ := isFirst
          exact .refused ⟨demands ++ earlier, later, by simp,
            List.forall_mem_append.mpr ⟨held, heldToo⟩, broken⟩

theorem map
    {first : Except BuildFault First}
    {other : First → Second}
    (here : Decided reached demands first)
    (there : ∀ outcome, reached outcome → further (other outcome)) :
    Decided further demands (first >>= fun outcome => pure (other outcome)) := by
  cases here with
  | refused isFirst => exact .refused isFirst
  | accepted held isReached => exact .accepted held (there _ isReached)

/-- A demand that does not hold decides before all others. -/
theorem broken
    {demand : Demand}
    (breaks : ¬ demand.holds) :
    Decided reached (demand :: others) (.error demand.fault) :=
  .refused ⟨[], others, rfl, by simp, breaks⟩

/-- A demand that holds leaves the decision to the others. -/
theorem held
    {demand : Demand}
    (holds : demand.holds)
    {outcome : Except BuildFault First}
    (decided : Decided reached others outcome) :
    Decided reached (demand :: others) outcome := by
  cases decided with
  | accepted all here => exact .accepted (List.forall_mem_cons.mpr ⟨holds, all⟩) here
  | refused isFirst =>
      obtain ⟨earlier, later, rfl, all, breaks⟩ := isFirst
      exact .refused ⟨demand :: earlier, later, rfl, List.forall_mem_cons.mpr ⟨holds, all⟩, breaks⟩

/-- A single demand is decided by whether it holds. -/
theorem single
    {demand : Demand}
    {outcome : Except BuildFault First}
    (met : demand.holds → ∃ first, outcome = .ok first ∧ reached first)
    (unmet : ¬ demand.holds → outcome = .error demand.fault) :
    Decided reached [demand] outcome := by
  by_cases holds : demand.holds
  · obtain ⟨first, rfl, isReached⟩ := met holds
    exact .accepted (by simpa using holds) isReached
  · rw [unmet holds]
    exact broken holds

variable {outcome : Except BuildFault First} (decided : Decided reached demands outcome)
include decided

theorem exists_ok_iff :
    (∃ accepted, outcome = .ok accepted) ↔ ∀ demand ∈ demands, demand.holds := by
  cases decided with
  | accepted held here => exact ⟨fun _ => held, fun _ => ⟨_, rfl⟩⟩
  | refused isFirst =>
      obtain ⟨earlier, later, rfl, held, broken⟩ := isFirst
      exact ⟨by simp, fun all => absurd (all _ (by simp)) broken⟩

theorem eq_error_iff {fault : BuildFault} :
    outcome = .error fault ↔
      ∃ demand : Demand, demand.IsFirstBroken demands ∧ fault = demand.fault := by
  cases decided with
  | accepted held here =>
      refine ⟨by simp, ?_⟩
      rintro ⟨demand, ⟨earlier, later, rfl, _, broken⟩, _⟩
      exact absurd (held demand (by simp)) broken
  | @refused first isFirst =>
      constructor
      · rintro same
        cases same
        exact ⟨first, isFirst, rfl⟩
      · rintro ⟨demand, alsoFirst, rfl⟩
        rw [isFirst.unique alsoFirst]

end Decided

namespace Builder

/-- A builder has taken the first bytes of a text, and the rest is left. -/
structure Stands (text : Text) (offset : Nat) (builder : Builder) : Prop where
  taken : ∃ before, text = before ++ builder.rest ∧ Text.size before = offset
  pushed : builder.pushed = offset

/-- What taking pieces off the text keeps of a builder. -/
structure Takes (text : Text) (offset : Nat) (builder later : Builder) : Prop where
  stands : later.Stands text offset
  opened : later.opened = builder.opened
  roots : later.roots = builder.roots

theorem Takes.trans
    {text : Text}
    {offset further : Nat}
    {first second third : Builder}
    (early : Takes text offset first second)
    (late : Takes text further second third) :
    Takes text further first third :=
  ⟨late.stands, late.opened.trans early.opened, late.roots.trans early.roots⟩

section Take

variable {text : Text} {offset : Nat} {builder : Builder} (stands : builder.Stands text offset)
include stands

/-- What is left can be cut exactly where the text has a boundary behind what is taken. -/
theorem isSome_cut?_rest (length : Nat) :
    (Text.cut? length builder.rest).isSome ↔ text.IsBoundary (offset + length) := by
  obtain ⟨before, rfl, rfl⟩ := stands.taken
  rw [← Text.isSome_cut?_append, Option.isSome_iff_exists]
  constructor
  · rintro ⟨⟨front, behind⟩, found⟩
    obtain ⟨whole, counted⟩ := Text.cut?_eq_some_iff.mp found
    exact ⟨front, behind, whole.symm, counted.symm⟩
  · rintro ⟨front, behind, whole, counted⟩
    exact ⟨(front, behind), Text.cut?_eq_some_iff.mpr ⟨whole.symm, counted.symm⟩⟩

theorem decided_take (length : Nat) :
    Decided (fun taken : Text × Builder => Takes text (offset + length) builder taken.2)
      (Demand.ofLengths text offset [length]) (builder.take length) := by
  have boundary := isSome_cut?_rest stands length
  rw [take]
  refine Decided.single (fun holds => ?_) fun broken => ?_
  · obtain ⟨⟨front, behind⟩, found⟩ := Option.isSome_iff_exists.mp (boundary.mpr holds)
    obtain ⟨before, whole, counted⟩ := stands.taken
    obtain ⟨split, length⟩ := Text.cut?_eq_some_iff.mp found
    rw [found]
    refine ⟨_, rfl, ⟨⟨before ++ front, ?_, ?_⟩, ?_⟩, rfl, rfl⟩
    · rw [whole, ← split, List.append_assoc]
    · rw [Text.size_append, counted, length]
    · rw [stands.pushed]
  · rw [Option.not_isSome_iff_eq_none.mp fun found => broken (boundary.mp found)]

theorem decided_takeTrivia (pieces : List Measured) :
    Decided (fun taken : List Trivia × Builder =>
        Takes text (offset + (pieces.map Measured.length).sum) builder taken.2)
      (Demand.ofLengths text offset (pieces.map Measured.length)) (builder.takeTrivia pieces) := by
  induction pieces generalizing offset builder with
  | nil =>
      rw [takeTrivia_nil]
      exact .accepted (by simp [Demand.ofLengths]) ⟨stands, rfl, rfl⟩
  | cons piece pieces ih =>
      rw [takeTrivia_cons, List.map_cons, ← List.singleton_append, Demand.ofLengths_append]
      refine (decided_take stands piece.length).bind fun taken here => ?_
      rw [List.sum_singleton]
      refine (ih here.stands).map fun others there => ?_
      rw [List.singleton_append, List.sum_cons, ← Nat.add_assoc]
      exact here.trans there

end Take

/-- What calls leave behind: their bytes are taken, and nodes are open as they say. -/
structure Follows (text : Text) (before : List Call) (builder : Builder) : Prop where
  stands : builder.Stands text (Call.bytes before)
  opened : builder.opened.length + Call.finished before = Call.started before
  rooted : (builder.opened = [] ∧ builder.roots = []) ↔ Call.started before = 0

namespace Follows

theorem new (text : Text) : Follows text [] (.new text) :=
  ⟨⟨⟨[], rfl, rfl⟩, rfl⟩, rfl, by simp [Builder.new, Call.started]⟩

/-- An element that is finished is added to an open node or to the roots. -/
theorem add
    {text : Text}
    {element : Element}
    {calls : List Call}
    {later : Builder}
    (stands : later.Stands text (Call.bytes calls))
    (opened : later.opened.length + Call.finished calls = Call.started calls)
    (some : Call.started calls ≠ 0) :
    (later.add element).Follows text calls := by
  cases frames : later.opened with
  | nil =>
      rw [frames] at opened
      refine ⟨?_, ?_, ?_⟩ <;> simp only [Builder.add, frames]
      · exact ⟨stands.taken, stands.pushed⟩
      · exact opened
      · simp [some]
  | cons frame outer =>
      rw [frames] at opened
      refine ⟨?_, ?_, ?_⟩ <;> simp only [Builder.add, frames]
      · exact ⟨stands.taken, stands.pushed⟩
      · exact opened
      · simp [some]

variable
    {text : Text}
    {before : List Call}
    {builder : Builder}
    (follows : builder.Follows text before)
include follows

/-- A node is open exactly when the calls leave one open. -/
theorem leaveOpen_iff : Call.LeaveOpen before ↔ builder.opened ≠ [] := by
  have count := follows.opened
  rw [Call.LeaveOpen, ← List.length_pos_iff]
  omega

theorem start (kind : Kind) :
    Decided (Follows text (before ++ [.start kind])) (Demand.ofCall text before (.start kind))
      (builder.perform (.start kind)) := by
  refine .accepted (by simp [Demand.ofCall]) ⟨⟨?_, ?_⟩, ?_, ?_⟩
  · simpa [Call.bytes, Call.lengths] using follows.stands.taken
  · simpa [Call.bytes, Call.lengths] using follows.stands.pushed
  · have count := follows.opened
    simp [Call.started, Call.finished, Call.isStart] at count ⊢
    omega
  · simp [Call.started, Call.isStart]

theorem finish :
    Decided (Follows text (before ++ [.finish])) (Demand.ofCall text before .finish)
      (builder.perform .finish) := by
  have isOpen := follows.leaveOpen_iff
  have count := follows.opened
  rw [perform]
  refine Decided.single (fun holds => ?_) fun broken => ?_
  · obtain ⟨⟨kind, children⟩, outer, opened⟩ := List.exists_cons_of_ne_nil (isOpen.mp holds)
    rw [opened] at count ⊢
    rw [Call.LeaveOpen] at holds
    refine ⟨_, rfl, add ⟨?_, ?_⟩ ?_ ?_⟩
    · simpa [Call.bytes, Call.lengths] using follows.stands.taken
    · simpa [Call.bytes, Call.lengths] using follows.stands.pushed
    · simp [Call.started, Call.finished, Call.isStart] at count ⊢
      omega
    · rw [Call.started_append]
      omega
  · rw [not_not.mp (mt isOpen.mpr broken)]

theorem token
    (leading : List Measured)
    (kind : Kind)
    (length : Nat)
    (trailing : List Measured) :
    Decided (Follows text (before ++ [.token leading kind length trailing]))
      (Demand.ofCall text before (.token leading kind length trailing))
      (builder.perform (.token leading kind length trailing)) := by
  have isOpen := follows.leaveOpen_iff
  have count := follows.opened
  rw [perform_token]
  by_cases opened : builder.opened = []
  · rw [if_pos (by simp [opened])]
    exact .broken (mt isOpen.mp (not_not.mpr opened))
  · rw [if_neg (by simpa using opened), Demand.ofCall, Call.lengths,
      ← List.singleton_append (l := trailing.map Measured.length), Demand.ofLengths_append,
      Demand.ofLengths_append]
    have holds := isOpen.mpr opened
    refine .held holds ?_
    refine (decided_takeTrivia follows.stands leading).bind fun front ahead => ?_
    refine (decided_take ahead.stands length).bind fun text within => ?_
    rw [List.sum_singleton]
    refine (decided_takeTrivia within.stands trailing).map fun back behind => ?_
    have whole := (ahead.trans within).trans behind
    rw [Call.LeaveOpen] at holds
    refine add ?_ ?_ ?_
    · simpa [Call.bytes, Call.lengths, Nat.add_assoc] using whole.stands
    · rw [whole.opened]
      simp [Call.started, Call.finished, Call.isStart] at count ⊢
      omega
    · rw [Call.started_append]
      omega

/-- Every call is decided by what it asks for. -/
theorem perform (call : Call) :
    Decided (Follows text (before ++ [call])) (Demand.ofCall text before call)
      (builder.perform call) := by
  cases call with
  | start kind => exact follows.start kind
  | finish => exact follows.finish
  | token leading kind length trailing => exact follows.token leading kind length trailing

theorem performAll (calls : List Call) :
    Decided (Follows text (before ++ calls)) (Demand.behind text before calls)
      (calls.foldlM Builder.perform builder) := by
  induction calls generalizing before builder with
  | nil => exact .accepted (by simp [Demand.behind]) (by simpa using follows)
  | cons call calls ih =>
      rw [List.foldlM_cons, Demand.behind]
      refine (follows.perform call).bind fun later there => ?_
      simpa using ih there

/-- The tree is finished when all holds that is asked for at the end. -/
theorem finishAll :
    Decided (fun _ => True) (Demand.atEnd text before) builder.finish := by
  have isOpen := follows.leaveOpen_iff
  rw [Builder.finish, Demand.atEnd]
  by_cases opened : builder.opened = []
  · have isRooted : builder.roots = [] ↔ Call.started before = 0 := by
      simpa [opened] using follows.rooted
    obtain ⟨taken, whole, counted⟩ := follows.stands.taken
    have size : Text.size text = Call.bytes before + Text.size builder.rest := by
      rw [whole, Text.size_append, counted]
    rw [if_neg (by simp [opened]), follows.stands.pushed, ← size]
    refine .held (mt isOpen.mp (not_not.mpr opened)) ?_
    by_cases roots : builder.roots = []
    · rw [if_pos (by simp [roots])]
      exact .broken (Nat.not_lt.mpr (Nat.le_of_eq (isRooted.mp roots)))
    · rw [if_neg (by simpa using roots)]
      refine .held (Nat.pos_of_ne_zero (mt isRooted.mpr roots)) ?_
      by_cases rest : builder.rest = []
      · rw [if_neg (not_not.mpr rest)]
        exact .accepted (by simp [size, rest]) trivial
      · rw [if_pos rest]
        have left := mt Text.size_eq_zero_iff.mp rest
        exact .broken (by simp only; omega)
  · rw [if_pos (by simpa using opened)]
    exact .broken (not_not.mpr (isOpen.mpr opened))

end Follows

end Builder

namespace Agree

variable
    {First Second : Type}
    {related : First → Second → Prop}
    {first : Except ArenaFault First}
    {second : Except BuildFault Second}
    (agree : Agree related first second)
include agree

theorem exists_ok_iff :
    (∃ accepted, first = .ok accepted) ↔ ∃ accepted, second = .ok accepted := by
  cases agree with
  | refused fault => simp
  | accepted here => simp

/-- The first builder fails exactly where the second one does, and never in a way of its own. -/
theorem eq_error_iff {fault : ArenaFault} :
    first = .error fault ↔ ∃ refused, second = .error refused ∧ fault = .refused refused := by
  cases agree with
  | refused other => simp [eq_comm]
  | accepted here => simp

end Agree

/-- What a list of calls builds is decided by what the calls ask for. -/
theorem SyntaxTree.decided_build
    (text : Text)
    (calls : List Call) :
    Decided (fun _ => True) (Demand.ofCalls text calls) (SyntaxTree.build text calls) :=
  ((Builder.Follows.new text).performAll calls).bind fun _ follows => follows.finishAll

/--
A list of calls builds an arena over a text exactly when it is well-formed.  Otherwise it is
refused for the fault of the first thing it asks for, in the order of the calls, that does not
hold.  A list of calls is never given up because a closed node reaches nowhere.
-/
theorem Arena.build_decided
    (text : Text)
    (calls : List Call) :
    ((∃ arena, Arena.build text calls = .ok arena) ↔ Call.WellFormed text calls) ∧
      (∀ fault, Arena.build text calls = .error fault ↔
        ∃ demand : Demand, demand.IsFirstBroken (Demand.ofCalls text calls) ∧
          fault = .refused demand.fault) ∧
      Arena.build text calls ≠ .error .withoutReach := by
  have decided := SyntaxTree.decided_build text calls
  have agree := Arena.build_agree text calls
  refine ⟨?_, fun fault => ?_, ?_⟩
  · rw [agree.exists_ok_iff, decided.exists_ok_iff, Demand.forall_ofCalls]
  · rw [agree.eq_error_iff]
    constructor
    · rintro ⟨broken, found, rfl⟩
      obtain ⟨demand, isFirst, rfl⟩ := decided.eq_error_iff.mp found
      exact ⟨demand, isFirst, rfl⟩
    · rintro ⟨demand, isFirst, rfl⟩
      exact ⟨demand.fault, decided.eq_error_iff.mpr ⟨demand, isFirst, rfl⟩, rfl⟩
  · intro found
    obtain ⟨fault, _, same⟩ := agree.eq_error_iff.mp found
    cases same

end LuaFold
