import LuaFold.Proofs.Grammar.Marker
import LuaFold.Proofs.Parse.Lossless

/-!
# Trees from steps with markers

The log of steps that keep to the discipline builds, over the text, what the steps put together
when every open node has a list of elements of its own.  Completing a node wraps everything that
came in since its start, a node started around another one holds this first, and a node that is
given up leaves what it holds to the one outside.
-/

namespace LuaFold

/-- All elements that are put together, in nodes that are open or finished, are measured. -/
def Assembly.Measured (assembly : Assembly) : Prop :=
  ∀ element ∈ assembly.frames.flatten, element.Measured

namespace Assembly.Measured

variable {assembly : Assembly}

theorem new (tokens : List Token) : (Assembly.new tokens).Measured := by
  simp [Assembly.Measured, Assembly.new]

/-- Actions other than completing a node bring in nothing but tokens. -/
theorem perform
    (measured : assembly.Measured)
    (action : Action) :
    (assembly.perform action).Measured := by
  fun_cases Assembly.perform assembly action with
  | case1 => simpa [Assembly.Measured] using measured
  | case2 token tokens frame frames same _ =>
      rw [Assembly.Measured, same] at measured
      have all : ∀ element ∈ .token token :: (frame :: frames).flatten, element.Measured :=
        List.forall_mem_cons.mpr ⟨.token token, measured⟩
      simpa [Assembly.Measured] using all
  | case4 kind inner outer frames same =>
      rw [Assembly.Measured, same, List.flatten_cons, List.forall_mem_append] at measured
      have node : (Element.branch kind inner.reverse).Measured :=
        .node kind fun child inside => measured.1 child (List.mem_reverse.mp inside)
      exact List.forall_mem_cons.mpr ⟨node, measured.2⟩
  | case6 inner outer frames same =>
      rw [Assembly.Measured, same] at measured
      simpa [Assembly.Measured] using measured
  | case8 last frame frames same =>
      rw [Assembly.Measured, same] at measured
      simpa [Assembly.Measured] using measured
  | _ => exact measured

theorem step
    (measured : assembly.Measured)
    (step : Marker.Step) :
    (step.perform assembly).Measured := by
  cases step with
  | advance =>
      rw [Marker.Step.perform]
      split
      · exact measured
      · exact measured.perform .advance
  | _ => exact measured.perform _

theorem steps
    (measured : assembly.Measured)
    (steps : List Marker.Step) :
    (steps.foldl Marker.Step.perform assembly).Measured := by
  induction steps generalizing assembly with
  | nil => exact measured
  | cons step steps ih => exact ih (measured.step step)

end Assembly.Measured

namespace Marker

/-- What steps put together is measured, provided that no node is left open. -/
theorem measured_assemble
    {steps : List Step}
    {tokens : List Token}
    {roots : List Element}
    {left : List Token}
    (closed : steps.foldl Step.perform (.new tokens) = ⟨left, [roots.reverse]⟩) :
    ∀ root ∈ roots, root.Measured := by
  intro root member
  have measured := (Assembly.Measured.new tokens).steps steps
  rw [closed] at measured
  exact measured root (by simpa using member)

/--
Steps that keep to the discipline over the tokens of a text are logged without a failure, and the
log replays to the calls that build what the steps put together, in order.  If this consists of
nodes that cover the text, the replay builds a tree with these nodes.
-/
theorem replay_builds_assembly
    {text : Text}
    {steps : List Step}
    (accepted : Discipline.accepts (tokenize text).length steps = true) :
    ∃ log calls, Log.new.performAll (tokenize text) steps = some log ∧
      Event.replay (tokenize text) log.events = some calls ∧
      calls = (Step.assemble steps (tokenize text)).flatMap Element.calls ∧
      (Step.assemble steps (tokenize text) ≠ [] →
        (∀ root ∈ Step.assemble steps (tokenize text), root.isNode = true) →
        ((Step.assemble steps (tokenize text)).flatMap Element.tokens).flatMap Token.fullText =
          text →
        SyntaxTree.build text calls =
          .ok ⟨(Step.assemble steps (tokenize text)).map Element.bare⟩) := by
  simp only [Discipline.accepts] at accepted
  split at accepted
  · next discipline allowed =>
    have ending : Ending (tokenize text) := map_kind_tokenize text
    obtain ⟨log, logged, agrees⟩ := (Agrees.new ending).performAll ending allowed
    generalize put : steps.foldl Step.perform (.new (tokenize text)) = assembly at agrees
    cases agrees with
    | @intro places opened frames events inside held elements marks position left framed segment
        taken =>
        -- no node is left open, so there is nothing before the last segment
        rw [List.isEmpty_iff] at accepted
        subst accepted
        cases framed
        rw [List.append_nil] at put
        have assembled : Step.assemble steps (tokenize text) = elements.reverse := by
          rw [Step.assemble, put]
          rfl
        have replayed : Event.replay (tokenize text) ([] ++ inside) =
            some (elements.reverse.flatMap Element.calls) := by
          have whole := segment.replays []
          simpa [Event.replay] using whole
        have measured : ∀ root ∈ elements.reverse, root.Measured :=
          measured_assemble (by rw [put, List.reverse_reverse])
        rw [assembled]
        refine ⟨_, _, logged, replayed, rfl, fun present nodes covers => ?_⟩
        have built := SyntaxTree.build_forest present measured nodes
        rwa [covers] at built
  · cases accepted

/-- A name that two calls are started around in turn; two more starts are given up. -/
def twoCalls : List Step :=
  [.start, .start, .advance, .complete 1 .nameRef,
    .precede 1, .start, .start, .advance, .advance, .abandon 4, .complete 3 .argList,
    .complete 2 .callExpr,
    .precede 2, .start, .advance, .advance, .complete 6 .argList, .complete 5 .callExpr,
    .start, .abandon 7, .takeEnd, .complete 0 .chunk]

theorem replay_builds_assembly_calls :
    Discipline.accepts (tokenize "f()()".toList).length twoCalls = true ∧
      ∃ log calls, Log.new.performAll (tokenize "f()()".toList) twoCalls = some log ∧
        Event.replay (tokenize "f()()".toList) log.events = some calls ∧
        SyntaxTree.build "f()()".toList calls =
          .ok ⟨(Step.assemble twoCalls (tokenize "f()()".toList)).map Element.bare⟩ := by
  have accepted : Discipline.accepts (tokenize "f()()".toList).length twoCalls = true := by
    decide +kernel
  obtain ⟨log, calls, logged, replayed, _, built⟩ := replay_builds_assembly accepted
  refine ⟨accepted, log, calls, logged, replayed, built ?_ ?_ ?_⟩
  · exact fun none => absurd (congrArg List.length none) (by decide +kernel)
  · decide +kernel
  · decide +kernel

end Marker

end LuaFold
