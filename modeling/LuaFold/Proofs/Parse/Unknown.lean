import LuaFold.Proofs.Parse.Acceptance
import LuaFold.Proofs.Parse.Schema
import LuaFold.Proofs.Tree.Lineage

/-!
# Unknown tokens

The scanner reports nothing for a character that begins no token: it makes an unknown token of
the character and leaves it to the parser to reject.  The parser does, at every place but one.  In
the tree of a text an unknown token stands in an error node, or it is taken for the name of a loop
over numbers, which needs no more than a `=` behind it.

Both the forms of nodes and the lenient grammar say so: the one for the tree of every text, the
other for texts without diagnostics.
-/

namespace LuaFold

open scoped Computability

namespace Form

/-- A slot that is in no word of a form. -/
def Avoids (slot : Slot) (form : Form) : Prop :=
  ∀ slots ∈ form, slot ∉ slots

section Avoids

variable {slot : Slot} {form other : Form}

theorem avoids_someToken
    {kind : Kind}
    {test : Kind → Prop}
    (fails : ¬ test kind) :
    Avoids (.token kind) (someToken test) := by
  rintro slots ⟨inside, passed, rfl⟩ member
  cases List.mem_singleton.mp member
  exact fails passed

theorem avoids_someNode
    (kind : Kind)
    (test : Kind → Prop) :
    Avoids (.token kind) (someNode test) := by
  rintro slots ⟨inside, _, rfl⟩ member
  cases List.mem_singleton.mp member

theorem Avoids.mul
    (avoids : Avoids slot form)
    (otherAvoids : Avoids slot other) :
    Avoids slot (form * other) := by
  intro slots member found
  obtain ⟨front, inFront, back, inBack, rfl⟩ := Language.mem_mul.mp member
  rcases List.mem_append.mp found with early | late
  · exact avoids front inFront early
  · exact otherAvoids back inBack late

theorem Avoids.add
    (avoids : Avoids slot form)
    (otherAvoids : Avoids slot other) :
    Avoids slot (form + other) := by
  intro slots member
  rcases (Language.mem_add _ _ _).mp member with inForm | inOther
  · exact avoids slots inForm
  · exact otherAvoids slots inOther

theorem Avoids.optional (avoids : Avoids slot form) : Avoids slot (optional form) := by
  intro slots member
  rcases mem_optional.mp member with rfl | inForm
  · simp
  · exact avoids slots inForm

theorem Avoids.kstar (avoids : Avoids slot form) : Avoids slot form∗ := by
  intro slots member found
  obtain ⟨parts, rfl, all⟩ := Language.mem_kstar.mp member
  obtain ⟨part, inParts, inPart⟩ := List.mem_flatten.mp found
  exact avoids part (all part inParts) inPart

end Avoids

end Form

open Form in
/-- Only error nodes and loops over numbers have a place for an unknown token. -/
theorem Kind.avoids_form
    {kind : Kind}
    (notError : kind ≠ .error)
    (notLoop : kind ≠ .numericForStmt) :
    Avoids (.token .unknown) kind.form := by
  cases kind
  case error => exact absurd rfl notError
  case numericForStmt => exact absurd rfl notLoop
  all_goals
    unfold form
    repeat' first
      | exact avoids_someToken (by decide)
      | exact avoids_someNode _ _
      | refine Avoids.optional ?_
      | refine Avoids.mul ?_ ?_
      | refine Avoids.add ?_ ?_
      | refine Avoids.kstar ?_
    try exact fun _ none => none.elim

namespace Form

/-- What stands behind the `=` of a loop over numbers. -/
def loopRest : Form :=
  attempt * (optional (token .comma) * (attempt * (optional (token .comma * attempt)
    * (optional (token .doKw) * (node .block * optional (token .endKw))))))

theorem avoids_loopRest : Avoids (.token .unknown) loopRest := by
  have inserted : Avoids (.token .unknown) attempt := (avoids_someNode _ _).optional
  have comma : Avoids (.token .unknown) (token .comma) := avoids_someToken (by decide)
  have opening : Avoids (.token .unknown) (token .doKw) := avoids_someToken (by decide)
  have closing : Avoids (.token .unknown) (token .endKw) := avoids_someToken (by decide)
  have body : Avoids (.token .unknown) (node .block) := avoids_someNode _ _
  exact inserted.mul (comma.optional.mul (inserted.mul ((comma.mul inserted).optional.mul
    (opening.optional.mul (body.mul closing.optional)))))

/-- In a loop over numbers an unknown token stands for the name, and nowhere else. -/
theorem exists_unknown_loop
    {slots : List Slot}
    (fits : slots ∈ Kind.form .numericForStmt)
    (shown : Slot.token .unknown ∈ slots) :
    ∃ behind, slots = .token .forKw :: .token .unknown :: .token .eq :: behind ∧
      Slot.token .unknown ∉ behind := by
  simp only [Kind.form, mul_assoc] at fits
  obtain ⟨opening, first, _, counted, rfl⟩ := Language.mem_mul.mp fits
  obtain ⟨_, ⟨counter, _, rfl⟩, _, assigned, rfl⟩ := Language.mem_mul.mp counted
  obtain ⟨assign, sign, behind, rest, rfl⟩ := Language.mem_mul.mp assigned
  obtain rfl := mem_token.mp first
  obtain rfl := mem_token.mp sign
  have absent : Slot.token .unknown ∉ behind := avoids_loopRest behind rest
  obtain rfl : counter = .unknown := by
    simpa [absent, eq_comm] using shown
  exact ⟨behind, rfl, absent⟩

end Form

namespace Node

/-- An unknown token in a formed node stands in an error, or for the name of a loop. -/
theorem error_or_loop_of_unknown
    {node : Node}
    (formed : node.element.shape.Formed)
    (shown : Slot.token .unknown ∈ node.slots) :
    node.kind = .error ∨ node.kind = .numericForStmt ∧
      ∃ behind, node.slots = .token .forKw :: .token .unknown :: .token .eq :: behind ∧
        Slot.token .unknown ∉ behind := by
  have fits := slots_mem_form formed
  by_cases isError : node.kind = .error
  · exact Or.inl isError
  by_cases isLoop : node.kind = .numericForStmt
  · rw [isLoop] at fits
    exact Or.inr ⟨isLoop, Form.exists_unknown_loop fits shown⟩
  · exact absurd shown (Kind.avoids_form isError isLoop _ fits)

end Node

namespace Grammar

/-- Words in which every unknown token stands between a `for` and a `=`. -/
inductive Masked : List Kind → Prop where
  | nothing : Masked []
  | known
      {kind : Kind}
      {kinds : List Kind}
      (isKnown : kind ≠ .unknown)
      (others : Masked kinds) :
      Masked (kind :: kinds)
  | counter
      {kinds : List Kind}
      (others : Masked kinds) :
      Masked (.forKw :: .unknown :: .eq :: kinds)

namespace Masked

attribute [grind ←] nothing known counter

@[grind ←]
theorem append
    {first second : List Kind}
    (front : Masked first)
    (back : Masked second) :
    Masked (first ++ second) := by
  induction front with
  | nothing => exact back
  | known isKnown _ ih => exact ih.known isKnown
  | counter _ ih => exact ih.counter

/-- What stands around an unknown token of a masked word. -/
theorem neighbours
    {word : List Kind}
    (masked : Masked word) :
    ∀ {before after : List Kind}, word = before ++ .unknown :: after →
      before.getLast? = some .forKw ∧ after.head? = some .eq := by
  induction masked with
  | nothing =>
      intro before after same
      simp at same
  | @known kind kinds isKnown _ ih =>
      intro before after same
      cases before with
      | nil => exact absurd (List.cons.inj same).1 isKnown
      | cons first before =>
          obtain ⟨last, next⟩ := ih (List.cons.inj same).2
          exact ⟨by simp [List.getLast?_cons, last], next⟩
  | @counter kinds others ih =>
      intro before after same
      match before, same with
      | [_], same =>
          cases same
          exact ⟨rfl, rfl⟩
      | _ :: _ :: _ :: before, same =>
          simp only [List.cons_append, List.cons.injEq] at same
          obtain ⟨last, next⟩ := ih same.2.2.2
          exact ⟨by simp [List.getLast?_cons, last], next⟩

end Masked

section Lists

variable {names : List Kind}

theorem NameTail.masked
    {separator : Kind}
    (isKnown : separator ≠ .unknown)
    (tail : NameTail separator names) :
    Masked names := by
  induction tail with
  | done => exact .nothing
  | more _ ih => grind

theorem FunctionName.masked (named : FunctionName names) : Masked names := by
  cases named with
  | plain fields | method fields => grind [fields.masked]

theorem Parameters.masked
    {strict : Bool}
    (parameters : Parameters strict names) :
    Masked names := by
  induction parameters with
  | _ => grind

theorem LocalName.masked (name : LocalName names) : Masked names := by
  cases name <;> grind

theorem LocalTail.masked (tail : LocalTail names) : Masked names := by
  induction tail with
  | done => exact .nothing
  | more first _ ih => grind [first.masked]

end Lists

/-- A grammar has one place for an unknown token: the name of a loop over numbers. -/
theorem Derives.masked
    {dialect : Dialect}
    {phrase : Phrase}
    {depth : Nat}
    {word : List Kind}
    (derives : Derives dialect phrase depth word) :
    Masked word := by
  induction derives with
  | @numericLoop _ _ counter _ _ _ _ _ ihLimits ihInside =>
      -- The name of the loop may be any token, an unknown one with the others.
      by_cases isKnown : counter = .unknown
      · subst isKnown
        grind
      · grind
  | genericLoop others _ _ ihValued ihInside => grind [others.masked]
  | function named _ ihInside => grind [named.masked]
  | localNames first others => grind [first.masked, others.masked]
  | localValues first others _ ihValued => grind [first.masked, others.masked]
  | functionBody parameters _ ihInside => grind [parameters.masked]
  | constant isConstant =>
      refine .known ?_ .nothing
      rintro rfl
      cases isConstant
  | unary isSign _ _ ihOperand =>
      refine .known ?_ ihOperand
      rintro rfl
      cases isSign
  | binary isSign _ _ _ ihLeft ihRight =>
      refine ihLeft.append (.known ?_ ihRight)
      rintro rfl
      cases isSign
  | _ => grind

end Grammar

open Grammar

/-- The tokens of a text without diagnostics are masked. -/
theorem masked_of_silent
    {text : Text}
    (silent : (parse text).diagnostics = []) :
    Masked ((tokenize text).map Token.kind) := by
  obtain ⟨kinds, tokens, absent⟩ := map_kind_tokenize text
  have quiet : (run (kinds ++ [.eof])).2 = [] := by
    rw [← tokens]
    exact (diagnostics_eq_nil_iff.mp silent).2
  obtain ⟨_, _, derives⟩ := derives_of_run_eq_nil absent quiet
  rw [tokens]
  exact derives.masked.append (.known (by decide) .nothing)

/--
Unknown tokens are rejected.  In the tree of every text each of them stands in an error node, but
for one that is taken for the name of a loop over numbers; and a text in which one stands
anywhere but between a `for` and a `=` has diagnostics.
-/
theorem unknown_rejected (text : Text) :
    (∃ root,
      (parse text).tree.roots = [root.element] ∧
      (parse text).chunk? = some root ∧
      ∀ node ∈ root.preorder, Slot.token .unknown ∈ node.slots →
        node.kind = .error ∨ node.kind = .numericForStmt ∧
          ∃ behind, node.slots = .token .forKw :: .token .unknown :: .token .eq :: behind ∧
            Slot.token .unknown ∉ behind) ∧
    ∀ before after, (tokenize text).map Token.kind = before ++ .unknown :: after →
      ¬ (before.getLast? = some .forKw ∧ after.head? = some .eq) →
        (parse text).diagnostics ≠ [] := by
  constructor
  · obtain ⟨chunk, roots, _⟩ := exists_chunk text
    have found : (parse text).chunk? = some chunk.node := by
      rw [Parse.chunk?, Chunk.root?_eq roots]
      rfl
    refine ⟨chunk.node, roots, found, fun node member shown => ?_⟩
    exact Node.error_or_loop_of_unknown (chunk.formed_of_mem_preorder member) shown
  · intro before after tokens apart silent
    exact apart ((masked_of_silent silent).neighbours tokens)

theorem unknown_rejected_assigned :
    (tokenize "x = $".toList).map Token.kind = [.name, .eq] ++ .unknown :: [.eof] ∧
      (parse "x = $".toList).diagnostics ≠ [] := by
  have tokens : (tokenize "x = $".toList).map Token.kind =
      [.name, .eq] ++ .unknown :: [.eof] := by
    decide +kernel
  exact ⟨tokens, (unknown_rejected _).2 [.name, .eq] [.eof] tokens (by decide)⟩

/-- A loop over numbers with an unknown token in the place of its name. -/
def unknownLoop : Text :=
  "for $ = 1, 2 do end".toList

theorem diagnostics_unknownLoop : (parse unknownLoop).diagnostics = [] :=
  diagnostics_eq_nil_iff.mpr (by decide +kernel)

/-- Nothing is reported for the unknown token, and no node of the tree is an error. -/
theorem not_rejected_unknownLoop :
    (parse unknownLoop).diagnostics = [] ∧
      ∃ root, (parse unknownLoop).chunk? = some root ∧
        (∃ node ∈ root.preorder, Slot.token .unknown ∈ node.slots) ∧
        ∀ node ∈ root.preorder, node.kind ≠ .error := by
  refine ⟨diagnostics_unknownLoop, ?_⟩
  have checked : (parse unknownLoop).chunk?.any (fun root =>
      root.preorder.any (fun node => Slot.token .unknown ∈ node.slots) &&
        root.preorder.all fun node => node.kind ≠ .error) = true := by
    decide +kernel
  obtain ⟨root, found, passed⟩ := (Option.any_eq_true _ _).mp checked
  simp only [Bool.and_eq_true, List.any_eq_true, List.all_eq_true, decide_eq_true_eq] at passed
  exact ⟨root, found, passed.1, passed.2⟩

end LuaFold
