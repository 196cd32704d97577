import LuaFold.Tree.Element

/-!
# Actions of a parse

A parse decides the shape of its tree through a list of actions over the tokens of the text.
An action starts a node, takes the next token, completes the node started last under a kind
that is known only then, gives the node up and leaves what it holds to the enclosing node, or
starts a node around the element that was finished last.

Performing the actions needs one list of elements for every node that is open.
-/

namespace LuaFold

/-- One decision about the shape of a tree. -/
inductive Action where
  | start
  | advance
  | complete (kind : Kind)
  | abandon
  | precede
deriving DecidableEq, Repr

/--
Trees being put together: the tokens still to come and, innermost first, the elements of
every open node, newest first.  The last list holds what belongs to no node.
-/
structure Assembly where
  tokens : List Token
  frames : List (List Element)

namespace Assembly

/-- Nothing put together yet. -/
def new (tokens : List Token) : Assembly :=
  ⟨tokens, [[]]⟩

/-- Perform one action.  Actions that do not fit change nothing. -/
def perform (assembly : Assembly) : Action → Assembly
  | .start => ⟨assembly.tokens, [] :: assembly.frames⟩
  | .advance =>
    match assembly.tokens, assembly.frames with
    | token :: tokens, frame :: frames => ⟨tokens, (.token token :: frame) :: frames⟩
    | _, _ => assembly
  | .complete kind =>
    match assembly.frames with
    | inner :: outer :: frames =>
      ⟨assembly.tokens, (.branch kind inner.reverse :: outer) :: frames⟩
    | _ => assembly
  | .abandon =>
    match assembly.frames with
    | inner :: outer :: frames => ⟨assembly.tokens, (inner ++ outer) :: frames⟩
    | _ => assembly
  | .precede =>
    match assembly.frames with
    | (last :: frame) :: frames => ⟨assembly.tokens, [last] :: frame :: frames⟩
    | _ => assembly

/-- Perform actions in order. -/
def performAll (assembly : Assembly) (actions : List Action) : Assembly :=
  actions.foldl perform assembly

@[simp]
theorem performAll_nil (assembly : Assembly) : assembly.performAll [] = assembly :=
  rfl

@[simp]
theorem performAll_cons
    (assembly : Assembly)
    (action : Action)
    (actions : List Action) :
    assembly.performAll (action :: actions) = (assembly.perform action).performAll actions :=
  rfl

theorem performAll_append
    (assembly : Assembly)
    (first second : List Action) :
    assembly.performAll (first ++ second) = (assembly.performAll first).performAll second :=
  List.foldl_append

/-- The elements that belong to no open node, in the order of the text. -/
def roots (assembly : Assembly) : List Element :=
  (assembly.frames.getLastD []).reverse

end Assembly

/-- The elements that actions put together from tokens. -/
def Action.assemble (actions : List Action) (tokens : List Token) : List Element :=
  ((Assembly.new tokens).performAll actions).roots

end LuaFold
