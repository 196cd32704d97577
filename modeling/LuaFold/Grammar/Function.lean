import LuaFold.Grammar.State

/-!
# Function bodies

A function body is a list of parameters in parentheses, a block and the closing `end`.  The
list may end with `...`, which nothing follows.
-/

namespace LuaFold.Grammar

/-- One parameter and the comma behind it. -/
def parameter (state : State) : Turn State :=
  if state.isAt .rightParen || state.isAt .eof then .last state
  else if state.isAt .name then
    let named := state.start.advance.complete .param
    if named.isAt .comma then .next named.advance else .last named
  else if state.isAt .dot3 then .last (state.start.advance.complete .param)
  else .last (state.report .expectedParameterName)

/-- The parameters of a function in parentheses. -/
def parameters (state : State) : State :=
  ((state.start.advance.loop parameter).expect .rightParen).complete .paramList

/-- The parameters, the block and the `end` of a function. -/
def functionBody (deeper : Deeper) (state : State) : State :=
  let opened := state.start
  let headed :=
    if opened.isAt .leftParen then parameters opened else opened.report (.expected .leftParen)
  ((deeper.nestedBlock headed).expect .endKw).complete .funcBody

end LuaFold.Grammar
