import TagHelpers.Markup.Source

/-!
# Attribute values as code

The value of a bound attribute that does not take text is code, whatever mixture of markup and
expressions it is written in. `asCode` turns it into code: markup text becomes code of the same
span, and of the transitions only one that starts the value is kept. Statements, directives and
elements inside the value stay as they are.
-/

namespace TagHelpers

mutual

/-- A node as code, `started` saying whether any code came before it. Also returns whether any code
came up to its end. -/
def Node.asCode (started : Bool) : Node → Node × Bool
  | .text l => (.code l, true)
  | .code l => (.code l, true)
  | .transition l => (if started then .code ⟨"", l.span⟩ else .transition l, true)
  | .directive d => (.directive d, started)
  | .block children span =>
    let (children, started) := asCodeAll started children
    (.block children span, started)
  | .implicit transition body span =>
    let (body, started') := asCodeAll (started || transition.isSome) body
    (.implicit (if started then none else transition) body span, started')
  | .explicit d body span =>
    let (body, _) := asCodeAll true body
    (.implicit (if started then none else some d.transition)
      (.code d.opening :: body ++ [.code d.closing]) span, true)
  | .statement d body span => (.statement d body span, started)
  | .element tag attributes children endTag binding span =>
    (.element tag attributes children endTag binding span, started)

/-- Nodes as code, from left to right. -/
def asCodeAll (started : Bool) : List Node → List Node × Bool
  | [] => ([], started)
  | node :: nodes =>
    let (node, started) := node.asCode started
    let (nodes, started) := asCodeAll started nodes
    (node :: nodes, started)

end

/-- The value of an attribute as code. -/
def codeValue (value : List Node) : List Node :=
  (asCodeAll false value).1

/-- The code of a node of a value: its source without the transition that it starts with. -/
def Node.codeLiterals : Node → List Literal
  | .implicit _ body _ => literalsOf body
  | .transition _ => []
  | node => node.literals

/-- The code of a value: its source without the transitions of its nodes. -/
def codeText (value : List Node) : String :=
  textOf (value.flatMap Node.codeLiterals)

end TagHelpers
