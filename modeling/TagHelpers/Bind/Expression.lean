import TagHelpers.RenderTree.Basic
import TagHelpers.Text.Quoted

/-!
# Generated expressions

The code that a bind attribute stands for: the bound value, its change handler and the bound
expression itself.
-/

namespace TagHelpers

/-- A function of the runtime that generated code calls. -/
inductive RuntimeCall where
  /-- Formats a value. -/
  | getValue
  /-- Makes a delegate of a setter. -/
  | setValueHandler
  /-- Makes an event callback of a setter. -/
  | createBinder
  deriving DecidableEq, Repr

namespace RuntimeCall

/-- The qualified name of the function. -/
def name : RuntimeCall → String
  | getValue => "BindMethods.GetValue"
  | setValueHandler => "BindMethods.SetValueHandler"
  | createBinder => "EventCallback.Factory.CreateBinder"

/-- Whether the component is the first argument. -/
def takesReceiver : RuntimeCall → Bool
  | createBinder => true
  | getValue | setValueHandler => false

/-- A call with arguments. -/
def apply (f : RuntimeCall) (arguments : List String) : String :=
  f.name ++ "(" ++
    String.intercalate ", " ((if f.takesReceiver then ["this"] else []) ++ arguments) ++ ")"

end RuntimeCall

/-- The value of a bound expression, formatted if a format is given. -/
def valueExpression (expression : String) (format : Option String) : String :=
  RuntimeCall.getValue.apply (expression :: format.toList)

/-- The handler that sets a bound expression, made by a function of the runtime if one is given. -/
def changeExpression (call : Option RuntimeCall) (expression : String) (format : Option String) :
    String :=
  let setter := "__value => " ++ expression ++ " = __value"
  match call with
  | none => setter
  | some f => f.apply (setter :: expression :: format.toList)

/-- The bound expression as a function. -/
def expressionLambda (expression : String) : String :=
  "() => " ++ expression

namespace RenderTree

/-- The code of the value of an attribute, down to a depth. -/
def codeBelow (t : RenderTree) : Nat → NodeId → String
  | 0, _ => ""
  | depth + 1, id =>
    String.join ((t.children id).map fun child =>
      match t.kind child with
      | .htmlContent | .htmlValue _ => Text.literal (t.content child)
      | .token .html s => Text.literal s
      | .token .code s => s
      | _ => t.codeBelow depth child)

/-- The code of the value of an attribute: code as it is, and markup as string literals. -/
def attributeCode (t : RenderTree) (id : NodeId) : String :=
  t.codeBelow t.size id

end RenderTree

end TagHelpers
