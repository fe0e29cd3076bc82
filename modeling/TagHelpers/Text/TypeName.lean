import TagHelpers.Text.Basic

/-!
# Qualified type names

A qualified name such as `App.Shared.Grid<System.String>` is a namespace and a type, divided by the
last dot that stands outside angle brackets. Namespaces are lists of segments between dots, and a
namespace is in scope wherever it is a leading part of the current one.
-/

namespace TagHelpers.TypeName

/-- The number of open angle brackets after a character. A closing bracket with nothing open
leaves the count at zero. -/
def nextDepth (depth : Nat) (c : Char) : Nat :=
  if c = '<' then depth + 1 else if c = '>' then depth - 1 else depth

/-- What stands before and after the last dot outside angle brackets, `depth` brackets being open
at the start. -/
def cutLast : Nat → List Char → Option (List Char × List Char)
  | _, [] => none
  | depth, c :: cs =>
    match cutLast (nextDepth depth c) cs with
    | some (before, after) => some (c :: before, after)
    | none => if c = '.' ∧ depth = 0 then some ([], cs) else none

/-- The namespace and the type of a qualified name. Without a dividing dot the namespace is the
global one, which is written as the empty text. -/
def split (name : String) : String × String :=
  match cutLast 0 name.toList with
  | some (space, type) => (String.ofList space, String.ofList type)
  | none => ("", name)

/-- Whether types of the namespace `space` are visible from `current` without being imported: each
segment of `space` is the corresponding leading segment of `current`. The global namespace always
is. -/
def inScope (space current : String) : Bool :=
  space == "" || (Text.splitAll '.' space).isPrefixOf (Text.splitAll '.' current)

end TagHelpers.TypeName
