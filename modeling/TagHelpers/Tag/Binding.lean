import TagHelpers.Catalog
import TagHelpers.Tag.Rule
import TagHelpers.Text.Basic

/-!
# Bindings

A binding is what a start tag is bound to: the tag helpers that match it, each with the rules that
the tag satisfies. It says how the tag is closed and which children it allows.
-/

namespace TagHelpers

/-- The list without later occurrences of an element that is there already. -/
def unique {α : Type} (same : α → α → Bool) (xs : List α) : List α :=
  xs.foldl (fun seen x => if seen.any (same · x) then seen else seen ++ [x]) []

/-- How an element is closed. -/
inductive TagMode where
  | startAndEnd
  | startOnly
  | selfClosing
  deriving DecidableEq, Repr, Inhabited

namespace TagMode

/-- All modes. -/
def all : List TagMode := [startAndEnd, startOnly, selfClosing]

/-- The name of a mode. -/
def name : TagMode → String
  | startAndEnd => "StartTagAndEndTag"
  | startOnly => "StartTagOnly"
  | selfClosing => "SelfClosing"

end TagMode

/-- A tag helper with the rules that a tag satisfies. -/
structure HelperMatch where
  helper : TagHelper
  rules : List MatchingRule
  deriving DecidableEq

/-- What a start tag is bound to. -/
structure Binding where
  /-- The name of the tag as written. -/
  tagName : String
  parentTag : Option String := none
  tagPrefix : Option String := none
  helperMatches : List HelperMatch
  deriving DecidableEq

namespace Binding

/-- The tag helpers in order. -/
def helpers (b : Binding) : List TagHelper :=
  b.helperMatches.map (·.helper)

/-- The name of the tag without the prefix of tag helpers. -/
def bareName (b : Binding) : String :=
  match b.tagPrefix with
  | none => b.tagName
  | some p => String.ofList ((Text.dropBytes? p.utf8ByteSize b.tagName.toList).getD [])

/-- How the element is closed. That it closes itself counts more than what the rules say. -/
def mode (b : Binding) (selfClosing : Bool) : TagMode :=
  if selfClosing then .selfClosing
  else if b.helperMatches.any fun m => m.rules.any (·.tagStructure == .withoutEndTag) then
    .startOnly
  else .startAndEnd

/-- The child tags that the tag helpers allow, unless none of them restricts the children. Tags
that differ in case only are listed once. -/
def allowedChildren? (b : Binding) : Option (List String) :=
  let restricting := b.helpers.filter fun h => !h.descriptor.allowedChildTags.isEmpty
  if restricting.isEmpty then none
  else
    some (unique Casing.folded.same (restricting.flatMap fun h => h.descriptor.allowedChildTags))

end Binding

end TagHelpers
