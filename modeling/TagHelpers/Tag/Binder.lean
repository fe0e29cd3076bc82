import TagHelpers.Tag.Binding

/-!
# The binder

The binder finds what a start tag is bound to. It indexes the tag helpers of a document by the tag
names of their rules, with ASCII case folded, and keeps those that match any tag apart; a tag helper
is a candidate once, however many of its rules lead to it.
-/

namespace TagHelpers

/-- An index of tag helpers by the tags that they match. -/
structure Binder where
  /-- What the names of bound tags start with. -/
  tagPrefix : Option String := none
  /-- The tag helpers with a rule for a tag, under its folded name. -/
  byTag : List (List Char × List TagHelper) := []
  /-- The tag helpers with a rule for any tag. -/
  catchAll : List TagHelper := []

namespace Binder

/-- Adds a tag helper at the end of a list, unless it is there already. -/
def addOnce (helpers : List TagHelper) (h : TagHelper) : List TagHelper :=
  if helpers.contains h then helpers else helpers ++ [h]

/-- Adds a tag helper under a key. -/
def addUnder (key : List Char) (h : TagHelper) :
    List (List Char × List TagHelper) → List (List Char × List TagHelper)
  | [] => [(key, [h])]
  | (k, helpers) :: rest =>
    if k = key then (k, addOnce helpers h) :: rest else (k, helpers) :: addUnder key h rest

/-- Indexes a tag helper under the tag of one of its rules. -/
def addRule (h : TagHelper) (b : Binder) (r : MatchingRule) : Binder :=
  if r.isCatchAll then { b with catchAll := addOnce b.catchAll h }
  else { b with byTag := addUnder (Casing.folded.key r.tagName) h b.byTag }

/-- Indexes a tag helper under the tags of all its rules. -/
def add (b : Binder) (h : TagHelper) : Binder :=
  h.descriptor.rules.foldl (addRule h) b

/-- The index of a list of tag helpers. -/
def ofHelpers (tagPrefix : Option String) (helpers : List TagHelper) : Binder :=
  helpers.foldl add { tagPrefix }

/-- The name of a tag without the prefix, unless the tag does not have the prefix or nothing
else. -/
def strip? (b : Binder) (tag : String) : Option String :=
  match b.tagPrefix with
  | none => some tag
  | some p =>
    if p.utf8ByteSize < tag.utf8ByteSize && Casing.folded.startsWith tag p then
      (Text.dropBytes? p.utf8ByteSize tag.toList).map String.ofList
    else none

/-- The name of a parent that rules are matched against: without the prefix when the parent is
itself bound and has one. -/
def parentName (b : Binder) (parent : Option String) (parentIsBound : Bool) : Option String :=
  parent.map fun p => if parentIsBound then (b.strip? p).getD p else p

/-- The tag helpers that may match a tag: those with a rule for it, then those with a rule for any
tag. -/
def candidates (b : Binder) (name : String) : List TagHelper :=
  b.catchAll.foldl addOnce ((b.byTag.lookup (Casing.folded.key name)).getD [])

/-- What a start tag is bound to. -/
def bind? (b : Binder) (tag : String) (attributes : AttributePairs) (parent : Option String)
    (parentIsBound : Bool) : Option Binding := do
  let name ← b.strip? tag
  let parent := b.parentName parent parentIsBound
  let helperMatches := (b.candidates name).filterMap fun h =>
    match h.descriptor.matchingRules name parent attributes with
    | [] => none
    | rules => some ⟨h, rules⟩
  if helperMatches.isEmpty then none
  else some { tagName := tag, parentTag := parent, tagPrefix := b.tagPrefix, helperMatches }

end Binder

end TagHelpers
