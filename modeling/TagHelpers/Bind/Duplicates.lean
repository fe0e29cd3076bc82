import TagHelpers.RenderTree.Basic

/-!
# Several bind attributes of one name

Several bind tag helpers may bind one attribute of an element. Those that give way to a more
specific one are dropped first, the last one first. If several are left, none of them can be
preferred: the conflict is reported on the element and all of them are dropped.
-/

namespace TagHelpers

/-- A bind attribute of an element. -/
structure BindCandidate where
  node : NodeId
  name : String
  helper : TagHelper
  deriving DecidableEq

namespace BindCandidate

/-- Whether a tag helper gives way to another one. -/
def yields (d other : Descriptor) : Bool :=
  (d.isFallbackBind && !other.isFallbackBind) ||
    (d.isInputFallbackBind && other.isInputBind && !other.isInputFallbackBind)

/-- Whether a candidate gives way to another one of its name. -/
def isShadowedBy (c other : BindCandidate) : Bool :=
  other.node != c.node && other.name == c.name && yields c.helper.descriptor other.helper.descriptor

/-- Divides the candidates after `before` into those that stay and those that are dropped. Whether
one is dropped is decided after all that come after it, and the dropped ones are listed in that
order. -/
def dropShadowed (before : List BindCandidate) :
    List BindCandidate → List BindCandidate × List BindCandidate
  | [] => ([], [])
  | c :: rest =>
    let (kept, dropped) := dropShadowed (before ++ [c]) rest
    if (before ++ c :: kept).any c.isShadowedBy then (kept, dropped ++ [c])
    else (c :: kept, dropped)

end BindCandidate

namespace RenderTree

/-- The bind attributes of an element. -/
def bindCandidates (t : RenderTree) (parent : NodeId) : List BindCandidate :=
  (t.children parent).filterMap fun id =>
    match (t.node id).property? with
    | some p => if p.helper.descriptor.isBind then some ⟨id, p.attributeName, p.helper⟩ else none
    | none => none

/-- Detaches candidates from their element. -/
def detachAll (t : RenderTree) (parent : NodeId) (cs : List BindCandidate) : RenderTree :=
  cs.foldl (fun t c => (t.detachChild parent c.node).1) t

/-- Reports and detaches the candidates of a name, if there are several. -/
def resolveConflict (parent : NodeId) (kept : List BindCandidate) (t : RenderTree)
    (name : String) : RenderTree :=
  let members := kept.filter (·.name == name)
  if members.length ≤ 1 then t
  else
    let helpers := String.intercalate ", " (members.map (·.helper.descriptor.name))
    let diagnostic := (Problem.duplicateBind name helpers).report (t.node parent).spanOrStub
    (t.addDiagnostic parent diagnostic).detachAll parent members

/-- Resolves the bind attributes of one name on an element. -/
def resolveDuplicates (t : RenderTree) (parent : NodeId) : RenderTree :=
  let (kept, dropped) := BindCandidate.dropShadowed [] (t.bindCandidates parent)
  let names := unique (· == ·) (kept.map (·.name))
  names.foldl (resolveConflict parent kept) (t.detachAll parent dropped)

end RenderTree

end TagHelpers
