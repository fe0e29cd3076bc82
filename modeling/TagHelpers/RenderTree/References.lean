import TagHelpers.RenderTree.Basic

/-!
# References

A reference is a node together with the parent in whose list of children it stands. References are
found parent by parent, so that all children of a parent come before what is below the first of them.
They are then sorted by the places of their nodes in the document, a node that is attached in several
places counting where it comes last.
-/

namespace TagHelpers

/-- A node and its parent. -/
structure Reference where
  parent : NodeId
  node : NodeId
  deriving DecidableEq, Repr

namespace RenderTree

/-- The attached nodes other than the root that satisfy a predicate, parent by parent. -/
def referencesByParent (t : RenderTree) (p : RenderNode → Bool) : List Reference :=
  t.preorder.flatMap fun parent =>
    ((t.children parent).filter fun child => p (t.node child)).map (⟨parent, ·⟩)

/-- Gives a node the next place. -/
def placeAt (s : Array Nat × Nat) (id : NodeId) : Array Nat × Nat :=
  (s.1.setIfInBounds id s.2, s.2 + 1)

/-- The places of the nodes in the order of the document. A node that is attached in several places
has the last of them, and one that is not attached is behind all others. -/
def places (t : RenderTree) : Array Nat :=
  (t.preorder.foldl placeAt (Array.replicate t.size t.preorder.length, 0)).1

/-- Puts a reference in front of the first one whose node is not before its own. -/
def insertByPlace (places : Array Nat) (r : Reference) : List Reference → List Reference
  | [] => [r]
  | r' :: rs =>
    if places.getD r.node 0 ≤ places.getD r'.node 0 then r :: r' :: rs
    else r' :: insertByPlace places r rs

/-- References sorted by the places of their nodes. Those to one node stay in their order. -/
def sortByPlace (places : Array Nat) (refs : List Reference) : List Reference :=
  refs.foldr (insertByPlace places) []

/-- The attached nodes other than the root that satisfy a predicate, in the order of the
document. -/
def references (t : RenderTree) (p : RenderNode → Bool) : List Reference :=
  sortByPlace t.places (t.referencesByParent p)

end RenderTree

end TagHelpers
