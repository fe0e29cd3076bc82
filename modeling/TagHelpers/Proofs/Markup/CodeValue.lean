import TagHelpers.Proofs.Markup.Fragments

/-!
# Values turned into code

The value of an attribute is a tree, but what turning it into code does to its literals depends on
their order only. `piecesOf` lists the value from left to right, with statements, directives and
elements in one piece each.

* `literalsOf_codeValue`: the first of the other pieces stays as it is. After it, a transition that
  stands by itself is emptied, and one that starts an expression is dropped.
* `Piece.asCode_eq_literals`: where no transition comes after the first piece, nothing changes.
-/

namespace TagHelpers

/-- A piece of the value of an attribute. -/
inductive Piece where
  /-- Text, code or a bracket. -/
  | plain (l : Literal)
  /-- A transition that stands by itself. -/
  | transition (l : Literal)
  /-- The transition that starts an expression. -/
  | lead (l : Literal)
  /-- A statement, a directive or an element. -/
  | passed (ls : List Literal)
  deriving DecidableEq

namespace Piece

/-- The literals of a piece. -/
def literals : Piece → List Literal
  | plain l | transition l | lead l => [l]
  | passed ls => ls

/-- Whether a piece is a transition. -/
def isTransition : Piece → Bool
  | transition _ | lead _ => true
  | _ => false

/-- What becomes of a piece that another one comes before. -/
def later : Piece → List Literal
  | plain l => [l]
  | transition l => [⟨"", l.span⟩]
  | lead _ => []
  | passed ls => ls

/-- What becomes of the pieces of a value. Statements, directives and elements are passed over; the
first piece that is none of these stays as it is. -/
def asCode : List Piece → List Literal
  | [] => []
  | passed ls :: ps => ls ++ asCode ps
  | p :: ps => p.literals ++ ps.flatMap later

/-- The pieces after the first one, where those that are passed over do not count. -/
def afterFirst : List Piece → List Piece
  | [] => []
  | passed _ :: ps => afterFirst ps
  | _ :: ps => ps

end Piece

mutual

/-- The pieces of a node of a value. -/
def Node.pieces : Node → List Piece
  | .text l | .code l => [.plain l]
  | .transition l => [.transition l]
  | .block children _ => piecesOf children
  | .implicit transition body _ => transition.toList.map Piece.lead ++ piecesOf body
  | .explicit d body _ =>
    .lead d.transition :: .plain d.opening :: piecesOf body ++ [.plain d.closing]
  | .directive d => [.passed d.literals]
  | .statement d body span => [.passed (Node.statement d body span).literals]
  | .element tag attributes children endTag binding span =>
    [.passed (Node.element tag attributes children endTag binding span).literals]

/-- The pieces of a value. -/
def piecesOf : List Node → List Piece
  | [] => []
  | node :: nodes => node.pieces ++ piecesOf nodes

end

/-! ### Pieces and fragments -/

/-- What is left of a fragment where only literals count. -/
def Fragment.piece : Fragment → Piece
  | plain l => .plain l
  | transition l => .transition l
  | lead l => .lead l
  | whole node => .passed node.literals

theorem Fragment.literals_piece (f : Fragment) : f.piece.literals = f.literals := by
  cases f <;> rfl

mutual

theorem Node.pieces_eq : ∀ node : Node, node.pieces = node.fragments.map Fragment.piece
  | .text l => rfl
  | .transition l => rfl
  | .code l => rfl
  | .directive d => rfl
  | .block children _ => piecesOf_eq children
  | .implicit transition body _ => by
    rw [Node.pieces, Node.fragments, piecesOf_eq, List.map_append]
    cases transition <;> rfl
  | .explicit d body _ => by
    rw [Node.pieces, Node.fragments, piecesOf_eq, List.map_append, List.map_cons, List.map_cons]
    rfl
  | .statement d body span => rfl
  | .element tag attributes children endTag binding span => rfl

theorem piecesOf_eq : ∀ nodes : List Node, piecesOf nodes = (fragmentsOf nodes).map Fragment.piece
  | [] => rfl
  | node :: nodes => by
    rw [piecesOf, fragmentsOf, List.map_append, Node.pieces_eq, piecesOf_eq]

end

/-- **The pieces of a value hold its literals**, in their order. -/
theorem literalsOf_pieces (nodes : List Node) :
    (piecesOf nodes).flatMap Piece.literals = literalsOf nodes := by
  rw [piecesOf_eq, List.flatMap_map, ← literalsOf_fragments]
  exact List.flatMap_congr fun f _ => f.literals_piece

/-! ### Pieces as code -/

theorem Fragment.later_piece (f : Fragment) : f.piece.later = f.later.flatMap literals := by
  cases f with
  | whole node => exact (List.append_nil _).symm
  | _ => rfl

theorem Fragment.flatMap_later_piece (fs : List Fragment) :
    (fs.map piece).flatMap Piece.later = (fs.flatMap later).flatMap literals := by
  rw [List.flatMap_map, List.flatMap_assoc]
  exact List.flatMap_congr fun f _ => f.later_piece

theorem Fragment.asCode_piece (fs : List Fragment) :
    Piece.asCode (fs.map piece) = (asCode fs).flatMap literals := by
  induction fs with
  | nil => rfl
  | cons f fs ih =>
    cases f with
    | whole node => exact congrArg _ ih
    | plain l => exact congrArg _ (flatMap_later_piece fs)
    | transition l => exact congrArg _ (flatMap_later_piece fs)
    | lead l => exact congrArg _ (flatMap_later_piece fs)

/-- **What turning a value into code does to its literals.** -/
theorem literalsOf_codeValue (value : List Node) :
    literalsOf (codeValue value) = Piece.asCode (piecesOf value) := by
  have h : fragmentsOf (codeValue value) = _ := (fragmentsOf_asCodeAll false value).1
  rw [← literalsOf_fragments, h, piecesOf_eq, Fragment.asCode_piece]
  rfl

/-! ### Text -/

theorem Piece.flatMap_later {ps : List Piece} (h : ∀ p ∈ ps, p.isTransition = false) :
    ps.flatMap Piece.later = ps.flatMap Piece.literals := by
  refine List.flatMap_congr fun p hp => ?_
  cases p with
  | plain l => rfl
  | passed ls => rfl
  | transition l => cases h _ hp
  | lead l => cases h _ hp

/-- **A value without transitions after its first piece stays as it is.** -/
theorem Piece.asCode_eq_literals {ps : List Piece}
    (h : ∀ p ∈ Piece.afterFirst ps, p.isTransition = false) :
    Piece.asCode ps = ps.flatMap Piece.literals := by
  induction ps with
  | nil => rfl
  | cons p ps ih =>
    cases p with
    | passed ls => rw [asCode, ih h, List.flatMap_cons, literals]
    | plain l => exact congrArg _ (flatMap_later h)
    | transition l => exact congrArg _ (flatMap_later h)
    | lead l => exact congrArg _ (flatMap_later h)

end TagHelpers
