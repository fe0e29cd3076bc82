import TagHelpers.Markup.CodeValue
import Mathlib.Data.List.Basic

/-!
# The fragments of a value

Turning a value into code hands one flag through blocks and expressions of any depth. What comes of
it can be said without the tree: `fragmentsOf` lists the value from left to right, literal by
literal and with statements, directives and elements in one fragment each, and `Fragment.asCode`
works on that list.

* `fragmentsOf_asCodeAll`: the fragments of the code are those of the value, but that every
  transition after the first literal is dropped or emptied.
* `allPureCode_asCodeAll`: neither text nor an expression in parentheses is left.
* `asCodeAll_asCodeAll`: doing it once more changes nothing.
* `isCodeOf_codeValue`: all of this for the value of an attribute.
-/

namespace TagHelpers

/-- A fragment of the value of an attribute. -/
inductive Fragment where
  /-- Text, code or a bracket. -/
  | plain (l : Literal)
  /-- A transition that stands by itself. -/
  | transition (l : Literal)
  /-- The transition of an expression. -/
  | lead (l : Literal)
  /-- A statement, a directive or an element, which is not entered. -/
  | whole (node : Node)

namespace Fragment

/-- The literals of a fragment. -/
def literals : Fragment → List Literal
  | plain l | transition l | lead l => [l]
  | whole node => node.literals

/-- Whether a fragment is a statement, a directive or an element. -/
def isWhole : Fragment → Bool
  | whole _ => true
  | _ => false

/-- What becomes of a fragment that a literal comes before. -/
def later : Fragment → List Fragment
  | plain l => [plain l]
  | transition l => [plain ⟨"", l.span⟩]
  | lead _ => []
  | whole node => [whole node]

/-- What becomes of the fragments of a value. The first literal stays as it is, whatever it is; of
the transitions after it, one that stands by itself is emptied and one of an expression is
dropped. -/
def asCode : List Fragment → List Fragment
  | [] => []
  | whole node :: fs => whole node :: asCode fs
  | f :: fs => f :: fs.flatMap later

/-- What becomes of fragments, `started` saying whether a literal comes before them. -/
def settle (started : Bool) (fs : List Fragment) : List Fragment :=
  if started then fs.flatMap later else asCode fs

theorem asCode_append (fs gs : List Fragment) :
    asCode (fs ++ gs) = asCode fs ++ settle (!fs.all isWhole) gs := by
  induction fs with
  | nil => rfl
  | cons f fs ih =>
    cases f with
    | whole node => simpa [asCode, isWhole] using ih
    | plain l => simp [asCode, isWhole, settle]
    | transition l => simp [asCode, isWhole, settle]
    | lead l => simp [asCode, isWhole, settle]

theorem settle_append (started : Bool) (fs gs : List Fragment) :
    settle started (fs ++ gs) = settle started fs ++ settle (started || !fs.all isWhole) gs := by
  cases started with
  | true => simp [settle]
  | false => exact asCode_append fs gs

end Fragment

mutual

/-- The fragments of a node of a value. -/
def Node.fragments : Node → List Fragment
  | .text l | .code l => [.plain l]
  | .transition l => [.transition l]
  | .block children _ => fragmentsOf children
  | .implicit transition body _ => transition.toList.map Fragment.lead ++ fragmentsOf body
  | .explicit d body _ =>
    .lead d.transition :: .plain d.opening :: fragmentsOf body ++ [.plain d.closing]
  | .directive d => [.whole (.directive d)]
  | .statement d body span => [.whole (.statement d body span)]
  | .element tag attributes children endTag binding span =>
    [.whole (.element tag attributes children endTag binding span)]

/-- The fragments of a value. -/
def fragmentsOf : List Node → List Fragment
  | [] => []
  | node :: nodes => node.fragments ++ fragmentsOf nodes

end

theorem literalsOf_append (nodes nodes' : List Node) :
    literalsOf (nodes ++ nodes') = literalsOf nodes ++ literalsOf nodes' := by
  induction nodes with
  | nil => rfl
  | cons node nodes ih => rw [List.cons_append, literalsOf, literalsOf, ih, List.append_assoc]

theorem fragmentsOf_append (nodes nodes' : List Node) :
    fragmentsOf (nodes ++ nodes') = fragmentsOf nodes ++ fragmentsOf nodes' := by
  induction nodes with
  | nil => rfl
  | cons node nodes ih => rw [List.cons_append, fragmentsOf, fragmentsOf, ih, List.append_assoc]

mutual

theorem Node.literals_fragments : ∀ node : Node,
    node.fragments.flatMap Fragment.literals = node.literals
  | .text l => rfl
  | .transition l => rfl
  | .code l => rfl
  | .directive d => by simp [Node.fragments, Fragment.literals]
  | .block children _ => by
    rw [Node.fragments, Node.literals, literalsOf_fragments]
  | .implicit transition body _ => by
    rw [Node.fragments, Node.literals, List.flatMap_append, literalsOf_fragments]
    cases transition <;> rfl
  | .explicit d body _ => by
    rw [Node.fragments, Node.literals, List.flatMap_append, List.flatMap_cons, List.flatMap_cons,
      literalsOf_fragments]
    rfl
  | .statement d body span => by simp [Node.fragments, Fragment.literals]
  | .element tag attributes children endTag binding span => by
    simp [Node.fragments, Fragment.literals]

/-- **The fragments of a value hold its literals**, in their order. -/
theorem literalsOf_fragments : ∀ nodes : List Node,
    (fragmentsOf nodes).flatMap Fragment.literals = literalsOf nodes
  | [] => rfl
  | node :: nodes => by
    rw [fragmentsOf, literalsOf, List.flatMap_append, Node.literals_fragments,
      literalsOf_fragments]

end

mutual

/-- Whether a node is free of text and of expressions in parentheses, where statements, directives
and elements are not entered. -/
def Node.isPureCode : Node → Bool
  | .text _ | .explicit .. => false
  | .transition _ | .code _ | .directive _ | .statement .. | .element .. => true
  | .block nodes _ | .implicit _ nodes _ => allPureCode nodes

/-- Whether all nodes are free of text and of expressions in parentheses. -/
def allPureCode : List Node → Bool
  | [] => true
  | node :: nodes => node.isPureCode && allPureCode nodes

end

theorem allPureCode_append (nodes nodes' : List Node) :
    allPureCode (nodes ++ nodes') = (allPureCode nodes && allPureCode nodes') := by
  induction nodes with
  | nil => rfl
  | cons node nodes ih => rw [List.cons_append, allPureCode, allPureCode, ih, Bool.and_assoc]

/-! ### What is kept -/

mutual

theorem Node.fragments_asCode (started : Bool) : ∀ node : Node,
    (node.asCode started).1.fragments = Fragment.settle started node.fragments ∧
      (node.asCode started).2 = (started || !node.fragments.all Fragment.isWhole)
  | .text l => by cases started <;> exact ⟨rfl, rfl⟩
  | .code l => by cases started <;> exact ⟨rfl, rfl⟩
  | .transition l => by cases started <;> exact ⟨rfl, rfl⟩
  | .directive d => by
    cases started <;> simp [Node.asCode, Node.fragments, Fragment.settle, Fragment.asCode,
      Fragment.later, Fragment.isWhole]
  | .block children span => by
    rw [Node.asCode, Node.fragments]
    simp only [Node.fragments]
    exact fragmentsOf_asCodeAll started children
  | .implicit transition body span => by
    -- where there is a transition, it is a literal, and the body comes after it
    have h := fragmentsOf_asCodeAll (started || transition.isSome) body
    rw [Node.asCode, Node.fragments]
    simp only [Node.fragments]
    rw [h.1, h.2, Fragment.settle_append]
    cases started <;> cases transition <;>
      simp [Fragment.settle, Fragment.asCode, Fragment.later, Fragment.isWhole]
  | .explicit d body span => by
    -- the transition or the opening bracket comes before the body in any case
    have h := (fragmentsOf_asCodeAll true body).1
    rw [Node.asCode, Node.fragments]
    simp only [Node.fragments]
    rw [List.cons_append, fragmentsOf, fragmentsOf_append, h]
    cases started <;> simp [Fragment.settle, Fragment.asCode, Fragment.later, Fragment.isWhole,
      Node.fragments, fragmentsOf]
  | .statement d body span => by
    cases started <;> simp [Node.asCode, Node.fragments, Fragment.settle, Fragment.asCode,
      Fragment.later, Fragment.isWhole]
  | .element tag attributes children endTag binding span => by
    cases started <;> simp [Node.asCode, Node.fragments, Fragment.settle, Fragment.asCode,
      Fragment.later, Fragment.isWhole]

/-- **The fragments of the code**, and whether a literal has come up to its end. -/
theorem fragmentsOf_asCodeAll (started : Bool) : ∀ nodes : List Node,
    fragmentsOf (asCodeAll started nodes).1 = Fragment.settle started (fragmentsOf nodes) ∧
      (asCodeAll started nodes).2 = (started || !(fragmentsOf nodes).all Fragment.isWhole)
  | [] => by cases started <;> exact ⟨rfl, rfl⟩
  | node :: nodes => by
    have h := Node.fragments_asCode started node
    have h' := fragmentsOf_asCodeAll (node.asCode started).2 nodes
    rw [asCodeAll, fragmentsOf]
    simp only [fragmentsOf]
    rw [h.1, h'.1, h'.2, h.2, Fragment.settle_append]
    refine ⟨rfl, ?_⟩
    simp [Bool.or_assoc]

end

/-! ### What is left -/

mutual

theorem Node.isPureCode_asCode (started : Bool) : ∀ node : Node,
    (node.asCode started).1.isPureCode = true
  | .text l => rfl
  | .code l => rfl
  | .transition l => by cases started <;> rfl
  | .directive d => rfl
  | .block children span => allPureCode_asCodeAll started children
  | .implicit transition body span => allPureCode_asCodeAll (started || transition.isSome) body
  | .explicit d body span => by
    have h := allPureCode_asCodeAll true body
    rw [Node.asCode]
    simp [Node.isPureCode, allPureCode, allPureCode_append, h]
  | .statement d body span => rfl
  | .element tag attributes children endTag binding span => rfl

theorem allPureCode_asCodeAll (started : Bool) : ∀ nodes : List Node,
    allPureCode (asCodeAll started nodes).1 = true
  | [] => rfl
  | node :: nodes => by
    rw [asCodeAll]
    simp only [allPureCode]
    rw [Node.isPureCode_asCode started node, allPureCode_asCodeAll, Bool.true_and]

end

theorem Node.span_asCode (started : Bool) (node : Node) :
    (node.asCode started).1.span = node.span := by
  cases node with
  | transition l => cases started <;> rfl
  | _ => rfl

theorem map_span_asCodeAll (nodes : List Node) : ∀ started : Bool,
    (asCodeAll started nodes).1.map Node.span = nodes.map Node.span := by
  induction nodes with
  | nil => intro started; rfl
  | cons node nodes ih =>
    intro started
    rw [asCodeAll]
    simp only [List.map_cons]
    rw [Node.span_asCode, ih]

/-! ### Once more -/

theorem asCodeAll_append (nodes nodes' : List Node) : ∀ started : Bool,
    asCodeAll started (nodes ++ nodes') =
      ((asCodeAll started nodes).1 ++ (asCodeAll (asCodeAll started nodes).2 nodes').1,
        (asCodeAll (asCodeAll started nodes).2 nodes').2) := by
  induction nodes with
  | nil => intro started; rfl
  | cons node nodes ih =>
    intro started
    rw [List.cons_append, asCodeAll, asCodeAll]
    simp only
    rw [ih]
    rfl

mutual

theorem Node.asCode_asCode (started : Bool) : ∀ node : Node,
    (node.asCode started).1.asCode started = node.asCode started
  | .text l => rfl
  | .code l => rfl
  | .transition l => by cases started <;> rfl
  | .directive d => rfl
  | .block children span => by
    have h := asCodeAll_asCodeAll started children
    rw [Node.asCode]
    simp only [Node.asCode]
    rw [h]
  | .implicit transition body span => by
    -- a transition is dropped only where a literal comes before it, and then it does not matter
    have h := asCodeAll_asCodeAll (started || transition.isSome) body
    rw [Node.asCode]
    simp only [Node.asCode]
    cases started with
    | true =>
      simp only [Bool.true_or] at h ⊢
      simp [h]
    | false =>
      simp only [Bool.false_or] at h ⊢
      simp [h]
  | .explicit d body span => by
    have h := asCodeAll_asCodeAll true body
    rw [Node.asCode]
    simp only [Node.asCode]
    cases started <;> simp [asCodeAll, Node.asCode, asCodeAll_append, h]
  | .statement d body span => rfl
  | .element tag attributes children endTag binding span => rfl

/-- **Code stays as it is.** -/
theorem asCodeAll_asCodeAll (started : Bool) : ∀ nodes : List Node,
    asCodeAll started (asCodeAll started nodes).1 = asCodeAll started nodes
  | [] => rfl
  | node :: nodes => by
    have h := Node.asCode_asCode started node
    have h' := asCodeAll_asCodeAll (node.asCode started).2 nodes
    rw [asCodeAll]
    simp only [asCodeAll]
    rw [h, h']

end

/-! ### Values -/

/-- `code` is what becomes of `value` as code. -/
structure IsCodeOf (value code : List Node) : Prop where
  fragments_eq : fragmentsOf code = Fragment.asCode (fragmentsOf value)
  pure : allPureCode code = true
  spans_eq : code.map Node.span = value.map Node.span
  stable : codeValue code = code

theorem isCodeOf_asCodeAll (value : List Node) : IsCodeOf value (asCodeAll false value).1 where
  fragments_eq := (fragmentsOf_asCodeAll false value).1
  pure := allPureCode_asCodeAll false value
  spans_eq := map_span_asCodeAll value false
  stable := congrArg Prod.fst (asCodeAll_asCodeAll false value)

/-- **Turning a value into code keeps the first transition only.** The literals of the code are
those of the value in their order, around the same statements, directives and elements. A transition
that is not the first literal is gone, where one that stands by itself leaves empty code of its
span. No text and no expression in parentheses is left outside these nodes. Place by place, the
nodes of the code have the spans of those of the value. Turning the code into code again changes
nothing. -/
theorem isCodeOf_codeValue (value : List Node) : IsCodeOf value (codeValue value) :=
  isCodeOf_asCodeAll value

end TagHelpers
