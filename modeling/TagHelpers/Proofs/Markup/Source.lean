import TagHelpers.Proofs.Markup.BoundTree
import TagHelpers.Proofs.Markup.CodeValue

/-!
# Binding keeps the source

Binding the elements of a tree changes its source inside attribute values that become code, and
nowhere else. `Node.segments` cuts the source of a tree into the literals outside these values and
the values themselves.

* `Node.literals_segments`: the segments of a tree hold its literals, in their order.
* `Node.rewritten_segments`: so they do after binding, but for what becomes of the values.
* `literals_bindElements`: both together, and when the text of the source stays as it is.
-/

namespace TagHelpers

/-- A segment of the source of a tree. -/
inductive Segment where
  | literal (l : Literal)
  /-- The value of an attribute that becomes code. -/
  | value (pieces : List Piece)

namespace Segment

/-- The literals of a segment as written. -/
def literals : Segment → List Literal
  | literal l => [l]
  | value pieces => pieces.flatMap Piece.literals

/-- The literals of a segment after binding. -/
def rewritten : Segment → List Literal
  | literal l => [l]
  | value pieces => Piece.asCode pieces

/-- The transitions of a value after its first literal. -/
def lateTransitions : Segment → List Piece
  | literal _ => []
  | value pieces => (Piece.afterFirst pieces).filter Piece.isTransition

end Segment

/-- The segments of an attribute of a tag that is bound to tag helpers: its value is one if the
attribute is bound, takes something other than text and does not lack a key. -/
def Attribute.segments (helpers : List TagHelper) : Attribute → List Segment
  | .valued head frame value none _ =>
    if Attribute.takesCode (Classification.ofName head.name.text helpers) then
      (head.literals ++ frame.equals :: frame.opening.toList).map Segment.literal ++
        .value (piecesOf value) :: frame.closing.toList.map Segment.literal
    else
      (head.literals ++ frame.equals :: frame.opening.toList ++ literalsOf value ++
        frame.closing.toList).map Segment.literal
  | a => a.literals.map Segment.literal

/-- The segments of the attributes of a tag that is bound to tag helpers, up to the first entry that
does not belong into an attribute list. -/
def attributeSegmentsOf (tag : String) (helpers : List TagHelper) : List Attribute → List Segment
  | [] => []
  | a :: as =>
    match a.rejection? tag with
    | some _ => (attributeLiteralsOf (a :: as)).map Segment.literal
    | none => a.segments helpers ++ attributeSegmentsOf tag helpers as

mutual

/-- The segments of a tree. -/
def Node.segments (binder : Binder) (outer : Option Enclosing) : Node → List Segment
  | .text l | .transition l | .code l => [.literal l]
  | .directive d => d.literals.map Segment.literal
  | .block children _ => segmentsOf binder outer children
  | .implicit transition body _ =>
    transition.toList.map Segment.literal ++ segmentsOf binder outer body
  | .explicit d body _ | .statement d body _ =>
    .literal d.transition :: .literal d.opening :: segmentsOf binder outer body ++
      [.literal d.closing]
  | .element tag attributes children endTag none _ =>
    .literal tag.opening :: .literal tag.name ::
      (match tag.binding? attributes binder outer with
        | none => (attributeLiteralsOf attributes).map Segment.literal
        | some b => attributeSegmentsOf tag.name.text b.helpers attributes) ++
      .literal tag.closing ::
        segmentsOf binder (some (tag.enclosing (tag.binding? attributes binder outer))) children ++
      ((endTag.map EndTag.literals).getD []).map Segment.literal
  | .element tag attributes children endTag (some b) span =>
    (Node.element tag attributes children endTag (some b) span).literals.map Segment.literal

/-- The segments of several trees. -/
def segmentsOf (binder : Binder) (outer : Option Enclosing) : List Node → List Segment
  | [] => []
  | node :: nodes => node.segments binder outer ++ segmentsOf binder outer nodes

end

/-! ### As written -/

@[simp] theorem flatMap_literals_map (ls : List Literal) :
    (ls.map Segment.literal).flatMap Segment.literals = ls := by
  rw [List.flatMap_map]
  exact List.flatMap_singleton' ls

theorem Attribute.literals_segments (helpers : List TagHelper) (a : Attribute) :
    (a.segments helpers).flatMap Segment.literals = a.literals := by
  unfold Attribute.segments
  split
  · rw [Attribute.literals]
    split
    · rw [List.flatMap_append, List.flatMap_cons, flatMap_literals_map, flatMap_literals_map,
        Segment.literals, literalsOf_pieces]
      simp
    · exact flatMap_literals_map _
  · exact flatMap_literals_map _

theorem literals_attributeSegmentsOf (tag : String) (helpers : List TagHelper)
    (as : List Attribute) :
    (attributeSegmentsOf tag helpers as).flatMap Segment.literals = attributeLiteralsOf as := by
  induction as with
  | nil => rfl
  | cons a as ih =>
    rw [attributeSegmentsOf]
    split
    · exact flatMap_literals_map _
    · rw [List.flatMap_append, Attribute.literals_segments, ih, attributeLiteralsOf]

mutual

theorem Node.literals_segments (binder : Binder) : ∀ (outer : Option Enclosing) (node : Node),
    (node.segments binder outer).flatMap Segment.literals = node.literals
  | _, .text l => rfl
  | _, .transition l => rfl
  | _, .code l => rfl
  | _, .directive d => flatMap_literals_map d.literals
  | outer, .block children _ => by
    rw [Node.segments, Node.literals, literals_segmentsOf]
  | outer, .implicit transition body _ => by
    rw [Node.segments, Node.literals, List.flatMap_append, flatMap_literals_map,
      literals_segmentsOf]
  | outer, .explicit d body _ => by
    simp [Node.segments, Node.literals, Segment.literals, literals_segmentsOf binder outer body]
  | outer, .statement d body _ => by
    simp [Node.segments, Node.literals, Segment.literals, literals_segmentsOf binder outer body]
  | outer, .element tag attributes children endTag none _ => by
    have hchildren := literals_segmentsOf binder
      (some (tag.enclosing (tag.binding? attributes binder outer))) children
    rw [Node.segments, Node.literals]
    cases hb : tag.binding? attributes binder outer with
    | none => simp [Segment.literals, hb ▸ hchildren]
    | some b => simp [Segment.literals, hb ▸ hchildren, literals_attributeSegmentsOf]
  | _, .element _ _ _ _ (some _) _ => flatMap_literals_map _

theorem literals_segmentsOf (binder : Binder) : ∀ (outer : Option Enclosing) (nodes : List Node),
    (segmentsOf binder outer nodes).flatMap Segment.literals = literalsOf nodes
  | _, [] => rfl
  | outer, node :: nodes => by
    rw [segmentsOf, literalsOf, List.flatMap_append, Node.literals_segments, literals_segmentsOf]

end

/-! ### After binding -/

@[simp] theorem flatMap_rewritten_map (ls : List Literal) :
    (ls.map Segment.literal).flatMap Segment.rewritten = ls := by
  rw [List.flatMap_map]
  exact List.flatMap_singleton' ls

theorem Attribute.rewritten_segments (helpers : List TagHelper) (a : Attribute) :
    (a.segments helpers).flatMap Segment.rewritten = (a.bind helpers).literals := by
  cases a with
  | valued head frame value binding span =>
    cases binding with
    | some b => exact flatMap_rewritten_map _
    | none =>
      rw [Attribute.segments, Attribute.bind]
      simp only [Attribute.literals]
      split
      · rw [List.flatMap_append, List.flatMap_cons, flatMap_rewritten_map, flatMap_rewritten_map,
          Segment.rewritten, literalsOf_codeValue]
        simp
      · exact flatMap_rewritten_map _
  | minimized head binding span => cases binding <;> exact flatMap_rewritten_map _
  | misc children span => exact flatMap_rewritten_map _

theorem rewritten_attributeSegmentsOf (tag : String) (helpers : List TagHelper)
    (as : List Attribute) :
    (attributeSegmentsOf tag helpers as).flatMap Segment.rewritten =
      attributeLiteralsOf (Attribute.bindAll tag helpers as) := by
  induction as with
  | nil => rfl
  | cons a as ih =>
    rw [attributeSegmentsOf, Attribute.bindAll]
    cases a.rejection? tag with
    | some problem => exact flatMap_rewritten_map _
    | none =>
      simp only
      rw [List.flatMap_append, Attribute.rewritten_segments, ih, attributeLiteralsOf]

mutual

theorem Node.rewritten_segments (binder : Binder) : ∀ (outer : Option Enclosing) (node : Node),
    (node.segments binder outer).flatMap Segment.rewritten = (node.bindTags binder outer).literals
  | _, .text l => rfl
  | _, .transition l => rfl
  | _, .code l => rfl
  | _, .directive d => flatMap_rewritten_map d.literals
  | outer, .block children _ => by
    rw [Node.segments, Node.bindTags, Node.literals, rewritten_segmentsOf]
  | outer, .implicit transition body _ => by
    rw [Node.segments, Node.bindTags, Node.literals, List.flatMap_append, flatMap_rewritten_map,
      rewritten_segmentsOf]
  | outer, .explicit d body _ => by
    simp [Node.segments, Node.bindTags, Node.literals, Segment.rewritten,
      rewritten_segmentsOf binder outer body]
  | outer, .statement d body _ => by
    simp [Node.segments, Node.bindTags, Node.literals, Segment.rewritten,
      rewritten_segmentsOf binder outer body]
  | outer, .element tag attributes children endTag none _ => by
    have hchildren := rewritten_segmentsOf binder
      (some (tag.enclosing (tag.binding? attributes binder outer))) children
    rw [Node.segments, Node.bindTags]
    cases hb : tag.binding? attributes binder outer with
    | none => simp [Node.literals, Segment.rewritten, hb ▸ hchildren]
    | some b =>
      simp [Node.literals, Segment.rewritten, hb ▸ hchildren, rewritten_attributeSegmentsOf]
  | _, .element _ _ _ _ (some _) _ => flatMap_rewritten_map _

theorem rewritten_segmentsOf (binder : Binder) : ∀ (outer : Option Enclosing) (nodes : List Node),
    (segmentsOf binder outer nodes).flatMap Segment.rewritten =
      literalsOf (bindTagsAll binder outer nodes)
  | _, [] => rfl
  | outer, node :: nodes => by
    rw [segmentsOf, bindTagsAll, literalsOf, List.flatMap_append, Node.rewritten_segments,
      rewritten_segmentsOf]

end

theorem Segment.rewritten_eq_literals {s : Segment} (h : s.lateTransitions = []) :
    s.rewritten = s.literals := by
  cases s with
  | literal l => rfl
  | value pieces =>
    refine Piece.asCode_eq_literals fun p hp => ?_
    simpa using List.filter_eq_nil_iff.1 h p hp

/-- **Binding keeps the source.** The literals of a tree after binding are those before, text and
span, but inside the values of attributes that are bound, take something other than text and do not
lack a key. There the first literal stays, where statements, directives and elements do not count,
and every transition after it is dropped or emptied. So the text of the source stays as it is where
no such value has a transition after its first literal. -/
theorem literals_bindElements (tree : Node) (binder : Binder) (options : Options) :
    (tree.segments binder none).flatMap Segment.literals = tree.literals ∧
    (tree.segments binder none).flatMap Segment.rewritten =
      (tree.bindElements binder options).1.literals ∧
    ((∀ s ∈ tree.segments binder none, s.lateTransitions = []) →
      (tree.bindElements binder options).1.source = tree.source) := by
  rw [Node.bindElements_eq]
  have hliterals := tree.literals_segments binder none
  have hrewritten := tree.rewritten_segments binder none
  refine ⟨hliterals, hrewritten, fun h => ?_⟩
  unfold Node.source
  rw [← hliterals]
  refine congrArg textOf (hrewritten.symm.trans (List.flatMap_congr fun s hs => ?_))
  exact Segment.rewritten_eq_literals (h s hs)

namespace Sample

/-- A tag helper that binds the attribute `count` of `input`, which is a number. -/
def counter : TagHelper where
  place := 0
  descriptor :=
    { kind := .classic, name := "Counter", assemblyName := "Library"
      rules := [{ tagName := "input" }]
      boundAttributes := [{ name := "count", typeName := "int" }] }

def literal (text : String) : Literal := ⟨text, .stub⟩

/-- An element `input` whose attribute `count` has a value. -/
def input (value : List Node) : Node :=
  .element ⟨literal "<", literal "input", literal "/>", .stub⟩
    [.valued ⟨some (literal " "), literal "count"⟩
      ⟨literal "=", some (literal "'"), some (literal "'")⟩ value none .stub]
    [] none none .stub

/-- The expression `@(n)`. -/
def expression : Node :=
  .explicit ⟨literal "@", literal "(", literal ")"⟩ [.code (literal "n")] .stub

/-- Statements, of which there are none. -/
def statement : Node :=
  .statement ⟨literal "@", literal "\x7b", literal "\x7d"⟩ [] .stub

/-- A value that starts with a transition, where the statements before it do not count. -/
def early : Node := input [statement, expression]

/-- A value with a transition after its first literal. -/
def late : Node := input [.text (literal "1+"), expression]

end Sample

theorem source_bindElements_early :
    (∀ s ∈ Sample.early.segments (.ofHelpers none [Sample.counter]) none,
      s.lateTransitions = []) ∧
    (Sample.early.bindElements (.ofHelpers none [Sample.counter]) {}).1.source =
      Sample.early.source :=
  ⟨by decide, (literals_bindElements _ _ _).2.2 (by decide)⟩

example : (Sample.late.bindElements (.ofHelpers none [Sample.counter]) {}).1.source =
    "<input count='1+(n)'/>" := by
  decide +kernel

end TagHelpers
