import TagHelpers.Markup.BoundTree
import Mathlib.Data.List.Basic

/-!
# Binding in context

The visitor works on a stack and a set of its own. What it does to a node can be said without them:
`Node.bindTags` is what becomes of a node and `Node.findings` what is found in it, given the element
around it. `report` turns findings into diagnostics.

The visitor finds a tag helper wherever it binds an element, but remembers those only that have
diagnostics of their own. So what it remembers and what was found before agree on these tag helpers
alone (`Visitor.Knows`). This and the stack are kept on the way through a tree.

* `Visitor.Gives`: what a part of the visit gives, for the element around it.
* `Visitor.gives_bindElement`: the step, at an element.
* `Node.gives_visit`: hence what the visit of a node gives.
* `Node.bindElements_eq`: hence what becomes of a tree, and what is reported about it.
-/

namespace TagHelpers

/-! ### What becomes of a node -/

/-- What an element is to its children. -/
def StartTag.enclosing (tag : StartTag) : Option Binding → Enclosing
  | none => ⟨tag.name.text, false, none⟩
  | some b => ⟨tag.name.text, true, b.allowedChildren?⟩

mutual

/-- A tree with what its elements are bound to. -/
def Node.bindTags (binder : Binder) (outer : Option Enclosing) : Node → Node
  | .block children span => .block (bindTagsAll binder outer children) span
  | .implicit transition body span => .implicit transition (bindTagsAll binder outer body) span
  | .explicit d body span => .explicit d (bindTagsAll binder outer body) span
  | .statement d body span => .statement d (bindTagsAll binder outer body) span
  | .element tag attributes children endTag none span =>
    let binding := tag.binding? attributes binder outer
    let children := bindTagsAll binder (some (tag.enclosing binding)) children
    match binding with
    | none => .element tag attributes children endTag none span
    | some b =>
      .element tag (Attribute.bindAll tag.name.text b.helpers attributes) children endTag
        (some ⟨b.mode tag.isSelfClosing, b.helpers⟩) span
  | node => node

/-- Trees with what their elements are bound to. -/
def bindTagsAll (binder : Binder) (outer : Option Enclosing) : List Node → List Node
  | [] => []
  | node :: nodes => node.bindTags binder outer :: bindTagsAll binder outer nodes

end

/-! ### What is found in a node -/

/-- Something found in a tree. -/
inductive Finding where
  /-- A problem of the tree. -/
  | problem (d : Diagnostic)
  /-- A tag helper that binds an element with a name at `span`. -/
  | helper (h : TagHelper) (span : Span)

/-- What is found about the tag of a bound element. -/
def StartTag.findings (tag : StartTag) (attributes : List Attribute) (endTag : Option EndTag)
    (options : Options) (b : Binding) : List Finding :=
  ((tag.closingProblem? endTag b).toList.map Finding.problem) ++
    b.helpers.map (Finding.helper · tag.name.span) ++
    (Attribute.problems tag.name.text b.helpers options attributes).map Finding.problem

mutual

/-- What is found in a tree, in the order of its nodes. -/
def Node.findings (binder : Binder) (options : Options) (outer : Option Enclosing) :
    Node → List Finding
  | .text l => (l.contentProblem? options outer).toList.map Finding.problem
  | .block children _ => findingsAll binder options outer children
  | .implicit _ body _ | .explicit _ body _ | .statement _ body _ =>
    findingsAll binder options outer body
  | .element tag attributes children endTag none _ =>
    let binding := tag.binding? attributes binder outer
    (tag.nestingProblem? binder options outer).toList.map Finding.problem ++
      (match binding with
        | none => []
        | some b => tag.findings attributes endTag options b) ++
      findingsAll binder options (some (tag.enclosing binding)) children
  | _ => []

/-- What is found in several trees. -/
def findingsAll (binder : Binder) (options : Options) (outer : Option Enclosing) :
    List Node → List Finding
  | [] => []
  | node :: nodes =>
    node.findings binder options outer ++ findingsAll binder options outer nodes

end

/-- The diagnostics of findings. The diagnostics of a tag helper are given where it is found
first, `seen` being the tag helpers found before. -/
def report (seen : List TagHelper) : List Finding → List Diagnostic
  | [] => []
  | .problem d :: rest => d :: report seen rest
  | .helper h span :: rest =>
    if seen.contains h then report seen rest
    else h.diagnosticsAt span ++ report (h :: seen) rest

/-! ### One finding after another -/

/-- The tag helpers that are known after findings, if some were known before. -/
def knownAfter (seen : List TagHelper) : List Finding → List TagHelper
  | [] => seen
  | .problem _ :: rest => knownAfter seen rest
  | .helper h _ :: rest => knownAfter (if seen.contains h then seen else h :: seen) rest

theorem report_append (seen : List TagHelper) (fs gs : List Finding) :
    report seen (fs ++ gs) = report seen fs ++ report (knownAfter seen fs) gs := by
  induction fs generalizing seen with
  | nil => rfl
  | cons f fs ih =>
    cases f with
    | problem d => rw [List.cons_append, report, report, ih, List.cons_append, knownAfter]
    | helper h span =>
      rw [List.cons_append, report, report, knownAfter]
      split_ifs with hseen
      · exact ih seen
      · rw [ih, List.append_assoc]

theorem knownAfter_append (seen : List TagHelper) (fs gs : List Finding) :
    knownAfter seen (fs ++ gs) = knownAfter (knownAfter seen fs) gs := by
  induction fs generalizing seen with
  | nil => rfl
  | cons f fs ih =>
    cases f with
    | problem d => exact ih seen
    | helper h span => exact ih _

theorem report_map_problem (seen : List TagHelper) (ds : List Diagnostic) (fs : List Finding) :
    report seen (ds.map .problem ++ fs) = ds ++ report seen fs := by
  induction ds with
  | nil => rfl
  | cons d ds ih => rw [List.map_cons, List.cons_append, report, ih, List.cons_append]

theorem knownAfter_map_problem (seen : List TagHelper) (ds : List Diagnostic) :
    knownAfter seen (ds.map .problem) = seen := by
  induction ds with
  | nil => rfl
  | cons d ds ih => exact ih

namespace Visitor

variable {s s' s'' : Visitor} {fs gs : List Finding} {α β : Type}

/-! ### What the visitor remembers -/

/-- That the visitor remembers, of the tag helpers with diagnostics of their own, those that were
seen. -/
def Knows (s : Visitor) (seen : List TagHelper) : Prop :=
  ∀ h : TagHelper, h.descriptor.diagnostics ≠ [] → (h ∈ s.reported ↔ h ∈ seen)

/-- The way of the visitor from `s` to `s'`, on which it finds `fs`: the same elements are open, and
what is found is reported behind what was. -/
structure Finds (s : Visitor) (fs : List Finding) (s' : Visitor) : Prop where
  stack_eq : s'.stack = s.stack
  diagnostics_eq : ∀ seen, s.Knows seen → s'.diagnostics = s.diagnostics ++ report seen fs
  knows : ∀ seen, s.Knows seen → s'.Knows (knownAfter seen fs)

theorem Finds.refl (s : Visitor) : s.Finds [] s :=
  ⟨rfl, fun _ _ => (List.append_nil _).symm, fun _ h => h⟩

theorem Finds.trans (h : s.Finds fs s') (h' : s'.Finds gs s'') : s.Finds (fs ++ gs) s'' where
  stack_eq := h'.stack_eq.trans h.stack_eq
  diagnostics_eq seen hs := by
    rw [h'.diagnostics_eq _ (h.knows seen hs), h.diagnostics_eq seen hs, report_append,
      List.append_assoc]
  knows seen hs := by
    rw [knownAfter_append]
    exact h'.knows _ (h.knows seen hs)

/-- An element that is opened and closed again does not show. -/
theorem Finds.within {e : Enclosing} (h : ((push e).run s).2.Finds fs s') :
    s.Finds fs (pop.run s').2 where
  stack_eq := congrArg List.tail h.stack_eq
  diagnostics_eq := h.diagnostics_eq
  knows := h.knows

theorem finds_add (s : Visitor) (ds : List Diagnostic) :
    s.Finds (ds.map .problem) ((add ds).run s).2 where
  stack_eq := rfl
  diagnostics_eq seen _ := by
    have h := report_map_problem seen ds []
    rw [List.append_nil, report, List.append_nil] at h
    rw [h]
    rfl
  knows seen hs := by
    rw [knownAfter_map_problem]
    exact hs

theorem finds_introduce (s : Visitor) (span : Span) (h : TagHelper) :
    s.Finds [.helper h span] ((introduce span h).run s).2 := by
  have hrun : ((introduce span h).run s).2 =
      if h.descriptor.diagnostics.isEmpty || s.reported.contains h then s
      else { s with reported := h :: s.reported
                    diagnostics := s.diagnostics ++ h.diagnosticsAt span } := rfl
  rw [hrun]
  by_cases hempty : h.descriptor.diagnostics = []
  · -- nothing is to be reported, and nothing needs to be remembered
    have hown : h.diagnosticsAt span = [] := by simp [TagHelper.diagnosticsAt, hempty]
    rw [if_pos (by simp [hempty])]
    refine ⟨rfl, fun seen _ => by simp [report, hown], fun seen hs h' hh' => ?_⟩
    have hne : h' ≠ h := fun heq => hh' (heq ▸ hempty)
    rw [hs h' hh', knownAfter, knownAfter]
    split_ifs
    · rfl
    · rw [List.mem_cons, or_iff_right hne]
  · by_cases hmem : h ∈ s.reported
    · rw [if_pos (by simp [hmem])]
      refine ⟨rfl, fun seen hs => ?_, fun seen hs => ?_⟩
      · simp [report, (hs h hempty).1 hmem]
      · simpa [knownAfter, (hs h hempty).1 hmem] using hs
    · rw [if_neg (by simp [hempty, hmem])]
      have hnot : ∀ seen, s.Knows seen → h ∉ seen :=
        fun seen hs hseen => hmem ((hs h hempty).2 hseen)
      refine ⟨rfl, fun seen hs => ?_, fun seen hs h' hh' => ?_⟩
      · simp [report, hnot seen hs]
      · simp [knownAfter, hnot seen hs, hs h' hh']

/-! ### Parts of the visit -/

/-- **What a part of the visit gives**: a value and findings, both decided by the element around,
and the elements that are open are the same afterwards. -/
def Gives (x : StateM Visitor α) (value : Option Enclosing → α)
    (found : Option Enclosing → List Finding) : Prop :=
  ∀ s : Visitor, (x.run s).1 = value s.stack.head? ∧ s.Finds (found s.stack.head?) (x.run s).2

variable {x : StateM Visitor α} {value : Option Enclosing → α}
  {found : Option Enclosing → List Finding}

theorem Gives.congr {value' : Option Enclosing → α} {found' : Option Enclosing → List Finding}
    (h : Gives x value found) (hvalue : ∀ outer, value' outer = value outer)
    (hfound : ∀ outer, found' outer = found outer) : Gives x value' found' := by
  rwa [funext hvalue, funext hfound]

theorem gives_pure (a : α) : Gives (pure a) (fun _ => a) fun _ => [] :=
  fun s => ⟨rfl, .refl s⟩

theorem Gives.bind {k : α → StateM Visitor β} {value' : α → Option Enclosing → β}
    {found' : α → Option Enclosing → List Finding} (h : Gives x value found)
    (hk : ∀ a, Gives (k a) (value' a) (found' a)) :
    Gives (x >>= k) (fun outer => value' (value outer) outer)
      fun outer => found outer ++ found' (value outer) outer := by
  intro s
  obtain ⟨hv, hf⟩ := h s
  obtain ⟨hv', hf'⟩ := hk (x.run s).1 (x.run s).2
  rw [hf.stack_eq, hv] at hv' hf'
  have hrun : (x >>= k).run s = (k (value s.stack.head?)).run (x.run s).2 := by
    rw [← hv]
    rfl
  rw [hrun]
  exact ⟨hv', hf.trans hf'⟩

theorem Gives.map (h : Gives x value found) (f : α → β) :
    Gives (x >>= fun a => pure (f a)) (fun outer => f (value outer)) found := by
  refine (h.bind fun a => gives_pure (f a)).congr (fun _ => rfl) fun outer => ?_
  rw [List.append_nil]

/-- What is visited with the element around in hand. -/
theorem Gives.enclosing {k : Option Enclosing → StateM Visitor α}
    (h : ∀ outer, Gives (k outer) (fun _ => value outer) fun _ => found outer) :
    Gives (enclosing? >>= k) value found :=
  fun s => h s.stack.head? s

theorem gives_add (ds : List Diagnostic) :
    Gives (add ds) (fun _ => ()) fun _ => ds.map .problem :=
  fun s => ⟨rfl, finds_add s ds⟩

theorem gives_introduce (span : Span) (h : TagHelper) :
    Gives (introduce span h) (fun _ => ()) fun _ => [.helper h span] :=
  fun s => ⟨rfl, finds_introduce s span h⟩

theorem gives_forM_introduce (span : Span) (helpers : List TagHelper) :
    Gives (helpers.forM (introduce span)) (fun _ => ()) fun _ =>
      helpers.map (.helper · span) := by
  induction helpers with
  | nil => exact gives_pure ()
  | cons h helpers ih => exact (gives_introduce span h).bind fun _ => ih

theorem gives_bindAttributes (tag : String) (helpers : List TagHelper) (options : Options)
    (as : List Attribute) :
    Gives (bindAttributes tag helpers options as) (fun _ => Attribute.bindAll tag helpers as)
      fun _ => (Attribute.problems tag helpers options as).map .problem := by
  induction as with
  | nil => exact gives_pure []
  | cons a as ih =>
    rw [bindAttributes, Attribute.bindAll, Attribute.problems]
    cases a.rejection? tag with
    | some p => exact (gives_add [p.report a.span]).map fun _ => a :: as
    | none =>
      refine ((gives_add _).bind fun _ => ih.map (a.bind helpers :: ·)).congr (fun _ => rfl)
        fun _ => ?_
      rw [List.map_append]

/-- What is visited between opening and closing an element has that one around it. -/
theorem Gives.within (h : Gives x value found) (e : Enclosing) (f : α → β) :
    Gives (do push e; let a ← x; pop; return f a) (fun _ => f (value (some e)))
      fun _ => found (some e) :=
  fun s => ⟨congrArg f (h ((push e).run s).2).1, (h ((push e).run s).2).2.within⟩

/-- **The step**, at an element that is not bound yet. -/
theorem gives_bindElement {binder : Binder} {options : Options} {children : List Node}
    {visitChildren : StateM Visitor (List Node)}
    (h : Gives visitChildren (bindTagsAll binder · children)
      (findingsAll binder options · children))
    (tag : StartTag) (attributes : List Attribute) (endTag : Option EndTag) (span : Span) :
    Gives (bindElement binder options tag attributes endTag span visitChildren)
      (fun outer => (Node.element tag attributes children endTag none span).bindTags binder outer)
      fun outer =>
        (Node.element tag attributes children endTag none span).findings binder options outer := by
  refine Gives.enclosing fun outer => ?_
  rw [Node.bindTags, Node.findings]
  cases tag.binding? attributes binder outer with
  | none =>
    refine ((gives_add _).bind fun _ => h.within _ _).congr (fun _ => rfl) fun _ => ?_
    rw [List.append_nil]
    rfl
  | some b =>
    have hattributes := gives_bindAttributes tag.name.text b.helpers options attributes
    refine ((gives_add _).bind fun _ => (gives_add _).bind fun _ =>
      (gives_forM_introduce tag.name.span b.helpers).bind fun _ =>
        hattributes.bind fun _ => h.within _ _).congr (fun _ => rfl) fun _ => ?_
    simp only [StartTag.findings, List.append_assoc]
    rfl

end Visitor

mutual

/-- **The visitor does to a node what the element around it asks for**, whatever it has seen before:
it returns the node bound in that context, reports what is found in it and leaves the stack as it
was. -/
theorem Node.gives_visit (binder : Binder) (options : Options) : ∀ node : Node,
    Visitor.Gives (node.visit binder options) (node.bindTags binder ·)
      (node.findings binder options ·)
  | .text l => Visitor.Gives.enclosing fun _ => (Visitor.gives_add _).map fun _ => Node.text l
  | .code _ | .transition _ | .directive _ => Visitor.gives_pure _
  | .block children span => (gives_visitAll binder options children).map (Node.block · span)
  | .implicit transition body span =>
    (gives_visitAll binder options body).map (Node.implicit transition · span)
  | .explicit d body span => (gives_visitAll binder options body).map (Node.explicit d · span)
  | .statement d body span => (gives_visitAll binder options body).map (Node.statement d · span)
  | .element tag attributes children endTag none span =>
    Visitor.gives_bindElement (gives_visitAll binder options children) tag attributes endTag span
  | .element _ _ _ _ (some _) _ => Visitor.gives_pure _

theorem gives_visitAll (binder : Binder) (options : Options) : ∀ nodes : List Node,
    Visitor.Gives (visitAll binder options nodes) (bindTagsAll binder · nodes)
      (findingsAll binder options · nodes)
  | [] => Visitor.gives_pure []
  | node :: nodes =>
    (Node.gives_visit binder options node).bind fun first =>
      (gives_visitAll binder options nodes).map (first :: ·)

end

/-- **Binding without a stack.** A tree becomes what its elements are bound to in their contexts, and
what is found in it is reported in order. -/
theorem Node.bindElements_eq (tree : Node) (binder : Binder) (options : Options) :
    tree.bindElements binder options =
      (tree.bindTags binder none, report [] (tree.findings binder options none)) := by
  obtain ⟨hbound, hfinds⟩ := tree.gives_visit binder options {}
  have hknows : Visitor.Knows {} [] := fun _ _ => Iff.rfl
  exact Prod.ext hbound ((hfinds.diagnostics_eq [] hknows).trans (List.nil_append _))

end TagHelpers
