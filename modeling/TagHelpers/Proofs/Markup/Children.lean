import TagHelpers.Proofs.Markup.AttributeList
import TagHelpers.Proofs.Markup.FaultyHelpers

/-!
# Children that are not allowed

An element may be bound to tag helpers that allow some child tags only. Then text right inside it and
elements with other names are reported. Right inside means that no other element is in between;
blocks, expressions and statements do not count. An element that is not bound, or whose tag helpers
do not restrict its children, lifts the restrictions of the elements around it.

`Host` is an element as what is inside it sees it after binding, and `Misplaced` says which nodes are
not allowed there. Whether they are reported is an option, which matters for nothing else.

* `Node.Reaches.limits_contextAt`: the context of a visit is the host of its place.
* `Node.Reaches.childProblem?_eq_some_iff`: what is reported on a visit is what is misplaced.
* `Node.code_of_mem_problems_unchecked`: without the option no problem is about children.
* `Node.misplaced_bindElements`: what the option adds to the diagnostics of a tree.
-/

namespace TagHelpers

/-! ### Hosts -/

/-- An element as what is inside it sees it: its name and the tag helpers that it is bound to. -/
structure Host where
  tagName : String
  helpers : List TagHelper

namespace Host

/-- That some tag helper restricts the children. -/
def Restricts (host : Host) : Prop :=
  ∃ h ∈ host.helpers, h.descriptor.allowedChildTags ≠ []

instance (host : Host) : Decidable host.Restricts :=
  inferInstanceAs (Decidable (∃ h ∈ host.helpers, h.descriptor.allowedChildTags ≠ []))

/-- The child tags that the tag helpers allow. Tags that differ in case only are listed once. -/
def allowed (host : Host) : List String :=
  unique Casing.folded.same (host.helpers.flatMap fun h => h.descriptor.allowedChildTags)

/-- The name and, if the children are restricted, the child tags that are allowed. -/
def limits (host : Host) : String × Option (List String) :=
  (host.tagName, if host.Restricts then some host.allowed else none)

end Host

def Enclosing.limits (e : Enclosing) : String × Option (List String) :=
  (e.tagName, e.allowed)

theorem any_foldl_unique (k : Casing) (name : String) (xs seen : List String) :
    (xs.foldl (fun seen x => if seen.any (k.same · x) then seen else seen ++ [x]) seen).any
      (k.same · name) = (seen.any (k.same · name) || xs.any (k.same · name)) := by
  induction xs generalizing seen with
  | nil => simp
  | cons x xs ih =>
    rw [List.foldl_cons, ih, List.any_cons]
    split_ifs with hseen
    · -- what is the same as `x` was seen, so `x` says nothing new about `name`
      cases hname : k.same x name with
      | false => rfl
      | true =>
        obtain ⟨y, hy, hyx⟩ := List.any_eq_true.1 hseen
        have hany : seen.any (k.same · name) = true := by
          refine List.any_eq_true.2 ⟨y, hy, ?_⟩
          rw [Casing.same, beq_iff_eq] at hyx hname ⊢
          exact hyx.trans hname
        rw [hany, Bool.true_or, Bool.true_or]
    · rw [List.any_append, List.any_cons, List.any_nil, Bool.or_false, Bool.or_assoc]

/-- Whether a name is the same as one of several does not depend on repetitions among those. -/
theorem any_unique (k : Casing) (name : String) (xs : List String) :
    (unique k.same xs).any (k.same · name) = xs.any (k.same · name) := by
  rw [unique, any_foldl_unique, List.any_nil, Bool.false_or]

theorem Binding.limits_eq (b : Binding) (name : String) :
    (⟨name, b.helpers⟩ : Host).limits = (name, b.allowedChildren?) := by
  have hflat : (b.helpers.filter fun h => !h.descriptor.allowedChildTags.isEmpty).flatMap
      (fun h => h.descriptor.allowedChildTags) =
        b.helpers.flatMap fun h => h.descriptor.allowedChildTags := by
    refine flatMap_filter_eq fun h _ hempty => ?_
    rwa [Bool.not_eq_false', List.isEmpty_iff] at hempty
  rw [Host.limits, Binding.allowedChildren?, hflat]
  refine congrArg (Prod.mk name) ?_
  by_cases hrestricts : (⟨name, b.helpers⟩ : Host).Restricts
  · obtain ⟨h, hmem, hne⟩ := hrestricts
    rw [if_pos ⟨h, hmem, hne⟩, if_neg]
    · rfl
    · rw [List.isEmpty_iff, List.filter_eq_nil_iff]
      intro hnone
      exact hnone h hmem (by simpa using hne)
  · rw [if_neg hrestricts, if_pos]
    rw [List.isEmpty_iff, List.filter_eq_nil_iff]
    intro h hmem hne
    exact hrestricts ⟨h, hmem, by simpa using hne⟩

namespace Node

variable {binder : Binder} {outer : Option Enclosing} {tree node : Node} {path : List ℕ}

/-- The host that an element is. -/
def host? : Node → Option Host
  | element tag _ _ _ binding _ => some ⟨tag.name.text, binding.elim [] (·.helpers)⟩
  | _ => none

/-- The element nearest around a place, as a host. -/
def hostAt? (tree : Node) (path : List ℕ) : Option Host :=
  (tree.around path).findSome? host?

theorem host?_of_frame?_eq_none (h : node.frame? = none) : node.host? = none := by
  cases node with
  | element tag attributes children endTag binding span => cases h
  | _ => rfl

/-- A node that is no element leaves the restrictions around it as they are, and an element takes
their place, also if it is not bound. -/
theorem limits_inside (hopen : tree.isBound = false) :
    (tree.inside binder outer).map Enclosing.limits =
      ((tree.bindTags binder outer).host?.map Host.limits).or (outer.map Enclosing.limits) := by
  obtain h | ⟨tag, attributes, children, endTag, span, rfl⟩ := cases_open hopen
  · have hbound : ((tree.bindTags binder outer).frame?) = none := by
      rw [bindTags_of_frame?_eq_none h, frame?_mapInner, h]
    rw [host?_of_frame?_eq_none hbound, inside_of_frame?_eq_none h, Option.map_none, Option.none_or]
  · rw [bindTags_element rfl, inside]
    cases tag.binding? attributes binder outer with
    | none => rfl
    | some b => exact congrArg some (b.limits_eq tag.name.text).symm

/-- The context of a visit is the host of its place, as that is after binding. -/
theorem Reaches.limits_contextAt (h : tree.Reaches path node) (binder : Binder)
    (outer : Option Enclosing) :
    (contextAt binder outer tree path).map Enclosing.limits =
      (((tree.bindTags binder outer).hostAt? path).map Host.limits).or
        (outer.map Enclosing.limits) := by
  induction h generalizing outer with
  | here node => rfl
  | step hopen hchild _ ih =>
    rw [contextAt_cons hchild, ih, limits_inside hopen, hostAt?, hostAt?,
      findSome?_around_cons host? (getElem?_inner_bindTags hopen hchild), Option.map_or,
      Option.or_assoc]

theorem restriction?_eq (minimized : Bool) (outer : Option Enclosing) :
    restriction? ⟨minimized, true⟩ outer =
      (outer.map Enclosing.limits).bind fun l => l.2.map (l.1, ·) := by
  cases outer <;> rfl

/-- The restriction that counts on a visit is that of the host. -/
theorem Reaches.restriction?_eq_some_iff (h : tree.Reaches path node) (minimized : Bool)
    {parent : String} {allowed : List String} :
    restriction? ⟨minimized, true⟩ (contextAt binder none tree path) = some (parent, allowed) ↔
      ∃ host, (tree.bindTags binder none).hostAt? path = some host ∧ host.Restricts ∧
        parent = host.tagName ∧ allowed = host.allowed := by
  rw [restriction?_eq, h.limits_contextAt, Option.map_none, Option.or_none]
  cases (tree.bindTags binder none).hostAt? path with
  | none => simp
  | some host =>
    by_cases hrestricts : host.Restricts
    · simp [Host.limits, hrestricts, eq_comm]
    · simp [Host.limits, hrestricts]

end Node

/-! ### Nodes that are misplaced -/

/-- That a node is not allowed right inside a host, and what is reported about it. -/
inductive Misplaced (binder : Binder) (host : Host) : Node → Diagnostic → Prop
  /-- Text that is not blank is never allowed where children are restricted. -/
  | text {l : Literal} (hrestricts : host.Restricts) (hblank : Text.blank l.text = false) :
      Misplaced binder host (.text l)
        ((Problem.contentNotAllowed host.tagName (String.intercalate ", " host.allowed)).report
          l.span)
  /-- An element is not allowed if no tag helper allows its name, from which the prefix is taken off
  if it has one. -/
  | element {tag : StartTag} {attributes : List Attribute} {children : List Node}
      {endTag : Option EndTag} {span : Span} (hrestricts : host.Restricts)
      (hname : ∀ h ∈ host.helpers, ∀ t ∈ h.descriptor.allowedChildTags,
        Casing.folded.same t ((binder.strip? tag.name.text).getD tag.name.text) = false) :
      Misplaced binder host (.element tag attributes children endTag none span)
        ((Problem.nestedTagNotAllowed tag.name.text host.tagName
          (String.intercalate ", " host.allowed)).report tag.name.span)

theorem Host.any_allowed_eq_false_iff (host : Host) (name : String) :
    host.allowed.any (Casing.folded.same · name) = false ↔
      ∀ h ∈ host.helpers, ∀ t ∈ h.descriptor.allowedChildTags,
        Casing.folded.same t name = false := by
  rw [Host.allowed, any_unique]
  simp

theorem Literal.contentProblem?_eq_some_iff {l : Literal} {options : Options}
    {outer : Option Enclosing} {d : Diagnostic} :
    l.contentProblem? options outer = some d ↔
      ∃ parent allowed, restriction? options outer = some (parent, allowed) ∧
        Text.blank l.text = false ∧
        d = (Problem.contentNotAllowed parent (String.intercalate ", " allowed)).report l.span := by
  rw [Literal.contentProblem?]
  cases restriction? options outer with
  | none => simp
  | some r =>
    obtain ⟨parent, allowed⟩ := r
    cases Text.blank l.text <;> simp [eq_comm]

theorem StartTag.nestingProblem?_eq_some_iff {tag : StartTag} {binder : Binder} {options : Options}
    {outer : Option Enclosing} {d : Diagnostic} :
    tag.nestingProblem? binder options outer = some d ↔
      ∃ parent allowed, restriction? options outer = some (parent, allowed) ∧
        allowed.any (Casing.folded.same ·
          ((binder.strip? tag.name.text).getD tag.name.text)) = false ∧
        d = (Problem.nestedTagNotAllowed tag.name.text parent
          (String.intercalate ", " allowed)).report tag.name.span := by
  rw [StartTag.nestingProblem?]
  cases restriction? options outer with
  | none => simp
  | some r =>
    obtain ⟨parent, allowed⟩ := r
    simp only [Option.some.injEq, Prod.mk.injEq, exists_eq_left', and_assoc, exists_and_left]
    cases allowed.any (Casing.folded.same ·
      ((binder.strip? tag.name.text).getD tag.name.text)) <;> simp [eq_comm]

namespace Node

variable {binder : Binder} {outer : Option Enclosing} {tree node : Node} {path : List ℕ}
  {minimized : Bool} {d : Diagnostic}

/-- **What is reported on a visit is what is misplaced.** -/
theorem Reaches.childProblem?_eq_some_iff (h : tree.Reaches path node) :
    node.childProblem? binder ⟨minimized, true⟩ (contextAt binder none tree path) = some d ↔
      ∃ host, (tree.bindTags binder none).hostAt? path = some host ∧
        Misplaced binder host node d := by
  constructor
  · intro hd
    cases node with
    | text l =>
      obtain ⟨parent, allowed, hr, hblank, rfl⟩ := Literal.contentProblem?_eq_some_iff.1 hd
      obtain ⟨host, hhost, hrestricts, rfl, rfl⟩ := (h.restriction?_eq_some_iff minimized).1 hr
      exact ⟨host, hhost, .text hrestricts hblank⟩
    | element tag attributes children endTag binding span =>
      cases binding with
      | some b => cases hd
      | none =>
        obtain ⟨parent, allowed, hr, hany, rfl⟩ := StartTag.nestingProblem?_eq_some_iff.1 hd
        obtain ⟨host, hhost, hrestricts, rfl, rfl⟩ := (h.restriction?_eq_some_iff minimized).1 hr
        exact ⟨host, hhost, .element hrestricts ((host.any_allowed_eq_false_iff _).1 hany)⟩
    | _ => cases hd
  · rintro ⟨host, hhost, hmisplaced⟩
    cases hmisplaced with
    | text hrestricts hblank =>
      have hr :=
        (h.restriction?_eq_some_iff minimized).2 ⟨host, hhost, hrestricts, rfl, rfl⟩
      exact Literal.contentProblem?_eq_some_iff.2 ⟨_, _, hr, hblank, rfl⟩
    | element hrestricts hname =>
      have hr :=
        (h.restriction?_eq_some_iff minimized).2 ⟨host, hhost, hrestricts, rfl, rfl⟩
      exact StartTag.nestingProblem?_eq_some_iff.2
        ⟨_, _, hr, (host.any_allowed_eq_false_iff _).2 hname, rfl⟩

theorem childProblem?_unchecked (outer : Option Enclosing) (node : Node) :
    node.childProblem? binder ⟨minimized, false⟩ outer = none := by
  cases node with
  | element tag attributes children endTag binding span => cases binding <;> rfl
  | _ => rfl

end Node

/-! ### What does not depend on the option -/

theorem Attribute.problem?_congr {options options' : Options}
    (h : options.allowMinimizedBoolean = options'.allowMinimizedBoolean) (tag : String)
    (helpers : List TagHelper) (a : Attribute) :
    a.problem? tag helpers options = a.problem? tag helpers options' := by
  cases a with
  | valued head frame value binding span => cases binding <;> rfl
  | minimized head binding span =>
    cases binding with
    | some b => rfl
    | none => rw [problem?, problem?, h]
  | misc children span => rfl

/-- Of the options, what is wrong with attributes depends on Booleans that stand alone only. -/
theorem Attribute.problems_congr {options options' : Options}
    (h : options.allowMinimizedBoolean = options'.allowMinimizedBoolean) (tag : String)
    (helpers : List TagHelper) (as : List Attribute) :
    problems tag helpers options as = problems tag helpers options' as := by
  induction as with
  | nil => rfl
  | cons a as ih => rw [problems, problems, ih, problem?_congr h]

theorem Node.tagFindings_congr {options options' : Options}
    (h : options.allowMinimizedBoolean = options'.allowMinimizedBoolean) (binder : Binder)
    (outer : Option Enclosing) (node : Node) :
    node.tagFindings binder options outer = node.tagFindings binder options' outer := by
  have hfindings : ∀ (tag : StartTag) (attributes : List Attribute) (endTag : Option EndTag)
      (b : Binding),
      tag.findings attributes endTag options b = tag.findings attributes endTag options' b := by
    intro tag attributes endTag b
    rw [StartTag.findings, StartTag.findings, Attribute.problems_congr h]
  cases node with
  | element tag attributes children endTag binding span =>
    cases binding with
    | some b => rfl
    | none =>
      rw [tagFindings, tagFindings]
      exact congrArg _ (funext (hfindings tag attributes endTag))
  | _ => rfl

theorem StartTag.code_closingProblem? {tag : StartTag} {endTag : Option EndTag} {b : Binding}
    {d : Diagnostic} (h : tag.closingProblem? endTag b = some d) :
    d.code = .endTagNotAllowed ∨ d.code = .malformedTagHelper := by
  unfold StartTag.closingProblem? at h
  split at h
  · obtain rfl := Option.some.inj h
    exact .inl rfl
  · obtain rfl := Option.some.inj h
    exact .inr rfl
  · cases h

/-- What is found about a tag is not about what the element around it allows. -/
theorem StartTag.code_of_mem_findings {tag : StartTag} {attributes : List Attribute}
    {endTag : Option EndTag} {options : Options} {b : Binding} {d : Diagnostic}
    (h : .problem d ∈ tag.findings attributes endTag options b) :
    ¬ (d.code = .nestedTagNotAllowed ∨ d.code = .contentNotAllowed) := by
  have hd : tag.closingProblem? endTag b = some d ∨
      d ∈ Attribute.problems tag.name.text b.helpers options attributes := by
    simpa [StartTag.findings] using h
  rcases hd with hd | hd
  · rcases code_closingProblem? hd with hcode | hcode <;> simp [hcode]
  · rcases Attribute.code_of_mem_problems hd with (hcode | hcode) | ⟨hcode | hcode, -⟩ <;>
      simp [hcode]

/-! ### The diagnostics of a tree -/

namespace Node

variable {tree : Node} {binder : Binder} {minimized : Bool} {path : List ℕ} {d : Diagnostic}

/-- What is reported about children that are not allowed, each with its place. -/
def childProblems (binder : Binder) (minimized : Bool) (tree : Node) :
    List (List ℕ × Diagnostic) :=
  tree.visits.filterMap fun v =>
    (v.2.childProblem? binder ⟨minimized, true⟩ (contextAt binder none tree v.1)).map (v.1, ·)

theorem pairwise_childProblems :
    (tree.childProblems binder minimized).Pairwise fun x y => List.Lex (· < ·) x.1 y.1 := by
  rw [childProblems, List.pairwise_filterMap]
  refine tree.pairwise_visits.imp fun {v w} hlex x hx y hy => ?_
  obtain ⟨d, -, rfl⟩ := Option.map_eq_some_iff.1 hx
  obtain ⟨d', -, rfl⟩ := Option.map_eq_some_iff.1 hy
  exact hlex

theorem mem_childProblems :
    (path, d) ∈ tree.childProblems binder minimized ↔
      ∃ node host, tree.Reaches path node ∧
        (tree.bindTags binder none).hostAt? path = some host ∧ Misplaced binder host node d := by
  rw [childProblems, List.mem_filterMap]
  constructor
  · rintro ⟨⟨path', node⟩, hv, hd⟩
    obtain ⟨d', hd', heq⟩ := Option.map_eq_some_iff.1 hd
    obtain ⟨rfl, rfl⟩ := Prod.mk.inj heq
    have hreach := (tree.mem_visits path' node).1 hv
    obtain ⟨host, hhost, hmisplaced⟩ := hreach.childProblem?_eq_some_iff.1 hd'
    exact ⟨node, host, hreach, hhost, hmisplaced⟩
  · rintro ⟨node, host, hreach, hhost, hmisplaced⟩
    refine ⟨(path, node), (tree.mem_visits path node).2 hreach, ?_⟩
    rw [hreach.childProblem?_eq_some_iff.2 ⟨host, hhost, hmisplaced⟩, Option.map_some]

theorem map_snd_childProblems :
    (tree.childProblems binder minimized).map Prod.snd = tree.visits.filterMap fun v =>
      v.2.childProblem? binder ⟨minimized, true⟩ (contextAt binder none tree v.1) := by
  rw [childProblems, List.map_filterMap]
  simp only [Option.map_map, Function.comp_def, Option.map_id']

/-- Without the option, the findings are those about tags. -/
theorem findings_unchecked (tree : Node) (binder : Binder) (minimized : Bool) :
    tree.findings binder ⟨minimized, false⟩ none = tree.visits.flatMap fun v =>
      v.2.tagFindings binder ⟨minimized, true⟩ (contextAt binder none tree v.1) := by
  have hsame : (⟨minimized, false⟩ : Options).allowMinimizedBoolean =
      (⟨minimized, true⟩ : Options).allowMinimizedBoolean := rfl
  rw [findings_eq_flatMap_visits]
  refine List.flatMap_congr fun v _ => ?_
  rw [childProblem?_unchecked, Option.toList_none, List.map_nil, List.nil_append,
    tagFindings_congr hsame]

/-- The option adds what is reported about children. -/
theorem interleaves_childProblems (tree : Node) (binder : Binder) (minimized : Bool) :
    Interleaves
      (fun checked : Bool =>
        if checked then (tree.childProblems binder minimized).map Prod.snd
        else (tree.bindElements binder ⟨minimized, false⟩).2)
      (tree.bindElements binder ⟨minimized, true⟩).2 := by
  simp only [bindElements_eq, map_snd_childProblems, findings_unchecked]
  rw [findings_eq_flatMap_visits]
  exact interleaves_report_flatMap _ _ tree.visits []

/-- Without the option, nothing that is wrong with a tree is about what elements allow. -/
theorem code_of_mem_problems_unchecked (hd : d ∈ tree.problems binder ⟨minimized, false⟩) :
    ¬ (d.code = .nestedTagNotAllowed ∨ d.code = .contentNotAllowed) := by
  rw [problems, findings_unchecked] at hd
  obtain ⟨f, hf, hproblem⟩ := List.mem_filterMap.1 hd
  obtain ⟨v, -, hfound⟩ := List.mem_flatMap.1 hf
  obtain ⟨tag, attributes, children, endTag, span, b, -, -, hf⟩ := mem_tagFindings.1 hfound
  cases f with
  | helper h span => cases hproblem
  | problem d' =>
    obtain rfl := Option.some.inj hproblem
    exact StartTag.code_of_mem_findings hf

/-- **Children that are not allowed.** With the option on, the diagnostics of a tree are those
without it and, in the order of visits, one for each visited node that is misplaced inside the
nearest element around it, as that is after binding. Without the option no such diagnostic is made:
if there is one of that kind, a tag helper brings it along. The option changes nothing in the tree,
nor does the other one. -/
theorem misplaced_bindElements (tree : Node) (binder : Binder) (minimized : Bool) :
    (∃ found : List (List ℕ × Diagnostic),
      found.Pairwise (fun x y => List.Lex (· < ·) x.1 y.1) ∧
      (∀ path d, (path, d) ∈ found ↔
        ∃ node host, tree.Reaches path node ∧
          (tree.bindElements binder ⟨minimized, true⟩).1.hostAt? path = some host ∧
          Misplaced binder host node d) ∧
      Interleaves
        (fun checked : Bool =>
          if checked then found.map Prod.snd
          else (tree.bindElements binder ⟨minimized, false⟩).2)
        (tree.bindElements binder ⟨minimized, true⟩).2) ∧
    (∃ (created : List Diagnostic) (own : TagHelper → List Diagnostic),
      Interleaves (fun origin : Option TagHelper => origin.elim created own)
        (tree.bindElements binder ⟨minimized, false⟩).2 ∧
      (∀ d ∈ created, ¬ (d.code = .nestedTagNotAllowed ∨ d.code = .contentNotAllowed)) ∧
      ∀ h : TagHelper, own h = [] ∨
        ∃ path tag, tree.Binds (tree.bindElements binder ⟨minimized, false⟩).1 path tag h ∧
          own h = h.descriptor.diagnostics.map fun d => { d with span := tag.name.span }) ∧
    ∀ options options' : Options,
      (tree.bindElements binder options).1 = (tree.bindElements binder options').1 := by
  have hbound : ∀ options, (tree.bindElements binder options).1 = tree.bindTags binder none :=
    fun options => congrArg Prod.fst (tree.bindElements_eq binder options)
  simp only [hbound]
  refine ⟨⟨tree.childProblems binder minimized, pairwise_childProblems,
    fun path d => mem_childProblems, interleaves_childProblems tree binder minimized⟩,
    ⟨_, _, tree.interleaves_origins binder ⟨minimized, false⟩,
      fun d => code_of_mem_problems_unchecked, fun h => ?_⟩, fun _ _ => trivial⟩
  rcases tree.ownDiagnostics_findings binder ⟨minimized, false⟩ h with
    ⟨path, tag, hbinds, -, hown⟩ | ⟨-, hown⟩
  · exact .inr ⟨path, tag, hbinds, hown⟩
  · exact .inl hown

end Node

end TagHelpers
