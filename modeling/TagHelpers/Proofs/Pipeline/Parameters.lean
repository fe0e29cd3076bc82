import TagHelpers.Pipeline.Engine
import TagHelpers.Proofs.Attribute.Resolution
import TagHelpers.Proofs.Bind.Origins
import TagHelpers.Proofs.RenderTree.Attributes

/-!
# Parameters and the attributes they belong to

A parameter of a bind attribute is reported if the attribute that it belongs to is missing. In a
document that goes through the whole pipeline this attribute is then missing in the source too,
unless the uses of it have been dropped as a conflict: the tag helper that takes the parameter binds
the attribute as well, and of the uses of one name the last is never dropped for giving way.

* `Engine.process_component`: what the pipeline makes of a component document.
* `RenderTree.noNestedBinds_ofMarkup`: in the render tree of a document no bind attribute stands
  below another one.
* `RenderTree.base_missing_or_conflict`: what a report on a parameter says about the source.
-/

namespace TagHelpers

/-! ### What a report on a parameter says -/

/-- In a text that names an attribute and then, after some more, what stands before its parameter,
both can be told apart: the first colon behind what comes before them ends the second. -/
theorem AttributeName.eq_of_append_eq {n b p n' b' p' : String} (lead between rest : String)
    (hn : split? n = some (b, p)) (hn' : split? n' = some (b', p'))
    (h : lead ++ n ++ between ++ b ++ rest = lead ++ n' ++ between ++ b' ++ rest) :
    n = n' ∧ b = b' := by
  obtain ⟨hlist, hb⟩ := Text.splitFirst_eq_some_iff.1 hn
  obtain ⟨hlist', hb'⟩ := Text.splitFirst_eq_some_iff.1 hn'
  have htexts := congrArg String.toList h
  simp only [String.toList_append, List.append_assoc, hlist, hlist', List.append_cancel_left_eq,
    List.cons_append] at htexts
  have hcut := (Text.cut_eq_some_iff.2 ⟨rfl, hb⟩).symm.trans
    (Text.cut_eq_some_iff.2 ⟨htexts, hb'⟩)
  obtain ⟨hbase, hrest⟩ := Prod.mk.inj (Option.some.inj hcut)
  obtain rfl := String.toList_inj.1 hbase
  refine ⟨String.toList_inj.1 ?_, rfl⟩
  rw [hlist, hlist', List.append_cancel_right hrest]

/-- The wording of a report on a parameter determines the attribute and its base. -/
theorem Problem.parameterWithoutBind_inj {n b p n' b' p' : String} {span span' : Span}
    (hn : AttributeName.split? n = some (b, p)) (hn' : AttributeName.split? n' = some (b', p'))
    (h : (Problem.parameterWithoutBind n b).report span =
      (Problem.parameterWithoutBind n' b').report span') : n = n' ∧ b = b' :=
  AttributeName.eq_of_append_eq "The attribute '"
    "' can only be used with a corresponding bind attribute '" "'." hn hn'
    (congrArg Diagnostic.message h)

/-! ### The pipeline -/

/-- Without tag helpers nothing is bound. -/
theorem Binder.bind?_ofHelpers_nil (tagPrefix : Option String) (tag : String)
    (attributes : AttributePairs) (parent : Option String) (parentIsBound : Bool) :
    (Binder.ofHelpers tagPrefix []).bind? tag attributes parent parentIsBound = none := by
  unfold bind?
  cases (Binder.ofHelpers tagPrefix []).strip? tag <;> rfl

theorem Node.bindTags_ofHelpers_nil (tagPrefix : Option String) (outer : Option Enclosing)
    (node : Node) : node.bindTags (.ofHelpers tagPrefix []) outer = node := by
  induction node using induction_open generalizing outer with
  | bound node hbound => exact bindTags_of_isBound hbound
  | other node hframe ih =>
    rw [bindTags_of_frame?_eq_none hframe]
    exact mapInner_eq_self node fun child hchild => ih child hchild outer
  | element tag attributes children endTag span ih =>
    rw [bindTags_element (Binder.bind?_ofHelpers_nil tagPrefix _ _ _ _), Option.elim_none,
      Option.map_none, List.map_congr_left fun child hchild => ih child hchild _, List.map_id']

/-- The engine with all passes. -/
def Engine.complete (options : Options) : Engine :=
  (Engine.standard options).register .classify

theorem Engine.passes_complete (options : Options) :
    (Engine.complete options).passes = [.scan, .bindTags, .classify, .lowerBinds] := rfl

/-- **What the pipeline makes of a component document.** -/
theorem Engine.process_component (options : Options) {doc : Document}
    (hkind : doc.kind.isComponent = true) :
    ((Engine.complete options).process doc).2 = none ∧
    ((Engine.complete options).process doc).1.markup =
      doc.markup.bindTags (.ofHelpers doc.select.tagPrefix doc.select.helpers) none ∧
    ((Engine.complete options).process doc).1.tree =
      some ((RenderTree.ofMarkup ((Engine.complete options).process doc).1.markup).lowerBinds
        doc.catalog) := by
  unfold Engine.process
  rw [Engine.passes_complete]
  cases hhelpers : doc.select.helpers with
  | nil =>
    rw [Node.bindTags_ofHelpers_nil]
    simp [Engine.runPasses, Pass.scan, Pass.bindTags, Pass.classify, Pass.lowerBinds, hkind,
      hhelpers]
  | cons h hs =>
    simp [Engine.runPasses, Pass.scan, Pass.bindTags, Pass.classify, Pass.lowerBinds, hkind,
      hhelpers, Node.bindElements_eq]

/-! ### The render tree of a document -/

namespace RenderTree

variable {t : RenderTree} {x id : NodeId} {q : Property} {node : Node} {h : TagHelper}
  {r : Resolution} {name : String}

/-- Nothing is reported on a node when the tree is made. -/
theorem diagnostics_ofMarkup (node : Node) (x : NodeId) :
    ((ofMarkup node).node x).diagnostics = [] := by
  have hshows := shows_ofMarkup node
  by_cases hx : x < (ofMarkup node).size
  · have hmem : x ∈ (ofMarkup node).preorder := by
      rw [hshows.preorder_eq, List.mem_range'_1, ← hshows.size_eq]
      exact ⟨Nat.zero_le x, (Nat.zero_add _).symm ▸ hx⟩
    obtain ⟨s, -, hlaid⟩ := exists_of_mem_forall₂ hshows.forall₂_preorder hmem
    cases s with
    | node kind span ss => rw [hlaid.node_eq]
  · rw [node_of_size_le (not_lt.1 hx)]
    rfl

/-- **In the render tree of a document no bind attribute stands below another one**: below the use
of an attribute there is none. -/
theorem noNestedBinds_ofMarkup (node : Node) : (ofMarkup node).NoNestedBinds := by
  intro a ha hbind b hb hbind'
  obtain ⟨q, hq⟩ := exists_property hbind
  obtain ⟨q', hq'⟩ := exists_property hbind'
  have hkind := kind_of_property? hq
  have hkind' := kind_of_property? hq'
  rcases exists_laid ha with rfl | ⟨s, hs, hlaid⟩
  · rw [(shows_ofMarkup node).laid.kind_eq] at hkind
    cases hkind
  · rw [hlaid.kind_eq] at hkind
    rcases Node.isElement_or_bare hs with helement | hbare
    · rw [hkind] at helement
      cases helement
    · cases s with
      | node kind span ss =>
        have hwalk := hlaid.forall₂_walk
        rw [subtree, hlaid.below_eq hlaid.size_le, Sprout.size, List.range'_succ,
          List.mem_cons] at hb
        rw [Sprout.size, List.range'_succ, Sprout.walk] at hwalk
        refine hb.resolve_right fun hb => ?_
        obtain ⟨s', hs', hlaid'⟩ := exists_of_mem_forall₂ (List.forall₂_cons.1 hwalk).2 hb
        have huse := hbare.2 s' hs'
        rw [← hlaid'.kind_eq, hkind'] at huse
        cases huse

/-! ### Uses of bound attributes -/

theorem mem_ofName_some {helpers : List TagHelper} {name' : String} :
    ⟨name', some (h, r)⟩ ∈ AttributeUse.ofName helpers name ↔
      name' = name ∧ h ∈ helpers ∧ h.descriptor.resolve? name = some r := by
  unfold AttributeUse.ofName
  split_ifs with hnone
  · constructor
    · intro hm
      cases List.mem_singleton.1 hm
    · rintro ⟨-, hmem, hr⟩
      have := List.all_eq_true.1 hnone h hmem
      rw [hr] at this
      cases this
  · rw [List.mem_filterMap]
    constructor
    · rintro ⟨h', hmem, huse⟩
      obtain ⟨r', hr, huse⟩ := Option.map_eq_some_iff.1 huse
      cases huse
      exact ⟨rfl, hmem, hr⟩
    · rintro ⟨rfl, hmem, hr⟩
      exact ⟨h, hmem, by rw [hr, Option.map_some]⟩

/-- A bound use of an attribute is shown for each tag helper that resolves the name. -/
theorem mem_shown_some {tag : String} {attributes : List Attribute}
    {binding : Option ElementBinding} :
    ⟨name, some (h, r)⟩ ∈ Attribute.shown tag attributes binding ↔
      (∃ b, binding = some b ∧ h ∈ b.helpers) ∧
      name ∈ (Attribute.accepted tag attributes).filterMap Attribute.name? ∧
      h.descriptor.resolve? name = some r := by
  cases binding with
  | none =>
    constructor
    · intro hm
      obtain ⟨name', -, huse⟩ := List.mem_map.1 hm
      cases huse
    · rintro ⟨⟨b, hb, -⟩, -⟩
      cases hb
  | some b =>
    rw [Attribute.shown, List.mem_flatMap]
    constructor
    · rintro ⟨name', hname, huse⟩
      obtain ⟨rfl, hmem, hr⟩ := mem_ofName_some.1 huse
      exact ⟨⟨b, rfl, hmem⟩, hname, hr⟩
    · rintro ⟨⟨b', hb, hmem⟩, hname, hr⟩
      cases hb
      exact ⟨name, hname, mem_ofName_some.2 ⟨rfl, hmem, hr⟩⟩

/-- A bound use below a node is a property among its children. -/
theorem mem_uses_some : ⟨name, some (h, r)⟩ ∈ t.uses id ↔
    ∃ child ∈ t.children id, ∃ q, t.kind child = .property q ∧ q.attributeName = name ∧
      q.helper = h ∧ q.resolution = r := by
  unfold uses
  rw [List.mem_filterMap]
  refine exists_congr fun child => and_congr_right fun _ => ?_
  cases t.kind child with
  | property q => simp [RenderKind.use?]
  | _ => simp [RenderKind.use?]

/-! ### Bases of parameters -/

/-- That the bind attributes of a name on an element have been dropped, from the tree `t` to the
tree `t'`, because none of them can be preferred. -/
structure DroppedConflict (t t' : RenderTree) (id : NodeId) (name : String) : Prop where
  conflict : name ∈ BindCandidate.conflicts (t.bindCandidates id)
  reported : ∃ helpers span, (Problem.duplicateBind name helpers).report span ∈
    (t'.node id).diagnostics
  dropped : ∀ child ∈ t'.children id, ∀ q, (t'.node child).property? = some q →
    q.helper.descriptor.isBind = true → q.attributeName ≠ name

/-- A report on a parameter is one on a child that is the use of a parameter, and no remaining bind
attribute is the use of its base. -/
theorem exists_of_mem_missingReport {b : BindCandidate} {d : Diagnostic} (hb : b ∈ t.remaining id)
    (hd : d ∈ t.missingReport id b) :
    ∃ q, b.node ∈ t.children id ∧ t.kind b.node = .property q ∧
      q.helper.descriptor.isBind = true ∧ q.resolution.isParameter = true ∧
      d = (Problem.parameterWithoutBind q.attributeName q.baseName).report
        (t.node b.node).spanOrStub ∧
      ∀ b' ∈ t.remaining id, b'.name = q.baseName → t.baseUse? b'.node = none := by
  obtain ⟨hchild, q, hq, hbind, -, -⟩ := mem_bindCandidates.1
    ((BindCandidate.remaining_sublist _).subset hb)
  unfold missingReport at hd
  rw [parameterUse?_eq hq] at hd
  cases hparameter : q.resolution.parameter with
  | none =>
    rw [hparameter] at hd
    cases hd
  | some parameter =>
    rw [hparameter, Option.map_some] at hd
    dsimp only at hd
    split_ifs at hd with hany
    · cases hd
    · refine ⟨q, hchild, kind_of_property? hq, hbind, ?_, List.mem_singleton.1 hd, ?_⟩
      · rw [Resolution.isParameter, hparameter, Option.isSome_some]
      · intro b' hb' hname
        refine Option.not_isSome_iff_eq_none.1 fun hsome => hany (List.any_eq_true.2 ⟨b', hb', ?_⟩)
        rw [hname, beq_self_eq_true, hsome, Bool.and_self]

/-- If an element has a bind attribute of a name without a parameter, and none of the remaining ones
is a use of it, then its uses are in conflict. -/
theorem conflict_of_property {child : NodeId} (hchild : child ∈ t.children id)
    (hkind : t.kind child = .property q) (hbind : q.helper.descriptor.isBind = true)
    (hname : AttributeName.split? q.attributeName = none)
    (hnone : ∀ b ∈ t.remaining id, b.name = q.attributeName → t.baseUse? b.node = none) :
    q.attributeName ∈ BindCandidate.conflicts (t.bindCandidates id) := by
  have hcandidate : ⟨child, q.attributeName, q.helper⟩ ∈ t.bindCandidates id :=
    mem_bindCandidates.2 ⟨hchild, q, (isBind_of_kind hkind hbind).2, hbind, rfl, rfl⟩
  refine (BindCandidate.conflict_or_remaining hcandidate).resolve_right ?_
  rintro ⟨b, hb, hb'⟩
  obtain ⟨-, -, q', hq', hname'⟩ := property?_remaining hb
  have hnot : q'.resolution.isParameter = false := by
    refine Descriptor.isParameter_resolve? ?_ q'.resolves
    rw [← hname', hb']
    exact hname
  have huse := hnone b hb hb'
  rw [baseUse?_eq hq', hnot] at huse
  cases huse

/-- **What a report on a parameter says about the attributes of its element**: the base is not among
them, or its uses are in conflict. -/
theorem base_missing_or_conflict {b : BindCandidate} {d : Diagnostic} {tag : String}
    {attributes : List Attribute} {binding : Option ElementBinding}
    (hb : b ∈ t.remaining id) (hd : d ∈ t.missingReport id b)
    (huses : t.uses id = Attribute.shown tag attributes binding) :
    ∃ n base p span, AttributeName.split? n = some (base, p) ∧
      d = (Problem.parameterWithoutBind n base).report span ∧
      n ∈ (Attribute.accepted tag attributes).filterMap Attribute.name? ∧
      (base ∉ (Attribute.accepted tag attributes).filterMap Attribute.name? ∨
        base ∈ BindCandidate.conflicts (t.bindCandidates id)) := by
  obtain ⟨q, hchild, hkind, hbind, hparameter, hreport, hnone⟩ := exists_of_mem_missingReport hb hd
  obtain ⟨base, p, r', hsplit, hr', -⟩ := Descriptor.exists_resolve?_base q.resolves hparameter
  have hbase : q.baseName = base := AttributeName.base_eq hsplit
  have huse : ⟨q.attributeName, some (q.helper, q.resolution)⟩ ∈ t.uses id :=
    mem_uses_some.2 ⟨b.node, hchild, q, hkind, rfl, rfl, rfl⟩
  rw [huses] at huse
  obtain ⟨hhelper, hn, -⟩ := mem_shown_some.1 huse
  rw [hbase] at hreport hnone
  refine ⟨q.attributeName, base, p, _, hsplit, hreport, hn, ?_⟩
  refine or_iff_not_imp_left.2 fun hmem => ?_
  rw [not_not] at hmem
  -- the tag helper of the parameter binds the base as well, so it is shown as a use of its own
  have huse' : ⟨base, some (q.helper, r')⟩ ∈ t.uses id := by
    rw [huses]
    exact mem_shown_some.2 ⟨hhelper, hmem, hr'⟩
  obtain ⟨child, hc, q', hkind', rfl, hhelper', -⟩ := mem_uses_some.1 huse'
  exact conflict_of_property hc hkind' (hhelper' ▸ hbind)
    (AttributeName.split?_eq_none_of_split? hsplit) hnone

/-! ### The whole pipeline -/

/-- A node that reports on a parameter shows an element of the document. -/
theorem exists_showsElement {tree : Node} (hplain : tree.IsPlain) (binder : Binder)
    {b : BindCandidate} {d : Diagnostic}
    (hid : (ofMarkup (tree.bindTags binder none)).Reaches root id)
    (hb : b ∈ (ofMarkup (tree.bindTags binder none)).remaining id)
    (hd : d ∈ (ofMarkup (tree.bindTags binder none)).missingReport id b) :
    ∃ path, (path, id) ∈
        tree.elementPlaces.zip (ofMarkup (tree.bindTags binder none)).elementIds ∧
      ShowsElement tree (tree.bindTags binder none) path id := by
  refine exists_mem_zip_of_forall₂ (forall₂_showsElement hplain binder) ?_
  obtain ⟨q, hchild, hkind, -⟩ := exists_of_mem_missingReport hb hd
  have huse := mem_uses_some.2 ⟨b.node, hchild, q, hkind, rfl, rfl, rfl⟩
  by_contra hnot
  rw [uses_eq_nil ((shows_ofMarkup _).isTree.mem_preorder.2 hid) hnot] at huse
  cases huse

end RenderTree

section Whole

open RenderTree

/-- **A parameter never misses a base that is there.** A component document in which nothing was
bound before goes through the pipeline without an error. Each report on a parameter in its render
tree then names an attribute with a colon and what stands before the colon. It stands on an element
that has this attribute, and either none of the attributes of the element up to the first rejected
entry is named like its base, or the uses of the base on the element have been dropped as a
conflict. -/
theorem base_missing_of_parameterWithoutBind (options : Options) (doc : Document)
    (hkind : doc.kind.isComponent = true) (hplain : doc.markup.IsPlain) :
    let result := (Engine.complete options).process doc
    let tree := ofMarkup result.1.markup
    let lowered := tree.lowerBinds doc.catalog
    result.2 = none ∧ result.1.tree = some lowered ∧
    ∀ id ∈ lowered.preorder, ∀ d ∈ (lowered.node id).diagnostics, d.code = .parameterWithoutBind →
      (∃ n base p span, AttributeName.split? n = some (base, p) ∧
        d = (Problem.parameterWithoutBind n base).report span) ∧
      ∀ n base p span, AttributeName.split? n = some (base, p) →
        d = (Problem.parameterWithoutBind n base).report span →
        ∃ path tag attributes children endTag span',
          (path, id) ∈ doc.markup.elementPlaces.zip tree.elementIds ∧
          ShowsElement doc.markup result.1.markup path id ∧
          doc.markup.at? path = some (.element tag attributes children endTag none span') ∧
          n ∈ (Attribute.accepted tag.name.text attributes).filterMap Attribute.name? ∧
          (base ∉ (Attribute.accepted tag.name.text attributes).filterMap Attribute.name? ∨
            DroppedConflict tree lowered id base) := by
  intro result tree lowered
  obtain ⟨herror, hmarkup, htree⟩ := Engine.process_component options hkind
  refine ⟨herror, htree, fun id hid d hd hcode => ?_⟩
  have hisTree : tree.IsTree := (shows_ofMarkup _).isTree
  have hnested : tree.NoNestedBinds := noNestedBinds_ofMarkup _
  have hlowered : lowered.IsTree := (evolves_lowerBinds doc.catalog hisTree).isTree
  obtain ⟨hroot, -, b, hb, hreport⟩ := mem_missingReport hisTree hnested (diagnostics_ofMarkup _)
    doc.catalog id (hlowered.mem_preorder.1 hid) d hd hcode
  obtain ⟨path, hpath, hshows⟩ : ∃ path, (path, id) ∈ doc.markup.elementPlaces.zip tree.elementIds ∧
      ShowsElement doc.markup result.1.markup path id := by
    have hmarkup' : result.1.markup = _ := hmarkup
    simp only [tree, hmarkup'] at hroot hb hreport ⊢
    exact exists_showsElement hplain _ hroot hb hreport
  have hshows' := hshows
  obtain ⟨tag, attributes, children, endTag, span', -, -, binding, hat, -, -, huses⟩ := hshows'
  obtain ⟨n, base, p, span, hsplit, rfl, hn, hbase⟩ := base_missing_or_conflict hb hreport huses
  refine ⟨⟨n, base, p, span, hsplit, rfl⟩, fun n' base' p' span₂ hsplit' heq => ?_⟩
  obtain ⟨rfl, rfl⟩ := Problem.parameterWithoutBind_inj hsplit hsplit' heq
  refine ⟨path, tag, attributes, children, endTag, span', hpath, hshows, hat, hn, ?_⟩
  refine hbase.imp_right fun hconflict => ?_
  obtain ⟨hreported, hdropped⟩ := conflict_lowerBinds hisTree hnested doc.catalog hroot hconflict
  exact ⟨hconflict, ⟨_, _, hreported⟩, hdropped⟩

namespace Sample

/-- A tag helper that binds `bind-value` of `input`, with some parameters. -/
def bindDescriptor (name : String) (parameters : List Parameter) : Descriptor :=
  { kind := .bind, name, assemblyName := "Library", caseSensitive := true
    rules := [{ tagName := "input" }]
    boundAttributes := [{ name := "bind-value", typeName := "object", parameters }] }

/-- An element `input` with attributes. -/
def inputElement (names : List String) : Node :=
  .element (startTag "input" "/>") (names.map flag) [] none none .stub

/-- A component document with a parameter alone, and one with its base. Two tag helpers bind the
base, and one of them takes the parameter. -/
def page : Document where
  catalog := ⟨[bindDescriptor "First" [{ name := "event", typeName := "string" }],
    bindDescriptor "Second" []]⟩
  path := "page"
  kind := .component
  markup := .block [inputElement ["bind-value:event"],
    inputElement ["bind-value", "bind-value:event"]] .stub

/-- The render tree of the page before bind attributes are lowered. -/
def pageTree : RenderTree := ofMarkup ((Engine.complete {}).process page).1.markup

end Sample

/-- Both elements report the parameter, the second one because the uses of its base conflict. -/
theorem base_missing_page :
    Sample.page.kind.isComponent = true ∧ Sample.page.markup.IsPlain ∧
    (∀ id ∈ [1, 3], (Problem.parameterWithoutBind "bind-value:event" "bind-value").report .stub ∈
      ((Sample.pageTree.lowerBinds Sample.page.catalog).node id).diagnostics) ∧
    DroppedConflict Sample.pageTree (Sample.pageTree.lowerBinds Sample.page.catalog) 3
      "bind-value" := by
  have hplain : Sample.page.markup.IsPlain := by decide
  have hreports : ∀ id ∈ [1, 3],
      (Problem.parameterWithoutBind "bind-value:event" "bind-value").report .stub ∈
        ((Sample.pageTree.lowerBinds Sample.page.catalog).node id).diagnostics := by
    decide +kernel
  obtain ⟨-, -, h⟩ := base_missing_of_parameterWithoutBind {} Sample.page rfl hplain
  have hattached : 3 ∈ (Sample.pageTree.lowerBinds Sample.page.catalog).preorder := by
    decide +kernel
  have hsplit : AttributeName.split? "bind-value:event" = some ("bind-value", "event") := by
    decide +kernel
  obtain ⟨path, tag, attributes, children, endTag, span, hzip, -, hat, -, hbase⟩ :=
    (h 3 hattached _ (hreports 3 (by decide)) rfl).2 _ _ _ _ hsplit rfl
  have hpairs : Sample.page.markup.elementPlaces.zip Sample.pageTree.elementIds =
      [([0], 1), ([1], 3)] := by
    decide +kernel
  obtain rfl : path = [1] := by
    have hmem : (path, 3) ∈ [([0], 1), ([1], 3)] := hpairs ▸ hzip
    simpa using hmem
  cases hat
  exact ⟨rfl, hplain, hreports, hbase.resolve_left (not_not.2 (by decide +kernel))⟩

end Whole

end TagHelpers
