import TagHelpers.Proofs.Selection.Classic

/-!
# Scope decides, not the order of directives

In a component document a tag helper is pending until its namespace is used, and then it is selected
for good. A directive that uses a namespace moves the pending tag helpers of exactly that namespace,
so it does not matter when it comes, nor whether it comes again.

* `Scope.visit_eq`: what one directive does.
* `Scope.mem_selected_foldl`, `Scope.perm_foldl`: which tag helpers have been moved after several,
  and that none of them is lost or doubled.
* `componentSelection_select`: what the selection of a component document is, with its diagnostics,
  and how it depends on the namespaces that are used.
-/

namespace TagHelpers

namespace Directive

/-- What a directive that uses a namespace names: its text without the semicolons that end it. -/
def usedText (d : Directive) : String :=
  Text.trim (String.ofList (Text.stripEnd (· == ';') d.valueText.toList))

/-- That a directive brings in the tag helpers of a namespace: it names exactly that namespace, and
is not empty, static or an alias. -/
structure Imports (d : Directive) (space : String) : Prop where
  kind : d.kind = .usingNamespace
  names : d.usedText = space
  not_empty : space ≠ ""
  not_static : ¬ "static ".toList <+: space.toList
  not_alias : '=' ∉ space.toList

/-- The report on a directive that component documents do not take. -/
def unsupportedReport (d : Directive) : Diagnostic :=
  (Problem.unsupportedDirective d.keyword.text).report d.span

end Directive

namespace Document

/-- The directives of the imports of a document and its own. -/
def allDirectives (d : Document) : List Directive :=
  d.imports.flatMap Node.directives ++ d.markup.directives

/-- The texts of the directives of a document and its imports that use a namespace. -/
def usings (d : Document) : List String :=
  (d.allDirectives.filter (·.kind = .usingNamespace)).map (·.valueText)

/-- That a tag helper is in the scope of a component document: it is not one for legacy documents,
and tags name it with its namespace, or its namespace is around that of the document or is used. -/
def InScope (d : Document) (h : TagHelper) : Prop :=
  h.descriptor.kind ≠ .classic ∧
    (h.descriptor.isFullyQualified = true ∨
      TypeName.inScope h.descriptor.typeNamespace (d.space.getD "") = true ∨
      ∃ u ∈ d.allDirectives, u.Imports h.descriptor.typeNamespace)

end Document

namespace Selection

/-! ### One directive -/

theorem usedNamespace?_eq_some {d : Directive} (hkind : d.kind = .usingNamespace) {space : String} :
    usedNamespace? d = some space ↔ d.Imports space := by
  have hstatic : ∀ s : String, Casing.ordinal.startsWith s "static " = true ↔
      "static ".toList <+: s.toList := by
    intro s
    have hkey : ∀ s : String, Casing.ordinal.key s = s.toList := fun s => List.map_id _
    rw [Casing.startsWith, hkey, hkey, List.isPrefixOf_iff_prefix]
  have hused : usedNamespace? d =
      if d.usedText = "" ∨ "static ".toList <+: d.usedText.toList ∨ '=' ∈ d.usedText.toList then
        none
      else some d.usedText := by
    unfold usedNamespace? Directive.usedText
    simp only [Bool.or_eq_true, decide_eq_true_eq, hstatic, List.contains_iff_mem, or_assoc]
  rw [hused]
  constructor
  · intro h
    split at h
    · cases h
    · rename_i hnot
      obtain rfl := Option.some.inj h
      rw [not_or, not_or] at hnot
      exact ⟨hkind, rfl, hnot.1, hnot.2.1, hnot.2.2⟩
  · rintro ⟨-, rfl, hempty, hstat, halias⟩
    rw [if_neg]
    rintro (h | h | h)
    · exact hempty h
    · exact hstat h
    · exact halias h

namespace Scope

variable {s : Scope} {p : PlacedDirective} {ps : List PlacedDirective} {h : TagHelper}

/-- Whether a directive brings in a tag helper. -/
def brings (p : PlacedDirective) (h : TagHelper) : Bool :=
  p.directive.kind = .usingNamespace &&
    usedNamespace? p.directive == some h.descriptor.typeNamespace

/-- The report on a directive, where it is not taken. -/
def report? (p : PlacedDirective) : Option Diagnostic :=
  if p.directive.kind.isClassic && !p.inImport then some p.directive.unsupportedReport else none

theorem brings_iff : brings p h = true ↔ p.directive.Imports h.descriptor.typeNamespace := by
  unfold brings
  rw [Bool.and_eq_true, decide_eq_true_eq, beq_iff_eq]
  constructor
  · rintro ⟨hkind, hused⟩
    exact (usedNamespace?_eq_some hkind).1 hused
  · intro himports
    exact ⟨himports.kind, (usedNamespace?_eq_some himports.kind).2 himports⟩

theorem filter_of_brings_eq_false (hnone : ∀ h, brings p h = false) (pending : List TagHelper) :
    pending.filter (brings p) = [] ∧ (pending.filter fun h => !brings p h) = pending := by
  refine ⟨List.filter_eq_nil_iff.2 fun h _ => ?_, List.filter_eq_self.2 fun h _ => ?_⟩
  · rw [hnone h]
    exact Bool.false_ne_true
  · rw [hnone h]
    rfl

/-- **What one directive does**: the pending tag helpers that it brings in are selected. -/
theorem visit_eq (s : Scope) (p : PlacedDirective) :
    s.visit p =
      ⟨s.selected ++ s.pending.filter (brings p), s.pending.filter fun h => !brings p h,
        s.diagnostics ++ (report? p).toList⟩ := by
  have hkeep := fun hnone => filter_of_brings_eq_false (p := p) hnone s.pending
  unfold visit
  simp only
  cases hkind : p.directive.kind with
  | usingNamespace =>
    have hreport : report? p = none := by simp [report?, hkind, DirectiveKind.isClassic]
    cases hused : usedNamespace? p.directive with
    | none =>
      obtain ⟨h1, h2⟩ := hkeep fun h => by simp [brings, hused]
      simp [hreport, h1, h2]
    | some space =>
      have hbrings : brings p = fun h => h.descriptor.typeNamespace == space := by
        funext h
        rw [brings, hkind, hused, decide_eq_true rfl, Bool.true_and, Option.some_beq_some]
        exact BEq.comm
      simp [hreport, hbrings, use, List.partition_eq_filter_filter, Function.comp_def]
  | other =>
    obtain ⟨h1, h2⟩ := hkeep fun h => by simp [brings, hkind]
    simp [report?, hkind, DirectiveKind.isClassic, h1, h2]
  | _ =>
    obtain ⟨h1, h2⟩ := hkeep fun h => by simp [brings, hkind]
    rw [h1, h2]
    cases himport : p.inImport <;>
      simp [report?, hkind, himport, DirectiveKind.isClassic, Directive.unsupportedReport]

/-! ### Several directives -/

theorem mem_selected_foldl (ps : List PlacedDirective) : ∀ s : Scope,
    h ∈ (ps.foldl visit s).selected ↔
      h ∈ s.selected ∨ h ∈ s.pending ∧ ∃ p ∈ ps, brings p h = true := by
  induction ps with
  | nil => intro s; simp
  | cons p ps ih =>
    intro s
    rw [List.foldl_cons, ih, visit_eq]
    simp only [List.mem_append, List.mem_filter, Bool.not_eq_true']
    -- what this directive brings in, the later ones need not
    cases hb : brings p h with
    | true => simp [hb]
    | false => simp [hb]

/-- Directives lose no tag helper and double none. -/
theorem perm_foldl (ps : List PlacedDirective) : ∀ s : Scope,
    ((ps.foldl visit s).selected ++ (ps.foldl visit s).pending).Perm (s.selected ++ s.pending) := by
  induction ps with
  | nil => intro s; exact List.Perm.refl _
  | cons p ps ih =>
    intro s
    rw [List.foldl_cons]
    refine (ih _).trans ?_
    rw [visit_eq]
    simp only [List.append_assoc]
    exact (List.filter_append_perm (brings p) s.pending).append_left s.selected

theorem diagnostics_foldl (ps : List PlacedDirective) : ∀ s : Scope,
    (ps.foldl visit s).diagnostics = s.diagnostics ++ ps.filterMap report? := by
  induction ps with
  | nil => intro s; simp
  | cons p ps ih =>
    intro s
    rw [List.foldl_cons, ih, visit_eq]
    cases hr : report? p <;> simp [hr]

/-! ### The scope of a catalog -/

theorem ofCatalog_eq (c : Catalog) (current : String) :
    ofCatalog c current =
      ⟨(c.helpers.filter (·.descriptor.kind.forComponents)).filter (Selection.inScope current),
        (c.helpers.filter (·.descriptor.kind.forComponents)).filter
          fun h => !Selection.inScope current h, []⟩ := by
  unfold ofCatalog
  rw [List.partition_eq_filter_filter]
  rfl

end Scope

theorem nodup_helpers_component (c : Catalog) (current : String) (ps : List PlacedDirective) :
    (component c current ps).helpers.Nodup := by
  have hcatalog : c.helpers.Nodup := c.pairwise_helpers.imp fun hlt heq => by
    rw [heq] at hlt
    exact Nat.lt_irrefl _ hlt
  have hperm := Scope.perm_foldl ps (Scope.ofCatalog c current)
  have hstart : ((Scope.ofCatalog c current).selected ++ (Scope.ofCatalog c current).pending).Perm
      (c.helpers.filter (·.descriptor.kind.forComponents)) := by
    rw [Scope.ofCatalog_eq]
    exact List.filter_append_perm _ _
  have hall := (hperm.trans hstart).nodup_iff.2 (hcatalog.filter _)
  exact (List.nodup_append.1 hall).1

theorem mem_helpers_component (c : Catalog) (current : String) (ps : List PlacedDirective)
    (h : TagHelper) :
    h ∈ (component c current ps).helpers ↔ h ∈ c.helpers ∧ h.descriptor.kind ≠ .classic ∧
      (inScope current h = true ∨ ∃ p ∈ ps, p.directive.Imports h.descriptor.typeNamespace) := by
  unfold component
  simp only [Scope.mem_selected_foldl, Scope.ofCatalog_eq, Scope.brings_iff, List.mem_filter,
    HelperKind.forComponents, bne_iff_ne, Bool.not_eq_true']
  cases inScope current h with
  | true => simp
  | false => simp [and_assoc]

end Selection

/-! ### Documents -/

section

variable {d d' : Document} {h : TagHelper}

theorem Document.select_component (hkind : d.kind.isComponent = true) :
    d.select = Selection.component d.catalog (d.space.getD "")
      (placedDirectives d.imports d.markup) := by
  unfold Document.select
  rw [if_pos hkind]

theorem mem_placedDirectives {P : Directive → Prop} :
    (∃ p ∈ placedDirectives d.imports d.markup, P p.directive) ↔ ∃ u ∈ d.allDirectives, P u := by
  have hmap : d.allDirectives = (placedDirectives d.imports d.markup).map (·.directive) := by
    simp [Document.allDirectives, placedDirectives, Function.comp_def]
  rw [hmap]
  simp only [List.mem_map, exists_exists_and_eq_and]

/-- A tag helper is selected iff it is in scope. -/
theorem mem_helpers_select (hkind : d.kind.isComponent = true) (h : TagHelper) :
    h ∈ d.select.helpers ↔ h ∈ d.catalog.helpers ∧ d.InScope h := by
  rw [Document.select_component hkind, Selection.mem_helpers_component,
    mem_placedDirectives (P := fun u => u.Imports h.descriptor.typeNamespace)]
  simp only [Document.InScope, Selection.inScope, Bool.or_eq_true, or_assoc]

theorem nodup_helpers_select (hkind : d.kind.isComponent = true) : d.select.helpers.Nodup := by
  rw [Document.select_component hkind]
  exact Selection.nodup_helpers_component _ _ _

/-- What a directive brings in depends on its text only. -/
theorem Directive.Imports.congr {u u' : Directive} {space : String} (himports : u.Imports space)
    (hkind : u'.kind = .usingNamespace) (htext : u'.valueText = u.valueText) :
    u'.Imports space := by
  have hused : u'.usedText = u.usedText := by
    unfold Directive.usedText
    rw [htext]
  exact ⟨hkind, hused.trans himports.names, himports.not_empty, himports.not_static,
    himports.not_alias⟩

theorem Document.InScope.mono (hin : d.InScope h) (hspace : d'.space = d.space)
    (hsub : d.usings ⊆ d'.usings) : d'.InScope h := by
  obtain ⟨hkind, hfull | hspaceIn | ⟨u, hu, himports⟩⟩ := hin
  · exact ⟨hkind, Or.inl hfull⟩
  · exact ⟨hkind, Or.inr (Or.inl (hspace ▸ hspaceIn))⟩
  · have hmem : u.valueText ∈ d.usings :=
      List.mem_map_of_mem (List.mem_filter.2 ⟨hu, decide_eq_true himports.kind⟩)
    obtain ⟨u', hu', htext⟩ := List.mem_map.1 (hsub hmem)
    obtain ⟨hu', hkind'⟩ := List.mem_filter.1 hu'
    exact ⟨hkind, Or.inr (Or.inr ⟨u', hu', himports.congr (of_decide_eq_true hkind') htext⟩)⟩

/-- **Using more namespaces takes no tag helper away.** -/
theorem helpers_select_subset (hkind : d.kind.isComponent = true)
    (hkind' : d'.kind.isComponent = true) (hcatalog : d'.catalog = d.catalog)
    (hspace : d'.space = d.space) (hsub : d.usings ⊆ d'.usings) :
    d.select.helpers ⊆ d'.select.helpers := by
  intro h hh
  obtain ⟨hmem, hin⟩ := (mem_helpers_select hkind h).1 hh
  exact (mem_helpers_select hkind' h).2 ⟨hcatalog ▸ hmem, hin.mono hspace hsub⟩

/-- Directives of imports are not reported. -/
theorem diagnostics_component (c : Catalog) (current : String) (imports : List Node)
    (tree : Node) :
    (Selection.component c current (placedDirectives imports tree)).diagnostics =
      (tree.directives.filter (·.kind.isClassic)).map Directive.unsupportedReport := by
  refine (Selection.Scope.diagnostics_foldl _ _).trans ?_
  have himports : (imports.flatMap Node.directives).filterMap
      (Selection.Scope.report? ∘ fun u => ⟨u, true⟩) = [] := by
    refine List.filterMap_eq_nil_iff.2 fun u _ => ?_
    simp [Selection.Scope.report?]
  have hdocument : tree.directives.filterMap (Selection.Scope.report? ∘ fun u => ⟨u, false⟩) =
      (tree.directives.filter (·.kind.isClassic)).map Directive.unsupportedReport := by
    rw [← List.filterMap_eq_map, List.filterMap_filter]
    refine List.filterMap_congr fun u _ => ?_
    simp [Selection.Scope.report?]
  rw [Selection.Scope.ofCatalog_eq, placedDirectives, List.filterMap_append, List.filterMap_map,
    List.filterMap_map, himports, hdocument]
  rfl

end

/-- What the selection of a component document is. -/
structure ComponentSelection (d : Document) (s : Selection) : Prop where
  /-- A tag helper is selected iff it is in scope. -/
  mem_iff : ∀ h, h ∈ s.helpers ↔ h ∈ d.catalog.helpers ∧ d.InScope h
  nodup : s.helpers.Nodup
  tagPrefix : s.tagPrefix = none
  /-- The directives of legacy documents are reported where they stand in the document itself. -/
  diagnostics : s.diagnostics =
    (d.markup.directives.filter (·.kind.isClassic)).map Directive.unsupportedReport

/-- **Scope decides.** The tag helpers of a component document are those in its scope, each of them
once. So the order in which namespaces are used does not matter, nor whether one is used twice, and
to use another one takes no tag helper away. There is no prefix, and each directive of legacy
documents in the document itself is reported. -/
theorem componentSelection_select (d : Document) (hkind : d.kind.isComponent = true) :
    ComponentSelection d d.select ∧
    ∀ d' : Document, d'.kind.isComponent = true → d'.catalog = d.catalog → d'.space = d.space →
      d.usings ⊆ d'.usings →
      d.select.helpers ⊆ d'.select.helpers ∧
        (d'.usings ⊆ d.usings → d'.select.helpers.Perm d.select.helpers) := by
  refine ⟨⟨fun h => mem_helpers_select hkind h, nodup_helpers_select hkind, ?_, ?_⟩,
    fun d' hkind' hcatalog hspace hsub => ?_⟩
  · rw [Document.select_component hkind]
    rfl
  · rw [Document.select_component hkind]
    exact diagnostics_component _ _ _ _
  · have hle := helpers_select_subset hkind hkind' hcatalog hspace hsub
    refine ⟨hle, fun hsub' => ?_⟩
    have hge := helpers_select_subset hkind' hkind hcatalog.symm hspace.symm hsub'
    refine (List.perm_ext_iff_of_nodup (nodup_helpers_select hkind')
      (nodup_helpers_select hkind)).2 fun h => ?_
    exact ⟨fun hh => hge hh, fun hh => hle hh⟩

namespace Sample

/-- A component of a qualified name. -/
def componentHelper (name : String) : Descriptor :=
  { kind := .component, name, assemblyName := "Library" }

/-- A component document of `App.Pages` with the directives of its imports and its own. -/
def componentPage (imports own : List Node) : Document where
  catalog := ⟨[componentHelper "App.Shared.Counter", componentHelper "App.Layout",
    componentHelper "App.Pages.Admin.Grid", componentHelper "App.Widgets.Chart",
    legacyHelper "Anchor"]⟩
  path := "page"
  kind := .component
  space := some "App.Pages"
  imports
  markup := .block own .stub

/-- A document that uses one namespace and whose imports use another one. -/
def importing : Document :=
  componentPage [lookupDirective "using" "App.Shared;", lookupDirective "addTagHelper" "*, Library"]
    [lookupDirective "using" "App.Pages.Admin", lookupDirective "tagHelperPrefix" "th:"]

/-- A document that uses the same namespaces in another order and one of them twice. -/
def reordered : Document :=
  componentPage [] [lookupDirective "using" "App.Pages.Admin",
    lookupDirective "using" "App.Shared;", lookupDirective "using" "App.Pages.Admin"]

end Sample

theorem componentSelection_importing :
    Sample.importing.kind.isComponent = true ∧ Sample.reordered.kind.isComponent = true ∧
    Sample.importing.usings ⊆ Sample.reordered.usings ∧
    Sample.reordered.usings ⊆ Sample.importing.usings ∧
    ComponentSelection Sample.importing Sample.importing.select ∧
    Sample.reordered.select.helpers.Perm Sample.importing.select.helpers := by
  have hsub : Sample.importing.usings ⊆ Sample.reordered.usings := by decide +kernel
  have hsub' : Sample.reordered.usings ⊆ Sample.importing.usings := by decide +kernel
  obtain ⟨hselect, hother⟩ := componentSelection_select Sample.importing rfl
  exact ⟨rfl, rfl, hsub, hsub', hselect, (hother Sample.reordered rfl rfl rfl hsub).2 hsub'⟩

example : Sample.importing.select.helpers.map (·.descriptor.name) =
    ["App.Layout", "App.Shared.Counter", "App.Pages.Admin.Grid"] := by
  decide +kernel

end TagHelpers
