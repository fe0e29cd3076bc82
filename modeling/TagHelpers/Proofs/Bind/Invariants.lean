import TagHelpers.Proofs.Bind.Lowering
import TagHelpers.Proofs.Bind.Settled

/-!
# What lowering leaves

* `evolves_lowerBinds`: lowering works by the steps that undo nothing.
* `onlyUnlowered_lowerBinds`: the tree stays a tree, and a bind attribute is left below its root only
  if it is no parameter, says why it is left and is the only one of its name.
-/

namespace TagHelpers.RenderTree

variable {t : RenderTree} {x y p : NodeId}

theorem evolves_settled_lowerBinds (c : Catalog) (ht : t.IsTree) :
    Evolves t.settled.1 (t.lowerBinds c) := by
  rw [lowerBinds_eq]
  exact evolves_foldl_lowerEntry c _ _ (refers_settled ht)

theorem evolves_lowerBinds (c : Catalog) (ht : t.IsTree) : Evolves t (t.lowerBinds c) :=
  (evolves_settled ht).trans (evolves_settled_lowerBinds c ht)

/-- A bind attribute that is left was there before anything was lowered. -/
theorem settled_of_lowerBinds (c : Catalog) (ht : t.IsTree)
    (hp : (t.lowerBinds c).Reaches root p) (hx : x ∈ (t.lowerBinds c).children p)
    (hb : ((t.lowerBinds c).node x).isBind = true) :
    t.settled.1.Reaches root p ∧ x ∈ t.settled.1.children p ∧
      (t.settled.1.node x).isBind = true := by
  have hev := evolves_settled_lowerBinds c ht
  obtain ⟨hlt, hr, hb'⟩ := hev.attached_of_isBind (hp.tail hx) hb
  have hx' := hev.mem_children p x hlt hx
  exact ⟨(evolves_settled ht).isTree.attached_parent hr hx', hx', hb'⟩

theorem property?_lowerBinds (c : Catalog) (ht : t.IsTree)
    (hb : ((t.lowerBinds c).node x).isBind = true) :
    ((t.lowerBinds c).node x).property? = (t.node x).property? := by
  have hev := evolves_lowerBinds c ht
  refine property?_congr (hev.kind_eq x ?_)
  by_contra hx
  rw [hev.not_isBind x (not_lt.1 hx)] at hb
  exact Bool.false_ne_true hb

/-- A bind attribute that is left is no parameter and says why it is left. -/
theorem unlowered_lowerBinds (c : Catalog) (ht : t.IsTree)
    (hp : (t.lowerBinds c).Reaches root p) (hx : x ∈ (t.lowerBinds c).children p)
    (hb : ((t.lowerBinds c).node x).isBind = true) :
    (t.lowerBinds c).parameterUse? x = none ∧ Unlowered ((t.lowerBinds c).node x) := by
  obtain ⟨hp', hx', hb'⟩ := settled_of_lowerBinds c ht hp hx hb
  obtain ⟨hnone, e, he, rfl⟩ := isBind_settled ht hp' hx' hb'
  refine ⟨?_, ?_⟩
  · unfold parameterUse? at hnone ⊢
    rwa [property?_lowerBinds c ht hb, ← property?_congr ((prunes_withoutDuplicates ht).kind_eq _)]
  · have hr := hp.tail hx
    rw [lowerBinds_eq] at hr ⊢
    exact unlowered_foldl_lowerEntry c _ _ (refers_settled ht) e he hr

/-- Two bind attributes that are left below one parent have different names. -/
theorem names_lowerBinds (c : Catalog) (ht : t.IsTree) {q q' : Property}
    (hp : (t.lowerBinds c).Reaches root p) (hx : x ∈ (t.lowerBinds c).children p)
    (hy : y ∈ (t.lowerBinds c).children p) (hbx : ((t.lowerBinds c).node x).isBind = true)
    (hby : ((t.lowerBinds c).node y).isBind = true)
    (hq : ((t.lowerBinds c).node x).property? = some q)
    (hq' : ((t.lowerBinds c).node y).property? = some q')
    (h : q.attributeName = q'.attributeName) : x = y := by
  have h2 := prunes_settled ht
  obtain ⟨hp', hx', -⟩ := settled_of_lowerBinds c ht hp hx hbx
  obtain ⟨-, hy', -⟩ := settled_of_lowerBinds c ht hp hy hby
  have hr := h2.attached hp'
  have hev := evolves_lowerBinds c ht
  rw [property?_lowerBinds c ht hbx] at hq
  rw [property?_lowerBinds c ht hby] at hq'
  exact names_withoutDuplicates ht (attached_of_withoutDuplicates ht hr)
    (h2.mem_children.1 hx').1 (h2.mem_children.1 hy').1 ((hev.isBind_eq x).symm.trans hbx)
    ((hev.isBind_eq y).symm.trans hby) hq hq' h

/-- A tree in which every attached bind attribute is one that could not be lowered, the root
apart. -/
structure OnlyUnlowered (t : RenderTree) : Prop where
  isTree : t.IsTree
  not_parameter : ∀ x ∈ t.preorder, x ≠ root → ∀ q : Property, t.kind x = .property q →
    q.helper.descriptor.isBind = true → q.resolution.isParameter = false
  reported : ∀ x ∈ t.preorder, x ≠ root → ∀ q : Property, t.kind x = .property q →
    q.helper.descriptor.isBind = true →
      ∃ d ∈ (t.node x).diagnostics, d.code = .invalidBindName ∨ d.code = .emptyBindExpression
  names : ∀ parent ∈ t.preorder, ∀ x ∈ t.children parent, ∀ y ∈ t.children parent,
    ∀ q q' : Property, t.kind x = .property q → t.kind y = .property q' →
      q.helper.descriptor.isBind = true → q'.helper.descriptor.isBind = true →
        q.attributeName = q'.attributeName → x = y

/-- **Lowering leaves no bind attribute that it has not reported on.** Of every tree it makes a tree
in which an attached bind attribute other than the root is no parameter and carries the reason why
it is left, and in which no two of them below one parent have the same name. Bind attributes may
stand below bind attributes. The root is in no list of children, so lowering does not look at it. -/
theorem onlyUnlowered_lowerBinds (t : RenderTree) (c : Catalog) (ht : t.IsTree) :
    (t.lowerBinds c).OnlyUnlowered := by
  have hev := evolves_lowerBinds c ht
  have hleft : ∀ x ∈ (t.lowerBinds c).preorder, x ≠ root → ∀ q : Property,
      (t.lowerBinds c).kind x = .property q → q.helper.descriptor.isBind = true →
      (t.lowerBinds c).parameterUse? x = none ∧ Unlowered ((t.lowerBinds c).node x) := by
    intro x hx hne q hk hq
    have hb := (isBind_of_kind hk hq).1
    rcases (hev.isTree.mem_preorder.1 hx).cases_parent with hroot | ⟨p, hp, hc⟩
    · exact absurd hroot hne
    · exact unlowered_lowerBinds c ht hp hc hb
  refine ⟨hev.isTree, fun x hx hne q hk hq => ?_,
    fun x hx hne q hk hq => (hleft x hx hne q hk hq).2,
    fun parent hp x hx y hy q q' hk hk' hq hq' hn => ?_⟩
  · have hnone := (hleft x hx hne q hk hq).1
    unfold parameterUse? at hnone
    simpa [(isBind_of_kind hk hq).2, Resolution.isParameter] using hnone
  · obtain ⟨hb, hprop⟩ := isBind_of_kind hk hq
    obtain ⟨hb', hprop'⟩ := isBind_of_kind hk' hq'
    exact names_lowerBinds c ht (hev.isTree.mem_preorder.1 hp) hx hy hb hb' hprop hprop' hn

/-! ### A tree with bind attributes below one another -/

namespace Sample

/-- A tag helper that binds `bind-value` and its parameter `event`. -/
def binder : TagHelper where
  place := 0
  descriptor :=
    { kind := .bind, name := "Bind", assemblyName := "Library", caseSensitive := true
      boundAttributes := [{ name := "bind-value", typeName := "object",
                            parameters := [{ name := "event", typeName := "string" }] }] }

/-- The use of `bind-value`. -/
def value : Property where
  attributeName := "bind-value"
  quoting := .double
  helper := binder
  resolution := { boundAttribute := binder.descriptor.boundAttributes.head! }
  resolves := by decide

/-- The use of `bind-value:event`. -/
def event : Property where
  attributeName := "bind-value:event"
  quoting := .double
  helper := binder
  resolution :=
    { boundAttribute := binder.descriptor.boundAttributes.head!
      parameter := some { name := "event", typeName := "string" } }
  resolves := by decide

/-- An element with two uses of `bind-value` and one of its parameter, where another use stands
below the first one. -/
def nested : RenderTree where
  nodes := #[
    { kind := .document, children := [1] },
    { kind := .element "input", children := [2, 3, 4] },
    { kind := .property value, children := [5] },
    { kind := .property event },
    { kind := .property value },
    { kind := .codeExpression, children := [6] },
    { kind := .property value }]

/-- A tree of one node, which is the parameter of a bind attribute. -/
def rooted : RenderTree where
  nodes := #[{ kind := .property event }]

end Sample

theorem onlyUnlowered_nested :
    Sample.nested.IsTree ∧
      (Sample.nested.lowerBinds ⟨[Sample.binder.descriptor]⟩).OnlyUnlowered :=
  ⟨by decide, onlyUnlowered_lowerBinds Sample.nested _ (by decide)⟩

/-- At the root a parameter is left, and nothing is said about it. -/
theorem kind_lowerBinds_rooted :
    Sample.rooted.IsTree ∧
      root ∈ (Sample.rooted.lowerBinds ⟨[Sample.binder.descriptor]⟩).preorder ∧
      (Sample.rooted.lowerBinds ⟨[Sample.binder.descriptor]⟩).kind root =
        .property Sample.event ∧
      Sample.event.helper.descriptor.isBind = true ∧
      Sample.event.resolution.isParameter = true ∧
      ((Sample.rooted.lowerBinds ⟨[Sample.binder.descriptor]⟩).node root).diagnostics = [] :=
  ⟨by decide, by decide, rfl, rfl, rfl, rfl⟩

end TagHelpers.RenderTree
