import TagHelpers.Descriptor.Basic
import Mathlib.Data.String.Basic

/-!
# The namespaces of types and of their members

A qualified name is divided at the last dot outside angle brackets. Which dots these are is said
here by counting brackets from the front, without reference to the search for the last one.

* `cutLast_eq_none_iff`: a name without such a dot is not divided.
* `cutLast_append`, `eq_append_of_cutLast`: a name is divided at such a dot exactly if there is none
  behind it.
* `typeNamespace_childContent`: dividing twice leads from a member to the namespace of its type.
-/

namespace TagHelpers

namespace TypeName

variable {depth : ℕ} {c : Char} {cs before after : List Char} {s space type : String}

/-- The number of open angle brackets at the end of a text, `depth` being open at its start. -/
def depthAfter (depth : ℕ) (cs : List Char) : ℕ :=
  cs.foldl nextDepth depth

/-- That a dot stands outside angle brackets, `depth` of them being open at the start. -/
def HasDot (depth : ℕ) (cs : List Char) : Prop :=
  ∃ before after, cs = before ++ '.' :: after ∧ depthAfter depth before = 0

/-- The number of open angle brackets at the end of a name. -/
def finalDepth (s : String) : ℕ := depthAfter 0 s.toList

/-- **A name with a dot outside angle brackets.** -/
def HasTopDot (s : String) : Prop := HasDot 0 s.toList

/-- A dot opens and closes nothing. -/
theorem nextDepth_dot (depth : ℕ) : nextDepth depth '.' = depth := rfl

theorem not_hasDot_nil (depth : ℕ) : ¬ HasDot depth [] := by
  rintro ⟨before, after, h, -⟩
  exact List.append_ne_nil_of_right_ne_nil before (List.cons_ne_nil _ _) h.symm

theorem hasDot_cons :
    HasDot depth (c :: cs) ↔ (c = '.' ∧ depth = 0) ∨ HasDot (nextDepth depth c) cs := by
  constructor
  · rintro ⟨before, after, h, hdepth⟩
    cases before with
    | nil => exact .inl ⟨(List.cons.inj h).1, hdepth⟩
    | cons b before =>
      obtain ⟨rfl, rfl⟩ := List.cons.inj h
      exact .inr ⟨before, after, rfl, hdepth⟩
  · rintro (⟨rfl, rfl⟩ | ⟨before, after, rfl, hdepth⟩)
    · exact ⟨[], cs, rfl, rfl⟩
    · exact ⟨c :: before, after, rfl, hdepth⟩

/-! ### The last dot -/

/-- **Without a dot outside angle brackets nothing is divided.** -/
theorem cutLast_eq_none_iff : cutLast depth cs = none ↔ ¬ HasDot depth cs := by
  induction cs generalizing depth with
  | nil => exact iff_of_true rfl (not_hasDot_nil depth)
  | cons c cs ih =>
    rw [hasDot_cons, not_or, ← ih, cutLast]
    cases cutLast (nextDepth depth c) cs with
    | some parts => simp
    | none => simp

instance (depth : ℕ) (cs : List Char) : Decidable (HasDot depth cs) :=
  decidable_of_iff (cutLast depth cs ≠ none)
    ((not_congr cutLast_eq_none_iff).trans not_not)

instance (s : String) : Decidable (HasTopDot s) :=
  inferInstanceAs (Decidable (HasDot 0 s.toList))

/-- What is divided is divided at a dot outside angle brackets, behind which there is none. -/
theorem eq_append_of_cutLast (h : cutLast depth cs = some (before, after)) :
    cs = before ++ '.' :: after ∧ depthAfter depth before = 0 ∧ ¬ HasDot 0 after := by
  induction cs generalizing depth before with
  | nil => cases h
  | cons c cs ih =>
    rw [cutLast] at h
    cases hrest : cutLast (nextDepth depth c) cs with
    | some parts =>
      obtain ⟨before', after'⟩ := parts
      rw [hrest] at h
      obtain ⟨rfl, rfl⟩ := Prod.mk.inj (Option.some.inj h)
      obtain ⟨rfl, hdepth, hafter⟩ := ih hrest
      exact ⟨rfl, hdepth, hafter⟩
    | none =>
      simp only [hrest] at h
      split at h
      · rename_i hdot
        obtain ⟨rfl, rfl⟩ := hdot
        obtain ⟨rfl, rfl⟩ := Prod.mk.inj (Option.some.inj h)
        exact ⟨rfl, rfl, cutLast_eq_none_iff.1 hrest⟩
      · cases h

/-- **A text is divided at a dot outside angle brackets if there is none behind it.** -/
theorem cutLast_append (hbefore : depthAfter depth before = 0) (hafter : ¬ HasDot 0 after) :
    cutLast depth (before ++ '.' :: after) = some (before, after) := by
  induction before generalizing depth with
  | nil =>
    obtain rfl : depth = 0 := hbefore
    rw [List.nil_append, cutLast, nextDepth_dot, cutLast_eq_none_iff.2 hafter]
    rfl
  | cons c before ih => rw [List.cons_append, cutLast, ih hbefore]

/-! ### Names -/

theorem split_of_not_hasTopDot (h : ¬ HasTopDot s) : split s = ("", s) := by
  unfold split
  rw [cutLast_eq_none_iff.2 h]

/-- A member is divided from its type if the brackets of the type are closed. -/
theorem split_append (hspace : finalDepth space = 0) (htype : ¬ HasTopDot type) :
    split (space ++ "." ++ type) = (space, type) := by
  have hlist : (space ++ "." ++ type).toList = space.toList ++ '.' :: type.toList := by simp
  unfold split
  rw [hlist, cutLast_append hspace htype]
  simp

theorem exists_split (h : HasTopDot s) : ∃ space type, split s = (space, type) ∧
    s = space ++ "." ++ type ∧ finalDepth space = 0 ∧ ¬ HasTopDot type := by
  obtain ⟨⟨before, after⟩, hcut⟩ :=
    Option.ne_none_iff_exists'.1 ((not_congr cutLast_eq_none_iff).2 (not_not.2 h))
  obtain ⟨hlist, hbefore, hafter⟩ := eq_append_of_cutLast hcut
  have hs : s = String.ofList before ++ "." ++ String.ofList after := by
    apply String.toList_injective
    simp [hlist]
  have hspace : finalDepth (String.ofList before) = 0 := by
    rw [finalDepth, String.toList_ofList]
    exact hbefore
  have htype : ¬ HasTopDot (String.ofList after) := by
    rw [HasTopDot, String.toList_ofList]
    exact hafter
  exact ⟨_, _, hs ▸ split_append hspace htype, hs, hspace, htype⟩

end TypeName

namespace Descriptor

open TagHelpers.TypeName

/-- **Child content belongs to the namespace of its component.** A name is divided at its last dot
outside angle brackets, if it has one. The name of a member is that of its type and its own, so
dividing it twice gives the namespace of the type, whether the type has arguments or not. -/
theorem typeNamespace_childContent :
    (∀ s, ¬ HasTopDot s → split s = ("", s)) ∧
    (∀ s, HasTopDot s → ∃ space type, split s = (space, type) ∧ s = space ++ "." ++ type ∧
      finalDepth space = 0 ∧ ¬ HasTopDot type) ∧
    ∀ (type member : String) (component content : Descriptor),
      finalDepth type = 0 → ¬ HasTopDot member →
      component.kind = .component → component.typeName = type →
      content.kind = .childContent → content.typeName = type ++ "." ++ member →
      content.typeNamespace = component.typeNamespace := by
  refine ⟨fun s => split_of_not_hasTopDot, fun s => exists_split, ?_⟩
  intro type member component content htype hmember hcomponent hcname hcontent hname
  have hmem : (split content.typeName).1 = type := by
    rw [hname, split_append htype hmember]
  have hne : component.kind ≠ .childContent := by
    rw [hcomponent]
    decide
  unfold typeNamespace
  simp only [hmem]
  rw [if_pos hcontent, if_neg hne, hcname]

namespace Sample

/-- A generic component. -/
def grid : Descriptor where
  kind := .component
  name := "Grid"
  assemblyName := "App"
  metadata := Metadata.empty.insert "Common.TypeName" "App.Données.Grid<System.String>"

/-- What stands between the tags of the component. -/
def row : Descriptor where
  kind := .childContent
  name := "App.Données.Grid<System.String>.Row"
  assemblyName := "App"

end Sample

theorem typeNamespace_row :
    finalDepth "App.Données.Grid<System.String>" = 0 ∧ ¬ HasTopDot "Row" ∧
    Sample.row.typeNamespace = Sample.grid.typeNamespace ∧
    Sample.grid.typeNamespace = "App.Données" := by
  have hdepth : finalDepth "App.Données.Grid<System.String>" = 0 := by decide
  have hrow : ¬ HasTopDot "Row" := by decide
  have hgrid : split ("App.Données" ++ "." ++ "Grid<System.String>") =
      ("App.Données", "Grid<System.String>") := split_append (by decide) (by decide)
  have hname : Sample.grid.typeName = "App.Données.Grid<System.String>" := by
    rw [typeName, Sample.grid, Metadata.get?_insert, if_pos rfl, Option.getD_some]
  refine ⟨hdepth, hrow, ?_, ?_⟩
  · exact typeNamespace_childContent.2.2 _ "Row" Sample.grid Sample.row hdepth hrow rfl hname rfl rfl
  · rw [typeNamespace, hname]
    exact congrArg Prod.fst hgrid

end Descriptor

end TagHelpers
