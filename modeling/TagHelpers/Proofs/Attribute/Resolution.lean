import Mathlib.Data.List.Basic
import TagHelpers.Attribute.Resolution

/-!
# Names with a parameter

* `Text.splitFirst_eq_some_iff`: cutting a text at the first separator.
* `Descriptor.exists_resolve?_base`: what resolves a name with a parameter resolves the name before
  the colon too, and not to a parameter.
-/

namespace TagHelpers

/-! ### Cutting at the first separator -/

namespace Text

variable {sep : Char} {cs before after : List Char}

theorem cut_eq_some_iff :
    cut sep cs = some (before, after) ↔ cs = before ++ sep :: after ∧ sep ∉ before := by
  induction cs generalizing before with
  | nil => simp [cut]
  | cons c cs ih =>
    rw [cut]
    by_cases hc : c = sep
    · subst hc
      rw [if_pos rfl]
      cases before with
      | nil => simp
      | cons b before =>
        -- the first separator is at the front already
        simp only [Option.some.injEq, Prod.mk.injEq, List.nil_eq, reduceCtorEq, false_and,
          false_iff, not_and, not_not]
        rintro h
        rw [(List.cons.inj h).1]
        exact List.mem_cons_self
    · rw [if_neg hc, Option.map_eq_some_iff]
      constructor
      · rintro ⟨⟨before', after'⟩, hcut, h⟩
        obtain ⟨rfl, rfl⟩ := Prod.mk.inj h
        obtain ⟨rfl, hnot⟩ := ih.1 hcut
        exact ⟨rfl, by simp [hnot, Ne.symm hc]⟩
      · rintro ⟨h, hnot⟩
        cases before with
        | nil => exact absurd (List.cons.inj h).1 hc
        | cons b before =>
          obtain ⟨rfl, rfl⟩ := List.cons.inj h
          exact ⟨(before, after), ih.2 ⟨rfl, fun hm => hnot (List.mem_cons_of_mem c hm)⟩, rfl⟩

theorem splitFirst_eq_some_iff {s b a : String} :
    splitFirst sep s = some (b, a) ↔ s.toList = b.toList ++ sep :: a.toList ∧ sep ∉ b.toList := by
  rw [← cut_eq_some_iff, splitFirst, Option.map_eq_some_iff]
  constructor
  · rintro ⟨⟨before, after⟩, hcut, h⟩
    obtain ⟨rfl, rfl⟩ := Prod.mk.inj h
    rw [hcut, String.toList_ofList, String.toList_ofList]
  · intro h
    exact ⟨_, h, Prod.ext String.ofList_toList String.ofList_toList⟩

end Text

namespace AttributeName

variable {name b p : String}

/-- What stands before the parameter has none itself. -/
theorem split?_eq_none_of_split? (h : split? name = some (b, p)) : split? b = none := by
  rw [Option.eq_none_iff_forall_ne_some]
  rintro ⟨b', p'⟩ h'
  refine (Text.splitFirst_eq_some_iff.1 h).2 ?_
  rw [(Text.splitFirst_eq_some_iff.1 h').1]
  exact List.mem_append_right _ List.mem_cons_self

theorem base_eq (h : split? name = some (b, p)) : base name = b := by
  rw [base, h]

end AttributeName

/-! ### Resolving the name before the colon -/

namespace BoundAttribute

variable {a : BoundAttribute} {k : Casing} {name : String} {r : Resolution}

theorem isParameter_resolve? (hname : AttributeName.split? name = none)
    (h : a.resolve? k name = some r) : r.isParameter = false := by
  unfold resolve? at h
  split_ifs at h
  · cases h
    rfl
  · cases h
    rfl
  · rw [parameter?, hname] at h
    cases h

theorem exists_isSome_resolve?_base (h : a.resolve? k name = some r) (hr : r.isParameter = true) :
    ∃ b p, AttributeName.split? name = some (b, p) ∧ (a.resolve? k b).isSome = true := by
  unfold resolve? at h
  split_ifs at h
  · cases h
    cases hr
  · cases h
    cases hr
  · obtain ⟨q, hq, -⟩ := Option.map_eq_some_iff.1 h
    unfold parameter? at hq
    split at hq
    · cases hq
    · next b p hsplit =>
      refine ⟨b, p, hsplit, ?_⟩
      split_ifs at hq with hb
      unfold resolve?
      rw [Bool.or_eq_true] at hb
      rcases hb with hb | hb
      · rw [if_pos hb, Option.isSome_some]
      · split_ifs <;> rfl

end BoundAttribute

namespace Descriptor

variable {d : Descriptor} {name : String} {r : Resolution}

theorem isParameter_resolve? (hname : AttributeName.split? name = none)
    (h : d.resolve? name = some r) : r.isParameter = false := by
  obtain ⟨a, -, ha⟩ := List.exists_of_findSome?_eq_some h
  exact BoundAttribute.isParameter_resolve? hname ha

/-- **What resolves a name with a parameter resolves the name before the colon too**, to a bound
attribute without a parameter. That need not be the bound attribute of the parameter, since another
one may come first. -/
theorem exists_resolve?_base (h : d.resolve? name = some r) (hr : r.isParameter = true) :
    ∃ b p r', AttributeName.split? name = some (b, p) ∧ d.resolve? b = some r' ∧
      r'.isParameter = false := by
  obtain ⟨a, ha, hra⟩ := List.exists_of_findSome?_eq_some h
  obtain ⟨b, p, hsplit, hb⟩ := BoundAttribute.exists_isSome_resolve?_base hra hr
  obtain ⟨r', hr'⟩ : ∃ r', d.resolve? b = some r' := by
    rw [← Option.isSome_iff_exists, resolve?, List.findSome?_isSome_iff]
    exact ⟨a, ha, hb⟩
  exact ⟨b, p, r', hsplit, hr',
    isParameter_resolve? (AttributeName.split?_eq_none_of_split? hsplit) hr'⟩

end Descriptor

end TagHelpers
