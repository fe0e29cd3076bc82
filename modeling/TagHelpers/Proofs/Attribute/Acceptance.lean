import Mathlib.Data.List.Basic
import TagHelpers.Proofs.Attribute.Resolution
import TagHelpers.RenderTree.Basic

/-!
# Resolving and accepting names

Whether a bound attribute accepts a name is asked in one place, and how it takes the name is found
out in another. The two agree: a descriptor resolves exactly the names that one of its bound
attributes accepts, to the first of these.

* `Resolution.Describes`: what a resolution says about a name. A name is divided at its first colon
  only where it is not taken as a whole.
* `BoundAttribute.resolve?_eq_some_iff`: an attribute resolves a name to what describes it.
* `resolvesTo_resolve?`: the same for a descriptor, and when a property can be made of a name.
-/

namespace TagHelpers

/-- That an attribute takes a name as a whole: with a key, or as the declared name. -/
def BoundAttribute.Takes (a : BoundAttribute) (k : Casing) (withKey : Bool) (name : String) :
    Prop :=
  if withKey then a.isIndexed k name = true else a.isNamed k name = true

/-- **What a resolution says about a name.** -/
structure Resolution.Describes (r : Resolution) (k : Casing) (name : String) : Prop where
  /-- There is a parameter just where the attribute does not take the name as a whole. -/
  isParameter_iff : r.isParameter = true ↔
    r.boundAttribute.isNamed k name = false ∧ r.boundAttribute.isIndexed k name = false
  takes_whole : r.isParameter = false → r.boundAttribute.Takes k r.isIndexer name
  /-- The parameter is the first that is called what follows the first colon, and the attribute
  takes what precedes it. -/
  takes_base : ∀ p, r.parameter = some p → ∃ base rest, name = base ++ ":" ++ rest ∧
    ':' ∉ base.toList ∧ r.boundAttribute.Takes k r.isIndexer base ∧
    r.boundAttribute.parameters.find? (fun q => k.same q.name rest) = some p

/-- **What a descriptor resolves a name to**: what describes the name for the first bound attribute
that accepts it. -/
structure Descriptor.ResolvesTo (d : Descriptor) (name : String) (r : Resolution) : Prop
    extends r.Describes d.casing name where
  isFirst : d.boundAttributes.find? (·.accepts d.casing name) = some r.boundAttribute

/-! ### One bound attribute -/

namespace AttributeName

variable {name base rest : String}

theorem split?_eq_some_iff :
    split? name = some (base, rest) ↔ name = base ++ ":" ++ rest ∧ ':' ∉ base.toList := by
  rw [split?, Text.splitFirst_eq_some_iff, ← String.toList_inj]
  simp

end AttributeName

namespace BoundAttribute

variable {a : BoundAttribute} {k : Casing} {name : String} {withKey : Bool} {p : Parameter}
  {r : Resolution}

/-- The declared name goes before a name with a key. -/
theorem isIndexed_of_isNamed (h : a.isNamed k name = true) : a.isIndexed k name = false := by
  unfold isIndexed
  split
  · rfl
  · rw [h, Bool.not_true, Bool.and_false, Bool.false_and]

/-- A name is taken in one way at most. -/
theorem takes_iff : a.Takes k withKey name ↔
    (a.isNamed k name = true ∨ a.isIndexed k name = true) ∧ a.isIndexed k name = withKey := by
  unfold Takes
  cases withKey with
  | true =>
    rw [if_pos rfl]
    exact ⟨fun h => ⟨.inr h, h⟩, fun h => h.2⟩
  | false =>
    rw [if_neg Bool.false_ne_true]
    constructor
    · intro h
      exact ⟨.inl h, isIndexed_of_isNamed h⟩
    · rintro ⟨h | h, hnot⟩
      · exact h
      · exact absurd (hnot.symm.trans h) Bool.false_ne_true

theorem parameter?_eq_some_iff : a.parameter? k name = some p ↔
    ∃ base rest, AttributeName.split? name = some (base, rest) ∧
      (a.isNamed k base = true ∨ a.isIndexed k base = true) ∧
      a.parameters.find? (fun q => k.same q.name rest) = some p := by
  unfold parameter?
  cases AttributeName.split? name with
  | none => simp
  | some parts =>
    obtain ⟨base, rest⟩ := parts
    simp [Option.ite_none_right_eq_some]

/-- **An attribute resolves the names that it accepts.** -/
theorem isSome_resolve? (a : BoundAttribute) (k : Casing) (name : String) :
    (a.resolve? k name).isSome = a.accepts k name := by
  unfold resolve? accepts
  cases a.isNamed k name <;> cases a.isIndexed k name <;> simp

theorem boundAttribute_of_resolve? (h : a.resolve? k name = some r) : r.boundAttribute = a := by
  unfold resolve? at h
  split_ifs at h
  · cases h
    rfl
  · cases h
    rfl
  · obtain ⟨p, -, rfl⟩ := Option.map_eq_some_iff.1 h
    rfl

/-- A name that is not taken as a whole is described by its parameter, with how the attribute takes
what precedes it. -/
theorem describes_iff_of_divided (hnamed : a.isNamed k name = false)
    (hindexed : a.isIndexed k name = false) {isIndexer : Bool} {parameter : Option Parameter} :
    Resolution.Describes ⟨a, parameter, isIndexer⟩ k name ↔
      ∃ p, a.parameter? k name = some p ∧ parameter = some p ∧
        a.isIndexed k (AttributeName.base name) = isIndexer := by
  constructor
  · intro h
    obtain ⟨p, rfl⟩ := Option.isSome_iff_exists.1 (h.isParameter_iff.2 ⟨hnamed, hindexed⟩)
    obtain ⟨base, rest, hname, hcolon, htakes, hfind⟩ := h.takes_base p rfl
    have hsplit := AttributeName.split?_eq_some_iff.2 ⟨hname, hcolon⟩
    obtain ⟨hbase, hkey⟩ := takes_iff.1 htakes
    refine ⟨p, parameter?_eq_some_iff.2 ⟨base, rest, hsplit, hbase, hfind⟩, rfl, ?_⟩
    rw [AttributeName.base_eq hsplit]
    exact hkey
  · rintro ⟨p, hp, rfl, rfl⟩
    obtain ⟨base, rest, hsplit, hbase, hfind⟩ := parameter?_eq_some_iff.1 hp
    obtain ⟨hname, hcolon⟩ := AttributeName.split?_eq_some_iff.1 hsplit
    rw [AttributeName.base_eq hsplit]
    refine ⟨iff_of_true rfl ⟨hnamed, hindexed⟩, ?_, ?_⟩
    · intro hnone
      cases hnone
    · rintro q hq
      obtain rfl := Option.some.inj hq
      exact ⟨base, rest, hname, hcolon, takes_iff.2 ⟨hbase, rfl⟩, hfind⟩

/-- A name that is taken as a whole is described by how it is taken. -/
theorem describes_iff_of_whole (htakes : a.Takes k withKey name) {isIndexer : Bool}
    {parameter : Option Parameter} :
    Resolution.Describes ⟨a, parameter, isIndexer⟩ k name ↔
      parameter = none ∧ isIndexer = withKey := by
  obtain ⟨hwhole, hkey⟩ := takes_iff.1 htakes
  have hnot : ¬ (a.isNamed k name = false ∧ a.isIndexed k name = false) := by
    rintro ⟨h, h'⟩
    rcases hwhole with hw | hw
    · exact Bool.false_ne_true (h.symm.trans hw)
    · exact Bool.false_ne_true (h'.symm.trans hw)
  constructor
  · intro h
    have hnone : parameter = none := by
      rw [← Option.not_isSome_iff_eq_none]
      exact fun hsome => hnot (h.isParameter_iff.1 hsome)
    subst hnone
    exact ⟨rfl, (takes_iff.1 (h.takes_whole rfl)).2.symm.trans hkey⟩
  · rintro ⟨rfl, rfl⟩
    refine ⟨iff_of_false Bool.false_ne_true hnot, fun _ => htakes, ?_⟩
    intro p hp
    cases hp

/-- **An attribute resolves a name to what describes it.** -/
theorem resolve?_eq_some_iff :
    a.resolve? k name = some r ↔ r.boundAttribute = a ∧ r.Describes k name := by
  -- the three ways are tried in this order
  have hways : ∀ parameter isIndexer, a.resolve? k name = some ⟨a, parameter, isIndexer⟩ ↔
      Resolution.Describes ⟨a, parameter, isIndexer⟩ k name := by
    intro parameter isIndexer
    unfold resolve?
    split_ifs with hnamed hindexed
    · have htakes : a.Takes k false name := hnamed
      rw [describes_iff_of_whole htakes]
      simp [eq_comm]
    · have htakes : a.Takes k true name := hindexed
      rw [describes_iff_of_whole htakes]
      simp [eq_comm]
    · rw [describes_iff_of_divided (Bool.eq_false_iff.2 hnamed) (Bool.eq_false_iff.2 hindexed),
        Option.map_eq_some_iff]
      simp [eq_comm]
  constructor
  · intro h
    obtain rfl := boundAttribute_of_resolve? h
    exact ⟨rfl, (hways _ _).1 h⟩
  · rintro ⟨rfl, h⟩
    exact (hways _ _).2 h

end BoundAttribute

/-! ### All bound attributes -/

namespace Descriptor

variable {d : Descriptor} {name : String} {r : Resolution}

theorem isSome_resolve?_iff : (d.resolve? name).isSome = true ↔
    ∃ a ∈ d.boundAttributes, a.accepts d.casing name = true := by
  rw [resolve?, List.findSome?_isSome_iff]
  refine exists_congr fun a => and_congr_right fun _ => ?_
  rw [BoundAttribute.isSome_resolve?]

/-- The first attribute that resolves a name is the first that accepts it. -/
theorem resolve?_eq_some_iff_find? : d.resolve? name = some r ↔
    ∃ a, d.boundAttributes.find? (·.accepts d.casing name) = some a ∧
      a.resolve? d.casing name = some r := by
  have hnone : ∀ a : BoundAttribute, a.resolve? d.casing name = none ↔
      (!a.accepts d.casing name) = true := by
    intro a
    rw [← BoundAttribute.isSome_resolve?, Bool.not_eq_true', Option.isSome_eq_false_iff,
      Option.isNone_iff_eq_none]
  rw [resolve?, List.findSome?_eq_some_iff]
  constructor
  · rintro ⟨before, a, after, hlist, ha, hbefore⟩
    have haccepts : a.accepts d.casing name = true := by
      rw [← BoundAttribute.isSome_resolve?, ha, Option.isSome_some]
    refine ⟨a, List.find?_eq_some_iff_append.2 ⟨haccepts, before, after, hlist, ?_⟩, ha⟩
    exact fun b hb => (hnone b).1 (hbefore b hb)
  · rintro ⟨a, hfind, ha⟩
    obtain ⟨-, before, after, hlist, hbefore⟩ := List.find?_eq_some_iff_append.1 hfind
    exact ⟨before, a, after, hlist, ha, fun b hb => (hnone b).2 (hbefore b hb)⟩

theorem resolve?_eq_some_iff_resolvesTo : d.resolve? name = some r ↔ d.ResolvesTo name r := by
  rw [resolve?_eq_some_iff_find?]
  constructor
  · rintro ⟨a, hfind, ha⟩
    obtain ⟨rfl, hdescribes⟩ := BoundAttribute.resolve?_eq_some_iff.1 ha
    exact ⟨hdescribes, hfind⟩
  · intro h
    exact ⟨r.boundAttribute, h.isFirst, BoundAttribute.resolve?_eq_some_iff.2 ⟨rfl, h.toDescribes⟩⟩

end Descriptor

theorem Property.isSome_of? (name : String) (quoting : Quoting) (h : TagHelper) :
    (Property.of? name quoting h).isSome = (h.descriptor.resolve? name).isSome := by
  unfold Property.of?
  split
  · next r hr => simp [hr]
  · next hr => simp [hr]

namespace Descriptor

/-- **Resolving a name agrees with accepting it.** A descriptor resolves a name if and only if one
of its bound attributes accepts it. What it then resolves the name to is the one resolution that
describes the name for the first such attribute. A property can be made of just these names. -/
theorem resolvesTo_resolve? (d : Descriptor) (name : String) :
    ((d.resolve? name).isSome = true ↔
      ∃ a ∈ d.boundAttributes, a.accepts d.casing name = true) ∧
    (∀ r, d.resolve? name = some r ↔ d.ResolvesTo name r) ∧
    ∀ (place : ℕ) (quoting : Quoting),
      (Property.of? name quoting ⟨place, d⟩).isSome = true ↔ (d.resolve? name).isSome = true := by
  refine ⟨isSome_resolve?_iff, fun r => resolve?_eq_some_iff_resolvesTo, ?_⟩
  intro place quoting
  rw [Property.isSome_of?]

namespace Sample

/-- A descriptor whose first attribute takes names with a key, colons included, and whose second one
has parameters. -/
def binder : Descriptor where
  kind := .bind
  name := "Bind"
  assemblyName := "Library"
  boundAttributes :=
    [{ name := "bind", typeName := "object", indexerPrefix := some "bound-" },
      { name := "bind-value", typeName := "object", indexerPrefix := some "bind-"
        parameters := [{ name := "event", typeName := "string" },
          { name := "Format:", typeName := "string" }, { name := "FORMAT:", typeName := "bool" }] }]

end Sample

theorem resolvesTo_format :
    (∃ r, Sample.binder.resolve? "Bind-Checked:format:" = some r ∧
      Sample.binder.ResolvesTo "Bind-Checked:format:" r ∧ r.isParameter = true ∧
      r.isIndexer = true ∧ r.parameter.map (·.typeName) = some "string") ∧
    (∃ r, Sample.binder.resolve? "bound-a:b" = some r ∧
      Sample.binder.ResolvesTo "bound-a:b" r ∧ r.isParameter = false) ∧
    ¬ ∃ a ∈ Sample.binder.boundAttributes,
      a.accepts Sample.binder.casing "bind-checked:size" = true := by
  have hformat := resolvesTo_resolve? Sample.binder "Bind-Checked:format:"
  have hkey := resolvesTo_resolve? Sample.binder "bound-a:b"
  have hsize := resolvesTo_resolve? Sample.binder "bind-checked:size"
  refine ⟨⟨_, rfl, (hformat.2.1 _).1 rfl, by decide, by decide, by decide⟩,
    ⟨_, rfl, (hkey.2.1 _).1 rfl, by decide⟩, ?_⟩
  rw [← hsize.1]
  decide

end Descriptor

end TagHelpers
