import TagHelpers.Attribute.Classification
import TagHelpers.Proofs.Text.Casing

/-!
# Classifying attributes

An attribute is classified by the resolutions of its name, one for each tag helper that resolves it.
Each trait asks for one of them, so it depends on which descriptors there are, and neither on their
order nor on how often one of them is there.

* `Resolution.lacksKey_iff`: where the name has no more bytes than what names with a key start with,
  the two are the same.
* `any_ofName`: what it takes for one of the resolutions to have a trait.
* `traits_ofName`: the traits, the names that are not bound and those that lack a key.
-/

namespace TagHelpers

/-! ### Names without a key -/

/-- A descriptor takes a name for one with a key, and the name ends where the key should start. -/
def Descriptor.LacksKey (d : Descriptor) (name : String) : Prop :=
  ∃ r start, d.resolve? name = some r ∧ r.isIndexer = true ∧ r.isParameter = false ∧
    r.boundAttribute.indexerPrefix = some start ∧ d.casing.same name start = true

theorem BoundAttribute.startsWith_of_isIndexed {a : BoundAttribute} {k : Casing} {name : String}
    (h : a.isIndexed k name = true) :
    ∃ start, a.indexerPrefix = some start ∧ k.startsWith name start = true := by
  unfold isIndexed at h
  split at h
  · cases h
  · rename_i start hstart
    rw [Bool.and_eq_true] at h
    exact ⟨start, hstart, h.2⟩

namespace Resolution

variable {d : Descriptor} {name : String} {r : Resolution}

/-- A name with a key starts as such names do. -/
theorem startsWith_of_isIndexer (h : d.resolve? name = some r) (hi : r.isIndexer = true)
    (hp : r.isParameter = false) :
    ∃ start, r.boundAttribute.indexerPrefix = some start ∧
      d.casing.startsWith name start = true := by
  obtain ⟨a, -, ha⟩ := List.exists_of_findSome?_eq_some h
  unfold BoundAttribute.resolve? at ha
  split_ifs at ha with hnamed hindexed
  · cases ha
    cases hi
  · cases ha
    exact BoundAttribute.startsWith_of_isIndexed hindexed
  · -- what is left are parameters
    obtain ⟨q, -, rfl⟩ := Option.map_eq_some_iff.1 ha
    cases hp

/-- **A key is missing just when the name is what names with a key start with.** Only their bytes
are counted, as the start has been compared before. -/
theorem lacksKey_iff (h : d.resolve? name = some r) :
    r.lacksKey name = true ↔ r.isIndexer = true ∧ r.isParameter = false ∧
      ∃ start, r.boundAttribute.indexerPrefix = some start ∧ d.casing.same name start = true := by
  unfold lacksKey
  rw [Bool.and_eq_true, Bool.and_eq_true, Bool.not_eq_true', beq_iff_eq, and_assoc]
  refine and_congr_right fun hi => and_congr_right fun hp => ?_
  obtain ⟨start, hstart, hstarts⟩ := startsWith_of_isIndexer h hi hp
  rw [hstart, Option.getD_some]
  constructor
  · intro hsize
    exact ⟨start, rfl, Casing.same_iff_startsWith.2 ⟨hstarts, hsize⟩⟩
  · rintro ⟨start', hstart', hsame⟩
    obtain rfl := Option.some.inj hstart'
    exact (Casing.same_iff_startsWith.1 hsame).2

end Resolution

/-! ### Traits -/

namespace Classification

variable {name : String} {helpers helpers' : List TagHelper}

theorem isBound_kind (c : Classification) : c.kind.isBound = c.isBound := by
  unfold kind BoundKind.isBound
  cases c.isBound with
  | false => rfl
  | true =>
    simp only [Bool.not_true, Bool.false_eq_true, if_false]
    split_ifs <;> rfl

theorem isBound_ofName (name : String) (helpers : List TagHelper) :
    (ofName name helpers).isBound =
      !helpers.all fun h => (h.descriptor.resolve? name).isNone := by
  unfold isBound ofName
  refine congrArg not (Bool.eq_iff_iff.2 ?_)
  simp

/-- One of the resolutions has a trait if that of a descriptor has. -/
theorem any_ofName (p : Resolution → Bool) :
    ((ofName name helpers).resolutions.any fun (_, r) => p r) = true ↔
      ∃ d ∈ helpers.map (·.descriptor), ∃ r, d.resolve? name = some r ∧ p r = true := by
  unfold ofName
  simp only [List.any_eq_true, List.mem_filterMap, List.mem_map, Option.map_eq_some_iff]
  constructor
  · rintro ⟨_, ⟨h, hh, r, hr, rfl⟩, hp⟩
    exact ⟨h.descriptor, ⟨h, hh, rfl⟩, r, hr, hp⟩
  · rintro ⟨_, ⟨h, hh, rfl⟩, r, hr, hp⟩
    exact ⟨(h, r), ⟨h, hh, r, hr, rfl⟩, hp⟩

/-- Whether one of the resolutions has a trait depends on which descriptors there are. -/
theorem any_ofName_congr
    (h : ∀ d, d ∈ helpers'.map (·.descriptor) ↔ d ∈ helpers.map (·.descriptor))
    (p : Resolution → Bool) :
    ((ofName name helpers').resolutions.any fun (_, r) => p r) =
      (ofName name helpers).resolutions.any fun (_, r) => p r := by
  rw [Bool.eq_iff_iff, any_ofName, any_ofName]
  exact exists_congr fun d => and_congr_left fun _ => h d

theorem isBound_eq_any (c : Classification) : c.isBound = c.resolutions.any fun _ => true := by
  unfold isBound
  cases c.resolutions <;> rfl

/-- Two classifications with the same traits. -/
structure SameTraits (c c' : Classification) : Prop where
  kind_eq : c'.kind = c.kind
  nonString_eq : c'.nonString = c.nonString
  boolean_eq : c'.boolean = c.boolean
  missingKey_eq : c'.missingKey = c.missingKey
  directive_eq : c'.directive = c.directive

/-- **The traits depend on which descriptors there are.** -/
theorem sameTraits_ofName
    (h : ∀ d, d ∈ helpers'.map (·.descriptor) ↔ d ∈ helpers.map (·.descriptor)) :
    SameTraits (ofName name helpers) (ofName name helpers') := by
  have hbound : (ofName name helpers').isBound = (ofName name helpers).isBound := by
    rw [isBound_eq_any, isBound_eq_any]
    exact any_ofName_congr h fun _ => true
  have hnonString : (ofName name helpers').nonString = (ofName name helpers).nonString :=
    any_ofName_congr h fun r => !r.expectsString
  have hboolean : (ofName name helpers').boolean = (ofName name helpers).boolean :=
    any_ofName_congr h fun r => r.expectsBoolean
  have hkey : (ofName name helpers').missingKey = (ofName name helpers).missingKey :=
    any_ofName_congr h fun r => r.lacksKey name
  refine ⟨?_, hnonString, hboolean, hkey, any_ofName_congr h fun r => r.boundAttribute.isDirective⟩
  unfold kind
  rw [hbound, hnonString, hboolean, hkey]

theorem missingKey_ofName :
    (ofName name helpers).missingKey = true ↔ ∃ h ∈ helpers, h.descriptor.LacksKey name := by
  have hany : (ofName name helpers).missingKey = true ↔ _ :=
    any_ofName fun r => r.lacksKey name
  rw [hany]
  constructor
  · rintro ⟨_, hd, r, hr, hkey⟩
    obtain ⟨h, hh, rfl⟩ := List.mem_map.1 hd
    obtain ⟨hi, hp, start, hstart, hsame⟩ := (Resolution.lacksKey_iff hr).1 hkey
    exact ⟨h, hh, r, start, hr, hi, hp, hstart, hsame⟩
  · rintro ⟨h, hh, r, start, hr, hi, hp, hstart, hsame⟩
    exact ⟨h.descriptor, List.mem_map_of_mem hh, r, hr,
      (Resolution.lacksKey_iff hr).2 ⟨hi, hp, start, hstart, hsame⟩⟩

/-- A missing key goes before all other kinds. -/
theorem kind_eq_missingKey_iff (c : Classification) :
    c.kind = .missingKey ↔ c.missingKey = true := by
  constructor
  · intro h
    unfold kind at h
    split_ifs at h with hbound hkey
    exact hkey
  · intro h
    obtain ⟨x, hx, -⟩ := List.any_eq_true.1 h
    have hbound : c.isBound = true := by
      unfold isBound
      rw [Bool.not_eq_true', List.isEmpty_eq_false_iff]
      exact List.ne_nil_of_mem hx
    unfold kind
    rw [hbound, h]
    rfl

theorem kind_eq_unbound_iff (c : Classification) : c.kind = .unbound ↔ c.isBound = false := by
  rw [← isBound_kind, BoundKind.isBound, bne_eq_false_iff_eq]

/-- **What an attribute is classified as.** The traits stay the same when the tag helpers are
reordered or repeated. An attribute is unbound if and only if no descriptor resolves its name, and
it lacks a key if and only if some descriptor takes its name for one with a key and the name is what
such names start with, compared as the descriptor compares names. -/
theorem traits_ofName (name : String) (helpers : List TagHelper) :
    (∀ helpers' : List TagHelper,
      (∀ d, d ∈ helpers'.map (·.descriptor) ↔ d ∈ helpers.map (·.descriptor)) →
        SameTraits (ofName name helpers) (ofName name helpers')) ∧
    ((ofName name helpers).kind = .unbound ↔
      ∀ h ∈ helpers, h.descriptor.resolve? name = none) ∧
    ((ofName name helpers).kind = .missingKey ↔
      ∃ h ∈ helpers, h.descriptor.LacksKey name) := by
  refine ⟨fun helpers' h => sameTraits_ofName h, ?_, ?_⟩
  · rw [kind_eq_unbound_iff, isBound_ofName]
    simp
  · rw [kind_eq_missingKey_iff, missingKey_ofName]

namespace Sample

/-- A tag helper with an attribute for each route value, in any case. -/
def router : TagHelper where
  place := 0
  descriptor :=
    { kind := .classic, name := "Router", assemblyName := "Library"
      boundAttributes := [{ name := "routes", typeName := "IDictionary<string, string>"
                            indexerPrefix := some "Route-", indexerTypeName := some "string" }] }

/-- A tag helper with an attribute that is called as the other ones start, in this case only. -/
def marker : TagHelper where
  place := 1
  descriptor :=
    { kind := .classic, name := "Marker", assemblyName := "Library", caseSensitive := true
      boundAttributes := [{ name := "route-", typeName := "bool" }] }

end Sample

theorem traits_route :
    (ofName "route-" [Sample.router, Sample.marker]).kind = .missingKey ∧
      SameTraits (ofName "route-" [Sample.router, Sample.marker])
        (ofName "route-" [Sample.marker, Sample.router, Sample.marker]) ∧
      ∃ h ∈ [Sample.router, Sample.marker], h.descriptor.LacksKey "route-" := by
  have h := traits_ofName "route-" [Sample.router, Sample.marker]
  have hkind : (ofName "route-" [Sample.router, Sample.marker]).kind = .missingKey := by decide
  refine ⟨hkind, h.1 _ fun d => ?_, h.2.2.1 hkind⟩
  simp only [List.map_cons, List.map_nil, List.mem_cons, List.not_mem_nil, or_false]
  tauto

end Classification

end TagHelpers
