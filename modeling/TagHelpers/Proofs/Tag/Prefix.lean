import TagHelpers.Proofs.Tag.Binder
import TagHelpers.Proofs.Text.Bytes

/-!
# Taking the prefix off a tag

The prefix is compared with the first bytes of a tag and then taken off by the number of its bytes.
The comparison ends where a character does, and so does the cut.

* `HasPrefix`: that a tag has a prefix, said on bytes.
* `HasPrefix.isValid`: the prefix ends between two characters of the tag.
* `strip?_eq_some_iff`: what is left of a tag.
* `strip?_boundary`: when a prefix is taken off and what is left, and that a binding cuts its tag
  where the binder did to match the rules.
-/

namespace TagHelpers

open Text

variable {b : Binder} {binding : Binding} {p tag name : String}

/-- **That a tag has a prefix and more behind it**: its first bytes, as many as the prefix has, are
those of the prefix in any case of ASCII letters. -/
structure HasPrefix (p tag : String) : Prop where
  longer : p.utf8ByteSize < tag.utf8ByteSize
  same : ((bytes tag).take p.utf8ByteSize).map foldByte = (bytes p).map foldByte

theorem hasPrefix_iff : HasPrefix p tag ↔
    (decide (p.utf8ByteSize < tag.utf8ByteSize) && Casing.folded.startsWith tag p) = true := by
  rw [Bool.and_eq_true, decide_eq_true_eq, startsWith_iff_bytes]
  exact ⟨fun h => ⟨h.longer, h.same⟩, fun h => ⟨h.1, h.2⟩⟩

/-- **A prefix ends between two characters of the tag.** -/
theorem HasPrefix.isValid (h : HasPrefix p tag) :
    String.Pos.Raw.IsValid tag ⟨p.utf8ByteSize⟩ := by
  obtain ⟨start, rest, htag, hsize⟩ := exists_append_of_startsWith (startsWith_iff_bytes.2 h.same)
  refine String.Pos.Raw.isValid_iff_exists_append.2 ⟨start, rest, htag, ?_⟩
  rw [← hsize]
  rfl

namespace Binder

theorem strip?_eq_some_iff (hp : b.tagPrefix = some p) : b.strip? tag = some name ↔
    HasPrefix p tag ∧ dropBytes? p.utf8ByteSize tag.toList = some name.toList := by
  unfold strip?
  rw [hp]
  simp only [← hasPrefix_iff, Option.ite_none_right_eq_some, Option.map_eq_some_iff]
  refine and_congr_right fun _ => ?_
  constructor
  · rintro ⟨rest, hrest, rfl⟩
    rw [String.toList_ofList]
    exact hrest
  · intro h
    exact ⟨_, h, String.ofList_toList⟩

theorem exists_strip?_of_hasPrefix (hp : b.tagPrefix = some p) (h : HasPrefix p tag) :
    ∃ rest, b.strip? tag = some rest := by
  obtain ⟨rest, hrest⟩ := Option.isSome_iff_exists.1 (isSome_dropBytes?_iff.2 h.isValid)
  refine ⟨String.ofList rest, (strip?_eq_some_iff hp).2 ⟨h, ?_⟩⟩
  rw [String.toList_ofList]
  exact hrest

/-- What is left of a tag is what follows the bytes of the prefix. -/
theorem bytes_of_strip? (hp : b.tagPrefix = some p) (h : b.strip? tag = some name) :
    name ≠ "" ∧ bytes tag = (bytes tag).take p.utf8ByteSize ++ bytes name := by
  obtain ⟨hstart, hdrop⟩ := (strip?_eq_some_iff hp).1 h
  obtain ⟨start, htag, hsize⟩ := dropBytes?_eq_some_iff.1 hdrop
  have htag' : tag = String.ofList start ++ name := by
    rw [← String.toList_inj, htag, String.toList_append, String.toList_ofList]
  have hlength : (bytes (String.ofList start)).length = p.utf8ByteSize := by
    rw [length_bytes, String.utf8ByteSize_ofList, hsize]
  constructor
  · rintro rfl
    -- the tag would have no more bytes than the prefix
    have hlonger := hstart.longer
    rw [htag', String.append_empty, String.utf8ByteSize_ofList, hsize] at hlonger
    exact Nat.lt_irrefl _ hlonger
  · rw [htag', bytes_append, List.take_left' hlength]

/-! ### Bindings -/

/-- **A binding cuts its tag where the binder does.** -/
theorem bareName_of_strip? (h : b.strip? tag = some name) (htag : binding.tagName = tag)
    (hstart : binding.tagPrefix = b.tagPrefix) : binding.bareName = name := by
  unfold Binding.bareName
  rw [htag, hstart]
  cases hp : b.tagPrefix with
  | none =>
    unfold strip? at h
    rw [hp] at h
    exact Option.some.inj h
  | some p =>
    obtain ⟨-, hdrop⟩ := (strip?_eq_some_iff hp).1 h
    simp only [hdrop, Option.getD_some, String.ofList_toList]

variable {parent : Option String} {attributes : AttributePairs} {parentIsBound : Bool}

theorem exists_strip?_of_bind? (h : b.bind? tag attributes parent parentIsBound = some binding) :
    ∃ name, b.strip? tag = some name := by
  cases hstrip : b.strip? tag with
  | none =>
    unfold bind? at h
    rw [hstrip] at h
    cases h
  | some name => exact ⟨name, rfl⟩

theorem rules_of_mem_found {m : HelperMatch} (h : m ∈ b.found name parent attributes) :
    m.rules = m.helper.descriptor.matchingRules name parent attributes := by
  obtain ⟨helper, -, rfl⟩ := List.mem_map.1 h
  rfl

/-- The rules of a binding are matched against the name that the binding gives. -/
theorem rules_of_bind? (h : b.bind? tag attributes parent parentIsBound = some binding) :
    b.strip? tag = some binding.bareName ∧ ∀ m ∈ binding.helperMatches, m.rules =
      m.helper.descriptor.matchingRules binding.bareName binding.parentTag attributes := by
  obtain ⟨name, hstrip⟩ := exists_strip?_of_bind? h
  rw [bind?_of_strip? hstrip] at h
  split_ifs at h
  obtain rfl := Option.some.inj h
  rw [bareName_of_strip? hstrip rfl rfl]
  exact ⟨hstrip, fun m hm => rules_of_mem_found hm⟩

/-- **Taking the prefix off never cuts a character.** The prefix is taken off a tag if and only if
the tag has more bytes, and the first of them are those of the prefix in any case of ASCII letters.
Then the number of these bytes is a boundary of the characters of the tag, something is left, and
the tag is the first bytes followed by it. What is left is the name that a binding gives, and the
one that its rules are matched against. -/
theorem strip?_boundary (b : Binder) (tag : String) :
    (∀ p, b.tagPrefix = some p →
      ((b.strip? tag).isSome = true ↔ HasPrefix p tag) ∧
      (HasPrefix p tag → String.Pos.Raw.IsValid tag ⟨p.utf8ByteSize⟩ ∧
        ∃ rest, b.strip? tag = some rest ∧ rest ≠ "" ∧
          bytes tag = (bytes tag).take p.utf8ByteSize ++ bytes rest)) ∧
    ∀ attributes parent parentIsBound binding,
      b.bind? tag attributes parent parentIsBound = some binding →
        b.strip? tag = some binding.bareName ∧ ∀ m ∈ binding.helperMatches, m.rules =
          m.helper.descriptor.matchingRules binding.bareName binding.parentTag attributes := by
  refine ⟨?_, fun _ _ _ _ => rules_of_bind?⟩
  intro p hp
  refine ⟨⟨?_, ?_⟩, ?_⟩
  · intro hsome
    obtain ⟨name, hstrip⟩ := Option.isSome_iff_exists.1 hsome
    exact ((strip?_eq_some_iff hp).1 hstrip).1
  · intro h
    exact Option.isSome_iff_exists.2 (exists_strip?_of_hasPrefix hp h)
  · intro h
    obtain ⟨rest, hrest⟩ := exists_strip?_of_hasPrefix hp h
    exact ⟨h.isValid, rest, hrest, bytes_of_strip? hp hrest⟩

namespace Sample

/-- A tag helper for list items. -/
def item : TagHelper where
  place := 0
  descriptor :=
    { kind := .classic, name := "Item", assemblyName := "Library"
      rules := [{ tagName := "élt", parentTag := some "ul" }] }

/-- A binder with a prefix of letters of one, two and four bytes. -/
def prefixed : Binder :=
  ofHelpers (some "Té𝒯:") [item]

end Sample

theorem strip?_boundary_item :
    HasPrefix "Té𝒯:" "té𝒯:éLT" ∧ ¬ HasPrefix "Té𝒯:" "tÉ𝒯:éLT" ∧
      String.Pos.Raw.IsValid "té𝒯:éLT" ⟨"Té𝒯:".utf8ByteSize⟩ ∧
      ∃ binding, Sample.prefixed.bind? "té𝒯:éLT" [] (some "té𝒯:UL") true = some binding ∧
        Sample.prefixed.strip? "té𝒯:éLT" = some binding.bareName := by
  have hp : Sample.prefixed.tagPrefix = some "Té𝒯:" := rfl
  obtain ⟨hstrip, hbind⟩ := strip?_boundary Sample.prefixed "té𝒯:éLT"
  have hother := (strip?_boundary Sample.prefixed "tÉ𝒯:éLT").1 _ hp
  have hstart : HasPrefix "Té𝒯:" "té𝒯:éLT" := (hstrip _ hp).1.1 (by decide)
  obtain ⟨binding, hbinding⟩ :
      ∃ binding, Sample.prefixed.bind? "té𝒯:éLT" [] (some "té𝒯:UL") true = some binding :=
    Option.isSome_iff_exists.1 (by decide)
  refine ⟨hstart, ?_, ((hstrip _ hp).2 hstart).1, binding, hbinding, (hbind _ _ _ _ hbinding).1⟩
  intro h
  exact absurd (hother.1.2 h) (by decide)

end Binder

end TagHelpers
