import TagHelpers.Bind.Lowering
import TagHelpers.Proofs.Text

/-!
# How bind attributes are called

`BindName.Spelt` lists the names that a bind attribute may have, with what each of them says.
`BindName.parse?_eq_some_iff`: exactly these names are read, and as that.
-/

namespace TagHelpers.BindName

/-- A part of a name between hyphens. -/
structure IsSegment (s : String) : Prop where
  ne_empty : s ≠ ""
  no_hyphen : '-' ∉ s.toList

/-- The names of bind attributes, with what they say. -/
inductive Spelt : String → BindName → Prop
  | bare : Spelt "bind" {}
  | value {x : String} (hx : IsSegment x) : Spelt ("bind-" ++ x) { value := some x }
  | extra {x y : String} (hx : IsSegment x) (hy : IsSegment y) :
    Spelt ("bind-" ++ x ++ "-" ++ y) { value := some x, hasExtraSegment := true }

variable {name s s' : String} {n : BindName} {parts : List String}

/-! ### Cutting a name at its hyphens -/

theorem splitAll_of_not_mem (h : '-' ∉ s.toList) : Text.splitAll '-' s = [s] := by
  simp [Text.splitAll, Text.fields_of_not_mem h]

theorem splitAll_append (h : '-' ∉ s.toList) (rest : String) :
    Text.splitAll '-' (s ++ "-" ++ rest) = s :: Text.splitAll '-' rest := by
  have hlist : (s ++ "-" ++ rest).toList = s.toList ++ '-' :: rest.toList := by simp
  simp [Text.splitAll, hlist, Text.fields_append h]

/-- A name is one part, or its first part ends at a hyphen. -/
theorem splitAll_cases (name : String) :
    ('-' ∉ name.toList ∧ Text.splitAll '-' name = [name]) ∨
      ∃ part rest, '-' ∉ part.toList ∧ name = part ++ "-" ++ rest ∧
        Text.splitAll '-' name = part :: Text.splitAll '-' rest := by
  rcases Text.fields_cases '-' name.toList with ⟨hname, -⟩ | ⟨part, rest, hpart, hname, -⟩
  · exact .inl ⟨hname, splitAll_of_not_mem hname⟩
  · have hpart' : '-' ∉ (String.ofList part).toList := by rwa [String.toList_ofList]
    obtain rfl : name = String.ofList part ++ "-" ++ String.ofList rest :=
      String.toList_injective (by simp [hname])
    exact .inr ⟨_, _, hpart', rfl, splitAll_append hpart' _⟩

theorem splitAll_eq_singleton (h : Text.splitAll '-' name = [s]) :
    name = s ∧ '-' ∉ s.toList := by
  rcases splitAll_cases name with ⟨hname, hsplit⟩ | ⟨part, rest, -, -, hsplit⟩
  · obtain rfl : name = s := by simpa [hsplit] using h
    exact ⟨rfl, hname⟩
  · -- the rest would have no parts
    have hrest : Text.splitAll '-' rest = [] := by rw [hsplit] at h; exact (List.cons.inj h).2
    rcases splitAll_cases rest with ⟨-, hr⟩ | ⟨_, _, -, -, hr⟩ <;> rw [hr] at hrest <;> cases hrest

theorem splitAll_eq_cons (h : Text.splitAll '-' name = s :: s' :: parts) :
    ∃ rest, name = s ++ "-" ++ rest ∧ '-' ∉ s.toList ∧ Text.splitAll '-' rest = s' :: parts := by
  rcases splitAll_cases name with ⟨-, hsplit⟩ | ⟨part, rest, hpart, hname, hsplit⟩
  · rw [hsplit] at h
    cases h
  · rw [hsplit] at h
    obtain ⟨rfl, hrest⟩ := List.cons.inj h
    exact ⟨rest, hname, hpart, hrest⟩

/-! ### Reading a name -/

theorem Spelt.parse?_eq (h : Spelt name n) : parse? name = some n := by
  have hbind : '-' ∉ "bind".toList := by decide
  cases h with
  | bare => rfl
  | @value x hx =>
    have hsplit : Text.splitAll '-' ("bind-" ++ x) = ["bind", x] := by
      have h := splitAll_append hbind x
      rwa [splitAll_of_not_mem hx.no_hyphen] at h
    simp [parse?, hsplit, hx.ne_empty]
  | @extra x y hx hy =>
    have hsplit : Text.splitAll '-' ("bind-" ++ x ++ "-" ++ y) = ["bind", x, y] := by
      have h := splitAll_append hbind (x ++ "-" ++ y)
      rw [splitAll_append hx.no_hyphen, splitAll_of_not_mem hy.no_hyphen] at h
      simpa [String.append_assoc] using h
    simp [parse?, hsplit, hx.ne_empty, hy.ne_empty]

theorem spelt_of_parse? (h : parse? name = some n) : Spelt name n := by
  unfold parse? at h
  split at h
  · rename_i hsplit
    obtain rfl := Option.some.inj h
    rw [(splitAll_eq_singleton hsplit).1]
    exact .bare
  · rename_i x hsplit
    obtain ⟨rest, rfl, -, hrest⟩ := splitAll_eq_cons hsplit
    obtain ⟨rfl, hx⟩ := splitAll_eq_singleton hrest
    split_ifs at h with hne
    obtain rfl := Option.some.inj h
    exact .value ⟨hne, hx⟩
  · rename_i x y hsplit
    obtain ⟨rest, rfl, -, hrest⟩ := splitAll_eq_cons hsplit
    obtain ⟨rest, rfl, hx, hrest⟩ := splitAll_eq_cons hrest
    obtain ⟨rfl, hy⟩ := splitAll_eq_singleton hrest
    split_ifs at h with hne
    obtain ⟨hne, hne'⟩ := not_or.1 hne
    obtain rfl := Option.some.inj h
    have hspelt := Spelt.extra ⟨hne, hx⟩ ⟨hne', hy⟩
    simpa [String.append_assoc] using hspelt
  · cases h

/-- **Exactly the names of bind attributes are read.** -/
theorem parse?_eq_some_iff : parse? name = some n ↔ Spelt name n :=
  ⟨spelt_of_parse?, Spelt.parse?_eq⟩

/-- Only the bare name does not say what is bound. -/
theorem Spelt.value_eq_none_iff (h : Spelt name n) : n.value = none ↔ name = "bind" := by
  constructor
  · intro hv
    cases h with
    | bare => rfl
    | value => cases hv
    | extra => cases hv
  · rintro rfl
    obtain rfl := Option.some.inj (h.parse?_eq.symm.trans Spelt.bare.parse?_eq)
    rfl

end TagHelpers.BindName
