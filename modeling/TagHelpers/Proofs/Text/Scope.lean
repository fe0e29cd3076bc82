import TagHelpers.Proofs.Text
import TagHelpers.Text.TypeName

/-!
# Namespaces in scope

Scope is decided segment by segment. On the characters this says that a namespace is in scope in
itself and wherever it is followed by a dot, also where segments are empty.

* `Text.fields_prefix_iff`: the parts of a text are the first parts of another one if the other text
  is the same, or goes on with a separator.
* `TypeName.inScope_iff`: the same for namespaces.
* `TypeName.scope_order`: scope on characters, and that it is a partial order.
-/

namespace TagHelpers

namespace Text

variable {sep : Char} {cs ds : List Char}

theorem eq_or_eq_append_of_fields_prefix (h : fields sep cs <+: fields sep ds) :
    ds = cs ∨ ∃ rest, ds = cs ++ sep :: rest := by
  -- one part after the other is taken off both texts
  induction hn : cs.length using Nat.strong_induction_on generalizing cs ds with
  | _ n ih =>
    rcases fields_cases sep cs with ⟨-, hcs⟩ | ⟨part, rest, -, rfl, hcs⟩
    · -- the only part of the text is the first of the other one
      rcases fields_cases sep ds with ⟨-, hds⟩ | ⟨part', rest', -, rfl, hds⟩
      · rw [hcs, hds, List.cons_prefix_cons] at h
        exact .inl h.1.symm
      · rw [hcs, hds, List.cons_prefix_cons] at h
        exact .inr ⟨rest', by rw [h.1]⟩
    · rcases fields_cases sep ds with ⟨-, hds⟩ | ⟨part', rest', -, rfl, hds⟩
      · -- the other text has too few parts
        rw [hcs, hds, List.cons_prefix_cons] at h
        exact absurd (List.prefix_nil.1 h.2) (fields_ne_nil sep rest)
      · rw [hcs, hds, List.cons_prefix_cons] at h
        obtain ⟨rfl, hrest⟩ := h
        have hlt : rest.length < n := by
          rw [← hn, List.length_append, List.length_cons]
          omega
        rcases ih _ hlt hrest rfl with heq | ⟨more, heq⟩
        · exact .inl (by rw [heq])
        · exact .inr ⟨more, by rw [heq, List.append_assoc, List.cons_append]⟩

/-- **Parts that come first.** The parts of a text are the first parts of another one exactly if the
other text is the same or goes on with a separator. -/
theorem fields_prefix_iff :
    fields sep cs <+: fields sep ds ↔ ds = cs ∨ ∃ rest, ds = cs ++ sep :: rest := by
  constructor
  · exact eq_or_eq_append_of_fields_prefix
  · rintro (rfl | ⟨rest, rfl⟩)
    · exact List.prefix_rfl
    · rw [fields_append_cons]
      exact List.prefix_append _ _

theorem splitAll_prefix_iff {s s' : String} :
    splitAll sep s <+: splitAll sep s' ↔ fields sep s.toList <+: fields sep s'.toList :=
  List.prefix_map_iff_of_injective fun _ _ => String.ofList_injective

end Text

namespace TypeName

variable {space current : String}

/-- **Scope on characters.** A namespace is in scope in itself and where it is followed by a dot. -/
theorem inScope_iff (h : space ≠ "") :
    inScope space current = true ↔ current = space ∨ ∃ rest, current = space ++ "." ++ rest := by
  have hparts : inScope space current = true ↔
      Text.splitAll '.' space <+: Text.splitAll '.' current := by
    rw [inScope, Bool.or_eq_true, beq_iff_eq, List.isPrefixOf_iff_prefix, or_iff_right h]
  rw [hparts, Text.splitAll_prefix_iff, Text.fields_prefix_iff, String.toList_inj]
  refine or_congr_right ?_
  constructor
  · rintro ⟨rest, hrest⟩
    exact ⟨String.ofList rest, by rw [← String.toList_inj]; simp [hrest]⟩
  · rintro ⟨rest, rfl⟩
    exact ⟨rest.toList, by simp⟩

/-- The global namespace is in scope everywhere. -/
theorem inScope_empty (current : String) : inScope "" current = true := by
  rw [inScope, beq_self_eq_true, Bool.true_or]

theorem inScope_refl (space : String) : inScope space space = true := by
  by_cases h : space = ""
  · rw [h]
    exact inScope_empty _
  · exact (inScope_iff h).2 (.inl rfl)

/-- Nothing but the global namespace is in scope in it. -/
theorem eq_empty_of_inScope (h : inScope space "" = true) : space = "" := by
  by_contra hspace
  rcases (inScope_iff hspace).1 h with heq | ⟨rest, heq⟩
  · exact hspace heq.symm
  · simpa using congrArg String.toList heq

theorem inScope_trans {a b c : String} (hab : inScope a b = true) (hbc : inScope b c = true) :
    inScope a c = true := by
  by_cases ha : a = ""
  · rw [ha]
    exact inScope_empty c
  have hb : b ≠ "" := by
    rintro rfl
    exact ha (eq_empty_of_inScope hab)
  rw [inScope_iff ha] at hab ⊢
  rw [inScope_iff hb] at hbc
  rcases hab with rfl | ⟨rest, rfl⟩
  · exact hbc
  · rcases hbc with rfl | ⟨rest', rfl⟩
    · exact .inr ⟨rest, rfl⟩
    · exact .inr ⟨rest ++ "." ++ rest', by simp only [String.append_assoc]⟩

theorem inScope_antisymm {a b : String} (hab : inScope a b = true) (hba : inScope b a = true) :
    a = b := by
  by_cases ha : a = ""
  · subst ha
    exact (eq_empty_of_inScope hba).symm
  by_cases hb : b = ""
  · subst hb
    exact absurd (eq_empty_of_inScope hab) ha
  rcases (inScope_iff ha).1 hab with heq | ⟨rest, hrest⟩
  · exact heq.symm
  rcases (inScope_iff hb).1 hba with heq | ⟨rest', hrest'⟩
  · exact heq
  -- each of the two would have more characters than the other
  have hlen := congrArg String.length hrest
  have hlen' := congrArg String.length hrest'
  simp only [String.length_append] at hlen hlen'
  have hdot : ".".length = 1 := rfl
  omega

/-- **Scope is a partial order by leading segments.** A namespace other than the global one is in
scope exactly in itself and where it is followed by a dot, and the global one is everywhere. Scope
is reflexive, transitive and antisymmetric. -/
theorem scope_order :
    (∀ space current : String, space ≠ "" →
      (inScope space current = true ↔
        current = space ∨ ∃ rest, current = space ++ "." ++ rest)) ∧
    (∀ current : String, inScope "" current = true) ∧
    (∀ space : String, inScope space space = true) ∧
    (∀ a b c : String, inScope a b = true → inScope b c = true → inScope a c = true) ∧
    ∀ a b : String, inScope a b = true → inScope b a = true → a = b :=
  ⟨fun _ _ => inScope_iff, inScope_empty, inScope_refl, fun _ _ _ => inScope_trans,
    fun _ _ => inScope_antisymm⟩

theorem scope_order_doubled :
    inScope "App." "App..Pages" = true ∧ inScope "App" "App..Pages" = true ∧
      ¬ ∃ rest, "App.Pages" = "App.Page" ++ "." ++ rest := by
  obtain ⟨hiff, -, -, htrans, -⟩ := scope_order
  have hinner : inScope "App." "App..Pages" = true :=
    (hiff _ _ (by decide)).2 (.inr ⟨"Pages", by decide⟩)
  refine ⟨hinner, htrans "App" "App." _ (by decide) hinner, ?_⟩
  intro h
  exact absurd ((hiff _ _ (by decide)).2 (.inr h)) (by decide)

end TypeName

end TagHelpers
