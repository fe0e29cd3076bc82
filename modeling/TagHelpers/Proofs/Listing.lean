import TagHelpers.Tag.Binding
import Mathlib.Data.List.Forall2
import Mathlib.Data.List.Nodup
import Mathlib.Data.List.Perm.Subperm
import Mathlib.Logic.Relation

/-!
# Lists

`unique` keeps the first of equal elements, so it keeps the whole of a list without repetition. What
else is said here of lists is about changing an item of one, about folding over one without effect,
about the items of two that correspond and about lists that are interleaved (`Interleaves`).
-/

namespace TagHelpers

section Unique

variable {α : Type} [BEq α] [LawfulBEq α]

theorem mem_foldl_unique (xs : List α) : ∀ (seen : List α) (y : α),
    y ∈ xs.foldl (fun seen x => if seen.any (· == x) then seen else seen ++ [x]) seen ↔
      y ∈ seen ∨ y ∈ xs := by
  induction xs with
  | nil => intro seen y; simp
  | cons x xs ih =>
    intro seen y
    rw [List.foldl_cons, ih, List.mem_cons]
    split
    · rename_i h
      obtain ⟨z, hz, hzx⟩ := List.any_eq_true.1 h
      rw [eq_of_beq hzx] at hz
      constructor
      · rintro (h | h)
        · exact Or.inl h
        · exact Or.inr (Or.inr h)
      · rintro (h | rfl | h)
        · exact Or.inl h
        · exact Or.inl hz
        · exact Or.inr h
    · rw [List.mem_append, List.mem_singleton, or_assoc]

theorem nodup_foldl_unique (xs : List α) : ∀ seen : List α, seen.Nodup →
    (xs.foldl (fun seen x => if seen.any (· == x) then seen else seen ++ [x]) seen).Nodup := by
  induction xs with
  | nil => intro seen h; exact h
  | cons x xs ih =>
    intro seen h
    rw [List.foldl_cons]
    apply ih
    split
    · exact h
    · rename_i hx
      rw [← List.concat_eq_append]
      exact List.Nodup.concat (fun hm => hx (List.any_eq_true.2 ⟨x, hm, beq_self_eq_true x⟩)) h

theorem foldl_unique_of_nodup (xs : List α) : ∀ seen : List α, (seen ++ xs).Nodup →
    xs.foldl (fun seen x => if seen.any (· == x) then seen else seen ++ [x]) seen = seen ++ xs := by
  induction xs with
  | nil => intro seen _; simp
  | cons x xs ih =>
    intro seen h
    have hx : ¬ seen.any (· == x) = true := by
      intro hany
      obtain ⟨y, hy, hyx⟩ := List.any_eq_true.1 hany
      exact (List.nodup_append.1 h).2.2 y hy x List.mem_cons_self (eq_of_beq hyx)
    rw [List.foldl_cons, if_neg hx, ih _ (by simpa using h), List.append_assoc,
      List.singleton_append]

@[simp] theorem mem_unique {xs : List α} {x : α} : x ∈ unique (· == ·) xs ↔ x ∈ xs := by
  unfold unique
  rw [mem_foldl_unique]
  simp

theorem nodup_unique (xs : List α) : (unique (· == ·) xs).Nodup :=
  nodup_foldl_unique xs [] List.nodup_nil

theorem unique_eq_self {xs : List α} (h : xs.Nodup) : unique (· == ·) xs = xs :=
  foldl_unique_of_nodup xs [] (by simpa using h)

end Unique

/-- A list without repetition, cut down to the members of one of its sublists, is that sublist. -/
theorem filter_mem_sublist {α : Type} [DecidableEq α] {xs ys : List α} (h : xs.Sublist ys)
    (hy : ys.Nodup) : ys.filter (· ∈ xs) = xs := by
  have hsub : xs.Sublist (ys.filter (· ∈ xs)) := by
    have hself : xs.filter (· ∈ xs) = xs := List.filter_eq_self.2 fun x hx => decide_eq_true hx
    simpa only [hself] using h.filter (· ∈ xs)
  -- nothing else is left, as a list without repetition has no more elements than members
  have hperm : xs.Perm (ys.filter (· ∈ xs)) := by
    refine (List.perm_ext_iff_of_nodup (hy.sublist h) (hy.filter _)).2 fun x => ?_
    rw [List.mem_filter, decide_eq_true_eq]
    exact ⟨fun hx => ⟨h.subset hx, hx⟩, fun hx => hx.2⟩
  exact (hsub.eq_of_length hperm.length_eq).symm

theorem flatMap_filter_eq {α β : Type} {f : α → List β} {p : α → Bool} {xs : List α}
    (h : ∀ x ∈ xs, p x = false → f x = []) : (xs.filter p).flatMap f = xs.flatMap f := by
  induction xs with
  | nil => rfl
  | cons x xs ih =>
    have ih := ih fun y hy => h y (List.mem_cons_of_mem _ hy)
    cases hx : p x with
    | true => rw [List.filter_cons_of_pos hx, List.flatMap_cons, List.flatMap_cons, ih]
    | false =>
      rw [List.filter_cons_of_neg (by simp [hx]), List.flatMap_cons, h x List.mem_cons_self hx, ih,
        List.nil_append]

/-! ### Changing an item of a list -/

theorem modify_append_of_lt {α : Type} {l : List α} {i : ℕ} (h : i < l.length) (l' : List α)
    (f : α → α) : (l ++ l').modify i f = l.modify i f ++ l' := by
  induction l generalizing i with
  | nil => cases h
  | cons a l ih =>
    cases i with
    | zero => rfl
    | succ i =>
      rw [List.cons_append, List.modify_succ_cons, List.modify_succ_cons,
        ih (Nat.lt_of_succ_lt_succ h), List.cons_append]

theorem modify_append_of_eq {α : Type} {l : List α} {i : ℕ} (h : l.length = i) (a : α)
    (f : α → α) : (l ++ [a]).modify i f = l ++ [f a] := by
  subst h
  induction l with
  | nil => rfl
  | cons b l ih =>
    rw [List.cons_append, List.length_cons, List.modify_succ_cons, ih, List.cons_append]

/-! ### Folding without effect -/

theorem foldl_eq_self {α β : Type} {f : α → β → α} {a : α} {bs : List β}
    (h : ∀ b ∈ bs, f a b = a) : bs.foldl f a = a := by
  induction bs with
  | nil => rfl
  | cons b bs ih =>
    rw [List.foldl_cons, h b List.mem_cons_self]
    exact ih fun b' hb' => h b' (List.mem_cons_of_mem _ hb')

/-! ### Items that correspond -/

theorem exists_mem_zip_of_forall₂ {α β : Type} {R : α → β → Prop} {as : List α} {bs : List β}
    {b : β} (h : List.Forall₂ R as bs) (hb : b ∈ bs) : ∃ a, (a, b) ∈ as.zip bs ∧ R a b := by
  induction h with
  | nil => cases hb
  | @cons a b' as bs hab _ ih =>
    rcases List.mem_cons.1 hb with rfl | hb
    · exact ⟨a, List.mem_cons_self, hab⟩
    · obtain ⟨a', hmem, hab'⟩ := ih hb
      exact ⟨a', List.mem_cons_of_mem _ hmem, hab'⟩

theorem exists_of_mem_forall₂ {α β : Type} {R : α → β → Prop} {as : List α} {bs : List β} {a : α}
    (h : List.Forall₂ R as bs) (ha : a ∈ as) : ∃ b ∈ bs, R a b := by
  have hflip : List.Forall₂ (flip R) bs as := h.flip
  obtain ⟨b, hmem, hab⟩ := exists_mem_zip_of_forall₂ hflip ha
  exact ⟨b, (List.of_mem_zip hmem).1, hab⟩

theorem forall₂_comp {α β γ : Type} {R : α → β → Prop} {S : β → γ → Prop} {as : List α}
    {bs : List β} {cs : List γ} (h : List.Forall₂ R as bs) (h' : List.Forall₂ S bs cs) :
    List.Forall₂ (Relation.Comp R S) as cs := by
  induction h generalizing cs with
  | nil =>
    cases h'
    exact .nil
  | cons hab _ ih =>
    cases h' with
    | cons hbc htail => exact .cons ⟨_, hab, hbc⟩ (ih htail)

/-! ### Lists that are interleaved -/

/-- That a list holds the items of several lists, each item once and those of each list in order.
Every item is marked with the list that it comes from. -/
def Interleaves {ι α : Type} [DecidableEq ι] (parts : ι → List α) (whole : List α) : Prop :=
  ∃ marked : List (ι × α),
    marked.map Prod.snd = whole ∧ ∀ i, (marked.filter (·.1 = i)).map Prod.snd = parts i

namespace Interleaves

variable {ι α : Type} [DecidableEq ι] {parts parts' : ι → List α} {whole whole' : List α}

theorem congr (h : Interleaves parts whole) (heq : ∀ i, parts i = parts' i) :
    Interleaves parts' whole := by
  obtain ⟨marked, hwhole, hparts⟩ := h
  exact ⟨marked, hwhole, fun i => (hparts i).trans (heq i)⟩

/-- One list alone. -/
theorem single (i : ι) (whole : List α) :
    Interleaves (fun j => if j = i then whole else []) whole := by
  refine ⟨whole.map (i, ·), ?_, fun j => ?_⟩
  · rw [List.map_map]
    exact List.map_id _
  · rw [List.filter_map, List.map_map]
    by_cases h : j = i
    · subst h
      simp [Function.comp_def]
    · simp [Function.comp_def, h, Ne.symm h]

theorem append (h : Interleaves parts whole) (h' : Interleaves parts' whole') :
    Interleaves (fun i => parts i ++ parts' i) (whole ++ whole') := by
  obtain ⟨marked, hwhole, hparts⟩ := h
  obtain ⟨marked', hwhole', hparts'⟩ := h'
  refine ⟨marked ++ marked', ?_, fun i => ?_⟩
  · rw [List.map_append, hwhole, hwhole']
  · rw [List.filter_append, List.map_append, hparts, hparts']

/-- Two of the lists are there apart from each other. -/
theorem subperm (h : Interleaves parts whole) {i j : ι} (hne : i ≠ j) :
    (parts i ++ parts j).Subperm whole := by
  obtain ⟨marked, rfl, hparts⟩ := h
  have hsub : (marked.filter (·.1 = j)).Sublist (marked.filter fun m => !decide (m.1 = i)) := by
    refine List.monotone_filter_right marked fun m hm => ?_
    rw [decide_eq_true_eq] at hm
    simpa [hm] using hne.symm
  have hperm := (List.filter_append_perm (fun m : ι × α => decide (m.1 = i)) marked).map Prod.snd
  rw [← hparts i, ← hparts j, ← List.map_append]
  exact ((hsub.append_left _).map Prod.snd).subperm.trans hperm.subperm

end Interleaves

end TagHelpers
