import TagHelpers.Proofs.RenderTree.Tree
import Mathlib.Data.Finset.Card

/-!
# Walks down a tree

The functions that go down from a node take as much fuel as there are nodes. `Walk.of_reaches`: this
is enough to come to everything below the node, also where a node stands below several others, since
there is a way down that passes no node twice.
-/

namespace TagHelpers.RenderTree

/-! ### Ways that pass no node twice -/

/-- A way of at most `n` nodes from `a` to `b`. -/
def Walk (R : ℕ → ℕ → Prop) : ℕ → ℕ → ℕ → Prop
  | 0, _, _ => False
  | n + 1, a, b => a = b ∨ ∃ c, R a c ∧ Walk R n c b

/-- A step to a node that is not in a set. -/
def Avoids (R : ℕ → ℕ → Prop) (seen : Finset ℕ) (a b : ℕ) : Prop :=
  R a b ∧ b ∉ seen

section

variable {R : ℕ → ℕ → Prop} {seen : Finset ℕ} {N n a b x : ℕ}

/-- A way can be cut at the last node where it passes `a`. -/
theorem Avoids.insert_cases (h : Relation.ReflTransGen (Avoids R seen) x b) (a : ℕ) :
    Relation.ReflTransGen (Avoids R (insert a seen)) x b ∨
      Relation.ReflTransGen (Avoids R (insert a seen)) a b := by
  induction h using Relation.ReflTransGen.head_induction_on with
  | refl => exact .inl .refl
  | @head x y hxy _ ih =>
    rcases ih with ih | ih
    · by_cases hy : y = a
      · exact .inr (hy ▸ ih)
      · refine .inl (.head ⟨hxy.1, ?_⟩ ih)
        rw [Finset.mem_insert, not_or]
        exact ⟨hy, hxy.2⟩
    · exact .inr ih

/-- The way needs one node for each that is not in the set. -/
theorem Walk.of_avoids (hR : ∀ x y, R x y → x < N) (hb : b < N) :
    ∀ n (seen : Finset ℕ), seen ⊆ Finset.range N → N = n + seen.card → ∀ a ∉ seen,
      Relation.ReflTransGen (Avoids R seen) a b → Walk R n a b := by
  have hlt : ∀ {seen : Finset ℕ} {x : ℕ}, Relation.ReflTransGen (Avoids R seen) x b → x < N := by
    intro seen x hx
    rcases Relation.ReflTransGen.cases_head hx with rfl | ⟨y, hxy, -⟩
    · exact hb
    · exact hR x y hxy.1
  intro n
  induction n with
  | zero =>
    intro seen hsub hcard a ha hab
    -- the set is full
    have hall : seen = Finset.range N :=
      Finset.eq_of_subset_of_card_le hsub (by rw [Finset.card_range]; omega)
    exact absurd (hall ▸ Finset.mem_range.2 (hlt hab)) ha
  | succ n ih =>
    intro seen hsub hcard a ha hab
    have hrest := (Avoids.insert_cases hab a).elim id id
    rcases Relation.ReflTransGen.cases_head hrest with rfl | ⟨c, hac, hcb⟩
    · exact .inl rfl
    · refine .inr ⟨c, hac.1, ih (insert a seen) ?_ ?_ c hac.2 hcb⟩
      · exact Finset.insert_subset (Finset.mem_range.2 (hlt hab)) hsub
      · rw [Finset.card_insert_of_notMem ha]
        omega

/-- **What can be reached can be reached without passing a node twice.** -/
theorem Walk.of_reaches (hR : ∀ x y, R x y → x < N) (hb : b < N)
    (h : Relation.ReflTransGen R a b) : Walk R N a b :=
  of_avoids hR hb N ∅ (Finset.empty_subset _) rfl a (Finset.notMem_empty a)
    (h.lift id fun _ y hxy => ⟨hxy, Finset.notMem_empty y⟩)

end

/-! ### The nodes below a node -/

variable {t : RenderTree} {a b : NodeId} {n : ℕ}

theorem mem_below_of_walk (h : Walk (fun p c => c ∈ t.children p) n a b) : b ∈ t.below n a := by
  induction n generalizing a with
  | zero => exact h.elim
  | succ n ih =>
    rw [below, List.mem_cons, List.mem_flatMap]
    rcases h with h | ⟨c, hc, hw⟩
    · exact .inl h.symm
    · exact .inr ⟨c, hc, ih hw⟩

/-- A walk down comes to all that is below a node. -/
theorem mem_subtree_of_reaches (h : t.Reaches a b) (hb : b < t.size) : b ∈ t.subtree a :=
  mem_below_of_walk (Walk.of_reaches (fun _ _ => lt_size_of_mem_children) hb h)

end TagHelpers.RenderTree
