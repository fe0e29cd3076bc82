import TagHelpers.Proofs.Span
import Mathlib.Data.Finset.Lattice.Fold
import Mathlib.Order.Lattice.Nat
import Mathlib.Order.WithBot

/-!
# Merging as a supremum

A span takes up the more of the source the earlier it starts and the later it stops, and the stub
takes up nothing. In this order merging is the supremum, also of spans that stop before they start,
since two spans other than the stub are never merged to it.

* `extent_merge`, `extent_cover`: what is taken up by spans that are merged.
* `cover_congr`: a list is covered by the same span in any order and with any repetitions.
* `merge_semilattice`: the laws of merging, and that a list is covered tightly.
-/

namespace TagHelpers.Span

open OrderDual

variable {s s' t : Span} {ss ss' : List Span}

/-- What a span takes up: nothing for the stub, and from its start to its stop otherwise. -/
def extent (s : Span) : WithBot (ℕᵒᵈ × ℕ) :=
  if s = stub then ⊥ else ((toDual s.start.toNat, s.stop.toNat) : ℕᵒᵈ × ℕ)

@[simp] theorem extent_stub : stub.extent = ⊥ :=
  if_pos rfl

theorem extent_of_ne (h : s ≠ stub) :
    s.extent = ((toDual s.start.toNat, s.stop.toNat) : ℕᵒᵈ × ℕ) :=
  if_neg h

theorem extent_eq_bot_iff : s.extent = ⊥ ↔ s = stub := by
  constructor
  · intro h
    by_contra hs
    rw [extent_of_ne hs] at h
    exact WithBot.coe_ne_bot h
  · rintro rfl
    exact extent_stub

theorem extent_injective : Function.Injective extent := by
  intro s s' h
  by_cases hs : s = stub
  · rw [hs, extent_stub, eq_comm, extent_eq_bot_iff] at h
    rw [hs, h]
  · have hs' : s' ≠ stub := by
      rintro rfl
      exact hs (extent_eq_bot_iff.1 (h.trans extent_stub))
    rw [extent_of_ne hs, extent_of_ne hs', WithBot.coe_inj, Prod.mk.injEq, toDual_inj,
      UInt32.toNat_inj, UInt32.toNat_inj] at h
    exact congrArg₂ mk h.1 h.2

/-- **Merging is the supremum.** -/
theorem extent_merge (s s' : Span) : (s.merge s').extent = s.extent ⊔ s'.extent := by
  by_cases hs : s = stub
  · rw [hs, stub_merge, extent_stub, bot_sup_eq]
  by_cases hs' : s' = stub
  · rw [hs', merge_stub, extent_stub, sup_bot_eq]
  -- what is merged is not the stub, so that its offsets count
  rw [extent_of_ne (merge_ne_stub (.inl hs)), extent_of_ne hs, extent_of_ne hs', ← WithBot.coe_sup,
    Prod.mk_sup_mk, ← toDual_inf, merge, if_neg hs, if_neg hs', UInt32.toNat_min, UInt32.toNat_max]

theorem merge_comm (s s' : Span) : s.merge s' = s'.merge s :=
  extent_injective (by rw [extent_merge, extent_merge, sup_comm])

theorem merge_assoc (s s' t : Span) : (s.merge s').merge t = s.merge (s'.merge t) :=
  extent_injective (by simp only [extent_merge, sup_assoc])

theorem merge_self (s : Span) : s.merge s = s :=
  extent_injective (by rw [extent_merge, sup_idem])

/-! ### Covering a list -/

theorem extent_foldl_merge (s : Span) (ss : List Span) :
    (ss.foldl merge s).extent = s.extent ⊔ ss.toFinset.sup extent := by
  induction ss generalizing s with
  | nil => rw [List.foldl_nil, List.toFinset_nil, Finset.sup_empty, sup_bot_eq]
  | cons s' ss ih =>
    rw [List.foldl_cons, ih, extent_merge, List.toFinset_cons, Finset.sup_insert, sup_assoc]

theorem extent_cover (ss : List Span) : (cover ss).extent = ss.toFinset.sup extent := by
  rw [cover, extent_foldl_merge, extent_stub, bot_sup_eq]

/-- **Only which spans there are matters**, not their order or how often they come. -/
theorem cover_congr (h : ∀ s, s ∈ ss ↔ s ∈ ss') : cover ss = cover ss' :=
  extent_injective (by rw [extent_cover, extent_cover, List.toFinset.ext_iff.2 h])

/-- **A list is covered tightly**: its cover needs no more room than its spans do. -/
theorem holds_cover_iff : t.Holds (cover ss) ↔ ∀ s ∈ ss, t.Holds s := by
  rw [cover, holds_foldl_merge_iff, and_iff_right (holds_stub t)]

theorem start_le_stop_cover (h : ∀ s ∈ ss, s.start ≤ s.stop) :
    (cover ss).start ≤ (cover ss).stop := by
  have hlast : ∀ k : UInt32, k ≤ 4294967295 := fun k => Nat.le_of_lt_succ k.toNat_lt
  have hstub : stub.Before 4294967295 := ⟨UInt32.le_refl _, hlast _⟩
  exact (before_foldl_merge hstub fun s hs => ⟨h s hs, hlast _⟩).1

/-- The bytes of a span that does not stop before it starts can be counted. -/
theorem exists_length? (h : s.start ≤ s.stop) :
    ∃ n, s.length? = some n ∧ s.start.toNat + n.toNat = s.stop.toNat := by
  refine ⟨s.stop - s.start, if_pos h, ?_⟩
  rw [UInt32.toNat_sub_of_le _ _ h]
  exact Nat.add_sub_cancel' h

/-- **Merging makes spans a semilattice with the stub as its least element**: it is associative,
commutative and idempotent, and the stub is its identity. So a list of spans is covered by the same
span in any order and with any repetitions. That span holds each span of the list but the stub and
lies within every span that holds them, and where none of them stops before it starts, neither does
it, and it has a length. -/
theorem merge_semilattice :
    (∀ a b c : Span, (a.merge b).merge c = a.merge (b.merge c)) ∧
    (∀ a b : Span, a.merge b = b.merge a) ∧
    (∀ a : Span, a.merge a = a) ∧
    (∀ a : Span, stub.merge a = a ∧ a.merge stub = a) ∧
    (∀ ss ss' : List Span, (∀ s, s ∈ ss ↔ s ∈ ss') → cover ss = cover ss') ∧
    (∀ ss : List Span, ∀ s ∈ ss, s ≠ stub → (cover ss).Contains s) ∧
    (∀ (ss : List Span) (t : Span), t.Holds (cover ss) ↔ ∀ s ∈ ss, t.Holds s) ∧
    ∀ ss : List Span, (∀ s ∈ ss, s.start ≤ s.stop) →
      (cover ss).start ≤ (cover ss).stop ∧
        ∃ n, (cover ss).length? = some n ∧
          (cover ss).start.toNat + n.toNat = (cover ss).stop.toNat := by
  refine ⟨merge_assoc, merge_comm, merge_self, fun a => ⟨stub_merge a, merge_stub a⟩,
    fun _ _ => cover_congr, ?_, fun _ _ => holds_cover_iff, ?_⟩
  · intro ss s hs
    exact contains_foldl_merge stub hs
  · intro ss hss
    have hle := start_le_stop_cover hss
    exact ⟨hle, exists_length? hle⟩

theorem merge_semilattice_repeated :
    cover [⟨4, 6⟩, ⟨9, 2⟩, stub] = cover [stub, ⟨9, 2⟩, ⟨4, 6⟩, ⟨9, 2⟩] ∧
    (cover [⟨9, 2⟩, stub, ⟨5, 1⟩]).Contains ⟨9, 2⟩ ∧
    ∃ n, (cover [⟨4, 6⟩, ⟨1, 2⟩, stub]).length? = some n ∧
      (cover [⟨4, 6⟩, ⟨1, 2⟩, stub]).start.toNat + n.toNat =
        (cover [⟨4, 6⟩, ⟨1, 2⟩, stub]).stop.toNat := by
  obtain ⟨-, -, -, -, hcongr, hcontains, -, hlength⟩ := merge_semilattice
  refine ⟨hcongr _ _ ?_, hcontains _ _ (by decide) (by decide), (hlength _ (by decide)).2⟩
  intro s
  simp only [List.mem_cons, List.not_mem_nil, or_false]
  tauto

end TagHelpers.Span
