import TagHelpers.Span
import Mathlib.Data.List.Basic

/-!
# Spans that hold others

* `holds_foldl_merge_iff`: there is room for what spans are merged to exactly where there is room
  for each of them. So they are held by the result, but for the stub (`contains_foldl_merge`).
* `before_foldl_merge`: merging does not reach behind the offset that the spans end before.
-/

namespace TagHelpers.Span

variable {s s' s₁ s₂ t : Span} {ss : List Span} {k k' : UInt32}

/-- `s'` lies within `s`. -/
def Contains (s s' : Span) : Prop :=
  s.start ≤ s'.start ∧ s'.stop ≤ s.stop

instance (s s' : Span) : Decidable (s.Contains s') :=
  inferInstanceAs (Decidable (_ ∧ _))

/-- A span that ends before an offset. -/
def Before (k : UInt32) (s : Span) : Prop :=
  s.start ≤ s.stop ∧ s.stop ≤ k

theorem Contains.refl (s : Span) : s.Contains s :=
  ⟨UInt32.le_refl _, UInt32.le_refl _⟩

theorem Contains.trans (h : s.Contains s₁) (h' : s₁.Contains s₂) : s.Contains s₂ :=
  ⟨UInt32.le_trans h.1 h'.1, UInt32.le_trans h'.2 h.2⟩

theorem Before.mono (h : s.Before k) (hk : k ≤ k') : s.Before k' :=
  ⟨h.1, UInt32.le_trans h.2 hk⟩

theorem ne_stub_of_isEmpty (h : s.isEmpty = false) : s ≠ stub := by
  rintro rfl
  cases h

theorem Contains.between (h : s.Contains s₁) (h' : s.Contains s₂) (hstart : s₁.start ≤ s'.start)
    (hstop : s'.stop ≤ s₂.stop) : s.Contains s' :=
  ⟨UInt32.le_trans h.1 hstart, UInt32.le_trans hstop h'.2⟩

/-! ### Merging -/

@[simp] theorem stub_merge (s : Span) : stub.merge s = s :=
  if_pos rfl

@[simp] theorem merge_stub (s : Span) : s.merge stub = s := by
  unfold merge
  split
  · symm
    assumption
  · rfl

theorem merge_of_ne (h : s ≠ stub) (h' : s' ≠ stub) :
    s.merge s' = ⟨if s.start ≤ s'.start then s.start else s'.start,
      if s.stop ≤ s'.stop then s'.stop else s.stop⟩ := by
  rw [merge, if_neg h, if_neg h']
  rfl

/-- A merged span is one of the two where the other is the stub, and takes the outer offsets of both
otherwise. -/
theorem merge_cases {P : Span → Prop} (hleft : s = stub → P s') (hright : s' = stub → P s)
    (hboth : s ≠ stub → s' ≠ stub →
      P ⟨if s.start ≤ s'.start then s.start else s'.start,
        if s.stop ≤ s'.stop then s'.stop else s.stop⟩) : P (s.merge s') := by
  by_cases hs : s = stub
  · rw [hs, stub_merge]
    exact hleft hs
  · by_cases hs' : s' = stub
    · rw [hs', merge_stub]
      exact hright hs'
    · rw [merge_of_ne hs hs']
      exact hboth hs hs'

theorem contains_merge_left (h : s ≠ stub) (s' : Span) : (s.merge s').Contains s := by
  refine merge_cases (P := (·.Contains s)) (fun hs => absurd hs h) (fun _ => Contains.refl s) ?_
  intro _ _
  unfold Contains
  grind

theorem contains_merge_right (s : Span) (h : s' ≠ stub) : (s.merge s').Contains s' := by
  refine merge_cases (P := (·.Contains s')) (fun _ => Contains.refl s') (fun hs => absurd hs h) ?_
  intro _ _
  unfold Contains
  grind

theorem before_merge (h : s.Before k) (h' : s'.Before k) : (s.merge s').Before k := by
  refine merge_cases (P := Before k) (fun _ => h') (fun _ => h) ?_
  intro _ _
  unfold Before at *
  grind

theorem le_start_merge (h : k ≤ s.start) (h' : k ≤ s'.start) : k ≤ (s.merge s').start := by
  refine merge_cases (P := (k ≤ ·.start)) (fun _ => h') (fun _ => h) ?_
  intro _ _
  grind

/-- Only stubs are merged to the stub. -/
theorem merge_ne_stub (h : s ≠ stub ∨ s' ≠ stub) : s.merge s' ≠ stub := by
  refine merge_cases (P := (· ≠ stub)) (fun hs => h.resolve_left (not_not.2 hs))
    (fun hs' => h.resolve_right (not_not.2 hs')) ?_
  intro hs hs'
  obtain ⟨start, stop⟩ := s
  obtain ⟨start', stop'⟩ := s'
  simp only [stub, mk.injEq, ne_eq] at hs hs' ⊢
  grind

/-- That a span has room for `s`, which the stub needs nowhere. -/
def Holds (t s : Span) : Prop :=
  s ≠ stub → t.Contains s

theorem holds_stub (t : Span) : t.Holds stub :=
  absurd rfl

/-- There is room for what two spans are merged to exactly where there is room for both. -/
theorem holds_merge_iff : t.Holds (s.merge s') ↔ t.Holds s ∧ t.Holds s' := by
  constructor
  · intro h
    constructor
    · intro hs
      exact (h (merge_ne_stub (.inl hs))).trans (contains_merge_left hs s')
    · intro hs'
      exact (h (merge_ne_stub (.inr hs'))).trans (contains_merge_right s hs')
  · rintro ⟨h, h'⟩
    refine merge_cases (P := t.Holds) (fun _ => h') (fun _ => h) ?_
    intro hs hs' _
    have hin := h hs
    have hin' := h' hs'
    unfold Contains at *
    grind

/-! ### Merging a list -/

theorem holds_foldl_merge_iff :
    t.Holds (ss.foldl merge s) ↔ t.Holds s ∧ ∀ s' ∈ ss, t.Holds s' := by
  induction ss generalizing s with
  | nil => rw [List.foldl_nil, and_iff_left (List.forall_mem_nil _)]
  | cons s' ss ih => rw [List.foldl_cons, ih, holds_merge_iff, and_assoc, List.forall_mem_cons]

theorem contains_foldl_merge_left (h : s ≠ stub) (ss : List Span) :
    (ss.foldl merge s).Contains s :=
  (holds_foldl_merge_iff.1 fun _ => Contains.refl _).1 h

/-- **A list of spans is held by what it is merged to**, but for the stub. -/
theorem contains_foldl_merge (s : Span) (hs' : s' ∈ ss) (h : s' ≠ stub) :
    (ss.foldl merge s).Contains s' :=
  (holds_foldl_merge_iff.1 fun _ => Contains.refl _).2 s' hs' h

theorem before_foldl_merge (h : s.Before k) (hss : ∀ s' ∈ ss, s'.Before k) :
    (ss.foldl merge s).Before k := by
  induction ss generalizing s with
  | nil => exact h
  | cons x ss ih =>
    exact ih (before_merge h (hss x List.mem_cons_self)) fun s' hs' =>
      hss s' (List.mem_cons_of_mem x hs')

end TagHelpers.Span
