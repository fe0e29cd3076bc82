import TagHelpers.Proofs.Pipeline.Registration

/-!
# Passes of equal order

Registering passes one after another sorts them, and passes of equal order stay in the order in
which they were registered. Where a pass is put may be found by any search that finds where a list
is divided; such a search is of use only because the passes are sorted before every registration.

* `insertPass_append`: a pass is put where the list is divided by its order.
* `filter_registered`: passes of equal order are in the order of their registration.
* `eq_of_filter_order_eq`: that, and being sorted, leaves one list only.
* `foldl_registerAt`: the search makes no difference.
-/

namespace TagHelpers.Engine

variable {p q : Pass} {ps qs before after : List Pass} {find : (Pass → Bool) → List Pass → ℕ}

/-! ### Where a pass is put -/

/-- Passes that are sorted are divided by the order of any pass. -/
theorem exists_division (p : Pass) (h : ps.Pairwise (·.order ≤ ·.order)) :
    ∃ before after, ps = before ++ after ∧ (∀ q ∈ before, q.order ≤ p.order) ∧
      ∀ q ∈ after, p.order < q.order := by
  induction ps with
  | nil => exact ⟨[], [], rfl, List.forall_mem_nil _, List.forall_mem_nil _⟩
  | cons q ps ih =>
    obtain ⟨hq, hps⟩ := List.pairwise_cons.1 h
    by_cases hle : q.order ≤ p.order
    · obtain ⟨before, after, rfl, hbefore, hafter⟩ := ih hps
      exact ⟨q :: before, after, rfl, List.forall_mem_cons.2 ⟨hle, hbefore⟩, hafter⟩
    · refine ⟨[], q :: ps, rfl, List.forall_mem_nil _, List.forall_mem_cons.2 ⟨by omega, ?_⟩⟩
      intro r hr
      have := hq r hr
      omega

/-- A pass is put where the list is divided. -/
theorem insertPass_append (hbefore : ∀ q ∈ before, q.order ≤ p.order)
    (hafter : ∀ q ∈ after, p.order < q.order) :
    insertPass p (before ++ after) = before ++ p :: after := by
  induction before with
  | nil =>
    cases after with
    | nil => rfl
    | cons q after =>
      have hq : ¬ q.order ≤ p.order := Nat.not_le.2 (hafter q List.mem_cons_self)
      rw [List.nil_append, insertPass, if_neg hq, List.nil_append]
  | cons q before ih =>
    obtain ⟨hq, hbefore⟩ := List.forall_mem_cons.1 hbefore
    rw [List.cons_append, insertPass, if_pos hq, ih hbefore, List.cons_append]

/-! ### Stability -/

/-- Among the passes of its order, a pass that is registered comes last. -/
theorem filter_insertPass (p : Pass) (h : ps.Pairwise (·.order ≤ ·.order)) (k : ℕ) :
    (insertPass p ps).filter (·.order = k) = (ps ++ [p]).filter (·.order = k) := by
  obtain ⟨before, after, rfl, hbefore, hafter⟩ := exists_division p h
  rw [insertPass_append hbefore hafter, List.append_assoc, List.filter_append, List.filter_append]
  congr 1
  by_cases hk : p.order = k
  · have hnil : after.filter (·.order = k) = [] := by
      refine List.filter_eq_nil_iff.2 fun q hq => ?_
      have := hafter q hq
      simp only [decide_eq_true_eq]
      omega
    simp [List.filter_cons, hnil]
  · simp [hk]

theorem filter_foldl_register (k : ℕ) (ps : List Pass) :
    ∀ e : Engine, e.passes.Pairwise (·.order ≤ ·.order) →
      (ps.foldl register e).passes.filter (·.order = k) =
        (e.passes ++ ps).filter (·.order = k) := by
  induction ps with
  | nil => intro e _; rw [List.append_nil]; rfl
  | cons p ps ih =>
    intro e he
    calc ((p :: ps).foldl register e).passes.filter (·.order = k)
        = ((e.register p).passes ++ ps).filter (·.order = k) :=
          ih (e.register p) (pairwise_insertPass he)
      _ = (e.passes ++ [p]).filter (·.order = k) ++ ps.filter (·.order = k) := by
          rw [List.filter_append, ← filter_insertPass p he k]
          rfl
      _ = (e.passes ++ p :: ps).filter (·.order = k) := by
          rw [← List.filter_append, List.append_assoc, List.singleton_append]

/-- **Passes of equal order are in the order of their registration.** -/
theorem filter_registered (options : Options) (ps : List Pass) (k : ℕ) :
    (registered options ps).passes.filter (·.order = k) = ps.filter (·.order = k) :=
  filter_foldl_register k ps _ List.Pairwise.nil

/-- A pass of one list is one of the other, in the part of its order. -/
theorem mem_of_filter_order_eq (h : ∀ k, ps.filter (·.order = k) = qs.filter (·.order = k))
    (hp : p ∈ ps) : p ∈ qs := by
  have hpart : p ∈ ps.filter (·.order = p.order) := List.mem_filter.2 ⟨hp, decide_eq_true rfl⟩
  rw [h] at hpart
  exact List.mem_of_mem_filter hpart

/-- The first pass of one list is of lowest order in the other one, too. -/
theorem order_head_le (hqs : (q :: qs).Pairwise (·.order ≤ ·.order))
    (h : ∀ k, ps.filter (·.order = k) = (q :: qs).filter (·.order = k)) (hp : p ∈ ps) :
    q.order ≤ p.order := by
  rcases List.mem_cons.1 (mem_of_filter_order_eq h hp) with rfl | hm
  · exact le_rfl
  · exact (List.pairwise_cons.1 hqs).1 p hm

/-- **There is one way to sort a list stably.** -/
theorem eq_of_filter_order_eq (hps : ps.Pairwise (·.order ≤ ·.order))
    (hqs : qs.Pairwise (·.order ≤ ·.order))
    (h : ∀ k, ps.filter (·.order = k) = qs.filter (·.order = k)) : ps = qs := by
  induction ps generalizing qs with
  | nil =>
    cases qs with
    | nil => rfl
    | cons q qs =>
      exact absurd (mem_of_filter_order_eq (fun k => (h k).symm) List.mem_cons_self)
        List.not_mem_nil
  | cons p ps ih =>
    cases qs with
    | nil => exact absurd (mem_of_filter_order_eq h List.mem_cons_self) List.not_mem_nil
    | cons q qs =>
      have horder : q.order = p.order :=
        le_antisymm (order_head_le hqs h List.mem_cons_self)
          (order_head_le hps (fun k => (h k).symm) List.mem_cons_self)
      -- the first passes head the same part
      have hhead := h p.order
      rw [List.filter_cons, List.filter_cons, if_pos (decide_eq_true rfl),
        if_pos (decide_eq_true horder)] at hhead
      obtain rfl := List.head_eq_of_cons_eq hhead
      congr 1
      refine ih (List.pairwise_cons.1 hps).2 (List.pairwise_cons.1 hqs).2 fun k => ?_
      have hk := h k
      rw [List.filter_cons, List.filter_cons] at hk
      split at hk
      · exact List.tail_eq_of_cons_eq hk
      · exact hk

/-- Whether a pass may come before another. -/
def mayPrecede (p q : Pass) : Bool := p.order ≤ q.order

theorem mayPrecede_trans (p q r : Pass) (h : mayPrecede p q = true) (h' : mayPrecede q r = true) :
    mayPrecede p r = true := by
  unfold mayPrecede at h h' ⊢
  rw [decide_eq_true_eq] at h h' ⊢
  exact le_trans h h'

theorem mayPrecede_total (p q : Pass) : (mayPrecede p q || mayPrecede q p) = true := by
  unfold mayPrecede
  rw [Bool.or_eq_true, decide_eq_true_eq, decide_eq_true_eq]
  exact le_total p.order q.order

theorem pairwise_mergeSort_mayPrecede (ps : List Pass) :
    (ps.mergeSort mayPrecede).Pairwise (·.order ≤ ·.order) := by
  refine (List.pairwise_mergeSort mayPrecede_trans mayPrecede_total ps).imp ?_
  intro p q h
  exact of_decide_eq_true h

theorem filter_mergeSort_mayPrecede (ps : List Pass) (k : ℕ) :
    (ps.mergeSort mayPrecede).filter (·.order = k) = ps.filter (·.order = k) := by
  have horder : ∀ {p : Pass}, p ∈ ps.filter (·.order = k) → p.order = k := by
    intro p hp
    exact of_decide_eq_true (List.mem_filter.1 hp).2
  have hpart : (ps.filter (·.order = k)).Pairwise fun p q => mayPrecede p q = true := by
    refine List.pairwise_of_forall_mem_list fun p hp q hq => decide_eq_true ?_
    rw [horder hp, horder hq]
  have hsub := (List.sublist_mergeSort mayPrecede_trans mayPrecede_total hpart
    List.filter_sublist).filter (·.order = k)
  rw [List.filter_filter] at hsub
  simp only [Bool.and_self] at hsub
  -- as many passes have the order before and after
  exact (hsub.eq_of_length ((List.mergeSort_perm ps mayPrecede).filter _).length_eq.symm).symm

/-! ### Searching for the place -/

/-- **A search that finds where a list is divided**: if all that satisfies a predicate comes before
all that does not, it finds the first item that does not. Of other lists nothing is said. -/
def FindsDivision (find : (Pass → Bool) → List Pass → ℕ) : Prop :=
  ∀ (f : Pass → Bool) (before after : List Pass), (∀ p ∈ before, f p = true) →
    (∀ p ∈ after, f p = false) → find f (before ++ after) = before.length

/-- Adds a pass at the place that a search finds for it: after those of lower or equal order. -/
def registerAt (find : (Pass → Bool) → List Pass → ℕ) (e : Engine) (p : Pass) : Engine :=
  { e with passes := e.passes.insertIdx (find (mayPrecede · p) e.passes) p }

theorem insertIdx_length_append (before after : List Pass) (p : Pass) :
    (before ++ after).insertIdx before.length p = before ++ p :: after := by
  induction before with
  | nil => rfl
  | cons q before ih =>
    rw [List.cons_append, List.length_cons, List.insertIdx_succ_cons, ih, List.cons_append]

/-- On passes that are sorted, a search finds the right place. -/
theorem registerAt_eq_register (hfind : FindsDivision find) (e : Engine) (p : Pass)
    (he : e.passes.Pairwise (·.order ≤ ·.order)) : e.registerAt find p = e.register p := by
  obtain ⟨before, after, hps, hbefore, hafter⟩ := exists_division p he
  have hplace : find (mayPrecede · p) e.passes = before.length := by
    rw [hps]
    refine hfind _ before after (fun q hq => decide_eq_true (hbefore q hq)) fun q hq => ?_
    exact decide_eq_false (Nat.not_le.2 (hafter q hq))
  unfold registerAt register
  rw [hplace, hps, insertIdx_length_append, insertPass_append hbefore hafter]

/-- **The search makes no difference**, as the passes are sorted whenever it is made. -/
theorem foldl_registerAt (hfind : FindsDivision find) (ps : List Pass) :
    ∀ e : Engine, e.passes.Pairwise (·.order ≤ ·.order) →
      ps.foldl (registerAt find) e = ps.foldl register e := by
  induction ps with
  | nil => intro e _; rfl
  | cons p ps ih =>
    intro e he
    rw [List.foldl_cons, List.foldl_cons, registerAt_eq_register hfind e p he]
    exact ih (e.register p) (pairwise_insertPass he)

/-- **Registering passes sorts them stably.** Whatever passes are registered on an engine without
passes, and by whatever search their places are found, the passes of the engine are those that were
registered, no more and no fewer, by their order, and those of equal order in the order in which
they were registered. -/
theorem passes_registered (find : (Pass → Bool) → List Pass → ℕ) (hfind : FindsDivision find)
    (options : Options) (ps : List Pass) :
    ps.foldl (registerAt find) { options } = registered options ps ∧
    (registered options ps).passes = ps.mergeSort mayPrecede ∧
    (registered options ps).passes.Perm ps ∧
    (registered options ps).passes.Pairwise (·.order ≤ ·.order) ∧
    ∀ k, (registered options ps).passes.filter (·.order = k) = ps.filter (·.order = k) := by
  refine ⟨?_, ?_, perm_registered options ps, pairwise_registered options ps,
    filter_registered options ps⟩
  · exact foldl_registerAt hfind ps { options } List.Pairwise.nil
  · refine eq_of_filter_order_eq (pairwise_registered options ps)
      (pairwise_mergeSort_mayPrecede ps) fun k => ?_
    rw [filter_registered, filter_mergeSort_mayPrecede]

/-! ### Searching by halves -/

/-- A search by halves: what is searched for lies among `size` items from `base` on, or right after
them. -/
def bisect (f : Pass → Bool) (ps : List Pass) (base size : ℕ) : ℕ :=
  if size ≤ 1 then
    if (ps[base]?).any f then base + 1 else base
  else if (ps[base + size / 2]?).any f then bisect f ps (base + size / 2) (size - size / 2)
  else bisect f ps base (size - size / 2)
termination_by size
decreasing_by all_goals omega

/-- An item satisfies the predicate if it stands before the place where the list is divided. -/
theorem any_getElem?_division {f : Pass → Bool} (hbefore : ∀ p ∈ before, f p = true)
    (hafter : ∀ p ∈ after, f p = false) (i : ℕ) :
    ((before ++ after)[i]?).any f = decide (i < before.length) := by
  by_cases hi : i < before.length
  · rw [List.getElem?_append_left hi, List.getElem?_eq_getElem hi, Option.any_some,
      hbefore _ (List.getElem_mem hi), decide_eq_true hi]
  · rw [List.getElem?_append_right (Nat.not_lt.1 hi), decide_eq_false hi]
    cases h : after[i - before.length]? with
    | none => rfl
    | some q => rw [Option.any_some, hafter q (List.mem_of_getElem? h)]

/-- The place stays among those that are searched. -/
theorem bisect_division {f : Pass → Bool} (hbefore : ∀ p ∈ before, f p = true)
    (hafter : ∀ p ∈ after, f p = false) (base size : ℕ) (hbase : base ≤ before.length)
    (hsize : before.length ≤ base + size) : bisect f (before ++ after) base size = before.length := by
  fun_induction bisect f (before ++ after) base size with
  | case1 base size hone hany =>
    rw [any_getElem?_division hbefore hafter, decide_eq_true_eq] at hany
    omega
  | case2 base size hone hany =>
    rw [any_getElem?_division hbefore hafter, decide_eq_true_eq] at hany
    omega
  | case3 base size hone hany ih =>
    rw [any_getElem?_division hbefore hafter, decide_eq_true_eq] at hany
    exact ih (by omega) (by omega)
  | case4 base size hone hany ih =>
    rw [any_getElem?_division hbefore hafter, decide_eq_true_eq] at hany
    exact ih hbase (by omega)

theorem findsDivision_bisect : FindsDivision fun f ps => bisect f ps 0 ps.length := by
  intro f before after hbefore hafter
  refine bisect_division hbefore hafter 0 _ (Nat.zero_le _) ?_
  rw [List.length_append]
  omega

/-- A pass that does nothing. -/
def Sample.idle (name : String) (order : ℕ) : Pass where
  name := name
  order := order
  run _ d := .ok d

theorem passes_registered_late :
    FindsDivision (fun f ps => bisect f ps 0 ps.length) ∧
    ([.classify, .lowerBinds, Sample.idle "late" 1000, .scan, Sample.idle "first" 0].foldl
        (registerAt fun f ps => bisect f ps 0 ps.length) {}).passes =
      [Sample.idle "first" 0, .scan, .classify, Sample.idle "late" 1000, .lowerBinds] := by
  refine ⟨findsDivision_bisect, ?_⟩
  rw [(passes_registered _ findsDivision_bisect {} _).1]
  rfl

end TagHelpers.Engine
