import TagHelpers.Proofs.Bind.Conflicts

/-!
# Whether the order of attributes matters

A fallback gives way to a bind attribute of its name that is none, and one for `input` elements
without a `type` gives way to one that asks for it. The two rules can set two candidates against each
other: a fallback that asks for a `type` and a candidate without `type` that is no fallback each give
way to the other. The one that comes last is then dropped first, and the other one stays.

* `rivals_eq_filter`: where every candidate that gives way does so to a free one, the free ones
  stay, in any order.
* `Undecided`: that the outcome of a name hangs on such a pair.
* `agrees_of_not_undecided`: the outcome of every other name is the same in all orders.
* `Undecided.not_agrees`: an undecided name has two orders with different outcomes.
* `orderFree_iff`: so the order of the children of an element is irrelevant if and only if none of
  its names is undecided.
-/

namespace TagHelpers

namespace Descriptor

variable {d : Descriptor}

/-- Whether a bind tag helper for `input` elements asks for a `type` attribute. -/
def isTypedBind (d : Descriptor) : Bool := d.isInputBind && !d.isInputFallbackBind

/-- Whether a bind tag helper is neither a fallback nor one for `input` elements. -/
def isPlainBind (d : Descriptor) : Bool := !d.isFallbackBind && !d.isInputBind

/-- A tag helper that is neither a fallback nor for `input` elements of either sort is plain. -/
theorem isPlainBind_iff : d.isPlainBind = true ↔
    d.isFallbackBind = false ∧ d.isInputFallbackBind = false ∧ d.isTypedBind = false := by
  have hinput : d.isInputFallbackBind = true → d.isInputBind = true := by
    unfold isInputFallbackBind isInputBind
    cases d.inputRule? with
    | none => intro h; cases h
    | some rule => intro _; rfl
  unfold isPlainBind isTypedBind
  cases d.isFallbackBind <;> cases hi : d.isInputBind <;> cases hg : d.isInputFallbackBind <;>
    simp_all

theorem not_isInputFallbackBind_of_isTypedBind (h : d.isTypedBind = true) :
    d.isInputFallbackBind = false := by
  unfold isTypedBind at h
  simpa using (Bool.and_eq_true_iff.1 h).2

end Descriptor

namespace BindCandidate

variable {cs cs' before xs ys : List BindCandidate} {b b' f g : BindCandidate} {name : String}

/-- The descriptor of the tag helper of a candidate. -/
abbrev descriptor (b : BindCandidate) : Descriptor := b.helper.descriptor

/-! ### Giving way -/

theorem yields_iff {d other : Descriptor} : yields d other = true ↔
    (d.isFallbackBind = true ∧ other.isFallbackBind = false) ∨
      (d.isInputFallbackBind = true ∧ other.isTypedBind = true) := by
  unfold yields Descriptor.isTypedBind
  simp [and_assoc]

theorem not_yields_self (d : Descriptor) : ¬ yields d d = true := by
  rw [yields_iff]
  unfold Descriptor.isTypedBind
  rintro (⟨h, h'⟩ | ⟨h, h'⟩)
  · rw [h] at h'
    cases h'
  · rw [h, Bool.not_true, Bool.and_false] at h'
    cases h'

theorem name_eq_of_isShadowedBy (h : b.isShadowedBy b' = true) : b'.name = b.name := by
  unfold isShadowedBy at h
  simp only [Bool.and_eq_true, beq_iff_eq] at h
  exact h.1.2

theorem yields_of_isShadowedBy (h : b.isShadowedBy b' = true) :
    yields b.descriptor b'.descriptor = true := by
  unfold isShadowedBy at h
  simp only [Bool.and_eq_true] at h
  exact h.2

/-- That candidates are determined by their nodes, as those of an element are. -/
def Faithful (cs : List BindCandidate) : Prop :=
  ∀ b ∈ cs, ∀ b' ∈ cs, b.node = b'.node → b = b'

theorem Faithful.subset (h : Faithful cs) (hxs : xs ⊆ cs) : Faithful xs :=
  fun b hb b' hb' => h b (hxs hb) b' (hxs hb')

/-- Of two candidates of one name one gives way if its tag helper does. -/
theorem Faithful.isShadowedBy (h : Faithful cs) (hb : b ∈ cs) (hb' : b' ∈ cs)
    (hname : b'.name = b.name) (hy : yields b.descriptor b'.descriptor = true) :
    b.isShadowedBy b' = true := by
  have hnode : b'.node ≠ b.node := by
    intro he
    obtain rfl := h b' hb' b hb he
    exact not_yields_self _ hy
  unfold BindCandidate.isShadowedBy
  rw [hy, hname]
  simp [hnode]

/-- Whether a candidate gives way to none of the others. -/
def isFree (cs : List BindCandidate) (b : BindCandidate) : Bool := !cs.any b.isShadowedBy

theorem isFree_iff : isFree cs b = true ↔ ∀ b' ∈ cs, b.isShadowedBy b' = false := by
  unfold isFree
  simp

theorem exists_isShadowedBy (h : isFree cs b = false) : ∃ o ∈ cs, b.isShadowedBy o = true := by
  unfold isFree at h
  simpa using h

theorem isFree_perm (h : cs'.Perm cs) : isFree cs' = isFree cs :=
  funext fun _ => congrArg (!·) h.any_eq

/-- A candidate that is no fallback and does not miss a `type` is free. -/
theorem isFree_of_descriptor (hf : b.descriptor.isFallbackBind = false)
    (hg : b.descriptor.isInputFallbackBind = false) : isFree cs b = true := by
  refine isFree_iff.2 fun b' _ => ?_
  by_contra hs
  have hy := yields_of_isShadowedBy (Bool.of_not_eq_false hs)
  rw [yields_iff, hf, hg] at hy
  simp at hy

/-- A candidate stays if it gives way neither to one before it nor to one that is kept after it. -/
theorem dropShadowed_cons_of_unshadowed {c : BindCandidate}
    (h : ∀ b ∈ before ++ c :: (dropShadowed (before ++ [c]) cs).1, c.isShadowedBy b = false) :
    (dropShadowed before (c :: cs)).1 = c :: (dropShadowed (before ++ [c]) cs).1 := by
  have hnone : (before ++ c :: (dropShadowed (before ++ [c]) cs).1).any c.isShadowedBy = false :=
    List.any_eq_false.2 fun b hb => Bool.eq_false_iff.1 (h b hb)
  rw [dropShadowed_cons, hnone]
  rfl

/-- Free candidates are not dropped. -/
theorem filter_isFree_sublist (cs : List BindCandidate) : ∀ before : List BindCandidate,
    (cs.filter (isFree (before ++ cs))).Sublist (dropShadowed before cs).1 := by
  induction cs with
  | nil => intro _; exact List.Sublist.refl _
  | cons c cs ih =>
    intro before
    have hih := ih (before ++ [c])
    rw [List.append_assoc, List.singleton_append] at hih
    by_cases hc : isFree (before ++ c :: cs) c = true
    · have hsub : (before ++ c :: (dropShadowed (before ++ [c]) cs).1).Sublist
          (before ++ c :: cs) := ((dropShadowed_sublist cs _).cons_cons c).append_left before
      rw [dropShadowed_cons_of_unshadowed fun b hb => isFree_iff.1 hc b (hsub.subset hb),
        List.filter_cons_of_pos hc]
      exact hih.cons_cons c
    · rw [List.filter_cons_of_neg hc, dropShadowed_cons]
      split_ifs
      · exact hih
      · exact hih.cons c

theorem mem_kept_of_isFree (hb : b ∈ cs) (hfree : isFree cs b = true) : b ∈ kept cs :=
  (filter_isFree_sublist cs []).subset (List.mem_filter.2 ⟨hb, hfree⟩)

/-! ### Giving way to free candidates -/

/-- That each candidate of a name that gives way does so to a free one. -/
def Grounded (cs : List BindCandidate) (name : String) : Prop :=
  ∀ b ∈ cs, b.name = name → isFree cs b = false →
    ∃ o ∈ cs, isFree cs o = true ∧ b.isShadowedBy o = true

theorem Grounded.perm (h : Grounded cs name) (hp : cs'.Perm cs) : Grounded cs' name := by
  intro b hb hname hfree
  rw [isFree_perm hp] at hfree ⊢
  obtain ⟨o, ho, hofree, hs⟩ := h b (hp.subset hb) hname hfree
  exact ⟨o, hp.symm.subset ho, hofree, hs⟩

/-- **The free candidates stay, and no others of the name.** One that gives way to a free one is not
kept beside it. -/
theorem rivals_eq_filter (h : Grounded cs name) :
    rivals cs name = cs.filter fun b => b.name == name && isFree cs b := by
  have hfree : ∀ b ∈ rivals cs name, isFree cs b = true := by
    intro b hb
    obtain ⟨hkept, hname⟩ := mem_rivals.1 hb
    by_contra hnot
    have hbcs : b ∈ cs := (kept_sublist cs).subset hkept
    obtain ⟨o, ho, hofree, hs⟩ := h b hbcs hname (Bool.eq_false_iff.2 hnot)
    rw [not_isShadowedBy hkept (mem_kept_of_isFree ho hofree)] at hs
    cases hs
  have hkept : rivals cs name = (kept cs).filter fun b => b.name == name && isFree cs b := by
    refine List.filter_congr fun b hb => ?_
    by_cases hname : b.name = name
    · simp [hname, hfree b (mem_rivals.2 ⟨hb, hname⟩)]
    · simp [hname]
  refine List.Sublist.antisymm ?_ ?_
  · rw [hkept]
    exact (kept_sublist cs).filter _
  · rw [← List.filter_filter]
    exact (filter_isFree_sublist cs []).filter _

theorem Grounded.rivals_perm (h : Grounded cs name) (hp : cs'.Perm cs) :
    (rivals cs' name).Perm (rivals cs name) := by
  rw [rivals_eq_filter h, rivals_eq_filter (h.perm hp), isFree_perm hp]
  exact hp.filter _

/-- That two orders of the candidates have the same outcome for a name: it is in conflict in both,
or the same candidate is left in both. -/
def Agrees (cs cs' : List BindCandidate) (name : String) : Prop :=
  (name ∈ conflicts cs' ↔ name ∈ conflicts cs) ∧
    ∀ b, b.name = name → (b ∈ remaining cs' ↔ b ∈ remaining cs)

/-- Two orders that both agree with a third one agree. -/
theorem Agrees.of_common {cs₁ cs₂ : List BindCandidate} (h₁ : Agrees cs cs₁ name)
    (h₂ : Agrees cs cs₂ name) : Agrees cs₁ cs₂ name :=
  ⟨h₂.1.trans h₁.1.symm, fun b hb => (h₂.2 b hb).trans (h₁.2 b hb).symm⟩

theorem agrees_of_rivals_perm (h : (rivals cs' name).Perm (rivals cs name)) :
    Agrees cs cs' name := by
  refine ⟨?_, fun b hb => ?_⟩
  · rw [mem_conflicts, mem_conflicts, h.length_eq]
  · rw [mem_remaining, mem_remaining, hb]
    exact ⟨fun he => List.perm_singleton.1 (he ▸ h.symm), fun he => List.perm_singleton.1 (he ▸ h)⟩

theorem agrees_of_conflicts (h : name ∈ conflicts cs) (h' : name ∈ conflicts cs') :
    Agrees cs cs' name := by
  refine ⟨iff_of_true h' h, fun b hb => iff_of_false ?_ ?_⟩
  · exact fun hr => ne_of_mem_remaining hr h' hb
  · exact fun hr => ne_of_mem_remaining hr h hb

/-! ### Candidates that give way to each other -/

/-- Whether a candidate of a name is a fallback that asks for a `type`. -/
def isTypedFallback (name : String) (b : BindCandidate) : Bool :=
  b.name == name && b.descriptor.isFallbackBind && b.descriptor.isTypedBind

/-- Whether a candidate of a name is one for `input` elements that is no fallback and asks for no
`type`. -/
def isGeneric (name : String) (b : BindCandidate) : Bool :=
  b.name == name && !b.descriptor.isFallbackBind && b.descriptor.isInputFallbackBind

/-- Whether a candidate of a name is neither a fallback nor one for `input` elements. -/
def isPlain (name : String) (b : BindCandidate) : Bool :=
  b.name == name && b.descriptor.isPlainBind

theorem isTypedFallback_iff : isTypedFallback name b = true ↔
    b.name = name ∧ b.descriptor.isFallbackBind = true ∧ b.descriptor.isTypedBind = true := by
  unfold isTypedFallback
  simp [and_assoc]

theorem isGeneric_iff : isGeneric name b = true ↔ b.name = name ∧
    b.descriptor.isFallbackBind = false ∧ b.descriptor.isInputFallbackBind = true := by
  unfold isGeneric
  simp [and_assoc]

theorem isPlain_iff : isPlain name b = true ↔ b.name = name ∧
    b.descriptor.isFallbackBind = false ∧ b.descriptor.isInputFallbackBind = false ∧
      b.descriptor.isTypedBind = false := by
  unfold isPlain
  rw [Bool.and_eq_true, beq_iff_eq, Descriptor.isPlainBind_iff]

/-- That the outcome of a name hangs on a fallback that asks for a `type` and a candidate without
`type` that is no fallback, which give way to each other. It does not if both give way to one with a
`type` that is no fallback, or if two plain candidates are in conflict anyway. -/
structure Undecided (cs : List BindCandidate) (name : String) : Prop where
  typed : ∃ f ∈ cs, isTypedFallback name f = true
  generic : ∃ g ∈ cs, isGeneric name g = true
  fallback_of_typed : ∀ b ∈ cs, b.name = name → b.descriptor.isTypedBind = true →
    b.descriptor.isFallbackBind = true
  plain_le : (cs.filter (isPlain name)).length ≤ 1

/-- A candidate with a `type` that is no fallback is free, and all that give way do so to it. -/
theorem grounded_of_typed (hcs : Faithful cs) (hb : b ∈ cs)
    (hf : b.descriptor.isFallbackBind = false) (ht : b.descriptor.isTypedBind = true) :
    Grounded cs b.name := by
  have hfree : isFree cs b = true :=
    isFree_of_descriptor hf (Descriptor.not_isInputFallbackBind_of_isTypedBind ht)
  intro c hc hname hcfree
  obtain ⟨o, ho, hs⟩ := exists_isShadowedBy hcfree
  refine ⟨b, hb, hfree, hcs.isShadowedBy hc hb hname.symm ?_⟩
  rcases yields_iff.1 (yields_of_isShadowedBy hs) with ⟨hcf, -⟩ | ⟨hcg, -⟩
  · exact yields_iff.2 (.inl ⟨hcf, hf⟩)
  · exact yields_iff.2 (.inr ⟨hcg, ht⟩)

/-- If no candidate asks for a `type`, the ones that give way are fallbacks, and those to which they
give way are free. -/
theorem grounded_of_not_typed (h : ∀ b ∈ cs, b.name = name → b.descriptor.isTypedBind = false) :
    Grounded cs name := by
  intro c hc hname hcfree
  obtain ⟨o, ho, hs⟩ := exists_isShadowedBy hcfree
  have honame : o.name = name := (name_eq_of_isShadowedBy hs).trans hname
  refine ⟨o, ho, isFree_iff.2 fun x hx => ?_, hs⟩
  by_contra hos
  have hos : o.isShadowedBy x = true := Bool.of_not_eq_false hos
  have hxt := h x hx ((name_eq_of_isShadowedBy hos).trans honame)
  have hot := h o ho honame
  rcases yields_iff.1 (yields_of_isShadowedBy hs) with ⟨-, hof⟩ | ⟨-, hot'⟩
  · rcases yields_iff.1 (yields_of_isShadowedBy hos) with ⟨hof', -⟩ | ⟨-, hxt'⟩
    · rw [hof] at hof'
      cases hof'
    · rw [hxt] at hxt'
      cases hxt'
  · rw [hot] at hot'
    cases hot'

/-- If all candidates without `type` are fallbacks, those that are no fallbacks are free. -/
theorem grounded_of_not_generic (hcs : Faithful cs) (h : ∀ b ∈ cs, b.name = name →
    b.descriptor.isInputFallbackBind = true → b.descriptor.isFallbackBind = true) :
    Grounded cs name := by
  have hfree : ∀ b ∈ cs, b.name = name → b.descriptor.isFallbackBind = false →
      isFree cs b = true := by
    intro b hb hname hf
    refine isFree_of_descriptor hf (Bool.eq_false_iff.2 fun hg => ?_)
    rw [h b hb hname hg] at hf
    cases hf
  intro c hc hname hcfree
  have hcf : c.descriptor.isFallbackBind = true := by
    by_contra hcf
    rw [hfree c hc hname (Bool.eq_false_iff.2 hcf)] at hcfree
    cases hcfree
  obtain ⟨o, ho, hs⟩ := exists_isShadowedBy hcfree
  have honame : o.name = name := (name_eq_of_isShadowedBy hs).trans hname
  cases hof : o.descriptor.isFallbackBind with
  | false => exact ⟨o, ho, hfree o ho honame hof, hs⟩
  | true =>
    by_cases hofree : isFree cs o = true
    · exact ⟨o, ho, hofree, hs⟩
    -- a fallback with a `type` gives way only to one that is no fallback, and then so does `c`
    obtain ⟨x, hx, hos⟩ := exists_isShadowedBy (Bool.eq_false_iff.2 hofree)
    have hxname : x.name = name := (name_eq_of_isShadowedBy hos).trans honame
    have hxf : x.descriptor.isFallbackBind = false := by
      rcases yields_iff.1 (yields_of_isShadowedBy hs) with ⟨-, hof'⟩ | ⟨-, hot⟩
      · rw [hof] at hof'
        cases hof'
      · rcases yields_iff.1 (yields_of_isShadowedBy hos) with ⟨-, hxf⟩ | ⟨hog, -⟩
        · exact hxf
        · rw [Descriptor.not_isInputFallbackBind_of_isTypedBind hot] at hog
          cases hog
    refine ⟨x, hx, hfree x hx hxname hxf, ?_⟩
    exact hcs.isShadowedBy hc hx (hxname.trans hname.symm) (yields_iff.2 (.inl ⟨hcf, hxf⟩))

theorem isFree_of_isPlain (h : isPlain name b = true) : isFree cs b = true := by
  obtain ⟨-, hf, hg, -⟩ := isPlain_iff.1 h
  exact isFree_of_descriptor hf hg

/-- Plain candidates are free, so two of them are in conflict. -/
theorem mem_conflicts_of_isPlain (h : 1 < (cs.filter (isPlain name)).length) :
    name ∈ conflicts cs := by
  have hsub : (cs.filter (isPlain name)).Sublist (rivals cs name) := by
    have hname : ∀ b ∈ cs.filter (isPlain name), (b.name == name) = true := fun b hb =>
      beq_iff_eq.2 (isPlain_iff.1 (List.mem_filter.1 hb).2).1
    rw [← List.filter_eq_self.2 hname]
    refine List.Sublist.filter _ (List.Sublist.trans ?_ (filter_isFree_sublist cs []))
    exact List.monotone_filter_right _ fun _ => isFree_of_isPlain
  exact mem_conflicts.2 (lt_of_lt_of_le h hsub.length_le)

/-- **The outcome of a name that is not undecided is the same in all orders.** -/
theorem agrees_of_not_undecided (hcs : Faithful cs) (h : ¬ Undecided cs name)
    (hp : cs'.Perm cs) : Agrees cs cs' name := by
  by_cases hspecific : ∃ b ∈ cs, b.name = name ∧ b.descriptor.isFallbackBind = false ∧
      b.descriptor.isTypedBind = true
  · obtain ⟨b, hb, rfl, hf, ht⟩ := hspecific
    exact agrees_of_rivals_perm ((grounded_of_typed hcs hb hf ht).rivals_perm hp)
  have hfallback : ∀ b ∈ cs, b.name = name → b.descriptor.isTypedBind = true →
      b.descriptor.isFallbackBind = true := by
    intro b hb hname ht
    by_contra hf
    exact hspecific ⟨b, hb, hname, Bool.eq_false_iff.2 hf, ht⟩
  by_cases htyped : ∀ b ∈ cs, b.name = name → b.descriptor.isTypedBind = false
  · exact agrees_of_rivals_perm ((grounded_of_not_typed htyped).rivals_perm hp)
  by_cases hgeneric : ∀ b ∈ cs, b.name = name → b.descriptor.isInputFallbackBind = true →
      b.descriptor.isFallbackBind = true
  · exact agrees_of_rivals_perm ((grounded_of_not_generic hcs hgeneric).rivals_perm hp)
  push Not at htyped hgeneric
  obtain ⟨f, hf, hfname, hft⟩ := htyped
  obtain ⟨g, hg, hgname, hgg, hgf⟩ := hgeneric
  have hft : f.descriptor.isTypedBind = true := Bool.of_not_eq_false hft
  have hplain : 1 < (cs.filter (isPlain name)).length := by
    by_contra hle
    exact h ⟨⟨f, hf, isTypedFallback_iff.2 ⟨hfname, hfallback f hf hfname hft, hft⟩⟩,
      ⟨g, hg, isGeneric_iff.2 ⟨hgname, Bool.eq_false_iff.2 hgf, hgg⟩⟩, hfallback, not_lt.1 hle⟩
  refine agrees_of_conflicts (mem_conflicts_of_isPlain hplain) (mem_conflicts_of_isPlain ?_)
  rwa [(hp.filter _).length_eq]

/-! ### Two orders of an undecided name -/

/-- The candidates with the generic ones of a name at the end. -/
def demoted (cs : List BindCandidate) (name : String) : List BindCandidate :=
  cs.filter (fun b => !isGeneric name b) ++ cs.filter (isGeneric name)

/-- The candidates with one in front and the other generic ones at the end. -/
def promoted (cs : List BindCandidate) (name : String) (g : BindCandidate) : List BindCandidate :=
  g :: demoted (cs.erase g) name

theorem demoted_perm (cs : List BindCandidate) (name : String) : (demoted cs name).Perm cs :=
  List.perm_append_comm.trans (List.filter_append_perm _ _)

theorem promoted_perm (hg : g ∈ cs) (name : String) : (promoted cs name g).Perm cs :=
  ((demoted_perm _ name).cons g).trans (List.perm_cons_erase hg).symm

theorem mem_dropShadowed_append (xs : List BindCandidate) : ∀ before : List BindCandidate,
    b ∈ (dropShadowed before (xs ++ ys)).1 → b ∈ xs ∨ b ∈ (dropShadowed (before ++ xs) ys).1 := by
  induction xs with
  | nil => intro before hb; exact .inr (by rwa [List.append_nil])
  | cons x xs ih =>
    intro before hb
    have hih := ih (before ++ [x])
    rw [List.append_assoc, List.singleton_append] at hih
    rw [List.cons_append, dropShadowed_cons] at hb
    have hcases : b = x ∨ b ∈ (dropShadowed (before ++ [x]) (xs ++ ys)).1 := by
      split_ifs at hb
      · exact .inr hb
      · exact List.mem_cons.1 hb
    rcases hcases with rfl | hb
    · exact .inl List.mem_cons_self
    · exact (hih hb).imp_left (List.mem_cons_of_mem x)

/-- Generic candidates at the end are dropped if a fallback before them asks for a `type`. -/
theorem not_isGeneric_of_mem (hxs : Faithful xs) (hf : f ∈ xs)
    (htyped : isTypedFallback name f = true)
    (hb : b ∈ (dropShadowed before (demoted xs name)).1) : isGeneric name b = false := by
  obtain ⟨hfname, hff, hft⟩ := isTypedFallback_iff.1 htyped
  by_contra hgen
  have hgen : isGeneric name b = true := Bool.of_not_eq_false hgen
  obtain ⟨hname, -, hbg⟩ := isGeneric_iff.1 hgen
  have hbxs : b ∈ xs := (demoted_perm xs name).subset ((dropShadowed_sublist _ _).subset hb)
  have hbefore : f ∈ before ++ xs.filter fun b => !isGeneric name b := by
    refine List.mem_append_right _ (List.mem_filter.2 ⟨hf, ?_⟩)
    unfold isGeneric
    simp [hff]
  rcases mem_dropShadowed_append _ _ hb with hb | hb
  · simp [hgen] at hb
  · have hstay := not_isShadowedBy_dropShadowed _ _ b hb f (List.mem_append_left _ hbefore)
    rw [hxs.isShadowedBy hbxs hf (hfname.trans hname.symm) (yields_iff.2 (.inr ⟨hbg, hft⟩))]
      at hstay
    cases hstay

/-- Beside a candidate that is no fallback, only plain ones are then kept. -/
theorem Undecided.isPlain_of_mem {z : BindCandidate} (h : Undecided cs name) (hcs : Faithful cs)
    (hxs : xs ⊆ cs) (hf : f ∈ xs) (htyped : isTypedFallback name f = true)
    (hz : z ∈ before ++ (dropShadowed before (demoted xs name)).1) (hzcs : z ∈ cs)
    (hzname : z.name = name) (hzf : z.descriptor.isFallbackBind = false)
    (hb : b ∈ (dropShadowed before (demoted xs name)).1) (hname : b.name = name) :
    isPlain name b = true := by
  have hbcs : b ∈ cs :=
    hxs ((demoted_perm xs name).subset ((dropShadowed_sublist _ _).subset hb))
  have hfallback : b.descriptor.isFallbackBind = false := by
    by_contra hbf
    have hstay := not_isShadowedBy_dropShadowed _ _ b hb z hz
    rw [hcs.isShadowedBy hbcs hzcs (hzname.trans hname.symm)
      (yields_iff.2 (.inl ⟨Bool.of_not_eq_false hbf, hzf⟩))] at hstay
    cases hstay
  refine isPlain_iff.2 ⟨hname, hfallback, ?_, ?_⟩
  · by_contra hbg
    have hgen := not_isGeneric_of_mem (hcs.subset hxs) hf htyped hb
    rw [isGeneric_iff.2 ⟨hname, hfallback, Bool.of_not_eq_false hbg⟩] at hgen
    cases hgen
  · by_contra hbt
    rw [h.fallback_of_typed b hbcs hname (Bool.of_not_eq_false hbt)] at hfallback
    cases hfallback

/-- A generic candidate that comes first stays, beside plain ones only. -/
theorem Undecided.rivals_promoted (h : Undecided cs name) (hcs : Faithful cs) (hg : g ∈ cs)
    (hgen : isGeneric name g = true) :
    ∃ plain, rivals (promoted cs name g) name = g :: plain ∧
      ∀ b ∈ plain, isPlain name b = true := by
  obtain ⟨hgname, hgf, -⟩ := isGeneric_iff.1 hgen
  obtain ⟨f, hf, htyped⟩ := h.typed
  have hne : f ≠ g := by
    rintro rfl
    rw [(isTypedFallback_iff.1 htyped).2.1] at hgf
    cases hgf
  have hplain : ∀ b ∈ (dropShadowed [g] (demoted (cs.erase g) name)).1, b.name = name →
      isPlain name b = true := fun b hb hname =>
    h.isPlain_of_mem hcs List.erase_subset ((List.mem_erase_of_ne hne).2 hf) htyped
      List.mem_cons_self hg hgname hgf hb hname
  -- what is kept after it does not ask for a `type`
  have hstay : ∀ b ∈ [] ++ g :: (dropShadowed [g] (demoted (cs.erase g) name)).1,
      g.isShadowedBy b = false := by
    intro b hb
    by_contra hs
    have hs : g.isShadowedBy b = true := Bool.of_not_eq_false hs
    have hy := yields_of_isShadowedBy hs
    rcases List.mem_cons.1 hb with rfl | hb
    · exact not_yields_self _ hy
    · have hb' := isPlain_iff.1 (hplain b hb ((name_eq_of_isShadowedBy hs).trans hgname))
      rw [yields_iff, hgf, hb'.2.2.2] at hy
      simp at hy
  refine ⟨(dropShadowed [g] (demoted (cs.erase g) name)).1.filter (·.name == name), ?_, ?_⟩
  · unfold rivals kept promoted
    rw [dropShadowed_cons_of_unshadowed hstay]
    exact List.filter_cons_of_pos (beq_iff_eq.2 hgname)
  · intro b hb
    obtain ⟨hb, hname⟩ := List.mem_filter.1 hb
    exact hplain b hb (eq_of_beq hname)

/-- If all generic candidates come last, one plain candidate stays alone. -/
theorem Undecided.not_mem_conflicts_demoted {z : BindCandidate} (h : Undecided cs name)
    (hcs : Faithful cs) (hz : z ∈ cs) (hplain : isPlain name z = true) :
    name ∉ conflicts (demoted cs name) := by
  obtain ⟨f, hf, htyped⟩ := h.typed
  have hp := demoted_perm cs name
  have hzkept : z ∈ kept (demoted cs name) :=
    mem_kept_of_isFree (hp.symm.subset hz) (isFree_of_isPlain hplain)
  obtain ⟨hzname, hzf, -⟩ := isPlain_iff.1 hplain
  have hrivals : rivals (demoted cs name) name =
      (kept (demoted cs name)).filter (isPlain name) := by
    refine List.filter_congr fun b hb => ?_
    rw [Bool.eq_iff_iff, beq_iff_eq]
    exact ⟨h.isPlain_of_mem hcs (List.Subset.refl cs) hf htyped hzkept hz hzname hzf hb,
      fun hpl => (isPlain_iff.1 hpl).1⟩
  have hle := ((kept_sublist (demoted cs name)).filter (isPlain name)).length_le
  rw [(hp.filter _).length_eq] at hle
  rw [mem_conflicts, hrivals]
  exact not_lt.2 (hle.trans h.plain_le)

/-- **An undecided name has two orders with different outcomes**: in one all generic candidates come
last and are dropped, in the other one of them comes first and stays. -/
theorem Undecided.not_agrees (h : Undecided cs name) (hcs : Faithful cs) :
    ∃ cs₁ cs₂, cs₁.Perm cs ∧ cs₂.Perm cs ∧ ¬ Agrees cs₁ cs₂ name := by
  obtain ⟨f, hf, htyped⟩ := h.typed
  obtain ⟨g, hg, hgen⟩ := h.generic
  obtain ⟨plain, hrivals, hplain⟩ := h.rivals_promoted hcs hg hgen
  have hp := promoted_perm hg name
  have hgname : g.name = name := (isGeneric_iff.1 hgen).1
  refine ⟨demoted cs name, promoted cs name g, demoted_perm cs name, hp, fun hagrees => ?_⟩
  cases hps : plain with
  | nil =>
    -- no plain candidate: the first one is left in one order and dropped in the other
    rw [hps] at hrivals
    have hleft : g ∈ remaining (promoted cs name g) := mem_remaining.2 (hgname.symm ▸ hrivals)
    have hleft' := (hagrees.2 g hgname).1 hleft
    have hkept : g ∈ kept (demoted cs name) := (List.mem_filter.1 hleft').1
    rw [not_isGeneric_of_mem hcs hf htyped hkept] at hgen
    cases hgen
  | cons z zs =>
    have hz : z ∈ rivals (promoted cs name g) name := by
      rw [hrivals, hps]
      exact List.mem_cons_of_mem g List.mem_cons_self
    have hzcs : z ∈ cs := hp.subset ((kept_sublist _).subset (mem_rivals.1 hz).1)
    have hzplain : isPlain name z = true := hplain z (hps ▸ List.mem_cons_self)
    refine h.not_mem_conflicts_demoted hcs hzcs hzplain (hagrees.1.1 (mem_conflicts.2 ?_))
    rw [hrivals, hps]
    exact Nat.succ_lt_succ (Nat.succ_pos _)

end BindCandidate

namespace RenderTree

open BindCandidate

variable {t t' : RenderTree} {x parent : NodeId} {cs : List BindCandidate}
  {ids others : List NodeId}

/-! ### Orders of the children of an element -/

theorem faithful_bindCandidates (t : RenderTree) (parent : NodeId) :
    Faithful (t.bindCandidates parent) :=
  fun _ hb _ hb' => eq_of_node_eq hb hb'

/-- The candidates of an element come in the order of its children. -/
theorem Rechild.bindCandidates_perm (h : Rechild t t' parent ids)
    (hp : ids.Perm (t.children parent)) :
    (t'.bindCandidates parent).Perm (t.bindCandidates parent) := by
  unfold bindCandidates
  rw [h.children_eq, if_pos rfl]
  refine (List.Perm.of_eq (List.filterMap_congr fun x _ => ?_)).trans (hp.filterMap _)
  rw [property?_congr (h.kind_eq x)]

/-- The candidates of an element whose bind attributes are put in front in a given order. -/
theorem Rechild.bindCandidates_eq (h : Rechild t t' parent (cs.map (·.node) ++ others))
    (hcs : ∀ b ∈ cs, b ∈ t.bindCandidates parent)
    (hothers : ∀ x ∈ others, (t.node x).isBind = false) : t'.bindCandidates parent = cs := by
  unfold bindCandidates
  rw [h.children_eq, if_pos rfl, List.filterMap_append, List.filterMap_map]
  refine (congrArg₂ HAppend.hAppend (List.filterMap_congr (g := some) fun b hb => ?_)
    (List.filterMap_eq_nil_iff.2 fun x hx => ?_)).trans ?_
  · obtain ⟨-, p, hprop, hbind, hname, hhelper⟩ := mem_bindCandidates.1 (hcs b hb)
    rw [Function.comp_apply, property?_congr (h.kind_eq b.node), hprop]
    simp only [hbind, if_true]
    rw [← hname, ← hhelper]
  · have hbind := hothers x hx
    unfold RenderNode.isBind at hbind
    rw [property?_congr (h.kind_eq x)]
    cases hprop : (t.node x).property? with
    | none => rfl
    | some p =>
      rw [hprop] at hbind
      exact if_neg (Bool.eq_false_iff.1 hbind)
  · rw [List.filterMap_some, List.append_nil]

/-- Every order of the candidates is that of an order of the children. -/
theorem exists_rechild (hsize : parent < t.size) (hp : cs.Perm (t.bindCandidates parent)) :
    ∃ t' ids, ids.Perm (t.children parent) ∧ Rechild t t' parent ids ∧
      t'.bindCandidates parent = cs := by
  let others := (t.children parent).filter fun x => !(t.node x).isBind
  have hids : (cs.map (·.node) ++ others).Perm (t.children parent) := by
    refine ((hp.map _).append_right _).trans ?_
    rw [map_node_bindCandidates]
    exact List.filter_append_perm _ _
  have hrechild := rechild_update (fun _ => cs.map (·.node) ++ others) hsize
  refine ⟨_, _, hids, hrechild, hrechild.bindCandidates_eq (fun b hb => hp.subset hb) ?_⟩
  intro x hx
  simpa using (List.mem_filter.1 hx).2

/-- A child stays if it is no bind attribute or one of the remaining candidates. -/
theorem mem_children_resolveDuplicates : x ∈ (t.resolveDuplicates parent).children parent ↔
    (x ∈ t.children parent ∧ (t.node x).isBind = false) ∨ ∃ b ∈ t.remaining parent, b.node = x := by
  rw [(children_resolveDuplicates_perm t parent).mem_iff, List.mem_append, List.mem_filter,
    List.mem_map, Bool.not_eq_true']

/-- A candidate stays if it is one of the remaining ones. -/
theorem node_mem_resolveDuplicates {b : BindCandidate} (hb : b ∈ t.bindCandidates parent) :
    b.node ∈ (t.resolveDuplicates parent).children parent ↔ b ∈ t.remaining parent := by
  rw [mem_children_resolveDuplicates]
  constructor
  · rintro (⟨-, hbind⟩ | ⟨b', hb', hnode⟩)
    · have hmem := List.mem_map_of_mem (f := (·.node)) hb
      rw [map_node_bindCandidates] at hmem
      rw [(List.mem_filter.1 hmem).2] at hbind
      cases hbind
    · rwa [← eq_of_node_eq ((remaining_sublist _).subset hb') hb hnode]
  · intro hr
    exact .inr ⟨b, hr, rfl⟩

/-- The names that are reported on an element because several of its bind attributes bear them. -/
def conflictNames (t : RenderTree) (parent : NodeId) : List String :=
  conflicts (t.bindCandidates parent)

/-- That the order of the children of an element decides neither which of them stay nor which names
are reported. -/
def OrderFree (t : RenderTree) (parent : NodeId) : Prop :=
  ∀ t' ids, ids.Perm (t.children parent) → Rechild t t' parent ids →
    (∀ x, x ∈ (t'.resolveDuplicates parent).children parent ↔
      x ∈ (t.resolveDuplicates parent).children parent) ∧
    ∀ name, name ∈ t'.conflictNames parent ↔ name ∈ t.conflictNames parent

/-- The order does not matter if the outcome of each name is the same in all orders. -/
theorem orderFree_of_agrees (h : ∀ cs, cs.Perm (t.bindCandidates parent) →
    ∀ name, Agrees (t.bindCandidates parent) cs name) : t.OrderFree parent := by
  intro t' ids hids hrechild
  have hagrees := h _ (hrechild.bindCandidates_perm hids)
  refine ⟨fun x => ?_, fun name => (hagrees name).1⟩
  rw [mem_children_resolveDuplicates, mem_children_resolveDuplicates, hrechild.children_eq,
    if_pos rfl, hids.mem_iff, isBind_congr (hrechild.kind_eq x)]
  refine or_congr_right (exists_congr fun b => and_congr_left fun _ => ?_)
  exact (hagrees b.name).2 b rfl

/-- If the order does not matter, the outcome of each name is the same in all orders. -/
theorem OrderFree.agrees (h : t.OrderFree parent) (hsize : parent < t.size)
    (hp : cs.Perm (t.bindCandidates parent)) (name : String) :
    Agrees (t.bindCandidates parent) cs name := by
  obtain ⟨t', ids, hids, hrechild, rfl⟩ := exists_rechild hsize hp
  obtain ⟨hchildren, hnames⟩ := h t' ids hids hrechild
  have hperm := hrechild.bindCandidates_perm hids
  refine ⟨hnames name, fun b _ => ?_⟩
  by_cases hb : b ∈ t.bindCandidates parent
  · have hiff := hchildren b.node
    rwa [node_mem_resolveDuplicates hb, node_mem_resolveDuplicates (hperm.symm.subset hb)] at hiff
  · refine iff_of_false (fun hr => hb ?_) fun hr => hb ((remaining_sublist _).subset hr)
    exact hperm.subset ((remaining_sublist _).subset hr)

/-- **The order of the attributes of an element matters for undecided names only.** The names in
conflict are reported and nothing else is. In every order of the children the same children stay and
the same names are reported, if and only if no name is undecided. -/
theorem orderFree_iff (t : RenderTree) (parent : NodeId) :
    Reports t (t.resolveDuplicates parent) parent ((t.conflictNames parent).map
      (t.conflictReport parent (kept (t.bindCandidates parent)))) ∧
    (t.OrderFree parent ↔ ∀ name, ¬ Undecided (t.bindCandidates parent) name) := by
  have hfaithful := faithful_bindCandidates t parent
  refine ⟨(drops_resolveDuplicates t parent).toReports, ?_, ?_⟩
  · intro h name hname
    obtain ⟨f, hf, -⟩ := hname.typed
    have hsize := lt_size_of_mem_children (mem_bindCandidates.1 hf).1
    obtain ⟨cs₁, cs₂, hp₁, hp₂, hnot⟩ := hname.not_agrees hfaithful
    exact hnot ((h.agrees hsize hp₁ name).of_common (h.agrees hsize hp₂ name))
  · intro h
    exact orderFree_of_agrees fun cs hp name => agrees_of_not_undecided hfaithful (h name) hp

/-! ### An element whose order matters -/

namespace Sample

/-- A fallback for `bind` on `input` elements that asks for a `type`. -/
def typedFallback : TagHelper where
  place := 0
  descriptor :=
    { kind := .bind, name := "Typed", assemblyName := "Library", caseSensitive := true
      rules := [{ tagName := "input", attributes := [{ name := "type" }] }]
      boundAttributes := [{ name := "bind", typeName := "object" }]
      metadata := Metadata.empty.insert "Components.Bind.Fallback" "true" }

/-- A tag helper for `bind` on all `input` elements. -/
def generic : TagHelper where
  place := 1
  descriptor :=
    { kind := .bind, name := "Generic", assemblyName := "Library", caseSensitive := true
      rules := [{ tagName := "input" }]
      boundAttributes := [{ name := "bind", typeName := "object" }] }

/-- An element with a use of each, in the given order. -/
def contested (ids : List NodeId) : RenderTree where
  nodes := #[
    { kind := .document, children := [1] },
    { kind := .element "input", children := ids },
    { kind := .property
        { attributeName := "bind", quoting := .double, helper := typedFallback
          resolution := { boundAttribute := { name := "bind", typeName := "object" } }
          resolves := by decide } },
    { kind := .property
        { attributeName := "bind", quoting := .double, helper := generic
          resolution := { boundAttribute := { name := "bind", typeName := "object" } }
          resolves := by decide } }]

end Sample

/-- The first one stays in either order, also if it is the fallback. -/
theorem children_contested :
    (Sample.contested [2, 3]).IsTree ∧ (Sample.contested [3, 2]).IsTree ∧
      ((Sample.contested [2, 3]).resolveDuplicates 1).children 1 = [2] ∧
      ((Sample.contested [3, 2]).resolveDuplicates 1).children 1 = [3] :=
  ⟨by decide, by decide, by decide +kernel, by decide +kernel⟩

end RenderTree

end TagHelpers
