import TagHelpers.Tag.Binder
import Mathlib.Data.List.Basic
import Mathlib.Data.List.Induction

/-!
# The index of the binder

The binder looks tag helpers up under the folded name of a tag and among those for any tag. What it
finds is what a scan of all tag helpers would find.

* `Lists`: a list holds the tag helpers of another one that have a property, each once and in their
  order. `lists_under` and `lists_catchAll` say so of the two parts of the index.
* `mem_candidates`, `pairwise_candidates`: the candidates for a tag are the tag helpers with a rule
  for it, and after them those with a rule for any tag.
* `bind?_ofHelpers`: a tag is bound to exactly the tag helpers with a rule that it satisfies.
-/

namespace TagHelpers

variable {h h' : TagHelper} {hs : List TagHelper} {name : String}

namespace TagHelper

/-- Whether a tag helper has a rule for a tag, in any case of its letters. -/
def hasRuleFor (h : TagHelper) (name : String) : Bool :=
  h.descriptor.rules.any fun r => !r.isCatchAll && Casing.folded.same r.tagName name

/-- Whether a tag helper has a rule for any tag. -/
def hasCatchAll (h : TagHelper) : Bool :=
  h.descriptor.rules.any (·.isCatchAll)

end TagHelper

theorem Casing.same_comm (k : Casing) (a b : String) : k.same a b = k.same b a :=
  BEq.comm

/-- Names that are equal in some casing are equal when folded. -/
theorem Casing.same_folded {k : Casing} {a b : String} (h : k.same a b = true) :
    Casing.folded.same a b = true := by
  cases k with
  | folded => exact h
  | ordinal =>
    have hfold : ordinal.fold = id := rfl
    have hkey : a.toList = b.toList := by simpa [same, key, hfold] using h
    have hab : a = b := String.toList_injective hkey
    subst hab
    simp [same]

/-- A tag helper with a rule that a tag satisfies has a rule for it or one for any tag. -/
theorem TagHelper.hasRuleFor_or_hasCatchAll {parent : Option String} {attributes : AttributePairs}
    (hm : h.descriptor.matchingRules name parent attributes ≠ []) :
    h.hasRuleFor name = true ∨ h.hasCatchAll = true := by
  obtain ⟨r, hr⟩ := List.exists_mem_of_ne_nil _ hm
  obtain ⟨hr, haccepts⟩ := List.mem_filter.1 hr
  simp only [MatchingRule.accepts, MatchingRule.acceptsTag, Bool.and_eq_true] at haccepts
  cases hall : r.isCatchAll with
  | true => exact .inr (List.any_eq_true.2 ⟨r, hr, hall⟩)
  | false =>
    have hsame : h.descriptor.casing.same name r.tagName = true := by
      simpa [hall] using haccepts.1.1
    have hfold : Casing.folded.same r.tagName name = true := by
      rw [Casing.same_comm]
      exact Casing.same_folded hsame
    exact .inl (List.any_eq_true.2 ⟨r, hr, by simp [hall, hfold]⟩)

namespace Binder

variable {b : Binder} {l : List TagHelper} {q : TagHelper → Bool}

/-! ### Lists without repetition -/

/-- A list of the tag helpers of `hs` that have a property, each once and in their order. -/
structure Lists (hs : List TagHelper) (q : TagHelper → Bool) (l : List TagHelper) : Prop where
  mem_iff : ∀ h, h ∈ l ↔ h ∈ hs ∧ q h = true
  pairwise : l.Pairwise fun h h' => hs.idxOf h < hs.idxOf h'

theorem Lists.nodup (hl : Lists hs q l) : l.Nodup :=
  hl.pairwise.imp fun hlt he => absurd (he ▸ hlt) (Nat.lt_irrefl _)

theorem lists_nil (q : TagHelper → Bool) : Lists [] q [] where
  mem_iff h := by simp
  pairwise := List.Pairwise.nil

theorem mem_addOnce : h ∈ addOnce l h' ↔ h ∈ l ∨ h = h' := by
  unfold addOnce
  split
  · rename_i hc
    have hmem : h' ∈ l := List.contains_iff_mem.1 hc
    constructor
    · exact Or.inl
    · rintro (hl | rfl)
      · exact hl
      · exact hmem
  · rw [List.mem_append, List.mem_singleton]

theorem addOnce_of_mem (hl : h ∈ l) : addOnce l h = l :=
  if_pos (List.contains_iff_mem.2 hl)

theorem addOnce_of_not_mem (hl : h ∉ l) : addOnce l h = l ++ [h] :=
  if_neg fun hc => hl (List.contains_iff_mem.1 hc)

/-- **One more tag helper.** -/
theorem Lists.concat (hl : Lists hs q l) (h : TagHelper) :
    Lists (hs ++ [h]) q (if q h then addOnce l h else l) := by
  -- the tag helpers that are listed already keep their places
  have hold : l.Pairwise fun a b => (hs ++ [h]).idxOf a < (hs ++ [h]).idxOf b := by
    refine hl.pairwise.imp_of_mem ?_
    intro a b ha hb hlt
    rw [List.idxOf_append_of_mem ((hl.mem_iff a).1 ha).1,
      List.idxOf_append_of_mem ((hl.mem_iff b).1 hb).1]
    exact hlt
  refine ⟨?_, ?_⟩
  · intro a
    split
    · rename_i hq
      rw [mem_addOnce, hl.mem_iff, List.mem_append, List.mem_singleton]
      constructor
      · rintro (⟨ha, hqa⟩ | rfl)
        · exact ⟨.inl ha, hqa⟩
        · exact ⟨.inr rfl, hq⟩
      · rintro ⟨ha | rfl, hqa⟩
        · exact .inl ⟨ha, hqa⟩
        · exact .inr rfl
    · rename_i hq
      rw [hl.mem_iff, List.mem_append, List.mem_singleton]
      constructor
      · rintro ⟨ha, hqa⟩
        exact ⟨.inl ha, hqa⟩
      · rintro ⟨ha | rfl, hqa⟩
        · exact ⟨ha, hqa⟩
        · exact absurd hqa hq
  · split
    · rename_i hq
      by_cases hmem : h ∈ l
      · rw [addOnce_of_mem hmem]
        exact hold
      · rw [addOnce_of_not_mem hmem]
        have hnot : h ∉ hs := fun hh => hmem ((hl.mem_iff h).2 ⟨hh, hq⟩)
        refine List.pairwise_append.2 ⟨hold, List.pairwise_singleton _ _, ?_⟩
        intro a ha b hb
        obtain rfl := List.mem_singleton.1 hb
        have hah := ((hl.mem_iff a).1 ha).1
        have hlt := List.idxOf_lt_length_of_mem hah
        rw [List.idxOf_append_of_mem hah, List.idxOf_append_of_notMem hnot]
        omega
    · exact hold

/-- Adding tag helpers that differ from one another leaves out those that are there. -/
theorem foldl_addOnce (xs : List TagHelper) : ∀ l : List TagHelper, xs.Nodup →
    xs.foldl addOnce l = l ++ xs.filter fun x => !l.contains x := by
  induction xs with
  | nil => intro l _; simp
  | cons x xs ih =>
    intro l hnd
    obtain ⟨hx, hxs⟩ := List.nodup_cons.1 hnd
    rw [List.foldl_cons, ih _ hxs]
    by_cases hmem : x ∈ l
    · rw [addOnce_of_mem hmem]
      simp [hmem]
    · rw [addOnce_of_not_mem hmem]
      have hrest : xs.filter (fun y => !(l ++ [x]).contains y) =
          xs.filter fun y => !l.contains y := by
        refine List.filter_congr fun y hy => ?_
        have hne : y ≠ x := fun he => hx (he ▸ hy)
        simp [hne]
      rw [hrest]
      simp [hmem]

/-! ### The index -/

/-- The tag helpers that are indexed under a key. -/
def under (b : Binder) (key : List Char) : List TagHelper :=
  (b.byTag.lookup key).getD []

theorem lookup_addUnder (index : List (List Char × List TagHelper)) (key k : List Char)
    (h : TagHelper) : ((addUnder key h index).lookup k).getD [] =
      if k = key then addOnce ((index.lookup k).getD []) h else (index.lookup k).getD [] := by
  induction index with
  | nil =>
    by_cases hk : k = key
    · subst hk; simp [addUnder, addOnce]
    · have hbeq : (k == key) = false := by simpa using hk
      simp [addUnder, List.lookup_cons, hbeq, hk]
  | cons entry index ih =>
    obtain ⟨key', helpers⟩ := entry
    simp only [addUnder]
    by_cases hkey : key' = key
    · subst hkey
      by_cases hk : k = key'
      · subst hk; simp
      · have hbeq : (k == key') = false := by simpa using hk
        simp [List.lookup_cons, hbeq, hk]
    · rw [if_neg hkey]
      by_cases hk : k = key'
      · subst hk; simp [hkey]
      · have hbeq : (k == key') = false := by simpa using hk
        simpa [List.lookup_cons, hbeq] using ih

theorem under_addRule (h : TagHelper) (b : Binder) (r : MatchingRule) (k : List Char) :
    (addRule h b r).under k =
      if !r.isCatchAll && Casing.folded.key r.tagName == k then addOnce (b.under k) h
      else b.under k := by
  unfold addRule under
  cases hall : r.isCatchAll with
  | true => simp
  | false =>
    have hkey : (Casing.folded.key r.tagName == k) = decide (k = Casing.folded.key r.tagName) := by
      rw [Bool.eq_iff_iff, beq_iff_eq, decide_eq_true_eq, eq_comm]
    simp [lookup_addUnder, hkey]

theorem catchAll_addRule (h : TagHelper) (b : Binder) (r : MatchingRule) :
    (addRule h b r).catchAll = if r.isCatchAll then addOnce b.catchAll h else b.catchAll := by
  unfold addRule
  split <;> rfl

theorem addOnce_addOnce (l : List TagHelper) (h : TagHelper) :
    addOnce (addOnce l h) h = addOnce l h :=
  addOnce_of_mem (mem_addOnce.2 (.inr rfl))

theorem under_foldl_addRule (h : TagHelper) (rules : List MatchingRule) (k : List Char) :
    ∀ b : Binder, (rules.foldl (addRule h) b).under k =
      if rules.any fun r => !r.isCatchAll && Casing.folded.key r.tagName == k then
        addOnce (b.under k) h
      else b.under k := by
  induction rules with
  | nil => intro b; simp
  | cons r rules ih =>
    intro b
    rw [List.foldl_cons, ih, under_addRule, List.any_cons]
    cases hr : !r.isCatchAll && Casing.folded.key r.tagName == k with
    | true => simp [addOnce_addOnce]
    | false => simp

theorem catchAll_foldl_addRule (h : TagHelper) (rules : List MatchingRule) :
    ∀ b : Binder, (rules.foldl (addRule h) b).catchAll =
      if rules.any (·.isCatchAll) then addOnce b.catchAll h else b.catchAll := by
  induction rules with
  | nil => intro b; simp
  | cons r rules ih =>
    intro b
    rw [List.foldl_cons, ih, catchAll_addRule, List.any_cons]
    cases r.isCatchAll with
    | true => simp [addOnce_addOnce]
    | false => simp

theorem tagPrefix_foldl_addRule (h : TagHelper) (rules : List MatchingRule) :
    ∀ b : Binder, (rules.foldl (addRule h) b).tagPrefix = b.tagPrefix := by
  induction rules with
  | nil => intro b; rfl
  | cons r rules ih =>
    intro b
    rw [List.foldl_cons, ih]
    unfold addRule
    split <;> rfl

theorem ofHelpers_concat (tagPrefix : Option String) (hs : List TagHelper) (h : TagHelper) :
    ofHelpers tagPrefix (hs ++ [h]) = (ofHelpers tagPrefix hs).add h := by
  unfold ofHelpers
  rw [List.foldl_append]
  rfl

@[simp] theorem tagPrefix_ofHelpers (tagPrefix : Option String) (hs : List TagHelper) :
    (ofHelpers tagPrefix hs).tagPrefix = tagPrefix := by
  induction hs using List.reverseRecOn with
  | nil => rfl
  | append_singleton hs h ih =>
    rw [ofHelpers_concat, add, tagPrefix_foldl_addRule, ih]

/-- **Under the name of a tag** stand the tag helpers with a rule for it. -/
theorem lists_under (tagPrefix : Option String) (hs : List TagHelper) (name : String) :
    Lists hs (·.hasRuleFor name) ((ofHelpers tagPrefix hs).under (Casing.folded.key name)) := by
  induction hs using List.reverseRecOn with
  | nil => exact lists_nil _
  | append_singleton hs h ih =>
    rw [ofHelpers_concat, add, under_foldl_addRule]
    exact ih.concat h

/-- **Apart from them** stand the tag helpers with a rule for any tag. -/
theorem lists_catchAll (tagPrefix : Option String) (hs : List TagHelper) :
    Lists hs (·.hasCatchAll) (ofHelpers tagPrefix hs).catchAll := by
  induction hs using List.reverseRecOn with
  | nil => exact lists_nil _
  | append_singleton hs h ih =>
    rw [ofHelpers_concat, add, catchAll_foldl_addRule]
    exact ih.concat h

/-! ### The candidates for a tag -/

/-- That a tag helper comes before another one: one with a rule for the tag before one without, and
otherwise in the order of the list. -/
def RanksBefore (hs : List TagHelper) (name : String) (h h' : TagHelper) : Prop :=
  h.hasRuleFor name = true ∧ h'.hasRuleFor name = false ∨
    h.hasRuleFor name = h'.hasRuleFor name ∧ hs.idxOf h < hs.idxOf h'

theorem RanksBefore.ne (hp : RanksBefore hs name h h') : h ≠ h' := by
  rintro rfl
  rcases hp with ⟨h1, h2⟩ | ⟨-, hlt⟩
  · exact Bool.false_ne_true (h2.symm.trans h1)
  · exact Nat.lt_irrefl _ hlt

theorem candidates_ofHelpers (tagPrefix : Option String) (hs : List TagHelper) (name : String) :
    (ofHelpers tagPrefix hs).candidates name =
      (ofHelpers tagPrefix hs).under (Casing.folded.key name) ++
        (ofHelpers tagPrefix hs).catchAll.filter fun h =>
          !((ofHelpers tagPrefix hs).under (Casing.folded.key name)).contains h :=
  foldl_addOnce _ _ (lists_catchAll tagPrefix hs).nodup

theorem mem_candidates {tagPrefix : Option String} :
    h ∈ (ofHelpers tagPrefix hs).candidates name ↔
      h ∈ hs ∧ (h.hasRuleFor name = true ∨ h.hasCatchAll = true) := by
  rw [candidates_ofHelpers, List.mem_append, List.mem_filter, (lists_catchAll tagPrefix hs).mem_iff,
    Bool.not_eq_true', ← Bool.not_eq_true, List.contains_iff_mem,
    (lists_under tagPrefix hs name).mem_iff]
  tauto

/-- **The candidates come in order.** -/
theorem pairwise_candidates (tagPrefix : Option String) (hs : List TagHelper) (name : String) :
    ((ofHelpers tagPrefix hs).candidates name).Pairwise (RanksBefore hs name) := by
  have hunder := lists_under tagPrefix hs name
  have hall := lists_catchAll tagPrefix hs
  -- what is left of the second part has no rule for the tag, as it would be in the first
  have hrest : ∀ h ∈ (ofHelpers tagPrefix hs).catchAll.filter fun h =>
      !((ofHelpers tagPrefix hs).under (Casing.folded.key name)).contains h,
      h.hasRuleFor name = false := by
    intro h hh
    obtain ⟨hmem, hnot⟩ := List.mem_filter.1 hh
    rw [Bool.not_eq_true', ← Bool.not_eq_true, List.contains_iff_mem, hunder.mem_iff] at hnot
    have hhs := ((hall.mem_iff h).1 hmem).1
    rw [← Bool.not_eq_true]
    exact fun hr => hnot ⟨hhs, hr⟩
  rw [candidates_ofHelpers, List.pairwise_append]
  refine ⟨?_, ?_, ?_⟩
  · refine hunder.pairwise.imp_of_mem ?_
    intro a b ha hb hlt
    have hra := ((hunder.mem_iff a).1 ha).2
    have hrb := ((hunder.mem_iff b).1 hb).2
    exact .inr ⟨hra.trans hrb.symm, hlt⟩
  · refine (hall.pairwise.filter _).imp_of_mem ?_
    intro a b ha hb hlt
    exact .inr ⟨(hrest a ha).trans (hrest b hb).symm, hlt⟩
  · intro a ha b hb
    exact .inl ⟨((hunder.mem_iff a).1 ha).2, hrest b hb⟩

/-! ### Bindings -/

/-- The tag helpers that a tag is bound to, each with the rules that the tag satisfies. -/
def found (b : Binder) (name : String) (parent : Option String) (attributes : AttributePairs) :
    List HelperMatch :=
  ((b.candidates name).filter fun h =>
    h.descriptor.matchingRules name parent attributes ≠ []).map fun h =>
      ⟨h, h.descriptor.matchingRules name parent attributes⟩

theorem filterMap_eq_map_filter {f : TagHelper → Option HelperMatch}
    {rules : TagHelper → List MatchingRule}
    (hf : ∀ h, f h = if rules h = [] then none else some ⟨h, rules h⟩) (cs : List TagHelper) :
    cs.filterMap f = (cs.filter fun h => rules h ≠ []).map fun h => ⟨h, rules h⟩ := by
  induction cs with
  | nil => rfl
  | cons h cs ih =>
    rw [List.filterMap_cons, hf]
    by_cases hrules : rules h = []
    · simpa [hrules] using ih
    · simpa [hrules] using ih

theorem bind?_of_strip? {tag : String} (hstrip : b.strip? tag = some name)
    (attributes : AttributePairs) (parent : Option String) (parentIsBound : Bool) :
    b.bind? tag attributes parent parentIsBound =
      if b.found name (b.parentName parent parentIsBound) attributes = [] then none
      else some ⟨tag, b.parentName parent parentIsBound, b.tagPrefix,
        b.found name (b.parentName parent parentIsBound) attributes⟩ := by
  unfold bind?
  rw [hstrip]
  simp only [Option.bind_eq_bind, Option.bind_some, List.isEmpty_iff]
  rw [filterMap_eq_map_filter]
  · rfl
  · intro h
    split
    · rename_i hrules
      rw [if_pos hrules]
    · rename_i hrules
      exact (if_neg hrules).symm

/-- **The index of the binder loses and invents nothing.** A tag that does not have the prefix is
bound to nothing. Otherwise it is bound to exactly the tag helpers with a rule that it satisfies,
each once and with these rules: first those that declare a rule for the tag, then the others, both
in the order of the list. Where there are none the tag is not bound. The rules look at the name of
the parent without the prefix if the parent is bound and has it, and as it is written otherwise. -/
theorem bind?_ofHelpers (tagPrefix : Option String) (hs : List TagHelper) (tag : String)
    (attributes : AttributePairs) (parent : Option String) (parentIsBound : Bool) :
    ((ofHelpers tagPrefix hs).strip? tag = none →
      (ofHelpers tagPrefix hs).bind? tag attributes parent parentIsBound = none) ∧
    ∀ name, (ofHelpers tagPrefix hs).strip? tag = some name →
      ∃ helperMatches : List HelperMatch,
        (ofHelpers tagPrefix hs).bind? tag attributes parent parentIsBound =
          (if helperMatches = [] then none
          else some ⟨tag, parent.map fun p =>
              if parentIsBound then ((ofHelpers tagPrefix hs).strip? p).getD p else p,
            tagPrefix, helperMatches⟩) ∧
        (helperMatches.map (·.helper)).Nodup ∧
        (∀ m : HelperMatch, m ∈ helperMatches ↔ m.helper ∈ hs ∧
          m.rules = m.helper.descriptor.matchingRules name (parent.map fun p =>
              if parentIsBound then ((ofHelpers tagPrefix hs).strip? p).getD p else p) attributes ∧
          m.rules ≠ []) ∧
        (helperMatches.map (·.helper)).Pairwise (RanksBefore hs name) := by
  refine ⟨?_, ?_⟩
  · intro hstrip
    unfold bind?
    rw [hstrip]
    rfl
  intro name hstrip
  have hbind := bind?_of_strip? hstrip attributes parent parentIsBound
  rw [tagPrefix_ofHelpers, parentName] at hbind
  generalize (parent.map fun p =>
    if parentIsBound then ((ofHelpers tagPrefix hs).strip? p).getD p else p) = effective at hbind ⊢
  have hmap : ((ofHelpers tagPrefix hs).found name effective attributes).map (·.helper) =
      ((ofHelpers tagPrefix hs).candidates name).filter fun h =>
        h.descriptor.matchingRules name effective attributes ≠ [] := by
    unfold found
    rw [List.map_map]
    exact List.map_id _
  have hpairwise : (((ofHelpers tagPrefix hs).found name effective attributes).map
      (·.helper)).Pairwise (RanksBefore hs name) := by
    rw [hmap]
    exact (pairwise_candidates tagPrefix hs name).filter _
  refine ⟨_, hbind, hpairwise.imp RanksBefore.ne, ?_, hpairwise⟩
  intro m
  obtain ⟨h, rules⟩ := m
  unfold found
  rw [List.mem_map]
  constructor
  · rintro ⟨h', hh', heq⟩
    obtain ⟨hmem, hne⟩ := List.mem_filter.1 hh'
    cases heq
    exact ⟨(mem_candidates.1 hmem).1, rfl, of_decide_eq_true hne⟩
  · rintro ⟨hmem, hrules, hne⟩
    simp only at hmem hrules hne
    subst hrules
    have hcand : h ∈ (ofHelpers tagPrefix hs).candidates name :=
      mem_candidates.2 ⟨hmem, TagHelper.hasRuleFor_or_hasCatchAll hne⟩
    exact ⟨h, List.mem_filter.2 ⟨hcand, decide_eq_true hne⟩, rfl⟩

end Binder

namespace Sample

/-- A tag helper for `li` inside `ul`, and for any tag that has the attribute `marked`. -/
def listItem : TagHelper where
  place := 0
  descriptor :=
    { kind := .classic, name := "ListItem", assemblyName := "Library"
      rules := [{ tagName := "li", parentTag := some "ul" },
        { tagName := "*", attributes := [{ name := "marked" }] }] }

end Sample

/-- With the prefix `th:`, the tag `th:li` is bound by its first rule inside `th:ul` if that one is
bound, and not at all if it is not. -/
theorem Binder.bind?_ofHelpers_listItem :
    (∃ helperMatches, (ofHelpers (some "th:") [Sample.listItem]).bind? "th:li" []
        (some "th:ul") true = some ⟨"th:li", some "ul", some "th:", helperMatches⟩ ∧
      ⟨Sample.listItem, [{ tagName := "li", parentTag := some "ul" }]⟩ ∈ helperMatches) ∧
    (ofHelpers (some "th:") [Sample.listItem]).bind? "th:li" [] (some "th:ul") false = none := by
  have hstrip : (ofHelpers (some "th:") [Sample.listItem]).strip? "th:li" = some "li" := by decide
  have hparent : (ofHelpers (some "th:") [Sample.listItem]).strip? "th:ul" = some "ul" := by decide
  constructor
  · obtain ⟨helperMatches, hbind, -, hmem, -⟩ :=
      (bind?_ofHelpers (some "th:") [Sample.listItem] "th:li" [] (some "th:ul") true).2 _ hstrip
    rw [Option.map_some, if_pos rfl, hparent, Option.getD_some] at hbind hmem
    have hfound : ⟨Sample.listItem, [{ tagName := "li", parentTag := some "ul" }]⟩ ∈
        helperMatches :=
      (hmem _).2 ⟨List.mem_singleton_self _, by decide, List.cons_ne_nil _ _⟩
    rw [if_neg (List.ne_nil_of_mem hfound)] at hbind
    exact ⟨helperMatches, hbind, hfound⟩
  · obtain ⟨helperMatches, hbind, -, hmem, -⟩ :=
      (bind?_ofHelpers (some "th:") [Sample.listItem] "th:li" [] (some "th:ul") false).2 _ hstrip
    have hnone : helperMatches = [] := by
      refine List.eq_nil_iff_forall_not_mem.2 fun m hm => ?_
      obtain ⟨hhelper, hrules, hne⟩ := (hmem m).1 hm
      rw [List.mem_singleton.1 hhelper] at hrules
      exact hne (hrules.trans (by decide))
    rw [hbind, if_pos hnone]

end TagHelpers
