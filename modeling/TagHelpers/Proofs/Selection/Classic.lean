import TagHelpers.Pipeline.Document
import Mathlib.Data.List.DropRight

/-!
# The last directive decides

In a legacy document each directive with a readable text is a change: it adds the tag helpers that
it names, or removes them. Whether a tag helper applies in the end is decided by the last change
that names it, and where it stands in the selection by the change that brought it in.

* `mem_applyChanges`: a tag helper is there after some changes iff the last that names it adds it.
* `pairwise_applyChanges`: tag helpers stand in the order in which they were brought in, and those
  brought in by one change in the order of the catalog.
* `Selection.helpers_classic`: the tag helpers of a document are what its changes make.
* `classicSelection_select`: what the selection of a legacy document is, with its prefix and its
  diagnostics.
-/

namespace TagHelpers

/-- A change to the tag helpers of a document. -/
structure Change where
  /-- Whether tag helpers are added; otherwise they are removed. -/
  adds : Bool
  lookup : Lookup

namespace Change

/-- Whether a change is about a tag helper. -/
def names (c : Change) (h : TagHelper) : Bool :=
  c.lookup.accepts h.descriptor

/-- Whether a change adds a tag helper. -/
def brings (c : Change) (h : TagHelper) : Bool :=
  c.adds && c.names h

/-- Whether a change removes a tag helper. -/
def removes (c : Change) (h : TagHelper) : Bool :=
  !c.adds && c.names h

/-- Makes a change. -/
def apply (candidates : List TagHelper) (helpers : List TagHelper) (c : Change) : List TagHelper :=
  if c.adds then Selection.add candidates c.lookup helpers else Selection.remove c.lookup helpers

end Change

/-- The change that a directive makes, if it adds or removes and its text can be read. -/
def Directive.change? (d : Directive) : Option Change :=
  match d.kind with
  | .addTagHelper => (Lookup.parse? d.valueText).map (⟨true, ·⟩)
  | .removeTagHelper => (Lookup.parse? d.valueText).map (⟨false, ·⟩)
  | _ => none

/-- Whether there is a change about a tag helper and the last one adds it. -/
def isAdded (changes : List Change) (h : TagHelper) : Bool :=
  (changes.filter (·.names h)).getLast?.any (·.adds)

/-- The changes after the last one that removes a tag helper. -/
def sinceRemoval (changes : List Change) (h : TagHelper) : List Change :=
  changes.rtakeWhile fun c => !c.removes h

/-- The place of the change that brought a tag helper in: the first to add it after the last one to
remove it. -/
def introduction (changes : List Change) (h : TagHelper) : Nat :=
  changes.length - (sinceRemoval changes h).length +
    (sinceRemoval changes h).findIdx (·.brings h)

/-- That a tag helper was brought in before another, or by the same change and stands before it in
the catalog. -/
def Precedes (changes : List Change) (h h' : TagHelper) : Prop :=
  introduction changes h < introduction changes h' ∨
    introduction changes h = introduction changes h' ∧ h.place < h'.place

/-- Makes changes one after the other, where nothing applies at first. -/
def applyChanges (candidates : List TagHelper) (changes : List Change) : List TagHelper :=
  changes.foldl (Change.apply candidates) []

/-! ### One more change -/

section

variable {changes : List Change} {c : Change} {h : TagHelper} {candidates helpers : List TagHelper}

theorem isAdded_concat (changes : List Change) (c : Change) (h : TagHelper) :
    isAdded (changes ++ [c]) h = if c.names h then c.adds else isAdded changes h := by
  unfold isAdded
  rw [List.filter_append]
  cases hc : c.names h <;> simp [hc]

theorem sinceRemoval_concat (changes : List Change) (c : Change) (h : TagHelper) :
    sinceRemoval (changes ++ [c]) h =
      if c.removes h then [] else sinceRemoval changes h ++ [c] := by
  unfold sinceRemoval
  rw [List.rtakeWhile_concat]
  cases c.removes h <;> rfl

theorem sinceRemoval_concat_of_kept (hkept : c.removes h = false) :
    sinceRemoval (changes ++ [c]) h = sinceRemoval changes h ++ [c] := by
  rw [sinceRemoval_concat, hkept, if_neg Bool.false_ne_true]

theorem Change.removes_of_brings (hbrings : c.brings h = true) : c.removes h = false := by
  obtain ⟨hadds, -⟩ := Bool.and_eq_true_iff.1 hbrings
  rw [Change.removes, hadds, Bool.not_true, Bool.false_and]

theorem length_sinceRemoval_le (changes : List Change) (h : TagHelper) :
    (sinceRemoval changes h).length ≤ changes.length :=
  (List.rtakeWhile_suffix _ changes).length_le

/-- A tag helper is there iff a change adds it after the last one that removes it. -/
theorem isAdded_eq_any (changes : List Change) (h : TagHelper) :
    isAdded changes h = (sinceRemoval changes h).any (·.brings h) := by
  induction changes using List.reverseRecOn with
  | nil => rfl
  | append_singleton changes c ih =>
    rw [isAdded_concat, sinceRemoval_concat, ih]
    cases hnames : c.names h <;> cases hadds : c.adds <;>
      simp [Change.removes, Change.brings, hnames, hadds]

theorem introduction_lt (hadded : isAdded changes h = true) :
    introduction changes h < changes.length := by
  rw [isAdded_eq_any, List.any_eq_true] at hadded
  have hfind := List.findIdx_lt_length.2 hadded
  have hle := length_sinceRemoval_le changes h
  unfold introduction
  omega

/-- A change that does not remove a tag helper leaves it where it was brought in. -/
theorem introduction_concat_of_added (hadded : isAdded changes h = true)
    (hkept : c.removes h = false) :
    introduction (changes ++ [c]) h = introduction changes h := by
  rw [isAdded_eq_any, List.any_eq_true] at hadded
  have hfind := List.findIdx_lt_length.2 hadded
  have hle := length_sinceRemoval_le changes h
  unfold introduction
  rw [sinceRemoval_concat_of_kept hkept, List.findIdx_append, if_pos hfind, List.length_append,
    List.length_append]
  omega

/-- A tag helper that is not there is brought in by the change that adds it. -/
theorem introduction_concat_of_not_added (hadded : isAdded changes h = false)
    (hbrings : c.brings h = true) : introduction (changes ++ [c]) h = changes.length := by
  rw [isAdded_eq_any] at hadded
  have hfind : (sinceRemoval changes h).findIdx (·.brings h) = (sinceRemoval changes h).length := by
    rw [List.findIdx_eq_length]
    simpa using hadded
  have hle := length_sinceRemoval_le changes h
  unfold introduction
  rw [sinceRemoval_concat_of_kept (Change.removes_of_brings hbrings), List.findIdx_append, hfind,
    if_neg (Nat.lt_irrefl _), List.findIdx_singleton, if_pos hbrings]
  simp only [List.length_append, List.length_singleton]
  omega

theorem mem_apply (hsub : ∀ h ∈ helpers, h ∈ candidates) :
    h ∈ c.apply candidates helpers ↔
      h ∈ candidates ∧ (if c.names h then c.adds else decide (h ∈ helpers)) = true := by
  unfold Change.apply Change.names
  cases hadds : c.adds with
  | true =>
    rw [if_pos rfl, Selection.add, List.mem_append, List.mem_filter]
    by_cases hmem : h ∈ helpers
    · simp [hmem, hsub h hmem]
    · simp [hmem]
  | false =>
    rw [if_neg (by decide), Selection.remove, List.mem_filter]
    cases haccepts : c.lookup.accepts h.descriptor with
    | true => simp
    | false => simpa using hsub h

end

/-! ### All changes -/

section

variable {candidates : List TagHelper} {changes : List Change} {c : Change} {h h' : TagHelper}

theorem applyChanges_concat (candidates : List TagHelper) (changes : List Change) (c : Change) :
    applyChanges candidates (changes ++ [c]) =
      c.apply candidates (applyChanges candidates changes) := by
  unfold applyChanges
  rw [List.foldl_append, List.foldl_cons, List.foldl_nil]

/-- **The last change about a tag helper decides whether it is there.** -/
theorem mem_applyChanges (changes : List Change) : ∀ h : TagHelper,
    h ∈ applyChanges candidates changes ↔ h ∈ candidates ∧ isAdded changes h = true := by
  induction changes using List.reverseRecOn with
  | nil => intro h; simp [applyChanges, isAdded]
  | append_singleton changes c ih =>
    intro h
    rw [applyChanges_concat, mem_apply fun h hh => ((ih h).1 hh).1, isAdded_concat]
    refine and_congr_right fun hcandidate => ?_
    cases c.names h with
    | true => simp
    | false => simp [ih h, hcandidate]

/-- A tag helper that stays is where it was before the change. -/
theorem introduction_of_kept (hmem : h ∈ applyChanges candidates changes)
    (hkept : c.removes h = false) : introduction (changes ++ [c]) h = introduction changes h :=
  introduction_concat_of_added ((mem_applyChanges changes h).1 hmem).2 hkept

/-- A tag helper that is added is put behind all others. -/
theorem introduction_of_added (hadds : c.adds = true)
    (hmem : h ∈ candidates.filter fun h =>
      c.lookup.accepts h.descriptor && !(applyChanges candidates changes).contains h) :
    introduction (changes ++ [c]) h = changes.length := by
  obtain ⟨hcandidate, hnew⟩ := List.mem_filter.1 hmem
  rw [Bool.and_eq_true, Bool.not_eq_true', List.contains_eq_mem, decide_eq_false_iff_not] at hnew
  obtain ⟨haccepts, hnew⟩ := hnew
  have hadded : isAdded changes h = false := by
    rw [mem_applyChanges] at hnew
    simpa [hcandidate] using hnew
  have hbrings : c.brings h = true := by
    rw [Change.brings, Change.names, hadds, haccepts]
    rfl
  exact introduction_concat_of_not_added hadded hbrings

theorem Precedes.concat (hmem : h ∈ applyChanges candidates changes)
    (hmem' : h' ∈ applyChanges candidates changes) (hkept : c.removes h = false)
    (hkept' : c.removes h' = false) (hbefore : Precedes changes h h') :
    Precedes (changes ++ [c]) h h' := by
  unfold Precedes
  rwa [introduction_of_kept hmem hkept, introduction_of_kept hmem' hkept']

/-- **Tag helpers stand in the order in which they were brought in**, and those brought in by one
change in the order of the catalog. -/
theorem pairwise_applyChanges (hplaces : candidates.Pairwise fun h h' => h.place < h'.place)
    (changes : List Change) :
    (applyChanges candidates changes).Pairwise (Precedes changes) := by
  induction changes using List.reverseRecOn with
  | nil => exact List.Pairwise.nil
  | append_singleton changes c ih =>
    rw [applyChanges_concat, Change.apply]
    cases hadds : c.adds with
    | false =>
      -- what is left is not named by the change, so it stays where it was
      have hleft : ∀ h ∈ Selection.remove c.lookup (applyChanges candidates changes),
          h ∈ applyChanges candidates changes ∧ c.removes h = false := by
        intro h hh
        obtain ⟨hmem, haccepts⟩ := List.mem_filter.1 hh
        refine ⟨hmem, ?_⟩
        rw [Change.removes, Change.names, (Bool.not_eq_true' _).mp haccepts, Bool.and_false]
      rw [if_neg Bool.false_ne_true]
      refine (ih.filter _).imp_of_mem fun hh hh' hbefore => ?_
      obtain ⟨hmem, hkept⟩ := hleft _ hh
      obtain ⟨hmem', hkept'⟩ := hleft _ hh'
      exact hbefore.concat hmem hmem' hkept hkept'
    | true =>
      have hkept : ∀ h, c.removes h = false := fun h => by rw [Change.removes, hadds]; rfl
      rw [if_pos rfl, Selection.add, List.pairwise_append]
      refine ⟨ih.imp_of_mem fun hh hh' hbefore => hbefore.concat hh hh' (hkept _) (hkept _), ?_, ?_⟩
      · -- of two that are new, the catalog decides
        refine (hplaces.filter _).imp_of_mem fun hh hh' hplace => Or.inr ⟨?_, hplace⟩
        rw [introduction_of_added hadds hh, introduction_of_added hadds hh']
      · intro h hh h' hh'
        refine Or.inl ?_
        rw [introduction_of_kept hh (hkept h), introduction_of_added hadds hh']
        exact introduction_lt ((mem_applyChanges changes h).1 hh).2

end

/-! ### Selections -/

/-- What is wrong with a directive that is to add or remove tag helpers of a catalog: its text cannot
be read, or no tag helper for legacy documents comes from the assembly that it names. -/
def Directive.lookupProblem? (c : Catalog) (d : Directive) : Option Problem :=
  if d.kind = .addTagHelper ∨ d.kind = .removeTagHelper then
    match Lookup.parse? d.valueText with
    | none => some (.invalidLookupText d.valueText)
    | some l =>
      if ∃ h ∈ c.helpers, h.descriptor.kind = .classic ∧ h.descriptor.assemblyName = l.assembly then
        none
      else some (.unresolvedAssembly l.assembly)
  else none

/-- The prefix that a directive names. -/
def Directive.prefixText (d : Directive) : String :=
  Text.trim (Text.trimQuotes d.valueText)

theorem Catalog.pairwise_helpers (c : Catalog) :
    c.helpers.Pairwise fun h h' => h.place < h'.place := by
  have hplaces : (c.descriptors.zipIdx.map Prod.snd).Pairwise (· < ·) := by
    rw [List.zipIdx_map_snd]
    exact List.pairwise_lt_range'
  rw [Catalog.helpers, List.pairwise_map]
  exact List.pairwise_map.1 hplaces

namespace Selection

variable {candidates : List TagHelper} {s : Selection} {d : Directive}

theorem mem_classicCandidates (c : Catalog) (h : TagHelper) :
    h ∈ classicCandidates c ↔ h ∈ c.helpers ∧ h.descriptor.kind = .classic := by
  rw [classicCandidates, List.mem_filter]
  simp [HelperKind.forComponents]

theorem accepts_eq_false {l : Lookup} {h : TagHelper}
    (hl : ¬ candidates.any (·.descriptor.assemblyName == l.assembly) = true)
    (hh : h ∈ candidates) : l.accepts h.descriptor = false := by
  rw [List.any_eq_true, not_exists] at hl
  have hassembly := fun heq => hl h ⟨hh, heq⟩
  rw [Lookup.accepts, Bool.eq_false_iff.2 hassembly, Bool.false_and]

/-- A change that names an unknown assembly changes nothing. -/
theorem apply_of_unresolved (c : Change) {helpers : List TagHelper}
    (hl : ¬ candidates.any (·.descriptor.assemblyName == c.lookup.assembly) = true)
    (hsub : ∀ h ∈ helpers, h ∈ candidates) : c.apply candidates helpers = helpers := by
  unfold Change.apply
  split
  · have hnone : (candidates.filter fun h => c.lookup.accepts h.descriptor && !helpers.contains h) =
        [] := by
      refine List.filter_eq_nil_iff.2 fun h hh => ?_
      simp [accepts_eq_false hl hh]
    rw [add, hnone, List.append_nil]
  · refine List.filter_eq_self.2 fun h hh => ?_
    rw [accepts_eq_false hl (hsub h hh)]
    rfl

/-- What a directive that adds or removes does to the tag helpers. -/
theorem helpers_update (hsub : ∀ h ∈ s.helpers, h ∈ candidates) (adds : Bool)
    {change : Lookup → List TagHelper → List TagHelper}
    (hchange : ∀ l, change l s.helpers = Change.apply candidates s.helpers ⟨adds, l⟩) :
    (s.update candidates d change).helpers =
      ((Lookup.parse? d.valueText).map fun l => (⟨adds, l⟩ : Change)).elim s.helpers
        (Change.apply candidates s.helpers) := by
  unfold update lookup
  cases Lookup.parse? d.valueText with
  | none => rfl
  | some l =>
    by_cases hl : candidates.any (·.descriptor.assemblyName == l.assembly) = true
    · simp only [hl, if_true]
      exact hchange l
    · simp only [hl]
      exact (apply_of_unresolved ⟨adds, l⟩ hl hsub).symm

theorem helpers_visitClassic (hsub : ∀ h ∈ s.helpers, h ∈ candidates) :
    (visitClassic candidates s d).helpers =
      d.change?.elim s.helpers (Change.apply candidates s.helpers) := by
  unfold visitClassic Directive.change?
  cases d.kind with
  | addTagHelper => exact helpers_update hsub true fun l => rfl
  | removeTagHelper => exact helpers_update hsub false fun l => rfl
  | tagHelperPrefix => rfl
  | usingNamespace => rfl
  | other => rfl

theorem classic_concat (c : Catalog) (ds : List Directive) (d : Directive) :
    classic c (ds ++ [d]) = visitClassic (classicCandidates c) (classic c ds) d := by
  unfold classic
  rw [List.foldl_append, List.foldl_cons, List.foldl_nil]

/-- **The tag helpers of a document are what its changes make.** -/
theorem helpers_classic (c : Catalog) (ds : List Directive) :
    (classic c ds).helpers =
      applyChanges (classicCandidates c) (ds.filterMap Directive.change?) := by
  induction ds using List.reverseRecOn with
  | nil => rfl
  | append_singleton ds d ih =>
    have hsub : ∀ h ∈ (classic c ds).helpers, h ∈ classicCandidates c := by
      intro h hh
      rw [ih, mem_applyChanges] at hh
      exact hh.1
    rw [classic_concat, helpers_visitClassic hsub, ih, List.filterMap_append]
    cases hchange : d.change? with
    | none => simp [hchange]
    | some change =>
      rw [List.filterMap_cons_some hchange, List.filterMap_nil, applyChanges_concat]
      rfl

theorem diagnostics_update (c : Catalog) {change : Lookup → List TagHelper → List TagHelper}
    (hkind : d.kind = .addTagHelper ∨ d.kind = .removeTagHelper) :
    (s.update (classicCandidates c) d change).diagnostics =
      s.diagnostics ++ ((d.lookupProblem? c).map (·.report d.value.span)).toList := by
  unfold update lookup Directive.lookupProblem?
  rw [if_pos hkind]
  cases Lookup.parse? d.valueText with
  | none => rfl
  | some l =>
    have hany : ((classicCandidates c).any (·.descriptor.assemblyName == l.assembly) = true) ↔
        ∃ h ∈ c.helpers, h.descriptor.kind = .classic ∧ h.descriptor.assemblyName = l.assembly := by
      simp [List.any_eq_true, mem_classicCandidates, and_assoc]
    by_cases hl : (classicCandidates c).any (·.descriptor.assemblyName == l.assembly) = true
    · simp [hl, hany.1 hl]
    · simp [hl, mt hany.2 hl]

theorem diagnostics_visitClassic (c : Catalog) :
    (visitClassic (classicCandidates c) s d).diagnostics =
      s.diagnostics ++ ((d.lookupProblem? c).map (·.report d.value.span)).toList := by
  unfold visitClassic
  cases hkind : d.kind with
  | addTagHelper => exact diagnostics_update c (Or.inl hkind)
  | removeTagHelper => exact diagnostics_update c (Or.inr hkind)
  | tagHelperPrefix => simp [Directive.lookupProblem?, hkind]
  | usingNamespace => simp [Directive.lookupProblem?, hkind]
  | other => simp [Directive.lookupProblem?, hkind]

theorem diagnostics_classic (c : Catalog) (ds : List Directive) :
    (classic c ds).diagnostics =
      ds.filterMap fun d => (d.lookupProblem? c).map (·.report d.value.span) := by
  induction ds using List.reverseRecOn with
  | nil => rfl
  | append_singleton ds d ih =>
    rw [classic_concat, diagnostics_visitClassic, ih, List.filterMap_append]
    cases hproblem : d.lookupProblem? c <;> simp [hproblem]

theorem tagPrefix_visitClassic :
    (visitClassic candidates s d).tagPrefix =
      if d.kind = .tagHelperPrefix ∧ d.prefixText ≠ "" then some d.prefixText else s.tagPrefix := by
  have hupdate : ∀ change, (s.update candidates d change).tagPrefix = s.tagPrefix := by
    intro change
    unfold update
    split <;> rfl
  unfold visitClassic
  cases hkind : d.kind with
  | addTagHelper => simpa using hupdate _
  | removeTagHelper => simpa using hupdate _
  | tagHelperPrefix =>
    simp only [prefixOf?, Directive.prefixText]
    split <;> simp_all
  | usingNamespace => simp
  | other => simp

theorem tagPrefix_classic (c : Catalog) (ds : List Directive) :
    (classic c ds).tagPrefix =
      (ds.filter fun d => d.kind = .tagHelperPrefix ∧ d.prefixText ≠ "").getLast?.map
        Directive.prefixText := by
  induction ds using List.reverseRecOn with
  | nil => rfl
  | append_singleton ds d ih =>
    rw [classic_concat, tagPrefix_visitClassic, ih, List.filter_append]
    by_cases hd : d.kind = .tagHelperPrefix ∧ d.prefixText ≠ ""
    · simp [hd]
    · simp [hd]

theorem mem_helpers_classic (c : Catalog) (ds : List Directive) (h : TagHelper) :
    h ∈ (classic c ds).helpers ↔ h ∈ c.helpers ∧ h.descriptor.kind = .classic ∧
      isAdded (ds.filterMap Directive.change?) h = true := by
  rw [helpers_classic, mem_applyChanges, mem_classicCandidates, and_assoc]

theorem pairwise_helpers_classic (c : Catalog) (ds : List Directive) :
    (classic c ds).helpers.Pairwise (Precedes (ds.filterMap Directive.change?)) := by
  rw [helpers_classic]
  exact pairwise_applyChanges (c.pairwise_helpers.filter _) _

end Selection

theorem Precedes.ne {changes : List Change} {h h' : TagHelper} (hbefore : Precedes changes h h') :
    h ≠ h' := by
  rintro rfl
  obtain hlt | ⟨-, hlt⟩ := hbefore
  · exact Nat.lt_irrefl _ hlt
  · exact Nat.lt_irrefl _ hlt

/-- What the selection of a legacy document with some directives is. -/
structure ClassicSelection (c : Catalog) (ds : List Directive) (s : Selection) : Prop where
  /-- A tag helper is selected iff it is one for legacy documents, some change names it, and the
  last one that does adds it. -/
  mem_iff : ∀ h, h ∈ s.helpers ↔ h ∈ c.helpers ∧ h.descriptor.kind = .classic ∧
    isAdded (ds.filterMap Directive.change?) h = true
  nodup : s.helpers.Nodup
  /-- Tag helpers stand in the order of the changes that brought them in, then of the catalog. -/
  order : s.helpers.Pairwise (Precedes (ds.filterMap Directive.change?))
  diagnostics : s.diagnostics =
    ds.filterMap fun d => (d.lookupProblem? c).map (·.report d.value.span)
  /-- The prefix is that of the last directive that names one. -/
  tagPrefix : s.tagPrefix =
    (ds.filter fun d => d.kind = .tagHelperPrefix ∧ d.prefixText ≠ "").getLast?.map
      Directive.prefixText

/-- **The last directive decides.** The directives of the imports come before those of the document.
Of those that add or remove, the last one to name a tag helper decides whether it applies, and each
one is reported whose text cannot be read or names an assembly without tag helpers for legacy
documents. -/
theorem classicSelection_select (d : Document) (hkind : d.kind = .legacy) :
    ClassicSelection d.catalog (d.imports.flatMap Node.directives ++ d.markup.directives)
      d.select := by
  have hselect : d.select = Selection.classic d.catalog
      (d.imports.flatMap Node.directives ++ d.markup.directives) := by
    simp [Document.select, hkind, DocumentKind.isComponent, placedDirectives, Function.comp_def]
  have horder := Selection.pairwise_helpers_classic d.catalog
    (d.imports.flatMap Node.directives ++ d.markup.directives)
  rw [hselect]
  exact ⟨Selection.mem_helpers_classic _ _, horder.imp Precedes.ne, horder,
    Selection.diagnostics_classic _ _, Selection.tagPrefix_classic _ _⟩

namespace Sample

/-- A tag helper for legacy documents. -/
def legacyHelper (name : String) : Descriptor :=
  { kind := .classic, name, assemblyName := "Library" }

def lookupDirective (keyword value : String) : Node :=
  .directive ⟨⟨"@", .stub⟩, ⟨keyword, .stub⟩, ⟨value, .stub⟩, .stub⟩

/-- A document that removes one of two imported tag helpers and adds it again. -/
def legacy : Document where
  catalog := ⟨[legacyHelper "Anchor", legacyHelper "Form"]⟩
  path := "page"
  kind := .legacy
  imports := [lookupDirective "addTagHelper" "*, Library"]
  markup := .block [lookupDirective "removeTagHelper" "A*, Library",
    lookupDirective "addTagHelper" "Anchor, Library", lookupDirective "addTagHelper" "*"] .stub

end Sample

theorem classicSelection_legacy :
    Sample.legacy.kind = .legacy ∧
    ClassicSelection Sample.legacy.catalog
      (Sample.legacy.imports.flatMap Node.directives ++ Sample.legacy.markup.directives)
      Sample.legacy.select :=
  ⟨rfl, classicSelection_select Sample.legacy rfl⟩

example : Sample.legacy.select.helpers.map (·.descriptor.name) = ["Form", "Anchor"] := by
  decide +kernel

end TagHelpers
