import TagHelpers.Proofs.Bind.Duplicates

/-!
# Folding parameters

Once the bind attributes of an element have different names, each of them that is no parameter has
an entry of its own, and each parameter is noted in the entry of its base name.

* `entries_eq`: the entries are those of the attributes that are no parameters, in their order.
* `prunes_foldParameters`: exactly the parameters are detached, and those without an entry are
  reported.
* `snd_foldParameters`: what the parameters leave in the entries.
-/

namespace TagHelpers

/-- Whether an entry is that of an attribute of a name below a parent. -/
def BindEntry.isFor (e : BindEntry) (parent : NodeId) (name : String) : Bool :=
  e.parent == parent && e.name == name

namespace RenderTree

variable {t t' : RenderTree} {r : Reference} {e : BindEntry} {p : Property} {q : Parameter}
  {es : List BindEntry} {refs : List Reference}

/-! ### Entries -/

/-- The entry of a bind attribute that is no parameter. -/
def baseEntry? (t : RenderTree) (r : Reference) : Option BindEntry :=
  (t.node r.node).property?.bind fun p =>
    if p.resolution.isParameter then none
    else some { parent := r.parent, node := r.node, name := p.attributeName }

/-- The entries after one more bind attribute. -/
def addEntry (t : RenderTree) (es : List BindEntry) (r : Reference) : List BindEntry :=
  match t.baseEntry? r with
  | none => es
  | some e => if es.any (·.isFor e.parent e.name) then es else es ++ [e]

theorem entries_eq_foldl (t : RenderTree) (refs : List Reference) :
    t.entries refs = refs.foldl t.addEntry [] := by
  unfold entries
  congr 1
  funext es r
  unfold addEntry baseEntry?
  cases (t.node r.node).property? with
  | none => rfl
  | some p => cases hp : p.resolution.isParameter <;> simp [BindEntry.isFor, hp]

theorem baseEntry?_eq_some : t.baseEntry? r = some e ↔
    ∃ p, (t.node r.node).property? = some p ∧ p.resolution.isParameter = false ∧
      e = { parent := r.parent, node := r.node, name := p.attributeName } := by
  unfold baseEntry?
  rw [Option.bind_eq_some_iff]
  refine exists_congr fun p => and_congr_right fun _ => ?_
  cases p.resolution.isParameter with
  | true => simp
  | false => simp [eq_comm]

/-- Two references whose attributes have different entries. -/
def Apart (t : RenderTree) (r s : Reference) : Prop :=
  ∀ e e', t.baseEntry? r = some e → t.baseEntry? s = some e' → e.isFor e'.parent e'.name = false

theorem foldl_addEntry (refs : List Reference) : ∀ es : List BindEntry, refs.Pairwise t.Apart →
    (∀ e ∈ es, ∀ r ∈ refs, ∀ e', t.baseEntry? r = some e' → e.isFor e'.parent e'.name = false) →
    refs.foldl t.addEntry es = es ++ refs.filterMap t.baseEntry? := by
  induction refs with
  | nil => intro es _ _; simp
  | cons r refs ih =>
    intro es hp hes
    rw [List.pairwise_cons] at hp
    rw [List.foldl_cons]
    cases he : t.baseEntry? r with
    | none =>
      have hadd : t.addEntry es r = es := by unfold addEntry; rw [he]
      rw [hadd, List.filterMap_cons_none he,
        ih es hp.2 fun e hm s hs => hes e hm s (List.mem_cons_of_mem _ hs)]
    | some e =>
      have hadd : t.addEntry es r = es ++ [e] := by
        unfold addEntry
        rw [he]
        -- the entries so far are those of other attributes
        refine if_neg fun hany => ?_
        obtain ⟨e', he', hfor⟩ := List.any_eq_true.1 hany
        exact Bool.false_ne_true ((hes e' he' r List.mem_cons_self e he).symm.trans hfor)
      rw [hadd, List.filterMap_cons_some he, ih, List.append_assoc, List.singleton_append]
      · exact hp.2
      · intro e' hm s hs e'' he''
        rcases List.mem_append.1 hm with hm | hm
        · exact hes e' hm s (List.mem_cons_of_mem _ hs) e'' he''
        · rw [List.mem_singleton.1 hm]
          exact hp.1 s hs e e'' he he''

/-- **Each bind attribute that is no parameter has its entry.** -/
theorem entries_eq (h : refs.Pairwise t.Apart) : t.entries refs = refs.filterMap t.baseEntry? := by
  rw [entries_eq_foldl, foldl_addEntry refs [] h fun e he => absurd he List.not_mem_nil,
    List.nil_append]

/-! ### Parameters -/

/-- The use of a parameter that a node is. -/
def parameterUse? (t : RenderTree) (id : NodeId) : Option (Property × Parameter) :=
  (t.node id).property?.bind fun p => p.resolution.parameter.map fun q => (p, q)

/-- An entry after a parameter has been noted in the one that it belongs to. -/
def noteUse (t : RenderTree) (e : BindEntry) (r : Reference) : BindEntry :=
  match t.parameterUse? r.node with
  | some (p, q) => if e.isFor r.parent p.baseName then noteParameter e q.name r.node else e
  | none => e

/-- The report on a parameter that belongs to none of the entries, with the parent. -/
def missingBase (t : RenderTree) (es : List BindEntry) (r : Reference) :
    List (NodeId × Diagnostic) :=
  match t.parameterUse? r.node with
  | some (p, _) =>
    if es.any (·.isFor r.parent p.baseName) then []
    else [(r.parent, (Problem.parameterWithoutBind p.attributeName p.baseName).report
      (t.node r.node).spanOrStub)]
  | none => []

theorem parameterUse?_congr {x : NodeId} (h : t'.kind x = t.kind x) :
    t'.parameterUse? x = t.parameterUse? x := by
  unfold parameterUse?
  rw [property?_congr h]

theorem noteUse_congr (h : t'.kind r.node = t.kind r.node) (e : BindEntry) :
    t'.noteUse e r = t.noteUse e r := by
  unfold noteUse
  rw [parameterUse?_congr h]

/-- A parameter changes neither the attribute of an entry nor its place. -/
theorem noteUse_key (t : RenderTree) (e : BindEntry) (r : Reference) :
    (t.noteUse e r).parent = e.parent ∧ (t.noteUse e r).node = e.node ∧
      (t.noteUse e r).name = e.name := by
  unfold noteUse noteParameter
  split
  · split
    · split
      · exact ⟨rfl, rfl, rfl⟩
      · split <;> exact ⟨rfl, rfl, rfl⟩
    · exact ⟨rfl, rfl, rfl⟩
  · exact ⟨rfl, rfl, rfl⟩

theorem foldl_noteUse_key (t : RenderTree) (refs : List Reference) : ∀ e : BindEntry,
    (refs.foldl t.noteUse e).parent = e.parent ∧ (refs.foldl t.noteUse e).node = e.node ∧
      (refs.foldl t.noteUse e).name = e.name := by
  induction refs with
  | nil => intro e; exact ⟨rfl, rfl, rfl⟩
  | cons r refs ih =>
    intro e
    obtain ⟨h1, h2, h3⟩ := noteUse_key t e r
    obtain ⟨g1, g2, g3⟩ := ih (t.noteUse e r)
    exact ⟨g1.trans h1, g2.trans h2, g3.trans h3⟩

theorem missingBase_noteUse (t t' : RenderTree) (es : List BindEntry) (r s : Reference) :
    t.missingBase (es.map (t'.noteUse · r)) s = t.missingBase es s := by
  have hany : ∀ parent name, (es.map (t'.noteUse · r)).any (·.isFor parent name) =
      es.any (·.isFor parent name) := by
    intro parent name
    rw [List.any_map]
    congr 1
    funext e
    obtain ⟨h1, -, h3⟩ := noteUse_key t' e r
    simp only [Function.comp_apply, BindEntry.isFor, h1, h3]
  unfold missingBase
  simp only [hany]

theorem missingBase_fst {d : NodeId × Diagnostic} (h : d ∈ t.missingBase es r) :
    d.1 = r.parent := by
  unfold missingBase at h
  split at h
  · split at h
    · exact absurd h List.not_mem_nil
    · rw [List.mem_singleton.1 h]
  · exact absurd h List.not_mem_nil

theorem missingBase_congr (hk : t'.kind r.node = t.kind r.node)
    (hs : (t'.node r.node).span = (t.node r.node).span) (es : List BindEntry) :
    t'.missingBase es r = t.missingBase es r := by
  unfold missingBase
  rw [parameterUse?_congr hk, spanOrStub_congr hs]

theorem foldParameter_of_none (h : t.parameterUse? r.node = none) (es : List BindEntry) :
    foldParameter (t, es) r = (t, es) := by
  unfold parameterUse? at h
  cases hp : (t.node r.node).property? with
  | none => simp only [foldParameter, hp]
  | some p =>
    have hq : p.resolution.parameter = none := by simpa [hp] using h
    simp only [foldParameter, hp, hq]

theorem foldParameter_of_some (h : t.parameterUse? r.node = some (p, q)) (es : List BindEntry) :
    foldParameter (t, es) r =
      (((if es.any (·.isFor r.parent p.baseName) then t
        else t.addDiagnostic r.parent ((Problem.parameterWithoutBind p.attributeName
          p.baseName).report (t.node r.node).spanOrStub)).detachChild r.parent r.node).1,
        es.map fun e =>
          if e.isFor r.parent p.baseName then noteParameter e q.name r.node else e) := by
  unfold parameterUse? at h
  obtain ⟨p', hp, h⟩ := Option.bind_eq_some_iff.1 h
  obtain ⟨q', hq, h⟩ := Option.map_eq_some_iff.1 h
  cases h
  unfold foldParameter
  simp only [hp, hq]
  rfl

theorem snd_foldParameter (t : RenderTree) (es : List BindEntry) (r : Reference) :
    (foldParameter (t, es) r).2 = es.map (t.noteUse · r) := by
  unfold noteUse
  cases h : t.parameterUse? r.node with
  | none => rw [foldParameter_of_none h, List.map_id']
  | some u => rw [foldParameter_of_some h]

theorem prunes_foldParameter (ht : t.IsTree) (hr : r.node ∈ t.children r.parent)
    (hb : (t.node r.node).isBind = true) (es : List BindEntry) :
    Prunes t (foldParameter (t, es) r).1 (fun s => s == r && (t.parameterUse? s.node).isSome)
      (t.missingBase es r) := by
  have hcongr : ∀ s : Reference, (s == r && (t.parameterUse? s.node).isSome) =
      (s == r && (t.parameterUse? r.node).isSome) := by
    intro s
    by_cases hs : s = r
    · rw [hs]
    · rw [beq_eq_false_iff_ne.2 hs, Bool.false_and, Bool.false_and]
  simp only [hcongr]
  unfold missingBase
  cases h : t.parameterUse? r.node with
  | none =>
    rw [foldParameter_of_none h]
    exact (Prunes.refl ht).congr _ fun _ _ _ => by simp
  | some u =>
    rw [foldParameter_of_some h]
    simp only [Option.isSome_some, Bool.and_true]
    split
    · exact prunes_detachChild ht hr hb
    · have h1 := prunes_addDiagnostic ht r.parent ((Problem.parameterWithoutBind u.1.attributeName
        u.1.baseName).report (t.node r.node).spanOrStub)
      have h2 := prunes_detachChild h1.evolves.isTree (h1.mem_children.2 ⟨hr, rfl⟩)
        ((h1.evolves.isBind_eq _).trans hb)
      simpa using h1.trans h2

/-- One step: the other bind attributes stay where they are. -/
theorem Refers.foldParameter (h : Refers t (r :: refs)) (es : List BindEntry) :
    Prunes t (foldParameter (t, es) r).1 (fun s => s == r && (t.parameterUse? s.node).isSome)
      (t.missingBase es r) ∧
    Refers (RenderTree.foldParameter (t, es) r).1 refs := by
  have h1 := prunes_foldParameter h.isTree (h.mem_children r List.mem_cons_self)
    (h.isBind r List.mem_cons_self) es
  refine ⟨h1, h.tail h1.evolves fun p x hx hne => h1.mem_children.2 ⟨hx, ?_⟩⟩
  have hr : (⟨p, x⟩ : Reference) ≠ r := fun he => hne (congrArg Reference.node he)
  rw [beq_eq_false_iff_ne.2 hr, Bool.false_and]

/-- **Exactly the parameters are detached**, and those without an entry are reported. -/
theorem prunes_foldParameters (refs : List Reference) : ∀ (t : RenderTree) (es : List BindEntry),
    Refers t refs →
    Prunes t (refs.foldl foldParameter (t, es)).1
      (fun s => refs.contains s && (t.parameterUse? s.node).isSome)
      (refs.flatMap (t.missingBase es)) := by
  induction refs with
  | nil =>
    intro t es h
    exact (Prunes.refl h.isTree).congr _ fun _ _ _ => by simp
  | cons r refs ih =>
    intro t es h
    obtain ⟨h1, hrefs⟩ := h.foldParameter es
    -- neither the tree nor the entries have changed in what the later reports depend on
    have hreports : refs.flatMap
        ((foldParameter (t, es) r).1.missingBase (foldParameter (t, es) r).2) =
        refs.flatMap (t.missingBase es) := by
      refine List.flatMap_congr fun s _ => ?_
      rw [missingBase_congr (h1.kind_eq _) (h1.span_eq _), snd_foldParameter, missingBase_noteUse]
    have h2 := h1.trans (ih _ (foldParameter (t, es) r).2 hrefs)
    rw [hreports, ← List.flatMap_cons] at h2
    refine h2.congr _ fun p x _ => ?_
    simp only [parameterUse?_congr (h1.kind_eq x), List.contains_cons, Bool.and_or_distrib_right]

/-- **What the parameters leave in the entries.** -/
theorem snd_foldParameters (refs : List Reference) : ∀ (t : RenderTree) (es : List BindEntry),
    Refers t refs → (refs.foldl foldParameter (t, es)).2 = es.map (refs.foldl t.noteUse) := by
  induction refs with
  | nil => intro t es _; exact (List.map_id es).symm
  | cons r refs ih =>
    intro t es h
    obtain ⟨h1, hrefs⟩ := h.foldParameter es
    have hnote : (foldParameter (t, es) r).1.noteUse = t.noteUse := by
      funext e s
      exact noteUse_congr (h1.kind_eq _) e
    rw [List.foldl_cons, ih _ (foldParameter (t, es) r).2 hrefs, hnote, snd_foldParameter,
      List.map_map]
    rfl

end RenderTree

end TagHelpers
