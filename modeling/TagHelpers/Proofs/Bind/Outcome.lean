import TagHelpers.Proofs.Bind.Frame
import TagHelpers.Proofs.Bind.Settled

/-!
# The entries of a tree

The entries that are lowered can be read off the tree as it was: those of the remaining bind
attributes that are no parameters, each with the last parameter of each name that belongs to it.

* `entryOf`: the entry of a remaining bind attribute.
* `settled_eq`: the entries are these.
* `references_perm`: where no bind attribute stands below another one, the remaining bind attributes
  of all attached elements are lowered.
-/

namespace TagHelpers.RenderTree

open BindCandidate

variable {t t' : RenderTree} {r : Reference} {e : BindEntry} {b : BindCandidate} {p x : NodeId}
  {refs : List Reference}

/-! ### Parameters of an entry -/

/-- Whether a reference is to a parameter of a name that belongs to an entry. -/
def notes (t : RenderTree) (e : BindEntry) (name : String) (r : Reference) : Bool :=
  (t.parameterUse? r.node).any fun u => e.isFor r.parent u.1.baseName && u.2.name == name

/-- The last parameter of a name that belongs to an entry. -/
def lastNoted (t : RenderTree) (refs : List Reference) (e : BindEntry) (name : String) :
    Option NodeId :=
  ((refs.filter (t.notes e name)).map (·.node)).getLast?

theorem lastNoted_noteUse (t : RenderTree) (refs : List Reference) (e : BindEntry) (r : Reference)
    (name : String) : t.lastNoted refs (t.noteUse e r) name = t.lastNoted refs e name := by
  obtain ⟨h1, -, h3⟩ := noteUse_key t e r
  have hnotes : t.notes (t.noteUse e r) name = t.notes e name := by
    funext s
    unfold notes BindEntry.isFor
    rw [h1, h3]
  unfold lastNoted
  rw [hnotes]

theorem lastNoted_cons (t : RenderTree) (r : Reference) (refs : List Reference) (e : BindEntry)
    (name : String) : t.lastNoted (r :: refs) e name =
      (t.lastNoted refs e name).or (if t.notes e name r then some r.node else none) := by
  unfold lastNoted
  rw [List.filter_cons]
  split
  · rw [List.map_cons, List.getLast?_cons]
    cases ((refs.filter (t.notes e name)).map (·.node)).getLast? <;> rfl
  · rw [Option.or_none]

/-- What one parameter leaves in an entry. -/
theorem noteUse_eq (t : RenderTree) (e : BindEntry) (r : Reference) :
    t.noteUse e r = { e with
      event := if t.notes e "event" r then some r.node else e.event
      format := if t.notes e "format" r then some r.node else e.format } := by
  unfold noteUse notes
  cases t.parameterUse? r.node with
  | none => rfl
  | some u =>
    by_cases hfor : e.isFor r.parent u.1.baseName = true
    · simp only [hfor, if_true, Option.any_some, Bool.true_and, beq_iff_eq]
      unfold noteParameter
      by_cases he : u.2.name = "event"
      · simp [he]
      · by_cases hf : u.2.name = "format"
        · simp [hf]
        · simp [he, hf]
    · simp [hfor]

/-- **The last parameter of a name is the one that counts.** -/
theorem foldl_noteUse_eq (t : RenderTree) (refs : List Reference) : ∀ e : BindEntry,
    refs.foldl t.noteUse e = { e with
      event := (t.lastNoted refs e "event").or e.event
      format := (t.lastNoted refs e "format").or e.format } := by
  induction refs with
  | nil => intro e; rfl
  | cons r refs ih =>
    intro e
    rw [List.foldl_cons, ih, lastNoted_noteUse, lastNoted_noteUse, noteUse_eq, lastNoted_cons,
      lastNoted_cons]
    cases t.notes e "event" r <;> cases t.notes e "format" r <;> simp

/-! ### The entries -/

/-- The last of the remaining parameters of a name, among those that belong to an attribute. -/
def lastParameter (t : RenderTree) (parent : NodeId) (base name : String) : Option NodeId :=
  (((t.remaining parent).map (·.node)).filter fun x =>
    (t.parameterUse? x).any fun u => base == u.1.baseName && u.2.name == name).getLast?

/-- The entry of a remaining bind attribute. -/
def entryOf (t : RenderTree) (parent : NodeId) (b : BindCandidate) : BindEntry where
  parent
  node := b.node
  name := b.name
  event := t.lastParameter parent b.name "event"
  format := t.lastParameter parent b.name "format"

/-- The remaining bind attributes of an element, as references. -/
def remainingReferences (t : RenderTree) (parent : NodeId) : List Reference :=
  (t.remaining parent).map fun b => ⟨parent, b.node⟩

theorem filter_parent_bindReferences (ht : t.IsTree) (hp : t.withoutDuplicates.Reaches root p) :
    (t.withoutDuplicates.references RenderNode.isBind).filter (·.parent == p) =
      t.remainingReferences p := by
  have h1 := prunes_withoutDuplicates ht
  rw [h1.evolves.isTree.filter_parent_references _ hp]
  simp only [h1.evolves.isBind_eq]
  rw [filter_isBind_withoutDuplicates ht (attached_of_withoutDuplicates ht hp), List.map_map]
  rfl

theorem lastNoted_eq_lastParameter (ht : t.IsTree)
    (hp : t.withoutDuplicates.Reaches root e.parent) (name : String) :
    t.lastNoted (t.withoutDuplicates.references RenderNode.isBind) e name =
      t.lastParameter e.parent e.name name := by
  have hfilter : (t.withoutDuplicates.references RenderNode.isBind).filter (t.notes e name) =
      (t.remainingReferences e.parent).filter (t.notes e name) := by
    rw [← filter_parent_bindReferences ht hp, List.filter_filter]
    refine List.filter_congr fun r _ => ?_
    unfold notes BindEntry.isFor
    cases t.parameterUse? r.node with
    | none => rfl
    | some u =>
      by_cases h : e.parent = r.parent
      · simp [h]
      · simp [h]
  have hnotes : ((t.remaining e.parent).filter fun b => t.notes e name ⟨e.parent, b.node⟩) =
      (t.remaining e.parent).filter fun b => (t.parameterUse? b.node).any fun u =>
        e.name == u.1.baseName && u.2.name == name :=
    List.filter_congr fun b _ => by simp [notes, BindEntry.isFor]
  unfold lastNoted lastParameter
  rw [hfilter]
  unfold remainingReferences
  rw [List.filter_map, List.map_map, List.filter_map]
  exact congrArg (fun bs : List BindCandidate => (bs.map (·.node)).getLast?) hnotes

/-- An entry with the parameters that belong to it. -/
def complete (t : RenderTree) (e : BindEntry) : BindEntry :=
  { e with
    event := t.lastParameter e.parent e.name "event"
    format := t.lastParameter e.parent e.name "format" }

theorem baseEntry?_withoutDuplicates (ht : t.IsTree) :
    t.withoutDuplicates.baseEntry? = t.baseEntry? := by
  funext r
  unfold baseEntry?
  rw [property?_congr ((prunes_withoutDuplicates ht).kind_eq _)]

/-- **The entries that are lowered**, read off the tree as it was. -/
theorem settled_eq (ht : t.IsTree) :
    t.settled.2 = ((t.withoutDuplicates.references RenderNode.isBind).filterMap t.baseEntry?).map
      t.complete := by
  have h1 := prunes_withoutDuplicates ht
  have hnote : t.withoutDuplicates.noteUse = t.noteUse := by
    funext e r
    exact noteUse_congr (h1.kind_eq _) e
  rw [snd_settled ht, baseEntry?_withoutDuplicates ht, hnote]
  refine List.map_congr_left fun e he => ?_
  obtain ⟨r, hr, he⟩ := List.mem_filterMap.1 he
  obtain ⟨q, -, -, rfl⟩ := baseEntry?_eq_some.1 he
  have hp := ((mem_bindReferences ht).1 hr).1
  rw [foldl_noteUse_eq, lastNoted_eq_lastParameter ht hp, lastNoted_eq_lastParameter ht hp]
  simp only [Option.or_none]
  rfl

/-! ### The remaining bind attributes -/

/-- The use of a bind attribute that is no parameter. -/
def baseUse? (t : RenderTree) (x : NodeId) : Option Property :=
  (t.node x).property?.filter fun q => !q.resolution.isParameter

theorem baseUse?_eq {q : Property} (h : (t.node x).property? = some q) :
    t.baseUse? x = if q.resolution.isParameter then none else some q := by
  unfold baseUse?
  rw [h]
  cases hq : q.resolution.isParameter <;> simp [hq]

theorem parameterUse?_eq {q : Property} (h : (t.node x).property? = some q) :
    t.parameterUse? x = q.resolution.parameter.map fun a => (q, a) := by
  unfold parameterUse?
  rw [h]
  rfl

theorem property?_remaining (hb : b ∈ t.remaining p) :
    b.node ∈ t.children p ∧ (t.node b.node).isBind = true ∧
      ∃ q, (t.node b.node).property? = some q ∧ b.name = q.attributeName := by
  obtain ⟨hc, q, hq, hbind, hn, -⟩ := mem_bindCandidates.1 ((remaining_sublist _).subset hb)
  refine ⟨hc, ?_, q, hq, hn⟩
  unfold RenderNode.isBind
  rw [hq]
  exact hbind

/-- A remaining bind attribute is a parameter or has an entry. -/
theorem baseEntry?_remaining (hb : b ∈ t.remaining p) :
    (t.baseEntry? ⟨p, b.node⟩).map t.complete =
      if (t.parameterUse? b.node).isSome then none else some (t.entryOf p b) := by
  obtain ⟨-, -, q, hq, hn⟩ := property?_remaining hb
  unfold baseEntry? parameterUse?
  rw [hq]
  cases hr : q.resolution.parameter with
  | none => simp [Resolution.isParameter, hr, complete, entryOf, hn]
  | some a => simp [Resolution.isParameter, hr]

theorem lastParameter_mem {base name : String} {x : NodeId}
    (h : x ∈ t.lastParameter p base name) :
    x ∈ t.children p ∧ (t.node x).isBind = true := by
  have hm := (List.mem_filter.1 (List.mem_of_getLast? h)).1
  obtain ⟨b, hb, rfl⟩ := List.mem_map.1 hm
  exact ⟨(property?_remaining hb).1, (property?_remaining hb).2.1⟩

/-- The entry of a remaining bind attribute reads attached bind attributes. -/
theorem reads_entryOf (ht : t.IsTree) (hp : t.Reaches root p) (hb : b ∈ t.remaining p) :
    t.Reads (t.entryOf p b) := by
  obtain ⟨hc, hbind, -⟩ := property?_remaining hb
  have hlast : ∀ name, ∀ id ∈ t.lastParameter p b.name name,
      t.Reaches root id ∧ (t.node id).isBind = true := fun name id hid =>
    ⟨hp.tail (lastParameter_mem hid).1, (lastParameter_mem hid).2⟩
  exact ⟨ht.lt_size_of_attached hp, ⟨hp.tail hc, hbind⟩, hlast "event", hlast "format"⟩

/-- Every entry is that of a remaining bind attribute. -/
theorem exists_entryOf (ht : t.IsTree) (he : e ∈ t.settled.2) :
    ∃ p b, t.Reaches root p ∧ b ∈ t.remaining p ∧ t.parameterUse? b.node = none ∧
      e = t.entryOf p b := by
  rw [settled_eq ht] at he
  obtain ⟨e₀, he₀, rfl⟩ := List.mem_map.1 he
  obtain ⟨r, hr, he₀⟩ := List.mem_filterMap.1 he₀
  obtain ⟨hp, hc, hb⟩ := (mem_bindReferences ht).1 hr
  have hp' := attached_of_withoutDuplicates ht hp
  obtain ⟨b, hb, hnode, -⟩ := exists_remaining ht hp' hc hb
  have hmap := baseEntry?_remaining hb
  rw [hnode, he₀, Option.map_some] at hmap
  refine ⟨r.parent, b, hp', hb, ?_⟩
  split at hmap
  · cases hmap
  · rename_i hnone
    exact ⟨hnode ▸ Option.not_isSome_iff_eq_none.1 hnone, Option.some.inj hmap⟩

theorem mem_bindReferences_of_remaining (ht : t.IsTree)
    (hp : t.withoutDuplicates.Reaches root p) (hb : b ∈ t.remaining p) :
    (⟨p, b.node⟩ : Reference) ∈ t.withoutDuplicates.references RenderNode.isBind := by
  have hm : b.node ∈ (t.withoutDuplicates.children p).filter fun x => (t.node x).isBind := by
    rw [filter_isBind_withoutDuplicates ht (attached_of_withoutDuplicates ht hp)]
    exact List.mem_map_of_mem hb
  exact (mem_bindReferences ht).2 ⟨hp, (List.mem_filter.1 hm).1, (List.mem_filter.1 hm).2⟩

/-- A remaining bind attribute that is no parameter has its entry. -/
theorem entryOf_mem (ht : t.IsTree) (hp : t.withoutDuplicates.Reaches root p)
    (hb : b ∈ t.remaining p) (hnone : t.parameterUse? b.node = none) :
    t.entryOf p b ∈ t.settled.2 := by
  rw [settled_eq ht, List.map_filterMap]
  refine List.mem_filterMap.2 ⟨_, mem_bindReferences_of_remaining ht hp hb, ?_⟩
  rw [baseEntry?_remaining hb, hnone]
  rfl

/-- Where no bind attribute stands below another one, an element with remaining ones stays
attached. -/
theorem attached_of_remaining (ht : t.IsTree) (hn : t.NoNestedBinds) (hev : Evolves t t')
    (hp : t.Reaches root p) (hb : b ∈ t.remaining p) : t'.Reaches root p := by
  obtain ⟨hc, hbind, -⟩ := property?_remaining hb
  exact hev.attached_of_not_inBind ht hp (hn.parent_not_inBind ht hc hbind)

/-- **Where no bind attribute stands below another one, all remaining ones are referred to.** -/
theorem references_perm (ht : t.IsTree) (hn : t.NoNestedBinds) :
    (t.withoutDuplicates.references RenderNode.isBind).Perm
      (t.preorder.flatMap t.remainingReferences) := by
  have h1 := prunes_withoutDuplicates ht
  have hleft : (t.withoutDuplicates.references RenderNode.isBind).Nodup :=
    List.Nodup.of_map _ (h1.evolves.isTree.nodup_references _)
  have hright : (t.preorder.flatMap t.remainingReferences).Nodup := by
    refine List.nodup_flatMap.2 ⟨fun p _ => ?_, ht.nodup_preorder.imp fun hne r hr hr' => ?_⟩
    · refine List.Nodup.of_map (·.node) ?_
      unfold remainingReferences
      rw [List.map_map]
      exact ((remaining_sublist _).map _).nodup (ht.nodup_bindCandidates p)
    · obtain ⟨b, -, rfl⟩ := List.mem_map.1 hr
      obtain ⟨b', -, he⟩ := List.mem_map.1 hr'
      exact hne (congrArg Reference.parent he).symm
  -- the orders differ: by document here, by element there
  refine (List.perm_ext_iff_of_nodup hleft hright).2 fun r => ?_
  rw [mem_bindReferences ht, List.mem_flatMap]
  constructor
  · rintro ⟨hp, hc, hb⟩
    have hp' := attached_of_withoutDuplicates ht hp
    obtain ⟨b, hb, hnode, -⟩ := exists_remaining ht hp' hc hb
    exact ⟨r.parent, ht.mem_preorder.2 hp', List.mem_map.2 ⟨b, hb, by rw [hnode]⟩⟩
  · rintro ⟨p, hp, hr⟩
    obtain ⟨b, hb, rfl⟩ := List.mem_map.1 hr
    have hp' := attached_of_remaining ht hn h1.evolves (ht.mem_preorder.1 hp) hb
    exact (mem_bindReferences ht).1 (mem_bindReferences_of_remaining ht hp' hb)

end TagHelpers.RenderTree
