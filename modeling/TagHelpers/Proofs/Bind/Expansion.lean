import TagHelpers.Proofs.Bind.Frame
import TagHelpers.Proofs.Bind.Lowering
import TagHelpers.Proofs.Bind.Name

/-!
# What a bind attribute expands to

A bind attribute gives way to all the attributes that it stands for, or stays as it is.

* `StandsFor`: these attributes, with where their names come from and how their code is written.
* `Unlowerable`: why there may be none.
* `Reported`, `Expands`: the tree after either outcome, in full.
* `lowerEntry_allOrNothing`: there is no other outcome.
-/

namespace TagHelpers

/-! ### Code -/

/-- A format as a further argument. -/
def formatArgument : Option String → String
  | none => ""
  | some format => ", " ++ format

/-- The code that sets a bound expression. -/
def setterCode (expression : String) : String :=
  "__value => " ++ expression ++ " = __value"

/-- The code of a change handler that calls a function on a setter. -/
def handlerCode (head expression : String) (format : Option String) : String :=
  head ++ setterCode expression ++ ", " ++ expression ++ formatArgument format ++ ")"

/-- The code of the attribute that receives the value. -/
def valueCode (expression : String) (format : Option String) : String :=
  "BindMethods.GetValue(" ++ expression ++ formatArgument format ++ ")"

theorem valueExpression_eq (expression : String) (format : Option String) :
    valueExpression expression format = valueCode expression format := by
  unfold valueCode
  refine String.toList_injective ?_
  cases format <;> simp [valueExpression, RuntimeCall.apply, RuntimeCall.name,
    RuntimeCall.takesReceiver, formatArgument, String.append_assoc]

theorem changeExpression_createBinder (expression : String) (format : Option String) :
    changeExpression (some .createBinder) expression format =
      handlerCode "EventCallback.Factory.CreateBinder(this, " expression format := by
  refine String.toList_injective ?_
  cases format <;> simp [changeExpression, RuntimeCall.apply, RuntimeCall.name,
    RuntimeCall.takesReceiver, handlerCode, setterCode, formatArgument, String.append_assoc]

theorem changeExpression_setValueHandler (expression : String) (format : Option String) :
    changeExpression (some .setValueHandler) expression format =
      handlerCode "BindMethods.SetValueHandler(" expression format := by
  cases format <;> simp [changeExpression, RuntimeCall.apply, RuntimeCall.name,
    RuntimeCall.takesReceiver, handlerCode, setterCode, formatArgument, String.append_assoc]

/-- The code of the change handler of a component, which is made an event callback if the component
declares it as one. -/
def TagHelper.handlerCode (component : TagHelper) (event expression : String)
    (format : Option String) : String :=
  if (component.descriptor.boundAttribute? event).any (·.isEventCallback) then
    TagHelpers.handlerCode "EventCallback.Factory.CreateBinder(this, " expression format
  else setterCode expression

theorem TagHelper.changeExpression_eq (component : TagHelper) (event expression : String)
    (format : Option String) :
    changeExpression (if (component.descriptor.boundAttribute? event).any (·.isEventCallback) then
      some .createBinder else none) expression format =
      component.handlerCode event expression format := by
  unfold TagHelper.handlerCode
  split
  · exact changeExpression_createBinder expression format
  · rfl

/-- Whether the event handlers of a catalog declare an event as a plain delegate. -/
def Catalog.declaresDelegate (c : Catalog) (event : String) : Bool :=
  ((c.descriptors.filter (·.kind == .eventHandler)).findSome? (·.boundAttribute? event)).any
    fun a => a.isDelegate && !a.isEventCallback

/-- The code of the change handler of a markup element. -/
def Catalog.handlerCode (c : Catalog) (event expression : String) (format : Option String) :
    String :=
  TagHelpers.handlerCode (if c.declaresDelegate event then "BindMethods.SetValueHandler("
    else "EventCallback.Factory.CreateBinder(this, ") expression format

theorem Catalog.changeExpression_changeCall (c : Catalog) (event expression : String)
    (format : Option String) :
    changeExpression (some (c.changeCall event)) expression format =
      c.handlerCode event expression format := by
  unfold Catalog.changeCall Catalog.handlerCode Catalog.declaresDelegate
  simp only
  cases (c.descriptors.filter (·.kind == .eventHandler)).findSome? (·.boundAttribute? event) with
  | none => exact changeExpression_createBinder expression format
  | some a =>
    rw [Option.any_some]
    simp only
    split
    · exact changeExpression_setValueHandler expression format
    · exact changeExpression_createBinder expression format

namespace RenderTree

variable {t t' t₁ : RenderTree} {c : Catalog} {e : BindEntry} {p : Property} {n : BindName}
  {problem : Problem} {value change : String} {as : List LoweredAttribute} {ids : List NodeId}

/-! ### Names -/

/-- The event that the parameter of an entry spells, without quotes and white space around it. -/
def spelledEvent? (t : RenderTree) (e : BindEntry) : Option String :=
  e.event.map fun id => Text.trim (Text.trimQuotes (t.attributeCode id))

/-- The attribute that receives the value: the metadata name it, or else the name does. -/
inductive NamesValue (p : Property) : String → Prop
  | metadata {value : String} (h : p.helper.descriptor.bindValue? = some value) :
    NamesValue p value
  | name {n : BindName} {value : String} (h : p.helper.descriptor.bindValue? = none)
    (hn : BindName.Spelt p.attributeName n) (hv : n.value = some value) : NamesValue p value

/-- The attribute that receives the change handler: a parameter names it, or else the metadata do,
or else, on a component, it is called after the attribute that receives the value. -/
inductive NamesChange (t : RenderTree) (e : BindEntry) (p : Property) (value : String) :
    String → Prop
  | event {change : String} (h : t.spelledEvent? e = some change) (hne : change ≠ "") :
    NamesChange t e p value change
  | metadata {change : String} (hevent : ∀ s ∈ t.spelledEvent? e, s = "")
    (h : p.helper.descriptor.bindChange? = some change) : NamesChange t e p value change
  | component {tag : String} {component : TagHelper} (hevent : ∀ s ∈ t.spelledEvent? e, s = "")
    (h : p.helper.descriptor.bindChange? = none)
    (hparent : t.kind e.parent = .component tag component) :
    NamesChange t e p value (value ++ "Changed")

theorem event_bindSource : (t.bindSource e).event = (t.spelledEvent? e).filter (· ≠ "") := rfl

theorem namesValue_of_or (hn : BindName.Spelt p.attributeName n)
    (h : (p.helper.descriptor.bindValue? <|> n.value) = some value) : NamesValue p value := by
  cases hv : p.helper.descriptor.bindValue? with
  | some v =>
    rw [hv] at h
    exact .metadata (hv.trans h)
  | none =>
    rw [hv] at h
    exact .name hv hn h

/-- The change attribute, where there is one without regard to the parent. -/
theorem event_or_bindChange?_eq (t : RenderTree) (e : BindEntry) (p : Property) (value : String) :
    (∃ change, ((t.bindSource e).event <|> p.helper.descriptor.bindChange?) = some change ∧
      NamesChange t e p value change) ∨
    (((t.bindSource e).event <|> p.helper.descriptor.bindChange?) = none ∧
      (∀ s ∈ t.spelledEvent? e, s = "") ∧ p.helper.descriptor.bindChange? = none) := by
  rw [event_bindSource]
  by_cases hevent : ∀ s ∈ t.spelledEvent? e, s = ""
  · have hnone : (t.spelledEvent? e).filter (· ≠ "") = none := by
      rw [Option.filter_eq_none_iff]
      simpa using hevent
    rw [hnone]
    cases hc : p.helper.descriptor.bindChange? with
    | some change => exact .inl ⟨change, rfl, .metadata hevent hc⟩
    | none => exact .inr ⟨rfl, hevent, rfl⟩
  · push Not at hevent
    obtain ⟨s, hs, hne⟩ := hevent
    have hsome : (t.spelledEvent? e).filter (· ≠ "") = some s := by
      rw [Option.mem_def.1 hs]
      simpa using hne
    rw [hsome]
    exact .inl ⟨s, rfl, .event hs hne⟩

/-! ### What an attribute stands for -/

/-- Why a bind attribute cannot be lowered: its name is none that a bind attribute may have, there
is no expression to bind, nothing names the attribute that receives the value, or, other than on a
component, nothing names the one that receives the change handler. -/
inductive Unlowerable (t : RenderTree) (e : BindEntry) (p : Property) : Prop
  | name (h : ∀ n, ¬ BindName.Spelt p.attributeName n)
  | blank (h : Text.blank (t.attributeCode e.node) = true)
  | value (h : p.helper.descriptor.bindValue? = none) (hname : p.attributeName = "bind")
  | change (hparent : ∀ tag component, t.kind e.parent ≠ .component tag component)
    (hevent : ∀ s ∈ t.spelledEvent? e, s = "") (h : p.helper.descriptor.bindChange? = none)

/-- The attributes that a bind attribute stands for: that of the value, that of the change handler
and, on a component that declares it, that of the bound expression. -/
inductive StandsFor (t : RenderTree) (c : Catalog) (e : BindEntry) (p : Property) :
    List LoweredAttribute → Prop
  | element {value change : String}
    (hparent : ∀ tag component, t.kind e.parent ≠ .component tag component)
    (hv : NamesValue p value) (hc : NamesChange t e p value change) :
    StandsFor t c e p
      [.ofElement value (valueCode (t.attributeCode e.node) (e.format.map t.attributeCode)),
        .ofElement change
          (c.handlerCode change (t.attributeCode e.node) (e.format.map t.attributeCode))]
  | component {tag value change : String} {component : TagHelper}
    (hparent : t.kind e.parent = .component tag component)
    (hv : NamesValue p value) (hc : NamesChange t e p value change) :
    StandsFor t c e p
      (.ofComponent component value p.quoting (component.descriptor.boundAttribute? value)
          (valueCode (t.attributeCode e.node) (e.format.map t.attributeCode)) ::
        .ofComponent component change p.quoting (component.descriptor.boundAttribute? change)
          (component.handlerCode change (t.attributeCode e.node)
            (e.format.map t.attributeCode)) ::
        (component.descriptor.boundAttribute? (p.helper.descriptor.bindExpression?.getD
            (value ++ "Expression"))).toList.map fun a =>
          .ofComponent component a.name p.quoting (some a) ("() => " ++ t.attributeCode e.node))

theorem NamesChange.of_component {tag : String} {component : TagHelper}
    (hparent : t.kind e.parent = .component tag component) :
    NamesChange t e p value
      (((t.bindSource e).event <|> p.helper.descriptor.bindChange?).getD (value ++ "Changed")) := by
  rcases event_or_bindChange?_eq t e p value with ⟨change, h, hchange⟩ | ⟨h, hevent, hnone⟩
  · rw [h]
    exact hchange
  · rw [h]
    exact .component hevent hnone hparent

theorem standsFor_onComponent {tag : String} {component : TagHelper}
    (hparent : t.kind e.parent = .component tag component) (hv : NamesValue p value) :
    StandsFor t c e p ((t.bindSource e).onComponent p component value) := by
  have h := StandsFor.component (c := c) hparent hv (NamesChange.of_component hparent)
  rw [← valueExpression_eq, ← TagHelper.changeExpression_eq] at h
  exact h

theorem standsFor_onElement
    (hparent : ∀ tag component, t.kind e.parent ≠ .component tag component)
    (hv : NamesValue p value) (h : (t.bindSource e).onElement p c value = some as) :
    StandsFor t c e p as := by
  obtain ⟨change, hchange, rfl⟩ := Option.map_eq_some_iff.1 h
  rw [valueExpression_eq, Catalog.changeExpression_changeCall]
  refine .element hparent hv ?_
  rcases event_or_bindChange?_eq t e p value with ⟨change', h', hnames⟩ | ⟨h', -⟩
  · obtain rfl := Option.some.inj (hchange.symm.trans h')
    exact hnames
  · rw [hchange] at h'
    cases h'

theorem standsFor_of_lowered (h : t.lowered c e p = .ok as) : StandsFor t c e p as := by
  obtain ⟨n, hn, -, ha⟩ := lowered_eq_ok_iff.1 h
  obtain ⟨value, hvalue, ha⟩ := Option.bind_eq_some_iff.1 ha
  unfold BindSource.attributesOn at ha
  have hv := namesValue_of_or (BindName.parse?_eq_some_iff.1 hn) hvalue
  split at ha
  · rename_i tag component hk
    obtain rfl := Option.some.inj ha
    exact standsFor_onComponent hk hv
  · rename_i hk
    exact standsFor_onElement hk hv ha

/-! ### When an attribute stands for nothing -/

theorem NamesValue.ne_bind (h : NamesValue p value)
    (hnone : p.helper.descriptor.bindValue? = none) : p.attributeName ≠ "bind" := by
  cases h with
  | metadata h =>
    rw [hnone] at h
    cases h
  | name _ hn hv =>
    intro hname
    rw [hn.value_eq_none_iff.2 hname] at hv
    cases hv

theorem NamesChange.ne_none (h : NamesChange t e p value change)
    (hparent : ∀ tag component, t.kind e.parent ≠ .component tag component)
    (hevent : ∀ s ∈ t.spelledEvent? e, s = "") : p.helper.descriptor.bindChange? ≠ none := by
  intro hnone
  cases h with
  | event h hne => exact hne (hevent change h)
  | metadata _ h =>
    rw [hnone] at h
    cases h
  | component _ _ hk => exact hparent _ _ hk

theorem not_unlowerable_of_lowered (h : t.lowered c e p = .ok as) : ¬ t.Unlowerable e p := by
  obtain ⟨n, hn, hcode, -⟩ := lowered_eq_ok_iff.1 h
  intro hu
  cases hu with
  | name hname => exact hname n (BindName.parse?_eq_some_iff.1 hn)
  | blank hblank =>
    rw [hblank] at hcode
    cases hcode
  | value hnone hname =>
    cases standsFor_of_lowered h with
    | element _ hv => exact hv.ne_bind hnone hname
    | component _ hv => exact hv.ne_bind hnone hname
  | change hparent hevent hnone =>
    cases standsFor_of_lowered h with
    | element _ _ hc => exact hc.ne_none hparent hevent hnone
    | component hk => exact hparent _ _ hk

theorem unlowerable_of_lowered (h : t.lowered c e p = .error problem) : t.Unlowerable e p := by
  cases hname : BindName.parse? p.attributeName with
  | none =>
    refine .name fun n hn => ?_
    rw [hn.parse?_eq] at hname
    cases hname
  | some n =>
    have hn := BindName.parse?_eq_some_iff.1 hname
    cases hcode : Text.blank (t.attributeCode e.node) with
    | true => exact .blank hcode
    | false =>
      have hnone : (t.bindSource e).attributes? p n c (t.kind e.parent) = none := by
        rw [Option.eq_none_iff_forall_ne_some]
        intro as ha
        rw [lowered_eq_ok_iff.2 ⟨n, hname, hcode, ha⟩] at h
        cases h
      cases hv : (p.helper.descriptor.bindValue? <|> n.value) with
      | none =>
        obtain ⟨hmetadata, hvalue⟩ : p.helper.descriptor.bindValue? = none ∧ n.value = none := by
          simpa using hv
        exact .value hmetadata (hn.value_eq_none_iff.1 hvalue)
      | some value =>
        rw [BindSource.attributes?, hv, Option.bind_some] at hnone
        unfold BindSource.attributesOn at hnone
        -- only markup elements need a change attribute
        split at hnone
        · cases hnone
        · rename_i hk
          have hchange := Option.map_eq_none_iff.1 hnone
          rcases event_or_bindChange?_eq t e p value with ⟨change, h', -⟩ | ⟨-, hevent, hnone'⟩
          · rw [h'] at hchange
            cases hchange
          · exact .change hk hevent hnone'

theorem lowered_eq_emptyBindExpression_iff :
    t.lowered c e p = .error (.emptyBindExpression p.attributeName) ↔
      (∃ n, BindName.Spelt p.attributeName n) ∧ Text.blank (t.attributeCode e.node) = true := by
  have hcode : (t.bindSource e).expression = t.attributeCode e.node := rfl
  simp only [← BindName.parse?_eq_some_iff]
  unfold lowered
  cases BindName.parse? p.attributeName with
  | none => simp
  | some n =>
    simp only [hcode]
    cases Text.blank (t.attributeCode e.node) with
    | true => simp
    | false => cases (t.bindSource e).attributes? p n c (t.kind e.parent) <;> simp

/-! ### The tree afterwards -/

/-- `t'` is `t` with some more diagnostics on one node. -/
structure Reported (t t' : RenderTree) (id : NodeId) (ds : List Diagnostic) : Prop where
  shape : SameShape t t'
  diagnostics_eq : ∀ x, (t'.node x).diagnostics =
    (t.node x).diagnostics ++ if x = id then ds else []

theorem reported_addDiagnostic {id : NodeId} (h : id < t.size) (d : Diagnostic) :
    Reported t (t.addDiagnostic id d) id [d] :=
  ⟨sameShape_addDiagnostic t id d, fun _ => diagnostics_addDiagnostic t d h⟩

theorem Reported.trans {t'' : RenderTree} {id : NodeId} {ds ds' : List Diagnostic}
    (h : Reported t t' id ds) (h' : Reported t' t'' id ds') : Reported t t'' id (ds ++ ds') := by
  refine ⟨h.shape.trans h'.shape, fun x => ?_⟩
  rw [h'.diagnostics_eq, h.diagnostics_eq, List.append_assoc]
  split <;> rfl

theorem reported_noteExtraSegment {id : NodeId} (h : id < t.size) (p : Property)
    (as : List LoweredAttribute) :
    Reported t (t.noteExtraSegment id p) id (outcomeReports (t.node id).spanOrStub p (.ok as)) := by
  unfold noteExtraSegment outcomeReports
  rw [List.append_nil]
  split
  · exact reported_addDiagnostic h _
  · exact ⟨SameShape.refl t, fun x => by simp⟩

/-- **A bind attribute that cannot be lowered stays**, and says why. -/
theorem reported_lowerEntry (hlt : e.node < t.size) (hp : (t.node e.node).property? = some p)
    (hl : t.lowered c e p = .error problem) :
    Reported t (lowerEntry c t e) e.node
      (outcomeReports (t.node e.node).spanOrStub p (.error problem)) := by
  have hs := sameShape_noteExtraSegment t e.node p
  rw [lowerEntry_of_error hp ((hs.lowered_eq c e p).trans hl)]
  have hnote := reported_noteExtraSegment hlt p []
  unfold outcomeReports at hnote ⊢
  rw [List.append_nil] at hnote
  exact hnote.trans (reported_addDiagnostic (hs.size_eq.symm ▸ hlt) _)

/-- `t'` is `t` with the nodes `ids` of some attributes in the place of a bind attribute, on which
`reports` have been added before. -/
structure Expands (t t' : RenderTree) (e : BindEntry) (reports : List Diagnostic)
    (as : List LoweredAttribute) (ids : List NodeId) : Prop where
  size_eq : t'.size = t.size + 3 * as.length
  ids_eq : ids = (List.range as.length).map (t.size + 3 * ·)
  stands : List.Forall₂ (t'.Stands (t.node e.node).spanOrStub) as ids
  kind_eq : ∀ x, x < t.size → t'.kind x = t.kind x
  span_eq : ∀ x, x < t.size → (t'.node x).span = (t.node x).span
  children_eq : ∀ x, x < t.size → t'.children x = splice e.node ids (t.children x)
  /-- The first of them takes the diagnostics at and below the bind attribute. -/
  diagnostics_eq : t.Reaches root e.node → ∀ x, (t'.node x).diagnostics =
    if x = t.size then (t.subtree e.node).flatMap fun y =>
      (t.node y).diagnostics ++ if y = e.node then reports else []
    else if x ∈ t.subtree e.node then [] else (t.node x).diagnostics

theorem Allocated.expands (h : Allocated t t₁ (t.node e.node).spanOrStub as ids) (ht : t.IsTree)
    (he : e.node ∈ t.children e.parent) (hne : as ≠ [])
    (hplain : ∀ a ∈ as, ∀ q, a.valueKind ≠ .property q) :
    Expands t (t₁.substitute e ids) e [] as ids := by
  have hs := splices_substitute h ht he hne
  refine ⟨?_, h.ids_eq, ?_, fun x hx => ?_, fun x hx => ?_, fun x hx => ?_, fun hr x => ?_⟩
  · rw [hs.size_eq, h.size_eq]
  · exact h.stands hs (ht.lt_of_child he) hplain
  · rw [hs.kind_eq]
    unfold kind
    rw [h.old x hx]
  · rw [hs.span_eq, h.old x hx]
  · rw [hs.children_eq, h.children_old hx]
  · have hsub := h.subtree_eq ht hr
    have hold : ∀ y ∈ t.subtree e.node, y < t.size := fun y hy =>
      ht.lt_size_of_attached (hr.trans (mem_below_reaches hy))
    rw [diagnostics_substitute h ht he hne, hsub]
    by_cases hx : x = t.size
    · -- a new node has no diagnostics of its own
      subst hx
      rw [if_pos rfl, if_pos rfl, if_neg fun hm => lt_irrefl _ (hold _ hm),
        h.diagnostics_new le_rfl, List.nil_append, takeDiagnostics_snd (hsub ▸ ht.nodup_subtree hr),
        hsub]
      refine List.flatMap_congr fun y hy => ?_
      rw [h.old y (hold y hy)]
      simp
    · rw [if_neg hx, if_neg hx, List.append_nil]
      by_cases hlt : x < t.size
      · rw [h.old x hlt]
      · rw [h.diagnostics_new (not_lt.1 hlt), node_of_size_le (not_lt.1 hlt)]
        rfl

theorem Reported.expands {ds ds' : List Diagnostic} (h : Reported t t₁ e.node ds) (ht : t.IsTree)
    (h' : Expands t₁ t' e ds' as ids) : Expands t t' e (ds ++ ds') as ids := by
  have hs := h.shape
  have hsize := hs.size_eq
  refine ⟨?_, ?_, ?_, fun x hx => ?_, fun x hx => ?_, fun x hx => ?_, fun hr x => ?_⟩
  · rw [h'.size_eq, hsize]
  · rw [h'.ids_eq, hsize]
  · rw [← spanOrStub_congr (hs.span_eq e.node)]
    exact h'.stands
  · rw [h'.kind_eq x (hsize ▸ hx), hs.kind_eq]
  · rw [h'.span_eq x (hsize ▸ hx), hs.span_eq]
  · rw [h'.children_eq x (hsize ▸ hx), hs.children_eq]
  · rw [h'.diagnostics_eq (hs.reaches_iff.2 hr), hs.subtree_eq, hsize]
    split
    · refine List.flatMap_congr fun y _ => ?_
      rw [h.diagnostics_eq, List.append_assoc]
      split <;> rfl
    · split
      · rfl
      · -- what has been reported is on the attribute itself
        rename_i hmem
        have hself : e.node ∈ t.subtree e.node := (ht.mem_subtree hr).2 (Reaches.refl t e.node)
        have hne : x ≠ e.node := fun h => hmem (h ▸ hself)
        rw [h.diagnostics_eq, if_neg hne, List.append_nil]

/-- **A bind attribute that can be lowered gives way to the attributes that it stands for.** -/
theorem expands_lowerEntry (ht : t.IsTree) (he : e.node ∈ t.children e.parent)
    (hp : (t.node e.node).property? = some p) (hl : t.lowered c e p = .ok as) :
    ∃ ids, Expands t (lowerEntry c t e) e (outcomeReports (t.node e.node).spanOrStub p (.ok as))
      as ids := by
  have hnote := reported_noteExtraSegment (ht.lt_of_child he) p as
  have hs := hnote.shape
  have hln := (hs.lowered_eq c e p).trans hl
  have hen : e.node ∈ (t.noteExtraSegment e.node p).children e.parent := by
    rw [hs.children_eq]
    exact he
  have ha := allocated_allocAttributes ((t.noteExtraSegment e.node p).node e.node).spanOrStub as
    (t.noteExtraSegment e.node p)
  have hex := ha.expands (hs.isTree ht) hen (ne_nil_of_lowered hln) fun a ha q =>
    (not_property_of_lowered hln a ha q).2
  have hboth := hnote.expands ht hex
  rw [List.append_nil, spanOrStub_congr (hs.span_eq e.node)] at hboth
  rw [lowerEntry_of_ok hp hln]
  exact ⟨_, hboth⟩

theorem lowered_eq_error_iff (t : RenderTree) (c : Catalog) (e : BindEntry) (p : Property) :
    (∃ problem, t.lowered c e p = .error problem) ↔ t.Unlowerable e p := by
  cases hl : t.lowered c e p with
  | error problem => exact ⟨fun _ => unlowerable_of_lowered hl, fun _ => ⟨problem, rfl⟩⟩
  | ok as => exact ⟨nofun, fun hu => absurd hu (not_unlowerable_of_lowered hl)⟩

/-- Making the nodes for a bind attribute fails for the reasons of `Unlowerable`. -/
theorem run_replacements_eq_error_iff (c : Catalog) (hp : (t.node e.node).property? = some p) :
    (∃ d t', (replacements c e).run.run t = (.error d, t')) ↔ t.Unlowerable e p := by
  have hs := sameShape_noteExtraSegment t e.node p
  rw [run_replacements c hp, ← lowered_eq_error_iff t c e p, hs.lowered_eq c e p]
  cases t.lowered c e p with
  | error problem => exact ⟨fun _ => ⟨problem, rfl⟩, fun _ => ⟨_, _, rfl⟩⟩
  | ok as => exact ⟨nofun, nofun⟩

/-- If it fails, it leaves no more than a note on the name. -/
theorem reported_of_run_replacements (hlt : e.node < t.size)
    (hp : (t.node e.node).property? = some p) {d : Diagnostic}
    (h : (replacements c e).run.run t = (.error d, t')) :
    Reported t t' e.node (outcomeReports (t.node e.node).spanOrStub p (.ok [])) := by
  have ht' : t' = t.noteExtraSegment e.node p := by
    rw [run_replacements c hp] at h
    cases hl : (t.noteExtraSegment e.node p).lowered c e p with
    | error problem =>
      rw [hl] at h
      exact (congrArg Prod.snd h).symm
    | ok as =>
      rw [hl] at h
      cases h
  exact ht' ▸ reported_noteExtraSegment hlt p []

/-- **Lowering a bind attribute is all or nothing.** It fails exactly for the reasons of
`Unlowerable`. Until then no node has been made, and no more been done than to note a third segment
of the name. So the tree keeps its shape, and the attribute alone reports more: that its name has a
third segment, and why it stays. Otherwise the attributes that it stands for take its place. -/
theorem lowerEntry_allOrNothing (c : Catalog) (ht : t.IsTree) (he : e.node ∈ t.children e.parent)
    (hk : t.kind e.node = .property p) :
    ((∃ d t', (replacements c e).run.run t = (.error d, t')) ↔ t.Unlowerable e p) ∧
    (∀ d t', (replacements c e).run.run t = (.error d, t') →
      Reported t t' e.node (outcomeReports (t.node e.node).spanOrStub p (.ok []))) ∧
    ((∃ problem, t.lowered c e p = .error problem) ↔ t.Unlowerable e p) ∧
    (t.lowered c e p = .error (.emptyBindExpression p.attributeName) ↔
      (∃ n, BindName.Spelt p.attributeName n) ∧ Text.blank (t.attributeCode e.node) = true) ∧
    (∀ problem, t.lowered c e p = .error problem →
      (problem = .invalidBindName p.attributeName ∨
        problem = .emptyBindExpression p.attributeName) ∧
      Reported t (lowerEntry c t e) e.node
        (outcomeReports (t.node e.node).spanOrStub p (.error problem))) ∧
    ∀ as, t.lowered c e p = .ok as →
      StandsFor t c e p as ∧
      ∃ ids, Expands t (lowerEntry c t e) e
        (outcomeReports (t.node e.node).spanOrStub p (.ok as)) as ids := by
  have hp := property?_of_kind hk
  have hlt := ht.lt_of_child he
  refine ⟨run_replacements_eq_error_iff c hp, fun d t' => reported_of_run_replacements hlt hp,
    lowered_eq_error_iff t c e p, lowered_eq_emptyBindExpression_iff, fun problem hl => ?_,
    fun as hl => ?_⟩
  · exact ⟨lowered_error hl, reported_lowerEntry hlt hp hl⟩
  · exact ⟨standsFor_of_lowered hl, expands_lowerEntry ht he hp hl⟩

namespace Sample

/-- A component that declares an attribute and its bound expression. -/
def picker : TagHelper where
  place := 0
  descriptor :=
    { kind := .component, name := "Picker", assemblyName := "Library", caseSensitive := true
      boundAttributes := [{ name := "Value", typeName := "string" },
                          { name := "ValueExpression", typeName := "object" }] }

/-- A tag helper that binds an attribute with a third segment in its name. -/
def pickerBinder : TagHelper where
  place := 1
  descriptor :=
    { kind := .bind, name := "Bind", assemblyName := "Library", caseSensitive := true
      boundAttributes := [{ name := "bind-Value-get", typeName := "object" }] }

/-- The use of this attribute. -/
def picked : Property where
  attributeName := "bind-Value-get"
  quoting := .double
  helper := pickerBinder
  resolution := { boundAttribute := pickerBinder.descriptor.boundAttributes.head! }
  resolves := by decide

/-- A component with a use of this attribute below it, and a format apart. -/
def picking : RenderTree where
  nodes := #[
    { kind := .document, children := [1] },
    { kind := .component "Picker" picker, children := [2] },
    { kind := .property picked, children := [3] },
    { kind := .codeExpression, children := [4] },
    { kind := .token .code "name" },
    { kind := .property picked, children := [6] },
    { kind := .token .html "dd.MM." }]

end Sample

theorem lowerEntry_allOrNothing_picking :
    Sample.picking.IsTree ∧ Sample.picking.kind 2 = .property Sample.picked ∧
      ∃ as ids, as.map (·.code) =
          ["BindMethods.GetValue(name, \"dd.MM.\")", "__value => name = __value", "() => name"] ∧
        StandsFor Sample.picking ⟨[]⟩ ⟨1, 2, "bind-Value-get", none, some 5⟩ Sample.picked as ∧
        Expands Sample.picking
          (lowerEntry ⟨[]⟩ Sample.picking ⟨1, 2, "bind-Value-get", none, some 5⟩)
          ⟨1, 2, "bind-Value-get", none, some 5⟩
          [(Problem.unsupportedBindFormat "bind-Value-get").report .stub] as ids := by
  have hl : ∃ as, Sample.picking.lowered ⟨[]⟩ ⟨1, 2, "bind-Value-get", none, some 5⟩
      Sample.picked = .ok as ∧ as.map (·.code) =
        ["BindMethods.GetValue(name, \"dd.MM.\")", "__value => name = __value", "() => name"] :=
    ⟨_, rfl, by decide +kernel⟩
  obtain ⟨as, hl, hcode⟩ := hl
  have ht : Sample.picking.IsTree := by decide
  obtain ⟨hstands, ids, hex⟩ :=
    (lowerEntry_allOrNothing (t := Sample.picking) (e := ⟨1, 2, "bind-Value-get", none, some 5⟩)
      ⟨[]⟩ ht (by decide) rfl).2.2.2.2.2 as hl
  exact ⟨ht, rfl, as, ids, hcode, hstands, hex⟩

end RenderTree

end TagHelpers
