import TagHelpers.Proofs.Bind.Expansion
import TagHelpers.Proofs.Bind.Invariants
import TagHelpers.Proofs.Bind.Placement
import TagHelpers.Proofs.Text

/-!
# The event that a parameter names

The parameter `event` of a bind attribute gives the name of the change attribute. Its text is first
written as a string literal, whose quotes and white space are then trimmed. What has been escaped in
between stays so: `changeName_lowerEntry` says which names come out right.
-/

namespace TagHelpers

/-- The name of an attribute that a bind attribute may stand for. -/
def RenderKind.attributeName? : RenderKind → Option String
  | .componentAttribute a => some a.attributeName
  | .htmlAttribute a => some a.attributeName
  | _ => none

/-- The name that the text of the parameter `event` is read as: the escaped text, without the quotes
at its end and without white space around it. -/
def eventName (s : String) : String :=
  Text.trim (String.ofList (Text.stripEnd (· == '"') (s.toList.flatMap Text.escape)))

theorem eventName_eq {s : String} (h : s ≠ "") :
    Text.trim (Text.trimQuotes (Text.literal s)) = eventName s := by
  rw [Text.trimQuotes_literal h, eventName]

namespace RenderTree

variable {t : RenderTree} {c : Catalog} {e : BindEntry} {p : Property} {id : NodeId}
  {s value change : String} {as : List LoweredAttribute}

/-! ### The text of a parameter -/

/-- The value of an attribute is a piece of markup with one text. -/
def HoldsText (t : RenderTree) (id : NodeId) (s : String) : Prop :=
  ∃ markup token : ℕ, t.children id = [markup] ∧ t.kind markup = .htmlContent ∧
    t.children markup = [token] ∧ t.kind token = .token .html s ∧ t.children token = []

theorem HoldsText.attributeCode_eq (h : t.HoldsText id s) :
    t.attributeCode id = Text.literal s := by
  obtain ⟨markup, token, hid, hmarkup, hc, htoken, hleaf⟩ := h
  -- the markup and the text are two nodes, so a walk down the tree comes as far as the text
  have hmem : token ∈ t.children markup := by
    rw [hc]
    exact List.mem_singleton_self token
  have hm : markup < t.size := lt_size_of_mem_children hmem
  have ht : token < t.size := lt_size_of_kind_ne (by rw [htoken]; nofun)
  have hne : markup ≠ token := by
    rintro rfl
    rw [hmarkup] at htoken
    cases htoken
  obtain ⟨n, hn⟩ : ∃ n, t.size = n + 2 := ⟨t.size - 2, by omega⟩
  have hcontent : t.content markup = s := by
    unfold content subtree
    rw [hn]
    simp [below, hc, hleaf, hmarkup, htoken]
  unfold attributeCode
  rw [hn]
  simp [codeBelow, hid, hmarkup, hcontent]

/-! ### The name -/

theorem NamesChange.eq_of_event (h : NamesChange t e p value change)
    (hs : t.spelledEvent? e = some s) (hne : s ≠ "") : change = s := by
  cases h with
  | event h => exact Option.some.inj (h.symm.trans hs)
  | metadata hevent => exact absurd (hevent s hs) hne
  | component hevent => exact absurd (hevent s hs) hne

/-- The second of the attributes that a bind attribute stands for receives the change handler. It
has the name that the event spells. -/
theorem StandsFor.exists_change (h : StandsFor t c e p as) (hs : t.spelledEvent? e = some s)
    (hne : s ≠ "") : ∃ value change rest call, as = value :: change :: rest ∧
      change.code =
        changeExpression call (t.attributeCode e.node) (e.format.map t.attributeCode) ∧
      change.kind.attributeName? = some s := by
  cases h with
  | element hparent hv hc =>
    obtain rfl := hc.eq_of_event hs hne
    exact ⟨_, _, _, _, rfl, (c.changeExpression_changeCall _ _ _).symm, rfl⟩
  | component hparent hv hc =>
    obtain rfl := hc.eq_of_event hs hne
    exact ⟨_, _, _, _, rfl, (TagHelper.changeExpression_eq _ _ _ _).symm, rfl⟩

/-- **The event that a parameter names.** A bind attribute that is lowered with a text as its
parameter `event` is replaced by several attributes. The second of them has the change handler, and
its name is `eventName` of the text. This is the text without the white space around it exactly if
the text has no character that a literal escapes. -/
theorem changeName_lowerEntry (c : Catalog) (he : e.node ∈ t.children e.parent)
    (hk : t.kind e.node = .property p) (hid : e.event = some id) (hs : t.HoldsText id s)
    (hblank : Text.blank s = false) (hl : t.lowered c e p = .ok as) :
    (∃ value change rest call, as = value :: change :: rest ∧
      change.code =
        changeExpression call (t.attributeCode e.node) (e.format.map t.attributeCode) ∧
      t.size + 3 ∈ (lowerEntry c t e).children e.parent ∧
      (lowerEntry c t e).kind (t.size + 3) = change.kind ∧
      change.kind.attributeName? = some (eventName s)) ∧
    (eventName s = Text.trim s ↔ ∀ ch ∈ s.toList, ch ∉ Text.escaped) := by
  have hsome : s ≠ "" := by
    rintro rfl
    cases hblank
  have hspelled : t.spelledEvent? e = some (eventName s) := by
    rw [spelledEvent?, hid, Option.map_some, hs.attributeCode_eq, eventName_eq hsome]
  have hne : eventName s ≠ "" := eventName_eq hsome ▸ Text.trim_trimQuotes_literal_ne hblank
  obtain ⟨value, change, rest, call, rfl, hcode, hname⟩ :=
    (standsFor_of_lowered hl).exists_change hspelled hne
  have hreplaced := replaced_lowerEntry (property?_of_kind hk) hl
  obtain ⟨before, after, -, hchildren⟩ := hreplaced.children_eq he
  refine ⟨⟨value, change, rest, call, rfl, hcode, ?_, hreplaced.kind_eq 1 change rfl, hname⟩,
    eventName_eq hsome ▸ Text.trim_trimQuotes_literal_eq_iff hsome⟩
  have hrow : t.size + 3 ∈ (List.range (value :: change :: rest).length).map (t.size + 3 * ·) :=
    List.mem_map.2 ⟨1, List.mem_range.2 (by simp), rfl⟩
  rw [hchildren]
  exact List.mem_append_left _ (List.mem_append_right _ hrow)

namespace Sample

/-- An element with a use of `bind-value`, and its parameter `event` apart, which holds a text. -/
def spelling (s : String) : RenderTree where
  nodes := #[
    { kind := .document, children := [1] },
    { kind := .element "input", children := [2] },
    { kind := .property Sample.value, children := [3] },
    { kind := .codeExpression, children := [4] },
    { kind := .token .code "name" },
    { kind := .property Sample.event, children := [6] },
    { kind := .htmlContent, children := [7] },
    { kind := .token .html s }]

/-- The use of `bind-value` with its parameter. -/
def spelled : BindEntry where
  parent := 1
  node := 2
  name := "bind-value"
  event := some 5

end Sample

theorem changeName_spelling :
    (Sample.spelling " oninput ").HoldsText 5 " oninput " ∧
      Text.blank " oninput " = false ∧
      ∃ as, (Sample.spelling " oninput ").lowered ⟨[]⟩ Sample.spelled Sample.value = .ok as ∧
        ∃ value change rest call, as = value :: change :: rest ∧
          change.code = changeExpression call "name" none ∧
          11 ∈ (lowerEntry ⟨[]⟩ (Sample.spelling " oninput ") Sample.spelled).children 1 ∧
          (lowerEntry ⟨[]⟩ (Sample.spelling " oninput ") Sample.spelled).kind 11 = change.kind ∧
          change.kind.attributeName? = some "oninput" := by
  have hs : (Sample.spelling " oninput ").HoldsText 5 " oninput " :=
    ⟨6, 7, rfl, rfl, rfl, rfl, rfl⟩
  have hblank : Text.blank " oninput " = false := by decide
  obtain ⟨as, hl⟩ : ∃ as, (Sample.spelling " oninput ").lowered ⟨[]⟩ Sample.spelled Sample.value =
      .ok as := ⟨_, rfl⟩
  obtain ⟨⟨value, change, rest, call, has, hcode, hmem, hkind, hname⟩, -⟩ :=
    changeName_lowerEntry (e := Sample.spelled) ⟨[]⟩ (by decide) rfl rfl hs hblank hl
  have hbound : (Sample.spelling " oninput ").attributeCode Sample.spelled.node = "name" := by
    decide
  have hevent : eventName " oninput " = "oninput" := by decide
  rw [hbound] at hcode
  rw [hevent] at hname
  exact ⟨hs, hblank, as, hl, value, change, rest, call, has, hcode, hmem, hkind, hname⟩

/-- A line feed behind the name of an event is white space, but what it is escaped to is not. -/
theorem changeName_lineFeed :
    (Sample.spelling "oninput\n").HoldsText 5 "oninput\n" ∧
      Text.blank "oninput\n" = false ∧ Text.trim "oninput\n" = "oninput" ∧
      (lowerEntry ⟨[]⟩ (Sample.spelling "oninput\n") Sample.spelled).children 1 = [8, 11] ∧
      ((lowerEntry ⟨[]⟩ (Sample.spelling "oninput\n") Sample.spelled).kind 8).attributeName? =
        some "value" ∧
      ((lowerEntry ⟨[]⟩ (Sample.spelling "oninput\n") Sample.spelled).kind 11).attributeName? =
        some "oninput\\n" :=
  ⟨⟨6, 7, rfl, rfl, rfl, rfl, rfl⟩, by decide, by decide, by decide +kernel, by decide +kernel,
    by decide +kernel⟩

end RenderTree

end TagHelpers
