import TagHelpers.Proofs.Bind.Placement
import TagHelpers.Proofs.Bind.Repetition

/-!
# Bind attributes with a blank value

A bind attribute without an expression is not lowered. Whether there is one is judged by the code of
its value, where markup is a string literal, and a literal is never blank. So a value that is blank
as text may have an expression.

* `blank_attributeCode_iff`: the code of a blank value is blank exactly if it shows no markup.
* `reported_blank_iff`: hence when the attribute is kept.
-/

namespace TagHelpers

/-- Whether a node is written as a string literal. -/
def RenderKind.isMarkup : RenderKind → Bool
  | .htmlContent | .htmlValue _ | .token .html _ => true
  | _ => false

/-- A node adds code as markup, or as code that is not blank. -/
theorem RenderKind.writes_iff (k : RenderKind) :
    k.writes = true ↔ k.isMarkup = true ∨ ∃ s, k = .token .code s ∧ Text.blank s = false := by
  cases k with
  | token kind s => cases kind <;> simp [writes, isMarkup]
  | _ => simp [writes, isMarkup]

namespace RenderTree

variable {t : RenderTree} {a x : NodeId} {c : Catalog} {e : BindEntry} {p : Property}

/-- A value that has markup in its code, however many nodes pass it on. -/
def ShowsMarkup (t : RenderTree) (a : NodeId) : Prop :=
  ∃ b, Relation.ReflTransGen t.Passes a b ∧ ∃ w ∈ t.children b, (t.kind w).isMarkup = true

/-- Every text of a blank value is blank. -/
theorem blank_of_reaches {k : TokenKind} {s : String} (h : Text.blank (t.content a) = true)
    (hx : t.Reaches a x) (hk : t.kind x = .token k s) : Text.blank s = true := by
  have hlt : x < t.size := lt_size_of_kind_ne (by rw [hk]; nofun)
  rw [content, Text.blank_join, List.all_eq_true] at h
  have hs := h _ (List.mem_map_of_mem (mem_subtree_of_reaches hx hlt))
  rwa [hk] at hs

theorem blank_attributeCode_iff (h : Text.blank (t.content a) = true) :
    Text.blank (t.attributeCode a) = true ↔ ¬ t.ShowsMarkup a := by
  have hcode : t.HasCode a ↔ t.ShowsMarkup a := by
    rw [hasCode_iff]
    refine exists_congr fun b => and_congr_right fun hab => exists_congr fun w =>
      and_congr_right fun hw => ?_
    rw [RenderKind.writes_iff]
    refine or_iff_left ?_
    -- code that is not blank would be a text of the value
    rintro ⟨s, hk, hs⟩
    have hreach : t.Reaches a w := Relation.ReflTransGen.tail (hab.lift id fun _ _ h => h.1) hw
    rw [blank_of_reaches h hreach hk] at hs
    cases hs
  rw [← hcode]
  constructor
  · intro hblank hc
    rw [hc.blank_attributeCode] at hblank
    cases hblank
  · intro hc
    rw [← Bool.not_eq_false]
    exact mt hasCode_of_codeBelow hc

/-! ### Lowering -/

theorem outcomeReports_error_inj {problem problem' : Problem} {span : Span}
    (h : outcomeReports span p (.error problem) = outcomeReports span p (.error problem')) :
    problem.report span = problem'.report span := by
  unfold outcomeReports at h
  exact List.cons.inj (List.append_cancel_left h) |>.1

theorem Reported.reports_eq {t' : RenderTree} {id : NodeId} {ds ds' : List Diagnostic}
    (h : Reported t t' id ds) (h' : Reported t t' id ds') : ds = ds' := by
  have heq := (h.diagnostics_eq id).symm.trans (h'.diagnostics_eq id)
  rw [if_pos rfl, if_pos rfl] at heq
  exact List.append_cancel_left heq

/-- **When a bind attribute with a blank value is kept.** All texts below a bind attribute together
are blank. Then it stays, and reports that it has no expression, exactly if no markup is shown in
its code. -/
theorem reported_blank_iff (c : Catalog) {name : BindName} (hk : t.kind e.node = .property p)
    (hn : BindName.Spelt p.attributeName name) (hblank : Text.blank (t.content e.node) = true) :
    Reported t (lowerEntry c t e) e.node (outcomeReports (t.node e.node).spanOrStub p
      (.error (.emptyBindExpression p.attributeName))) ↔ ¬ t.ShowsMarkup e.node := by
  have hp := property?_of_kind hk
  have hlt : e.node < t.size := lt_size_of_kind_ne (by rw [hk]; nofun)
  rw [← blank_attributeCode_iff hblank]
  constructor
  · intro hr
    cases hl : t.lowered c e p with
    | ok as =>
      -- an attribute that is lowered leaves new nodes
      have hsize := (replaced_lowerEntry hp hl).size_eq
      have hlen := List.length_pos_iff.2 (ne_nil_of_lowered hl)
      rw [hr.shape.size_eq] at hsize
      omega
    | error problem =>
      have hreport := outcomeReports_error_inj (hr.reports_eq (reported_lowerEntry hlt hp hl))
      rcases lowered_error hl with rfl | rfl
      · cases congrArg Diagnostic.code hreport
      · exact (lowered_eq_emptyBindExpression_iff.1 hl).2
  · intro hcode
    exact reported_lowerEntry hlt hp (lowered_eq_emptyBindExpression_iff.2 ⟨⟨name, hn⟩, hcode⟩)

theorem reported_blank_stuck :
    Sample.stuck.kind 2 = .property Sample.value ∧ Text.blank (Sample.stuck.content 2) = true ∧
      ¬ Sample.stuck.ShowsMarkup 2 ∧
      Reported Sample.stuck (lowerEntry ⟨[]⟩ Sample.stuck ⟨1, 2, "bind-value", some 3, none⟩) 2
        [(Problem.emptyBindExpression "bind-value").report .stub] := by
  have hk : Sample.stuck.kind 2 = .property Sample.value := rfl
  have hblank : Text.blank (Sample.stuck.content 2) = true := by decide
  have hmarkup : ¬ Sample.stuck.ShowsMarkup 2 := (blank_attributeCode_iff hblank).1 (by decide)
  have hn : BindName.Spelt Sample.value.attributeName ⟨some "value", false⟩ :=
    BindName.parse?_eq_some_iff.1 (by decide)
  exact ⟨hk, hblank, hmarkup, (reported_blank_iff (e := ⟨1, 2, "bind-value", some 3, none⟩) ⟨[]⟩
    hk hn hblank).2 hmarkup⟩

/-- An element with a use of `bind-value` and its parameter apart. The value of the use is markup
that holds a space. -/
def Sample.spaced : RenderTree where
  nodes := #[
    { kind := .document, children := [1] },
    { kind := .element "input", children := [2] },
    { kind := .property value, children := [3] },
    { kind := .htmlContent, children := [4] },
    { kind := .token .html " " },
    { kind := .property event, children := [6] },
    { kind := .token .html "onchange" }]

/-- A value of white space is bound as a literal. -/
theorem lowerEntry_spaced :
    Sample.spaced.kind 2 = .property Sample.value ∧
      BindName.Spelt Sample.value.attributeName ⟨some "value", false⟩ ∧
      Text.blank (Sample.spaced.content 2) = true ∧
      (lowerEntry ⟨[]⟩ Sample.spaced ⟨1, 2, "bind-value", some 5, none⟩).children 1 = [7, 10] ∧
      (lowerEntry ⟨[]⟩ Sample.spaced ⟨1, 2, "bind-value", some 5, none⟩).attributeCode 7 =
        "BindMethods.GetValue(\" \")" ∧
      (lowerEntry ⟨[]⟩ Sample.spaced ⟨1, 2, "bind-value", some 5, none⟩).allDiagnostics = [] :=
  ⟨rfl, BindName.parse?_eq_some_iff.1 (by decide), by decide, by decide +kernel, by decide +kernel,
    by decide +kernel⟩

end RenderTree

end TagHelpers
