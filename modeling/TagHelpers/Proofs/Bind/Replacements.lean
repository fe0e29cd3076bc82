import TagHelpers.Bind.Lowering
import Mathlib.Tactic.SplitIfs

/-!
# Lowering without effects

Lowering a bind attribute reads the tree, reports on it and makes nodes in turn, and may fail at four
points on the way. What it comes to can be said in one go: the name may be noted, and then `lowered`
gives the attributes that the bind attribute stands for, or the reason why there are none. No node is
made before all reasons to fail are ruled out.

* `run_replacements`: what making the nodes comes to.
* `lowerEntry_of_error`, `lowerEntry_of_ok`: what lowering the attribute comes to.
-/

namespace TagHelpers

/-- The attributes that a bind attribute below a node of kind `parent` stands for. -/
def BindSource.attributes? (s : BindSource) (p : Property) (name : BindName) (c : Catalog)
    (parent : RenderKind) : Option (List LoweredAttribute) :=
  (p.helper.descriptor.bindValue? <|> name.value).bind fun valueName =>
    s.attributesOn p c valueName parent

namespace RenderTree

/-- The attributes that a bind attribute stands for, or why it stands for none. -/
def lowered (t : RenderTree) (c : Catalog) (e : BindEntry) (p : Property) :
    Except Problem (List LoweredAttribute) :=
  match BindName.parse? p.attributeName with
  | none => .error (.invalidBindName p.attributeName)
  | some name =>
    let s := t.bindSource e
    if Text.blank s.expression then .error (.emptyBindExpression p.attributeName)
    else
      match s.attributes? p name c (t.kind e.parent) with
      | none => .error (.invalidBindName p.attributeName)
      | some attributes => .ok attributes

/-- The tree with a note on a name that has a third segment. -/
def noteExtraSegment (t : RenderTree) (id : NodeId) (p : Property) : RenderTree :=
  if (BindName.parse? p.attributeName).any (·.hasExtraSegment) then
    t.addDiagnostic id
      ((Problem.unsupportedBindFormat p.attributeName).report (t.node id).spanOrStub)
  else t

/-- Adds the nodes of several attributes, not attached. -/
def allocAttributes (span : Span) : RenderTree → List LoweredAttribute → RenderTree × List NodeId
  | t, [] => (t, [])
  | t, a :: as =>
    let (t, id) := t.allocAttribute span a
    let (t, ids) := allocAttributes span t as
    (t, id :: ids)

/-- Puts nodes in the place of a bind attribute. The diagnostics at and below it go to the first of
them. -/
def substitute (t : RenderTree) (e : BindEntry) (ids : List NodeId) : RenderTree :=
  ((t.handOver e.node ids).replaceChild e.parent e.node ids).1

variable {t t' : RenderTree} {c : Catalog} {e : BindEntry} {p : Property} {problem : Problem}
  {as : List LoweredAttribute}

/-! ### Steps -/

namespace Attempt

variable {α β : Type} {x : Attempt α} {a : α}

theorem run_bind_of_ok (h : x.run.run t = (.ok a, t')) (f : α → Attempt β) :
    (x >>= f).run.run t = (f a).run.run t' := by
  rw [ExceptT.run_bind, StateT.run_bind, h]
  rfl

theorem run_get_bind (f : RenderTree → Attempt α) :
    ((get : Attempt RenderTree) >>= f).run.run t = (f t).run.run t := rfl

end Attempt

/-- The nodes of several attributes are made one after another. -/
theorem run_mapM_allocAttribute (span : Span) (as : List LoweredAttribute) (t : RenderTree) :
    (as.mapM fun a => modifyGet fun t => (t.allocAttribute span a).swap :
      Attempt (List NodeId)).run.run t =
      (.ok (t.allocAttributes span as).2, (t.allocAttributes span as).1) := by
  induction as generalizing t with
  | nil => rfl
  | cons a as ih =>
    have hmake : (modifyGet fun t => (t.allocAttribute span a).swap : Attempt NodeId).run.run t =
        (.ok (t.allocAttribute span a).2, (t.allocAttribute span a).1) := rfl
    rw [List.mapM_cons, Attempt.run_bind_of_ok hmake, Attempt.run_bind_of_ok (ih _)]
    rfl

/-! ### The outcome -/

/-- What making the nodes comes to, if it is known what the bind attribute stands for. -/
def outcome (t : RenderTree) (e : BindEntry) (span : Span) :
    Except Problem (List LoweredAttribute) → Except Diagnostic (List NodeId) × RenderTree
  | .error problem => (.error (problem.report span), t)
  | .ok as => (.ok (t.allocAttributes span as).2,
      (t.allocAttributes span as).1.handOver e.node (t.allocAttributes span as).2)

theorem run_expand {name : BindName} (hname : BindName.parse? p.attributeName = some name)
    (c : Catalog) (t : RenderTree) (e : BindEntry) (span : Span) :
    (expand c e p name span).run.run t = t.outcome e span (t.lowered c e p) := by
  unfold expand lowered BindSource.attributes?
  rw [Attempt.run_get_bind]
  simp only [hname]
  split_ifs with hblank
  · rfl
  · cases p.helper.descriptor.bindValue? <|> name.value with
    | none => rfl
    | some valueName =>
      simp only [Option.bind_some]
      cases (t.bindSource e).attributesOn p c valueName (t.kind e.parent) with
      | none => rfl
      | some attributes =>
        simp only
        rw [Attempt.run_bind_of_ok (run_mapM_allocAttribute span attributes t)]
        rfl

/-- **Making the nodes is all or nothing.** -/
theorem run_replacements (c : Catalog) (hp : (t.node e.node).property? = some p) :
    (replacements c e).run.run t = (t.noteExtraSegment e.node p).outcome e
      (t.node e.node).spanOrStub ((t.noteExtraSegment e.node p).lowered c e p) := by
  unfold replacements
  rw [Attempt.run_get_bind]
  simp only [hp]
  cases hname : BindName.parse? p.attributeName with
  | none =>
    unfold noteExtraSegment lowered
    simp only [hname]
    rfl
  | some name =>
    rw [← run_expand hname, noteExtraSegment, hname, Option.any_some]
    simp only
    split_ifs <;> rfl

theorem lowerEntry_of_error (hp : (t.node e.node).property? = some p)
    (hl : (t.noteExtraSegment e.node p).lowered c e p = .error problem) :
    lowerEntry c t e = (t.noteExtraSegment e.node p).addDiagnostic e.node
      (problem.report (t.node e.node).spanOrStub) := by
  rw [lowerEntry, run_replacements c hp, hl]
  rfl

theorem lowerEntry_of_ok (hp : (t.node e.node).property? = some p)
    (hl : (t.noteExtraSegment e.node p).lowered c e p = .ok as) :
    lowerEntry c t e =
      ((t.noteExtraSegment e.node p).allocAttributes (t.node e.node).spanOrStub as).1.substitute e
        ((t.noteExtraSegment e.node p).allocAttributes (t.node e.node).spanOrStub as).2 := by
  rw [lowerEntry, run_replacements c hp, hl]
  rfl

end RenderTree

end TagHelpers
