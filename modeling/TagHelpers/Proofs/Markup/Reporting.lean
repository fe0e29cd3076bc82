import TagHelpers.Proofs.Markup.BoundTree
import TagHelpers.Proofs.Listing

/-!
# Reporting

Findings are reported from left to right. A problem is reported as it is, and a tag helper by its own
diagnostics where it is found first, unless it was seen before.

* `interleaves_report`: what is reported, and where each diagnostic comes from.
* `interleaves_report_flatMap`: what problems add that are put in between other findings.
-/

namespace TagHelpers

namespace Finding

/-- The problem that a finding is. -/
def problem? : Finding → Option Diagnostic
  | problem d => some d
  | helper _ _ => none

/-- Where a finding is a certain tag helper. -/
def spanOf? (h : TagHelper) : Finding → Option Span
  | problem _ => none
  | helper h' span => if h' = h then some span else none

variable {h : TagHelper} {fs : List Finding} {span : Span}

theorem helper_mem_of_findSome? (hspan : fs.findSome? (spanOf? h) = some span) :
    helper h span ∈ fs := by
  obtain ⟨f, hf, heq⟩ := List.exists_of_findSome?_eq_some hspan
  cases f with
  | problem d => cases heq
  | helper h' span' =>
    rw [spanOf?] at heq
    split_ifs at heq with hh
    obtain rfl := Option.some.inj heq
    exact hh ▸ hf

theorem helper_not_mem_of_findSome? (hnone : fs.findSome? (spanOf? h) = none) :
    helper h span ∉ fs := by
  intro hmem
  have hspan := List.findSome?_eq_none_iff.1 hnone _ hmem
  rw [spanOf?, if_pos rfl] at hspan
  cases hspan

end Finding

/-! ### Where diagnostics come from -/

/-- What a tag helper adds to the diagnostics of findings. -/
def ownDiagnostics (fs : List Finding) (h : TagHelper) : List Diagnostic :=
  (fs.findSome? (Finding.spanOf? h)).elim [] h.diagnosticsAt

theorem ownDiagnostics_problem (d : Diagnostic) (fs : List Finding) (h : TagHelper) :
    ownDiagnostics (.problem d :: fs) h = ownDiagnostics fs h := rfl

theorem ownDiagnostics_helper_self (h : TagHelper) (span : Span) (fs : List Finding) :
    ownDiagnostics (.helper h span :: fs) h = h.diagnosticsAt span := by
  have hspan : Finding.spanOf? h (.helper h span) = some span := if_pos rfl
  rw [ownDiagnostics, List.findSome?_cons_of_isSome (by rw [hspan]; rfl), hspan]
  rfl

theorem ownDiagnostics_helper_of_ne {h h' : TagHelper} (hne : h' ≠ h) (span : Span)
    (fs : List Finding) : ownDiagnostics (.helper h' span :: fs) h = ownDiagnostics fs h := by
  have hspan : Finding.spanOf? h (.helper h' span) = none := if_neg hne
  rw [ownDiagnostics, List.findSome?_cons_of_isNone (by rw [hspan]; rfl), ownDiagnostics]

/-- **Where what is reported comes from.** It is the problems that are found and what each tag helper
adds, unless that one was seen before. -/
theorem interleaves_report (seen : List TagHelper) (fs : List Finding) :
    Interleaves (fun origin : Option TagHelper => origin.elim (fs.filterMap Finding.problem?)
      fun h => if h ∈ seen then [] else ownDiagnostics fs h) (report seen fs) := by
  induction fs generalizing seen with
  | nil =>
    refine (Interleaves.single none []).congr fun origin => ?_
    cases origin <;> simp [ownDiagnostics]
  | cons f fs ih =>
    cases f with
    | problem d =>
      rw [report]
      refine ((Interleaves.single none [d]).append (ih seen)).congr fun origin => ?_
      cases origin with
      | none => rfl
      | some h => simp [ownDiagnostics_problem]
    | helper h span =>
      rw [report]
      split_ifs with hseen
      · -- what was seen before is left out here as it is in what follows
        refine (ih seen).congr fun origin => ?_
        cases origin with
        | none => rfl
        | some h' =>
          by_cases hh : h' ∈ seen
          · simp [hh]
          · have hne : h ≠ h' := fun heq => hh (heq ▸ List.contains_iff_mem.1 hseen)
            simp [hh, ownDiagnostics_helper_of_ne hne]
      · -- what comes first counts, and `h` is seen in what follows
        refine ((Interleaves.single (some h) (h.diagnosticsAt span)).append
          (ih (h :: seen))).congr fun origin => ?_
        cases origin with
        | none => rfl
        | some h' =>
          by_cases hh : h' = h
          · subst hh
            have hnot : h' ∉ seen := fun hmem => hseen (List.contains_iff_mem.2 hmem)
            simp [hnot, ownDiagnostics_helper_self]
          · simp [hh, ownDiagnostics_helper_of_ne (Ne.symm hh)]

/-- **Problems in between other findings.** If on each of several occasions there may be a problem,
which comes before what else is found, then what is reported is these problems and what is reported
without them. -/
theorem interleaves_report_flatMap {α : Type} (c : α → Option Diagnostic) (t : α → List Finding)
    (vs : List α) (seen : List TagHelper) :
    Interleaves
      (fun checked : Bool => if checked then vs.filterMap c else report seen (vs.flatMap t))
      (report seen (vs.flatMap fun v => (c v).toList.map .problem ++ t v)) := by
  induction vs generalizing seen with
  | nil =>
    refine (Interleaves.single true []).congr fun checked => ?_
    cases checked <;> rfl
  | cons v vs ih =>
    have hwhole : report seen ((v :: vs).flatMap fun v => (c v).toList.map .problem ++ t v) =
        (c v).toList ++ (report seen (t v) ++ report (knownAfter seen (t v))
          (vs.flatMap fun v => (c v).toList.map .problem ++ t v)) := by
      rw [List.flatMap_cons, List.append_assoc, report_map_problem, report_append]
    -- the problem comes first and is always reported, so the same is known after it as without it
    rw [hwhole]
    refine ((Interleaves.single true (c v).toList).append
      ((Interleaves.single false (report seen (t v))).append
        (ih (knownAfter seen (t v))))).congr fun checked => ?_
    cases checked with
    | true =>
      rw [List.filterMap_cons]
      cases c v <;> rfl
    | false => simp [report_append]

end TagHelpers
