import TagHelpers.Proofs.RenderTree.Tree

/-!
# Loops over a stack

A walk down a tree can be made without recursion: nodes that are still to be visited wait on a
stack, and the children of a node take its place there. Nothing but the shape of the tree makes such
a loop end. `EndsWithin.sweeps` says that it does where a walk down ends, and that it visits the
nodes in the order of the walk. What a loop does when it visits a node is left open.

* `EndsWithin.sweeps_list`: a loop that lists the nodes.
* `EndsWithin.sweeps_content`: a loop that puts together what the tokens say.
* `EndsWithin.sweeps_takeDiagnostics`: a loop that takes the diagnostics off the nodes, and so
  changes the tree that it walks down.
-/

namespace TagHelpers.RenderTree

variable {t : RenderTree} {a : NodeId} {n : ℕ}

section

variable {σ : Type} {children : σ → NodeId → List NodeId} {visit : σ → NodeId → σ}
  {s s' s'' : σ} {stack stack' ids ids' : List NodeId}

/-- **A loop over a stack.** The node on top of the stack is taken off and visited, and then its
children are put there, the first one on top, until the stack is empty. `Sweeps children visit stack
s ids s'` is the loop that starts in the state `s`, visits `ids` one after another and ends in the
state `s'`. -/
inductive Sweeps (children : σ → NodeId → List NodeId) (visit : σ → NodeId → σ) :
    List NodeId → σ → List NodeId → σ → Prop
  | done (s : σ) : Sweeps children visit [] s [] s
  | next {id : NodeId} {stack ids : List NodeId} {s s' : σ} :
    Sweeps children visit (children (visit s id) id ++ stack) (visit s id) ids s' →
    Sweeps children visit (id :: stack) s (id :: ids) s'

/-- What is on top of the stack is done with before the rest is looked at. -/
theorem Sweeps.append (h : Sweeps children visit stack s ids s')
    (h' : Sweeps children visit stack' s' ids' s'') :
    Sweeps children visit (stack ++ stack') s (ids ++ ids') s'' := by
  induction h with
  | done s => exact h'
  | next _ ih =>
    rw [List.cons_append, List.cons_append]
    refine .next ?_
    rw [← List.append_assoc]
    exact ih h'

/-- **A loop over a stack walks down the tree.** The visits may change the state, as long as the
children that are read off it stay those of the tree. -/
theorem EndsWithin.sweeps {I : σ → Prop} (hvisit : ∀ s id, I s → I (visit s id))
    (hchildren : ∀ s, I s → ∀ x, children s x = t.children x) (h : t.EndsWithin n a) (hs : I s) :
    Sweeps children visit [a] s (t.below n a) ((t.below n a).foldl visit s) := by
  induction n generalizing a s with
  | zero => exact h.elim
  | succ n ih =>
    -- the children wait on the stack together, and each one is done with before the next
    have hall : ∀ cs : List NodeId, (∀ c ∈ cs, t.EndsWithin n c) → ∀ s, I s →
        Sweeps children visit cs s (cs.flatMap (t.below n))
          ((cs.flatMap (t.below n)).foldl visit s) := by
      intro cs
      induction cs with
      | nil => intro _ s _; exact .done s
      | cons c cs ihcs =>
        intro hcs s hs
        obtain ⟨hc, hcs⟩ := List.forall_mem_cons.1 hcs
        rw [List.flatMap_cons, List.foldl_append]
        have hs' : I ((t.below n c).foldl visit s) :=
          List.foldlRecOn (t.below n c) visit hs fun s hs id _ => hvisit s id hs
        exact (ih hc hs).append (ihcs hcs _ hs')
    have hs' := hvisit s a hs
    refine .next ?_
    rw [hchildren _ hs', List.append_nil]
    exact hall _ h _ hs'

/-- The same for a loop that leaves the tree as it is. -/
theorem EndsWithin.sweeps_children (h : t.EndsWithin n a) :
    Sweeps (fun _ => t.children) visit [a] s (t.below n a) ((t.below n a).foldl visit s) :=
  h.sweeps (I := fun _ => True) (fun _ _ _ => trivial) (fun _ _ _ => rfl) trivial

end

/-! ### The loops -/

/-- Lists a node. -/
def listAt (out : List NodeId) (id : NodeId) : List NodeId := out ++ [id]

theorem EndsWithin.sweeps_list (h : t.EndsWithin t.size a) :
    Sweeps (fun _ => t.children) listAt [a] [] (t.subtree a) (t.subtree a) := by
  have hlist : (t.subtree a).foldl listAt [] = t.subtree a :=
    List.flatMap_eq_foldl.symm.trans (List.flatMap_singleton' _)
  have hsweep : Sweeps (fun _ => t.children) listAt [a] [] (t.subtree a)
      ((t.subtree a).foldl listAt []) := h.sweeps_children
  rwa [hlist] at hsweep

/-- Adds what a token says. -/
def contentAt (t : RenderTree) (out : String) (id : NodeId) : String :=
  out ++ match t.kind id with
    | .token _ s => s
    | _ => ""

theorem content_eq_foldl (t : RenderTree) (a : NodeId) :
    t.content a = (t.subtree a).foldl t.contentAt "" := by
  unfold content String.join
  rw [List.foldl_map]
  rfl

theorem EndsWithin.sweeps_content (h : t.EndsWithin t.size a) :
    Sweeps (fun _ => t.children) t.contentAt [a] "" (t.subtree a) (t.content a) := by
  rw [content_eq_foldl]
  exact h.sweeps_children

/-- Moves the diagnostics of a node to the end of a list. -/
def takeAt (s : RenderTree × List Diagnostic) (id : NodeId) : RenderTree × List Diagnostic :=
  (s.1.update id fun n => { n with diagnostics := [] }, s.2 ++ (s.1.node id).diagnostics)

/-- Taking the diagnostics off different nodes one after another. -/
theorem foldl_takeAt {ids : List NodeId} (h : ids.Nodup) (t : RenderTree)
    (taken : List Diagnostic) : ids.foldl takeAt (t, taken) =
      (ids.foldl (fun t i => t.update i fun n => { n with diagnostics := [] }) t,
        taken ++ ids.flatMap fun i => (t.node i).diagnostics) := by
  induction ids generalizing t taken with
  | nil => simp
  | cons id ids ih =>
    obtain ⟨hid, hids⟩ := List.nodup_cons.1 h
    -- the other nodes still have theirs
    have hrest : (ids.flatMap fun i =>
        ((t.update id fun n => { n with diagnostics := [] }).node i).diagnostics) =
        ids.flatMap fun i => (t.node i).diagnostics := by
      refine List.flatMap_congr fun i hi => ?_
      rw [diagnostics_update, if_neg]
      rintro ⟨rfl, -⟩
      exact hid hi
    rw [List.foldl_cons, takeAt, ih hids, hrest, List.foldl_cons, List.flatMap_cons,
      List.append_assoc]

theorem takeDiagnostics_eq_foldl (h : (t.subtree a).Nodup) :
    t.takeDiagnostics a = (t.subtree a).foldl takeAt (t, []) := by
  unfold takeDiagnostics
  rw [unique_eq_self h, foldl_takeAt h, List.nil_append]

theorem EndsWithin.sweeps_takeDiagnostics (h : t.EndsWithin t.size a) (hnd : (t.subtree a).Nodup) :
    Sweeps (fun s => s.1.children) takeAt [a] (t, []) (t.subtree a) (t.takeDiagnostics a) := by
  rw [takeDiagnostics_eq_foldl hnd]
  refine h.sweeps (I := fun s => SameShape t s.1) ?_ (fun s hs => hs.children_eq) (SameShape.refl t)
  intro s id hs
  exact hs.trans (sameShape_update s.1 id fun _ => [])

end TagHelpers.RenderTree
