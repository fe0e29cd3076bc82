import TagHelpers.Proofs.Markup.Fragments

/-!
# The text of a value as code

The code of a value is all of it but its transitions. After a value has been turned into code, one
transition may be left, that with which it starts. `codeText` leaves it out where it belongs to one
of the nodes of the value, and does not see it further down, inside a block or inside an expression
without a transition of its own: there it is buried.

* `textOf_asCode`: the text of code is the code of the value, with a transition that starts it.
* `codeText_codeValue`: `codeText` gives the code of a value, with the transition that is buried in
  it. So it gives the code just where no transition, or an empty one, is buried.
-/

namespace TagHelpers

@[simp] theorem textOf_nil : textOf [] = "" := by
  simp [textOf]

@[simp] theorem textOf_cons (l : Literal) (ls : List Literal) :
    textOf (l :: ls) = l.text ++ textOf ls := by
  simp [textOf]

@[simp] theorem textOf_append (ls ms : List Literal) :
    textOf (ls ++ ms) = textOf ls ++ textOf ms := by
  simp [textOf]

namespace Fragment

/-- The literals of a fragment that are code. -/
def code : Fragment → List Literal
  | plain l => [l]
  | transition _ | lead _ => []
  | whole node => node.literals

/-- The code of fragments, with a transition before the first literal. -/
def codeWith (start : Option Literal) : List Fragment → List Literal
  | [] => start.toList
  | whole node :: fs => node.literals ++ codeWith start fs
  | f :: fs => start.toList ++ f.code ++ fs.flatMap code

/-- The first literal of fragments, if it is a transition. -/
def start? : List Fragment → Option Literal
  | [] => none
  | whole _ :: fs => start? fs
  | transition l :: _ | lead l :: _ => some l
  | plain _ :: _ => none

variable {fs gs : List Fragment} {start : Option Literal}

theorem start?_of_all_isWhole (h : fs.all isWhole = true) : start? fs = none := by
  induction fs with
  | nil => rfl
  | cons f fs ih =>
    rw [List.all_cons, Bool.and_eq_true] at h
    cases f with
    | whole node => exact ih h.2
    | plain l => exact absurd h.1 Bool.false_ne_true
    | transition l => exact absurd h.1 Bool.false_ne_true
    | lead l => exact absurd h.1 Bool.false_ne_true

theorem codeWith_none (fs : List Fragment) : codeWith none fs = fs.flatMap code := by
  induction fs with
  | nil => rfl
  | cons f fs ih =>
    rw [List.flatMap_cons]
    cases f with
    | whole node => rw [codeWith, ih, code]
    | plain l => rfl
    | transition l => rfl
    | lead l => rfl

/-- Where there is no literal, the transition comes at the end. -/
theorem codeWith_append_of_all_isWhole (h : fs.all isWhole = true) :
    codeWith start (fs ++ gs) = fs.flatMap code ++ codeWith start gs := by
  induction fs with
  | nil => rfl
  | cons f fs ih =>
    rw [List.all_cons, Bool.and_eq_true] at h
    cases f with
    | whole node =>
      rw [List.cons_append, codeWith, ih h.2, List.flatMap_cons, List.append_assoc, code]
    | plain l => exact absurd h.1 Bool.false_ne_true
    | transition l => exact absurd h.1 Bool.false_ne_true
    | lead l => exact absurd h.1 Bool.false_ne_true

theorem codeWith_append (h : fs.all isWhole = false) :
    codeWith start (fs ++ gs) = codeWith start fs ++ gs.flatMap code := by
  induction fs with
  | nil => cases h
  | cons f fs ih =>
    cases f with
    | whole node => rw [List.cons_append, codeWith, codeWith, ih h, List.append_assoc]
    | plain l => simp [codeWith]
    | transition l => simp [codeWith]
    | lead l => simp [codeWith]

/-- A transition is missed in the text unless it is empty. -/
theorem textOf_codeWith_eq_iff (start : Option Literal) (fs : List Fragment) :
    textOf (codeWith start fs) = textOf (fs.flatMap code) ↔ ∀ l ∈ start, l.text = "" := by
  cases start with
  | none => simp [codeWith_none]
  | some l =>
    induction fs with
    | nil => simp [codeWith]
    | cons f fs ih =>
      rw [List.flatMap_cons, textOf_append]
      cases f with
      | whole node => rw [codeWith, textOf_append, code, String.append_right_inj, ih]
      | plain l' => simp [codeWith, code, ← String.append_assoc]
      | transition l' => simp [codeWith, code]
      | lead l' => simp [codeWith, code]

theorem textOf_later (fs : List Fragment) :
    textOf ((fs.flatMap later).flatMap literals) = textOf (fs.flatMap code) := by
  induction fs with
  | nil => rfl
  | cons f fs ih =>
    rw [List.flatMap_cons, List.flatMap_append, List.flatMap_cons, textOf_append, textOf_append, ih]
    cases f <;> simp [later, literals, code]

/-- **The text of code**: the code of the fragments, with a transition that starts them. -/
theorem textOf_asCode (fs : List Fragment) :
    textOf ((asCode fs).flatMap literals) = textOf (codeWith (start? fs) fs) := by
  induction fs with
  | nil => rfl
  | cons f fs ih =>
    cases f with
    | whole node =>
      rw [asCode, List.flatMap_cons, start?, codeWith, textOf_append, textOf_append, ih, literals]
    | plain l => simp [asCode, literals, start?, codeWith, code, textOf_later]
    | transition l => simp [asCode, literals, start?, codeWith, code, textOf_later]
    | lead l => simp [asCode, literals, start?, codeWith, code, textOf_later]

end Fragment

/-! ### Nodes and values -/

/-- The transition that starts a node and is not its own. -/
def Node.buried? : Node → Option Literal
  | .block nodes _ | .implicit none nodes _ => Fragment.start? (fragmentsOf nodes)
  | _ => none

/-- The transition that starts a value and belongs to none of its nodes. -/
def buried? : List Node → Option Literal
  | [] => none
  | node :: nodes =>
    if node.fragments.all Fragment.isWhole then buried? nodes else node.buried?

/-- The code of a value: all its literals that are no transitions, with the source of its
statements, directives and elements. -/
def codeOf (value : List Node) : String :=
  textOf ((fragmentsOf value).flatMap Fragment.code)

theorem Node.buried?_of_all_isWhole {node : Node}
    (h : node.fragments.all Fragment.isWhole = true) : node.buried? = none := by
  cases node with
  | block nodes span => exact Fragment.start?_of_all_isWhole h
  | implicit transition nodes span =>
    cases transition with
    | none => exact Fragment.start?_of_all_isWhole h
    | some l => rfl
  | _ => rfl

/-- The text of nodes that start a value. -/
theorem textOf_literalsOf_start (nodes : List Node) :
    textOf (literalsOf (asCodeAll false nodes).1) =
      textOf (Fragment.codeWith (Fragment.start? (fragmentsOf nodes)) (fragmentsOf nodes)) := by
  rw [← literalsOf_fragments, (fragmentsOf_asCodeAll false nodes).1]
  exact Fragment.textOf_asCode _

/-- The text of nodes that a literal comes before. -/
theorem textOf_literalsOf_later (nodes : List Node) :
    textOf (literalsOf (asCodeAll true nodes).1) =
      textOf ((fragmentsOf nodes).flatMap Fragment.code) := by
  rw [← literalsOf_fragments, (fragmentsOf_asCodeAll true nodes).1]
  exact Fragment.textOf_later _

/-- A transition of the first node itself is left out, and one that is buried in it is not. -/
theorem Node.textOf_codeLiterals_start (node : Node) :
    textOf (node.asCode false).1.codeLiterals =
      textOf (Fragment.codeWith node.buried? node.fragments) := by
  cases node with
  | block nodes span => exact textOf_literalsOf_start nodes
  | implicit transition nodes span =>
    cases transition with
    | none => exact textOf_literalsOf_start nodes
    | some l => exact textOf_literalsOf_later nodes
  | explicit d nodes span =>
    have h := textOf_literalsOf_later nodes
    have hburied : (Node.explicit d nodes span).buried? = none := rfl
    rw [Node.asCode, hburied, Fragment.codeWith_none, Node.fragments]
    simp [Node.codeLiterals, literalsOf, Node.literals, literalsOf_append, h, Fragment.code]
  | text l => rfl
  | code l => rfl
  | transition l => rfl
  | directive d => exact congrArg textOf (List.append_nil _).symm
  | statement d body span => exact congrArg textOf (List.append_nil _).symm
  | element tag attributes children endTag binding span =>
    exact congrArg textOf (List.append_nil _).symm

/-- After a literal, no node has a transition of its own. -/
theorem Node.codeLiterals_later (node : Node) :
    (node.asCode true).1.codeLiterals = (node.asCode true).1.literals := by
  cases node <;> rfl

theorem codeLiterals_asCodeAll_later (nodes : List Node) :
    (asCodeAll true nodes).1.flatMap Node.codeLiterals = literalsOf (asCodeAll true nodes).1 := by
  induction nodes with
  | nil => rfl
  | cons node nodes ih =>
    have h := (Node.fragments_asCode true node).2
    rw [Bool.true_or] at h
    rw [asCodeAll]
    simp only [literalsOf, List.flatMap_cons]
    rw [h, ih, Node.codeLiterals_later]

theorem textOf_codeLiterals_start (nodes : List Node) :
    textOf ((asCodeAll false nodes).1.flatMap Node.codeLiterals) =
      textOf (Fragment.codeWith (buried? nodes) (fragmentsOf nodes)) := by
  induction nodes with
  | nil => rfl
  | cons node nodes ih =>
    have hflag := (Node.fragments_asCode false node).2
    have hnode := node.textOf_codeLiterals_start
    rw [asCodeAll, fragmentsOf, buried?]
    simp only
    rw [List.flatMap_cons, textOf_append, hflag, hnode]
    cases hall : node.fragments.all Fragment.isWhole with
    | true =>
      -- there is no literal yet, so the value starts further on
      rw [if_pos rfl, Fragment.codeWith_append_of_all_isWhole hall, textOf_append,
        Node.buried?_of_all_isWhole hall, Fragment.codeWith_none]
      exact congrArg _ ih
    | false =>
      rw [if_neg Bool.false_ne_true, Fragment.codeWith_append hall, textOf_append]
      refine congrArg _ ?_
      change textOf ((asCodeAll true nodes).1.flatMap Node.codeLiterals) = _
      rw [codeLiterals_asCodeAll_later, textOf_literalsOf_later]

/-- **The text of a value as code** is the code of the value, with the transition that is buried in
it. So it is the code if and only if no transition, or an empty one, is buried. -/
theorem codeText_codeValue (value : List Node) :
    codeText (codeValue value) =
      textOf (Fragment.codeWith (buried? value) (fragmentsOf value)) ∧
    (codeText (codeValue value) = codeOf value ↔ ∀ l ∈ buried? value, l.text = "") := by
  have h : codeText (codeValue value) = _ := textOf_codeLiterals_start value
  refine ⟨h, ?_⟩
  rw [h]
  exact Fragment.textOf_codeWith_eq_iff _ _

namespace Sample

/-- The expression `@x`, inside a block. -/
def boxed : List Node :=
  [.block [.implicit (some ⟨"@", ⟨0, 1⟩⟩) [.code ⟨"x", ⟨1, 2⟩⟩] ⟨0, 2⟩] ⟨0, 2⟩]

end Sample

/-- A transition that is buried in a block is taken for code. -/
theorem codeText_boxed :
    codeText (codeValue Sample.boxed) = "@x" ∧ codeOf Sample.boxed = "x" :=
  ⟨by decide, by decide⟩

end TagHelpers
