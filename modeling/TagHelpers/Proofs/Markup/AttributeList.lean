import TagHelpers.Proofs.Markup.Elements
import TagHelpers.Proofs.Markup.Fragments
import TagHelpers.Proofs.Markup.Source
import Mathlib.Data.List.ReduceOption

/-!
# The attribute list of a bound tag

The attributes of a bound tag are bound one by one, up to the first entry that does not belong into
an attribute list. Up to there each entry gets what it is bound to and at most one diagnostic. The
entry that is rejected gets one, and from it on everything stays as written.

An entry is rejected for its code or for its markup. The two are looked for in different ways: code
among the nodes of the entry itself, markup in the blocks inside it too. So code inside a block is
not seen.

* `Attribute.boundUpTo_bindAll`: what becomes of an attribute list and what is reported about it.
* `anyStray_iff`: markup is found at any depth of blocks.
* `Attribute.accepts_iff`: which attribute lists are accepted, and which of them hide code.
-/

namespace TagHelpers

/-! ### What is inside an entry -/

/-- Whether a node is markup: an element, or text that is not blank. -/
def Node.isMarkup : Node → Bool
  | .text l => !Text.blank l.text
  | .element .. => true
  | .transition _ | .code _ | .directive _ | .block .. | .implicit .. | .explicit .. |
    .statement .. => false

/-- That a node is one of several nodes or stands in one of them, at any depth of blocks. -/
inductive InBlocks (node : Node) : List Node → Prop
  | here {nodes : List Node} (h : node ∈ nodes) : InBlocks node nodes
  | block {nodes children : List Node} {span : Span} (h : .block children span ∈ nodes)
      (hin : InBlocks node children) : InBlocks node nodes

theorem InBlocks.mono {node : Node} {nodes nodes' : List Node} (hsub : nodes ⊆ nodes')
    (h : InBlocks node nodes) : InBlocks node nodes' := by
  cases h with
  | here h => exact .here (hsub h)
  | block h hin => exact .block (hsub h) hin

theorem inBlocks_iff_exists_mem {node : Node} {nodes : List Node} :
    InBlocks node nodes ↔ ∃ n ∈ nodes, InBlocks node [n] := by
  constructor
  · intro h
    cases h with
    | here h => exact ⟨node, h, .here (List.mem_singleton_self node)⟩
    | block h hin => exact ⟨_, h, .block (List.mem_singleton_self _) hin⟩
  · rintro ⟨n, hn, h⟩
    exact h.mono fun m hm => List.mem_singleton.1 hm ▸ hn

/-- A node that stands in a list of nodes is one of them or stands right in a block of theirs. -/
theorem inBlocks_iff_or {node : Node} {nodes : List Node} :
    InBlocks node nodes ↔
      node ∈ nodes ∨ ∃ children span, InBlocks (.block children span) nodes ∧ node ∈ children := by
  constructor
  · intro h
    induction h with
    | here h => exact .inl h
    | @block nodes children span h hin ih =>
      rcases ih with hmem | ⟨inner, s, hblock, hmem⟩
      · exact .inr ⟨children, span, .here h, hmem⟩
      · exact .inr ⟨inner, s, .block h hblock, hmem⟩
  · rintro (h | ⟨children, span, hblock, hmem⟩)
    · exact .here h
    · generalize hb : Node.block children span = b at hblock
      induction hblock with
      | here h => exact .block (hb ▸ h) (.here hmem)
      | block h _ ih => exact .block h ih

theorem anyStray_eq_any (nodes : List Node) : anyStray nodes = nodes.any Node.isStray := by
  induction nodes with
  | nil => rfl
  | cons node nodes ih => rw [anyStray, ih, List.any_cons]

theorem Node.isStray_iff (node : Node) :
    node.isStray = true ↔ ∃ n, InBlocks n [node] ∧ n.isMarkup = true := by
  induction node using Node.induction_inner with
  | step node ih =>
    cases node with
    | block children span =>
      rw [isStray, anyStray_eq_any, List.any_eq_true]
      constructor
      · rintro ⟨child, hchild, hstray⟩
        obtain ⟨n, hn, hmarkup⟩ := (ih child hchild).1 hstray
        refine ⟨n, .block (List.mem_singleton_self _) ?_, hmarkup⟩
        exact inBlocks_iff_exists_mem.2 ⟨child, hchild, hn⟩
      · rintro ⟨n, hn, hmarkup⟩
        cases hn with
        | here h => rw [List.mem_singleton.1 h] at hmarkup; cases hmarkup
        | block h hin =>
          obtain ⟨rfl, rfl⟩ := Node.block.inj (List.mem_singleton.1 h)
          obtain ⟨child, hchild, hn⟩ := inBlocks_iff_exists_mem.1 hin
          exact ⟨child, hchild, (ih child hchild).2 ⟨n, hn, hmarkup⟩⟩
    | _ =>
      -- what is no block has nothing in it but itself
      constructor
      · intro h
        exact ⟨_, .here (List.mem_singleton_self _), h⟩
      · rintro ⟨n, hn, hmarkup⟩
        cases hn with
        | here h => rw [List.mem_singleton.1 h] at hmarkup; exact hmarkup
        | block h hin => cases List.mem_singleton.1 h

/-- **Markup is found at any depth of blocks.** -/
theorem anyStray_iff (nodes : List Node) :
    anyStray nodes = true ↔ ∃ n, InBlocks n nodes ∧ n.isMarkup = true := by
  rw [anyStray_eq_any, List.any_eq_true]
  constructor
  · rintro ⟨node, hnode, hstray⟩
    obtain ⟨n, hn, hmarkup⟩ := node.isStray_iff.1 hstray
    exact ⟨n, inBlocks_iff_exists_mem.2 ⟨node, hnode, hn⟩, hmarkup⟩
  · rintro ⟨n, hn, hmarkup⟩
    obtain ⟨node, hnode, hn⟩ := inBlocks_iff_exists_mem.1 hn
    exact ⟨node, hnode, node.isStray_iff.2 ⟨n, hn, hmarkup⟩⟩

namespace Attribute

variable {tag : String} {helpers : List TagHelper} {options : Options} {a a' : Attribute}
  {as as' : List Attribute} {ds : List Diagnostic} {k : ℕ}

/-! ### Entries that are rejected -/

/-- Whether an entry is rejected for its code or for its markup. -/
def isRejected : Attribute → Bool
  | misc children _ => children.any Node.isCode || anyStray children
  | valued .. | minimized .. => false

/-- The diagnostic of an entry that is rejected. Code is looked for first. -/
inductive RejectedAs (tag : String) : Attribute → Diagnostic → Prop
  | code {children : List Node} {span : Span} (hcode : ∃ node ∈ children, node.isCode = true) :
      RejectedAs tag (misc children span) ((Problem.codeInTag tag).report span)
  | markup {children : List Node} {span : Span} (hcode : ∀ node ∈ children, node.isCode = false)
      (hmarkup : ∃ node, InBlocks node children ∧ node.isMarkup = true) :
      RejectedAs tag (misc children span) (Problem.malformedAttributeList.report span)

theorem isSome_rejection? (tag : String) (a : Attribute) :
    (a.rejection? tag).isSome = a.isRejected := by
  cases a with
  | misc children span =>
    rw [rejection?, isRejected]
    cases children.any Node.isCode <;> cases anyStray children <;> rfl
  | _ => rfl

theorem rejection?_eq_none (h : a.isRejected = false) (tag : String) : a.rejection? tag = none := by
  rwa [← isSome_rejection? tag, Option.isSome_eq_false_iff, Option.isNone_iff_eq_none] at h

theorem exists_rejection? (h : a.isRejected = true) (tag : String) :
    ∃ p, a.rejection? tag = some p := by
  rwa [← isSome_rejection? tag, Option.isSome_iff_exists] at h

theorem rejectedAs_of_rejection? {p : Problem} (h : a.rejection? tag = some p) :
    RejectedAs tag a (p.report a.span) := by
  cases a with
  | misc children span =>
    rw [rejection?] at h
    split at h
    · next hcode =>
      obtain rfl := Option.some.inj h
      exact .code (List.any_eq_true.1 hcode)
    · next hcode =>
      split at h
      · next hmarkup =>
        obtain rfl := Option.some.inj h
        refine .markup (fun node hnode => ?_) ((anyStray_iff children).1 hmarkup)
        exact Bool.eq_false_iff.2 fun h => hcode (List.any_eq_true.2 ⟨node, hnode, h⟩)
      · cases h
  | _ => cases h

/-! ### Entries that are bound -/

/-- What becomes of an entry that is not rejected. An attribute that is not bound yet is classified
by its name; its value is turned into code if it is bound to something other than text and no key is
missing. All else is left as it is. -/
inductive BoundTo (helpers : List TagHelper) : Attribute → Attribute → Prop
  | valued {head : AttributeHead} {frame : ValueFrame} {value value' : List Node} {span : Span}
      {c : Classification} (hc : c = .ofName head.name.text helpers)
      (hcode : c.isBound ∧ c.nonString ∧ ¬ c.missingKey →
        value' = codeValue value ∧ IsCodeOf value value')
      (hkept : ¬ (c.isBound ∧ c.nonString ∧ ¬ c.missingKey) → value' = value) :
      BoundTo helpers (valued head frame value none span)
        (valued head frame value' (some ⟨frame.quoting value, c.kind, c.directive⟩) span)
  | minimized {head : AttributeHead} {span : Span} {c : Classification}
      (hc : c = .ofName head.name.text helpers) :
      BoundTo helpers (minimized head none span)
        (minimized head (some ⟨.minimized, c.kind, c.directive⟩) span)
  | misc (children : List Node) (span : Span) :
      BoundTo helpers (misc children span) (misc children span)
  | bound {a : Attribute} (h : a.binding?.isSome) : BoundTo helpers a a

/-- That an attribute that is not bound yet lacks the key that its name asks for. -/
def LacksKey (helpers : List TagHelper) : Attribute → Prop
  | valued head _ _ none _ | minimized head none _ =>
    (Classification.ofName head.name.text helpers).kind = .missingKey
  | _ => False

/-- That an attribute that is not bound yet is bound, with its key if it has one, and lacks a value:
there is none and it is no Boolean that may stand alone, or there is a blank one where something
other than text is asked for. -/
def LacksValue (helpers : List TagHelper) (options : Options) : Attribute → Prop
  | valued head _ value none _ =>
    let c := Classification.ofName head.name.text helpers
    c.kind ≠ .missingKey ∧ c.isBound ∧ c.nonString ∧ Text.blank (sourceOf value)
  | minimized head none _ =>
    let c := Classification.ofName head.name.text helpers
    c.kind ≠ .missingKey ∧ c.isBound ∧ ¬ (c.boolean ∧ options.allowMinimizedBoolean)
  | _ => False

/-- What is reported about an entry that is not rejected. -/
inductive Reported (tag : String) (helpers : List TagHelper) (options : Options) (a : Attribute) :
    Option Diagnostic → Prop
  | key {name : Literal} (hname : a.nameLiteral? = some name) (hkey : a.LacksKey helpers) :
      Reported tag helpers options a
        (some ((Problem.missingIndexerKey name.text tag).report name.span))
  | value {name : Literal} {c : Classification} (hname : a.nameLiteral? = some name)
      (hc : c = .ofName name.text helpers) (hvalue : a.LacksValue helpers options) :
      Reported tag helpers options a
        (some ((Problem.emptyBoundAttribute name.text tag (c.typeName?.getD "")).report name.span))
  | fine (hkey : ¬ a.LacksKey helpers) (hvalue : ¬ a.LacksValue helpers options) :
      Reported tag helpers options a none

theorem takesCode_iff (c : Classification) :
    takesCode c = true ↔ c.isBound ∧ c.nonString ∧ ¬ c.missingKey := by
  unfold takesCode Classification.kind
  cases c.isBound <;> cases c.missingKey <;> cases c.nonString <;> cases c.boolean <;> decide

theorem boundTo_bind (helpers : List TagHelper) (a : Attribute) :
    BoundTo helpers a (a.bind helpers) := by
  cases a with
  | valued head frame value binding span =>
    cases binding with
    | some b => exact .bound rfl
    | none =>
      rw [bind]
      refine .valued rfl (fun h => ?_) fun h => if_neg fun hcode => h ((takesCode_iff _).1 hcode)
      rw [if_pos ((takesCode_iff _).2 h)]
      exact ⟨rfl, isCodeOf_asCodeAll value⟩
  | minimized head binding span =>
    cases binding with
    | some b => exact .bound rfl
    | none => exact .minimized rfl
  | misc children span => exact .misc children span

theorem reported_problem? (tag : String) (helpers : List TagHelper) (options : Options)
    (a : Attribute) : Reported tag helpers options a (a.problem? tag helpers options) := by
  cases a with
  | valued head frame value binding span =>
    cases binding with
    | some b => exact .fine id id
    | none =>
      rw [problem?]
      split_ifs with hkey hvalue
      · exact .key rfl hkey
      · rw [Bool.and_eq_true, takesCode_iff] at hvalue
        obtain ⟨⟨hbound, hstring, -⟩, hblank⟩ := hvalue
        exact .value rfl rfl ⟨hkey, hbound, hstring, hblank⟩
      · refine .fine hkey fun ⟨_, hbound, hstring, hblank⟩ => hvalue ?_
        simp only [takesCode, Bool.and_eq_true, bne_iff_ne]
        exact ⟨⟨⟨hkey, hbound⟩, hstring⟩, hblank⟩
  | minimized head binding span =>
    cases binding with
    | some b => exact .fine id id
    | none =>
      rw [problem?]
      split_ifs with hkey hvalue
      · exact .key rfl hkey
      · simp only [Bool.and_eq_true, Bool.not_eq_true'] at hvalue
        refine .value rfl rfl ⟨hkey, hvalue.1, fun h => ?_⟩
        rw [← Bool.and_eq_true, hvalue.2] at h
        cases h
      · refine .fine hkey fun ⟨_, hbound, halone⟩ => hvalue ?_
        rw [Bool.and_eq_true, Bool.not_eq_true', Bool.eq_false_iff, Ne, Bool.and_eq_true]
        exact ⟨hbound, halone⟩
  | misc children span => exact .fine id id

/-! ### The list -/

/-- What becomes of the attribute list of a bound tag and what is reported about it, `k` being the
place of the first entry that is rejected. -/
structure BoundUpTo (tag : String) (helpers : List TagHelper) (options : Options)
    (as as' : List Attribute) (ds : List Diagnostic) (k : ℕ) : Prop where
  length_eq : as'.length = as.length
  /-- The entries before `k`, one by one. -/
  bound : List.Forall₂ (BoundTo helpers) (as.take k) (as'.take k)
  /-- From `k` on nothing is changed. -/
  kept : as'.drop k = as.drop k
  /-- There is at most one diagnostic for each entry before `k` and one for that at `k`, in the
  order of the entries. -/
  reported : ∃ (found : List (Option Diagnostic)) (final : Option Diagnostic),
    List.Forall₂ (Reported tag helpers options) (as.take k) found ∧
    Option.Rel (RejectedAs tag) as[k]? final ∧ ds = found.reduceOption ++ final.toList

theorem boundUpTo_nil : BoundUpTo tag helpers options [] [] [] 0 :=
  ⟨rfl, .nil, rfl, [], none, .nil, .none, rfl⟩

theorem boundUpTo_stop {d : Diagnostic} (h : RejectedAs tag a d) (as : List Attribute) :
    BoundUpTo tag helpers options (a :: as) (a :: as) [d] 0 :=
  ⟨rfl, .nil, rfl, [], some d, .nil, .some h, rfl⟩

theorem BoundUpTo.cons {d : Option Diagnostic} (hbound : BoundTo helpers a a')
    (hreported : Reported tag helpers options a d)
    (h : BoundUpTo tag helpers options as as' ds k) :
    BoundUpTo tag helpers options (a :: as) (a' :: as') (d.toList ++ ds) (k + 1) where
  length_eq := by rw [List.length_cons, List.length_cons, h.length_eq]
  bound := .cons hbound h.bound
  kept := h.kept
  reported := by
    obtain ⟨found, final, hfound, hfinal, rfl⟩ := h.reported
    refine ⟨d :: found, final, .cons hreported hfound, hfinal, ?_⟩
    cases d with
    | none => rw [List.reduceOption_cons_of_none, Option.toList_none, List.nil_append]
    | some d =>
      rw [List.reduceOption_cons_of_some, Option.toList_some, List.singleton_append,
        List.cons_append]

/-- **What becomes of the attribute list of a bound tag.** Each entry before the first that is
rejected is bound by itself, with at most one diagnostic of its own. Then comes the diagnostic of
the entry that is rejected, if there is one, and from it on all entries stay as they are. -/
theorem boundUpTo_bindAll (tag : String) (helpers : List TagHelper) (options : Options)
    (as : List Attribute) :
    BoundUpTo tag helpers options as (bindAll tag helpers as) (problems tag helpers options as)
      (as.findIdx isRejected) := by
  induction as with
  | nil => exact boundUpTo_nil
  | cons a as ih =>
    rw [bindAll, problems, List.findIdx_cons]
    cases hrejected : a.isRejected with
    | true =>
      obtain ⟨p, hp⟩ := exists_rejection? hrejected tag
      rw [hp]
      exact boundUpTo_stop (rejectedAs_of_rejection? hp) as
    | false =>
      rw [rejection?_eq_none hrejected tag]
      exact ih.cons (boundTo_bind helpers a) (reported_problem? tag helpers options a)

end Attribute

namespace Sample

/-- The expression `@x`. -/
def hiddenCode : Node := .implicit (some ⟨"@", ⟨0, 1⟩⟩) [.code ⟨"x", ⟨1, 2⟩⟩] ⟨0, 2⟩

/-- An attribute without quotes. -/
def bare (name : String) (value : List Node) (binding : Option AttributeBinding) : Attribute :=
  .valued ⟨some (literal " "), literal name⟩ ⟨literal "=", none, none⟩ value binding .stub

/-- The attributes `count=1+@(n) title=1+@(n) count @x count=1`. -/
def mixedList : List Attribute :=
  [bare "count" [.text (literal "1+"), expression] none,
    bare "title" [.text (literal "1+"), expression] none,
    .minimized ⟨some (literal " "), ⟨"count", ⟨5, 6⟩⟩⟩ none .stub,
    .misc [hiddenCode] ⟨7, 8⟩,
    bare "count" [.text (literal "1")] none]

/-- The same attributes on a bound tag: the first value is code, the second is kept, and from the
expression between the attributes on nothing is bound. -/
def mixedListBound : List Attribute :=
  [bare "count" [.code (literal "1+"),
      .implicit none [.code (literal "("), .code (literal "n"), .code (literal ")")] .stub]
      (some ⟨.double, .nonString, false⟩),
    bare "title" [.text (literal "1+"), expression] (some ⟨.double, .unbound, false⟩),
    .minimized ⟨some (literal " "), ⟨"count", ⟨5, 6⟩⟩⟩
      (some ⟨.minimized, .nonString, false⟩) .stub,
    .misc [hiddenCode] ⟨7, 8⟩,
    bare "count" [.text (literal "1")] none]

end Sample

theorem Attribute.boundUpTo_bindAll_mixedList :
    BoundUpTo "input" [Sample.counter] {} Sample.mixedList Sample.mixedListBound
      [(Problem.emptyBoundAttribute "count" "input" "int").report ⟨5, 6⟩,
        (Problem.codeInTag "input").report ⟨7, 8⟩] 3 := by
  have hproblems : problems "input" [Sample.counter] {} Sample.mixedList =
      [(Problem.emptyBoundAttribute "count" "input" "int").report ⟨5, 6⟩,
        (Problem.codeInTag "input").report ⟨7, 8⟩] := by decide +kernel
  have hfirst : Sample.mixedList.findIdx isRejected = 3 := by decide
  have hbound : bindAll "input" [Sample.counter] Sample.mixedList = Sample.mixedListBound := rfl
  rw [← hproblems, ← hfirst, ← hbound]
  exact boundUpTo_bindAll "input" [Sample.counter] {} Sample.mixedList

/-! ### Lists that are accepted -/

namespace Attribute

variable {tag : String} {helpers : List TagHelper} {options : Options} {a : Attribute}
  {as : List Attribute}

/-- That no entry of an attribute list is reported as one that does not belong there. -/
def Accepts (tag : String) (helpers : List TagHelper) (options : Options) (as : List Attribute) :
    Prop :=
  ∀ d ∈ problems tag helpers options as,
    d.code ≠ .codeInTag ∧ d.code ≠ .malformedAttributeList

theorem RejectedAs.code_eq {d : Diagnostic} (h : RejectedAs tag a d) :
    d.code = .codeInTag ∨ d.code = .malformedAttributeList := by
  cases h with
  | code hcode => exact .inl rfl
  | markup hcode hmarkup => exact .inr rfl

theorem Reported.code_eq {d : Diagnostic} (h : Reported tag helpers options a (some d)) :
    d.code = .missingIndexerKey ∨ d.code = .emptyBoundAttribute := by
  cases h with
  | key hname hkey => exact .inl rfl
  | value hname hc hvalue => exact .inr rfl

/-- Nothing is reported about an attribute list but what an entry lacks or that it is rejected. -/
theorem code_of_mem_problems {d : Diagnostic} (h : d ∈ problems tag helpers options as) :
    (d.code = .missingIndexerKey ∨ d.code = .emptyBoundAttribute) ∨
      (d.code = .codeInTag ∨ d.code = .malformedAttributeList) ∧
        ∃ a ∈ as, a.isRejected = true := by
  induction as with
  | nil => cases h
  | cons a as ih =>
    rw [problems] at h
    cases hrejection : a.rejection? tag with
    | some p =>
      rw [hrejection, List.mem_singleton] at h
      subst h
      refine .inr ⟨(rejectedAs_of_rejection? hrejection).code_eq, a, List.mem_cons_self, ?_⟩
      rw [← isSome_rejection? tag, hrejection, Option.isSome_some]
    | none =>
      rw [hrejection, List.mem_append] at h
      rcases h with hd | hd
      · have hreported := reported_problem? tag helpers options a
        rw [Option.mem_toList.1 hd] at hreported
        exact .inl hreported.code_eq
      · rcases ih hd with hcode | ⟨hcode, b, hb, hrejected⟩
        · exact .inl hcode
        · exact .inr ⟨hcode, b, List.mem_cons_of_mem a hb, hrejected⟩

theorem exists_problem_of_isRejected (ha : a ∈ as) (hrejected : a.isRejected = true)
    (tag : String) (helpers : List TagHelper) (options : Options) :
    ∃ d ∈ problems tag helpers options as,
      d.code = .codeInTag ∨ d.code = .malformedAttributeList := by
  induction as with
  | nil => cases ha
  | cons b as ih =>
    rw [problems]
    cases hrejection : b.rejection? tag with
    | some p =>
      exact ⟨_, List.mem_singleton_self _, (rejectedAs_of_rejection? hrejection).code_eq⟩
    | none =>
      rcases List.mem_cons.1 ha with rfl | ha
      · rw [← isSome_rejection? tag, hrejection] at hrejected
        cases hrejected
      · obtain ⟨d, hd, hcode⟩ := ih ha
        exact ⟨d, List.mem_append_right _ hd, hcode⟩

theorem accepts_iff_forall_isRejected :
    Accepts tag helpers options as ↔ ∀ a ∈ as, a.isRejected = false := by
  constructor
  · intro haccepts a ha
    by_contra hrejected
    rw [Bool.not_eq_false] at hrejected
    obtain ⟨d, hd, hcode | hcode⟩ := exists_problem_of_isRejected ha hrejected tag helpers options
    · exact (haccepts d hd).1 hcode
    · exact (haccepts d hd).2 hcode
  · intro hfine d hd
    rcases code_of_mem_problems hd with (hcode | hcode) | ⟨-, a, ha, hrejected⟩
    · rw [hcode]; decide
    · rw [hcode]; decide
    · rw [hfine a ha] at hrejected
      cases hrejected

theorem isRejected_misc_eq_false_iff {children : List Node} {span : Span} :
    (misc children span).isRejected = false ↔
      (∀ node ∈ children, node.isCode = false) ∧
        ∀ node, InBlocks node children → node.isMarkup = false := by
  rw [isRejected, Bool.or_eq_false_iff]
  refine and_congr ?_ ?_
  · simp only [List.any_eq_false, Bool.not_eq_true]
  · rw [← Bool.not_eq_true, anyStray_iff]
    simp only [not_exists, not_and, Bool.not_eq_true]

/-- **Which attribute lists are accepted.** Those in which no entry between attributes is code, nor
holds markup at any depth of blocks. Code further down is not looked for: nothing but blank text and
blocks of it stands between the attributes of a list if and only if the list is accepted and no
block there holds code. -/
theorem accepts_iff (tag : String) (helpers : List TagHelper) (options : Options)
    (as : List Attribute) :
    (Accepts tag helpers options as ↔
      ∀ children span, misc children span ∈ as →
        (∀ node ∈ children, node.isCode = false) ∧
          ∀ node, InBlocks node children → node.isMarkup = false) ∧
    ((∀ children span, misc children span ∈ as →
        ∀ node, InBlocks node children → node.isCode = false ∧ node.isMarkup = false) ↔
      Accepts tag helpers options as ∧
        ∀ children span, misc children span ∈ as →
          ∀ inner s, InBlocks (.block inner s) children → ∀ node ∈ inner, node.isCode = false) := by
  have haccepts : Accepts tag helpers options as ↔
      ∀ children span, misc children span ∈ as →
        (∀ node ∈ children, node.isCode = false) ∧
          ∀ node, InBlocks node children → node.isMarkup = false := by
    rw [accepts_iff_forall_isRejected]
    constructor
    · intro h children span hmem
      exact isRejected_misc_eq_false_iff.1 (h _ hmem)
    · intro h a ha
      cases a with
      | misc children span => exact isRejected_misc_eq_false_iff.2 (h children span ha)
      | _ => rfl
  refine ⟨haccepts, ?_⟩
  rw [haccepts]
  constructor
  · intro h
    refine ⟨fun children span hmem => ⟨fun node hnode => ?_, fun node hin => ?_⟩, ?_⟩
    · exact (h children span hmem node (.here hnode)).1
    · exact (h children span hmem node hin).2
    · intro children span hmem inner s hblock node hnode
      exact (h children span hmem node (inBlocks_iff_or.2 (.inr ⟨inner, s, hblock, hnode⟩))).1
  · rintro ⟨hfine, hhidden⟩ children span hmem node hin
    refine ⟨?_, (hfine children span hmem).2 node hin⟩
    rcases inBlocks_iff_or.1 hin with hnode | ⟨inner, s, hblock, hnode⟩
    · exact (hfine children span hmem).1 node hnode
    · exact hhidden children span hmem inner s hblock node hnode

end Attribute

namespace Sample

/-- An attribute list with an expression in a block. -/
def hidingList : List Attribute := [.misc [.block [hiddenCode] ⟨0, 2⟩] ⟨0, 2⟩]

end Sample

/-- Code in a block is accepted. -/
theorem Attribute.accepts_hidingList :
    Accepts "input" [Sample.counter] {} Sample.hidingList ∧
      ∃ children span, misc children span ∈ Sample.hidingList ∧
        InBlocks Sample.hiddenCode children ∧ Sample.hiddenCode.isCode = true := by
  refine ⟨?_, _, _, List.mem_singleton_self _, ?_, rfl⟩
  · have h : problems "input" [Sample.counter] {} Sample.hidingList = [] := by decide
    intro d hd
    rw [h] at hd
    cases hd
  · exact .block (List.mem_singleton_self _) (.here (List.mem_singleton_self _))

end TagHelpers
