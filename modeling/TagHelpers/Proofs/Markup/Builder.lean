import TagHelpers.Markup.Builder
import TagHelpers.Proofs.Span

/-!
# Trees that are built

* `IsRow`: the literals of a call stand one behind the other, from the offset before it on.
* `Call`, `Piece`: the calls of a builder, and what they return.
* `perform_spec`: what a call returns ends before the offset after it and, but for statements around
  nodes, covers its parts.
* `Reached`: calls one after the other, each with pieces that calls before it have returned.
* `covers_iff`: so it is with all that is returned, as long as the offsets fit their 32 bits.
-/

namespace TagHelpers

/-- The literal of a text at an offset. -/
def Literal.placed (k : UInt32) (text : String) : Literal :=
  ⟨text, k, k + text.utf8ByteSize.toUInt32⟩

namespace Builder

/-! ### Literals in a row -/

/-- The number of bytes of some texts. -/
def bytes : List String → ℕ
  | [] => 0
  | text :: texts => text.utf8ByteSize + bytes texts

theorem bytes_append (texts texts' : List String) :
    bytes (texts ++ texts') = bytes texts + bytes texts' := by
  induction texts with
  | nil => rw [List.nil_append, bytes, Nat.zero_add]
  | cons text texts ih => rw [List.cons_append, bytes, ih, bytes, Nat.add_assoc]

/-- The literals of some texts, placed one behind the other. -/
def row : UInt32 → List String → List Literal
  | _, [] => []
  | k, text :: texts => .placed k text :: row (Literal.placed k text).span.stop texts

/-- The offset behind a row. -/
def rowEnd : UInt32 → List String → UInt32
  | k, [] => k
  | k, text :: texts => rowEnd (Literal.placed k text).span.stop texts

/-- Literals one behind the other, from an offset to another. -/
def IsRow : UInt32 → List Literal → UInt32 → Prop
  | k, [], k' => k = k'
  | k, l :: ls, k' => l.span.start = k ∧ k ≤ l.span.stop ∧ IsRow l.span.stop ls k'

variable {k k' : UInt32} {l l' : Literal} {ls : List Literal}

theorem toNat_stop_placed (text : String) (h : k.toNat + text.utf8ByteSize < UInt32.size) :
    (Literal.placed k text).span.stop.toNat = k.toNat + text.utf8ByteSize := by
  simp only [Literal.placed, UInt32.toNat_add, Nat.toUInt32, UInt32.toNat_ofNat', UInt32.size] at *
  omega

theorem toNat_rowEnd {texts : List String} (h : k.toNat + bytes texts < UInt32.size) :
    (rowEnd k texts).toNat = k.toNat + bytes texts := by
  induction texts generalizing k with
  | nil => rfl
  | cons text texts ih =>
    have hbytes : bytes (text :: texts) = text.utf8ByteSize + bytes texts := rfl
    have hstop := toNat_stop_placed (k := k) text (by omega)
    rw [rowEnd, ih (by omega), hstop, hbytes, Nat.add_assoc]

theorem isRow_row {texts : List String} (h : k.toNat + bytes texts < UInt32.size) :
    IsRow k (row k texts) (rowEnd k texts) := by
  induction texts generalizing k with
  | nil => rfl
  | cons text texts ih =>
    have hbytes : bytes (text :: texts) = text.utf8ByteSize + bytes texts := rfl
    have hstop := toNat_stop_placed (k := k) text (by omega)
    refine ⟨rfl, ?_, ih (by omega)⟩
    rw [UInt32.le_iff_toNat_le]
    omega

/-- The first literal of a row is not empty if its text is not. -/
theorem isEmpty_head {text : String} {texts : List String}
    (h : k.toNat + bytes (text :: texts) < UInt32.size) (ht : 0 < text.utf8ByteSize) :
    (Literal.placed k text).span.isEmpty = false := by
  have hbytes : bytes (text :: texts) = text.utf8ByteSize + bytes texts := rfl
  have hstop := toNat_stop_placed (k := k) text (by omega)
  rw [Span.isEmpty, beq_eq_false_iff_ne]
  intro heq
  have hnat : k.toNat = (Literal.placed k text).span.stop.toNat := congrArg UInt32.toNat heq
  omega

theorem IsRow.le (h : IsRow k ls k') : k ≤ k' := by
  induction ls generalizing k with
  | nil => exact UInt32.le_of_eq h
  | cons l ls ih => exact UInt32.le_trans h.2.1 (ih h.2.2)

theorem IsRow.mem (h : IsRow k ls k') (hl : l ∈ ls) : k ≤ l.span.start ∧ l.span.Before k' := by
  induction ls generalizing k with
  | nil => cases hl
  | cons x ls ih =>
    obtain ⟨rfl, hle, hrest⟩ := h
    rcases List.mem_cons.1 hl with rfl | hl
    · exact ⟨UInt32.le_refl _, hle, hrest.le⟩
    · obtain ⟨hstart, hbefore⟩ := ih hrest hl
      exact ⟨UInt32.le_trans hle hstart, hbefore⟩

/-- What is merged into the first literal of a row holds the row, if the last literal is among it
and the first one is not empty. -/
theorem IsRow.contains_foldl (h : IsRow k (l :: ls) k') (ss : List Span)
    (hl : l.span.isEmpty = false) (hl' : l' ∈ ls) (hlast : l'.span.stop = k')
    (hmem : l'.span ∈ ss) :
    (ss.foldl Span.merge l.span).Contains ⟨k, k'⟩ := by
  obtain ⟨rfl, hle, hrest⟩ := h
  have hstart := (hrest.mem hl').1
  have hne : l'.span ≠ .stub := by
    intro heq
    rw [heq] at hstart
    simp only [Span.isEmpty, beq_eq_false_iff_ne, Span.stub] at hl hstart
    grind
  exact .between (Span.contains_foldl_merge_left (Span.ne_stub_of_isEmpty hl) ss)
    (Span.contains_foldl_merge _ hmem hne) (UInt32.le_refl _) (UInt32.le_of_eq hlast.symm)

/-! ### Calls -/

/-- What a call of a builder returns. A start tag comes with the attributes that it was made
with. -/
inductive Piece where
  | literal (l : Literal)
  | node (n : Node)
  | entry (a : Attribute)
  | startTag (tag : StartTag) (attributes : List Attribute)
  | endTag (tag : EndTag)

/-- A call of a builder. -/
inductive Call where
  | literal (text : String)
  | text (text : String)
  | code (text : String)
  | transition
  | implicit (code : String)
  | explicit (code : String)
  | statement (code : String)
  | codeBlock (body : List Node)
  | directive (keyword value : String)
  | block (children : List Node)
  | valued (name : String) (quote : Option String) (value : List Node)
  | minimized (name : String)
  | misc (children : List Node)
  | startTag (name : String) (attributes : List Attribute) (selfClosing : Bool)
  | endTag (name : String)
  | assemble (tag : StartTag) (attributes : List Attribute) (children : List Node)
      (endTag : Option EndTag)
  | element (name : String) (attributes : List Attribute) (children : List Node)
  | selfClosing (name : String) (attributes : List Attribute)
  | startOnly (name : String) (attributes : List Attribute)

namespace Call

/-- Makes a call. -/
def perform : Call → Builder Piece
  | literal s => .literal <$> Builder.literal s
  | text s => .node <$> Builder.text s
  | code s => .node <$> Builder.code s
  | transition => .node <$> Builder.transition
  | implicit s => .node <$> Builder.implicit s
  | explicit s => .node <$> Builder.explicit s
  | statement s => .node <$> Builder.statement s
  | codeBlock body => .node <$> Builder.codeBlock body
  | directive keyword value => .node <$> Builder.directive keyword value
  | block children => .node <$> Builder.block children
  | valued name quote value => .entry <$> Builder.valued name quote value
  | minimized name => .entry <$> Builder.minimized name
  | misc children => .entry <$> Builder.misc children
  | startTag name attributes closes =>
    (.startTag · attributes) <$> Builder.startTag name attributes closes
  | endTag name => .endTag <$> Builder.endTag name
  | assemble tag attributes children stop =>
    .node <$> Builder.assemble tag attributes children stop
  | element name attributes children => .node <$> Builder.element name attributes children
  | selfClosing name attributes => .node <$> Builder.selfClosing name attributes
  | startOnly name attributes => .node <$> Builder.startOnly name attributes

/-- The texts that a call places. -/
def texts : Call → List String
  | literal s | text s | code s => [s]
  | transition => ["@"]
  | implicit s => ["@", s]
  | explicit s => ["@", "(", s, ")"]
  | statement s => ["@", "\x7b", s, "\x7d"]
  | codeBlock _ => ["@", "\x7b", "\x7d"]
  | directive keyword value => ["@", keyword, " " ++ value]
  | block _ | misc _ | assemble .. => []
  | valued name quote _ => [" ", name, "="] ++ quote.toList ++ quote.toList
  | minimized name => [" ", name]
  | startTag name _ closes => ["<", name, if closes then " />" else ">"]
  | endTag name => ["</", name, ">"]
  | element name _ _ => ["<", name, ">", "</", name, ">"]
  | selfClosing name _ => ["<", name, " />"]
  | startOnly name _ => ["<", name, ">"]

/-- The pieces that are passed to a call. -/
def arguments : Call → List Piece
  | codeBlock nodes | block nodes | valued _ _ nodes | misc nodes => nodes.map .node
  | startTag _ attributes _ | selfClosing _ attributes | startOnly _ attributes =>
    attributes.map .entry
  | assemble tag attributes children stop =>
    .startTag tag attributes :: children.map .node ++ stop.toList.map .endTag
  | element _ attributes children => attributes.map .entry ++ children.map .node
  | _ => []

theorem perform_snd (call : Call) (k : UInt32) : (call.perform k).2 = rowEnd k call.texts := by
  cases call with
  | valued name quote value => cases quote <;> rfl
  | _ => rfl

end Call

/-! ### Covering -/

namespace Piece

/-- The span of a piece. -/
def span : Piece → Span
  | literal l => l.span
  | node n => n.span
  | entry a => a.span
  | startTag tag _ => tag.span
  | endTag tag => tag.span

/-- The literals of a piece. Those of the nodes and attributes in it are not among them. -/
def literals : Piece → List Literal
  | literal l | node (.text l) | node (.transition l) | node (.code l) => [l]
  | node (.directive d) => [d.transition, d.keyword, d.value]
  | node (.block ..) | entry (.misc ..) => []
  | node (.implicit transition _ _) => transition.toList
  | node (.explicit d _ _) | node (.statement d _ _) => [d.transition, d.opening, d.closing]
  | node (.element tag _ _ stop _ _) =>
    [tag.opening, tag.name, tag.closing] ++
      stop.toList.flatMap fun s => [s.opening, s.name, s.closing]
  | entry (.valued head frame _ _ _) =>
    head.lead.toList ++ [head.name, frame.equals] ++ frame.opening.toList ++ frame.closing.toList
  | entry (.minimized head _ _) => head.lead.toList ++ [head.name]
  | startTag tag _ => [tag.opening, tag.name, tag.closing]
  | endTag tag => [tag.opening, tag.name, tag.closing]

/-- The spans of the nodes, attributes and tags in a piece. -/
def inner : Piece → List Span
  | node (.block nodes _) | node (.implicit _ nodes _) | node (.explicit _ nodes _)
  | node (.statement _ nodes _) | entry (.valued _ _ nodes _ _) | entry (.misc nodes _) =>
    nodes.map Node.span
  | node (.element tag attributes children stop _ _) =>
    tag.span :: attributes.map Attribute.span ++ children.map Node.span ++
      stop.toList.map EndTag.span
  | startTag _ attributes => attributes.map Attribute.span
  | _ => []

/-- A piece covers its literals, and what is in it unless it is empty. -/
structure Covers (piece : Piece) : Prop where
  literals : ∀ l ∈ piece.literals, piece.span.Contains l.span
  inner : ∀ s ∈ piece.inner, s.isEmpty = false → piece.span.Contains s

/-- Whether a piece is a tag. -/
def isTag : Piece → Bool
  | startTag .. | endTag _ => true
  | _ => false

/-- What is known of every piece that has been returned before an offset. -/
structure Sound (k : UInt32) (piece : Piece) : Prop where
  before : piece.span.Before k
  tag : piece.isTag = true → piece.span.isEmpty = false ∧ piece.Covers

theorem Sound.mono {piece : Piece} (h : piece.Sound k) (hk : k ≤ k') : piece.Sound k' :=
  ⟨h.before.mono hk, h.tag⟩

end Piece

variable {piece : Piece}

/-- A piece whose span holds a row covers the literals of the row. -/
theorem IsRow.covers (h : IsRow k ls k') (hspan : piece.span.Contains ⟨k, k'⟩)
    (hl : ∀ l ∈ piece.literals, l ∈ ls)
    (hinner : ∀ s ∈ piece.inner, s.isEmpty = false → piece.span.Contains s) : piece.Covers := by
  refine ⟨fun l hmem => ?_, hinner⟩
  obtain ⟨hstart, hbefore⟩ := h.mem (hl l hmem)
  exact hspan.trans ⟨hstart, hbefore.2⟩

/-- A piece that is made of a row and of pieces before it. Its span is merged from the first literal
and others, the last literal among them. -/
theorem IsRow.spec (h : IsRow k (l :: ls) k') (l' : Literal) (ss : List Span)
    (hl : l.span.isEmpty = false) (hl' : l' ∈ ls) (hlast : l'.span.stop = k') (hmem : l'.span ∈ ss)
    (hss : ∀ s ∈ ss, s.Before k ∨ ∃ x ∈ ls, x.span = s)
    (hspan : piece.span = ss.foldl Span.merge l.span) (hlit : ∀ x ∈ piece.literals, x ∈ l :: ls)
    (hinner : ∀ s ∈ piece.inner, s ∈ ss ∨ ∃ x ∈ ls, x.span = s) :
    piece.Sound k' ∧ piece.Covers := by
  have hrange := h.contains_foldl ss hl hl' hlast hmem
  rw [← hspan] at hrange
  have hcovers : piece.Covers := by
    refine h.covers hrange hlit fun s hs hne => ?_
    rcases hinner s hs with hs | ⟨x, hx, rfl⟩
    · rw [hspan]
      exact Span.contains_foldl_merge _ hs (Span.ne_stub_of_isEmpty hne)
    · obtain ⟨hstart, hbefore⟩ := h.mem (List.mem_cons_of_mem l hx)
      exact hrange.trans ⟨hstart, hbefore.2⟩
  refine ⟨⟨?_, fun _ => ⟨?_, hcovers⟩⟩, hcovers⟩
  · rw [hspan]
    refine Span.before_foldl_merge (h.mem List.mem_cons_self).2 fun s hs => ?_
    rcases hss s hs with hs | ⟨x, hx, rfl⟩
    · exact hs.mono h.le
    · exact (h.mem (List.mem_cons_of_mem l hx)).2
  · -- the first literal is within the span, and it is not empty
    obtain ⟨rfl, hle, hrest⟩ := h
    have hstop := hrest.le
    unfold Span.isEmpty Span.Contains at *
    grind

/-- A piece that is made of a row alone, with a span from the first literal to the last one. -/
theorem IsRow.spec_ends (h : IsRow k (l :: ls) k') (l' : Literal) (hl : l.span.isEmpty = false)
    (hl' : l' ∈ ls) (hlast : l'.span.stop = k') (hspan : piece.span = l.span.merge l'.span)
    (hlit : ∀ x ∈ piece.literals, x ∈ l :: ls)
    (hinner : ∀ s ∈ piece.inner, ∃ x ∈ ls, x.span = s) : piece.Sound k' ∧ piece.Covers := by
  refine h.spec l' [l'.span] hl hl' hlast List.mem_cons_self (fun s hs => ?_) hspan hlit
    fun s hs => .inr (hinner s hs)
  exact .inr ⟨l', hl', (List.mem_singleton.1 hs).symm⟩

/-- Code between brackets. -/
theorem IsRow.spec_bracketed {l₁ l₂ l₃ l₄ : Literal} (h : IsRow k [l₁, l₂, l₃, l₄] k')
    (hl : l₁.span.isEmpty = false) (hlast : l₄.span.stop = k')
    (hspan : piece.span = l₁.span.merge l₄.span) (hlit : piece.literals = [l₁, l₂, l₄])
    (hinner : piece.inner = [l₃.span]) : piece.Sound k' ∧ piece.Covers := by
  refine h.spec_ends l₄ hl (by simp) hlast hspan ?_ ?_
  · rw [hlit]
    simp
  · rw [hinner]
    exact fun s hs => ⟨l₃, by simp, (List.mem_singleton.1 hs).symm⟩

/-! ### What a call returns -/

variable {name : String} {attributes : List Attribute} {nodes : List Node}

theorem startTag_spec (closes : Bool)
    (h : k.toNat + bytes (Call.startTag name attributes closes).texts < UInt32.size)
    (hargs : ∀ a ∈ attributes, a.span.Before k) :
    Piece.Sound (startTag name attributes closes k).2
      (.startTag (startTag name attributes closes k).1 attributes) := by
  let tag := (startTag name attributes closes k).1
  have hrow : IsRow k [tag.opening, tag.name, tag.closing] (startTag name attributes closes k).2 :=
    isRow_row h
  refine (hrow.spec tag.closing (tag.closing.span :: attributes.map Attribute.span)
    (isEmpty_head h (by decide)) (by simp) rfl List.mem_cons_self ?_ rfl ?_ ?_).1
  · intro s hs
    rcases List.mem_cons.1 hs with rfl | hs
    · exact .inr ⟨tag.closing, by simp, rfl⟩
    · obtain ⟨a, ha, rfl⟩ := List.mem_map.1 hs
      exact .inl (hargs a ha)
  · exact fun x hx => hx
  · exact fun s hs => .inl (List.mem_cons_of_mem _ hs)

theorem endTag_spec (h : k.toNat + bytes (Call.endTag name).texts < UInt32.size) :
    Piece.Sound (endTag name k).2 (.endTag (endTag name k).1) := by
  let tag := (endTag name k).1
  have hrow : IsRow k [tag.opening, tag.name, tag.closing] (endTag name k).2 := isRow_row h
  have hspec : Piece.Sound (endTag name k).2 (.endTag tag) ∧ (Piece.endTag tag).Covers :=
    hrow.spec_ends tag.closing (isEmpty_head h (by decide)) (by simp) rfl rfl (fun x hx => hx)
      (List.forall_mem_nil _)
  exact hspec.1

/-- An element covers its tags, and so what they cover. -/
theorem assemble_spec {tag : StartTag} {stop : Option EndTag}
    (htag : Piece.Sound k (.startTag tag attributes)) (hnodes : ∀ n ∈ nodes, n.span.Before k)
    (hstop : ∀ s ∈ stop, Piece.Sound k (.endTag s)) :
    Piece.Sound k (.node (assemble tag attributes nodes stop k).1) ∧
      (Piece.node (assemble tag attributes nodes stop k).1).Covers := by
  obtain ⟨hne, hcovers⟩ := htag.tag rfl
  let ss := nodes.map Node.span ++ stop.toList.map EndTag.span
  let σ := (assemble tag attributes nodes stop k).1.span
  have hspan : σ = ss.foldl Span.merge tag.span := by
    rw [List.foldl_append]
    cases stop <;> rfl
  have hstart : σ.Contains tag.span := by
    rw [hspan]
    exact Span.contains_foldl_merge_left (Span.ne_stub_of_isEmpty hne) ss
  have hmerged : ∀ s ∈ ss, s.isEmpty = false → σ.Contains s := by
    intro s hs hs'
    rw [hspan]
    exact Span.contains_foldl_merge _ hs (Span.ne_stub_of_isEmpty hs')
  have hend : ∀ s ∈ stop, σ.Contains s.span := by
    intro s hs
    refine hmerged _ ?_ ((hstop s hs).tag rfl).1
    exact List.mem_append_right _ (List.mem_map_of_mem (Option.mem_toList.2 hs))
  refine ⟨⟨?_, nofun⟩, fun l hl => ?_, fun s hs hs' => ?_⟩
  · show σ.Before k
    rw [hspan]
    refine Span.before_foldl_merge htag.before fun s hs => ?_
    rcases List.mem_append.1 hs with hs | hs
    · obtain ⟨n, hn, rfl⟩ := List.mem_map.1 hs
      exact hnodes n hn
    · obtain ⟨e, he, rfl⟩ := List.mem_map.1 hs
      exact (hstop e (Option.mem_toList.1 he)).before
  · rcases List.mem_append.1 hl with hl | hl
    · exact hstart.trans (hcovers.literals l hl)
    · obtain ⟨s, hs, hl⟩ := List.mem_flatMap.1 hl
      have hs := Option.mem_toList.1 hs
      exact (hend s hs).trans (((hstop s hs).tag rfl).2.literals l hl)
  · rcases List.mem_append.1 hs with hs | hs
    · rcases List.mem_append.1 hs with hs | hs
      · rcases List.mem_cons.1 hs with rfl | hs
        · exact hstart
        · exact hstart.trans (hcovers.inner s hs hs')
      · exact hmerged s (List.mem_append_left _ hs) hs'
    · exact hmerged s (List.mem_append_right _ hs) hs'

theorem element_spec (h : k.toNat + bytes (Call.element name attributes nodes).texts < UInt32.size)
    (hattributes : ∀ a ∈ attributes, a.span.Before k) (hnodes : ∀ n ∈ nodes, n.span.Before k) :
    Piece.Sound (element name attributes nodes k).2 (.node (element name attributes nodes k).1) ∧
      (Piece.node (element name attributes nodes k).1).Covers := by
  have hbytes : bytes (Call.element name attributes nodes).texts =
      bytes (Call.startTag name attributes false).texts + bytes (Call.endTag name).texts :=
    bytes_append (Call.startTag name attributes false).texts (Call.endTag name).texts
  -- the end tag starts where the start tag stops
  let k₁ := (startTag name attributes false k).2
  have hk₁ : k₁ = rowEnd k (Call.startTag name attributes false).texts := rfl
  have hroom : k.toNat + bytes (Call.startTag name attributes false).texts < UInt32.size := by omega
  have hroom₁ : k₁.toNat + bytes (Call.endTag name).texts < UInt32.size := by
    rw [hk₁, toNat_rowEnd hroom]
    omega
  have hle : k ≤ k₁ := (isRow_row hroom).le
  have hle₁ : k₁ ≤ (element name attributes nodes k).2 := (isRow_row hroom₁).le
  refine assemble_spec ((startTag_spec false hroom hattributes).mono hle₁) (fun n hn => ?_) ?_
  · exact (hnodes n hn).mono (UInt32.le_trans hle hle₁)
  · rintro s ⟨⟩
    exact endTag_spec hroom₁

theorem valued_spec {quote : Option String}
    (h : k.toNat + bytes (Call.valued name quote nodes).texts < UInt32.size)
    (hnodes : ∀ n ∈ nodes, n.span.Before k) :
    Piece.Sound (valued name quote nodes k).2 (.entry (valued name quote nodes k).1) ∧
      (Piece.entry (valued name quote nodes k).1).Covers := by
  have hvalue : ∀ s ∈ nodes.map Node.span, s.Before k := List.forall_mem_map.2 hnodes
  have hfirst := isEmpty_head h (by decide)
  let lead := Literal.placed k " "
  let label := Literal.placed lead.span.stop name
  let equals := Literal.placed label.span.stop "="
  cases quote with
  | none =>
    have hrow : IsRow k [lead, label, equals] equals.span.stop := isRow_row h
    refine hrow.spec equals (equals.span :: nodes.map Node.span) hfirst (by simp) rfl
      List.mem_cons_self (fun s hs => ?_) rfl (fun x hx => hx) fun s hs => ?_
    · rcases List.mem_cons.1 hs with rfl | hs
      · exact .inr ⟨equals, by simp, rfl⟩
      · exact .inl (hvalue s hs)
    · exact .inl (List.mem_cons_of_mem _ hs)
  | some quote =>
    let opening := Literal.placed equals.span.stop quote
    let closing := Literal.placed opening.span.stop quote
    have hrow : IsRow k [lead, label, equals, opening, closing] closing.span.stop := isRow_row h
    have hspan : (valued name (some quote) nodes k).1.span =
        (equals.span :: nodes.map Node.span ++ [closing.span]).foldl Span.merge lead.span := by
      rw [List.foldl_append]
      rfl
    refine hrow.spec closing (equals.span :: nodes.map Node.span ++ [closing.span])
      hfirst (by simp) rfl (by simp) (fun s hs => ?_) hspan (fun x hx => hx) fun s hs => ?_
    · rcases List.mem_append.1 hs with hs | hs
      · rcases List.mem_cons.1 hs with rfl | hs
        · exact .inr ⟨equals, by simp, rfl⟩
        · exact .inl (hvalue s hs)
      · exact .inr ⟨closing, by simp, (List.mem_singleton.1 hs).symm⟩
    · exact .inl (List.mem_append_left _ (List.mem_cons_of_mem _ hs))

/-- Statements around nodes cover their literals, but a node only if it is empty. -/
theorem codeBlock_spec (h : k.toNat + bytes (Call.codeBlock nodes).texts < UInt32.size)
    (hnodes : ∀ n ∈ nodes, n.span.Before k) :
    Piece.Sound (codeBlock nodes k).2 (.node (codeBlock nodes k).1) ∧
      ((Piece.node (codeBlock nodes k).1).Covers ↔ ∀ n ∈ nodes, n.span.isEmpty = true) := by
  let transition := Literal.placed k "@"
  let opening := Literal.placed transition.span.stop "\x7b"
  let closing := Literal.placed opening.span.stop "\x7d"
  have hrow : IsRow k [transition, opening, closing] closing.span.stop := isRow_row h
  let σ := transition.span.merge closing.span
  have hrange : σ.Contains ⟨k, closing.span.stop⟩ :=
    hrow.contains_foldl [closing.span] (isEmpty_head h (by decide)) (by simp) rfl
      List.mem_cons_self
  have hbefore : σ.Before closing.span.stop :=
    Span.before_merge (hrow.mem (by simp)).2 (hrow.mem (by simp)).2
  refine ⟨⟨hbefore, nofun⟩, fun hcovers n hn => ?_, fun hempty => ?_⟩
  · -- the nodes were built before, so a span that starts at `k` holds none of their bytes
    have hstart : k ≤ σ.start :=
      Span.le_start_merge (UInt32.le_refl k) (hrow.mem (l := closing) (by simp)).1
    by_contra hne
    have hn' := hcovers.inner _ (List.mem_map_of_mem hn) (by simpa using hne)
    obtain ⟨hle, hstop⟩ := hnodes n hn
    have hnode : σ.start ≤ n.span.start := hn'.1
    unfold Span.isEmpty at hne
    grind
  · refine hrow.covers hrange (fun x hx => hx) fun s hs hne => ?_
    obtain ⟨n, hn, rfl⟩ := List.mem_map.1 hs
    rw [hempty n hn] at hne
    cases hne

/-- A literal alone. -/
theorem literal_spec {text : String} (h : k.toNat + bytes [text] < UInt32.size)
    (hspan : piece.span = (Literal.placed k text).span)
    (hlit : piece.literals = [Literal.placed k text]) (hinner : piece.inner = [])
    (htag : piece.isTag = false) :
    piece.Sound (Literal.placed k text).span.stop ∧ piece.Covers := by
  have hrow : IsRow k [Literal.placed k text] (Literal.placed k text).span.stop := isRow_row h
  refine ⟨⟨?_, ?_⟩, ?_, ?_⟩
  · rw [hspan]
    exact (hrow.mem List.mem_cons_self).2
  · rw [htag]
    nofun
  · rw [hlit, hspan]
    intro l hl
    rw [List.mem_singleton.1 hl]
    exact Span.Contains.refl _
  · rw [hinner]
    exact List.forall_mem_nil _

/-- Nodes side by side. -/
theorem cover_spec (hspan : piece.span = .cover (nodes.map Node.span))
    (hlit : piece.literals = []) (hinner : piece.inner = nodes.map Node.span)
    (htag : piece.isTag = false) (hnodes : ∀ n ∈ nodes, n.span.Before k) :
    piece.Sound k ∧ piece.Covers := by
  refine ⟨⟨?_, ?_⟩, ?_, ?_⟩
  · rw [hspan]
    refine Span.before_foldl_merge ⟨UInt32.le_refl _, UInt32.zero_le⟩ fun s hs => ?_
    obtain ⟨n, hn, rfl⟩ := List.mem_map.1 hs
    exact hnodes n hn
  · rw [htag]
    nofun
  · rw [hlit]
    exact List.forall_mem_nil _
  · rw [hinner, hspan]
    intro s hs hne
    exact Span.contains_foldl_merge _ hs (Span.ne_stub_of_isEmpty hne)

/-- **What a call returns**, with pieces that were returned before: it ends before the offset after
the call, and it covers its parts unless it is a statement around a node that is not empty. -/
theorem perform_spec (call : Call) (h : k.toNat + bytes call.texts < UInt32.size)
    (hargs : ∀ a ∈ call.arguments, a.Sound k) :
    (call.perform k).1.Sound (call.perform k).2 ∧
      ((call.perform k).1.Covers ↔
        ∀ body, call = .codeBlock body → ∀ n ∈ body, n.span.isEmpty = true) := by
  have hnodes : ∀ {nodes : List Node}, nodes.map Piece.node ⊆ call.arguments →
      ∀ n ∈ nodes, n.span.Before k := fun hsub n hn =>
    (hargs _ (hsub (List.mem_map_of_mem hn))).before
  have hattributes : ∀ {attributes : List Attribute}, attributes.map Piece.entry ⊆ call.arguments →
      ∀ a ∈ attributes, a.span.Before k := fun hsub a ha =>
    (hargs _ (hsub (List.mem_map_of_mem ha))).before
  by_cases hblock : ∃ body, call = .codeBlock body
  · obtain ⟨body, rfl⟩ := hblock
    obtain ⟨hsound, hiff⟩ := codeBlock_spec h (hnodes (List.Subset.refl _))
    exact ⟨hsound, hiff.trans ⟨fun hall b hb => by cases hb; exact hall, fun hall => hall body rfl⟩⟩
  · suffices hspec : (call.perform k).1.Sound (call.perform k).2 ∧ (call.perform k).1.Covers from
      ⟨hspec.1, iff_of_true hspec.2 fun body hb => absurd ⟨body, hb⟩ hblock⟩
    cases call with
    | literal s => exact literal_spec h rfl rfl rfl rfl
    | text s => exact literal_spec h rfl rfl rfl rfl
    | code s => exact literal_spec h rfl rfl rfl rfl
    | transition => exact literal_spec h rfl rfl rfl rfl
    | implicit s =>
      refine (isRow_row h).spec_ends _ (isEmpty_head h (by decide)) List.mem_cons_self rfl rfl ?_ ?_
      · exact fun x hx => List.mem_cons.2 (.inl (List.mem_singleton.1 hx))
      · exact fun s hs => ⟨_, List.mem_cons_self, (List.mem_singleton.1 hs).symm⟩
    | explicit s => exact (isRow_row h).spec_bracketed (isEmpty_head h (by decide)) rfl rfl rfl rfl
    | statement s => exact (isRow_row h).spec_bracketed (isEmpty_head h (by decide)) rfl rfl rfl rfl
    | codeBlock body => exact absurd ⟨body, rfl⟩ hblock
    | directive keyword value =>
      exact (isRow_row h).spec_ends _ (isEmpty_head h (by decide))
        (List.mem_cons_of_mem _ List.mem_cons_self) rfl rfl (fun x hx => hx) (List.forall_mem_nil _)
    | block children => exact cover_spec rfl rfl rfl rfl (hnodes (List.Subset.refl _))
    | valued name quote value => exact valued_spec h (hnodes (List.Subset.refl _))
    | minimized name =>
      exact (isRow_row h).spec_ends _ (isEmpty_head h (by decide)) List.mem_cons_self rfl rfl
        (fun x hx => hx) (List.forall_mem_nil _)
    | misc children => exact cover_spec rfl rfl rfl rfl (hnodes (List.Subset.refl _))
    | startTag name attributes closes =>
      have hs := startTag_spec closes h (hattributes (List.Subset.refl _))
      exact ⟨hs, (hs.tag rfl).2⟩
    | endTag name =>
      have hs := endTag_spec h
      exact ⟨hs, (hs.tag rfl).2⟩
    | assemble tag attributes children stop =>
      refine assemble_spec (hargs _ (by simp [Call.arguments])) (hnodes ?_) fun s hs => ?_
      · simp [Call.arguments]
      · exact hargs _ (by simp [Call.arguments, Option.mem_def.1 hs])
    | element name attributes children =>
      exact element_spec h (hattributes (List.subset_append_left _ _))
        (hnodes (List.subset_append_right _ _))
    | selfClosing name attributes =>
      exact assemble_spec (startTag_spec true h (hattributes (List.Subset.refl _)))
        (List.forall_mem_nil _) fun _ hs => absurd hs (Option.not_mem_none _)
    | startOnly name attributes =>
      exact assemble_spec (startTag_spec false h (hattributes (List.Subset.refl _)))
        (List.forall_mem_nil _) fun _ hs => absurd hs (Option.not_mem_none _)

/-! ### Calls one after the other -/

/-- The state of a builder: the offset of the next literal, and what each call has returned. -/
structure Session where
  offset : UInt32
  made : List (Call × Piece)

namespace Session

/-- Nothing has been built. -/
def start : Session :=
  ⟨0, []⟩

/-- Makes one more call. -/
def call (s : Session) (c : Call) : Session :=
  ⟨(c.perform s.offset).2, (c, (c.perform s.offset).1) :: s.made⟩

/-- The number of bytes of the literals that have been placed. -/
def size (s : Session) : ℕ :=
  bytes (s.made.flatMap fun m => m.1.texts)

theorem size_call (s : Session) (c : Call) : (s.call c).size = bytes c.texts + s.size :=
  bytes_append _ _

end Session

/-- The calls of one builder, in any order. What is passed to a call has been returned by a call
before it. -/
inductive Reached : Session → Prop
  | start : Reached .start
  | call {s : Session} (h : Reached s) (c : Call)
    (hargs : ∀ a ∈ c.arguments, a ∈ s.made.map (·.2)) : Reached (s.call c)

/-- What every call keeps, as long as offsets do not overflow. -/
structure Session.Inv (s : Session) : Prop where
  offset_eq : s.offset.toNat = s.size
  sound : ∀ m ∈ s.made, m.2.Sound s.offset
  covers : ∀ m ∈ s.made, m.2.Covers ↔
    ∀ body, m.1 = .codeBlock body → ∀ n ∈ body, n.span.isEmpty = true

theorem Session.Inv.call {s : Session} (h : s.Inv) (c : Call)
    (hsize : (s.call c).size < UInt32.size) (hargs : ∀ a ∈ c.arguments, a ∈ s.made.map (·.2)) :
    (s.call c).Inv := by
  have hstep := s.size_call c
  have hroom : s.offset.toNat + bytes c.texts < UInt32.size := by
    rw [h.offset_eq]
    omega
  obtain ⟨hsound, hcovers⟩ := perform_spec c hroom fun a ha => by
    obtain ⟨m, hm, rfl⟩ := List.mem_map.1 (hargs a ha)
    exact h.sound m hm
  have hle : s.offset ≤ (c.perform s.offset).2 := by
    rw [c.perform_snd]
    exact (isRow_row hroom).le
  refine ⟨?_, fun m hm => ?_, fun m hm => ?_⟩
  · show (c.perform s.offset).2.toNat = _
    rw [c.perform_snd, toNat_rowEnd hroom, h.offset_eq, hstep, Nat.add_comm]
  · rcases List.mem_cons.1 hm with rfl | hm
    · exact hsound
    · exact (h.sound m hm).mono hle
  · rcases List.mem_cons.1 hm with rfl | hm
    · exact hcovers
    · exact h.covers m hm

theorem Reached.inv {s : Session} (h : Reached s) (hsize : s.size < UInt32.size) : s.Inv := by
  induction h with
  | start => exact ⟨rfl, List.forall_mem_nil _, List.forall_mem_nil _⟩
  | @call s _ c hargs ih =>
    have hstep := s.size_call c
    exact (ih (by omega)).call c hsize hargs

/-- **Every piece that a builder returns covers its parts**, whatever was called before: its span
holds its literals, and the nodes, attributes and tags in it that are not empty. Statements around
nodes that were built before are left out, unless all these nodes are empty. -/
theorem covers_iff {s : Session} (h : Reached s) (hsize : s.size < UInt32.size) {c : Call}
    {piece : Piece} (hmade : (c, piece) ∈ s.made) :
    piece.Covers ↔ ∀ body, c = .codeBlock body → ∀ n ∈ body, n.span.isEmpty = true :=
  (h.inv hsize).covers _ hmade

namespace Sample

/-- The text that is built first. -/
def word : Node :=
  .text ⟨"abc", 0, 3⟩

/-- The call that builds it. -/
def opened : Session :=
  Session.start.call (.text "abc")

/-- A paragraph around the text. -/
def paragraph : Session :=
  opened.call (.element "p" [] [word])

/-- Statements around the text. -/
def wrapped : Session :=
  opened.call (.codeBlock [word])

theorem reached_opened : Reached opened :=
  .call .start _ (List.forall_mem_nil _)

end Sample

theorem covers_paragraph :
    Reached Sample.paragraph ∧ Sample.paragraph.size < UInt32.size ∧
      ∃ piece, (Call.element "p" [] [Sample.word], piece) ∈ Sample.paragraph.made ∧
        piece.span = ⟨0, 10⟩ ∧ piece.Covers := by
  have h : Reached Sample.paragraph := .call Sample.reached_opened _ fun _ ha => ha
  have hsize : Sample.paragraph.size < UInt32.size := by decide
  exact ⟨h, hsize, _, List.mem_cons_self, by decide,
    (covers_iff h hsize List.mem_cons_self).2 nofun⟩

/-- The text before the statements is not within their span. -/
theorem not_covers_wrapped :
    Reached Sample.wrapped ∧ ∃ piece, (Call.codeBlock [Sample.word], piece) ∈ Sample.wrapped.made ∧
      piece.span = ⟨3, 6⟩ ∧ piece.inner = [⟨0, 3⟩] ∧ ¬ piece.Covers := by
  refine ⟨.call Sample.reached_opened _ fun _ ha => ha, _, List.mem_cons_self, by decide, by decide,
    fun hcovers => ?_⟩
  have hword := hcovers.inner ⟨0, 3⟩ List.mem_cons_self rfl
  exact absurd hword (by decide)

end Builder

end TagHelpers
