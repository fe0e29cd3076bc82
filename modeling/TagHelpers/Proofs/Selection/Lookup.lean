import TagHelpers.Proofs.Text
import TagHelpers.Selection.Basic

/-!
# Reading lookup texts

A lookup text may be laid out with white space around both parts and, at each end, with quotes and
white space outside of them. White space is trimmed off the text, then the quotes, and then white
space off each part, so the layout does not change what is read.

* `Layout.write`: a lookup text in a layout.
* `isBlank_of_mem_edge`: of what is written at one end, the first two trimmings leave white space.
* `exists_toList_trimQuotes`: what is cut at the comma.
* `parse?_write`: reading gives back what was written, and what it accepts has one comma and parts
  that can be written.
-/

namespace TagHelpers

/-- White space. -/
structure Text.Space where
  text : String
  blank : Text.blank text = true

theorem Text.Space.isBlank (w : Space) : ∀ c ∈ w.text.toList, Text.isBlank c = true :=
  List.all_eq_true.1 w.blank

namespace Lookup

open Text

/-- That a text can be a part of a lookup text. -/
structure IsPart (s : String) : Prop where
  ne_empty : s ≠ ""
  no_comma : ',' ∉ s.toList
  isBare : IsBare isBlank s.toList

/-- That a lookup can be written: the quotes around the text can be told from its parts. -/
structure IsWritable (l : Lookup) : Prop where
  pattern : IsPart l.pattern
  assembly : IsPart l.assembly
  pattern_head : l.pattern.toList.head? ≠ some '"'
  assembly_last : l.assembly.toList.getLast? ≠ some '"'

/-- What is written at one end of a lookup text. -/
structure Edge where
  outside : Space
  quotes : ℕ
  inside : Space

/-- How a lookup text is laid out. -/
structure Layout where
  left : Edge
  beforeComma : Space
  afterComma : Space
  right : Edge

/-- Any number of quotes. -/
def quotation (n : ℕ) : String :=
  String.ofList (List.replicate n '"')

/-- **A lookup text in a layout.** -/
def Layout.write (w : Layout) (l : Lookup) : String :=
  w.left.outside.text ++ quotation w.left.quotes ++ w.left.inside.text ++
    l.pattern ++ w.beforeComma.text ++ "," ++ w.afterComma.text ++ l.assembly ++
    w.right.inside.text ++ quotation w.right.quotes ++ w.right.outside.text

/-! ### The layout -/

/-- What the first two trimmings leave of one end, read from the outside, is white space. -/
theorem isBlank_of_mem_edge {outside inside : List Char}
    (houtside : ∀ c ∈ outside, isBlank c = true) (hinside : ∀ c ∈ inside, isBlank c = true)
    (n : ℕ) : ∀ c ∈ ((outside ++ List.replicate n '"' ++ inside).dropWhile isBlank).dropWhile
      (· == '"'), isBlank c = true := by
  intro c hc
  rw [List.append_assoc, List.dropWhile_append_of_pos houtside] at hc
  cases n with
  | zero =>
    -- without quotes all of it is white space
    rw [List.replicate_zero, List.nil_append, List.dropWhile_eq_nil_iff.2 hinside] at hc
    cases hc
  | succ n =>
    have hquotes : ∀ c ∈ List.replicate (n + 1) '"', (c == '"') = true := by
      intro c hc
      rw [List.eq_of_mem_replicate hc]
      rfl
    have hkept : (List.replicate (n + 1) '"' ++ inside).dropWhile isBlank =
        List.replicate (n + 1) '"' ++ inside :=
      List.dropWhile_cons_of_neg (by decide)
    rw [hkept, List.dropWhile_append_of_pos hquotes] at hc
    exact hinside c ((List.dropWhile_suffix _).subset hc)

variable {l : Lookup} {w : Layout} {text : String}

/-- The parts of a lookup with what is between them. -/
def Layout.core (w : Layout) (l : Lookup) : List Char :=
  l.pattern.toList ++ w.beforeComma.text.toList ++
    ',' :: (w.afterComma.text.toList ++ l.assembly.toList)

theorem IsPart.toList_ne_nil {s : String} (h : IsPart s) : s.toList ≠ [] :=
  fun hnil => h.ne_empty (String.toList_eq_nil_iff.1 hnil)

/-- The outermost characters of the parts stop a trimming. -/
theorem isBare_core {p : Char → Bool} (h : l.IsWritable)
    (hhead : ∀ c ∈ l.pattern.toList.head?, p c = false)
    (hlast : ∀ c ∈ l.assembly.toList.getLast?, p c = false) : IsBare p (w.core l) where
  head := by
    rw [Layout.core, List.append_assoc, List.head?_append_of_ne_nil _ h.pattern.toList_ne_nil]
    exact hhead
  last := by
    have hsplit : w.core l = (l.pattern.toList ++ w.beforeComma.text.toList ++
        ',' :: w.afterComma.text.toList) ++ l.assembly.toList := by
      simp [Layout.core]
    rw [hsplit, List.getLast?_append_of_ne_nil _ h.assembly.toList_ne_nil]
    exact hlast

/-- **What is cut at the comma**: the parts with white space around them. -/
theorem exists_toList_trimQuotes (h : l.IsWritable) : ∃ before after : List Char,
    (trimQuotes (trim (w.write l))).toList = before ++ w.core l ++ after ∧
      (∀ c ∈ before, isBlank c = true) ∧ ∀ c ∈ after, isBlank c = true := by
  have hne : w.core l ≠ [] := by simp [Layout.core]
  have hblank : IsBare isBlank (w.core l) :=
    isBare_core h h.pattern.isBare.head h.assembly.isBare.last
  have hquote : IsBare (· == '"') (w.core l) := by
    refine isBare_core h ?_ ?_
    · intro c hc
      rw [beq_eq_false_iff_ne]
      rintro rfl
      exact h.pattern_head hc
    · intro c hc
      rw [beq_eq_false_iff_ne]
      rintro rfl
      exact h.assembly_last hc
  have hwrite : (w.write l).toList =
      (w.left.outside.text.toList ++ List.replicate w.left.quotes '"' ++
        w.left.inside.text.toList) ++ w.core l ++
      (w.right.outside.text.toList.reverse ++ List.replicate w.right.quotes '"' ++
        w.right.inside.text.toList.reverse).reverse := by
    simp [Layout.write, Layout.core, quotation]
  have hleft := isBlank_of_mem_edge w.left.outside.isBlank w.left.inside.isBlank w.left.quotes
  -- the right end is a left one read backwards
  have hright := isBlank_of_mem_edge
    (fun c hc => w.right.outside.isBlank c (List.mem_reverse.1 hc))
    (fun c hc => w.right.inside.isBlank c (List.mem_reverse.1 hc)) w.right.quotes
  rw [trimQuotes, trim, String.toList_ofList, String.toList_ofList, hwrite,
    stripEnds_around hne hblank, stripEnds_around hne hquote, stripEnd, stripEnd,
    List.reverse_reverse, List.reverse_reverse]
  exact ⟨_, _, rfl, hleft, fun c hc => hright c (List.mem_reverse.1 hc)⟩

/-! ### Reading -/

theorem parse?_eq_some_iff : parse? text = some l ↔
    ∃ pattern assembly, fields ',' (trimQuotes (trim text)).toList = [pattern, assembly] ∧
      (trim (String.ofList pattern) = l.pattern ∧ trim (String.ofList assembly) = l.assembly) ∧
      l.pattern ≠ "" ∧ l.assembly ≠ "" := by
  unfold parse? splitAll
  rcases fields ',' (trimQuotes (trim text)).toList with
    _ | ⟨pattern, _ | ⟨assembly, _ | ⟨more, rest⟩⟩⟩
  · simp
  · simp
  · obtain ⟨lp, la⟩ := l
    simp only [List.map_cons, List.map_nil, Option.ite_none_left_eq_some, not_or, Option.some.injEq,
      Lookup.mk.injEq, List.cons.injEq, and_true]
    constructor
    · rintro ⟨⟨hp, ha⟩, rfl, rfl⟩
      exact ⟨pattern, assembly, ⟨rfl, rfl⟩, ⟨rfl, rfl⟩, hp, ha⟩
    · rintro ⟨_, _, ⟨rfl, rfl⟩, ⟨rfl, rfl⟩, hp, ha⟩
      exact ⟨⟨hp, ha⟩, rfl, rfl⟩
  · simp

theorem IsPart.trim_padded {s : String} (h : IsPart s) {before after : List Char}
    (hbefore : ∀ c ∈ before, isBlank c = true) (hafter : ∀ c ∈ after, isBlank c = true) :
    trim (String.ofList (before ++ s.toList ++ after)) = s := by
  rw [trim, String.toList_ofList, stripEnds_padded h.toList_ne_nil h.isBare hbefore hafter,
    String.ofList_toList]

/-- **A lookup is read from every layout.** -/
theorem parse?_of_isWritable (h : l.IsWritable) (w : Layout) : parse? (w.write l) = some l := by
  obtain ⟨before, after, htext, hbefore, hafter⟩ := exists_toList_trimQuotes (w := w) h
  have hcomma : ∀ {cs : List Char}, (∀ c ∈ cs, isBlank c = true) → ',' ∉ cs := by
    intro cs hcs hmem
    exact absurd (hcs _ hmem) (by decide)
  have hparts : fields ',' (trimQuotes (trim (w.write l))).toList =
      [before ++ l.pattern.toList ++ w.beforeComma.text.toList,
        w.afterComma.text.toList ++ l.assembly.toList ++ after] := by
    rw [fields_eq_pair_iff, htext]
    refine ⟨by simp [Layout.core], ?_, ?_⟩
    · simp [hcomma hbefore, h.pattern.no_comma, hcomma w.beforeComma.isBlank]
    · simp [hcomma hafter, h.assembly.no_comma, hcomma w.afterComma.isBlank]
  refine parse?_eq_some_iff.2 ⟨_, _, hparts, ⟨?_, ?_⟩, h.pattern.ne_empty, h.assembly.ne_empty⟩
  · exact h.pattern.trim_padded hbefore w.beforeComma.isBlank
  · exact h.assembly.trim_padded w.afterComma.isBlank hafter

/-- What is left of a text without a comma is a part, unless nothing is left. -/
theorem isPart_trim {cs : List Char} (hcomma : ',' ∉ cs) (hne : trim (String.ofList cs) ≠ "") :
    IsPart (trim (String.ofList cs)) where
  ne_empty := hne
  no_comma := by
    rw [trim, String.toList_ofList, String.toList_ofList, mem_stripEnds (by decide)]
    exact hcomma
  isBare := by
    rw [trim, String.toList_ofList, String.toList_ofList]
    exact isBare_stripEnds _ _

/-- **What is accepted** has one comma, and the parts are such as can be written. -/
theorem isPart_of_parse? (h : parse? text = some l) :
    IsPart l.pattern ∧ IsPart l.assembly ∧ text.toList.count ',' = 1 := by
  obtain ⟨pattern, assembly, hfields, ⟨hpattern, hassembly⟩, hne, hne'⟩ := parse?_eq_some_iff.1 h
  obtain ⟨htext, hcomma, hcomma'⟩ := fields_eq_pair_iff.1 hfields
  rw [← hpattern] at hne
  rw [← hassembly] at hne'
  rw [← hpattern, ← hassembly]
  refine ⟨isPart_trim hcomma hne, isPart_trim hcomma' hne', ?_⟩
  have hcount := congrArg (List.count ',') htext
  rw [trimQuotes, trim, String.toList_ofList, String.toList_ofList, count_stripEnds (by decide),
    count_stripEnds (by decide)] at hcount
  rw [hcount, List.count_append, List.count_cons_self, List.count_eq_zero.2 hcomma,
    List.count_eq_zero.2 hcomma']

/-- **Reading undoes writing.** A lookup whose parts are not empty, have no comma, neither start nor
end with white space, and are not next to the quotes with quotes of their own, is read from its text
in any layout. Whatever text is read as a lookup has exactly one comma, and both parts are not
empty, have no comma and neither start nor end with white space. -/
theorem parse?_write :
    (∀ (l : Lookup) (w : Layout), l.IsWritable → parse? (w.write l) = some l) ∧
    ∀ (text : String) (l : Lookup), parse? text = some l →
      IsPart l.pattern ∧ IsPart l.assembly ∧ text.toList.count ',' = 1 :=
  ⟨fun _ w h => parse?_of_isWritable h w, fun _ _ => isPart_of_parse?⟩

namespace Sample

/-- A layout with two quotes in front and three behind, and white space wherever it may be. -/
def spacious : Layout where
  left := ⟨⟨" ", by decide⟩, 2, ⟨"\t", by decide⟩⟩
  beforeComma := ⟨"\n", by decide⟩
  afterComma := ⟨" \u00A0", by decide⟩
  right := ⟨⟨"\u3000", by decide⟩, 3, ⟨" ", by decide⟩⟩

/-- A lookup with quotes on the inner sides of its parts. -/
def quoted : Lookup := ⟨"App.*\"", "\" Library"⟩

end Sample

theorem parse?_spacious : Sample.quoted.IsWritable ∧
    Sample.spacious.write Sample.quoted = " \"\"\tApp.*\"\n, \u00A0\" Library \"\"\"\u3000" ∧
    parse? (Sample.spacious.write Sample.quoted) = some Sample.quoted ∧
    (Sample.spacious.write Sample.quoted).toList.count ',' = 1 := by
  have h : Sample.quoted.IsWritable :=
    ⟨⟨by decide, by decide, by decide⟩, ⟨by decide, by decide, by decide⟩, by decide, by decide⟩
  have hread := parse?_write.1 _ Sample.spacious h
  exact ⟨h, by decide, hread, (parse?_write.2 _ _ hread).2.2⟩

end Lookup

end TagHelpers
