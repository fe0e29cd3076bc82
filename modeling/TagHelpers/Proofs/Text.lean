import TagHelpers.Text.Basic
import TagHelpers.Text.Quoted
import Mathlib.Data.List.Basic
import Mathlib.Data.List.TakeWhile

/-!
# Text

* `fields_cases`: a text is cut at a separator by taking one part after another off its front, each
  free of the separator. `fields_append_cons`, `fields_eq_pair_iff`: how the parts of a text that is
  put together are found again.
* `stripEnds_around`: trimming takes what is before and behind a bare text off apart.
* `blank_join`: a text that is put together is blank if its parts are. A literal never is.
* `trim_trimQuotes_literal_eq_iff`: trimming the quotes and then the white space off a literal gives
  back the text exactly if nothing in it had to be escaped.
-/

namespace TagHelpers.Text

variable {sep x : Char} {p : Char → Bool} {s : String} {cs : List Char}

/-! ### Cutting -/

theorem fields_of_not_mem (h : sep ∉ cs) : fields sep cs = [cs] := by
  induction cs with
  | nil => rfl
  | cons c cs ih =>
    obtain ⟨hc, hcs⟩ := not_or.1 (mt List.mem_cons.2 h)
    rw [fields, if_neg (Ne.symm hc), ih hcs]

theorem fields_append (h : sep ∉ cs) (rest : List Char) :
    fields sep (cs ++ sep :: rest) = cs :: fields sep rest := by
  induction cs with
  | nil => rw [List.nil_append, fields, if_pos rfl]
  | cons c cs ih =>
    obtain ⟨hc, hcs⟩ := not_or.1 (mt List.mem_cons.2 h)
    rw [List.cons_append, fields, if_neg (Ne.symm hc), ih hcs]

/-- A text is one part, or its first part ends at a separator. -/
theorem fields_cases (sep : Char) (cs : List Char) :
    (sep ∉ cs ∧ fields sep cs = [cs]) ∨
      ∃ part rest, sep ∉ part ∧ cs = part ++ sep :: rest ∧
        fields sep cs = part :: fields sep rest := by
  by_cases hm : sep ∈ cs
  · obtain ⟨part, rest, rfl, hpart⟩ := List.eq_append_cons_of_mem hm
    exact .inr ⟨part, rest, hpart, rfl, fields_append hpart rest⟩
  · exact .inl ⟨hm, fields_of_not_mem hm⟩

theorem fields_ne_nil (sep : Char) (cs : List Char) : fields sep cs ≠ [] := by
  rcases fields_cases sep cs with ⟨-, h⟩ | ⟨part, rest, -, -, h⟩
  · rw [h]
    exact List.cons_ne_nil _ _
  · rw [h]
    exact List.cons_ne_nil _ _

/-- What goes on with a separator has the parts of both sides. -/
theorem fields_append_cons (cs rest : List Char) :
    fields sep (cs ++ sep :: rest) = fields sep cs ++ fields sep rest := by
  induction cs with
  | nil => exact fields_append List.not_mem_nil rest
  | cons c cs ih =>
    rw [List.cons_append, fields, fields, ih]
    by_cases hc : c = sep
    · rw [if_pos hc, if_pos hc, List.cons_append]
    · rw [if_neg hc, if_neg hc]
      cases h : fields sep cs with
      | nil => exact absurd h (fields_ne_nil sep cs)
      | cons part parts => rfl

theorem fields_eq_pair_iff {before after : List Char} :
    fields sep cs = [before, after] ↔
      cs = before ++ sep :: after ∧ sep ∉ before ∧ sep ∉ after := by
  constructor
  · intro h
    rcases fields_cases sep cs with ⟨-, hcs⟩ | ⟨part, rest, hpart, rfl, hcs⟩
    · rw [hcs] at h
      cases h
    rw [hcs] at h
    obtain ⟨rfl, hrest⟩ := List.cons.inj h
    rcases fields_cases sep rest with ⟨hnot, hone⟩ | ⟨part', rest', -, -, hmore⟩
    · rw [hone] at hrest
      obtain rfl := List.singleton_inj.1 hrest
      exact ⟨rfl, hpart, hnot⟩
    · rw [hmore] at hrest
      exact absurd (List.cons.inj hrest).2 (fields_ne_nil sep rest')
  · rintro ⟨rfl, hbefore, hafter⟩
    rw [fields_append hbefore, fields_of_not_mem hafter]

/-! ### Blank text -/

theorem blank_append (s s' : String) : blank (s ++ s') = (blank s && blank s') := by
  simp [blank]

theorem blank_join (ss : List String) : blank (String.join ss) = ss.all blank := by
  induction ss with
  | nil => rfl
  | cons s ss ih => rw [String.join_cons, blank_append, ih, List.all_cons]

theorem blank_literal (s : String) : blank (literal s) = false := by
  simp [blank, literal, isBlank]

/-! ### Trimming -/

theorem count_dropWhile (h : p x = false) (cs : List Char) :
    (cs.dropWhile p).count x = cs.count x := by
  have hx : x ∉ cs.takeWhile p := by
    intro hx
    have hp := List.mem_takeWhile_imp hx
    rw [h] at hp
    exact Bool.false_ne_true hp
  calc (cs.dropWhile p).count x
      = (cs.takeWhile p).count x + (cs.dropWhile p).count x := by
        rw [List.count_eq_zero.2 hx, Nat.zero_add]
    _ = cs.count x := by rw [← List.count_append, List.takeWhile_append_dropWhile]

theorem count_stripEnd (h : p x = false) (cs : List Char) :
    (stripEnd p cs).count x = cs.count x := by
  rw [stripEnd, List.count_reverse, count_dropWhile h, List.count_reverse]

theorem count_stripEnds (h : p x = false) (cs : List Char) :
    (stripEnds p cs).count x = cs.count x := by
  rw [stripEnds, count_stripEnd h, count_dropWhile h]

theorem mem_stripEnds (h : p x = false) : x ∈ stripEnds p cs ↔ x ∈ cs := by
  rw [← List.count_pos_iff, count_stripEnds h, List.count_pos_iff]

theorem stripEnd_concat (h : p x = true) (cs : List Char) :
    stripEnd p (cs ++ [x]) = stripEnd p cs := by
  rw [stripEnd, List.reverse_append, List.reverse_singleton, List.singleton_append,
    List.dropWhile_cons_of_pos h, stripEnd]

/-- That a text neither starts nor ends with a character of a class. -/
structure IsBare (p : Char → Bool) (cs : List Char) : Prop where
  head : ∀ c ∈ cs.head?, p c = false
  last : ∀ c ∈ cs.getLast?, p c = false

theorem isBare_of_forall (h : ∀ c ∈ cs, p c = false) : IsBare p cs where
  head c hc := h c (List.mem_of_mem_head? hc)
  last c hc := h c (List.mem_of_mem_getLast? hc)

theorem head?_dropWhile (p : Char → Bool) (cs : List Char) :
    ∀ c ∈ (cs.dropWhile p).head?, p c = false := by
  intro c hc
  have h := List.head?_dropWhile_not p cs
  rw [Option.mem_def.1 hc] at h
  exact h

theorem stripEnd_prefix (p : Char → Bool) (cs : List Char) : stripEnd p cs <+: cs := by
  rw [← List.reverse_suffix, stripEnd, List.reverse_reverse]
  exact List.dropWhile_suffix p

/-- **What is trimmed is bare.** -/
theorem isBare_stripEnds (p : Char → Bool) (cs : List Char) : IsBare p (stripEnds p cs) where
  head := by
    intro c hc
    refine head?_dropWhile p cs c ?_
    obtain ⟨rest, hrest⟩ := stripEnd_prefix p (cs.dropWhile p)
    rw [← hrest, List.head?_append]
    rw [stripEnds] at hc
    rw [Option.mem_def.1 hc]
    rfl
  last := by
    rw [stripEnds, stripEnd, List.getLast?_reverse]
    exact head?_dropWhile p _

theorem dropWhile_append_of_head (before : List Char) (h : ∀ c ∈ cs.head?, p c = false) :
    (before ++ cs).dropWhile p = before.dropWhile p ++ cs := by
  rw [List.dropWhile_append]
  split
  · next hnil =>
    rw [List.isEmpty_iff.1 hnil, List.nil_append]
    cases cs with
    | nil => rfl
    | cons c cs => exact List.dropWhile_cons_of_neg (by simp [h c rfl])
  · rfl

theorem stripEnd_append_of_last (after : List Char) (h : ∀ c ∈ cs.getLast?, p c = false) :
    stripEnd p (cs ++ after) = cs ++ stripEnd p after := by
  rw [stripEnd, List.reverse_append, dropWhile_append_of_head _ (by rwa [List.head?_reverse]),
    List.reverse_append, List.reverse_reverse, stripEnd]

theorem stripEnd_eq_self (h : ∀ c ∈ cs, p c = false) : stripEnd p cs = cs := by
  have hstrip := stripEnd_append_of_last [] (isBare_of_forall h).last
  rwa [List.append_nil, stripEnd, stripEnd, List.reverse_nil, List.dropWhile_nil, List.reverse_nil,
    List.append_nil] at hstrip

/-- **Trimming stops at a bare text** and takes off what is before and behind it apart. -/
theorem stripEnds_around (hne : cs ≠ []) (h : IsBare p cs) (before after : List Char) :
    stripEnds p (before ++ cs ++ after) = before.dropWhile p ++ cs ++ stripEnd p after := by
  have hhead : ∀ c ∈ (cs ++ after).head?, p c = false := by
    rw [List.head?_append_of_ne_nil _ hne]
    exact h.head
  rw [stripEnds, List.append_assoc, dropWhile_append_of_head before hhead, ← List.append_assoc]
  refine stripEnd_append_of_last after ?_
  rw [List.getLast?_append_of_ne_nil _ hne]
  exact h.last

/-- Trimming takes off all that is of the class around a bare text. -/
theorem stripEnds_padded (hne : cs ≠ []) (h : IsBare p cs) {before after : List Char}
    (hbefore : ∀ c ∈ before, p c = true) (hafter : ∀ c ∈ after, p c = true) :
    stripEnds p (before ++ cs ++ after) = cs := by
  have hend : after.reverse.dropWhile p = [] :=
    List.dropWhile_eq_nil_iff.2 fun c hc => hafter c (List.mem_reverse.1 hc)
  rw [stripEnds_around hne h, List.dropWhile_eq_nil_iff.2 hbefore, stripEnd, hend,
    List.reverse_nil, List.nil_append, List.append_nil]

theorem stripEnds_eq_self_iff : stripEnds p cs = cs ↔ IsBare p cs := by
  constructor
  · intro h
    rw [← h]
    exact isBare_stripEnds p cs
  · intro h
    by_cases hne : cs = []
    · rw [hne]
      rfl
    · have hpadded := stripEnds_padded hne h (List.forall_mem_nil _) (List.forall_mem_nil _)
      rwa [List.nil_append, List.append_nil] at hpadded

instance (p : Char → Bool) (cs : List Char) : Decidable (IsBare p cs) :=
  decidable_of_iff _ stripEnds_eq_self_iff

/-! ### Literals -/

/-- The characters that a literal escapes. -/
def escaped : List Char := ['"', '\\', '\n', '\r']

theorem escape_of_not_mem (h : x ∉ escaped) : escape x = [x] := by
  simp only [escaped, List.mem_cons, List.not_mem_nil, or_false, not_or] at h
  rw [escape, if_neg h.1, if_neg h.2.1, if_neg h.2.2.1, if_neg h.2.2.2]

theorem beq_quote_of_not_mem (h : x ∉ escaped) : (x == '"') = false := by
  rw [beq_eq_false_iff_ne]
  rintro rfl
  exact h (by decide)

theorem escape_of_mem (h : x ∈ escaped) :
    ∃ y, escape x = ['\\', y] ∧ (y = '\\' ↔ x = '\\') := by
  simp only [escaped, List.mem_cons, List.not_mem_nil, or_false] at h
  rcases h with rfl | rfl | rfl | rfl <;> exact ⟨_, rfl, by decide⟩

/-- No character is escaped to something that starts with a quote. -/
theorem exists_escape_eq_cons (c : Char) : ∃ x rest, x ≠ '"' ∧ escape c = x :: rest := by
  by_cases hc : c ∈ escaped
  · obtain ⟨y, hy, -⟩ := escape_of_mem hc
    exact ⟨'\\', [y], by decide, hy⟩
  · exact ⟨c, [], beq_eq_false_iff_ne.1 (beq_quote_of_not_mem hc), escape_of_not_mem hc⟩

theorem count_escape (c : Char) :
    (escape c).count '\\' = [c].count '\\' + [c].countP (· ∈ escaped) := by
  by_cases hc : c ∈ escaped
  · obtain ⟨y, hy, hiff⟩ := escape_of_mem hc
    rw [hy]
    by_cases h : c = '\\'
    · subst h
      rw [hiff.2 rfl]
      decide
    · simp [mt hiff.1 h, h, hc]
  · simp [escape_of_not_mem hc, hc]

/-- A literal has a backslash more for each character that it escapes. -/
theorem count_flatMap_escape (cs : List Char) :
    (cs.flatMap escape).count '\\' = cs.count '\\' + cs.countP (· ∈ escaped) := by
  induction cs with
  | nil => rfl
  | cons c cs ih =>
    rw [List.flatMap_cons, List.count_append, ih, count_escape, ← List.singleton_append (l := cs),
      List.count_append, List.countP_append]
    omega

theorem trimQuotes_literal (h : s ≠ "") :
    trimQuotes (literal s) = String.ofList (stripEnd (· == '"') (s.toList.flatMap escape)) := by
  have hs : s.toList ≠ [] := by
    intro hs
    exact h (String.toList_injective hs)
  obtain ⟨c, cs, hcs⟩ := List.exists_cons_of_ne_nil hs
  obtain ⟨x, rest, hx, hesc⟩ := exists_escape_eq_cons c
  have hopen : ('"' :: s.toList.flatMap escape ++ ['"']).dropWhile (· == '"') =
      s.toList.flatMap escape ++ ['"'] := by
    rw [List.cons_append, List.dropWhile_cons_of_pos (by decide), hcs, List.flatMap_cons, hesc,
      List.cons_append, List.cons_append, List.dropWhile_cons_of_neg (by simpa using hx)]
  rw [trimQuotes, literal, String.toList_ofList, stripEnds, hopen, stripEnd_concat (by decide)]

/-- **A text is read back from its literal exactly if nothing in it is escaped.** -/
theorem trim_trimQuotes_literal_eq_iff (h : s ≠ "") :
    trim (trimQuotes (literal s)) = trim s ↔ ∀ c ∈ s.toList, c ∉ escaped := by
  rw [trimQuotes_literal h]
  constructor
  · intro heq c hc hesc
    -- neither trimming takes a backslash off, so both texts have the same number of them
    have hlist := congrArg (List.count '\\') (congrArg String.toList heq)
    simp only [trim, String.toList_ofList] at hlist
    rw [count_stripEnds (by decide), count_stripEnd (by decide), count_stripEnds (by decide),
      count_flatMap_escape] at hlist
    have hpos : 0 < s.toList.countP (· ∈ escaped) :=
      List.countP_pos_iff.2 ⟨c, hc, by simpa using hesc⟩
    omega
  · intro hall
    have hflat : s.toList.flatMap escape = s.toList := by
      rw [List.flatMap_congr fun c hc => escape_of_not_mem (hall c hc)]
      exact List.flatMap_singleton' _
    rw [hflat, stripEnd_eq_self fun c hc => beq_quote_of_not_mem (hall c hc), String.ofList_toList]

/-- A text that is not blank leaves something when its literal is trimmed. -/
theorem trim_trimQuotes_literal_ne (h : blank s = false) :
    trim (trimQuotes (literal s)) ≠ "" := by
  obtain ⟨c, hc, hblank⟩ : ∃ c ∈ s.toList, isBlank c = false := by
    simpa [blank] using h
  obtain ⟨x, hx, hxb, hxq⟩ : ∃ x ∈ escape c, isBlank x = false ∧ (x == '"') = false := by
    by_cases hesc : c ∈ escaped
    · obtain ⟨y, hy, -⟩ := escape_of_mem hesc
      exact ⟨'\\', hy ▸ List.mem_cons_self, by decide, by decide⟩
    · exact ⟨c, by simp [escape_of_not_mem hesc], hblank, beq_quote_of_not_mem hesc⟩
  have hmem : x ∈ (trim (trimQuotes (literal s))).toList := by
    rw [trim, String.toList_ofList, mem_stripEnds hxb, trimQuotes, String.toList_ofList,
      mem_stripEnds (p := (· == '"')) hxq, literal, String.toList_ofList]
    exact List.mem_cons_of_mem _ (List.mem_append_left _ (List.mem_flatMap_of_mem hc hx))
  intro hempty
  rw [hempty] at hmem
  cases hmem

end TagHelpers.Text
