import TagHelpers.Descriptor.Flags
import TagHelpers.Proofs.Json.Scan
import TagHelpers.Proofs.Text

/-!
# Reading back flags

The text of a set of flags is cut at its bars into the words that it was joined from
(`map_stripEnds_fields_intercalate`), each word is read as its flag or its bits
(`parseOne_of_mem_parts`), and together they make up the set again (`foldl_union_parts`). So every
set of eight bits is read back from its text: `parse_print`.
-/

namespace TagHelpers

namespace Text

/-! ### Cutting a joined text -/

/-- A text of at least one character, none of which is a bar or white space. -/
def IsWord (cs : List Char) : Prop :=
  cs ≠ [] ∧ ∀ c ∈ cs, c ≠ '|' ∧ isBlank c = false

/-- Trimming takes the white space around a word off. -/
theorem stripEnds_isBlank {before cs after : List Char} (hbefore : ∀ c ∈ before, isBlank c = true)
    (h : IsWord cs) (hafter : ∀ c ∈ after, isBlank c = true) :
    stripEnds isBlank (before ++ cs ++ after) = cs :=
  stripEnds_padded h.1 (isBare_of_forall fun c hc => (h.2 c hc).2) hbefore hafter

/-- **Words that are joined with bars are cut apart again.** White space may stand in front. -/
theorem map_stripEnds_fields_intercalate {words : List (List Char)} (hne : words ≠ [])
    (h : ∀ cs ∈ words, IsWord cs) {before : List Char}
    (hbefore : ∀ c ∈ before, c ≠ '|' ∧ isBlank c = true) :
    (fields '|' (before ++ [' ', '|', ' '].intercalate words)).map (stripEnds isBlank) = words := by
  induction words generalizing before with
  | nil => exact absurd rfl hne
  | cons cs words ih =>
    have hcs := h cs List.mem_cons_self
    have hblank : ∀ c ∈ before, isBlank c = true := fun c hc => (hbefore c hc).2
    have hbar : '|' ∉ before ++ cs := by
      intro hmem
      rcases List.mem_append.1 hmem with hmem | hmem
      · exact (hbefore _ hmem).1 rfl
      · exact (hcs.2 _ hmem).1 rfl
    cases words with
    | nil =>
      have hnil : ∀ c ∈ ([] : List Char), isBlank c = true := List.forall_mem_nil _
      have hstrip := stripEnds_isBlank hblank hcs hnil
      rw [List.append_nil] at hstrip
      rw [List.intercalate_singleton, fields_of_not_mem hbar, List.map_singleton, hstrip]
    | cons cs' words =>
      have hsplit : before ++ [' ', '|', ' '].intercalate (cs :: cs' :: words) =
          (before ++ cs ++ [' ']) ++
            '|' :: ([' '] ++ [' ', '|', ' '].intercalate (cs' :: words)) := by
        simp [List.intercalate_cons_cons]
      have hbar' : '|' ∉ before ++ cs ++ [' '] := by
        intro hmem
        rcases List.mem_append.1 hmem with hmem | hmem
        · exact hbar hmem
        · exact absurd hmem (by decide)
      have hspace : ∀ c ∈ [' '], c ≠ '|' ∧ isBlank c = true := by
        intro c hc
        rw [List.mem_singleton.1 hc]
        decide
      rw [hsplit, fields_append hbar', List.map_cons,
        stripEnds_isBlank hblank hcs fun c hc => (hspace c hc).2,
        ih (List.cons_ne_nil _ _) (fun cs hcs => h cs (List.mem_cons_of_mem _ hcs)) hspace]

end Text

namespace Flags

/-! ### The bits without a name -/

/-- A number is written with digits below sixteen. -/
theorem exists_toDigits_sixteen (n : Nat) :
    ∃ ds : List Nat, Nat.toDigits 16 n = ds.map Nat.digitChar ∧ ds ≠ [] ∧ (∀ d ∈ ds, d < 16) ∧
      ds.foldl (fun n d => n * 16 + d) 0 = n := by
  induction n using Nat.strongRecOn with
  | ind n ih =>
    rcases lt_or_ge n 16 with hn | hn
    · refine ⟨[n], Nat.toDigits_of_lt_base hn, List.cons_ne_nil _ _, by simpa using hn, ?_⟩
      simp
    · obtain ⟨ds, hds, -, hlt, hvalue⟩ := ih (n / 16) (by omega)
      refine ⟨ds ++ [n % 16], ?_, by simp, ?_, ?_⟩
      · rw [Nat.toDigits_of_base_le (by decide) hn, hds, List.map_append, List.map_singleton]
      · intro d hd
        rcases List.mem_append.1 hd with hd | hd
        · exact hlt d hd
        · rw [List.mem_singleton.1 hd]
          omega
      · rw [List.foldl_append, hvalue, List.foldl_cons, List.foldl_nil]
        omega

theorem digitChar_apart {d : Nat} (h : d < 16) :
    d.digitChar ≠ '|' ∧ d.digitChar ≠ '+' ∧ Text.isBlank d.digitChar = false := by
  interval_cases d <;> decide

theorem mapM_hexDigit {ds : List Nat} (h : ∀ d ∈ ds, d < 16) :
    (ds.map Nat.digitChar).mapM Json.hexDigit = some ds := by
  induction ds with
  | nil => rfl
  | cons d ds ih =>
    have hd := Json.hexDigit_digitChar (h d List.mem_cons_self)
    have hds := ih fun d' hd' => h d' (List.mem_cons_of_mem d hd')
    simp only [List.map_cons, List.mapM_cons, hd, hds, Option.pure_def, Option.bind_eq_bind,
      Option.bind_some]

/-- A byte is read back from its hexadecimal digits. -/
theorem parseHex_toDigits (b : UInt8) : parseHex (Nat.toDigits 16 b.toNat) = some b := by
  obtain ⟨ds, hds, hne, hlt, hvalue⟩ := exists_toDigits_sixteen b.toNat
  have hplus : (ds.map Nat.digitChar).head? ≠ some '+' := by
    obtain ⟨d, ds, rfl⟩ := List.exists_cons_of_ne_nil hne
    intro hhead
    exact (digitChar_apart (hlt d List.mem_cons_self)).2.1 (Option.some.inj hhead)
  have hbound : ¬ (ds.isEmpty = true ∨ 255 < b.toNat) := by
    have := b.toNat_lt
    simp only [List.isEmpty_iff, hne, false_or]
    omega
  rw [hds]
  simp only [parseHex, if_neg hplus, mapM_hexDigit hlt, Option.bind_eq_bind, Option.bind_some,
    hvalue, if_neg hbound]
  simp

/-! ### The words of a set -/

/-- The flags of a set that have no name. -/
def unnamed (f : Flags) : Flags :=
  named.foldl (fun f e => f.without e.2) f

/-- The words that a set is written with, each with the flags that it stands for. -/
def parts (f : Flags) : List (String × Flags) :=
  named.filter (fun e => f.contains e.2) ++
    if f.unnamed.bits = 0 then []
    else [(String.ofList ('0' :: 'x' :: Nat.toDigits 16 f.unnamed.bits.toNat), f.unnamed)]

theorem print_eq (f : Flags) : f.print = String.intercalate " | " (f.parts.map Prod.fst) := by
  unfold print parts unnamed
  split_ifs <;> simp_all

theorem isWord_of_mem_parts {f : Flags} {e : String × Flags} (h : e ∈ f.parts) :
    Text.IsWord e.1.toList := by
  rcases List.mem_append.1 h with h | h
  · have hnamed : (named.all fun e => !e.1.toList.isEmpty &&
        e.1.toList.all fun c => c != '|' && !Text.isBlank c) = true := by decide
    have he := List.all_eq_true.1 hnamed e (List.mem_filter.1 h).1
    rw [Bool.and_eq_true, Bool.not_eq_true', List.isEmpty_eq_false_iff, List.all_eq_true] at he
    refine ⟨he.1, fun c hc => ?_⟩
    have hchar := he.2 c hc
    rw [Bool.and_eq_true, bne_iff_ne, Bool.not_eq_true'] at hchar
    exact hchar
  · split_ifs at h with hzero
    · cases h
    · obtain rfl := List.mem_singleton.1 h
      obtain ⟨ds, hds, -, hlt, -⟩ := exists_toDigits_sixteen f.unnamed.bits.toNat
      rw [String.toList_ofList, hds]
      refine ⟨List.cons_ne_nil _ _, fun c hc => ?_⟩
      simp only [List.mem_cons, List.mem_map] at hc
      rcases hc with rfl | rfl | ⟨d, hd, rfl⟩
      · decide
      · decide
      · exact ⟨(digitChar_apart (hlt d hd)).1, (digitChar_apart (hlt d hd)).2.2⟩

/-- A word is read as the flags that it stands for. -/
theorem parseOne_of_mem_parts {f : Flags} {e : String × Flags} (h : e ∈ f.parts) :
    parseOne e.1 = .ok e.2 := by
  rcases List.mem_append.1 h with h | h
  · have hnamed : ∀ e ∈ named, parseOne e.1 = .ok e.2 := by decide
    exact hnamed e (List.mem_filter.1 h).1
  · split_ifs at h with hzero
    · cases h
    · obtain rfl := List.mem_singleton.1 h
      simp only [parseOne, String.toList_ofList, parseHex_toDigits]
      rw [if_neg]
      intro hempty
      have := congrArg String.toList hempty
      simp at this

/-! ### Bits -/

/-- Whether a bit is in a set. -/
def has (f : Flags) (i : Fin 8) : Bool :=
  f.bits.toBitVec[i]

theorem ext_has {f g : Flags} (h : ∀ i, f.has i = g.has i) : f = g := by
  obtain ⟨f⟩ := f
  obtain ⟨g⟩ := g
  refine congrArg Flags.mk (UInt8.eq_of_toBitVec_eq (BitVec.eq_of_getElem_eq fun i hi => ?_))
  exact h ⟨i, hi⟩

@[simp]
theorem has_empty (i : Fin 8) : empty.has i = false := by
  simp [has, empty]

@[simp]
theorem has_union (f g : Flags) (i : Fin 8) : (f.union g).has i = (f.has i || g.has i) := by
  simp [has, union]

@[simp]
theorem has_without (f g : Flags) (i : Fin 8) : (f.without g).has i = (f.has i && !g.has i) := by
  simp [has, without]

theorem contains_iff {f g : Flags} :
    f.contains g = true ↔ ∀ i, g.has i = true → f.has i = true := by
  have hbits : f.contains g = true ↔ ∀ i, (f.has i && g.has i) = g.has i := by
    rw [contains, beq_iff_eq]
    constructor
    · intro h i
      have hi := congrArg (fun b : UInt8 => b.toBitVec[i]) h
      simpa [has] using hi
    · intro h
      have heq : (⟨f.bits &&& g.bits⟩ : Flags) = g := ext_has fun i => by
        rw [← h i]
        simp [has]
      exact congrArg Flags.bits heq
  simp [hbits]

/-- A flag with a name is one bit. -/
theorem has_of_mem_named {e : String × Flags} (he : e ∈ named) :
    ∃ k, ∀ i, e.2.has i = decide (i = k) := by
  revert e
  decide

/-- Taking the flags that a set contains together and taking all of them off it loses no bit, if
each of them is one bit. -/
theorem has_foldl_union {f : Flags} {es : List (String × Flags)}
    (hes : ∀ e ∈ es, ∃ k, ∀ i, e.2.has i = decide (i = k)) {taken left : Flags}
    (h : ∀ i, (taken.has i || left.has i) = f.has i) (i : Fin 8) :
    (((es.filter fun e => f.contains e.2).foldl (fun g e => g.union e.2) taken).has i ||
      (es.foldl (fun g e => g.without e.2) left).has i) = f.has i := by
  induction es generalizing taken left with
  | nil => exact h i
  | cons e es ih =>
    obtain ⟨k, hk⟩ := hes e List.mem_cons_self
    have hes' : ∀ e ∈ es, ∃ k, ∀ i, e.2.has i = decide (i = k) := fun e he =>
      hes e (List.mem_cons_of_mem _ he)
    have hcontains : f.contains e.2 = f.has k := by
      rw [Bool.eq_iff_iff, contains_iff]
      simp [hk]
    rw [List.filter_cons, List.foldl_cons, hcontains]
    cases hfk : f.has k with
    | true =>
      -- the bit moves from what is left to what is taken
      refine ih hes' fun j => ?_
      have hj := h j
      by_cases hjk : j = k
      · subst hjk
        simp [hk, hfk]
      · simp [hk, hjk, hj]
    | false =>
      -- the bit is neither here nor there
      refine ih hes' fun j => ?_
      have hj := h j
      by_cases hjk : j = k
      · subst hjk
        rw [hfk, Bool.or_eq_false_iff] at hj
        simp [hk, hfk, hj]
      · simp [hk, hjk, hj]

/-- A set is the union of the words that it is written with. -/
theorem foldl_union_parts (f : Flags) :
    f.parts.foldl (fun g e => g.union e.2) empty = f := by
  refine ext_has fun i => ?_
  have hstart : ∀ j, (empty.has j || f.has j) = f.has j := fun j => by simp
  have hall := has_foldl_union (fun e he => has_of_mem_named he) hstart i
  unfold parts
  rw [List.foldl_append]
  split_ifs with hzero
  · have hnone : f.unnamed.has i = false := by simp [has, hzero]
    rw [← hall]
    change _ = (_ || f.unnamed.has i)
    rw [hnone, Bool.or_false, List.foldl_nil]
  · rw [List.foldl_cons, List.foldl_nil, has_union]
    exact hall

/-! ### The text of a set -/

theorem foldlM_parseOne {es : List (String × Flags)} (h : ∀ e ∈ es, parseOne e.1 = .ok e.2)
    (f : Flags) :
    (es.map Prod.fst).foldlM (fun g part => g.union <$> parseOne part) f =
      .ok (es.foldl (fun g e => g.union e.2) f) := by
  induction es generalizing f with
  | nil => rfl
  | cons e es ih =>
    have he := h e List.mem_cons_self
    simp only [List.map_cons, List.foldlM_cons, he, List.foldl_cons]
    exact ih (fun e' he' => h e' (List.mem_cons_of_mem e he')) _

theorem map_trim_splitAll_print {f : Flags} (h : f.parts ≠ []) :
    (Text.splitAll '|' f.print).map Text.trim = f.parts.map Prod.fst := by
  have hwords : ∀ cs ∈ (f.parts.map Prod.fst).map String.toList, Text.IsWord cs := by
    intro cs hcs
    obtain ⟨s, hs, rfl⟩ := List.mem_map.1 hcs
    obtain ⟨e, he, rfl⟩ := List.mem_map.1 hs
    exact isWord_of_mem_parts he
  have hnil : ∀ c ∈ ([] : List Char), c ≠ '|' ∧ Text.isBlank c = true := List.forall_mem_nil _
  have hcut := Text.map_stripEnds_fields_intercalate (by simpa using h) hwords hnil
  have htrim : (Text.trim ∘ String.ofList) = String.ofList ∘ Text.stripEnds Text.isBlank := by
    funext cs
    simp [Text.trim]
  rw [Text.splitAll, print_eq, String.toList_intercalate, List.map_map, htrim, ← List.map_map]
  rw [List.nil_append] at hcut
  exact (congrArg (List.map String.ofList) hcut).trans (by simp [Function.comp_def])

theorem blank_print {f : Flags} (h : f.parts ≠ []) : Text.blank f.print = false := by
  obtain ⟨e, es, he⟩ := List.exists_cons_of_ne_nil h
  obtain ⟨hne, hword⟩ := isWord_of_mem_parts (f := f) (e := e) (he ▸ List.mem_cons_self)
  obtain ⟨c, cs, hcs⟩ := List.exists_cons_of_ne_nil hne
  have hc : Text.isBlank c = false := (hword c (hcs ▸ List.mem_cons_self)).2
  have hmem : c ∈ f.print.toList := by
    rw [print_eq, String.toList_intercalate, he]
    cases es with
    | nil => simp [hcs]
    | cons e' es => simp [hcs, List.intercalate_cons_cons]
  rw [Text.blank, List.all_eq_false]
  exact ⟨c, hmem, by simp [hc]⟩

/-- **Every set of flags is read back from its text**, bits without a name included. -/
theorem parse_print (f : Flags) : parse f.print = .ok f := by
  by_cases h : f.parts = []
  · have hf : f = empty := by
      rw [← foldl_union_parts f, h]
      rfl
    subst hf
    decide
  · have hblank := blank_print h
    have hfold := foldlM_parseOne (fun e (he : e ∈ f.parts) => parseOne_of_mem_parts he) empty
    rw [← map_trim_splitAll_print h, List.foldlM_map, foldl_union_parts] at hfold
    rw [parse, hblank, if_neg Bool.false_ne_true]
    exact hfold

end Flags

end TagHelpers
