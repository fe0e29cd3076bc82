import TagHelpers.Json.Print
import Mathlib.Data.List.TakeDrop
import Mathlib.Tactic.IntervalCases

/-!
# Reading what was written

A value without a fault is read back from its text, whatever the spacing. The text of a value may be
followed by more; it has to be something that does not go on with a number, as a digit would.

* `readQuotation_print`: strings, with their escapes.
* `readNumeral_toDigits`: natural numbers.
* `Value.readValue_print`: values, by induction on them. The fuel that is needed is twice the length
  of the text.
* `scan_print`: whole texts.
-/

namespace TagHelpers.Json

/-! ### White space -/

theorem skipSpace_append {blank : List Char} (h : ∀ c ∈ blank, isSpace c = true) (cs : List Char) :
    skipSpace (blank ++ cs) = skipSpace cs :=
  List.dropWhile_append_of_pos h

theorem skipSpace_cons {c : Char} (h : isSpace c = false) (cs : List Char) :
    skipSpace (c :: cs) = c :: cs :=
  List.dropWhile_cons_of_neg (Bool.eq_false_iff.1 h)

/-- That a text does not go on with a number. -/
def EndsNumber (cs : List Char) : Prop :=
  ∀ c ∈ cs.head?, c.isDigit = false ∧ c ≠ '.' ∧ c ≠ 'e' ∧ c ≠ 'E'

theorem endsNumber_nil : EndsNumber [] :=
  fun _ h => nomatch h

theorem endsNumber_cons {c : Char} {cs : List Char}
    (h : c.isDigit = false ∧ c ≠ '.' ∧ c ≠ 'e' ∧ c ≠ 'E') : EndsNumber (c :: cs) := by
  intro c' hc'
  obtain rfl := Option.some.inj hc'
  exact h

theorem endsNumber_append {blank cs : List Char} (h : ∀ c ∈ blank, isSpace c = true)
    (hcs : EndsNumber cs) : EndsNumber (blank ++ cs) := by
  cases blank with
  | nil => exact hcs
  | cons c blank =>
    refine endsNumber_cons ?_
    have hc := h c List.mem_cons_self
    simp only [isSpace, Bool.or_eq_true, beq_iff_eq] at hc
    rcases hc with ((rfl | rfl) | rfl) | rfl <;> decide

/-! ### Strings -/

theorem hexDigit_digitChar {n : Nat} (h : n < 16) : hexDigit n.digitChar = some n := by
  interval_cases n <;> rfl

/-- A number is read back from its four hexadecimal digits. -/
theorem hexUnit_digitChar {n : Nat} (h : n < 65536) :
    hexUnit (n / 4096 % 16).digitChar (n / 256 % 16).digitChar (n / 16 % 16).digitChar
      (n % 16).digitChar = some n := by
  have hmod : ∀ m : Nat, hexDigit (m % 16).digitChar = some (m % 16) := fun m =>
    hexDigit_digitChar (Nat.mod_lt m (by decide))
  simp only [hexUnit, hmod, Option.bind_eq_bind, Option.bind_some, Option.pure_def,
    Option.some.injEq]
  omega

theorem readQuotation_escape {e c : Char} (he : simpleEscape e = some c) (rest : List Char) :
    readQuotation ('\\' :: e :: rest) = Quotation.push (.char c) (readQuotation rest) := by
  have hu : e ≠ 'u' := by
    rintro rfl
    cases he
  rw [readQuotation]
  · rw [he]
  all_goals simp_all

theorem readQuotation_unit {c : Char} (hc : c.toNat < 0x20) (rest : List Char) :
    readQuotation ('\\' :: 'u' :: printUnit c.toNat ++ rest) =
      Quotation.push (.char c) (readQuotation rest) := by
  have hlt : c.toNat < 65536 := by omega
  have hpiece : pieceOfUnit c.toNat = .char c := by
    have hhigh : isHigh c.toNat = false := by unfold isHigh; simp; omega
    have hlow : isLow c.toNat = false := by unfold isLow; simp; omega
    rw [pieceOfUnit, hhigh, hlow, Bool.or_self, if_neg Bool.false_ne_true, Char.ofNat_toNat]
  simp only [printUnit, List.map_cons, List.map_nil, List.cons_append, List.nil_append]
  rw [readQuotation, hexUnit_digitChar hlt]
  simp only [hpiece]

theorem readQuotation_plain {c : Char} (hquote : c ≠ '"') (hslash : c ≠ '\\')
    (hc : ¬ c.toNat < 0x20) (rest : List Char) :
    readQuotation (c :: rest) = Quotation.push (.char c) (readQuotation rest) := by
  rw [readQuotation]
  · rw [if_neg hc]
  all_goals simp_all

/-- A character is read back from the way in which it is written. -/
theorem readQuotation_printChar (c : Char) (rest : List Char) :
    readQuotation (printChar c ++ rest) = Quotation.push (.char c) (readQuotation rest) := by
  unfold printChar
  split_ifs with h1 h2 h3 h4 h5 h6 h7 h8
  · subst h1; exact readQuotation_escape rfl rest
  · subst h2; exact readQuotation_escape rfl rest
  · subst h3; exact readQuotation_escape rfl rest
  · subst h4; exact readQuotation_escape rfl rest
  · subst h5; exact readQuotation_escape rfl rest
  · subst h6; exact readQuotation_escape rfl rest
  · subst h7; exact readQuotation_escape rfl rest
  · exact readQuotation_unit h8 rest
  · exact readQuotation_plain h1 h2 h8 rest

/-- **A string is read back from its text.** -/
theorem readQuotation_print (s : String) (rest : List Char) :
    readQuotation ((Quotation.ofText s).pieces.flatMap Piece.print ++ '"' :: rest) =
      (.ofText s, some rest) := by
  unfold Quotation.ofText
  simp only
  generalize s.toList = cs
  induction cs with
  | nil => rfl
  | cons c cs ih =>
    rw [List.map_cons, List.flatMap_cons, List.append_assoc]
    refine (readQuotation_printChar c _).trans ?_
    rw [ih]
    rfl

/-! ### Numbers -/

/-- Only zero is written with a leading zero. -/
theorem eq_zero_of_head?_toDigits {n : Nat} (h : (Nat.toDigits 10 n).head? = some '0') :
    n = 0 := by
  induction n using Nat.strongRecOn with
  | ind n ih =>
    rcases lt_or_ge n 10 with hn | hn
    · rw [Nat.toDigits_of_lt_base hn] at h
      exact Nat.digitChar_eq_zero.1 (Option.some.inj h)
    · rw [Nat.toDigits_of_base_le (by decide) hn, List.head?_append] at h
      obtain ⟨c, hc⟩ := Option.isSome_iff_exists.1
        (List.isSome_head?.2 (Nat.toDigits_ne_nil (n := n / 10) (b := 10)))
      rw [hc, Option.some_or] at h
      have := ih (n / 10) (by omega) (hc.trans h)
      omega

theorem readDigits_append {digits rest : List Char} (hne : digits ≠ [])
    (hdigits : ∀ c ∈ digits, c.isDigit = true) (hrest : EndsNumber rest) :
    readDigits (digits ++ rest) = .ok (digits, rest) := by
  have hspan : (digits ++ rest).span Char.isDigit = (digits, rest) := by
    rw [List.span_eq_takeWhile_dropWhile, List.takeWhile_append_of_pos hdigits,
      List.dropWhile_append_of_pos hdigits]
    cases rest with
    | nil => simp
    | cons c rest =>
      have hc := (hrest c rfl).1
      simp [hc]
  unfold readDigits
  rw [hspan]
  cases digits with
  | nil => exact absurd rfl hne
  | cons c digits => rfl

theorem readWhole_toDigits (n : Nat) {rest : List Char} (hrest : EndsNumber rest) :
    readWhole (Nat.toDigits 10 n ++ rest) = .ok (Nat.toDigits 10 n, rest) := by
  have hzero : ¬ ((Nat.toDigits 10 n).head? = some '0' ∧ 1 < (Nat.toDigits 10 n).length) := by
    rintro ⟨hhead, hlength⟩
    obtain rfl := eq_zero_of_head?_toDigits hhead
    exact absurd hlength (by decide)
  have hdigits : ∀ c ∈ Nat.toDigits 10 n, c.isDigit = true := fun c hc =>
    Nat.isDigit_of_mem_toDigits (by decide) (by decide) hc
  simp only [readWhole, readDigits_append Nat.toDigits_ne_nil hdigits hrest, bind, Except.bind,
    if_neg hzero]
  rfl

theorem readFraction_of_endsNumber {rest : List Char} (hrest : EndsNumber rest) :
    readFraction rest = .ok (none, rest) := by
  cases rest with
  | nil => rfl
  | cons c rest =>
    have hc := (hrest c rfl).2.1
    unfold readFraction
    split
    · simp_all
    · rfl

theorem readExponent_of_endsNumber {rest : List Char} (hrest : EndsNumber rest) :
    readExponent rest = .ok (none, rest) := by
  cases rest with
  | nil => rfl
  | cons c rest =>
    obtain ⟨-, -, he, hE⟩ := hrest c rfl
    unfold readExponent
    exact if_neg (not_or.2 ⟨he, hE⟩)

/-- **A natural number is read back from its digits.** -/
theorem readNumeral_toDigits (n : Nat) {rest : List Char} (hrest : EndsNumber rest) :
    readNumeral false (Nat.toDigits 10 n ++ rest) =
      .ok ({ whole := Nat.toDigits 10 n }, rest) := by
  simp only [readNumeral, readWhole_toDigits n hrest, readFraction_of_endsNumber hrest,
    readExponent_of_endsNumber hrest, bind, Except.bind]
  rfl

theorem exists_cons_toDigits (n : Nat) :
    ∃ c cs, Nat.toDigits 10 n = c :: cs ∧ c.isDigit = true := by
  obtain ⟨c, cs, h⟩ := List.exists_cons_of_ne_nil (Nat.toDigits_ne_nil (n := n) (b := 10))
  refine ⟨c, cs, h, Nat.isDigit_of_mem_toDigits (b := 10) (n := n) (by decide) (by decide) ?_⟩
  rw [h]
  exact List.mem_cons_self

theorem readScalar_toDigits (n : Nat) {rest : List Char} (hrest : EndsNumber rest) :
    readScalar (Nat.toDigits 10 n ++ rest) =
      (.number { whole := Nat.toDigits 10 n }, some rest) := by
  have hread := readNumeral_toDigits n hrest
  obtain ⟨c, cs, h, hc⟩ := exists_cons_toDigits n
  rw [h] at hread ⊢
  rw [List.cons_append] at hread ⊢
  unfold readScalar
  -- a digit begins neither one of the words nor a sign
  split
  · simp_all
  · simp_all
  · simp_all
  · simp_all
  · simp_all
  · simp_all [finishNumber]

/-! ### Values -/

mutual

/-- That a value has no fault: it is made of words, natural numbers, texts and finished arrays and
objects of such values. -/
def Value.IsWhole : Value → Prop
  | .null | .bool _ => True
  | .number n => ∃ k, n = { whole := Nat.toDigits 10 k }
  | .string q => ∃ s, q = .ofText s
  | .array items => items.IsWhole
  | .object members => members.IsWhole
  | .missing | .unfinished _ | .broken _ => False

/-- That an array is finished and its items have no fault. -/
def Items.IsWhole : Items → Prop
  | .done => True
  | .cut _ => False
  | .cons item rest => item.IsWhole ∧ rest.IsWhole

/-- That an object is finished and its keys and values have no fault. -/
def Members.IsWhole : Members → Prop
  | .done => True
  | .cut _ => False
  | .cons key value rest => (∃ s, key = .ofText s) ∧ value.IsWhole ∧ rest.IsWhole

end

variable (w : Spacing)

/-- The text of a value starts with a character that is no white space and closes no array. -/
theorem Value.IsWhole.exists_cons {v : Value} (h : v.IsWhole) (depth : Nat) :
    ∃ c cs, v.print w depth = c :: cs ∧ isSpace c = false ∧ c ≠ ']' := by
  cases v with
  | null => exact ⟨'n', _, rfl, by decide⟩
  | bool b =>
    cases b
    · exact ⟨'f', _, rfl, by decide⟩
    · exact ⟨'t', _, rfl, by decide⟩
  | number n =>
    obtain ⟨k, rfl⟩ := h
    obtain ⟨c, cs, hk, hc⟩ := exists_cons_toDigits k
    refine ⟨c, cs, ?_, ?_, ?_⟩
    · simp [Value.print, Numeral.print, hk]
    · rw [Bool.eq_false_iff]
      intro hspace
      simp only [isSpace, Bool.or_eq_true, beq_iff_eq] at hspace
      rcases hspace with ((rfl | rfl) | rfl) | rfl <;> simp at hc
    · rintro rfl
      simp at hc
  | string q => exact ⟨'"', _, rfl, by decide⟩
  | array items => exact ⟨'[', _, rfl, by decide⟩
  | object members => exact ⟨'\x7b', _, rfl, by decide⟩
  | missing => exact h.elim
  | unfinished f => exact h.elim
  | broken f => exact h.elim

/-! What stands between the parts of an array or an object is passed over. -/

theorem readValue_append {blank : List Char} (h : ∀ c ∈ blank, isSpace c = true) (fuel : Nat)
    (cs : List Char) : readValue fuel (blank ++ cs) = readValue fuel cs := by
  cases fuel with
  | zero => rfl
  | succ fuel => simp only [readValue, skipSpace_append h]

theorem nextItem_cons {blank : List Char} (h : ∀ c ∈ blank, isSpace c = true) {c : Char}
    (hc : isSpace c = false) (hc' : c ≠ ']') (first : Bool) (cs : List Char) :
    nextItem first ((if first then [] else [',']) ++ (blank ++ c :: cs)) = .ok (c :: cs) := by
  have hskip : skipSpace (blank ++ c :: cs) = c :: cs := by
    rw [skipSpace_append h, skipSpace_cons hc]
  cases first with
  | true =>
    simp only [nextItem, if_true, List.nil_append, hskip]
  | false =>
    have hcomma : skipSpace (',' :: (blank ++ c :: cs)) = ',' :: (blank ++ c :: cs) :=
      skipSpace_cons (by decide) _
    simp [nextItem, hcomma, hskip, hc']

theorem nextItem_done {blank : List Char} (h : ∀ c ∈ blank, isSpace c = true) (first : Bool)
    (rest : List Char) : nextItem first (blank ++ ']' :: rest) = .error (.done, some rest) := by
  simp only [nextItem, skipSpace_append h, skipSpace_cons (c := ']') (by decide)]

theorem nextKey_cons {blank : List Char} (h : ∀ c ∈ blank, isSpace c = true) (first : Bool)
    (cs : List Char) :
    nextKey first ((if first then [] else [',']) ++ (blank ++ '"' :: cs)) = .ok cs := by
  have hskip : skipSpace (blank ++ '"' :: cs) = '"' :: cs := by
    rw [skipSpace_append h, skipSpace_cons (by decide)]
  cases first with
  | true => simp [nextKey, hskip]
  | false =>
    have hcomma : skipSpace (',' :: (blank ++ '"' :: cs)) = ',' :: (blank ++ '"' :: cs) :=
      skipSpace_cons (by decide) _
    simp [nextKey, hcomma, hskip]

theorem nextKey_done {blank : List Char} (h : ∀ c ∈ blank, isSpace c = true) (first : Bool)
    (rest : List Char) : nextKey first (blank ++ '\x7d' :: rest) = .error (.done, some rest) := by
  simp only [nextKey, skipSpace_append h, skipSpace_cons (c := '\x7d') (by decide)]

theorem afterColon_cons (rest : List Char) : afterColon (':' :: rest) = .ok rest := by
  simp only [afterColon, skipSpace_cons (c := ':') (by decide)]

/-- The white space before the bracket that closes an array or an object. -/
theorem closing_blank (depth : Nat) (first : Bool) :
    ∀ c ∈ if first then [] else w.line depth, isSpace c = true := by
  cases first with
  | true => exact fun _ h => nomatch h
  | false => exact w.line_blank depth

theorem Items.endsNumber_print (items : Items) (depth : Nat) (rest : List Char) :
    EndsNumber (items.print w depth false ++ ']' :: rest) := by
  cases items with
  | done => exact endsNumber_append (w.line_blank depth) (endsNumber_cons (by decide))
  | cut f => exact endsNumber_append (w.line_blank depth) (endsNumber_cons (by decide))
  | cons item items => exact endsNumber_cons (by decide)

theorem Members.endsNumber_print (members : Members) (depth : Nat) (rest : List Char) :
    EndsNumber (members.print w depth false ++ '\x7d' :: rest) := by
  cases members with
  | done => exact endsNumber_append (w.line_blank depth) (endsNumber_cons (by decide))
  | cut f => exact endsNumber_append (w.line_blank depth) (endsNumber_cons (by decide))
  | cons key value members => exact endsNumber_cons (by decide)

mutual

/-- **A value without a fault is read back from its text**, and what follows the text is left. -/
theorem Value.readValue_print (v : Value) (h : v.IsWhole) (depth fuel : Nat)
    {rest : List Char} (hrest : EndsNumber rest)
    (hfuel : 2 * (v.print w depth).length ≤ fuel) :
    readValue fuel (v.print w depth ++ rest) = (v, some rest) := by
  obtain ⟨c, cs, hcons, hc, -⟩ := h.exists_cons w depth
  -- a value takes up at least one character, so there is fuel for one step
  obtain ⟨fuel, rfl⟩ : ∃ k, fuel = k + 1 := by
    rw [hcons, List.length_cons] at hfuel
    exact ⟨fuel - 1, by omega⟩
  cases v with
  | null => rfl
  | bool b => cases b <;> rfl
  | number n =>
    obtain ⟨k, rfl⟩ := h
    have hprint : Value.print w depth (.number { whole := Nat.toDigits 10 k }) =
        Nat.toDigits 10 k := by
      simp [Value.print, Numeral.print]
    have hread := readScalar_toDigits k hrest
    obtain ⟨d, ds, hk, hd⟩ := exists_cons_toDigits k
    rw [hprint]
    rw [hprint] at hcons
    rw [hcons] at hread hk ⊢
    obtain ⟨rfl, rfl⟩ := List.cons.inj hk
    simp only [readValue, List.cons_append, skipSpace_cons hc]
    split <;> simp_all
  | string q =>
    obtain ⟨s, rfl⟩ := h
    have hprint : Value.print w depth (.string (.ofText s)) ++ rest =
        '"' :: ((Quotation.ofText s).pieces.flatMap Piece.print ++ '"' :: rest) := by
      simp [Value.print, Quotation.print]
    rw [hprint]
    simp only [readValue, skipSpace_cons (c := '"') (by decide), readQuotation_print]
  | array items =>
    have hprint : Value.print w depth (.array items) ++ rest =
        '[' :: (items.print w depth true ++ ']' :: rest) := by
      simp [Value.print]
    have hfuel' : 2 * (items.print w depth true).length + 1 ≤ fuel := by
      simp [Value.print] at hfuel
      omega
    rw [hprint]
    simp only [readValue, skipSpace_cons (c := '[') (by decide),
      items.readItems_print h depth true fuel rest hfuel']
  | object members =>
    have hprint : Value.print w depth (.object members) ++ rest =
        '\x7b' :: (members.print w depth true ++ '\x7d' :: rest) := by
      simp [Value.print]
    have hfuel' : 2 * (members.print w depth true).length + 1 ≤ fuel := by
      simp [Value.print] at hfuel
      omega
    rw [hprint]
    simp only [readValue, skipSpace_cons (c := '\x7b') (by decide),
      members.readMembers_print h depth true fuel rest hfuel']
  | missing => exact h.elim
  | unfinished f => exact h.elim
  | broken f => exact h.elim

/-- The items of an array are read back from their text. -/
theorem Items.readItems_print (items : Items) (h : items.IsWhole) (depth : Nat) (first : Bool)
    (fuel : Nat) (rest : List Char)
    (hfuel : 2 * (items.print w depth first).length + 1 ≤ fuel) :
    readItems fuel first (items.print w depth first ++ ']' :: rest) = (items, some rest) := by
  obtain ⟨fuel, rfl⟩ : ∃ k, fuel = k + 1 := ⟨fuel - 1, by omega⟩
  cases items with
  | done =>
    simp only [readItems, Items.print, nextItem_done (closing_blank w depth first)]
  | cut f => exact h.elim
  | cons item items =>
    obtain ⟨hitem, hitems⟩ := h
    obtain ⟨c, cs, hcons, hc, hc'⟩ := hitem.exists_cons w (depth + 1)
    have hprint : Items.print w depth first (.cons item items) ++ ']' :: rest =
        (if first then [] else [',']) ++ (w.line (depth + 1) ++
          (item.print w (depth + 1) ++ (items.print w depth false ++ ']' :: rest))) := by
      simp [Items.print]
    have hlength : (item.print w (depth + 1)).length + (items.print w depth false).length ≤
        (Items.print w depth first (.cons item items)).length := by
      simp [Items.print]
      omega
    have hone : 1 ≤ (item.print w (depth + 1)).length := by
      rw [hcons]
      simp
    have hnext : nextItem first (Items.print w depth first (.cons item items) ++ ']' :: rest) =
        .ok (item.print w (depth + 1) ++ (items.print w depth false ++ ']' :: rest)) := by
      rw [hprint, hcons]
      exact nextItem_cons (w.line_blank _) hc hc' first _
    have hread := item.readValue_print hitem (depth + 1) fuel
      (items.endsNumber_print w depth rest) (by omega)
    have htail := items.readItems_print hitems depth false fuel rest (by omega)
    simp only [readItems, hnext, hread, htail]

/-- The members of an object are read back from their text. -/
theorem Members.readMembers_print (members : Members) (h : members.IsWhole) (depth : Nat)
    (first : Bool) (fuel : Nat) (rest : List Char)
    (hfuel : 2 * (members.print w depth first).length + 1 ≤ fuel) :
    readMembers fuel first (members.print w depth first ++ '\x7d' :: rest) =
      (members, some rest) := by
  obtain ⟨fuel, rfl⟩ : ∃ k, fuel = k + 1 := ⟨fuel - 1, by omega⟩
  cases members with
  | done =>
    simp only [readMembers, Members.print, nextKey_done (closing_blank w depth first)]
  | cut f => exact h.elim
  | cons key value members =>
    obtain ⟨⟨s, rfl⟩, hvalue, hmembers⟩ := h
    have hprint : Members.print w depth first (.cons (.ofText s) value members) ++ '\x7d' :: rest =
        (if first then [] else [',']) ++ (w.line (depth + 1) ++
          '"' :: ((Quotation.ofText s).pieces.flatMap Piece.print ++ '"' ::
            (':' :: (w.gap ++ (value.print w (depth + 1) ++
              (members.print w depth false ++ '\x7d' :: rest)))))) := by
      simp [Members.print, Quotation.print]
    have hlength : (value.print w (depth + 1)).length + (members.print w depth false).length + 1 ≤
        (Members.print w depth first (.cons (.ofText s) value members)).length := by
      simp [Members.print]
      omega
    have hread := value.readValue_print hvalue (depth + 1) fuel
      (members.endsNumber_print w depth rest) (by omega)
    have htail := members.readMembers_print hmembers depth false fuel rest (by omega)
    rw [hprint]
    simp only [readMembers, nextKey_cons (w.line_blank _), readQuotation_print, afterColon_cons,
      readValue_append w.gap_blank, hread, htail]

end

/-- **A text that was written is read as the value that it was written for**, and nothing
follows. -/
theorem scan_print {v : Value} (h : v.IsWhole) :
    scan (String.ofList (v.print w 0)) = (v, false) := by
  have hread := v.readValue_print w h 0 (2 * (v.print w 0).length + 2) endsNumber_nil (by omega)
  rw [List.append_nil] at hread
  simp only [scan, String.toList_ofList, hread]
  rfl

end TagHelpers.Json
