import TagHelpers.Json.Reader
import TagHelpers.Proofs.Json.Scan

/-!
# Reading stored data

`Stored reader v a` says that the value `v` has no fault and `reader` reads the datum `a` from it.
The stored form of a datum is built up in the way in which its reader is, and so are the proofs that
it is read back: there is one lemma for each way of building a reader. A record is read field by
field (`Filled`). What is stored is read back from its text by `Stored.run`.
-/

namespace TagHelpers.Json

/-- That a value has no fault and a reader reads a datum from it. -/
structure Stored {α : Type} (reader : Reader α) (v : Value) (a : α) : Prop where
  whole : v.IsWhole
  read : reader v = .ok a

/-- **What is stored is read back from its text.** -/
theorem Stored.run {α : Type} {reader : Reader α} {v : Value} {a : α} (h : Stored reader v a)
    (w : Spacing) : Reader.run reader (String.ofList (v.print w 0)) = .ok a := by
  simp only [Reader.run, scan_print w h.whole, h.read, bind, Except.bind]
  rfl

/-! ### Texts and words -/

theorem joinPieces_map_char (cs : List Char) : joinPieces none (cs.map .char) = .ok cs := by
  induction cs with
  | nil => rfl
  | cons c cs ih =>
    rw [List.map_cons, joinPieces, ih]
    rfl

@[simp]
theorem Quotation.read_ofText (s : String) : (Quotation.ofText s).read = .ok s := by
  simp only [Quotation.read, Quotation.text, Quotation.ofText, joinPieces_map_char, Functor.map,
    Except.map, Except.mapError, String.ofList_toList]

theorem Stored.text (s : String) : Stored Reader.text (.ofText s) s :=
  ⟨⟨s, rfl⟩, Quotation.read_ofText s⟩

theorem Stored.text? (s : Option String) : Stored Reader.text? (.ofText? s) s := by
  cases s with
  | none => exact ⟨trivial, rfl⟩
  | some s =>
    refine ⟨⟨s, rfl⟩, ?_⟩
    have hread : Reader.text (.ofText s) = .ok s := (Stored.text s).read
    exact congrArg (some <$> ·) hread

theorem Stored.bool (b : Bool) : Stored Reader.bool (.bool b) b :=
  ⟨trivial, rfl⟩

theorem Stored.parsed {α : Type} {parse : String → Except String α} {s : String} {a : α}
    (h : parse s = .ok a) (expected : String) :
    Stored (Reader.parsed expected parse) (.ofText s) a := by
  refine ⟨⟨s, rfl⟩, ?_⟩
  simp only [Reader.parsed, Value.ofText, Quotation.read_ofText, bind, Except.bind, h,
    Except.mapError]

/-- A choice is stored by a name that no choice before it has. -/
theorem Stored.choice {α : Type} {name : α → String} {choices : List α} {a : α}
    (h : choices.find? (name · == name a) = some a) :
    Stored (Reader.choice name choices) (.ofText (name a)) a := by
  refine ⟨⟨name a, rfl⟩, ?_⟩
  simp only [Reader.choice, Value.ofText, Quotation.read_ofText, bind, Except.bind, Reader.choose,
    h]

/-! ### Offsets -/

theorem le_ofDigitChars (cs : List Char) (n : Nat) : n ≤ Nat.ofDigitChars 10 cs n := by
  induction cs generalizing n with
  | nil => exact le_rfl
  | cons c cs ih =>
    calc n ≤ 10 * n + (c.toNat - '0'.toNat) := by omega
      _ ≤ Nat.ofDigitChars 10 cs (10 * n + (c.toNat - '0'.toNat)) := ih _

/-- As long as the number fits, all digits are taken in. -/
theorem gather_eq {cs : List Char} {n : Nat} (h : Nat.ofDigitChars 10 cs n ≤ maxUnsigned) :
    gather n cs = (Nat.ofDigitChars 10 cs n, 0) := by
  induction cs generalizing n with
  | nil => rfl
  | cons c cs ih =>
    have hnext : 10 * n + (c.toNat - '0'.toNat) ≤ maxUnsigned := (le_ofDigitChars cs _).trans h
    simp only [gather, Nat.mul_comm n 10, if_pos hnext]
    exact ih h

/-- A number of 64 bits is the value of its digits. -/
theorem value_toDigits {n : Nat} (h : n ≤ maxUnsigned) :
    Numeral.value { whole := Nat.toDigits 10 n } = some (.integer n) := by
  have hgather : gather 0 (Nat.toDigits 10 n) = (n, 0) := by
    rw [gather_eq (by rwa [Nat.ofDigitChars_ten_toDigits]), Nat.ofDigitChars_ten_toDigits]
  simp [Numeral.value, Numeral.leading, hgather, gather]

theorem Stored.offset (n : UInt32) : Stored Reader.offset (.ofNat n.toNat) n := by
  refine ⟨⟨n.toNat, rfl⟩, ?_⟩
  have hlt := n.toNat_lt
  have hmax : n.toNat ≤ maxUnsigned := by
    unfold maxUnsigned
    simp [UInt64.size]
    omega
  simp only [Reader.offset, Value.ofNat, value_toDigits hmax]
  rw [if_pos ⟨by omega, by simpa [UInt32.size] using hlt⟩]
  simp

/-! ### Lists and maps -/

theorem Stored.list {α : Type} {reader : Reader α} {write : α → Value} {as : List α}
    (h : ∀ a ∈ as, Stored reader (write a) a) :
    Stored (Reader.list reader) (.ofList write as) as := by
  have hitems : (Items.ofList (as.map write)).IsWhole ∧
      Reader.items reader (.ofList (as.map write)) = .ok as := by
    induction as with
    | nil => exact ⟨trivial, rfl⟩
    | cons a as ih =>
      obtain ⟨hwhole, hread⟩ := ih fun b hb => h b (List.mem_cons_of_mem a hb)
      have ha := h a List.mem_cons_self
      refine ⟨⟨ha.whole, hwhole⟩, ?_⟩
      simp only [List.map_cons, Items.ofList, Reader.items, ha.read, hread, bind, Except.bind]
      rfl
  exact ⟨hitems.1, hitems.2⟩

/-- The members of an object are taken in one after another. -/
theorem Stored.map {α σ : Type} {reader : Reader α} {write : α → Value}
    {entries : List (String × α)} (h : ∀ e ∈ entries, Stored reader (write e.2) e.2) (empty : σ)
    (insert : σ → String → α → σ) :
    Stored (Reader.map reader empty insert) (.record (entries.map fun e => (e.1, write e.2)))
      (entries.foldl (fun s e => insert s e.1 e.2) empty) := by
  have hmembers : ∀ s, (Members.ofList (entries.map fun e => (e.1, write e.2))).IsWhole ∧
      Reader.members reader insert s (.ofList (entries.map fun e => (e.1, write e.2))) =
        .ok (entries.foldl (fun s e => insert s e.1 e.2) s) := by
    induction entries with
    | nil => exact fun s => ⟨trivial, rfl⟩
    | cons e entries ih =>
      intro s
      obtain ⟨hwhole, hread⟩ := ih (fun e' he' => h e' (List.mem_cons_of_mem e he'))
        (insert s e.1 e.2)
      have he := h e List.mem_cons_self
      refine ⟨⟨⟨e.1, rfl⟩, he.whole, hwhole⟩, ?_⟩
      simp only [List.map_cons, Members.ofList, Reader.members, Quotation.read_ofText, he.read,
        bind, Except.bind, hread, List.foldl_cons]
  exact ⟨(hmembers empty).1, (hmembers empty).2⟩

/-! ### Records -/

/-- `Filled fields members s t` says that the members are the fields in their order, each with a
value that is read, and that storing these values turns `s` into `t`. -/
inductive Filled {σ : Type} : List (Field σ) → List (String × Value) → σ → σ → Prop
  | nil (s : σ) : Filled [] [] s s
  | cons {f : Field σ} {v : Value} {fields : List (Field σ)} {members : List (String × Value)}
      {s s' t : σ} (whole : v.IsWhole) (store : f.store v s = .ok s')
      (rest : Filled fields members s' t) : Filled (f :: fields) ((f.key, v) :: members) s t

namespace Filled

variable {σ : Type} {fields : List (Field σ)} {members : List (String × Value)} {s t : σ}

section

variable {α : Type} {reader : Reader α} {v : Value} {a : α} {key : String} {set : α → σ → σ}

theorem mandatory (h : Stored reader v a) (rest : Filled fields members (set a s) t) :
    Filled (.mandatory key reader set :: fields) ((key, v) :: members) s t :=
  .cons h.whole (congrArg ((set · s) <$> ·) h.read) rest

theorem optional (h : Stored reader v a) (rest : Filled fields members (set a s) t) :
    Filled (.optional key reader set :: fields) ((key, v) :: members) s t :=
  .cons h.whole (congrArg ((set · s) <$> ·) h.read) rest

end

theorem whole (h : Filled fields members s t) : (Members.ofList members).IsWhole := by
  induction h with
  | nil s => exact trivial
  | cons hwhole _ _ ih => exact ⟨⟨_, rfl⟩, hwhole, ih⟩

/-- Filling goes on for as long as the keys are those of a record and are new. -/
theorem fillByKey_eq (h : Filled fields members s t) {all : List (Field σ)}
    (hall : ∀ f ∈ fields, all.find? (·.key == f.key) = some f) (seen : List String)
    (hnew : ∀ f ∈ fields, f.key ∉ seen) (hnodup : (fields.map Field.key).Nodup) :
    Reader.fillByKey all seen s (.ofList members) =
      .ok ((fields.map Field.key).reverse ++ seen, t) := by
  induction h generalizing seen with
  | nil s => rfl
  | @cons f v fields members s s' t _ hstore _ ih =>
    rw [List.map_cons, List.nodup_cons] at hnodup
    have hfind := hall f List.mem_cons_self
    have hseen : seen.contains f.key = false := by
      simpa using hnew f List.mem_cons_self
    have hnew' : ∀ f' ∈ fields, f'.key ∉ f.key :: seen := by
      intro f' hf' hmem
      rcases List.mem_cons.1 hmem with heq | hmem
      · exact hnodup.1 (heq ▸ List.mem_map_of_mem hf')
      · exact hnew f' (List.mem_cons_of_mem f hf') hmem
    have hrest := ih (fun f' hf' => hall f' (List.mem_cons_of_mem f hf')) (f.key :: seen) hnew'
      hnodup.2
    simp only [Members.ofList, Reader.fillByKey, Quotation.read_ofText, bind, Except.bind, hfind,
      hseen, Bool.false_eq_true, if_false, hstore, hrest]
    simp

end Filled

/-- A field is found by its key if no other field has it. -/
theorem find?_key {σ : Type} {fields : List (Field σ)} (hnodup : (fields.map Field.key).Nodup)
    {f : Field σ} (hf : f ∈ fields) : fields.find? (·.key == f.key) = some f := by
  induction fields with
  | nil => cases hf
  | cons g fields ih =>
    rw [List.map_cons, List.nodup_cons] at hnodup
    rcases List.mem_cons.1 hf with rfl | hf
    · simp
    · have hne : (g.key == f.key) = false := by
        rw [beq_eq_false_iff_ne]
        intro heq
        exact hnodup.1 (heq ▸ List.mem_map_of_mem hf)
      rw [List.find?_cons, hne]
      exact ih hnodup.2 hf

/-- A record is stored by an object with all its fields. -/
theorem Stored.record {σ : Type} {name : String} {fields : List (Field σ)}
    {members : List (String × Value)} {blank s : σ} (hnodup : (fields.map Field.key).Nodup)
    (h : Filled fields members blank s) :
    Stored (Reader.record name fields blank) (.record members) s := by
  refine ⟨h.whole, ?_⟩
  have hfill := h.fillByKey_eq (fun f hf => find?_key hnodup hf) []
    (fun f _ => List.not_mem_nil) hnodup
  have hfound : fields.find? (fun f =>
      f.required && !((fields.map Field.key).reverse ++ []).contains f.key) = none := by
    rw [List.find?_eq_none]
    intro f hf
    simp only [List.append_nil, List.contains_reverse, List.contains_iff_mem.2
      (List.mem_map_of_mem hf), Bool.not_true, Bool.and_false, Bool.false_eq_true,
      not_false_eq_true]
  simp only [Reader.record, Value.record, hfill, bind, Except.bind, hfound]
  rfl

end TagHelpers.Json
