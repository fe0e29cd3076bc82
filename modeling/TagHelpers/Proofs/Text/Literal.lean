import TagHelpers.Proofs.Text

/-!
# Reading literals

The inside of a literal is read from left to right, a backslash always together with the character
behind it. Read so, no quote and no line end stands for itself, every backslash starts one of four
escapes, and the characters that the symbols stand for are those of the text.

* `symbols_flatMap_written_append`, `flatMap_written_symbols`: reading and writing undo each other.
* `spells_symbols_iff`: the escaped text is read as the text, and nothing else is.
* `literal_readable`: the same for literals, so that no two texts have the same one.
-/

namespace TagHelpers.Text

/-- What is read at one place inside a literal. -/
inductive Symbol where
  /-- A character other than a backslash. -/
  | plain (c : Char)
  /-- A backslash and the character behind it. -/
  | escape (c : Char)
  /-- A backslash with nothing behind it. -/
  | dangling
  deriving DecidableEq, Repr

/-- The symbols inside a literal, from left to right. -/
def symbols : List Char → List Symbol
  | [] => []
  | ['\\'] => [.dangling]
  | '\\' :: c :: cs => .escape c :: symbols cs
  | c :: cs => .plain c :: symbols cs

namespace Symbol

/-- The characters that a symbol is read from. -/
def written : Symbol → List Char
  | plain c => [c]
  | escape c => ['\\', c]
  | dangling => ['\\']

/-- That a symbol may stand inside a literal: an escape is one of the four that there are, and what
has to be escaped does not stand for itself. -/
def Allowed : Symbol → Prop
  | plain c => c ∉ ['"', '\\', '\n', '\r']
  | escape c => c ∈ ['"', '\\', 'n', 'r']
  | dangling => False

instance : DecidablePred Allowed
  | plain _ => inferInstanceAs (Decidable (_ ∉ _))
  | escape _ => inferInstanceAs (Decidable (_ ∈ _))
  | dangling => inferInstanceAs (Decidable False)

/-- The character that a symbol stands for. -/
def char? : Symbol → Option Char
  | plain c => some c
  | escape '"' => some '"'
  | escape '\\' => some '\\'
  | escape 'n' => some '\n'
  | escape 'r' => some '\r'
  | escape _ => none
  | dangling => none

end Symbol

/-- The text that the inside of a literal stands for. -/
def decode? (inside : List Char) : Option (List Char) :=
  (symbols inside).mapM Symbol.char?

variable {c : Char} {cs inside : List Char} {x : Symbol} {xs : List Symbol}

/-! ### Reading and writing symbols -/

theorem symbols_cons_of_ne (h : c ≠ '\\') (cs : List Char) :
    symbols (c :: cs) = .plain c :: symbols cs :=
  symbols.eq_4 c cs (fun hc _ => h hc) fun _ _ hc _ => h hc

/-- Where an allowed symbol is written, it is read, whatever comes behind it. -/
theorem symbols_written_append (h : x.Allowed) (rest : List Char) :
    symbols (x.written ++ rest) = x :: symbols rest := by
  cases x with
  | plain c =>
    refine symbols_cons_of_ne ?_ rest
    rintro rfl
    exact h (by decide)
  | escape c => rfl
  | dangling => cases h

theorem symbols_flatMap_written_append (h : ∀ x ∈ xs, x.Allowed) (rest : List Char) :
    symbols (xs.flatMap Symbol.written ++ rest) = xs ++ symbols rest := by
  induction xs with
  | nil => rfl
  | cons x xs ih =>
    obtain ⟨hx, hxs⟩ := List.forall_mem_cons.1 h
    rw [List.flatMap_cons, List.append_assoc, symbols_written_append hx, ih hxs, List.cons_append]

/-- **Reading loses nothing.** -/
theorem flatMap_written_symbols (inside : List Char) :
    (symbols inside).flatMap Symbol.written = inside := by
  fun_induction symbols inside with
  | case1 => rfl
  | case2 => rfl
  | case3 c cs ih =>
    rw [List.flatMap_cons, ih, Symbol.written, List.cons_append, List.singleton_append]
  | case4 c cs _ _ ih => rw [List.flatMap_cons, ih, Symbol.written, List.singleton_append]

/-- What comes behind allowed symbols is read on its own. -/
theorem symbols_append (h : ∀ x ∈ symbols inside, x.Allowed) (rest : List Char) :
    symbols (inside ++ rest) = symbols inside ++ symbols rest := by
  have hrun := symbols_flatMap_written_append h rest
  rwa [flatMap_written_symbols] at hrun

/-! ### Symbols that stand for characters -/

theorem exists_allowed (c : Char) : ∃ x : Symbol, x.Allowed ∧ x.char? = some c := by
  by_cases hc : c ∈ escaped
  · simp only [escaped, List.mem_cons, List.not_mem_nil, or_false] at hc
    rcases hc with rfl | rfl | rfl | rfl
    · exact ⟨.escape '"', by decide, rfl⟩
    · exact ⟨.escape '\\', by decide, rfl⟩
    · exact ⟨.escape 'n', by decide, rfl⟩
    · exact ⟨.escape 'r', by decide, rfl⟩
  · exact ⟨.plain c, hc, rfl⟩

/-- A character is escaped to what an allowed symbol for it is read from. -/
theorem written_eq_escape (h : x.Allowed) (hc : x.char? = some c) : x.written = escape c := by
  cases x with
  | plain c' =>
    obtain rfl := Option.some.inj hc
    exact (escape_of_not_mem h).symm
  | escape e =>
    simp only [Symbol.Allowed, List.mem_cons, List.not_mem_nil, or_false] at h
    rcases h with rfl | rfl | rfl | rfl <;> obtain rfl := Option.some.inj hc <;> rfl
  | dangling => cases h

/-- That symbols are all allowed and stand for the characters of a text. -/
structure Spells (xs : List Symbol) (cs : List Char) : Prop where
  allowed : ∀ x ∈ xs, x.Allowed
  chars : xs.mapM Symbol.char? = some cs

theorem spells_cons_iff :
    Spells (x :: xs) cs ↔
      ∃ c cs', x.Allowed ∧ x.char? = some c ∧ Spells xs cs' ∧ c :: cs' = cs := by
  constructor
  · rintro ⟨hallowed, hchars⟩
    obtain ⟨hx, hxs⟩ := List.forall_mem_cons.1 hallowed
    simp only [List.mapM_cons, Option.bind_eq_bind, Option.bind_eq_some_iff] at hchars
    obtain ⟨c, hc, cs', hcs', heq⟩ := hchars
    exact ⟨c, cs', hx, hc, ⟨hxs, hcs'⟩, Option.some.inj heq⟩
  · rintro ⟨c, cs', hx, hc, hxs, rfl⟩
    refine ⟨List.forall_mem_cons.2 ⟨hx, hxs.allowed⟩, ?_⟩
    rw [List.mapM_cons, hc, hxs.chars]
    rfl

theorem exists_spells (cs : List Char) : ∃ xs, Spells xs cs := by
  induction cs with
  | nil => exact ⟨[], List.forall_mem_nil _, rfl⟩
  | cons c cs ih =>
    obtain ⟨x, hx, hc⟩ := exists_allowed c
    obtain ⟨xs, hxs⟩ := ih
    exact ⟨x :: xs, spells_cons_iff.2 ⟨c, cs, hx, hc, hxs, rfl⟩⟩

theorem Spells.written (h : Spells xs cs) : xs.flatMap Symbol.written = cs.flatMap escape := by
  induction xs generalizing cs with
  | nil =>
    obtain rfl := Option.some.inj h.chars
    rfl
  | cons x xs ih =>
    obtain ⟨c, cs, hx, hc, hxs, rfl⟩ := spells_cons_iff.1 h
    rw [List.flatMap_cons, List.flatMap_cons, written_eq_escape hx hc, ih hxs]

/-- **Exactly the escaped text is read as the text.** -/
theorem spells_symbols_iff : Spells (symbols inside) cs ↔ inside = cs.flatMap escape := by
  constructor
  · intro h
    rw [← h.written, flatMap_written_symbols]
  · rintro rfl
    obtain ⟨xs, hxs⟩ := exists_spells cs
    have hread := symbols_flatMap_written_append hxs.allowed []
    rw [symbols, List.append_nil, List.append_nil] at hread
    rwa [← hxs.written, hread]

/-! ### Literals -/

theorem spells_flatMap_escape (cs : List Char) : Spells (symbols (cs.flatMap escape)) cs :=
  spells_symbols_iff.2 rfl

theorem toList_literal (s : String) :
    (literal s).toList = '"' :: s.toList.flatMap escape ++ ['"'] :=
  String.toList_ofList

theorem literal_injective : Function.Injective literal := by
  intro s s' h
  have hquoted := congrArg String.toList h
  rw [toList_literal, toList_literal] at hquoted
  have hinside : s.toList.flatMap escape = s'.toList.flatMap escape :=
    (List.cons.inj (List.append_cancel_right hquoted)).2
  have hchars := (spells_flatMap_escape s.toList).chars
  rw [hinside, (spells_flatMap_escape s'.toList).chars] at hchars
  exact String.toList_injective (Option.some.inj hchars).symm

/-- **Literals can be read back.** A literal is between two quotes. Inside, no quote, line feed or
carriage return stands for itself and every backslash starts one of the four escapes, so that the
quote behind it closes the literal whatever follows, and what is read is the text. So different
texts have different literals. Nothing else between two quotes is read as the text. -/
theorem literal_readable :
    (∀ s : String, ∃ inside : List Char,
      (literal s).toList = '"' :: inside ++ ['"'] ∧
      (∀ x ∈ symbols inside, x.Allowed) ∧
      (∀ rest, symbols (inside ++ '"' :: rest) = symbols inside ++ .plain '"' :: symbols rest) ∧
      decode? inside = some s.toList) ∧
    (∀ s s' : String, s ≠ s' → literal s ≠ literal s') ∧
    ∀ (s : String) (inside : List Char), (∀ x ∈ symbols inside, x.Allowed) →
      decode? inside = some s.toList → literal s = String.ofList ('"' :: inside ++ ['"']) := by
  refine ⟨?_, fun s s' => literal_injective.ne, ?_⟩
  · intro s
    have hspells := spells_flatMap_escape s.toList
    refine ⟨_, toList_literal s, hspells.allowed, ?_, hspells.chars⟩
    intro rest
    rw [symbols_append hspells.allowed, symbols_cons_of_ne (by decide)]
  · intro s inside hallowed hchars
    rw [literal, spells_symbols_iff.1 ⟨hallowed, hchars⟩]

theorem literal_readable_backslashes :
    literal "\\\"" ≠ literal "\"" ∧
    literal "\\\"\n" = String.ofList ['"', '\\', '\\', '\\', '"', '\\', 'n', '"'] := by
  obtain ⟨-, hne, heq⟩ := literal_readable
  exact ⟨hne _ _ (by decide), heq _ ['\\', '\\', '\\', '"', '\\', 'n'] (by decide) (by decide)⟩

end TagHelpers.Text
