import Mathlib.Data.String.Basic
import TagHelpers.Text.Casing

/-!
# Comparing names by their bytes

Folding changes ASCII letters only, so it keeps the number of bytes of every character. Names that
are the same therefore have equally many bytes, and a name that starts with another one is the same
as that one just when there are no bytes left.

* `utf8ByteSize_eq`: the bytes of a text can be counted on its folded characters.
* `same_iff_startsWith`: a start of the whole length is the whole.
-/

namespace TagHelpers.Casing

variable {k : Casing} {s s' : String}

@[simp] theorem utf8Size_fold (k : Casing) (c : Char) : (k.fold c).utf8Size = c.utf8Size := by
  cases k with
  | ordinal => rfl
  | folded =>
    show c.toLower.utf8Size = c.utf8Size
    unfold Char.toLower
    split
    · -- an upper case letter and its lower case take one byte each
      unfold Char.utf8Size
      grind
    · rfl

theorem utf8Len_map_fold (k : Casing) (cs : List Char) :
    String.utf8Len (cs.map k.fold) = String.utf8Len cs := by
  induction cs with
  | nil => rfl
  | cons c cs ih => rw [List.map_cons, String.utf8Len_cons, String.utf8Len_cons, ih, utf8Size_fold]

/-- The number of bytes is that of the folded characters. -/
theorem utf8ByteSize_eq (k : Casing) (s : String) :
    s.utf8ByteSize = String.utf8Len (k.key s) := by
  rw [key, utf8Len_map_fold, ← String.utf8ByteSize_ofList, String.ofList_toList]

theorem startsWith_iff : k.startsWith s s' = true ↔ k.key s' <+: k.key s :=
  List.isPrefixOf_iff_prefix

theorem same_iff : k.same s s' = true ↔ k.key s = k.key s' :=
  beq_iff_eq

/-- **A name that starts with another one is the same just when it has no more bytes.** -/
theorem same_iff_startsWith :
    k.same s s' = true ↔ k.startsWith s s' = true ∧ s.utf8ByteSize = s'.utf8ByteSize := by
  rw [same_iff, startsWith_iff, utf8ByteSize_eq k s, utf8ByteSize_eq k s']
  constructor
  · intro h
    exact ⟨h ▸ List.prefix_rfl, congrArg _ h⟩
  · rintro ⟨⟨rest, hrest⟩, hsize⟩
    -- the bytes of what follows the start are none
    rw [← hrest, String.utf8Len_append, Nat.add_eq_left, String.utf8Len_eq_zero] at hsize
    rw [← hrest, hsize, List.append_nil]

end TagHelpers.Casing
