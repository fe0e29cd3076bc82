import TagHelpers.Proofs.Text.Casing
import TagHelpers.Text.Basic

/-!
# Texts as bytes

Names are compared by their characters. Comparing their bytes, with the ASCII capitals made small,
gives the same answer and never ends inside of a character: folding a byte changes ASCII letters
only, and no character starts with all the bytes of another one.

* `map_foldByte_bytes`: folding the bytes of a text is folding its characters.
* `startsWith_iff_bytes`: whether a text starts with another one, asked of their bytes.
* `dropBytes?_eq_some_iff`, `isSome_dropBytes?_iff`: where a text can be cut.
-/

namespace TagHelpers.Text

variable {s s' : String} {cs ds rest : List Char} {n : ℕ}

/-- The bytes of a text. -/
def bytes (s : String) : List UInt8 :=
  s.toUTF8.data.toList

/-- A byte, with the ASCII capitals made small. -/
def foldByte (b : UInt8) : UInt8 :=
  if 65 ≤ b ∧ b ≤ 90 then b + 32 else b

theorem length_bytes (s : String) : (bytes s).length = s.utf8ByteSize := rfl

theorem bytes_eq_flatMap (s : String) : bytes s = s.toList.flatMap String.utf8EncodeChar := by
  have hencode : s.toByteArray = s.toList.utf8Encode := by
    rw [← String.toByteArray_ofList, String.ofList_toList]
  show s.toByteArray.data.toList = _
  rw [hencode, List.utf8Encode, List.data_toByteArray]

theorem bytes_append (s s' : String) : bytes (s ++ s') = bytes s ++ bytes s' := by
  simp only [bytes_eq_flatMap, String.toList_append, List.flatMap_append]

/-! ### Folding bytes -/

theorem foldByte_toUInt8 {c : Char} (h : c.val ≤ 127) :
    foldByte c.val.toUInt8 = c.toLower.val.toUInt8 := by
  have hval : c.val.toNat ≤ 127 := h
  have hcapital : (65 ≤ c.val.toUInt8 ∧ c.val.toUInt8 ≤ 90) ↔
      ('A'.val ≤ c.val ∧ c.val ≤ 'Z'.val) := by
    simp only [UInt8.le_iff_toNat_le, UInt32.le_iff_toNat_le, UInt32.toNat_toUInt8]
    rw [Nat.mod_eq_of_lt (by omega)]
    rfl
  unfold foldByte Char.toLower
  by_cases hc : 'A'.val ≤ c.val ∧ c.val ≤ 'Z'.val
  · rw [if_pos (hcapital.2 hc), dif_pos hc]
    exact (UInt32.toUInt8_add c.val 32).symm
  · rw [if_neg (mt hcapital.1 hc), dif_neg hc]

/-- A character that is not ASCII has no byte that is ASCII. -/
theorem le_of_mem_utf8EncodeChar {c : Char} (h : 127 < c.val) :
    ∀ b ∈ String.utf8EncodeChar c, 128 ≤ b := by
  have hval : 127 < c.val.toNat := h
  have hbyte : ∀ m : ℕ, 128 ≤ m → m < 256 → 128 ≤ UInt8.ofNat m := by
    intro m hle hlt
    rw [UInt8.le_iff_toNat_le, UInt8.toNat_ofNat_of_lt' hlt]
    exact hle
  intro b hb
  unfold String.utf8EncodeChar at hb
  rw [if_neg (Nat.not_le.2 hval)] at hb
  split_ifs at hb <;> simp only [List.mem_cons, List.not_mem_nil, or_false] at hb
  · rcases hb with rfl | rfl <;> exact hbyte _ (by omega) (by omega)
  · rcases hb with rfl | rfl | rfl <;> exact hbyte _ (by omega) (by omega)
  · rcases hb with rfl | rfl | rfl | rfl <;> exact hbyte _ (by omega) (by omega)

theorem foldByte_of_le {b : UInt8} (h : 128 ≤ b) : foldByte b = b := by
  refine if_neg ?_
  rintro ⟨-, hle⟩
  exact absurd (UInt8.le_trans h hle) (by decide)

/-- Folding the bytes of a character is folding the character. -/
theorem map_foldByte_utf8EncodeChar (c : Char) :
    (String.utf8EncodeChar c).map foldByte = String.utf8EncodeChar (Casing.folded.fold c) := by
  by_cases h : c.val ≤ 127
  · have hsize : c.utf8Size = 1 := Char.utf8Size_eq_one_iff.2 h
    have hsize' : (Casing.folded.fold c).utf8Size = 1 := (Casing.utf8Size_fold _ c).trans hsize
    rw [String.utf8EncodeChar_eq_singleton hsize, String.utf8EncodeChar_eq_singleton hsize',
      List.map_singleton, foldByte_toUInt8 h]
    rfl
  · have hlower : Casing.folded.fold c = c := by
      refine dif_neg ?_
      rintro ⟨-, hle⟩
      exact h (UInt32.le_trans hle (by decide))
    rw [hlower]
    calc (String.utf8EncodeChar c).map foldByte
        = (String.utf8EncodeChar c).map id := List.map_congr_left fun b hb =>
          foldByte_of_le (le_of_mem_utf8EncodeChar (UInt32.not_le.1 h) b hb)
      _ = String.utf8EncodeChar c := List.map_id _

theorem map_foldByte_bytes (s : String) :
    (bytes s).map foldByte = (Casing.folded.key s).flatMap String.utf8EncodeChar := by
  rw [bytes_eq_flatMap, List.map_flatMap, Casing.key, List.flatMap_map]
  exact List.flatMap_congr fun c _ => map_foldByte_utf8EncodeChar c

/-! ### Starts of texts -/

theorem flatMap_utf8EncodeChar_prefix_iff :
    cs.flatMap String.utf8EncodeChar <+: ds.flatMap String.utf8EncodeChar ↔ cs <+: ds := by
  constructor
  · rintro ⟨more, h⟩
    refine List.isPrefix_of_utf8Encode_append_eq_utf8Encode more.toByteArray ?_
    rw [List.utf8Encode, List.utf8Encode, ← List.toByteArray_append, h]
  · rintro ⟨more, rfl⟩
    rw [List.flatMap_append]
    exact List.prefix_append _ _

/-- **A text starts with another one** in any case if its first bytes, as many as the other text
has, are the same in any case. -/
theorem startsWith_iff_bytes : Casing.folded.startsWith s s' = true ↔
    ((bytes s).take s'.utf8ByteSize).map foldByte = (bytes s').map foldByte := by
  rw [Casing.startsWith_iff, ← flatMap_utf8EncodeChar_prefix_iff, ← map_foldByte_bytes,
    ← map_foldByte_bytes, List.prefix_iff_eq_take, List.length_map, length_bytes, List.map_take,
    eq_comm]

/-- The part of a text that is the same as a start of it has as many bytes. -/
theorem exists_append_of_startsWith (h : Casing.folded.startsWith s s' = true) :
    ∃ start rest : String, s = start ++ rest ∧ start.utf8ByteSize = s'.utf8ByteSize := by
  obtain ⟨more, hmore⟩ := Casing.startsWith_iff.1 h
  obtain ⟨start, rest, hs, hstart, -⟩ := List.map_eq_append_iff.1 hmore.symm
  refine ⟨String.ofList start, String.ofList rest, ?_, ?_⟩
  · rw [← String.toList_inj, hs, String.toList_append, String.toList_ofList, String.toList_ofList]
  · rw [Casing.utf8ByteSize_eq .folded s', ← hstart, Casing.utf8Len_map_fold,
      String.utf8ByteSize_ofList]

/-! ### Cutting texts -/

/-- What stands before a cut that is not at the front starts with the first character. -/
theorem exists_cons_append_iff {c : Char} : (∃ start, c :: cs = start ++ rest ∧
      String.utf8Len start = n + 1) ↔
    ∃ start, cs = start ++ rest ∧ String.utf8Len start + c.utf8Size = n + 1 := by
  constructor
  · rintro ⟨start, hcs, hn⟩
    cases start with
    | nil => cases hn
    | cons d start =>
      obtain ⟨rfl, rfl⟩ := List.cons.inj hcs
      exact ⟨start, rfl, by rwa [String.utf8Len_cons] at hn⟩
  · rintro ⟨start, rfl, hn⟩
    exact ⟨c :: start, rfl, by rwa [String.utf8Len_cons]⟩

/-- **A text is cut between two characters.** -/
theorem dropBytes?_eq_some_iff : dropBytes? n cs = some rest ↔
    ∃ start, cs = start ++ rest ∧ String.utf8Len start = n := by
  fun_induction dropBytes? n cs with
  | case1 cs =>
    constructor
    · intro h
      exact ⟨[], Option.some.inj h, rfl⟩
    · rintro ⟨start, rfl, hstart⟩
      rw [String.utf8Len_eq_zero.1 hstart, List.nil_append]
  | case2 n =>
    refine iff_of_false (fun h => by cases h) ?_
    rintro ⟨start, hnil, hstart⟩
    rw [(List.append_eq_nil_iff.1 hnil.symm).1] at hstart
    cases hstart
  | case3 n c cs hle ih =>
    rw [ih, exists_cons_append_iff]
    refine exists_congr fun start => and_congr_right fun _ => ?_
    omega
  | case4 n c cs hlt =>
    rw [exists_cons_append_iff]
    refine iff_of_false (fun h => by cases h) ?_
    rintro ⟨start, -, hstart⟩
    omega

/-- **A text can be cut exactly at the boundaries of its characters.** -/
theorem isSome_dropBytes?_iff : (dropBytes? n s.toList).isSome = true ↔
    String.Pos.Raw.IsValid s ⟨n⟩ := by
  rw [String.Pos.Raw.isValid_iff_exists_append, Option.isSome_iff_exists]
  constructor
  · rintro ⟨rest, hrest⟩
    obtain ⟨start, hs, hn⟩ := dropBytes?_eq_some_iff.1 hrest
    refine ⟨String.ofList start, String.ofList rest, ?_, ?_⟩
    · rw [← String.ofList_append, ← hs, String.ofList_toList]
    · rw [String.rawEndPos, String.utf8ByteSize_ofList, hn]
  · rintro ⟨start, rest, rfl, hn⟩
    refine ⟨rest.toList, dropBytes?_eq_some_iff.2 ⟨start.toList, String.toList_append, ?_⟩⟩
    rw [← String.utf8ByteSize_ofList, String.ofList_toList]
    exact (congrArg String.Pos.Raw.byteIdx hn).symm

end TagHelpers.Text
