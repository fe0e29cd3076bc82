/-!
# Metadata

Descriptors carry named texts. A `Metadata` is a list of entries in which no key occurs twice;
inserting under a key that is there replaces its text and keeps its place. What is found after an
insertion is said by `get?_insert`.
-/

namespace TagHelpers

/-- Named texts, each under a key of its own. -/
structure Metadata where
  entries : List (String × String)
  nodup : (entries.map Prod.fst).Nodup
  deriving DecidableEq

namespace Metadata

/-- No entries. -/
def empty : Metadata := ⟨[], List.nodup_nil⟩

instance : Inhabited Metadata := ⟨empty⟩

/-- Puts a text under a key in a list of entries. -/
def insertEntry (key value : String) : List (String × String) → List (String × String)
  | [] => [(key, value)]
  | (k, v) :: rest => if k = key then (k, value) :: rest else (k, v) :: insertEntry key value rest

theorem mem_keys_insertEntry {key value k : String} {entries : List (String × String)} :
    k ∈ (insertEntry key value entries).map Prod.fst ↔ k = key ∨ k ∈ entries.map Prod.fst := by
  induction entries with
  | nil => simp [insertEntry]
  | cons e rest ih =>
    obtain ⟨k', v'⟩ := e
    by_cases h : k' = key
    · simp [insertEntry, h]
    · simp only [insertEntry, h, if_false, List.map_cons, List.mem_cons, ih]
      constructor <;> (intro hk; rcases hk with hk | hk | hk) <;> simp [hk]

theorem nodup_insertEntry (key value : String) {entries : List (String × String)}
    (h : (entries.map Prod.fst).Nodup) :
    ((insertEntry key value entries).map Prod.fst).Nodup := by
  induction entries with
  | nil => simp [insertEntry]
  | cons e rest ih =>
    obtain ⟨k', v'⟩ := e
    rw [List.map_cons, List.nodup_cons] at h
    by_cases hk : k' = key
    · rw [insertEntry, if_pos hk, List.map_cons, List.nodup_cons]
      exact h
    · simp only [insertEntry, hk, if_false, List.map_cons, List.nodup_cons]
      refine ⟨fun hm => ?_, ih h.2⟩
      rcases mem_keys_insertEntry.1 hm with hm | hm
      · exact hk hm
      · exact h.1 hm

/-- Puts a text under a key. -/
def insert (m : Metadata) (key value : String) : Metadata :=
  ⟨insertEntry key value m.entries, nodup_insertEntry key value m.nodup⟩

/-- The text under a key. -/
def get? (m : Metadata) (key : String) : Option String :=
  m.entries.lookup key

theorem lookup_insertEntry (key value k : String) (entries : List (String × String)) :
    (insertEntry key value entries).lookup k =
      if k = key then some value else entries.lookup k := by
  induction entries with
  | nil =>
    by_cases h : k = key
    · simp [insertEntry, h]
    · have hb : (k == key) = false := beq_eq_false_iff_ne.mpr h
      simp [insertEntry, List.lookup_cons, hb, h]
  | cons e rest ih =>
    obtain ⟨k', v'⟩ := e
    by_cases hk : k' = key
    · by_cases h : k = key
      · simp [insertEntry, hk, h]
      · have hb : (k == key) = false := beq_eq_false_iff_ne.mpr h
        simp [insertEntry, List.lookup_cons, hk, hb, h]
    · by_cases h : k = k'
      · simp [insertEntry, hk, h]
      · have hb : (k == k') = false := beq_eq_false_iff_ne.mpr h
        simp [insertEntry, List.lookup_cons, hk, hb, ih]

/-- A text is found under the key it was put under, and nothing changes under other keys. -/
theorem get?_insert (m : Metadata) (key value k : String) :
    (m.insert key value).get? k = if k = key then some value else m.get? k :=
  lookup_insertEntry key value k m.entries

end Metadata

end TagHelpers
