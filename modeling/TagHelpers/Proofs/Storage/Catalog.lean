import TagHelpers.Proofs.Descriptor.Flags
import TagHelpers.Proofs.Json.Reader
import TagHelpers.Storage.Catalog

/-!
# Stored catalogs are read back

Each part of a catalog is read back from its stored form, from the flags of an attribute up to the
descriptors: the proofs are put together as the stored forms are. So a catalog is read back from its
text, whatever texts, flags and metadata its descriptors hold.
-/

namespace TagHelpers

open Json

/-! ### Metadata -/

theorem Metadata.insertEntry_of_not_mem {key : String} {entries : List (String × String)}
    (h : key ∉ entries.map Prod.fst) (value : String) :
    insertEntry key value entries = entries ++ [(key, value)] := by
  induction entries with
  | nil => rfl
  | cons e entries ih =>
    obtain ⟨k, v⟩ := e
    rw [List.map_cons, List.mem_cons, not_or] at h
    rw [insertEntry, if_neg (Ne.symm h.1), ih h.2, List.cons_append]

/-- Entries under new keys are put behind those that are there, in order. -/
theorem Metadata.entries_foldl_insert (m : Metadata) {entries : List (String × String)}
    (h : ((m.entries ++ entries).map Prod.fst).Nodup) :
    (entries.foldl (fun m e => m.insert e.1 e.2) m).entries = m.entries ++ entries := by
  induction entries generalizing m with
  | nil => exact (List.append_nil _).symm
  | cons e entries ih =>
    have hnew : e.1 ∉ m.entries.map Prod.fst := by
      rw [List.map_append, List.map_cons] at h
      exact fun hmem => (List.nodup_append.1 h).2.2 _ hmem _ List.mem_cons_self rfl
    have hinsert : (m.insert e.1 e.2).entries = m.entries ++ [e] :=
      insertEntry_of_not_mem hnew e.2
    rw [List.foldl_cons, ih, hinsert, List.append_assoc, List.singleton_append]
    rw [hinsert, List.append_assoc, List.singleton_append]
    exact h

theorem Metadata.eq_of_entries {m m' : Metadata} (h : m.entries = m'.entries) : m = m' := by
  cases m
  cases m'
  simpa using h

theorem Metadata.stored (m : Metadata) : Stored Metadata.read m.toJson m := by
  have hread := Stored.map (fun e (_ : e ∈ m.entries) => Stored.text e.2) Metadata.empty
    Metadata.insert
  have heq : m.entries.foldl (fun m e => m.insert e.1 e.2) Metadata.empty = m :=
    Metadata.eq_of_entries (Metadata.entries_foldl_insert .empty m.nodup)
  rwa [heq] at hread

/-! ### Descriptors -/

theorem Flags.stored (f : Flags) : Stored Flags.read f.toJson f :=
  .parsed f.parse_print _

theorem RequiredAttribute.stored (a : RequiredAttribute) :
    Stored RequiredAttribute.read a.toJson a :=
  .record (by decide) <|
    .mandatory (.text a.name) <|
    .optional (.choice (by cases a.nameComparison <;> rfl)) <|
    .optional (.text? a.value) <|
    .optional (.choice (by cases a.valueComparison <;> rfl)) <|
    .nil a

theorem MatchingRule.stored (r : MatchingRule) : Stored MatchingRule.read r.toJson r :=
  .record (by decide) <|
    .mandatory (.text r.tagName) <|
    .optional (.text? r.parentTag) <|
    .optional (.list fun a _ => a.stored) <|
    .optional (.choice (by cases r.tagStructure <;> rfl)) <|
    .nil r

theorem Parameter.stored (p : Parameter) : Stored Parameter.read p.toJson p :=
  .record (by decide) <|
    .mandatory (.text p.name) <|
    .mandatory (.text p.typeName) <|
    .optional p.flags.stored <|
    .optional (.text? p.documentation) <|
    .optional p.metadata.stored <|
    .nil p

theorem BoundAttribute.stored (a : BoundAttribute) : Stored BoundAttribute.read a.toJson a :=
  .record (by decide) <|
    .mandatory (.text a.name) <|
    .mandatory (.text a.typeName) <|
    .optional (.text? a.propertyName) <|
    .optional (.text? a.indexerPrefix) <|
    .optional (.text? a.indexerTypeName) <|
    .optional (.text? a.documentation) <|
    .optional a.flags.stored <|
    .optional (.list fun p _ => p.stored) <|
    .optional a.metadata.stored <|
    .nil a

theorem Span.stored (s : Span) : Stored Span.read s.toJson s :=
  .record (by decide) <|
    .mandatory (.offset s.start) <|
    .mandatory (.offset s.stop) <|
    .nil s

theorem Diagnostic.stored (d : Diagnostic) : Stored Diagnostic.read d.toJson d :=
  .record (by decide) <|
    .mandatory (.choice (by cases d.code <;> rfl)) <|
    .mandatory d.span.stored <|
    .mandatory (.text d.message) <|
    .nil d

theorem Descriptor.stored (d : Descriptor) : Stored Descriptor.read d.toJson d :=
  .record (by decide) <|
    .mandatory (.choice (by cases d.kind <;> rfl)) <|
    .mandatory (.text d.name) <|
    .mandatory (.text d.assemblyName) <|
    .optional (.bool d.caseSensitive) <|
    .optional (.list fun r _ => r.stored) <|
    .optional (.list fun a _ => a.stored) <|
    .optional (.list fun t _ => .text t) <|
    .optional (.text? d.documentation) <|
    .optional d.metadata.stored <|
    .optional (.list fun d _ => d.stored) <|
    .nil d

theorem Catalog.stored (c : Catalog) : Stored Catalog.read c.toJson c := by
  have hlist : Stored (Reader.list Descriptor.read) (.ofList Descriptor.toJson c.descriptors)
      c.descriptors := .list fun d _ => d.stored
  exact ⟨hlist.whole, congrArg (Catalog.mk <$> ·) hlist.read⟩

/-- **A catalog is read back from its text.** -/
theorem Catalog.ofText_toText (c : Catalog) : Catalog.ofText c.toText = .ok c :=
  c.stored.run .indented

end TagHelpers
