import TagHelpers.Descriptor.Basic

/-!
# Catalogs

A catalog lists the descriptors known to a compilation. A tag helper is an entry of the catalog: a
descriptor together with its place. Two entries with equal descriptors are two tag helpers, and one
entry that is used twice is one.
-/

namespace TagHelpers

/-- An entry of a catalog. -/
structure TagHelper where
  place : Nat
  descriptor : Descriptor
  deriving DecidableEq, Inhabited

/-- The descriptors known to a compilation. -/
structure Catalog where
  descriptors : List Descriptor := []
  deriving DecidableEq, Inhabited

namespace Catalog

/-- The number of descriptors. -/
def size (c : Catalog) : Nat := c.descriptors.length

/-- Whether there is no descriptor. -/
def isEmpty (c : Catalog) : Bool := c.descriptors.isEmpty

/-- The entries in order. -/
def helpers (c : Catalog) : List TagHelper :=
  c.descriptors.zipIdx.map fun (d, place) => ⟨place, d⟩

end Catalog

end TagHelpers
