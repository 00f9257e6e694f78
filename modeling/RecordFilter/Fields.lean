/-!
# Sets of fields

The names of the fields that hold exact values and need no exact-match subfield. A set has each
name once; two sets are the same if they have the same names.
-/

namespace RecordFilter

/-- A set of field names. -/
structure FieldSet where
  /-- The names, the last one inserted first. -/
  names : List String
  nodup : names.Nodup

namespace FieldSet

/-- The set without names. -/
def empty : FieldSet := ⟨[], .nil⟩

/-- Whether a name is in a set. -/
def contains (s : FieldSet) (name : String) : Bool := s.names.contains name

/-- The set with one more name. -/
def insert (s : FieldSet) (name : String) : FieldSet :=
  if h : name ∈ s.names then s else ⟨name :: s.names, List.nodup_cons.2 ⟨h, s.nodup⟩⟩

/-- The set of the names in a list. -/
def ofList (names : List String) : FieldSet := names.foldl insert empty

/-- The number of names in a set. -/
def size (s : FieldSet) : Nat := s.names.length

/-- Whether a set has no names. -/
def isEmpty (s : FieldSet) : Bool := s.names.isEmpty

/-- Whether two sets have the same names. -/
def sameNames (s t : FieldSet) : Bool :=
  s.names.all t.contains && t.names.all s.contains

end FieldSet

end RecordFilter
