import RecordFilter.Binary64

/-!
# TOML items

What the keys of a TOML text stand for, and how tables come about. A header opens a table once;
the tables around it come with it and may still get headers of their own. A key of several names
also makes tables, which only other such keys may add to. The entries of a table between braces
are all there is in it.
-/

namespace RecordFilter.Toml

/-- How a table came about. -/
inductive Origin where
  /-- By the header of a table inside it. -/
  | implied
  /-- By a key of several names. -/
  | dotted
  /-- By a header of its own. -/
  | header
  /-- Between braces. -/
  | inline
deriving DecidableEq, Repr

/-- What a key stands for. -/
inductive Item where
  | text (s : String)
  | boolean (b : Bool)
  /-- An integer of 64 bits. -/
  | integer (n : Int)
  | real (x : Binary64)
  | array (items : List Item)
  | table (origin : Origin) (entries : List (String × Item))
  /-- An array of tables with headers. -/
  | tables (elements : List (List (String × Item)))

/-- The entries of a table. -/
abbrev Entries : Type := List (String × Item)

namespace Entries

/-- The entries with another item for a name that they have. -/
def replace (name : String) (item : Item) (entries : Entries) : Entries :=
  entries.map fun e => if e.1 == name then (name, item) else e

/-- The entries with an item at a new name. -/
def add? (name : String) (item : Item) (entries : Entries) : Option Entries :=
  match entries.lookup name with
  | some _ => none
  | none => some (entries ++ [(name, item)])

/-- Changes the table at a path, which is made if it is not there. Of an array of tables it is the
last one. Keys of several names do not change what a header has opened. -/
def update? (dotted : Bool) (change? : Entries → Option Entries) :
    (path : List String) → Entries → Option Entries
  | [], entries => change? entries
  | name :: path, entries =>
    match entries.lookup name with
    | none =>
      (update? dotted change? path []).map fun inner =>
        entries ++ [(name, .table (if dotted then .dotted else .implied) inner)]
    | some (.table origin inner) =>
      if origin = .inline ∨ (dotted ∧ origin = .header) then none
      else
        (update? dotted change? path inner).map fun inner =>
          entries.replace name (.table origin inner)
    | some (.tables elements) =>
      match elements.getLast? with
      | none => none
      | some last =>
        (update? dotted change? path last).map fun last =>
          entries.replace name (.tables (elements.dropLast ++ [last]))
    | some _ => none

/-- Adds an item at a key of one or several names. -/
def insert? (path : List String) (name : String) (item : Item) (entries : Entries) :
    Option Entries :=
  entries.update? true (add? name item) path

/-- Opens the table of a header. -/
def openTable? (path : List String) (name : String) (entries : Entries) : Option Entries :=
  entries.update? false
    (fun entries =>
      match entries.lookup name with
      | none => some (entries ++ [(name, .table .header [])])
      | some (.table .implied inner) => some (entries.replace name (.table .header inner))
      | some _ => none)
    path

/-- Opens one more table of the array of a header. -/
def appendTable? (path : List String) (name : String) (entries : Entries) : Option Entries :=
  entries.update? false
    (fun entries =>
      match entries.lookup name with
      | none => some (entries ++ [(name, .tables [[]])])
      | some (.tables elements) => some (entries.replace name (.tables (elements ++ [[]])))
      | some _ => none)
    path

end Entries

end RecordFilter.Toml
