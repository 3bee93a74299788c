import MarginRouter.Config.Value

/-!
# Tables of a document

A document is a table of named entries, built up line by line: a line gives one key of the table under the last header its
value, and a header opens a table or one more row of a list of tables. A table, a row and a value are each given once. A table
that was only named on the way to another one may still get a header of its own, and a table made by dotted keys may get
further dotted keys, but no header.
-/

namespace MarginRouter.Config.Toml

/-- How a table came about. -/
inductive Origin where
  /-- On the way to another table that has a header. -/
  | implied
  /-- On the way of a dotted key. -/
  | dotted
  /-- By its own header; the document itself and rows count as such. -/
  | header
  deriving DecidableEq

/-- An entry of a table. -/
inductive Entry where
  | value (v : Value)
  | table (origin : Origin) (entries : List (String × Entry))
  /-- A list of tables, one for each header, the last one first. -/
  | rows (last : List (String × Entry)) (earlier : List (List (String × Entry)))

/-- Named entries, in the order in which they were begun. -/
abbrev Table := List (String × Entry)

mutual

/-- The value of an entry. -/
def Entry.toValue : Entry → Value
  | .value v => v
  | .table _ entries => .record (toFields entries)
  | .rows last earlier => .list (toRecords (last :: earlier)).reverse

def toFields : List (String × Entry) → List (String × Value)
  | [] => []
  | (name, entry) :: entries => (name, entry.toValue) :: toFields entries

def toRecords : List (List (String × Entry)) → List Value
  | [] => []
  | row :: rows => .record (toFields row) :: toRecords rows

end

namespace Table

/-- The table with the entry under a name replaced, or added at the end. -/
def set (t : Table) (name : String) (entry : Entry) : Table :=
  match t with
  | [] => [(name, entry)]
  | (n, e) :: t => if n = name then (name, entry) :: t else (n, e) :: set t name entry

/-- Changes the table to which names lead, through tables and the last rows of lists of tables. Tables that are missing on the
way come about as `making`, and a dotted key does not pass through a table that has its own header. -/
def alter (making : Origin) (change : Origin → Table → Option Table) : List String → Origin → Table → Option Table
  | [], origin, t => change origin t
  | name :: names, _, t => do
    match t.lookup name with
    | none => return t.set name (.table making (← alter making change names making []))
    | some (.table origin sub) =>
      if making = .dotted ∧ origin = .header then none
      else return t.set name (.table origin (← alter making change names origin sub))
    | some (.rows last earlier) => return t.set name (.rows (← alter making change names .header last) earlier)
    | some (.value _) => none

/-- Gives a new key its value. The key of a table that dotted keys made is dotted too, and no other key is. -/
def assign (keys : List String) (name : String) (v : Value) (t : Table) : Option Table :=
  t.alter .dotted (fun origin sub =>
    if (origin == .dotted) == keys.isEmpty || (sub.lookup name).isSome then none else some (sub.set name (.value v)))
    keys .header

/-- Opens the table of a header: a new one, or one that was only implied so far. -/
def openTable (keys : List String) (name : String) (t : Table) : Option Table :=
  t.alter .implied (fun _ sub =>
    match sub.lookup name with
    | none => some (sub.set name (.table .header []))
    | some (.table .implied entries) => some (sub.set name (.table .header entries))
    | some _ => none) keys .header

/-- Opens one more row of a list of tables. -/
def openRow (keys : List String) (name : String) (t : Table) : Option Table :=
  t.alter .implied (fun _ sub =>
    match sub.lookup name with
    | none => some (sub.set name (.rows [] []))
    | some (.rows last earlier) => some (sub.set name (.rows [] (last :: earlier)))
    | some _ => none) keys .header

end Table

/-- A dotted name: the names before the last one, and the last one. -/
structure Key where
  path : List String
  name : String

/-- A line of a document that says something. -/
inductive Line where
  | header (key : Key)
  | rowHeader (key : Key)
  | assign (key : Key) (v : Value)

/-- A document read so far: all of it, and the names that lead to the table under the last header. -/
structure Draft where
  table : Table
  current : List String

def Draft.empty : Draft := ⟨[], []⟩

/-- The draft with one more line, unless something is given twice. -/
def Draft.add (d : Draft) : Line → Option Draft
  | .header k => return ⟨← d.table.openTable k.path k.name, k.path ++ [k.name]⟩
  | .rowHeader k => return ⟨← d.table.openRow k.path k.name, k.path ++ [k.name]⟩
  | .assign k v => do
    let table ← d.table.alter .implied (fun _ sub => sub.assign k.path k.name v) d.current .header
    return { d with table }

end MarginRouter.Config.Toml
