import DeviceTrial.Toml.Value

/-!
The table that the statements of a TOML file make.

Each table may be made once: by its header, by the headers of tables below it, or by the keys of
assignments. A header may still come after the headers below it; keys only extend tables that other
keys of the same table made.
-/

namespace DeviceTrial.Toml

inductive Statement where
  | table (path : List String)
  /-- One more table at the end of an array of tables. -/
  | element (path : List String)
  | assign (path : List String) (value : Toml)

inductive Origin where
  | header
  /-- The header of a table below it. -/
  | implied
  /-- The key of an assignment. -/
  | key
  deriving DecidableEq, Repr

inductive Item where
  | value (v : Toml)
  | table (origin : Origin) (entries : List (String × Item))
  /-- The elements of an array of tables, the latest first. -/
  | elements (tables : List (List (String × Item)))

abbrev Entries := List (String × Item)

namespace Entries

def get? (word : String) : Entries → Option Item
  | [] => none
  | e :: es => if e.1 = word then some e.2 else get? word es

/-- Puts an item at the end, or in place of the one under the same word. -/
def put (word : String) (item : Item) : Entries → Entries
  | [] => [(word, item)]
  | e :: es => if e.1 = word then (word, item) :: es else e :: put word item es

/-- Changes the table under a path. Tables that are not there yet are made on the way, by the given
origin. -/
def update (origin : Origin) (f : Origin → Entries → Option Entries) :
    (path : List String) → Origin → Entries → Option Entries
  | [], o, es => f o es
  | word :: path, _, es =>
    match get? word es with
    | none => (update origin f path origin []).map fun inner => put word (.table origin inner) es
    | some (.table o inner) =>
      if origin = .key ∧ o = .header then none
      else (update origin f path o inner).map fun inner => put word (.table o inner) es
    | some (.elements (last :: before)) =>
      (update origin f path .header last).map fun last => put word (.elements (last :: before)) es
    | some _ => none

def assign (path : List String) (value : Toml) (es : Entries) : Option Entries :=
  match path.getLast? with
  | none => none
  | some word =>
    let above := path.dropLast
    update .key (fun o es =>
      if (o == .key) == above.isEmpty then none
      else if (get? word es).isSome then none
      else some (put word (.value value) es)) above .header es

def openTable (word : String) (es : Entries) : Option Entries :=
  match get? word es with
  | none => some (put word (.table .header []) es)
  | some (.table .implied inner) => some (put word (.table .header inner) es)
  | some _ => none

def openElement (word : String) (es : Entries) : Option Entries :=
  match get? word es with
  | none => some (put word (.elements [[]]) es)
  | some (.elements tables) => some (put word (.elements ([] :: tables)) es)
  | some _ => none

def openPath (f : String → Entries → Option Entries) (path : List String) (es : Entries) :
    Option Entries :=
  match path.getLast? with
  | none => none
  | some word => update .implied (fun _ es => f word es) path.dropLast .header es

/-- Takes a statement, with the path of the table that is open. -/
def take (opened : List String) (es : Entries) : Statement → Option (List String × Entries)
  | .table path => (openPath openTable path es).map (path, ·)
  | .element path => (openPath openElement path es).map (path, ·)
  | .assign path value =>
    (update .implied (fun _ es => assign path value es) opened .header es).map (opened, ·)

def takeAll (opened : List String) (es : Entries) : List Statement → Option Entries
  | [] => some es
  | s :: ss =>
    match take opened es s with
    | some (opened, es) => takeAll opened es ss
    | none => none

def ofStatements? (statements : List Statement) : Option Entries := takeAll [] [] statements

mutual
def tomlOf : Item → Toml
  | .value v => v
  | .table _ entries => .table (fieldsOf entries)
  | .elements tables => .array (tablesOf tables [])

def fieldsOf : List (String × Item) → List (String × Toml)
  | [] => []
  | e :: es => fieldOf e :: fieldsOf es

def fieldOf : String × Item → String × Toml
  | (word, item) => (word, tomlOf item)

def tablesOf : List (List (String × Item)) → List Toml → List Toml
  | [], acc => acc
  | t :: ts, acc => tablesOf ts (.table (fieldsOf t) :: acc)
end

/-- The fields of a table, without how they were made. -/
def toml (es : Entries) : List (String × Toml) := fieldsOf es

end Entries

end DeviceTrial.Toml
