import Figures.Toml.Value

/-!
# Configuration files

* `Statement`        a line of a file: a table header, a header of a list of tables, or an entry
* `Node`             what stands at a key: a value, a table, or a list of tables
* `Toml.read?`       the root table of a text, if the text is well formed and no table or key is
                     defined twice
-/

namespace Figures.Toml

inductive Statement where
  | header (path : List String)
  | listHeader (path : List String)
  | entry (path : List String) (value : Value)

/-- what stands at a key. A table is `implied` while only deeper headers or dotted keys have
mentioned it, and `dotted` if dotted keys made it -/
inductive Node where
  | value (v : Value)
  | table (implied dotted : Bool) (entries : List (String × Node))
  | tables (items : List (List (String × Node)))
  deriving Inhabited

abbrev Entries := List (String × Node)

namespace Node

/-- an entry replaced, or added at the end -/
def set (key : String) (node : Node) : Entries → Entries
  | [] => [(key, node)]
  | (k, n) :: rest => if k = key then (key, node) :: rest else (k, n) :: set key node rest

/-- a change made inside the table that headers reach at a path; of a list of tables they reach the
last, and tables on the way come into being -/
def within (change : Entries → Option Entries) : List String → Entries → Option Entries
  | [], entries => change entries
  | key :: path, entries =>
    match entries.lookup key with
    | none => do
      let inner ← within change path []
      some (set key (.table true false inner) entries)
    | some (.table implied dotted inner) => do
      let inner ← within change path inner
      some (set key (.table implied dotted inner) entries)
    | some (.tables items) =>
      match items.reverse with
      | [] => none
      | last :: before => do
        let last ← within change path last
        some (set key (.tables (last :: before).reverse) entries)
    | some (.value _) => none

/-- a table opened by its header; it must be new, or only implied by deeper headers -/
def openTable (key : String) (entries : Entries) : Option Entries :=
  match entries.lookup key with
  | none => some (set key (.table false false []) entries)
  | some (.table true false inner) => some (set key (.table false false inner) entries)
  | some _ => none

def addTable (key : String) (entries : Entries) : Option Entries :=
  match entries.lookup key with
  | none => some (set key (.tables [[]]) entries)
  | some (.tables items) => some (set key (.tables (items ++ [[]])) entries)
  | some _ => none

/-- a value put at a dotted key; tables on the way must be made by dotted keys -/
def putEntry (value : Value) : List String → Entries → Option Entries
  | [], _ => none
  | [key], entries =>
    if (entries.lookup key).isSome then none else some (entries ++ [(key, .value value)])
  | key :: path, entries =>
    match entries.lookup key with
    | none => do
      let inner ← putEntry value path []
      some (set key (.table true true inner) entries)
    | some (.table true true inner) => do
      let inner ← putEntry value path inner
      some (set key (.table true true inner) entries)
    | some _ => none

end Node

def splitLast : List String → Option (List String × String)
  | [] => none
  | [key] => some ([], key)
  | part :: path => (splitLast path).map fun (before, key) => (part :: before, key)

/-- the root table after a statement, with the path of the table that is open -/
def apply (state : List String × Entries) : Statement → Option (List String × Entries)
  | .header path => do
    let (before, key) ← splitLast path
    let root ← Node.within (Node.openTable key) before state.2
    some (path, root)
  | .listHeader path => do
    let (before, key) ← splitLast path
    let root ← Node.within (Node.addTable key) before state.2
    some (path, root)
  | .entry path value => do
    let root ← Node.within (Node.putEntry value path) state.1 state.2
    some (state.1, root)

/-- the rest of a line behind a statement: blanks, a comment, a line end or the end of the text -/
def endLine? (cs : List Char) : Option (List Char) :=
  match skipComment (skipGap cs) with
  | [] => some []
  | cs => dropLineEnd? cs

def readStatement? (cs : List Char) : Option (Statement × List Char) :=
  let fuel := cs.length + 1
  match cs with
  | '[' :: '[' :: rest => do
    let (path, rest) ← readKey? fuel rest
    match rest with
    | ']' :: ']' :: rest => (endLine? rest).map (.listHeader path, ·)
    | _ => none
  | '[' :: rest => do
    let (path, rest) ← readKey? fuel rest
    match rest with
    | ']' :: rest => (endLine? rest).map (.header path, ·)
    | _ => none
  | cs => do
    let (path, rest) ← readKey? fuel cs
    match rest with
    | '=' :: rest =>
      let (value, rest) ← readValue? fuel (skipGap rest)
      (endLine? rest).map (.entry path value, ·)
    | _ => none

def readStatements? : Nat → List Char → Option (List Statement)
  | 0, _ => none
  | fuel + 1, cs =>
    match skipLines (cs.length + 1) cs with
    | [] => some []
    | cs => do
      let (s, rest) ← readStatement? cs
      let more ← readStatements? fuel rest
      some (s :: more)

def read? (s : String) : Option Entries := do
  let cs := match s.toList with
    | '\uFEFF' :: rest => rest
    | cs => cs
  let statements ← readStatements? (cs.length + 1) cs
  let (_, root) ← statements.foldlM apply ([], [])
  some root

end Figures.Toml
