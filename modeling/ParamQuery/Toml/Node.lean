import ParamQuery.Number.Binary64
import ParamQuery.OrderedMap

/-!
# TOML documents

The values of a TOML document and the assembly of its tables from headers and dotted keys, in which
nothing is defined twice.

## Main definitions

* `Toml.Node` — values and tables.
* `Toml.insertPair` — defines a key, by a path of dotted keys, inside one table.
* `Toml.assemble` — the tables of a document from its sections.
-/

namespace ParamQuery.Toml

/-- What a table was made by, which decides how it may be extended. -/
inductive Origin where
  /-- A header of its own. -/
  | header
  /-- The header of a table inside it. -/
  | implied
  /-- A dotted key. -/
  | dotted
  deriving DecidableEq, Repr

inductive Node where
  | string (text : String)
  | integer (n : Int)
  | float (x : Binary64)
  | boolean (b : Bool)
  | datetime (text : String)
  | array (items : List Node)
  /-- A table written in braces, which cannot be extended. -/
  | inlined (entries : List (String × Node))
  | table (origin : Origin) (entries : List (String × Node))
  /-- The tables of repeated double headers. -/
  | tables (elements : List (List (String × Node)))
  deriving Repr, Inhabited

/-- The keys of a table and their values. -/
abbrev Entries := List (String × Node)

/-- Changes the entries at the end of a path of dotted keys, inside tables that only dotted keys or
implied headers made. Tables that are missing on the way are made. -/
def alterDotted (change : Entries → Option Entries) : List String → Bool → Entries → Option Entries
  | [], isDotted, entries => if isDotted then change entries else none
  | key :: path, _, entries =>
    match Assoc.get? key entries with
    | none => do
      let inner ← alterDotted change path true []
      pure (Assoc.put key (.table .dotted inner) entries)
    | some (.table .header _) => none
    | some (.table origin inner) => do
      let inner ← alterDotted change path (origin == .dotted) inner
      pure (Assoc.put key (.table origin inner) entries)
    | some (.tables elements) => do
      let last ← elements.getLast?
      let last ← alterDotted change path false last
      pure (Assoc.put key (.tables (elements.dropLast ++ [last])) entries)
    | some _ => none

/-- Adds a key that is not there. -/
def addNew (key : String) (value : Node) (entries : Entries) : Option Entries :=
  if (Assoc.get? key entries).isSome then none else some (Assoc.put key value entries)

/-- Defines a key by its path inside one table. -/
def insertPair (entries : Entries) (path : List String) (key : String) (value : Node) :
    Option Entries :=
  if path.isEmpty then addNew key value entries
  else alterDotted (addNew key value) path false entries

/-- A key with its path, and its value. -/
structure Pair where
  path : List String
  key : String
  value : Node
  deriving Repr, Inhabited

/-- Defines the keys of one table after the other. -/
def insertPairs : List Pair → Entries → Option Entries
  | [], entries => some entries
  | pair :: rest, entries =>
    (insertPair entries pair.path pair.key pair.value).bind (insertPairs rest)

/-- Changes the entries at the end of a path of header keys. Tables that are missing on the way are
made; of repeated tables the last one is meant. -/
def alterHeader (change : Entries → Option Entries) : List String → Entries → Option Entries
  | [], entries => change entries
  | key :: path, entries =>
    match Assoc.get? key entries with
    | none => do
      let inner ← alterHeader change path []
      pure (Assoc.put key (.table .implied inner) entries)
    | some (.table origin inner) => do
      let inner ← alterHeader change path inner
      pure (Assoc.put key (.table origin inner) entries)
    | some (.tables elements) => do
      let last ← elements.getLast?
      let last ← alterHeader change path last
      pure (Assoc.put key (.tables (elements.dropLast ++ [last])) entries)
    | some _ => none

/-- The start of a section: a header in single or in double brackets. -/
structure Header where
  repeated : Bool
  path : List String
  key : String
  deriving DecidableEq, Repr, Inhabited

/-- Defines the keys below a header. A table may be given its own header once, also after tables
inside it; a header in double brackets adds one more table. -/
def addSection (header : Header) (pairs : List Pair) (root : Entries) : Option Entries :=
  alterHeader
    (fun entries =>
      match header.repeated, Assoc.get? header.key entries with
      | false, none => do
        let inner ← insertPairs pairs []
        pure (Assoc.put header.key (.table .header inner) entries)
      | false, some (.table .implied inner) => do
        let inner ← insertPairs pairs inner
        pure (Assoc.put header.key (.table .header inner) entries)
      | true, none => do
        let inner ← insertPairs pairs []
        pure (Assoc.put header.key (.tables [inner]) entries)
      | true, some (.tables elements) => do
        let inner ← insertPairs pairs []
        pure (Assoc.put header.key (.tables (elements ++ [inner])) entries)
      | _, _ => none)
    header.path root

/-- A line of a document that defines something. -/
inductive Line where
  | pair (pair : Pair)
  | header (header : Header)
  deriving Repr, Inhabited

/-- Adds the sections that start in these lines; `pairs` are those of the section that is open. -/
def addLines : List Line → Option Header → List Pair → Entries → Option Entries
  | [], open?, pairs, root => close open? pairs root
  | .pair pair :: rest, open?, pairs, root => addLines rest open? (pairs ++ [pair]) root
  | .header header :: rest, open?, pairs, root =>
    (close open? pairs root).bind (addLines rest (some header) [])
where
  /-- Adds the section that is open: the keys before the first header belong to the document. -/
  close (open? : Option Header) (pairs : List Pair) (root : Entries) : Option Entries :=
    match open? with
    | none => insertPairs pairs root
    | some header => addSection header pairs root

/-- The tables that the lines of a document define, unless they define something twice. -/
def assemble (lines : List Line) : Option Entries := addLines lines none [] []

end ParamQuery.Toml
