import ParamQuery.Config
import ParamQuery.Toml.Reader
import ParamQuery.Toml.Writer

/-!
# Configuration files

Configurations as TOML documents of four keys, each of which may be left out.

## Main definitions

* `Config.ofText` — the checked configuration in a document.
* `Config.toText` — the document of a configuration.
* `Config.saveFile` — writes a configuration to a file.
* `Config.load` — the configuration of the file that the environment names, or of the usual file.
-/

namespace ParamQuery.Config

/-- A key that holds a count, and is zero or more. -/
def countAt? (entries : Toml.Entries) (key : String) (default : Nat) : Option Nat :=
  match Assoc.get? key entries with
  | none => some default
  | some (.integer n) => if 0 ≤ n then some n.toNat else none
  | some _ => none

/-- A key that holds a text. -/
def textAt? (entries : Toml.Entries) (key : String) (default : String) : Option String :=
  match Assoc.get? key entries with
  | none => some default
  | some (.string text) => some text
  | some _ => none

/-- The configuration in the entries of a document; other keys are ignored. -/
def ofEntries? (entries : Toml.Entries) : Option Config := do
  let defaultLimit ← countAt? entries "default_limit" 20
  let defaultOffset ← countAt? entries "default_offset" 0
  let maxLimit ← match Assoc.get? "max_limit" entries with
    | none => some none
    | some _ => (countAt? entries "max_limit" 0).map some
  let defaultOrder ← textAt? entries "default_order" "id.asc"
  pure ⟨defaultLimit, defaultOffset, maxLimit, defaultOrder⟩

/-- The configuration in a document, which must pass its checks. -/
def ofText (text : String) : Except Error Config :=
  match (Toml.read? text).bind ofEntries? with
  | none => .error (.config .unreadable)
  | some config => config.check.map fun _ => config

/-- The counts of a configuration. -/
def counts (config : Config) : List Nat :=
  [config.defaultLimit, config.defaultOffset] ++ config.maxLimit.toList

/-- A line that defines a key. -/
def line (key : String) (value : List Char) : List Char :=
  key.toList ++ [' ', '=', ' '] ++ value ++ ['\n']

/-- The document of a configuration. Its counts must be below `2 ^ 63`, as TOML has no larger whole
numbers. -/
def toText (config : Config) : Except Error String :=
  if (config.counts.all fun n => IntegerType.int64.holds n) then
    .ok (String.ofList (
      line "default_limit" (toString config.defaultLimit).toList ++
      line "default_offset" (toString config.defaultOffset).toList ++
      (match config.maxLimit with
        | some max => line "max_limit" (toString max).toList
        | none => []) ++
      line "default_order" (Toml.writeString config.defaultOrder.toList)))
  else .error (.config .unwritable)

/-- A file: its text, if it exists. -/
abbrev File := Option String

/-- The configuration of a file; the usual values if the file does not exist. -/
def loadFile : File → Except Error Config
  | none => .ok {}
  | some text => ofText text

/-- Writes a configuration to a file. If the configuration has no document, the file stays as it
was. -/
def saveFile (config : Config) (file : File) : Except Error Unit × File :=
  match config.toText with
  | .ok text => (.ok (), some text)
  | .error e => (.error e, file)

/-- The configuration of the file that the environment names; of the usual file if it names none;
the usual values if there is no place for such a file. -/
def load (named usual : Option File) : Except Error Config :=
  match named, usual with
  | some file, _ => loadFile file
  | none, some file => loadFile file
  | none, none => .ok {}

end ParamQuery.Config
