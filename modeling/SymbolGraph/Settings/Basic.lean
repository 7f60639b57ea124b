import SymbolGraph.Settings.Limit
import SymbolGraph.Text.Case
import SymbolGraph.Text.Basic
set_option autoImplicit false

/-!
# Settings

The settings of a run, with their defaults. A setting is a JSON value: settings that were read
have values of the right types, and others may be anything. What a setting means is asked for
when it is needed, and only then is it a fault that it has the wrong type. A choice made for one
call wins over the setting; a choice that counts as false is none.
-/

namespace SymbolGraph

/-- The settings of a run. -/
structure Settings where
  /-- The least level of the log records that are kept. -/
  logLevel : Json := .ofString "INFO"
  /-- A file that log records are also written to. -/
  logFile : Json := .null
  /-- The greatest number of source files. -/
  maxFiles : Json := .int 200
  /-- The greatest number of code points of all source files together. -/
  maxTotalChars : Json := .int 2000000
  /-- The greatest size of a file that a scan takes in. -/
  maxFileSize : Json := .int (10 * 1024 * 1024)
  /-- Docstrings are captured. -/
  docstrings : Json := .bool true
  /-- The greatest length of a value's snippet. -/
  snippetLength : Json := .int 120
  /-- The extensions of source files, with commas between them. -/
  extensions : Json := .ofString ".py"
  /-- The file that a graph is written to. -/
  outputPath : Json := .ofString "graph.json"
  deriving DecidableEq, Repr

/-- What was chosen for one call, or the setting when the choice counts as false. -/
def chosen (choice setting : Json) : Json := if choice.truthy then choice else setting

/-- The extensions in a list with commas, in lower case. -/
def extensionsIn (t : Text) : List Text := (Text.commaList t).map Text.lower

/-- The string that a path is written by, which a setting must be. -/
def pathString : Json → Except TypeFault Points
  | .str s => .ok s
  | v => .error (.notAPath v)

namespace Settings

/-- The extensions of source files, in lower case. -/
def extensionList (s : Settings) : Except TypeFault (List Text) :=
  match s.extensions with
  | .str t => .ok (extensionsIn t.shown)
  | v => .error (.notSplit v)

end Settings

end SymbolGraph
