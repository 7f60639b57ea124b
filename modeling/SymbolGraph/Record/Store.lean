import SymbolGraph.FileTree.Basic
import SymbolGraph.Json.Reader
import SymbolGraph.Json.Writer
import SymbolGraph.Record.Read
set_option autoImplicit false

/-!
# Stored graphs

A graph is stored as a file that holds its text. The file is emptied before the text is made, so
a graph that cannot be written leaves an empty file: one that cannot be ordered, that goes
beyond the limits of the writer, or that has half of a surrogate pair in a string. A stored
graph that is not there, that cannot be read or that is no JSON is no graph; one that is JSON of
the wrong shape, or that goes beyond the limits of the reader, is a fault.
-/

namespace SymbolGraph

/-- Why a graph cannot be stored or read back. -/
inductive StoreFault
  | path (fault : PathFault)
  | record (fault : RecordFault)
  /-- The file is not UTF-8. -/
  | notText
  /-- The string to be stored is no text. -/
  | encode (fault : EncodeFault)
  /-- An integer to be written has too many digits. -/
  | longInteger
  /-- There are lists and objects that lie too deep in each other. -/
  | tooDeep
  deriving DecidableEq, Repr

/-- The text of a fault. -/
def StoreFault.message : StoreFault → Text
  | path fault => fault.message
  | record fault => fault.message
  | notText => "The file is not UTF-8".toList
  | encode fault => fault.message
  | longInteger =>
    "Exceeds the limit (".toList ++ Text.ofNat Text.maxDigits
      ++ " digits) for integer string conversion;".toList
      ++ " use sys.set_int_max_str_digits() to increase the limit".toList
  | tooDeep => "maximum recursion depth exceeded".toList

/-- The indentation of a stored graph. -/
def storedIndent : Option Text := Json.spaces 2

/-- How deep lists and objects may lie in each other, and how many digits an integer may have,
in what is written and in a stored graph that is read. -/
def storedLimits : JsonLimits := { depth := some 990, digits := some Text.maxDigits }

/-- Stores a text that may fail to be made: the tree afterwards, and the fault if there is one.
The directories above the file are made as needed. -/
def saveText (t : FileTree) (p : Path) (text : Except StoreFault Text) :
    FileTree × Option StoreFault :=
  match t.makeDirectories p.parent with
  | (t, some fault) => (t, some (.path fault))
  | (t, none) =>
    match t.write p [] with
    | .error fault => (t, some (.path fault))
    | .ok emptied =>
      match text with
      | .error fault => (emptied, some fault)
      | .ok text =>
        match emptied.write p text.toBytes with
        | .error fault => (emptied, some (.path fault))
        | .ok stored => (stored, none)

/-- The written form of a value that keeps the limits. -/
def Json.dump (indent : Option Text) (v : Json) : Except StoreFault Points :=
  match v.writeWithin storedLimits indent with
  | .ok s => .ok s
  | .error .tooDeep => .error .tooDeep
  | .error _ => .error .longInteger

namespace GraphRecord

/-- The written form of a graph that keeps the limits. -/
def dump (indent : Option Text) (g : GraphRecord) : Except StoreFault Points :=
  match g.ordered with
  | .error fault => .error (.record fault)
  | .ok ordered => ordered.toJson.dump indent

/-- The text of a stored graph. -/
def storedText (g : GraphRecord) : Except StoreFault Text :=
  match g.dump storedIndent with
  | .error fault => .error fault
  | .ok s => s.encode.mapError .encode

/-- Stores a graph. -/
def save (g : GraphRecord) (t : FileTree) (p : Path) : FileTree × Option StoreFault :=
  saveText t p g.storedText

/-- The graph that a stored text is. -/
def ofStored (text : Text) : Except StoreFault (Option GraphRecord) :=
  match Json.readWithin storedLimits (Text.normalizeNewlines text).points with
  | .error .malformed => .ok none
  | .error (.longNumeral n) => .error (.record (.longNumeral n))
  | .error .tooDeep => .error .tooDeep
  | .ok v => ((GraphRecord.ofJson v).map some).mapError StoreFault.record

/-- Reads a stored graph. -/
def load (t : FileTree) (p : Path) : Except StoreFault (Option GraphRecord) :=
  match t.find? p, t.read p with
  | .error fault, _ => .error (.path fault)
  | .ok _, .error _ => .ok none
  | .ok _, .ok bytes =>
    match Utf8.decode? bytes with
    | none => .error .notText
    | some text => ofStored text

end GraphRecord

end SymbolGraph
