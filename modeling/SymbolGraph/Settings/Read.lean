import SymbolGraph.Settings.Basic
import SymbolGraph.Settings.Environment
import SymbolGraph.Settings.Numeral
set_option autoImplicit false

/-!
# Reading settings

Settings are read from values given outright and from the environment. In both a name counts in
any case; a value given outright wins. Numbers and truth values may also be written as texts,
and whole numbers as fractions without a fractional part. All faults are reported, in the order
of the settings.
-/

namespace SymbolGraph

/-- Why a value is no setting. -/
inductive SettingCause
  | notText
  /-- A string has half of a surrogate pair in it. -/
  | half
  | notInteger
  /-- A text writes no integer. -/
  | integerText
  /-- A number is out of bounds. -/
  | integerSize
  | fractional
  | notFinite
  | notBoolean
  /-- A text or a number stands for no truth value. -/
  | booleanText
  | notPositive
  deriving DecidableEq, Repr

namespace SettingCause

/-- The name of a cause. -/
def name : SettingCause → String
  | notText => "string_type"
  | half => "string_unicode"
  | notInteger => "int_type"
  | integerText => "int_parsing"
  | integerSize => "int_parsing_size"
  | fractional => "int_from_float"
  | notFinite => "finite_number"
  | notBoolean => "bool_type"
  | booleanText => "bool_parsing"
  | notPositive => "value_error"

/-- The text of a cause. -/
def message : SettingCause → String
  | notText => "Input should be a valid string"
  | half => "Input should be a valid string, unable to parse raw data as a unicode string"
  | notInteger => "Input should be a valid integer"
  | integerText => "Input should be a valid integer, unable to parse string as an integer"
  | integerSize => "Unable to parse input string as an integer, exceeded maximum size"
  | fractional => "Input should be a valid integer, got a number with a fractional part"
  | notFinite => "Input should be a finite number"
  | notBoolean => "Input should be a valid boolean"
  | booleanText => "Input should be a valid boolean, unable to interpret input"
  | notPositive => "Value error, must be a positive integer"

end SettingCause

/-- A cause together with the setting's name. -/
structure SettingFault where
  field : String
  cause : SettingCause
  deriving DecidableEq, Repr

namespace Settings

/-! ## Values of the three types -/

/-- The bound of a word of 64 bits with a sign. -/
def wordBound : Int := 9223372036854775808

/-- The integer that a number without a fractional part is. -/
def wholeNumber (x : Binary64) : Except SettingCause Int :=
  match x.truncate? with
  | none => .error .notFinite
  | some n =>
    if ! (Json.float x).same (.int n) then .error .fractional
    else if - wordBound < n && n < wordBound then .ok n
    else .error .integerSize

/-- Reads an integer. -/
def readInteger : Json → Except SettingCause Int
  | .int n => .ok n
  | .bool b => .ok (if b then 1 else 0)
  | .float x => wholeNumber x
  | .str s =>
    match Numeral.read s.shown with
    | .ok n => .ok n
    | .error .malformed => .error .integerText
    | .error .tooLong => .error .integerSize
  | _ => .error .notInteger

/-- Reads an integer greater than zero. -/
def readPositive (v : Json) : Except SettingCause Int := do
  let n ← readInteger v
  if 0 < n then return n else .error .notPositive

/-- The words for true. -/
def trueWords : List Text := ["1", "on", "t", "true", "y", "yes"].map String.toList

/-- The words for false. -/
def falseWords : List Text := ["0", "off", "f", "false", "n", "no"].map String.toList

/-- The truth value that zero or one stands for. -/
def ofZeroOne (n : Int) : Except SettingCause Bool :=
  if n = 0 then .ok false else if n = 1 then .ok true else .error .booleanText

/-- Reads a truth value. -/
def readBoolean : Json → Except SettingCause Bool
  | .bool b => .ok b
  | .str s =>
    if trueWords.contains (Text.lower s.shown) then .ok true
    else if falseWords.contains (Text.lower s.shown) then .ok false
    else .error .booleanText
  | .int n => if - wordBound ≤ n && n < wordBound then ofZeroOne n else .error .notBoolean
  | .float x =>
    match wholeNumber x with
    | .ok n => ofZeroOne n
    | .error _ => .error .notBoolean
  | _ => .error .notBoolean

/-- Reads a text. -/
def readText : Json → Except SettingCause Text
  | .str s => (s.text?.map Except.ok).getD (.error .half)
  | _ => .error .notText

/-- Reads a text that may be null. -/
def readText? : Json → Except SettingCause (Option Text)
  | .null => .ok none
  | v => (readText v).map some

/-! ## All settings -/

/-- The value given outright whose name is the setting's in any case; the first of several. -/
def outright? (values : Fields) (field : Text) : Option Json :=
  (values.find? fun (name, _) => Text.lower name.shown = field).map (·.2)

/-- The value for a setting: the one given outright, else that of the environment. -/
def given? (values : Fields) (environment : Environment) (field : String) : Option Json :=
  (outright? values field.toList).or ((environment.get? field.toList).map .text)

/-- Reads one setting, if it is given. -/
def readField (given : String → Option Json) (field : String) (default : Json)
    (read : Json → Except SettingCause Json) : Except SettingFault Json :=
  match given field with
  | none => .ok default
  | some v => (read v).mapError fun cause => { field, cause }

/-- The fault of a setting, if there is one. -/
def faultOf : Except SettingFault Json → List SettingFault
  | .ok _ => []
  | .error fault => [fault]

/-- Reads settings. -/
def read (values : Fields) (environment : Environment) : Except (List SettingFault) Settings :=
  let given := given? values environment
  let base : Settings := {}
  let text (v : Json) := (readText v).map Json.text
  let positive (v : Json) := (readPositive v).map Json.int
  let logLevel := readField given "log_level" base.logLevel fun v =>
    (readText v).map fun t => .text (Text.upper t)
  let logFile := readField given "log_file" base.logFile fun v => (readText? v).map Json.ofText?
  let maxFiles := readField given "max_files" base.maxFiles positive
  let maxTotalChars := readField given "max_total_chars" base.maxTotalChars positive
  let maxFileSize := readField given "max_file_size_bytes" base.maxFileSize fun v =>
    (readInteger v).map Json.int
  let docstrings := readField given "include_docstrings" base.docstrings fun v =>
    (readBoolean v).map Json.bool
  let snippetLength := readField given "value_snippet_max_len" base.snippetLength positive
  let extensions := readField given "supported_extensions" base.extensions text
  let outputPath := readField given "graph_output_path" base.outputPath text
  match logLevel, logFile, maxFiles, maxTotalChars, maxFileSize, docstrings, snippetLength,
    extensions, outputPath with
  | .ok logLevel, .ok logFile, .ok maxFiles, .ok maxTotalChars, .ok maxFileSize, .ok docstrings,
    .ok snippetLength, .ok extensions, .ok outputPath =>
    .ok { logLevel, logFile, maxFiles, maxTotalChars, maxFileSize, docstrings, snippetLength,
          extensions, outputPath }
  | logLevel, logFile, maxFiles, maxTotalChars, maxFileSize, docstrings, snippetLength,
    extensions, outputPath =>
    .error (faultOf logLevel ++ faultOf logFile ++ faultOf maxFiles ++ faultOf maxTotalChars
      ++ faultOf maxFileSize ++ faultOf docstrings ++ faultOf snippetLength
        ++ faultOf extensions
      ++ faultOf outputPath)

/-- The settings as JSON. -/
def toJson (s : Settings) : Json :=
  Json.ofFields [("log_level", s.logLevel), ("log_file", s.logFile), ("max_files", s.maxFiles),
    ("max_total_chars", s.maxTotalChars), ("max_file_size_bytes", s.maxFileSize),
    ("include_docstrings", s.docstrings), ("value_snippet_max_len", s.snippetLength),
    ("supported_extensions", s.extensions), ("graph_output_path", s.outputPath),
    ("supported_extensions_list", Json.ofTexts (s.extensionList.toOption.getD []))]

end Settings

end SymbolGraph
