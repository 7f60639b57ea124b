import SymbolGraph.Settings.Environment
set_option autoImplicit false

/-!
# Environment files

A file may give names values as an environment does, one binding a line. The word `export` may
stand before a name and a comment behind the value. A name may be in single quotes, and a value
in single or double quotes; a value in quotes may go over several lines and has escapes. In a
value a name in braces behind a dollar sign stands for the value of that name, in the file or
else in the environment, or for what is given for the case that it has none. A line that is no
binding is skipped. What the environment has wins over the file.
-/

namespace SymbolGraph.EnvironmentFile

open Text

/-! ## Reading parts -/

/-- The character ends a line. -/
def endsLine (c : Char) : Bool := c = '\n' || c = '\r'

/-- Skips the blanks of a line. -/
def skipBlanks (t : Text) : Text := t.dropWhile fun c => isSpace c && ! endsLine c

/-- Reads what stands up to a quote, and what follows the quote. Behind a backslash a quote ends
nothing, unless no other follows. -/
def readQuoted (quote : Char) : Text → Option (Text × Text)
  | [] => none
  | '\\' :: c :: t =>
    if c = quote then
      match readQuoted quote t with
      | some (inner, rest) => some ('\\' :: c :: inner, rest)
      | none => some (['\\'], t)
    else (readQuoted quote (c :: t)).map fun (inner, rest) => ('\\' :: inner, rest)
  | c :: t =>
    if c = quote then some ([], t)
    else (readQuoted quote t).map fun (inner, rest) => (c :: inner, rest)

/-- The characters that a backslash and a character stand for between double quotes. -/
def doubleEscapes : List (Char × Char) :=
  [('\\', '\\'), ('\'', '\''), ('"', '"'), ('a', '\x07'), ('b', '\x08'), ('f', '\x0c'),
    ('n', '\n'), ('r', '\r'), ('t', '\t'), ('v', '\x0b')]

/-- The characters that a backslash and a character stand for between single quotes. -/
def singleEscapes : List (Char × Char) := [('\\', '\\'), ('\'', '\'')]

/-- Puts characters in the place of escapes; other backslashes stay. -/
def unescape (escapes : List (Char × Char)) : Text → Text
  | '\\' :: c :: t =>
    match escapes.find? (·.1 = c) with
    | some (_, meant) => meant :: unescape escapes t
    | none => '\\' :: unescape escapes (c :: t)
  | c :: t => c :: unescape escapes t
  | [] => []

/-- A value without the comment behind it, which blanks come before. -/
def cutComment : Text → Text
  | [] => []
  | c :: t =>
    if isSpace c && (t.dropWhile isSpace).head? = some '#' then [] else c :: cutComment t

/-- Reads a value. -/
def readValue (t : Text) : Option (Text × Text) :=
  match t with
  | '\'' :: t =>
      (readQuoted '\'' t).map fun (inner, rest) => (unescape singleEscapes inner, rest)
  | '"' :: t => (readQuoted '"' t).map fun (inner, rest) => (unescape doubleEscapes inner, rest)
  | t =>
    let line := t.takeWhile (! endsLine ·)
    let value := ((cutComment line).reverse.dropWhile isSpace).reverse
    some (value, t.dropWhile (! endsLine ·))

/-- Reads a name; of a comment there is none. -/
def readName (t : Text) : Option (Option Text × Text) :=
  match t with
  | '#' :: _ => some (none, t)
  | '\'' :: t =>
    match t.span (· ≠ '\'') with
    | (name, _ :: rest) => if name = [] then none else some (some name, rest)
    | (_, []) => none
  | t =>
    match t.span fun c => c ≠ '=' && c ≠ '#' && ! isSpace c with
    | ([], _) => none
    | (name, rest) => some (some name, rest)

/-- Skips the word `export` and the blanks behind it. -/
def skipExport (t : Text) : Text :=
  match dropHead? "export".toList t with
  | some rest => if skipBlanks rest = rest then t else skipBlanks rest
  | none => t

/-- Skips a comment; nothing may be left of the line then. -/
def endLine (t : Text) : Option Text :=
  let t := skipBlanks t
  match if t.head? = some '#' then t.dropWhile (! endsLine ·) else t with
  | [] => some []
  | c :: rest => if endsLine c then some rest else none

/-! ## Bindings -/

/-- A name with its value, if it has one. -/
abbrev Binding := Text × Option Text

/-- Reads what a line binds: nothing for a comment. -/
def readBinding (t : Text) : Option (List Binding × Text) := do
  let (name, t) ← readName (skipExport t)
  let t := skipBlanks t
  let (value, t) ← match t with
    | '=' :: rest => (readValue (skipBlanks rest)).map fun (value, rest) => (some value, rest)
    | rest => some (none, rest)
  let rest ← endLine t
  return ((name.map fun n => (n, value)).toList, rest)

/-- Reads bindings; there are at most as many as the text has characters. -/
def readBindings : (fuel : Nat) → Text → List Binding
  | 0, _ => []
  | fuel + 1, t =>
    match t.dropWhile isSpace with
    | [] => []
    | t =>
      match readBinding t with
      | some (bound, rest) => bound ++ readBindings fuel rest
      | none => readBindings fuel (t.dropWhile (! endsLine ·))

/-! ## References -/

/-- A reference behind a dollar sign: its name, what is given for the case that the name has no
value, and the length of the reference. -/
def reference? (t : Text) : Option (Text × Text × Nat) :=
  match t with
  | '\x7b' :: t =>
    match t.span fun c => c ≠ '\x7d' && c ≠ ':' with
    | (name, '\x7d' :: _) => some (name, [], name.length + 2)
    | (name, ':' :: '-' :: rest) =>
      match rest.span (· ≠ '\x7d') with
      | (default, _ :: _) => some (name, default, name.length + default.length + 4)
      | (_, []) => none
    | _ => none
  | _ => none

/-- A value with what its references stand for in their places; `skip` characters belong to
one. -/
def resolve (value? : Text → Option Text) : (skip : Nat) → Text → Text
  | _, [] => []
  | skip + 1, _ :: t => resolve value? skip t
  | 0, c :: t =>
    match if c = '$' then reference? t else none with
    | some (name, default, length) => (value? name).getD default ++ resolve value? length t
    | none => c :: resolve value? 0 t

/-- The names that a value refers to. -/
def referred : Text → List Text
  | [] => []
  | c :: t =>
    match if c = '$' then reference? t else none with
    | some (name, _, _) => name :: referred t
    | none => referred t

/-- The names and values of bindings. A reference looks for the last binding before it. -/
def resolveAll (environment : Environment) (bindings : List Binding) : List (Text × Text) :=
  bindings.foldl (fun found (name, value) =>
    let value? (n : Text) : Option Text :=
      ((environment.entries ++ found).reverse.find? (·.1 = n)).map (·.2)
    match value with
    | some value => found ++ [(name, resolve value? 0 value)]
    | none => found.filter (·.1 ≠ name)) []

/-- The bindings of a file. -/
def bindings (file : Text) : List Binding := readBindings file.length file

/-- The environment with the bindings of a file, which it wins over. -/
def extend (environment : Environment) (file : Text) : Environment :=
  { entries := resolveAll environment (bindings file) ++ environment.entries }

/-- What stands behind a value, in front of a name or in quotes is told apart. -/
example :
    extend { entries := [("A".toList, "0".toList)] }
      "export B = 'x # y' # z\nC=\"$\x7bB\x7d\\n$\x7bD:-1\x7d\"\n= 2\nA=3".toList =
    { entries := [("B".toList, "x # y".toList), ("C".toList, "x # y\n1".toList),
        ("A".toList, "3".toList), ("A".toList, "0".toList)] } := by
  decide

end SymbolGraph.EnvironmentFile
