import SymbolGraph.Text.Basic
import SymbolGraph.Text.Word
set_option autoImplicit false

/-!
# Forms of a line

The structure of a Python file is read off its lines alone: each line has one of eight forms,
and the form is decided by the line itself. A line is blank when it holds nothing but blanks and
perhaps a comment; otherwise the recognisers are tried in the order decorator, class header,
function header, `from` import, plain import, assignment, and the first that accepts decides. A
line that none accepts is a statement.

Runs of blanks are read greedily and give blanks back one at a time when what follows is refused
(`afterBlanks`). So the value of `x = = 1` starts with the blank before the second equals sign.
-/

namespace SymbolGraph

open Text

/-- What a line is, with the parts of it that its form names. -/
inductive LineForm
  /-- Blanks only, or a comment. -/
  | blank
  /-- A line whose first visible character is `@`. -/
  | decorator
  /-- A class header, with the text between the parentheses if it has them. -/
  | classHeader (name : Text) (bases : Option Text)
  /-- A function header: the word `async` with the blanks after it, the name, the text between
  the parentheses, and the text between arrow and colon. -/
  | functionHeader (async : Option Text) (name parameters : Text) (hint : Option Text)
  /-- An import from a module, with the text of the imported names. -/
  | fromImport (path names : Text)
  /-- A plain import, with the text of the imported names. -/
  | plainImport (names : Text)
  /-- An assignment to a name, with its indentation. -/
  | assignment (indent name value : Text)
  /-- Any other line. -/
  | statement
  deriving DecidableEq, Repr

/-! ## Reading the parts -/

/-- Skips a run of blanks and reads the rest. When the rest is refused the run gives back its
blanks, the last one first. -/
def afterBlanks {α : Type} (read : Text → Option α) : Text → Option α
  | [] => read []
  | c :: cs =>
    if isSpace c then
      match afterBlanks read cs with
      | some a => some a
      | none => read (c :: cs)
    else read (c :: cs)

/-- As `afterBlanks`, for a run of at least one blank. -/
def afterSomeBlanks {α : Type} (read : Text → Option α) : Text → Option α
  | [] => none
  | c :: cs => if isSpace c then afterBlanks read cs else none

/-- Reads an identifier: an ASCII letter or underscore, then word characters. -/
def identifier? : Text → Option (Text × Text)
  | [] => none
  | c :: cs =>
    if isNameStart c then some (c :: cs.takeWhile isWord, cs.dropWhile isWord) else none

/-- Reads a text between parentheses, up to the first closing one. -/
def parenthesised? : Text → Option (Text × Text)
  | '(' :: cs =>
    match cs.dropWhile (· ≠ ')') with
    | ')' :: rest => some (cs.takeWhile (· ≠ ')'), rest)
    | _ => none
  | _ => none

/-- A colon follows, perhaps after blanks. -/
def opensBlock (t : Text) : Bool :=
  match trimLeft t with
  | ':' :: _ => true
  | _ => false

/-- The text itself, when it is one line; one line feed may end it. -/
def wholeLine? (t : Text) : Option Text :=
  match t.dropWhile (· ≠ '\n') with
  | [] => some t
  | ['\n'] => some (t.takeWhile (· ≠ '\n'))
  | _ => none

/-- As `wholeLine?`, for a line that is not empty. -/
def nonemptyLine? (t : Text) : Option Text := (wholeLine? t).filter (· ≠ [])

/-- Reads the text between an arrow and the next colon. -/
def returnHint? : Text → Option Text :=
  afterBlanks fun t =>
    match t.dropWhile (· ≠ ':') with
    | ':' :: _ => some (t.takeWhile (· ≠ ':')) |>.filter (· ≠ [])
    | _ => none

/-- The word `async` with the blanks after it, if a text starts with them, and the rest. -/
def asyncMark (t : Text) : Option Text × Text :=
  match dropHead? "async".toList t with
  | some rest =>
    match rest.takeWhile isSpace with
    | [] => (none, t)
    | blanks => (some ("async".toList ++ blanks), rest.dropWhile isSpace)
  | none => (none, t)

/-! ## Recognisers

Each takes the text of a line behind its indentation. -/

/-- `class Name:` or `class Name(bases):`. -/
def classHeader? (t : Text) : Option LineForm := do
  let t ← dropHead? "class".toList t
  let (name, t) ← afterSomeBlanks identifier? t
  match parenthesised? t with
  | some (bases, t) => if opensBlock t then some (.classHeader name (some bases)) else none
  | none => if opensBlock t then some (.classHeader name none) else none

/-- `def name(parameters):`, with `async` before it and `-> hint` behind it as they occur. -/
def functionHeader? (t : Text) : Option LineForm := do
  let (mark, t) := asyncMark t
  let t ← dropHead? "def".toList t
  let (name, t) ← afterSomeBlanks identifier? t
  let (parameters, t) ← parenthesised? (trimLeft t)
  match dropHead? "->".toList (trimLeft t) with
  | some t => (returnHint? t).map fun hint => .functionHeader mark name parameters (some hint)
  | none => if opensBlock t then some (.functionHeader mark name parameters none) else none

/-- `from path import names`. -/
def fromImport? (t : Text) : Option LineForm := do
  let t ← dropHead? "from".toList t
  let (path, t) ← afterSomeBlanks
    (fun t => some (t.takeWhile isDottedChar, t.dropWhile isDottedChar) |>.filter (·.1 ≠ [])) t
  let t ← afterSomeBlanks (dropHead? "import".toList) t
  let names ← afterSomeBlanks nonemptyLine? t
  return .fromImport path names

/-- `import names`. -/
def plainImport? (t : Text) : Option LineForm := do
  let t ← dropHead? "import".toList t
  let names ← afterSomeBlanks nonemptyLine? t
  return .plainImport names

/-- Reads the value of an assignment: at least one character, the first no equals sign. -/
def assignedValue? : Text → Option Text
  | [] => none
  | c :: cs => if c = '=' then none else (wholeLine? cs).map (c :: ·)

/-- `name = value`, behind the given indentation. -/
def assignment? (indent t : Text) : Option LineForm := do
  let (name, t) ← identifier? t
  let t ← dropHead? ['='] (trimLeft t)
  let value ← afterBlanks assignedValue? t
  return .assignment indent name value

namespace LineForm

/-- The form of a line. -/
def ofText (raw : Text) : LineForm :=
  match trim raw with
  | [] | '#' :: _ => .blank
  | _ =>
    let indent := raw.takeWhile isIndent
    let t := raw.dropWhile isIndent
    match t with
    | '@' :: _ => .decorator
    | _ =>
      ((classHeader? t) <|> (functionHeader? t) <|> (fromImport? t) <|> (plainImport? t) <|>
        (assignment? indent t)).getD .statement

/-- The name of the form. -/
def name : LineForm → String
  | blank => "blank"
  | decorator => "decorator"
  | classHeader .. => "class_header"
  | functionHeader .. => "function_header"
  | fromImport .. => "from_import"
  | plainImport .. => "import"
  | assignment .. => "assignment"
  | statement => "statement"

/-- The parts that the form names, in the order of the line; none for a form without parts of
its own. -/
def parts : LineForm → Option (List (Option Text))
  | blank | statement => none
  | decorator => some []
  | classHeader name bases => some [some name, bases]
  | functionHeader async name parameters hint => some [async, some name, some parameters, hint]
  | fromImport path names => some [some path, some names]
  | plainImport names => some [some names]
  | assignment indent name value => some [some indent, some name, some value]

/-- The line declares a class or a function. -/
def isHeader : LineForm → Bool
  | classHeader .. | functionHeader .. => true
  | _ => false

end LineForm

end SymbolGraph
