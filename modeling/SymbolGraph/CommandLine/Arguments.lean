import SymbolGraph.Assoc
import SymbolGraph.Text.Integer
import SymbolGraph.Text.Point
set_option autoImplicit false

/-!
# Arguments

The arguments of the command line are one path and options. First each argument is told apart: a
word, the separator after which all arguments are words, or an option. An option may be written
by any beginning of its long name that no other option shares; its value may stand in the same
argument or be the word that follows. Then the arguments are taken one after the other.
Arguments are strings, in which a half stands for a byte that is no UTF-8.
-/

namespace SymbolGraph

/-- The options. -/
inductive Switch
  | help
  | output
  | noDocstrings
  | parsed
  | stats
  | logLevel
  | logFile
  deriving DecidableEq, Repr

namespace Switch

/-- The names of the options. -/
def names : List (Points × Switch) :=
  [("-h", help), ("--help", help), ("--output", output), ("-o", output),
    ("--no-docstrings", noDocstrings), ("--parsed", parsed), ("--stats", stats),
    ("--log-level", logLevel), ("--log-file", logFile)].map fun (n, s) => (.ofString n, s)

/-- The option takes a value. -/
def takesValue : Switch → Bool
  | output | logLevel | logFile => true
  | help | noDocstrings | parsed | stats => false

end Switch

/-- An argument told apart. -/
inductive Argument
  | word (t : Points)
  /-- Two dashes: all that follows is words. -/
  | separator
  /-- An option with no value in the same argument. -/
  | bare (s : Switch)
  /-- An option with a value after an equals sign. -/
  | valued (s : Switch) (value : Points)
  /-- An option of one letter with more text right after it, or, if it takes no value, after an
  equals sign. -/
  | joined (s : Switch) (tail : Points)
  /-- What looks like an option and is none. -/
  | unknown
  deriving DecidableEq, Repr

/-- Why a command line is not run. -/
inductive ArgumentFault
  /-- Help was asked for. -/
  | help
  /-- The arguments are wrong. -/
  | usage
  deriving DecidableEq, Repr

/-- The code that a program ends with in place of a run. -/
def ArgumentFault.exitCode : ArgumentFault → Nat
  | help => 0
  | usage => 2

/-! ## Telling arguments apart -/

/-- The point is a decimal digit, of whatever script. -/
def isDigit (p : Point) : Bool := p.holds fun c => (Text.digitValue? c).isSome

/-- Digits only, at least one, and perhaps a line break at the end. -/
def isDigits (t : Points) : Bool :=
  let body := (Text.dropTail? [.char '\n'] t).getD t
  body ≠ [] && body.all isDigit

/-- A negative number: a dash, digits, and perhaps a point with digits after it. -/
def isNegative : Points → Bool
  | .char '-' :: t =>
    isDigits t ||
      match t.dropWhile isDigit with
      | .char '.' :: fraction => isDigits fraction
      | _ => false
  | _ => false

/-- The name before the first equals sign and the value after it, if there is one. -/
def cutValue (t : Points) : Points × Option Points :=
  match t.dropWhile (· ≠ .char '=') with
  | _ :: value => (t.takeWhile (· ≠ .char '='), some value)
  | [] => (t, none)

/-- An option with or without a value. -/
def Argument.ofSwitch (s : Switch) : Option Points → Argument
  | none => .bare s
  | some value => .valued s value

/-- What an argument that starts with a dash and names no option is. -/
def Argument.ofOther (t : Points) : Argument :=
  if isNegative t || t.contains (.char ' ') then .word t else .unknown

/-- Tells an argument apart that starts with two dashes and is no option's name. -/
def readLong (t : Points) : Except ArgumentFault Argument :=
  let (name, value) := cutValue t
  match Assoc.get? name Switch.names, value with
  | some s, some value => .ok (.valued s value)
  | _, _ =>
    match Switch.names.filter fun (n, _) => name.isPrefixOf n with
    | [] => .ok (Argument.ofOther t)
    | [(_, s)] => .ok (Argument.ofSwitch s value)
    | _ => .error .usage

/-- Tells an argument apart that starts with one dash and is no option's name. -/
def readShort (t : Points) : Argument :=
  match cutValue t with
  | (name, value) =>
    match Assoc.get? name Switch.names, value with
    | some s, some value =>
      if s.takesValue || value = [] then .valued s value else .joined s value
    | _, _ =>
      match Assoc.get? (t.take 2) Switch.names with
      | some s => .joined s (t.drop 2)
      | none => Argument.ofOther t

/-- Tells an argument apart that is not the separator. -/
def Argument.ofPoints (t : Points) : Except ArgumentFault Argument :=
  match t with
  | .char '-' :: c :: _ =>
    match Assoc.get? t Switch.names with
    | some s => .ok (.bare s)
    | none => if c = .char '-' then readLong t else .ok (readShort t)
  | _ => .ok (.word t)

/-- Tells all arguments apart. -/
def readArguments : List Points → Except ArgumentFault (List Argument)
  | [] => .ok []
  | t :: ts =>
    if t = .ofString "--" then .ok (.separator :: ts.map .word)
    else do
      let a ← Argument.ofPoints t
      return a :: (← readArguments ts)

/-! ## Taking arguments -/

/-- What the arguments ask for. -/
structure Invocation where
  path : Option Points := none
  output : Option Points := none
  noDocstrings : Bool := false
  parsed : Bool := false
  stats : Bool := false
  /-- The level asked for; there is none in it if its value was left out. -/
  logLevel : Option (Option Points) := none
  logFile : Option Points := none
  /-- There was an argument that nothing takes. -/
  surplus : Bool := false
  deriving DecidableEq, Repr

namespace Invocation

/-- Sets an option that takes a value. A path that is left out is empty. -/
def setValue (i : Invocation) (s : Switch) (value : Option Points) : Invocation :=
  match s with
  | .output => { i with output := some (value.getD []) }
  | .logLevel => { i with logLevel := some value }
  | .logFile => { i with logFile := some (value.getD []) }
  | _ => i

/-- Sets an option that takes no value. -/
def setFlag (i : Invocation) (s : Switch) : Except ArgumentFault Invocation :=
  match s with
  | .help => .error .help
  | .noDocstrings => .ok { i with noDocstrings := true }
  | .parsed => .ok { i with parsed := true }
  | .stats => .ok { i with stats := true }
  | _ => .ok i

end Invocation

/-- A word comes next. -/
def wordFollows : List Argument → Bool
  | .word _ :: _ => true
  | _ => false

/-- The value in the same argument as its option: two dashes are the separator, which leaves
none. -/
def heldValue (t : Points) : Option Points := if t = .ofString "--" then none else some t

/-- What help with more letters after it comes to: the letters must be further options of one
letter, of which one that takes a value takes the rest or the word that follows. -/
def joinedHelp (following : List Argument) : Points → ArgumentFault
  | [] => .help
  | c :: cs =>
    match Assoc.get? [.char '-', c] Switch.names with
    | none => .usage
    | some s =>
      if s.takesValue then if cs = [] && ! wordFollows following then .usage else .help
      else joinedHelp following cs

/-- Takes arguments one after the other. -/
def takeArguments (i : Invocation) : List Argument → Except ArgumentFault Invocation
  | [] => .ok i
  | .word t :: rest =>
    if i.path.isSome then takeArguments { i with surplus := true } rest
    else
      match rest with
      | .separator :: rest => takeArguments { i with path := some t } rest
      | rest => takeArguments { i with path := some t } rest
  | .separator :: rest =>
    if i.path.isSome || ! wordFollows rest then takeArguments { i with surplus := true } rest
    else takeArguments i rest
  | .unknown :: rest => takeArguments { i with surplus := true } rest
  | .bare s :: rest =>
    if s.takesValue then
      match rest with
      | .word value :: rest => takeArguments (i.setValue s (some value)) rest
      | _ => .error .usage
    else
      match i.setFlag s with
      | .ok i => takeArguments i rest
      | .error fault => .error fault
  | .valued s value :: rest =>
    if s.takesValue then takeArguments (i.setValue s (heldValue value)) rest else .error .usage
  | .joined s tail :: rest =>
    if s.takesValue then takeArguments (i.setValue s (heldValue tail)) rest
    else .error (joinedHelp rest tail)

/-- Reads a command line. A path must be there, and nothing may be left over. -/
def Invocation.read (arguments : List Points) : Except ArgumentFault (Invocation × Points) := do
  let i ← takeArguments {} (← readArguments arguments)
  match i.path, i.surplus with
  | some path, false => return (i, path)
  | _, _ => .error .usage

end SymbolGraph
