import SymbolGraph.Json.Basic
import SymbolGraph.Text.Case
set_option autoImplicit false

/-!
# Environments

An environment gives names values, which are texts. A name is not empty and has no equals sign,
since that ends it; neither a name nor a value has a null character. A name is looked up in any
case, and of several that are then alike the last one counts.
-/

namespace SymbolGraph

/-- Names with values. -/
structure Environment where
  entries : List (Text × Text) := []
  deriving DecidableEq, Repr

/-- Why a name with a value is no part of an environment. -/
inductive EnvironmentFault
  /-- The value is no text. -/
  | notText
  | nullCharacter
  | equalsInName
  | emptyName
  deriving DecidableEq, Repr

/-- The text of a fault. -/
def EnvironmentFault.message : EnvironmentFault → String
  | notText => "The value is no text"
  | nullCharacter => "embedded null byte"
  | equalsInName => "illegal environment variable name"
  | emptyName => "[Errno 22] Invalid argument"

namespace Environment

/-- A name with a value, unless something is wrong with the two. -/
def readPair (name : Text) (value : Json) : Except EnvironmentFault (Text × Text) :=
  match value.text? with
  | none => .error .notText
  | some value =>
    if name.contains '\x00' || value.contains '\x00' then .error .nullCharacter
    else if name.contains '=' then .error .equalsInName
    else if name = [] then .error .emptyName
    else .ok (name, value)

/-- The environment of some names and values, unless one is at fault; the first such counts. -/
def read (members : Fields) : Except EnvironmentFault Environment := do
  return { entries := ← members.mapM fun (name, value) => readPair name.shown value }

/-- The value of a name that is given in lower case. -/
def get? (e : Environment) (name : Text) : Option Text :=
  (e.entries.reverse.find? fun (n, _) => Text.lower n = name).map (·.2)

end Environment

end SymbolGraph
