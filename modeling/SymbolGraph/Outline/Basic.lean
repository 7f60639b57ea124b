import SymbolGraph.Text.Basic
set_option autoImplicit false

/-!
# Outlines

The outline of a file is what it declares and refers to: its imports, its top-level variables
and functions, and its classes with their methods. Functions and methods carry the call sites of
their bodies.
-/

namespace SymbolGraph

/-- A name that an import brings in, with the alias given to it. -/
structure ImportedName where
  name : Text
  boundAs : Option Text := none
  deriving DecidableEq, Repr

/-- The alias if there is one that is not empty, else the name itself. -/
def ImportedName.bound (n : ImportedName) : Text :=
  match n.boundAs with
  | none | some [] => n.name
  | some a => a

/-- The two forms of import. -/
inductive ImportStyle
  /-- `import a, b` -/
  | plain
  /-- `from m import a, b` -/
  | fromModule
  deriving DecidableEq, Repr

/-- The word that names an import's form. -/
def ImportStyle.word : ImportStyle → String
  | plain => "import"
  | fromModule => "from"

/-- An import. -/
structure ImportDecl where
  style : ImportStyle
  /-- The module imported from; for a plain import the first name. -/
  path : Text
  names : List ImportedName
  line : Int
  /-- The text of the line without the blanks around it. -/
  code : Text
  deriving DecidableEq, Repr

/-- An assignment to a name at the top level. -/
structure VariableDecl where
  name : Text
  line : Int
  /-- The start of the assigned value. -/
  snippet : Option Text := none
  deriving DecidableEq, Repr

/-- A place where something is called. -/
structure CallSite where
  /-- The name as written, with its dots. -/
  name : Text
  line : Int
  /-- The column of the name, from 1. -/
  column : Int
  deriving DecidableEq, Repr

/-- A function or a method. -/
structure FunctionDecl where
  name : Text
  parameters : List Text := []
  returnHint : Option Text := none
  /-- It is asynchronous, as far as that is known. -/
  isAsync : Option Bool := some false
  /-- It is private, as far as that is known. -/
  isPrivate : Option Bool := some false
  decorators : List Text := []
  firstLine : Int
  lastLine : Int
  docstring : Option Text := none
  excerpt : Option Text := none
  calls : List CallSite := []
  deriving DecidableEq, Repr

/-- A class with the methods of its block. -/
structure ClassDecl where
  name : Text
  bases : List Text := []
  decorators : List Text := []
  firstLine : Int
  lastLine : Int
  docstring : Option Text := none
  excerpt : Option Text := none
  methods : List FunctionDecl := []
  deriving DecidableEq, Repr

/-- What one file declares and refers to. -/
structure Outline where
  /-- The path of the file, if it is known. -/
  filePath : Option Text
  moduleName : Text
  classes : List ClassDecl := []
  functions : List FunctionDecl := []
  imports : List ImportDecl := []
  globals : List VariableDecl := []
  deriving DecidableEq, Repr

/-- How much of a file an outline takes in. -/
structure OutlineOptions where
  /-- Docstrings are captured. -/
  docstrings : Bool
  /-- The greatest length of a value's snippet. -/
  snippetLength : Int
  deriving DecidableEq, Repr

end SymbolGraph
