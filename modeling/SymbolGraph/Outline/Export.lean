import SymbolGraph.Json.Basic
import SymbolGraph.Outline.Basic
set_option autoImplicit false

/-!
# Outlines as JSON

The form in which outlines are handed on: one object for each declaration, with all its fields
in a fixed order, null where a text is missing.
-/

namespace SymbolGraph

open Json

/-- An imported name as JSON. -/
def ImportedName.toJson (n : ImportedName) : Json :=
  ofFields [("name", .text n.name), ("alias", ofText? n.boundAs)]

/-- An import as JSON. -/
def ImportDecl.toJson (i : ImportDecl) : Json :=
  ofFields [("import_type", ofString i.style.word), ("module", .text i.path),
    ("names", .arr (i.names.map ImportedName.toJson)), ("line", .int i.line),
    ("code", .text i.code)]

/-- A variable as JSON. -/
def VariableDecl.toJson (v : VariableDecl) : Json :=
  ofFields [("name", .text v.name), ("line", .int v.line), ("value_snippet", ofText? v.snippet)]

/-- A call site as JSON. -/
def CallSite.toJson (c : CallSite) : Json :=
  ofFields [("name", .text c.name), ("line", .int c.line), ("column", .int c.column),
    ("qualified", .text c.name)]

/-- A function as JSON. -/
def FunctionDecl.toJson (f : FunctionDecl) : Json :=
  ofFields [("name", .text f.name), ("parameters", ofTexts f.parameters),
    ("return_hint", ofText? f.returnHint), ("is_async", ofBool? f.isAsync),
    ("is_private", ofBool? f.isPrivate), ("decorators", ofTexts f.decorators),
    ("line_start", .int f.firstLine), ("line_end", .int f.lastLine),
    ("docstring", ofText? f.docstring), ("code_excerpt", ofText? f.excerpt),
    ("calls", .arr (f.calls.map CallSite.toJson))]

/-- A class as JSON. -/
def ClassDecl.toJson (c : ClassDecl) : Json :=
  ofFields [("name", .text c.name), ("base_classes", ofTexts c.bases),
    ("decorators", ofTexts c.decorators), ("line_start", .int c.firstLine),
    ("line_end", .int c.lastLine), ("docstring", ofText? c.docstring),
    ("code_excerpt", ofText? c.excerpt), ("methods", .arr (c.methods.map FunctionDecl.toJson))]

/-- An outline as JSON, with values for its path and the name of its module. -/
def Outline.toJsonAt (filePath moduleName : Json) (o : Outline) : Json :=
  ofFields [("file_path", filePath), ("module_name", moduleName),
    ("classes", .arr (o.classes.map ClassDecl.toJson)),
    ("functions", .arr (o.functions.map FunctionDecl.toJson)),
    ("imports", .arr (o.imports.map ImportDecl.toJson)),
    ("variables", .arr (o.globals.map VariableDecl.toJson))]

/-- Several outlines, each in JSON, as one value. -/
def modulesJson (outlines : List Json) : Json := ofFields [("modules", .arr outlines)]

end SymbolGraph
