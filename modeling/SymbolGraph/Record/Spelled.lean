import SymbolGraph.Draft.Build
import SymbolGraph.Record.Basic
import SymbolGraph.Text.Spelling
set_option autoImplicit false

/-!
# Graphs of spelled outlines

The name of a file may have halves, and then the name of its module, the identifiers made of it
and the path have them too. The outlines of such files are spelled as outlines with texts, and
the strings of the graph that is built of these are read back. Names are compared, cut and
joined when a graph is built, and identifiers are ordered, all of which spelling keeps.
-/

namespace SymbolGraph

/-! ## The texts of an outline -/

section

variable (f : Text → Text)

/-- Changes the texts of an imported name. -/
def ImportedName.mapTexts (n : ImportedName) : ImportedName :=
  { name := f n.name, boundAs := n.boundAs.map f }

/-- Changes the texts of an import. -/
def ImportDecl.mapTexts (i : ImportDecl) : ImportDecl :=
  { i with path := f i.path, names := i.names.map (.mapTexts f), code := f i.code }

/-- Changes the texts of a variable. -/
def VariableDecl.mapTexts (v : VariableDecl) : VariableDecl :=
  { v with name := f v.name, snippet := v.snippet.map f }

/-- Changes the texts of a call site. -/
def CallSite.mapTexts (c : CallSite) : CallSite := { c with name := f c.name }

/-- Changes the texts of a function. -/
def FunctionDecl.mapTexts (d : FunctionDecl) : FunctionDecl :=
  { d with
    name := f d.name
    parameters := d.parameters.map f
    returnHint := d.returnHint.map f
    decorators := d.decorators.map f
    docstring := d.docstring.map f
    excerpt := d.excerpt.map f
    calls := d.calls.map (.mapTexts f) }

/-- Changes the texts of a class. -/
def ClassDecl.mapTexts (c : ClassDecl) : ClassDecl :=
  { c with
    name := f c.name
    bases := c.bases.map f
    decorators := c.decorators.map f
    docstring := c.docstring.map f
    excerpt := c.excerpt.map f
    methods := c.methods.map (.mapTexts f) }

/-- Changes the texts of an outline. -/
def Outline.mapTexts (o : Outline) : Outline :=
  { filePath := o.filePath.map f
    moduleName := f o.moduleName
    classes := o.classes.map (.mapTexts f)
    functions := o.functions.map (.mapTexts f)
    imports := o.imports.map (.mapTexts f)
    globals := o.globals.map (.mapTexts f) }

end

/-- The outline with other strings for the name of its module and its path, all spelled as
texts. -/
def Outline.spelledWith (o : Outline) (moduleName filePath : Points) : Outline :=
  { o.mapTexts fun t => t.points.spelled with
    moduleName := moduleName.spelled
    filePath := some filePath.spelled }

/-! ## The strings of a graph -/

/-- The string that is spelled by a string without halves. -/
def Points.unspelled (s : Points) : Points := s.shown.unspelled

/-- The spelling of a string is read back as that string. -/
@[simp] theorem Points.unspelled_points (s : Points) :
    Points.unspelled s.spelled.points = s := by
  rw [Points.unspelled, Points.shown_points, Points.unspelled_spelled]

mutual

/-- Reads the strings of a value back. -/
def Json.unspelled : Json → Json
  | .str s => .str s.unspelled
  | .arr vs => .arr (unspelledItems vs)
  | .obj fs => .obj (unspelledFields fs)
  | v => v

/-- Reads the strings of some values back. -/
def unspelledItems : List Json → List Json
  | [] => []
  | v :: vs => v.unspelled :: unspelledItems vs

/-- Reads the keys and the strings of members back. -/
def unspelledFields : Fields → Fields
  | [] => []
  | (k, v) :: fs => (k.unspelled, v.unspelled) :: unspelledFields fs

end

/-- Reads the strings of metadata back. -/
def Metadata.unspelled (m : Metadata) :
    Metadata := m.map fun (k, v) => (k.unspelled, v.unspelled)

/-- Reads the strings of a node back. -/
def NodeRecord.unspelled (n : NodeRecord) : NodeRecord :=
  { n with
    id := n.id.unspelled
    label := n.label.unspelled
    filePath := n.filePath.unspelled
    metadata := n.metadata.unspelled }

/-- Reads the strings of an edge back. -/
def EdgeRecord.unspelled (e : EdgeRecord) : EdgeRecord :=
  { e with
    id := e.id.unspelled
    source := e.source.unspelled
    target := e.target.unspelled
    metadata := e.metadata.unspelled }

/-- Reads the strings of a graph back. -/
def GraphRecord.unspelled (g : GraphRecord) : GraphRecord :=
  { nodes := g.nodes.map NodeRecord.unspelled, edges := g.edges.map EdgeRecord.unspelled }

end SymbolGraph
