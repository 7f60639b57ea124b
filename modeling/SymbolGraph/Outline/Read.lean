import SymbolGraph.Line.Docstring
import SymbolGraph.Outline.CallSite
import SymbolGraph.Outline.Import
set_option autoImplicit false

/-!
# Reading an outline

Declarations are read from the lines of a file in one pass. A header takes its block with it, so
that a top-level declaration is a header outside the blocks of all earlier headers, and a method
is a function header in the block of a class outside the blocks of earlier headers there.

The scan for methods starts behind the class's docstring, but no later than on the last line of
the block.
-/

namespace SymbolGraph

open Text

/-- The name of a file without its directories and its `.py`. A bar, which separates the parts
of an edge's identifier, becomes an underscore. -/
def moduleNameOf (fileName : Text) : Text :=
  let base := ((split '/' (replaceChar '\\' '/' fileName)).getLast?).getD []
  replaceChar '|' '_' ((dropTail? ".py".toList base).getD base)

/-- A value cut to `length` code points, with an ellipsis when something was cut. -/
def snippet (value : Text) (length : Int) : Text :=
  let t := trim value
  if (t.length : Int) ≤ length then t else upTo length t ++ ['…']

/-- The variable assigned on a line, if the line is an assignment at the top level. -/
def Line.assigned? (options : OutlineOptions) (l : Line) : Option VariableDecl :=
  match l.form with
  | .assignment _ name value =>
    if l.indent = 0 then
      some { name, line := l.number, snippet := some (snippet value options.snippetLength) }
    else none
  | _ => none

/-- The parts of a function header. -/
structure FunctionHeader where
  async : Option Text
  name : Text
  parameters : Text
  hint : Option Text

/-- The function declared by `header` on line `l`, with `after` the lines behind it. -/
def FunctionHeader.declare (header : FunctionHeader) (options : OutlineOptions)
    (decorators : List Text) (l : Line) (after : List Line) : FunctionDecl :=
  let body := block l.indent after
  let doc := Docstring.readIf options.docstrings l.indent body.length after
  { name := header.name
    parameters := commaList header.parameters
    returnHint := (header.hint.map trim).filter (· ≠ [])
    isAsync := some header.async.isSome
    isPrivate := some (header.name.head? = some '_')
    decorators
    firstLine := l.number
    lastLine := l.number + body.length
    docstring := doc.text
    excerpt := some (Line.excerpt (l :: body))
    calls := bodyCalls (body.drop doc.bodyOffset) }

/-- The methods in the first `size` of some lines. -/
def methods (options : OutlineOptions) (size : Nat) (ls : List Line) : List FunctionDecl :=
  let run := decoratorRun (ls.take size)
  match _h : ls.drop run.length with
  | [] => []
  | l :: after =>
    if size ≤ run.length then []
    else
      let left := size - (run.length + 1)
      let taken := (block l.indent after).length
      match l.form with
      | .functionHeader async name parameters hint =>
        FunctionHeader.declare { async, name, parameters, hint } options
          (decoratorTexts run) l after
          :: methods options (left - taken) (after.drop taken)
      | .classHeader .. => methods options (left - taken) (after.drop taken)
      | _ => methods options left after
termination_by ls.length
decreasing_by
  all_goals
    have := congrArg List.length _h
    simp only [List.length_drop, List.length_cons] at this ⊢
    omega

/-- The class declared on line `l`, with `after` the lines behind it. -/
def declareClass (options : OutlineOptions) (name : Text) (bases : Option Text)
    (decorators : List Text) (l : Line) (after : List Line) : ClassDecl :=
  let body := block l.indent after
  let doc := Docstring.readIf options.docstrings l.indent body.length after
  let skipped := min doc.bodyOffset (body.length - 1)
  { name
    bases := commaList (bases.getD [])
    decorators
    firstLine := l.number
    lastLine := l.number + body.length
    docstring := doc.text
    excerpt := some (Line.excerpt (l :: body))
    methods := methods options (body.length - skipped) (after.drop skipped) }

/-- A top-level declaration. -/
inductive Declaration
  | function (f : FunctionDecl)
  | class (c : ClassDecl)
  deriving DecidableEq, Repr

/-- The declaration as a function, if it is one. -/
def Declaration.function? : Declaration → Option FunctionDecl
  | function f => some f
  | .class _ => none

/-- The declaration as a class, if it is one. -/
def Declaration.class? : Declaration → Option ClassDecl
  | function _ => none
  | .class c => some c

/-- The top-level declarations of some lines. -/
def declarations (options : OutlineOptions) (ls : List Line) : List Declaration :=
  let run := decoratorRun ls
  match _h : ls.drop run.length with
  | [] => []
  | l :: after =>
    let taken := (block l.indent after).length
    match l.form with
    | .functionHeader async name parameters hint =>
      .function (FunctionHeader.declare { async, name, parameters, hint } options
          (decoratorTexts run) l after)
        :: declarations options (after.drop taken)
    | .classHeader name bases =>
      .class (declareClass options name bases (decoratorTexts run) l after)
        :: declarations options (after.drop taken)
    | _ => declarations options after
termination_by ls.length
decreasing_by
  all_goals
    have := congrArg List.length _h
    simp only [List.length_drop, List.length_cons] at this ⊢
    omega

/-- The outline of a text. -/
def Outline.read (options : OutlineOptions) (filePath fileName content : Text) : Outline :=
  let ls := Line.scan content
  let ds := declarations options ls
  { filePath := some filePath
    moduleName := moduleNameOf fileName
    classes := ds.filterMap Declaration.class?
    functions := ds.filterMap Declaration.function?
    imports := ls.filterMap Line.import?
    globals := ls.filterMap (Line.assigned? options) }

end SymbolGraph
