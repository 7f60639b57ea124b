import Mathlib.Data.List.Infix
import SymbolGraph.Proofs.Outline.Method
set_option autoImplicit false

/-!
# Reading without docstrings

The choice to read docstrings decides where the body of a function or a class starts, and
nothing else. Without docstrings the same classes and functions are declared on the same lines.
A class may then have other methods, since the search for them starts at its first line. A
function may have further calls, in front of those that it has with docstrings, since its
docstring is searched for calls too.
-/

namespace SymbolGraph

/-- The second function is the first one without its docstring, and its calls end with those of
the first. -/
def FunctionDecl.Bare (f g : FunctionDecl) : Prop :=
  g = { f with docstring := none, calls := g.calls } ∧ f.calls <:+ g.calls

/-- The second class is the first one without its docstring, and perhaps with other methods,
which have none either. -/
def ClassDecl.Bare (c k : ClassDecl) : Prop :=
  k = { c with docstring := none, methods := k.methods } ∧ ∀ m ∈ k.methods, m.docstring = none

inductive Declaration.Bare : Declaration → Declaration → Prop
  | function {f g : FunctionDecl} (h : f.Bare g) : Bare (.function f) (.function g)
  | class {c k : ClassDecl} (h : c.Bare k) : Bare (.class c) (.class k)

/-! ## One declaration -/

/-- The calls behind a part of a body are the last ones of the body. -/
theorem bodyCalls_drop_isSuffix (body : List Line) (n : Nat) :
    bodyCalls (body.drop n) <:+ bodyCalls body :=
  ((List.drop_suffix n body).filter _).flatMap _

theorem bare_declare (header : FunctionHeader) (length : Int)
    (decorators : List Text) (l : Line) (after : List Line) :
    (header.declare ⟨true, length⟩ decorators l after).Bare
      (header.declare ⟨false, length⟩ decorators l after) :=
  ⟨rfl, bodyCalls_drop_isSuffix _ _⟩

theorem docstring_of_mem_methods {options : OutlineOptions}
    (hwanted : options.docstrings = false) {size : Nat} {ls : List Line} {f : FunctionDecl}
    (hf : f ∈ methods options size ls) : f.docstring = none := by
  obtain ⟨decorators, l, after, -, hdeclares⟩ := exists_of_mem_methods hf
  obtain ⟨async, name, parameters, hint, decorators, -, rfl⟩ := declares_of_method? hdeclares
  simp only [FunctionHeader.declare, Docstring.readIf, hwanted, Bool.false_eq_true, if_false]

theorem bare_declareClass (length : Int) (name : Text) (bases : Option Text)
    (decorators : List Text) (l : Line) (after : List Line) :
    (declareClass ⟨true, length⟩ name bases decorators l after).Bare
      (declareClass ⟨false, length⟩ name bases decorators l after) :=
  ⟨rfl, fun _ hm => docstring_of_mem_methods rfl hm⟩

/-- A line declares the same with docstrings and without. -/
theorem bare_declaration? (length : Int) (decorators : List Text) (l : Line)
    (after : List Line) :
    List.Forall₂ Declaration.Bare (l.declaration? ⟨true, length⟩ decorators after).toList
      (l.declaration? ⟨false, length⟩ decorators after).toList := by
  unfold Line.declaration?
  split
  · exact .cons (.function (bare_declare _ length decorators l after)) .nil
  · exact .cons (.class (bare_declareClass length _ _ decorators l after)) .nil
  · exact .nil

/-! ## All declarations -/

theorem bare_declarations (length : Int) (ls : List Line) :
    List.Forall₂ Declaration.Bare (declarations ⟨true, length⟩ ls)
      (declarations ⟨false, length⟩ ls) := by
  induction ls using declarations_induction with
  | stop ls hdrop =>
      rw [declarations_of_drop_eq_nil hdrop, declarations_of_drop_eq_nil hdrop]
      exact .nil
  | step ls l after hdrop ih =>
      rw [declarations_of_drop_eq_cons hdrop, declarations_of_drop_eq_cons hdrop]
      exact List.rel_append (bare_declaration? length _ l after) ih

section

variable (length : Int) (path name content : Text)

theorem bare_classes :
    List.Forall₂ ClassDecl.Bare (Outline.read ⟨true, length⟩ path name content).classes
      (Outline.read ⟨false, length⟩ path name content).classes := by
  refine List.rel_filterMap (fun d d' hbare => ?_)
    (bare_declarations length (Line.scan content))
  cases hbare with
  | function h => exact .none
  | «class» h => exact .some h

theorem bare_functions :
    List.Forall₂ FunctionDecl.Bare (Outline.read ⟨true, length⟩ path name content).functions
      (Outline.read ⟨false, length⟩ path name content).functions := by
  refine List.rel_filterMap (fun d d' hbare => ?_)
    (bare_declarations length (Line.scan content))
  cases hbare with
  | function h => exact .some h
  | «class» h => exact .none

end

/-- A file fails with docstrings and without, for the same reason, or is read with one length of
snippets in both cases. -/
theorem outline_with_and_without (limit : Limit) (f : SourceFile) :
    (∃ fault, f.outline ⟨true, limit⟩ = .error fault ∧
      f.outline ⟨false, limit⟩ = .error fault) ∨
    ∃ length content,
      f.outline ⟨true, limit⟩ = .ok (Outline.read ⟨true, length⟩ f.filePath f.name content) ∧
      f.outline ⟨false, limit⟩ =
        .ok (Outline.read ⟨false, length⟩ f.filePath f.name content) := by
  unfold SourceFile.outline
  cases f.content with
  | none => exact Or.inl ⟨_, rfl, rfl⟩
  | some content =>
      simp only [SourceFile.outlineOf]
      split
      · next v hinteger =>
        -- The variables, which alone can make the reading fail, are the same in both cases.
        have hglobals :
            (Outline.read ⟨true, content.length⟩ f.filePath f.name content).globals =
            (Outline.read ⟨false, content.length⟩ f.filePath f.name content).globals := rfl
        rw [hglobals]
        split
        · next fault hfault => exact Or.inl ⟨_, rfl, rfl⟩
        · exact Or.inr ⟨_, content, rfl, rfl⟩
      · exact Or.inr ⟨_, content, rfl, rfl⟩

/-- A file with a content has an outline with docstrings if the length of snippets is an
integer. If there is one with docstrings there is one without, and a failure is the same in both
cases. The two outlines have the same path, name, imports and variables. They have the same
classes, but for docstrings and methods, and the same functions, but for docstrings and calls.
Without docstrings no class, method or function has one, and the calls that a function has with
docstrings are the last ones of those that it has without. -/
theorem docstrings_only_affect_bodies (limit : Limit) (f : SourceFile) :
    (f.content.isSome → limit.integer?.isSome → ∃ o, f.outline ⟨true, limit⟩ = .ok o) ∧
    (∀ fault, f.outline ⟨true, limit⟩ = .error fault ↔
      f.outline ⟨false, limit⟩ = .error fault) ∧
    ∀ o, f.outline ⟨true, limit⟩ = .ok o → ∃ bare, f.outline ⟨false, limit⟩ = .ok bare ∧
      bare = { o with classes := bare.classes, functions := bare.functions } ∧
      List.Forall₂ ClassDecl.Bare o.classes bare.classes ∧
      List.Forall₂ FunctionDecl.Bare o.functions bare.functions := by
  refine ⟨fun hcontent hlength => exists_outline hcontent hlength, ?_⟩
  rcases outline_with_and_without limit f
    with ⟨fault, hwith, hwithout⟩ | ⟨length, content, hwith, hwithout⟩
  · rw [hwith, hwithout]
    exact ⟨fun _ => Iff.rfl, fun o ho => nomatch ho⟩
  · rw [hwith, hwithout]
    refine ⟨fun fault => ⟨nofun, nofun⟩, fun o ho => ?_⟩
    obtain rfl := Except.ok.inj ho
    exact ⟨_, rfl, rfl, bare_classes length _ _ content, bare_functions length _ _ content⟩

/-- A function with a call in its docstring. -/
def calledInDocstring : SourceFile :=
  { name := "a.py".toList, content := some "def f():\n  \'\'\'g()\'\'\'\n  h()".toList }

/-- Without docstrings the function also calls what its docstring calls. -/
theorem docstrings_only_affect_bodies_calledInDocstring :
    ∃ o bare, calledInDocstring.outline ⟨true, .number 40⟩ = .ok o ∧
      calledInDocstring.outline ⟨false, .number 40⟩ = .ok bare ∧
      List.Forall₂ FunctionDecl.Bare o.functions bare.functions ∧
      o.functions.map (·.calls.map (·.name)) = [["h".toList]] ∧
      bare.functions.map (·.calls.map (·.name)) = [["g".toList, "h".toList]] := by
  obtain ⟨hread, -, hbare⟩ := docstrings_only_affect_bodies (.number 40) calledInDocstring
  obtain ⟨o, ho⟩ := hread rfl rfl
  obtain ⟨bare, hwithout, -, -, hfunctions⟩ := hbare o ho
  have hcalls : ((calledInDocstring.outline ⟨true, .number 40⟩).toOption.map
      fun o => o.functions.map (·.calls.map (·.name))) = some [["h".toList]] := by
        decide +kernel
  have hall : ((calledInDocstring.outline ⟨false, .number 40⟩).toOption.map
      fun o => o.functions.map (·.calls.map (·.name))) = some [["g".toList, "h".toList]] := by
    decide +kernel
  rw [ho] at hcalls
  rw [hwithout] at hall
  exact ⟨o, bare, ho, hwithout, hfunctions, Option.some.inj hcalls, Option.some.inj hall⟩

end SymbolGraph
