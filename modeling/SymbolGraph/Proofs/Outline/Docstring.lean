import Mathlib.Data.List.Pairwise
import SymbolGraph.Proofs.Outline.Method
set_option autoImplicit false

/-!
# What is reported on the lines of a docstring

The end of a docstring and the end of a block are found apart from each other: a block ends by
indentation, whatever stands in quotes, and a docstring ends at a quote, whatever its lines are
indented by. On the lines that a docstring shares with the block that it opens in, no class,
function or method is reported, with one exception: since the search for methods starts no later
than on the last line of a class's block, that line can be a method's header also where it
belongs to the docstring (`Nested.method_of_inside`, `exists_place_of_method`). On the lines
behind the block everything is read as if there were no docstring.
-/

namespace SymbolGraph

/-- A class, a function or a method of an outline: its lines and its docstring. -/
structure Reported where
  span : Span
  docstring : Option Text
  deriving DecidableEq, Repr

def FunctionDecl.reported (f : FunctionDecl) : Reported := ⟨f.span, f.docstring⟩

/-- A class and its methods. -/
def ClassDecl.reported (c : ClassDecl) : List Reported :=
  ⟨c.span, c.docstring⟩ :: c.methods.map FunctionDecl.reported

def Declaration.reported : Declaration → List Reported
  | function f => [f.reported]
  | .class c => c.reported

/-- The classes, methods and functions of an outline. -/
def Outline.reported (o : Outline) : List Reported :=
  o.classes.flatMap ClassDecl.reported ++ o.functions.map FunctionDecl.reported

theorem exists_declaration_of_reported {options : OutlineOptions} {path name t : Text}
    {r : Reported} (hr : r ∈ (Outline.read options path name t).reported) :
    ∃ d ∈ declarations options (Line.scan t), r ∈ d.reported := by
  rcases List.mem_append.mp hr with hclass | hfunction
  · obtain ⟨c, hc, hr⟩ := List.mem_flatMap.mp hclass
    exact ⟨.class c, class_mem_declarations hc, hr⟩
  · obtain ⟨f, hf, rfl⟩ := List.mem_map.mp hfunction
    exact ⟨.function f, function_mem_declarations hf, List.mem_singleton_self _⟩

/-! ## Nesting -/

/-- Of two that stand in a list of lines that follow each other, one ends before the other
starts. -/
theorem eq_or_apart {α : Type} {first last : α → Int} {as : List α}
    (has : as.Pairwise fun a b => last a < first b) {a b : α} (ha : a ∈ as) (hb : b ∈ as) :
    a = b ∨ last a < first b ∨ last b < first a := by
  have : Std.Symm fun a b : α => last a < first b ∨ last b < first a := ⟨fun _ _ => Or.symm⟩
  have heach : as.Pairwise fun a b => last a < first b ∨ last b < first a := has.imp Or.inl
  exact or_iff_not_imp_left.mpr (heach.forall ha hb)

section

variable {ds : List Declaration} {d d' : Declaration} {r r' : Reported}

/-- What is reported of a declaration lies on its lines. -/
theorem Nested.reported_within (hds : Nested ds) (hd : d ∈ ds) (hr : r ∈ d.reported) :
    d.span.first ≤ r.span.first ∧ r.span.first ≤ r.span.last ∧ r.span.last ≤ d.span.last := by
  have hordered := hds.ordered d hd
  cases d with
  | function f =>
      obtain rfl : r = f.reported := List.mem_singleton.mp hr
      exact ⟨Int.le_refl _, hordered, Int.le_refl _⟩
  | «class» c =>
      rcases List.mem_cons.mp hr with rfl | hmethod
      · exact ⟨Int.le_refl _, hordered, Int.le_refl _⟩
      · obtain ⟨m, hm, rfl⟩ := List.mem_map.mp hmethod
        obtain ⟨hfirst, hle, hlast⟩ := hds.methodWithin c hd m hm
        exact ⟨Int.le_of_lt hfirst, hle, hlast⟩

/-- Only a method starts on a line of something else that is reported, and only of its class. -/
theorem Nested.method_of_inside (hds : Nested ds) (hd : d ∈ ds) (hd' : d' ∈ ds)
    (hr : r ∈ d.reported) (hr' : r' ∈ d'.reported) (hlt : r.span.first < r'.span.first)
    (hle : r'.span.first ≤ r.span.last) :
    ∃ c, .class c ∈ ds ∧ r.span = c.span ∧ ∃ m ∈ c.methods, r' = m.reported := by
  have hwithin := hds.reported_within hd hr
  have hwithin' := hds.reported_within hd' hr'
  obtain rfl : d = d' := (eq_or_apart hds.ascending hd hd').resolve_right (by omega)
  cases d with
  | function f =>
      obtain rfl : r = f.reported := List.mem_singleton.mp hr
      obtain rfl : r' = f.reported := List.mem_singleton.mp hr'
      exact absurd hlt (Int.lt_irrefl _)
  | «class» c =>
      rcases List.mem_cons.mp hr with rfl | hmethod
      · rcases List.mem_cons.mp hr' with rfl | hmethod'
        · exact absurd hlt (Int.lt_irrefl _)
        · obtain ⟨m, hm, rfl⟩ := List.mem_map.mp hmethod'
          exact ⟨c, hd, rfl, m, hm, rfl⟩
      · obtain ⟨m, hm, rfl⟩ := List.mem_map.mp hmethod
        have hfirst : c.firstLine < m.firstLine := (hds.methodWithin c hd m hm).1
        rcases List.mem_cons.mp hr' with rfl | hmethod'
        · exact absurd (Int.lt_trans hfirst hlt) (Int.lt_irrefl _)
        · obtain ⟨m', hm', rfl⟩ := List.mem_map.mp hmethod'
          have hle' := (hds.methodWithin c hd m' hm').2.1
          simp only [FunctionDecl.reported, FunctionDecl.span] at hlt hle
          obtain rfl : m = m' :=
            (eq_or_apart (hds.methodsAscending c hd) hm hm').resolve_right (by omega)
          exact absurd hlt (Int.lt_irrefl _)

end

/-! ## Docstrings -/

/-- What is reported stands at the place of its header, up to the end of the block, with the
docstring that is read there. -/
def Reported.At (options : OutlineOptions) (t : Text) (r : Reported) (i : Nat)
    (l : Line) : Prop :=
  (Line.scan t)[i]? = some l ∧ r.span.first = i + 1 ∧
    r.span.last = blockEnd (Line.scan t) i l.indent + 1 ∧
    r.docstring = (Docstring.readIf options.docstrings l.indent
      (block l.indent ((Line.scan t).drop (i + 1))).length ((Line.scan t).drop (i + 1))).text

theorem exists_place_of_reported {options : OutlineOptions} {t : Text} {d : Declaration}
    {r : Reported} (hd : d ∈ declarations options (Line.scan t)) (hr : r ∈ d.reported) :
    ∃ i l, r.At options t i l := by
  have hfunction : ∀ f ∈ d.functions, ∃ i l, f.reported.At options t i l := by
    intro f hf
    obtain ⟨i, l, hl, hdeclares⟩ := exists_place_of_function hd hf
    exact ⟨i, l, hl, (place_of_declares hl hdeclares).2⟩
  cases d with
  | function f => exact List.mem_singleton.mp hr ▸ hfunction f (List.mem_singleton_self f)
  | «class» c =>
      rcases List.mem_cons.mp hr with rfl | hmethod
      · obtain ⟨i, l, name, bases, decorators, hl, hform, rfl⟩ := exists_place_of_class hd
        exact ⟨i, l, hl, congrArg Int.ofNat (number_of_getElem?_scan hl),
          lastNumber_scan hl l.indent, rfl⟩
      · obtain ⟨m, hm, rfl⟩ := List.mem_map.mp hmethod
        exact hfunction m hm

/-- A method that starts on a line of the docstring of its class starts on the last line of the
block. -/
theorem Reported.At.first_eq_last {options : OutlineOptions} {t : Text} {r : Reported} {i : Nat}
    {l : Line} (hwanted : options.docstrings = true) (hat : r.At options t i l) {c : ClassDecl}
    {m : FunctionDecl} (hc : .class c ∈ declarations options (Line.scan t))
    (hspan : r.span = c.span) (hm : m ∈ c.methods) {d q : Nat}
    (hlines : Docstring.Occupies (Line.scan t) i l.indent d q) (hle : m.firstLine ≤ q + 1) :
    m.firstLine = r.span.last := by
  obtain ⟨hl, hfirst, hlast, -⟩ := hat
  obtain ⟨i', l', name, bases, decorators, hl', hform, rfl⟩ := exists_place_of_class hc
  have hplace : i = i' := by
    have hnumber := number_of_getElem?_scan hl'
    rw [hspan] at hfirst
    simp only [ClassDecl.span, declareClass, hnumber] at hfirst
    omega
  subst hplace
  obtain rfl : l = l' := Option.some.inj (hl.symm.trans hl')
  obtain ⟨h, l', -, hmethod, -, hstart, -, hend, -⟩ := exists_place_of_method hl hform hm
  rw [hwanted, bodyStart_of_occupies hlines] at hstart
  omega

/-- A file with a content has an outline if the length of snippets is an integer. If it has an
outline with docstrings, take a class, a function or a method of it, with its header at place
`i`. It has a docstring exactly when there are lines that the docstring takes, at places `d` to
`q`: from the first line of the block that is neither blank nor a comment, which opens with a
triple quote, to the line with the next such quote or the end of the file. Nothing that is
reported starts on those of the lines that are lines of the class, function or method, the last
line of a class apart. -/
theorem docstring_lines_declare_nothing (options : ReadingOptions) (f : SourceFile)
    (content : Text) (hcontent : f.content = some content)
    (hwanted : options.docstrings = true) :
    (options.snippetLength.integer?.isSome → ∃ o, f.outline options = .ok o) ∧
    ∀ o, f.outline options = .ok o → ∀ r ∈ o.reported, ∃ (i : Nat) (l : Line),
      (Line.scan content)[i]? = some l ∧ r.span.first = i + 1 ∧
      r.span.last = blockEnd (Line.scan content) i l.indent + 1 ∧
      (r.docstring.isSome = true ↔
        ∃ d q, Docstring.Occupies (Line.scan content) i l.indent d q) ∧
      ∀ d q, Docstring.Occupies (Line.scan content) i l.indent d q → ∀ r' ∈ o.reported,
        (d : Int) + 1 ≤ r'.span.first → r'.span.first ≤ q + 1 →
        r.span.last < r'.span.first ∨
        (r.span.kind = .class_ ∧ r'.span.first = r.span.last) := by
  refine ⟨exists_outline (by simp [hcontent]), fun o houtline r hr => ?_⟩
  obtain ⟨length, content', hcontent', rfl⟩ := exists_length_of_outline houtline
  obtain rfl : content' = content := Option.some.inj (hcontent'.symm.trans hcontent)
  obtain ⟨declared, hdeclared, hr⟩ := exists_declaration_of_reported hr
  obtain ⟨i, l, hat⟩ := exists_place_of_reported hdeclared hr
  obtain ⟨hl, hfirst, hlast, hdoc⟩ := id hat
  refine ⟨i, l, hl, hfirst, hlast, ?_, fun d q hlines r' hr' hd hq => ?_⟩
  · rw [hdoc, ← Docstring.text_isSome_iff]
    simp only [hwanted, Docstring.readIf, if_true]
  · by_cases hbehind : r.span.last < r'.span.first
    · exact Or.inl hbehind
    · obtain ⟨declared', hdeclared', hr'⟩ := exists_declaration_of_reported hr'
      have hopen : i < d := by
        obtain ⟨quote, rest, hopen, -⟩ := hlines
        exact hopen.behind
      obtain ⟨c, hc, hspan, m, hm, rfl⟩ :=
        (nested_declarations _ content').method_of_inside hdeclared
        hdeclared' hr hr' (by omega) (Int.not_lt.mp hbehind)
      exact Or.inr ⟨congrArg Span.kind hspan, hat.first_eq_last hwanted hc hspan hm hlines hq⟩

/-- A class with a header in its docstring. -/
def headerInDocstring : SourceFile :=
  { name := "a.py".toList
    content :=
      some "class A:\n  \'\'\'a\n  def g(): pass\n  \'\'\'\n  def f(self): pass".toList }

/-- The header in the docstring is not reported. -/
theorem docstring_lines_declare_nothing_headerInDocstring :
    Docstring.Occupies (Line.scan (headerInDocstring.content.getD [])) 0 0 1 3 ∧
    ∃ o, headerInDocstring.outline ⟨true, .number 40⟩ = .ok o ∧
      3 ∉ o.reported.map (·.span.first) := by
  have hfacts : Docstring.Occupies (Line.scan (headerInDocstring.content.getD [])) 0 0 1 3 ∧
      (Line.scan (headerInDocstring.content.getD []))[0]?.map Line.indent = some 0 ∧
      (headerInDocstring.outline ⟨true, .number 40⟩).toOption.map
        (fun o => o.reported.map fun r => (r.span.first, r.span.last)) =
          some [(1, 5), (5, 5)] := by
    decide +kernel
  obtain ⟨hlines, hindent, hspans⟩ := hfacts
  obtain ⟨hread, hdocstrings⟩ :=
    docstring_lines_declare_nothing ⟨true, .number 40⟩ headerInDocstring _ rfl rfl
  obtain ⟨o, ho⟩ := hread rfl
  rw [ho] at hspans
  obtain ⟨r, later, hreported, hspan, -⟩ := List.map_eq_cons_iff.mp (Option.some.inj hspans)
  obtain ⟨hfirst, hlast⟩ := Prod.mk.inj hspan
  have hr : r ∈ o.reported := hreported ▸ List.mem_cons_self
  obtain ⟨i, l, hl, hplace, -, -, hnothing⟩ := hdocstrings o ho r hr
  obtain rfl : i = 0 := by omega
  replace hl : (Line.scan (headerInDocstring.content.getD []))[0]? = some l := hl
  rw [hl] at hindent
  rw [Option.some.inj hindent] at hnothing
  refine ⟨hlines, o, ho, fun hmem => ?_⟩
  obtain ⟨r', hr', hstart⟩ := List.mem_map.mp hmem
  have hplaces := hnothing 1 3 hlines r' hr'
  omega

/-! ## Lines of a docstring that declare something -/

/-- Something that is reported starts on a line of the docstring of something that is
reported. -/
def Outline.DocstringDeclares (o : Outline) (t : Text) : Prop :=
  ∃ r ∈ o.reported, ∃ r' ∈ o.reported, ∃ (i : Nat) (l : Line) (d q : Nat),
    (Line.scan t)[i]? = some l ∧ r.span.first = i + 1 ∧ r.docstring.isSome = true ∧
    Docstring.Occupies (Line.scan t) i l.indent d q ∧
    (d : Int) + 1 ≤ r'.span.first ∧ r'.span.first ≤ q + 1

/-- A class whose docstring goes on behind its block, with a header there. -/
def dedentedDocstring : SourceFile :=
  { name := "m.py".toList
    content := some "class A:\n    \'\'\'doc\ndef f(): pass\n\'\'\'".toList }

/-- A class whose docstring ends its block, with a header on the last line. -/
def docstringWithLastHeader : SourceFile :=
  { name := "m.py".toList
    content := some "class A:\n    \'\'\'doc\n    def f(): \'\'\'".toList }

/-- What is to be checked at a file that starts with a documented class, where one thing more is
reported. -/
theorem docstringDeclares_of_outline {f : SourceFile} {options : ReadingOptions} {t : Text}
    (d q indent : Nat) (first : Int) (hcontent : f.content.isSome)
    (hlength : options.snippetLength.integer?.isSome)
    (hfacts : (f.outline options).toOption.map
        (fun o => o.reported.map fun r => (r.span.first, r.docstring.isSome)) =
        some [(1, true), (first, false)] ∧
      (Line.scan t)[0]?.map Line.indent = some indent ∧
      Docstring.Occupies (Line.scan t) 0 indent d q ∧
      (d : Int) + 1 ≤ first ∧ first ≤ q + 1) :
    ∃ o, f.outline options = .ok o ∧ o.DocstringDeclares t := by
  obtain ⟨hreported, hindent, hlines, hstart, hend⟩ := hfacts
  obtain ⟨o, ho⟩ := exists_outline hcontent hlength
  rw [ho] at hreported
  obtain ⟨r, later, hall, hr, hlater⟩ := List.map_eq_cons_iff.mp (Option.some.inj hreported)
  obtain ⟨r', last, hlast, hr', -⟩ := List.map_eq_cons_iff.mp hlater
  obtain ⟨hfirst, hdoc⟩ := Prod.mk.inj hr
  obtain ⟨rfl, -⟩ := Prod.mk.inj hr'
  obtain ⟨l, hl, rfl⟩ := Option.map_eq_some_iff.mp hindent
  exact ⟨o, ho, r, by simp [hall], r', by
    simp [hall, hlast], 0, l, d, q, hl, hfirst, hdoc, hlines, hstart, hend⟩

/-- A docstring can hold the header of something that is reported: behind the block that it
opens in, and on the last line of a class. -/
theorem docstring_line_declares :
    (∃ o, dedentedDocstring.outline ⟨true, .number 120⟩ = .ok o ∧
      o.DocstringDeclares (dedentedDocstring.content.getD [])) ∧
    ∃ o, docstringWithLastHeader.outline ⟨true, .number 120⟩ = .ok o ∧
      o.DocstringDeclares (docstringWithLastHeader.content.getD []) := by
  constructor
  · refine docstringDeclares_of_outline 1 3 0 3 rfl rfl ?_
    decide +kernel
  · refine docstringDeclares_of_outline 1 2 0 3 rfl rfl ?_
    decide +kernel

end SymbolGraph
