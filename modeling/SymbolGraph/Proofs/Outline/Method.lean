import SymbolGraph.Proofs.Line.Docstring
import SymbolGraph.Proofs.Outline.TopLevel
set_option autoImplicit false

/-!
# The methods of a class

The search for the methods of a class goes from the first line behind its docstring to the end
of its block, and starts no later than on the last line of the block. In this window it reports
the function headers that lie in the block of no earlier header of the window (`spans_methods`),
as the reader of declarations does in the whole file; headers before the window are not looked
at. The blocks of the methods end no later than that of the class, so that the lines of an
outline are nested in one way only: methods lie in their class, and otherwise no class, function
or method meets another (`nested_declarations`).
-/

namespace SymbolGraph

/-! ## Outer functions of a window -/

theorem span_method? (options : OutlineOptions) (decorators : List Text) (l : Line)
    (after : List Line) :
    (l.method? options decorators after).map FunctionDecl.span =
      (spanAt? (l :: after) 0).filter (·.kind = .function) := by
  have hmethod : l.method? options decorators after =
      (l.declaration? options decorators after).bind Declaration.function? := by
    unfold Line.method? Line.declaration?
    cases l.form <;> rfl
  rw [hmethod, ← span_declaration? options decorators l after]
  cases l.declaration? options decorators after with
  | none => rfl
  | some d => cases d <;> rfl

/-- The methods among the first lines are the function headers there that lie outside the blocks
of all earlier headers. -/
theorem spans_methods (options : OutlineOptions) (size : Nat) (ls : List Line) :
    (methods options size ls).map FunctionDecl.span =
      (outerSpansWithin size ls).filter (·.kind = .function) := by
  induction size, ls using methods_induction with
  | stop size ls hstop =>
      have hrun : decoratorRun (ls.take size) = ls.take size := by
        refine (List.takeWhile_prefix _).eq_of_length_le ?_
        rw [List.length_take]
        rcases hstop with hnil | hsize
        · have hlength := List.drop_eq_nil_iff.mp hnil
          exact Nat.le_trans (Nat.min_le_right _ _) hlength
        · exact Nat.le_trans (Nat.min_le_left _ _) hsize
      rw [methods_of_stop hstop, outerSpansWithin_eq_nil]
      · rfl
      · exact fun l hl => heading?_of_mem_decoratorRun (hrun.symm ▸ hl)
  | step size ls l after hdrop hsize ih =>
      generalize hrun : decoratorRun (ls.take size) = run at hdrop hsize ih
      have hprefix : run <+: ls :=
        hrun ▸ (List.takeWhile_prefix _).trans (List.take_prefix size ls)
      have hlines : ls = run ++ l :: after := by
        rw [← hdrop]
        exact (List.prefix_iff_eq_append.mp hprefix).symm
      have hcount : size = run.length + (size - (run.length + 1) + 1) := by omega
      have houter : outerSpansWithin size ls =
          outerSpansWithin (size - (run.length + 1) + 1) (l :: after) := by
        conv => lhs; rw [hcount, hlines]
        exact outerSpansWithin_of_no_header
          (fun l hl => heading?_of_mem_decoratorRun (hrun ▸ hl)) _ _
      rw [methods_of_drop_eq_cons (hrun ▸ hdrop) (hrun ▸ hsize), hrun, List.map_append,
        ← Option.toList_map, span_method?, ih, houter, outerSpansWithin_cons,
        List.filter_append, Option.toList_filter]

/-! ## Where a declaration stands -/

/-- A function itself, or the methods of a class. -/
def Declaration.functions : Declaration → List FunctionDecl
  | function f => [f]
  | .class c => c.methods

theorem exists_place_of_suffix {ls after : List Line} {l : Line} (hsuffix : l :: after <:+ ls) :
    ∃ i, ls[i]? = some l ∧ ls.drop (i + 1) = after := by
  obtain ⟨before, rfl⟩ := hsuffix
  exact ⟨before.length, by simp, by simp⟩

/-- A class is declared by a class header. -/
theorem exists_header_of_class {options : OutlineOptions} {decorators : List Text} {l : Line}
    {after : List Line} {c : ClassDecl}
    (hdeclares : l.declaration? options decorators after = some (.class c)) :
    ∃ name bases, l.form = .classHeader name bases ∧
      c = declareClass options name bases decorators l after := by
  unfold Line.declaration? at hdeclares
  split at hdeclares
  · cases hdeclares
  · next name bases hform =>
    cases hdeclares
    exact ⟨name, bases, hform, rfl⟩
  · cases hdeclares

/-- The line declares the function: it is its header, and the function is read from the lines
behind it. -/
def Line.Declares (options : OutlineOptions) (l : Line) (after : List Line)
    (f : FunctionDecl) : Prop :=
  ∃ async name parameters hint decorators, l.form = .functionHeader async name parameters hint ∧
    f = FunctionHeader.declare { async, name, parameters, hint } options decorators l after

theorem declares_of_declaration? {options : OutlineOptions} {decorators : List Text} {l : Line}
    {after : List Line} {f : FunctionDecl}
    (hdeclares : l.declaration? options decorators after = some (.function f)) :
    l.Declares options after f := by
  unfold Line.declaration? at hdeclares
  split at hdeclares
  · next async name parameters hint hform =>
    cases hdeclares
    exact ⟨async, name, parameters, hint, decorators, hform, rfl⟩
  · cases hdeclares
  · cases hdeclares

theorem declares_of_method? {options : OutlineOptions} {decorators : List Text} {l : Line}
    {after : List Line} {f : FunctionDecl}
    (hdeclares : l.method? options decorators after = some f) : l.Declares options after f := by
  unfold Line.method? at hdeclares
  split at hdeclares
  · next async name parameters hint hform =>
    cases hdeclares
    exact ⟨async, name, parameters, hint, decorators, hform, rfl⟩
  · cases hdeclares

section

variable {options : OutlineOptions} {t : Text}

theorem class_mem_declarations {path name : Text} {c : ClassDecl}
    (hc : c ∈ (Outline.read options path name t).classes) :
    .class c ∈ declarations options (Line.scan t) := by
  obtain ⟨d, hd, hclass⟩ := List.mem_filterMap.mp hc
  obtain rfl : d = .class c := by
    cases d <;> cases hclass
    rfl
  exact hd

theorem function_mem_declarations {path name : Text} {f : FunctionDecl}
    (hf : f ∈ (Outline.read options path name t).functions) :
    .function f ∈ declarations options (Line.scan t) := by
  obtain ⟨d, hd, hfunction⟩ := List.mem_filterMap.mp hf
  obtain rfl : d = .function f := by
    cases d <;> cases hfunction
    rfl
  exact hd

theorem exists_place_of_class {c : ClassDecl}
    (hc : .class c ∈ declarations options (Line.scan t)) :
    ∃ i l name bases decorators, (Line.scan t)[i]? = some l ∧ l.form = .classHeader name bases ∧
      c = declareClass options name bases decorators l ((Line.scan t).drop (i + 1)) := by
  obtain ⟨decorators, l, after, hsuffix, hdeclares⟩ := exists_of_mem_declarations hc
  obtain ⟨name, bases, hform, rfl⟩ := exists_header_of_class hdeclares
  obtain ⟨i, hl, rfl⟩ := exists_place_of_suffix hsuffix
  exact ⟨i, l, name, bases, decorators, hl, hform, rfl⟩

/-- A function or a method stands at the place of its header. -/
theorem exists_place_of_function {d : Declaration} {f : FunctionDecl}
    (hd : d ∈ declarations options (Line.scan t)) (hf : f ∈ d.functions) :
    ∃ (i : Nat) (l : Line), (Line.scan t)[i]? = some l ∧
      l.Declares options ((Line.scan t).drop (i + 1)) f := by
  cases d with
  | function g =>
      obtain rfl : f = g := List.mem_singleton.mp hf
      obtain ⟨decorators, l, after, hsuffix, hdeclares⟩ := exists_of_mem_declarations hd
      obtain ⟨i, hl, rfl⟩ := exists_place_of_suffix hsuffix
      exact ⟨i, l, hl, declares_of_declaration? hdeclares⟩
  | «class» c =>
      obtain ⟨i, l, name, bases, decorators, -, -, rfl⟩ := exists_place_of_class hd
      obtain ⟨decorators', l', after, hsuffix, hdeclares⟩ := exists_of_mem_methods hf
      obtain ⟨h, hl', rfl⟩ := exists_place_of_suffix
        ((hsuffix.trans (List.drop_suffix _ _)).trans (List.drop_suffix _ _))
      exact ⟨h, l', hl', declares_of_method? hdeclares⟩

end

/-- The number of the last line of a block. -/
theorem lastNumber_scan {t : Text} {i : Nat} {l : Line} (hl : (Line.scan t)[i]? = some l)
    (indent : Int) :
    (l.number : Int) + (block indent ((Line.scan t).drop (i + 1))).length =
      blockEnd (Line.scan t) i indent + 1 := by
  rw [number_of_getElem?_scan hl, blockEnd]
  omega

/-- What a function has from the place of its header: its lines and its docstring. -/
theorem place_of_declares {options : OutlineOptions} {t : Text} {i : Nat} {l : Line}
    {f : FunctionDecl} (hl : (Line.scan t)[i]? = some l)
    (hdeclares : l.Declares options ((Line.scan t).drop (i + 1)) f) :
    (∃ async name parameters hint, l.form = .functionHeader async name parameters hint) ∧
      f.firstLine = i + 1 ∧ f.lastLine = blockEnd (Line.scan t) i l.indent + 1 ∧
      f.docstring = (Docstring.readIf options.docstrings l.indent
        (block l.indent ((Line.scan t).drop (i + 1))).length
          ((Line.scan t).drop (i + 1))).text := by
  obtain ⟨async, name, parameters, hint, decorators, hform, rfl⟩ := hdeclares
  exact ⟨⟨async, name, parameters, hint, hform⟩,
    congrArg Int.ofNat (number_of_getElem?_scan hl), lastNumber_scan hl l.indent, rfl⟩

/-! ## The window of a class -/

/-- The methods of a class are the outer functions of its window. -/
theorem spans_classMethods {options : OutlineOptions} {ls : List Line} {i : Nat} {l : Line}
    {name : Text} {bases : Option Text} (hl : ls[i]? = some l)
    (hform : l.form = .classHeader name bases) (decorators : List Text) {E b : Nat}
    (hE : blockEnd ls i l.indent = E) (hb : bodyStart options.docstrings ls i l.indent = b) :
    (declareClass options name bases decorators l (ls.drop (i + 1))).methods.map
      FunctionDecl.span =
      (outerSpansWithin (E + 1 - min E b) (ls.drop (min E b))).filter (·.kind = .function) := by
  simp only [declareClass]
  rw [blockEnd] at hE
  rw [bodyStart] at hb
  generalize (Docstring.readIf options.docstrings l.indent _ _).bodyOffset = offset at hb ⊢
  generalize (block (l.indent : Int) (ls.drop (i + 1))).length = size at hE ⊢
  rw [spans_methods]
  by_cases hempty : size = 0
  · -- the window is the header itself, which is no function
    have hstart : min E b = i := by omega
    have hcount : E + 1 - i = 0 + 1 := by omega
    have hdrop : ls.drop i = l :: ls.drop (i + 1) := by
      obtain ⟨hi, rfl⟩ := List.getElem?_eq_some_iff.mp hl
      exact List.drop_eq_getElem_cons hi
    have hspan : (spanAt? (l :: ls.drop (i + 1)) 0).toList.filter (·.kind = .function) =
        [] := by
      simp [spanAt?, Line.heading?, hform]
    rw [hstart, hcount, hdrop, outerSpansWithin_cons, List.filter_append, hspan, hempty]
    simp [outerSpansWithin]
  · have hstart : min E b = i + 1 + min offset (size - 1) := by omega
    have hcount : size - min offset (size - 1) = E + 1 - min E b := by omega
    rw [hcount, List.drop_drop, hstart]

/-- A method lies in the window of its class, and its block in that of the class. -/
theorem exists_place_of_method {options : OutlineOptions} {t : Text} {i : Nat} {l : Line}
    {name : Text} {bases : Option Text} (hl : (Line.scan t)[i]? = some l)
    (hform : l.form = .classHeader name bases) {decorators : List Text} {m : FunctionDecl}
    (hm :
      m ∈ (declareClass options name bases decorators l ((Line.scan t).drop (i + 1))).methods) :
    ∃ (h : Nat) (l' : Line), (Line.scan t)[h]? = some l' ∧ m.firstLine = h + 1 ∧
      m.lastLine = blockEnd (Line.scan t) h l'.indent + 1 ∧
      min (blockEnd (Line.scan t) i l.indent)
        (bodyStart options.docstrings (Line.scan t) i l.indent) ≤ h ∧
      i < h ∧ h ≤ blockEnd (Line.scan t) i l.indent ∧
      blockEnd (Line.scan t) h l'.indent ≤ blockEnd (Line.scan t) i l.indent := by
  have hspan := List.mem_map_of_mem (f := FunctionDecl.span) hm
  rw [spans_classMethods hl hform decorators rfl rfl, List.mem_filter,
    mem_outerSpansWithin_scan] at hspan
  obtain ⟨⟨h, l', heading, hl', hstart, hsize, -, hheading, hparts⟩, hkind⟩ := hspan
  have hafter := le_blockEnd (Line.scan t) i l.indent
  have hbody := lt_bodyStart options.docstrings (Line.scan t) i l.indent
  have hlast : h ≤ blockEnd (Line.scan t) i l.indent := by omega
  have hne : h ≠ i := by
    rintro rfl
    obtain rfl : l = l' := Option.some.inj (hl.symm.trans hl')
    rw [hparts] at hkind
    simp only [Line.heading?, hform, Option.some.injEq] at hheading
    simp [← hheading] at hkind
  have hlt : i < h := by omega
  have hblank : l'.isBlank = false :=
    Line.isBlank_of_isHeader ((isHeader_iff l').mpr (by rw [hheading]; rfl))
  exact ⟨h, l', hl', congrArg Span.first hparts, congrArg Span.last hparts, hstart, hlt, hlast,
    blockEnd_le_of_inside hlt hlast hl' hblank⟩

/-! ## How declarations are nested -/

/-- Declarations take lines of their own, one after the other, and methods lines of their class
behind its header, one after the other as well. -/
structure Nested (ds : List Declaration) : Prop where
  ordered : ∀ d ∈ ds, d.span.first ≤ d.span.last
  ascending : ds.Pairwise fun d d' => d.span.last < d'.span.first
  methodWithin : ∀ c, .class c ∈ ds → ∀ m ∈ c.methods,
    c.firstLine < m.firstLine ∧ m.firstLine ≤ m.lastLine ∧ m.lastLine ≤ c.lastLine
  methodsAscending : ∀ c, .class c ∈ ds →
    c.methods.Pairwise fun m m' => m.lastLine < m'.firstLine

theorem nested_declarations (options : OutlineOptions) (t : Text) :
    Nested (declarations options (Line.scan t)) where
  ordered := by
    intro d hd
    have hspan : d.span ∈ outerSpans (Line.scan t) :=
      spans_declarations options (Line.scan t) ▸ List.mem_map_of_mem hd
    obtain ⟨h, l, heading, -, -, -, hparts⟩ := mem_outerSpans_scan.mp hspan
    have hle := le_blockEnd (Line.scan t) h l.indent
    rw [hparts]
    simp only
    omega
  ascending := by
    refine List.pairwise_map (f := Declaration.span) (R :=
      fun s s' => s.last < s'.first) |>.mp ?_
    rw [spans_declarations]
    exact outerSpans_scan_ascending t
  methodWithin := by
    intro c hc m hm
    obtain ⟨i, l, className, bases, decorators, hl, hform, rfl⟩ := exists_place_of_class hc
    obtain ⟨h, l', hl', hfirst, hlast, -, hlt, -, hend⟩ := exists_place_of_method hl hform hm
    have hle := le_blockEnd (Line.scan t) h l'.indent
    have hnumber := number_of_getElem?_scan hl
    have hclassEnd := lastNumber_scan hl l.indent
    rw [hfirst, hlast]
    simp only [declareClass]
    omega
  methodsAscending := by
    intro c hc
    obtain ⟨i, l, className, bases, decorators, hl, hform, rfl⟩ := exists_place_of_class hc
    refine List.pairwise_map (f := FunctionDecl.span) (R :=
      fun s s' => s.last < s'.first) |>.mp ?_
    rw [spans_classMethods hl hform decorators rfl rfl]
    exact (outerSpansWithin_scan_ascending t _ _).filter _

/-- A file with a content has an outline if the length of snippets is an integer. If it has an
outline, take a class of it, with its header at place `i`, the end `E` of its block and the
first place `b` behind its docstring as that is read with the options. The methods of the class
start at the function headers from the lesser of `E` and `b` up to `E` that lie in the block of
no earlier header of either kind there. They are in ascending order, take disjoint lines, start
behind the header of the class and end no later than the class. -/
theorem methods_exact (options : ReadingOptions) (f : SourceFile) (content : Text)
    (hcontent : f.content = some content) :
    (options.snippetLength.integer?.isSome → ∃ o, f.outline options = .ok o) ∧
    ∀ o, f.outline options = .ok o → ∀ c ∈ o.classes, ∃ (i : Nat) (l : Line) (E b : Nat),
      (Line.scan content)[i]? = some l ∧ (∃ name bases, l.form = .classHeader name bases) ∧
      c.firstLine = i + 1 ∧ E = blockEnd (Line.scan content) i l.indent ∧ c.lastLine = E + 1 ∧
      Position.docstring? (Line.scan content) i E l.indent options.docstrings =
        some (c.docstring, (b : Int)) ∧
      (∀ n : Int, n ∈ c.methods.map FunctionDecl.firstLine ↔ ∃ (h : Nat) (m : Line),
        n = h + 1 ∧ (Line.scan content)[h]? = some m ∧
        (∃ async name parameters hint, m.form = .functionHeader async name parameters hint) ∧
        min E b ≤ h ∧ h ≤ E ∧ OutsideBlocksFrom (Line.scan content) (min E b) h) ∧
      (c.methods.map FunctionDecl.firstLine).Pairwise (· < ·) ∧
      (c.methods.map FunctionDecl.span).Pairwise Span.Disjoint ∧
      ∀ m ∈ c.methods, c.firstLine < m.firstLine ∧ m.firstLine ≤ m.lastLine ∧
        m.lastLine ≤ c.lastLine := by
  refine ⟨exists_outline (by simp [hcontent]), fun o houtline c hc => ?_⟩
  obtain ⟨length, content', hcontent', rfl⟩ := exists_length_of_outline houtline
  obtain rfl : content' = content := Option.some.inj (hcontent'.symm.trans hcontent)
  replace hc := class_mem_declarations hc
  have hwithin := (nested_declarations ⟨options.docstrings, length⟩ content').methodWithin c hc
  obtain ⟨i, l, name, bases, decorators, hl, hform, rfl⟩ := exists_place_of_class hc
  have hspans :
      (declareClass ⟨options.docstrings, length⟩ name bases decorators l _).methods.map
      FunctionDecl.span = _ := spans_classMethods hl hform decorators rfl rfl
  have hfirsts := congrArg (List.map Span.first) hspans
  rw [List.map_map] at hfirsts
  refine ⟨i, l, _, _, hl, ⟨name, bases, hform⟩, ?_, rfl, ?_,
    docstring?_block options.docstrings (Line.scan content') i l.indent, fun n => ?_, ?_,
    ?_, hwithin⟩
  · simp [declareClass, number_of_getElem?_scan hl]
  · exact lastNumber_scan hl l.indent
  · have hwindow : ∀ {E b h : Nat}, h < min E b + (E + 1 - min E b) ↔ h ≤ E := by omega
    refine (iff_of_eq (congrArg (n ∈ ·) hfirsts)).trans (mem_firstsWithin_iff.trans ?_)
    refine exists_congr fun h => exists_congr fun m => ?_
    rw [heading?_function_iff, hwindow]
  · change (List.map (Span.first ∘ FunctionDecl.span) _).Pairwise (· < ·)
    rw [hfirsts]
    exact firstsWithin_ascending content' _ _ .function
  · rw [hspans]
    exact ((outerSpansWithin_scan_ascending content' _ _).imp Or.inl).filter _

/-- A class with a docstring of two lines, a class in it, and a method with a function in it. -/
def documentedClass : SourceFile :=
  { name := "a.py".toList
    content :=
      some ("class C:\n  \'\'\'a\n  b\'\'\'\n  class D:\n    def g(self): pass\n  @d\n" ++
      "  def f(self):\n    def k(): pass").toList }

/-- The function in the inner class is no method of the outer class. -/
theorem methods_exact_documentedClass :
    ∃ o, documentedClass.outline ⟨true, .number 40⟩ = .ok o ∧ ∃ c ∈ o.classes,
      7 ∈ c.methods.map FunctionDecl.firstLine ∧ 5 ∉ c.methods.map FunctionDecl.firstLine := by
  obtain ⟨hread, hexact⟩ := methods_exact ⟨true, .number 40⟩ documentedClass _ rfl
  obtain ⟨o, ho⟩ := hread rfl
  have hfirsts : (documentedClass.outline ⟨true, .number 40⟩).toOption.map
      (fun o => o.classes.map ClassDecl.firstLine) = some [1] := by decide +kernel
  rw [ho] at hfirsts
  obtain ⟨c, hclasses, hfirst⟩ := List.map_eq_singleton_iff.mp (Option.some.inj hfirsts)
  have hc : c ∈ o.classes := by simp [hclasses]
  obtain ⟨i, l, E, b, hl, -, hplace, rfl, -, hdoc, hmethods, -⟩ := hexact o ho c hc
  obtain rfl : i = 0 := by omega
  generalize hls : Line.scan _ = ls at hl hdoc hmethods
  have hlines : ls[0]?.map Line.indent = some 0 ∧ blockEnd ls 0 ((0 : Nat) : Int) = 7 ∧
      (Position.docstring? ls 0 7 0 true).map Prod.snd = some 3 ∧
      ls[6]?.map Line.form = some (.functionHeader none "f".toList "self".toList none) ∧
      OutsideBlocksFrom ls 3 6 ∧ ¬ OutsideBlocksFrom ls 3 4 := by
    rw [← hls]
    decide +kernel
  obtain ⟨hindent, hend, hbody, hheader, houtside, hinside⟩ := hlines
  rw [hl] at hindent
  rw [Option.some.inj hindent] at hdoc hmethods
  rw [hend] at hdoc hmethods
  change Position.docstring? ls 0 7 0 true = _ at hdoc
  rw [hdoc] at hbody
  obtain rfl : b = 3 := Int.ofNat.inj (Option.some.inj hbody)
  obtain ⟨m, hm, hform⟩ := Option.map_eq_some_iff.mp hheader
  refine ⟨o, ho, c, hc, (hmethods 7).mpr ?_, fun hmem => ?_⟩
  · exact ⟨6, m, rfl, hm, ⟨_, _, _, _, hform⟩, by decide, by decide, houtside⟩
  · obtain ⟨h, m, hh, -, -, -, -, hout⟩ := (hmethods 5).mp hmem
    obtain rfl : h = 4 := by omega
    exact hinside hout

end SymbolGraph
