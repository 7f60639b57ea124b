import SymbolGraph.Proofs.Outline.CallSite
import SymbolGraph.Proofs.Outline.Method
set_option autoImplicit false

/-!
# The calls of functions and methods

The calls of a function are looked for on the lines of its block behind the docstring. No two
functions or methods share a line, so that all calls of a file, taken in the order of the
declarations, ascend in line and column.
-/

namespace SymbolGraph

/-- The methods and functions of an outline. -/
def Outline.callers (o : Outline) : List FunctionDecl :=
  o.classes.flatMap ClassDecl.methods ++ o.functions

/-- Taking classes and functions apart keeps all functions and methods. -/
theorem callers_perm (ds : List Declaration) :
    ((ds.filterMap Declaration.class?).flatMap ClassDecl.methods ++
      ds.filterMap Declaration.function?).Perm (ds.flatMap Declaration.functions) := by
  rw [← List.flatMap_singleton' (ds.filterMap Declaration.function?)]
  exact parts_perm Declaration.functions ds

/-! ## The body of a function -/

/-- The lines of a block behind its header and its docstring, if docstrings are wanted. -/
def bodyLines (wanted : Bool) (ls : List Line) (i : Nat) (indent : Int) : List Line :=
  (block indent (ls.drop (i + 1))).drop (Docstring.readIf wanted indent
    (block indent (ls.drop (i + 1))).length (ls.drop (i + 1))).bodyOffset

section

variable (wanted : Bool) (ls : List Line) (i : Nat) (indent : Int)

theorem bodyLines_sublist : (bodyLines wanted ls i indent).Sublist ls :=
  ((List.drop_sublist _ _).trans (block_isPrefix _ _).sublist).trans (List.drop_sublist _ _)

theorem mem_bodyLines_iff {m : Line} :
    m ∈ bodyLines wanted ls i indent ↔
      ∃ k, bodyStart wanted ls i indent ≤ k ∧ k ≤ blockEnd ls i indent ∧ ls[k]? = some m := by
  have hblock : block indent (ls.drop (i + 1)) =
      (ls.drop (i + 1)).take (block indent (ls.drop (i + 1))).length :=
    List.prefix_iff_eq_take.mp (block_isPrefix _ _)
  rw [bodyLines, bodyStart, blockEnd]
  generalize (Docstring.readIf _ _ _ _).bodyOffset = offset
  generalize (block indent (ls.drop (i + 1))).length = size at hblock ⊢
  rw [hblock, List.mem_iff_getElem?]
  simp only [List.getElem?_drop, List.getElem?_take]
  constructor
  · rintro ⟨j, hj⟩
    split at hj
    · exact ⟨i + 1 + (offset + j), by omega, by omega, hj⟩
    · cases hj
  · rintro ⟨k, hstart, hend, hk⟩
    refine ⟨k - (i + 1 + offset), ?_⟩
    have hplace : i + 1 + (offset + (k - (i + 1 + offset))) = k := by omega
    rw [if_pos (by omega), hplace, hk]

end

theorem numbers_ascending (t : Text) :
    (Line.scan t).Pairwise fun l later => l.number < later.number := by
  rw [List.pairwise_iff_getElem]
  intro i j hi hj hlt
  rw [number_of_getElem?_scan (List.getElem?_eq_getElem hi),
    number_of_getElem?_scan (List.getElem?_eq_getElem hj)]
  exact Nat.succ_lt_succ hlt

theorem bodyLines_ascending (wanted : Bool) (t : Text) (i : Nat) (indent : Int) :
    (bodyLines wanted (Line.scan t) i indent).Pairwise fun l later => l.number < later.number :=
  (numbers_ascending t).sublist (bodyLines_sublist wanted _ i indent)

/-! ## The calls of a function -/

section

variable {options : OutlineOptions} {t : Text} {i : Nat} {l : Line} {f : FunctionDecl}

theorem calls_of_declares (hdeclares : l.Declares options ((Line.scan t).drop (i + 1)) f) :
    f.calls = bodyCalls (bodyLines options.docstrings (Line.scan t) i l.indent) := by
  obtain ⟨async, name, parameters, hint, decorators, -, rfl⟩ := hdeclares
  rfl

/-- The calls of a function ascend and are behind its first line and no further than its
last. -/
theorem calls_ascending_of_declares (hl : (Line.scan t)[i]? = some l)
    (hdeclares : l.Declares options ((Line.scan t).drop (i + 1)) f) :
    f.calls.Pairwise CallSite.Precedes ∧ ∀ c ∈ f.calls, f.firstLine < c.line ∧
    c.line ≤ f.lastLine := by
  rw [calls_of_declares hdeclares]
  refine ⟨bodyCalls_ascending (bodyLines_ascending _ t i l.indent), fun c hc => ?_⟩
  obtain ⟨m, hm, -, -, hsite⟩ := mem_bodyCalls_iff.mp hc
  obtain ⟨k, hstart, hend, hk⟩ := (mem_bodyLines_iff _ _ _ _).mp hm
  have hbody := lt_bodyStart options.docstrings (Line.scan t) i l.indent
  obtain ⟨-, hfirst, hlast, -⟩ := place_of_declares hl hdeclares
  rw [hfirst, hlast, line_of_mem_callSites hsite, number_of_getElem?_scan hk]
  omega

end

/-! ## All calls of a file -/

/-- A function or a method lies on the lines of its declaration. -/
theorem Nested.function_within {ds : List Declaration} (hds : Nested ds) {d : Declaration}
    (hd : d ∈ ds) {f : FunctionDecl} (hf : f ∈ d.functions) :
    d.span.first ≤ f.firstLine ∧ f.lastLine ≤ d.span.last := by
  cases d with
  | function g =>
      obtain rfl : f = g := List.mem_singleton.mp hf
      exact ⟨Int.le_refl _, Int.le_refl _⟩
  | «class» c =>
      obtain ⟨hfirst, -, hlast⟩ := hds.methodWithin c hd f hf
      exact ⟨Int.le_of_lt hfirst, hlast⟩

theorem Nested.functions_ascending {ds : List Declaration} (hds : Nested ds) :
    (ds.flatMap Declaration.functions).Pairwise fun f g => f.lastLine < g.firstLine := by
  refine List.pairwise_flatMap.mpr ⟨fun d hd => ?_, hds.ascending.imp_of_mem ?_⟩
  · cases d with
    | function f => exact List.pairwise_singleton _ f
    | «class» c => exact hds.methodsAscending c hd
  · intro d d' hd hd' hlt f hf g hg
    have hwithin := hds.function_within hd hf
    have hwithin' := hds.function_within hd' hg
    omega

theorem calls_ascending (options : OutlineOptions) (t : Text) :
    (((declarations options (Line.scan t)).flatMap Declaration.functions).flatMap
      FunctionDecl.calls).Pairwise CallSite.Precedes := by
  have heach : ∀ f ∈ (declarations options (Line.scan t)).flatMap Declaration.functions,
      f.calls.Pairwise CallSite.Precedes ∧ ∀ c ∈ f.calls, f.firstLine < c.line ∧
        c.line ≤ f.lastLine := by
    intro f hf
    obtain ⟨d, hd, hf⟩ := List.mem_flatMap.mp hf
    obtain ⟨i, l, hl, hdeclares⟩ := exists_place_of_function hd hf
    exact calls_ascending_of_declares hl hdeclares
  refine List.pairwise_flatMap.mpr ⟨fun f hf => (heach f hf).1,
    (nested_declarations options t).functions_ascending.imp_of_mem ?_⟩
  intro f g hf hg hlt c hc c' hc'
  have hwithin := (heach f hf).2 c hc
  have hwithin' := (heach g hg).2 c' hc'
  exact Or.inl (by omega)

/-- No two calls of an outline stand at the same place. -/
theorem nodup_calls (options : OutlineOptions) (path name t : Text) :
    (((Outline.read options path name t).callers.flatMap FunctionDecl.calls).map
      fun c => (c.line, c.column)).Nodup := by
  have hperm := callers_perm (declarations options (Line.scan t))
  refine ((hperm.flatMap_right FunctionDecl.calls).map _).nodup_iff.mpr ?_
  rw [List.Nodup, List.pairwise_map]
  refine (calls_ascending options t).imp fun hprecedes heq => ?_
  obtain ⟨hline, hcolumn⟩ := Prod.mk.inj heq
  rcases hprecedes with hlt | ⟨-, hlt⟩ <;> omega

theorem exists_declaration_of_caller {options : OutlineOptions} {path name t : Text}
    {f : FunctionDecl} (hf : f ∈ (Outline.read options path name t).callers) :
    ∃ d ∈ declarations options (Line.scan t), f ∈ d.functions :=
  List.mem_flatMap.mp ((callers_perm _).mem_iff.mp hf)

/-- A file with a content has an outline if the length of snippets is an integer. If it has an
outline, take a function or a method of it, with its header at place `i`, the end `E` of its
block and the first place `b` behind its docstring as that is read with the options. On a line
from `b` to `E` that is neither blank nor a comment nor a header, its calls are what the
parentheses of the line call, from left to right. All its calls are on such lines, where the
name stands at its column, and they ascend in line and column. No two calls of the functions and
methods of the file stand at the same place. -/
theorem calls_exact (options : ReadingOptions) (f : SourceFile) (content : Text)
    (hcontent : f.content = some content) :
    (options.snippetLength.integer?.isSome → ∃ o, f.outline options = .ok o) ∧
    ∀ o, f.outline options = .ok o →
      (∀ g ∈ o.callers, ∃ (i : Nat) (l : Line) (E b : Nat),
        (Line.scan content)[i]? = some l ∧
        (∃ async name parameters hint, l.form = .functionHeader async name parameters hint) ∧
        g.firstLine = i + 1 ∧ E = blockEnd (Line.scan content) i l.indent ∧ g.lastLine = E + 1 ∧
        Position.docstring? (Line.scan content) i E l.indent options.docstrings =
          some (g.docstring, (b : Int)) ∧
        (∀ (k : Nat) (m : Line), b ≤ k → k ≤ E → (Line.scan content)[k]? = some m →
          m.isBlank = false → m.form.isHeader = false →
          g.calls.filter (·.line = (k : Int) + 1) = m.parenthesisCalls) ∧
        (∀ c ∈ g.calls, ∃ (k : Nat) (m : Line), b ≤ k ∧ k ≤ E ∧
          (Line.scan content)[k]? = some m ∧
          m.isBlank = false ∧ m.form.isHeader = false ∧ c.line = k + 1 ∧
          1 ≤ c.column ∧ c.name <+: m.raw.drop (c.column - 1).toNat) ∧
        g.calls.Pairwise CallSite.Precedes) ∧
      ((o.callers.flatMap FunctionDecl.calls).map fun c => (c.line, c.column)).Nodup := by
  refine ⟨exists_outline (by simp [hcontent]), fun o houtline => ?_⟩
  obtain ⟨length, content', hcontent', rfl⟩ := exists_length_of_outline houtline
  obtain rfl : content' = content := Option.some.inj (hcontent'.symm.trans hcontent)
  refine ⟨fun g hg => ?_, nodup_calls _ _ _ content'⟩
  obtain ⟨d, hd, hg⟩ := exists_declaration_of_caller hg
  obtain ⟨i, l, hl, hdeclares⟩ := exists_place_of_function hd hg
  have hcalls := calls_of_declares hdeclares
  have hascending := bodyLines_ascending options.docstrings content' i l.indent
  obtain ⟨hform, hfirst, hlast, hdoc⟩ := place_of_declares hl hdeclares
  refine ⟨i, l, _, bodyStart options.docstrings (Line.scan content') i l.indent, hl, hform,
    hfirst, rfl, hlast,
    hdoc ▸ docstring?_block options.docstrings (Line.scan content') i l.indent,
    fun k m hstart hend hk hblank hheader => ?_, fun c hc => ?_,
    (calls_ascending_of_declares hl hdeclares).1⟩
  · have hm := (mem_bodyLines_iff options.docstrings _ i l.indent).mpr ⟨k, hstart, hend, hk⟩
    have hnumber : ((k : Int) + 1) = m.number := by rw [number_of_getElem?_scan hk]; rfl
    rw [hcalls, hnumber, ← m.callSites_eq_parenthesisCalls]
    exact filter_bodyCalls hascending hm hblank hheader
  · rw [hcalls] at hc
    obtain ⟨m, hm, hblank, hheader, hsite⟩ := mem_bodyCalls_iff.mp hc
    obtain ⟨k, hstart, hend, hk⟩ := (mem_bodyLines_iff _ _ _ _).mp hm
    refine ⟨k, m, hstart, hend, hk, hblank, hheader, ?_, name_isPrefix_of_mem_callSites hsite⟩
    rw [line_of_mem_callSites hsite, number_of_getElem?_scan hk]
    rfl

/-- A function with a keyword in front of a parenthesis, a digit in front of a name and a call
in a call. -/
def nestedCalls : SourceFile :=
  { name := "a.py".toList, content := some "def f(a):\n  if (a): 1b.y (z(a))".toList }

/-- The keyword is not called, and the digit does not belong to the name behind it. -/
theorem calls_exact_nestedCalls :
    ∃ o, nestedCalls.outline ⟨true, .number 40⟩ = .ok o ∧ ∃ g ∈ o.callers,
      g.calls.filter (·.line = 2) = [⟨"b.y".toList, 2, 12⟩, ⟨"z".toList, 2, 17⟩] := by
  obtain ⟨hread, hexact⟩ := calls_exact ⟨true, .number 40⟩ nestedCalls _ rfl
  obtain ⟨o, ho⟩ := hread rfl
  have hfirsts : (nestedCalls.outline ⟨true, .number 40⟩).toOption.map
      (fun o => o.callers.map FunctionDecl.firstLine) = some [1] := by decide +kernel
  rw [ho] at hfirsts
  obtain ⟨g, hcallers, hfirst⟩ := List.map_eq_singleton_iff.mp (Option.some.inj hfirsts)
  have hg : g ∈ o.callers := by simp [hcallers]
  obtain ⟨i, l, E, b, hl, -, hplace, rfl, -, hdoc, hcalls, -⟩ := (hexact o ho).1 g hg
  obtain rfl : i = 0 := by omega
  generalize hls : Line.scan _ = ls at hl hdoc hcalls
  have hlines : ls[0]?.map Line.indent = some 0 ∧ blockEnd ls 0 ((0 : Nat) : Int) = 1 ∧
      (Position.docstring? ls 0 1 0 true).map Prod.snd = some 1 ∧
      ls[1]?.map (fun m => (m.isBlank, m.form.isHeader, m.parenthesisCalls)) =
        some (false, false, [⟨"b.y".toList, 2, 12⟩, ⟨"z".toList, 2, 17⟩]) := by
    rw [← hls]
    decide +kernel
  obtain ⟨hindent, hend, hbody, hline⟩ := hlines
  rw [hl] at hindent
  rw [Option.some.inj hindent] at hdoc hcalls
  rw [hend] at hdoc hcalls
  change Position.docstring? ls 0 1 0 true = _ at hdoc
  rw [hdoc] at hbody
  obtain rfl : b = 1 := Int.ofNat.inj (Option.some.inj hbody)
  obtain ⟨m, hm, hparts⟩ := Option.map_eq_some_iff.mp hline
  obtain ⟨hblank, hparts⟩ := Prod.mk.inj hparts
  obtain ⟨hheader, hsites⟩ := Prod.mk.inj hparts
  exact ⟨o, ho, g, hg,
    (hcalls 1 m (Nat.le_refl 1) (Nat.le_refl 1) hm hblank hheader).trans hsites⟩

end SymbolGraph
