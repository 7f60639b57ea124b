import SymbolGraph.Proofs.Line.Place
import SymbolGraph.Proofs.Outline.Source
import SymbolGraph.Proofs.Outline.Step
set_option autoImplicit false

/-!
# Files that are read alongside each other

What a reader does with a line is told by a few facts about it: whether it is blank, a decorator
or a header, how it compares with others in indentation, which calls are on it, and whether it
holds a triple quote. Take two files whose lines agree in these facts one by one, those of the
second all a number of columns further to the right (`Line.Alongside`). The readers take the
same steps in both, so that the same is declared, with the columns of calls moved by that number
(`declarations_alongside`). Only excerpts and the texts of docstrings may differ further.
-/

namespace SymbolGraph

open Text

/-! ## Lines -/

/-- The line is neither blank nor a decorator nor a header. -/
def LineForm.isPlain : LineForm → Bool
  | fromImport .. | plainImport .. | assignment .. | statement => true
  | _ => false

theorem LineForm.of_isPlain {form : LineForm} (hplain : form.isPlain = true) :
    (form == blank) = false ∧ (form == decorator) = false ∧ form.isHeader = false := by
  cases form with
  | blank | decorator | classHeader | functionHeader => cases hplain
  | fromImport | plainImport | assignment | statement => simp [isHeader]

def CallSite.moveRight (k : Nat) (c : CallSite) : CallSite := { c with column := c.column + k }

/-- The second line is read as the first one, `k` columns further to the right. -/
structure Line.Alongside (k : Nat) (l m : Line) : Prop where
  index : m.index = l.index
  indent : m.indent = l.indent + k
  content : m.content = l.content
  form : m.form = l.form ∨ l.form.isPlain = true ∧ m.form.isPlain = true
  callSites : m.callSites = l.callSites.map (CallSite.moveRight k)
  quotes : ∀ q ∈ Docstring.quotes, (breakOn? q m.raw).isSome = (breakOn? q l.raw).isSome

namespace Line.Alongside

variable {k : Nat} {l m : Line}

theorem isBlank (h : l.Alongside k m) : m.isBlank = l.isBlank := by
  rcases h.form with heq | ⟨hl, hm⟩
  · rw [Line.isBlank, heq, Line.isBlank]
  · exact (LineForm.of_isPlain hm).1.trans (LineForm.of_isPlain hl).1.symm

theorem isDecorator (h : l.Alongside k m) : m.isDecorator = l.isDecorator := by
  rcases h.form with heq | ⟨hl, hm⟩
  · rw [Line.isDecorator, heq, Line.isDecorator]
  · exact (LineForm.of_isPlain hm).2.1.trans (LineForm.of_isPlain hl).2.1.symm

theorem isHeader (h : l.Alongside k m) : m.form.isHeader = l.form.isHeader := by
  rcases h.form with heq | ⟨hl, hm⟩
  · rw [heq]
  · exact (LineForm.of_isPlain hm).2.2.trans (LineForm.of_isPlain hl).2.2.symm

theorem number (h : l.Alongside k m) : m.number = l.number :=
  congrArg (· + 1) h.index

/-- Both lines belong to the blocks of headers that are alongside each other, or none does. -/
theorem inBlock {header header' : Line} (hheader : header.Alongside k header')
    (h : l.Alongside k m) : l.inBlock header.indent = m.inBlock header'.indent := by
  have hdeeper : (header.indent : Int) < l.indent ↔ (header'.indent : Int) < m.indent := by
    rw [hheader.indent, h.indent]
    omega
  rw [Line.inBlock, Line.inBlock, h.isBlank, decide_eq_decide.mpr hdeeper]

end Line.Alongside

theorem forall₂_takeWhile {α β : Type} {R : α → β → Prop} {p : α → Bool} {q : β → Bool}
    (hpq : ∀ a b, R a b → p a = q b) {as : List α} {bs : List β}
    (hlists : List.Forall₂ R as bs) : List.Forall₂ R (as.takeWhile p) (bs.takeWhile q) := by
  induction hlists with
  | nil => exact .nil
  | cons hab _ ih =>
      rw [List.takeWhile_cons, List.takeWhile_cons, ← hpq _ _ hab]
      split
      · exact .cons hab ih
      · exact .nil

section

variable {k : Nat} {l m : Line} {ls ms : List Line}

theorem block_alongside (hheader : l.Alongside k m)
    (hlines : List.Forall₂ (Line.Alongside k) ls ms) :
    List.Forall₂ (Line.Alongside k) (block l.indent ls) (block m.indent ms) :=
  forall₂_takeWhile (fun _ _ h => hheader.inBlock h) hlines

theorem decoratorRun_alongside (hlines : List.Forall₂ (Line.Alongside k) ls ms) :
    List.Forall₂ (Line.Alongside k) (decoratorRun ls) (decoratorRun ms) :=
  forall₂_takeWhile (fun _ _ h => by rw [h.isDecorator, h.isBlank]) hlines

theorem decoratorTexts_alongside (hlines : List.Forall₂ (Line.Alongside k) ls ms) :
    decoratorTexts ms = decoratorTexts ls := by
  induction hlines with
  | nil => rfl
  | cons h _ ih =>
      simp only [decoratorTexts, List.filter_cons, h.isDecorator] at ih ⊢
      split
      · rw [List.map_cons, List.map_cons, h.content, ih]
      · exact ih

theorem bodyCalls_alongside (hlines : List.Forall₂ (Line.Alongside k) ls ms) :
    bodyCalls ms = (bodyCalls ls).map (CallSite.moveRight k) := by
  induction hlines with
  | nil => rfl
  | cons h _ ih =>
      simp only [bodyCalls, List.filter_cons, h.isBlank, h.isHeader] at ih ⊢
      split
      · rw [List.flatMap_cons, List.flatMap_cons, List.map_append, h.callSites, ih]
      · exact ih

/-! ## Docstrings -/

namespace Docstring

theorem mem_quotes_of_opening? {content quote rest : Text}
    (hopening : opening? content = some (quote, rest)) : quote ∈ quotes := by
  unfold opening? at hopening
  split at hopening
  · obtain ⟨q, hq, hdrop⟩ := List.exists_of_findSome?_eq_some hopening
    obtain ⟨rest', -, heq⟩ := Option.map_eq_some_iff.mp hdrop
    exact (Prod.mk.inj heq).1 ▸ hq
  · cases hopening

theorem untilQuote_alongside {quote : Text} (hquote : quote ∈ quotes)
    (hlines : List.Forall₂ (Line.Alongside k) ls ms) :
    (untilQuote quote ms).2 = (untilQuote quote ls).2 := by
  induction hlines with
  | nil => rfl
  | @cons l m ls ms h _ ih =>
      have hsome := h.quotes quote hquote
      rw [untilQuote, untilQuote]
      cases hm : breakOn? quote m.raw with
      | none =>
          rw [hm, Option.isSome_none, eq_comm, Option.isSome_eq_false_iff,
            Option.isNone_iff_eq_none] at hsome
          rw [hsome]
          exact congrArg (· + 1) ih
      | some parts =>
          rw [hm, Option.isSome_some, eq_comm, Option.isSome_iff_exists] at hsome
          obtain ⟨parts', hl⟩ := hsome
          rw [hl]

theorem capture_alongside {quote : Text} (hquote : quote ∈ quotes) (rest : Text) (l m : Line)
    (hlines : List.Forall₂ (Line.Alongside k) ls ms) :
    (capture quote rest m ms).2 = (capture quote rest l ls).2 := by
  unfold capture
  cases breakOn? quote rest with
  | none => exact untilQuote_alongside hquote hlines
  | some parts => rfl

/-- There is a docstring in both blocks or in none, and the bodies start on the same line. -/
theorem read_alongside (hheader : l.Alongside k m) (size : Nat)
    (hlines : List.Forall₂ (Line.Alongside k) ls ms) :
    (read m.indent size ms).bodyOffset = (read l.indent size ls).bodyOffset ∧
      (read m.indent size ms).text.isSome = (read l.indent size ls).text.isSome := by
  induction size generalizing ls ms with
  | zero => exact ⟨rfl, rfl⟩
  | succ size ih =>
      cases hlines with
      | nil => exact ⟨rfl, rfl⟩
      | @cons l' m' ls ms h hlines =>
          cases hblank : l'.isBlank with
          | true =>
              obtain ⟨hoffset, htext⟩ := ih hlines
              rw [read_cons_of_blank hblank, read_cons_of_blank (h.isBlank.trans hblank)]
              exact ⟨congrArg (· + 1) hoffset, htext⟩
          | false =>
              have hindent : (m'.indent : Int) ≤ m.indent ↔ (l'.indent : Int) ≤ l.indent := by
                rw [hheader.indent, h.indent]
                omega
              rw [read_cons_of_not_blank hblank,
                read_cons_of_not_blank (h.isBlank.trans hblank), h.content]
              simp only [hindent]
              split
              · exact ⟨rfl, rfl⟩
              · cases hopening : opening? l'.content with
                | none => exact ⟨rfl, rfl⟩
                | some opening =>
                    have hcount :=
                      capture_alongside (mem_quotes_of_opening? hopening) opening.2 l' m' hlines
                    exact ⟨congrArg (· + 1) hcount, rfl⟩

theorem readIf_alongside (wanted : Bool) (hheader : l.Alongside k m) (size : Nat)
    (hlines : List.Forall₂ (Line.Alongside k) ls ms) :
    (readIf wanted m.indent size ms).bodyOffset = (readIf wanted l.indent size ls).bodyOffset ∧
      (readIf wanted m.indent size ms).text.isSome =
        (readIf wanted l.indent size ls).text.isSome := by
  cases wanted with
  | false => exact ⟨rfl, rfl⟩
  | true => exact read_alongside hheader size hlines

end Docstring

end

/-! ## Declarations -/

/-- The second function is the first one with the columns of its calls moved; its excerpt and
the text of its docstring, if it has one, may be others. -/
def FunctionDecl.Alongside (k : Nat) (f g : FunctionDecl) : Prop :=
  g = { f with
    docstring := g.docstring
    excerpt := g.excerpt
    calls := f.calls.map (CallSite.moveRight k) } ∧
  g.docstring.isSome = f.docstring.isSome

/-- The second class is the first one with its methods moved; its excerpt and the text of its
docstring, if it has one, may be others. -/
def ClassDecl.Alongside (k : Nat) (c d : ClassDecl) : Prop :=
  d = { c with docstring := d.docstring, excerpt := d.excerpt, methods := d.methods } ∧
  d.docstring.isSome = c.docstring.isSome ∧
  List.Forall₂ (FunctionDecl.Alongside k) c.methods d.methods

inductive Declaration.Alongside (k : Nat) : Declaration → Declaration → Prop
  | function {f g : FunctionDecl}
  (h : f.Alongside k g) : Alongside k (.function f) (.function g)
  | class {c d : ClassDecl} (h : c.Alongside k d) : Alongside k (.class c) (.class d)

theorem Line.method?_eq_none {options : OutlineOptions} {decorators : List Text} {l : Line}
    {after : List Line} (hheader : l.form.isHeader = false) :
    l.method? options decorators after = none := by
  unfold Line.method?
  cases hform : l.form with
  | functionHeader => simp [hform, LineForm.isHeader] at hheader
  | _ => rfl

theorem Line.declaration?_eq_none {options : OutlineOptions} {decorators : List Text} {l : Line}
    {after : List Line} (hheader : l.form.isHeader = false) :
    l.declaration? options decorators after = none := by
  unfold Line.declaration?
  cases hform : l.form with
  | functionHeader => simp [hform, LineForm.isHeader] at hheader
  | classHeader => simp [hform, LineForm.isHeader] at hheader
  | _ => rfl

section

variable {k : Nat} {l m : Line} {after after' : List Line} (options : OutlineOptions)
  (hheader : l.Alongside k m) (hlines : List.Forall₂ (Line.Alongside k) after after')
include hheader hlines

theorem declare_alongside (header : FunctionHeader) (decorators : List Text) :
    (header.declare options decorators l after).Alongside k
      (header.declare options decorators m after') := by
  have hblock := block_alongside hheader hlines
  have hlength := hblock.length_eq
  obtain ⟨hoffset, htext⟩ :=
    Docstring.readIf_alongside options.docstrings hheader (block l.indent after).length hlines
  refine ⟨?_, ?_⟩
  · simp only [FunctionHeader.declare, ← hlength, hoffset, hheader.number,
      bodyCalls_alongside (List.forall₂_drop _ hblock)]
  · simpa only [FunctionHeader.declare, ← hlength] using htext

theorem taken_alongside : m.taken after' = l.taken after := by
  rw [Line.taken, Line.taken, hheader.isHeader, (block_alongside hheader hlines).length_eq]

theorem method?_alongside (decorators : List Text) :
    List.Forall₂ (FunctionDecl.Alongside k) (l.method? options decorators after).toList
      (m.method? options decorators after').toList := by
  rcases hheader.form with heq | ⟨hl, hm⟩
  · unfold Line.method?
    rw [heq]
    cases l.form with
    | functionHeader async name parameters hint =>
        exact .cons (declare_alongside options hheader hlines _ decorators) .nil
    | _ => exact .nil
  · rw [Line.method?_eq_none (LineForm.of_isPlain hl).2.2,
      Line.method?_eq_none (LineForm.of_isPlain hm).2.2]
    exact .nil

end

section

variable {k : Nat} (options : OutlineOptions) {ls ms : List Line}

/-- The methods within the same number of lines are found alongside each other. -/
theorem methods_alongside (size : Nat) (hlines : List.Forall₂ (Line.Alongside k) ls ms) :
    List.Forall₂ (FunctionDecl.Alongside k) (methods options size ls)
      (methods options size ms) := by
  induction size, ls using methods_induction generalizing ms with
  | stop size ls hstop =>
      have hrun := (decoratorRun_alongside (List.forall₂_take size hlines)).length_eq
      have hrest := (List.forall₂_drop (decoratorRun (ls.take size)).length hlines).length_eq
      rw [methods_of_stop hstop, methods_of_stop]
      · exact .nil
      · rw [← hrun, ← List.length_eq_zero_iff, ← hrest, List.length_eq_zero_iff]
        exact hstop
  | step size ls l after hdrop hsize ih =>
      have hrun := decoratorRun_alongside (List.forall₂_take size hlines)
      have hrest := List.forall₂_drop (decoratorRun (ls.take size)).length hlines
      rw [hdrop] at hrest
      obtain ⟨m, after', hheader, hafter, hdrop'⟩ := List.forall₂_cons_left_iff.mp hrest
      rw [hrun.length_eq] at hdrop'
      rw [methods_of_drop_eq_cons hdrop hsize,
        methods_of_drop_eq_cons hdrop' (hrun.length_eq ▸ hsize), decoratorTexts_alongside hrun,
        ← hrun.length_eq, taken_alongside hheader hafter]
      exact List.rel_append (method?_alongside options hheader hafter _)
        (ih (List.forall₂_drop _ hafter))

theorem declareClass_alongside {l m : Line} {after after' : List Line}
    (hheader : l.Alongside k m) (hlines : List.Forall₂ (Line.Alongside k) after after')
    (name : Text) (bases : Option Text) (decorators : List Text) :
    (declareClass options name bases decorators l after).Alongside k
      (declareClass options name bases decorators m after') := by
  have hlength := (block_alongside hheader hlines).length_eq
  obtain ⟨hoffset, htext⟩ :=
    Docstring.readIf_alongside options.docstrings hheader (block l.indent after).length hlines
  refine ⟨?_, ?_, ?_⟩
  · simp only [declareClass, ← hlength, hheader.number]
  · simpa only [declareClass, ← hlength] using htext
  · simp only [declareClass, ← hlength, hoffset]
    exact methods_alongside options _ (List.forall₂_drop _ hlines)

theorem declaration?_alongside {l m : Line} {after after' : List Line}
    (hheader : l.Alongside k m) (hlines : List.Forall₂ (Line.Alongside k) after after')
    (decorators : List Text) :
    List.Forall₂ (Declaration.Alongside k) (l.declaration? options decorators after).toList
      (m.declaration? options decorators after').toList := by
  rcases hheader.form with heq | ⟨hl, hm⟩
  · unfold Line.declaration?
    rw [heq]
    cases l.form with
    | functionHeader async name parameters hint =>
        exact .cons (.function (declare_alongside options hheader hlines _ decorators)) .nil
    | classHeader name bases =>
        exact .cons
          (.class (declareClass_alongside options hheader hlines name bases decorators)) .nil
    | _ => exact .nil
  · rw [Line.declaration?_eq_none (LineForm.of_isPlain hl).2.2,
      Line.declaration?_eq_none (LineForm.of_isPlain hm).2.2]
    exact .nil

/-- Lines alongside each other declare the same, with the columns of calls moved. -/
theorem declarations_alongside (hlines : List.Forall₂ (Line.Alongside k) ls ms) :
    List.Forall₂ (Declaration.Alongside k) (declarations options ls)
      (declarations options ms) := by
  induction ls using declarations_induction generalizing ms with
  | stop ls hdrop =>
      have hrun := (decoratorRun_alongside hlines).length_eq
      have hrest := List.forall₂_drop (decoratorRun ls).length hlines
      rw [hdrop, List.forall₂_nil_left_iff, hrun] at hrest
      rw [declarations_of_drop_eq_nil hdrop, declarations_of_drop_eq_nil hrest]
      exact .nil
  | step ls l after hdrop ih =>
      have hrun := decoratorRun_alongside hlines
      have hrest := List.forall₂_drop (decoratorRun ls).length hlines
      rw [hdrop] at hrest
      obtain ⟨m, after', hheader, hafter, hdrop'⟩ := List.forall₂_cons_left_iff.mp hrest
      rw [hrun.length_eq] at hdrop'
      rw [declarations_of_drop_eq_cons hdrop, declarations_of_drop_eq_cons hdrop',
        decoratorTexts_alongside hrun, taken_alongside hheader hafter]
      exact List.rel_append (declaration?_alongside options hheader hafter _)
        (ih (List.forall₂_drop _ hafter))

end

/-! ## Outlines -/

section

variable {k : Nat} (options : OutlineOptions) (path name : Text) {t u : Text}
  (hlines : List.Forall₂ (Line.Alongside k) (Line.scan t) (Line.scan u))
include hlines

theorem classes_alongside :
    List.Forall₂ (ClassDecl.Alongside k) (Outline.read options path name t).classes
      (Outline.read options path name u).classes := by
  refine List.rel_filterMap (fun d d' h => ?_) (declarations_alongside options hlines)
  cases h with
  | function h => exact .none
  | «class» h => exact .some h

theorem functions_alongside :
    List.Forall₂ (FunctionDecl.Alongside k) (Outline.read options path name t).functions
      (Outline.read options path name u).functions := by
  refine List.rel_filterMap (fun d d' h => ?_) (declarations_alongside options hlines)
  cases h with
  | function h => exact .some h
  | «class» h => exact .none

end

end SymbolGraph
