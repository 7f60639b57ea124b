import Mathlib.Data.List.Infix
import SymbolGraph.Proofs.Outline.Heading
import SymbolGraph.Proofs.Outline.Source
import SymbolGraph.Proofs.Outline.Step
import SymbolGraph.Proofs.Text.Lines
set_option autoImplicit false

/-!
# The outline of one text behind another

A text whose first line stands at the margin, and is neither blank nor a comment, ends every
block that the text before it opens (`block_append`), and no decorator of that text reaches it
if the last line before is none. So the readers, which look ahead for the ends of blocks and of
decorator runs, find in the first text what they find when nothing follows, and in the second
what they find there alone, further down (`declarations_append`, `declarations_shift`).

Docstrings are the exception: they end at a quote and not with their block, so that one that is
left open would run on into the second text. With docstrings, the first text must close all that
it opens (`DocstringsClosed`).
-/

namespace SymbolGraph

open Text

/-! ## Lines further down -/

/-- The line, further down by a number of lines. -/
def Line.shift (n : Nat) (l : Line) : Line := { l with index := l.index + n }

def CallSite.shift (n : Nat) (c : CallSite) : CallSite := { c with line := c.line + n }

def FunctionDecl.shift (n : Nat) (f : FunctionDecl) : FunctionDecl :=
  { f with
    firstLine := f.firstLine + n
    lastLine := f.lastLine + n
    calls := f.calls.map (CallSite.shift n) }

def ClassDecl.shift (n : Nat) (c : ClassDecl) : ClassDecl :=
  { c with
    firstLine := c.firstLine + n
    lastLine := c.lastLine + n
    methods := c.methods.map (FunctionDecl.shift n) }

def ImportDecl.shift (n : Nat) (i : ImportDecl) : ImportDecl := { i with line := i.line + n }

def VariableDecl.shift (n : Nat) (v : VariableDecl) :
    VariableDecl := { v with line := v.line + n }

def Declaration.shift (n : Nat) : Declaration → Declaration
  | function f => .function (f.shift n)
  | .class c => .class (c.shift n)

section

variable (n : Nat)

theorem number_shift (l : Line) : ((l.shift n).number : Int) = l.number + n := by
  simp only [Line.number, Line.shift]
  omega

theorem block_shift (indent : Int) (after : List Line) :
    block indent (after.map (Line.shift n)) = (block indent after).map (Line.shift n) :=
  List.takeWhile_map

theorem decoratorRun_shift (ls : List Line) :
    decoratorRun (ls.map (Line.shift n)) = (decoratorRun ls).map (Line.shift n) :=
  List.takeWhile_map

theorem decoratorTexts_shift (ls : List Line) :
    decoratorTexts (ls.map (Line.shift n)) = decoratorTexts ls := by
  rw [decoratorTexts, List.filter_map, List.map_map]
  rfl

theorem excerpt_shift (ls : List Line) :
    Line.excerpt (ls.map (Line.shift n)) = Line.excerpt ls := by
  rw [Line.excerpt, List.map_map]
  rfl

theorem untilQuote_shift (quote : Text) (ls : List Line) :
    Docstring.untilQuote quote (ls.map (Line.shift n)) = Docstring.untilQuote quote ls := by
  induction ls with
  | nil => rfl
  | cons l ls ih =>
      rw [List.map_cons, Docstring.untilQuote, Docstring.untilQuote, ih]
      rfl

/-- A docstring is told by the texts of the lines, wherever they stand. -/
theorem readIf_shift (wanted : Bool) (indent : Int) (size : Nat) (after : List Line) :
    Docstring.readIf wanted indent size (after.map (Line.shift n)) =
      Docstring.readIf wanted indent size after := by
  have hskipped : (((after.take size).map (Line.shift n)).takeWhile (·.isBlank)).length =
      ((after.take size).takeWhile (·.isBlank)).length := by
    rw [List.takeWhile_map, List.length_map]
    rfl
  simp only [Docstring.readIf, Docstring.read, ← List.map_take, hskipped, ← List.map_drop]
  cases (after.take size).drop ((after.take size).takeWhile (·.isBlank)).length with
  | nil => rfl
  | cons l rest =>
      simp only [List.map_cons, Docstring.capture, untilQuote_shift]
      rfl

theorem bodyCalls_shift (body : List Line) :
    bodyCalls (body.map (Line.shift n)) = (bodyCalls body).map (CallSite.shift n) := by
  have hsites : ∀ l : Line, (l.shift n).callSites = l.callSites.map (CallSite.shift n) := by
    intro l
    simp only [Line.callSites, number_shift, List.map_map]
    rfl
  rw [bodyCalls, bodyCalls, List.filter_map, List.flatMap_map, List.map_flatMap]
  simp only [hsites]
  rfl

theorem lastLine_shift (l : Line) (size : Nat) :
    (l.number : Int) + n + size = l.number + size + n := by
  omega

theorem declare_shift (header : FunctionHeader) (options : OutlineOptions)
    (decorators : List Text) (l : Line) (after : List Line) :
    header.declare options decorators (l.shift n) (after.map (Line.shift n)) =
      (header.declare options decorators l after).shift n := by
  have hindent : (l.shift n).indent = l.indent := rfl
  simp only [FunctionHeader.declare, FunctionDecl.shift, hindent, block_shift, List.length_map,
    readIf_shift, number_shift, lastLine_shift, ← List.map_cons, excerpt_shift, ← List.map_drop,
    bodyCalls_shift]

theorem taken_shift (l : Line) (after : List Line) :
    (l.shift n).taken (after.map (Line.shift n)) = l.taken after := by
  have hblock : (block l.indent (after.map (Line.shift n))).length =
      (block l.indent after).length := by
    rw [block_shift, List.length_map]
  exact congrArg (fun size => if l.form.isHeader then size else 0) hblock

theorem method?_shift (options : OutlineOptions) (decorators : List Text) (l : Line)
    (after : List Line) :
    (l.shift n).method? options decorators (after.map (Line.shift n)) =
      (l.method? options decorators after).map (FunctionDecl.shift n) := by
  have hform : (l.shift n).form = l.form := rfl
  simp only [Line.method?, hform, declare_shift]
  cases l.form <;> rfl

theorem methods_shift (options : OutlineOptions) (size : Nat) (ls : List Line) :
    methods options size (ls.map (Line.shift n)) =
      (methods options size ls).map (FunctionDecl.shift n) := by
  have hrun : ∀ size (ls : List Line), decoratorRun ((ls.map (Line.shift n)).take size) =
      (decoratorRun (ls.take size)).map (Line.shift n) := by
    intro size ls
    rw [← List.map_take, decoratorRun_shift]
  induction size, ls using methods_induction with
  | stop size ls hstop =>
      rw [methods_of_stop hstop, methods_of_stop]
      · rfl
      · rw [hrun, List.length_map, ← List.map_drop, List.map_eq_nil_iff]
        exact hstop
  | step size ls l after hdrop hsize ih =>
      have hdrop' : (ls.map (Line.shift n)).drop
          (decoratorRun ((ls.map (Line.shift n)).take size)).length =
          l.shift n :: after.map (Line.shift n) := by
        rw [hrun, List.length_map, ← List.map_drop, hdrop, List.map_cons]
      have hsize' : (decoratorRun ((ls.map (Line.shift n)).take size)).length < size := by
        rwa [hrun, List.length_map]
      rw [methods_of_drop_eq_cons hdrop hsize, methods_of_drop_eq_cons hdrop' hsize', hrun,
        List.length_map, decoratorTexts_shift, method?_shift, taken_shift, ← List.map_drop, ih,
        List.map_append, Option.toList_map]

theorem declareClass_shift (options : OutlineOptions) (name : Text) (bases : Option Text)
    (decorators : List Text) (l : Line) (after : List Line) :
    declareClass options name bases decorators (l.shift n) (after.map (Line.shift n)) =
      (declareClass options name bases decorators l after).shift n := by
  have hindent : (l.shift n).indent = l.indent := rfl
  simp only [declareClass, ClassDecl.shift, hindent, block_shift, List.length_map, readIf_shift,
    number_shift, lastLine_shift, ← List.map_cons, excerpt_shift, ← List.map_drop,
    methods_shift]

theorem declaration?_shift (options : OutlineOptions) (decorators : List Text) (l : Line)
    (after : List Line) :
    (l.shift n).declaration? options decorators (after.map (Line.shift n)) =
      (l.declaration? options decorators after).map (Declaration.shift n) := by
  have hform : (l.shift n).form = l.form := rfl
  simp only [Line.declaration?, hform, declare_shift, declareClass_shift]
  cases l.form <;> rfl

/-- Lines further down declare the same, further down. -/
theorem declarations_shift (options : OutlineOptions) (ls : List Line) :
    declarations options (ls.map (Line.shift n)) =
      (declarations options ls).map (Declaration.shift n) := by
  induction ls using declarations_induction with
  | stop ls hdrop =>
      rw [declarations_of_drop_eq_nil hdrop, declarations_of_drop_eq_nil]
      · rfl
      · rw [decoratorRun_shift, List.length_map, ← List.map_drop, hdrop, List.map_nil]
  | step ls l after hdrop ih =>
      have hdrop' : (ls.map (Line.shift n)).drop (decoratorRun (ls.map (Line.shift n))).length =
          l.shift n :: after.map (Line.shift n) := by
        rw [decoratorRun_shift, List.length_map, ← List.map_drop, hdrop, List.map_cons]
      rw [declarations_of_drop_eq_cons hdrop, declarations_of_drop_eq_cons hdrop',
        decoratorRun_shift, decoratorTexts_shift, declaration?_shift, taken_shift,
        ← List.map_drop, ih, List.map_append, Option.toList_map]

theorem import?_shift (l : Line) :
    (l.shift n).import? = l.import?.map (ImportDecl.shift n) := by
  have hform : (l.shift n).form = l.form := rfl
  have hcontent : (l.shift n).content = l.content := rfl
  simp only [Line.import?, hform, hcontent, number_shift]
  cases l.form <;> rfl

theorem assigned?_shift (options : OutlineOptions) (l : Line) :
    (l.shift n).assigned? options = (l.assigned? options).map (VariableDecl.shift n) := by
  have hform : (l.shift n).form = l.form := rfl
  have hindent : (l.shift n).indent = l.indent := rfl
  simp only [Line.assigned?, hform, hindent, number_shift]
  cases l.form with
  | assignment indent name value =>
      by_cases hzero : l.indent = 0 <;> simp [hzero, VariableDecl.shift]
  | _ => rfl

end

/-! ## Docstrings that end -/

namespace Docstring

/-- A docstring opens in the block, and no line of the file closes it. -/
def unclosed (indent : Int) (size : Nat) (after : List Line) : Bool :=
  let window := after.take size
  let skipped := (window.takeWhile (·.isBlank)).length
  match window.drop skipped with
  | [] => false
  | l :: _ =>
    if (l.indent : Int) ≤ indent then false
    else
      match opening? l.content with
      | none => false
      | some (quote, rest) =>
        (breakOn? quote rest).isNone &&
          (after.drop (skipped + 1)).all fun m => (breakOn? quote m.raw).isNone

/-- Lines behind the closing quote are not looked at. -/
theorem untilQuote_append {quote : Text} {later : List Line}
    (hclosed : (later.all fun m => (breakOn? quote m.raw).isNone) = false) (more : List Line) :
    untilQuote quote (later ++ more) = untilQuote quote later := by
  induction later with
  | nil => simp at hclosed
  | cons l later ih =>
      rw [List.cons_append, untilQuote, untilQuote]
      cases hbreak : breakOn? quote l.raw with
      | some parts => rfl
      | none =>
          rw [List.all_cons, hbreak] at hclosed
          rw [ih hclosed]

theorem capture_append {quote rest : Text} {l : Line} {later : List Line}
    (hclosed : ((breakOn? quote rest).isNone &&
      later.all fun m => (breakOn? quote m.raw).isNone) = false) (more : List Line) :
    capture quote rest l (later ++ more) = capture quote rest l later := by
  unfold capture
  cases hbreak : breakOn? quote rest with
  | some parts => rfl
  | none =>
      rw [hbreak] at hclosed
      rw [untilQuote_append hclosed]

/-- A docstring that is closed is read the same whatever lines follow the file. -/
theorem read_append {indent : Int} {size : Nat} {after : List Line}
    (hsize : size ≤ after.length) (hclosed : unclosed indent size after = false)
    (more : List Line) : read indent size (after ++ more) = read indent size after := by
  have hwindow : (after ++ more).take size = after.take size :=
    List.take_append_of_le_length hsize
  unfold unclosed at hclosed
  simp only at hclosed
  unfold read
  simp only [hwindow]
  cases hdrop : (after.take size).drop ((after.take size).takeWhile (·.isBlank)).length with
  | nil => rfl
  | cons l rest =>
      have hskipped : ((after.take size).takeWhile (·.isBlank)).length + 1 ≤ after.length := by
        have hlengths := congrArg List.length hdrop
        simp only [List.length_drop, List.length_take, List.length_cons] at hlengths
        omega
      rw [hdrop] at hclosed
      simp only at hclosed ⊢
      split
      · rfl
      · next hindent =>
        rw [if_neg hindent] at hclosed
        cases hopening : opening? l.content with
        | none => rfl
        | some opening =>
            rw [hopening] at hclosed
            simp only [List.drop_append_of_le_length hskipped, capture_append hclosed]

theorem readIf_append {wanted : Bool} {indent : Int} {size : Nat} {after : List Line}
    (hsize : size ≤ after.length) (hclosed : wanted = true → unclosed indent size after = false)
    (more : List Line) : readIf wanted indent size (after ++ more) =
      readIf wanted indent size after := by
  cases wanted with
  | false => rfl
  | true => exact read_append hsize (hclosed rfl) more

end Docstring

/-- No docstring that opens behind a line with one of the numbers runs to the end of the
lines. -/
def DocstringsClosed (numbers : List Int) (ls : List Line) : Prop :=
  ∀ l after, l :: after <:+ ls → (l.number : Int) ∈ numbers →
    Docstring.unclosed l.indent (block l.indent after).length after = false

instance (numbers : List Int) : DecidablePred (DocstringsClosed numbers) := fun ls =>
  decidable_of_iff (∀ t ∈ ls.tails, ∀ l ∈ t.head?, (l.number : Int) ∈ numbers →
      Docstring.unclosed l.indent (block l.indent t.tail).length t.tail = false)
    ⟨fun h l after hsuffix => h (l :: after) ((List.mem_tails _ _).mpr hsuffix) l rfl,
      fun h t ht l hl => by
        cases t with
        | nil => cases hl
        | cons l' after =>
            obtain rfl := Option.some.inj hl
            exact h l' after ((List.mem_tails _ _).mp ht)⟩

theorem DocstringsClosed.suffix {numbers : List Int} {ls ls' : List Line}
    (hls : DocstringsClosed numbers ls) (hsuffix : ls' <:+ ls) : DocstringsClosed numbers ls' :=
  fun l after hl => hls l after (hl.trans hsuffix)

/-! ## Lines in front of a line at the margin -/

theorem takeWhile_append_of_head {α : Type} {p : α → Bool} {ys : List α}
    (hys : ∀ y ∈ ys.head?, p y = false) (xs : List α) :
    (xs ++ ys).takeWhile p = xs.takeWhile p := by
  induction xs with
  | nil =>
      cases ys with
      | nil => rfl
      | cons y ys => simp [hys y rfl]
  | cons x xs ih =>
      rw [List.cons_append, List.takeWhile_cons, List.takeWhile_cons, ih]

section

variable {more : List Line} (hmore : ∀ l ∈ more.head?, l.isBlank = false ∧ l.indent = 0)
include hmore

/-- A line at the margin ends every block. -/
theorem block_append (indent : Nat) (after : List Line) :
    block indent (after ++ more) = block indent after := by
  refine takeWhile_append_of_head (fun l hl => ?_) after
  obtain ⟨hblank, hindent⟩ := hmore l hl
  simp [Line.inBlock, hblank, hindent]

theorem taken_append (l : Line) (after : List Line) :
    l.taken (after ++ more) = l.taken after := by
  rw [Line.taken, Line.taken, block_append hmore]

theorem declare_append {header : FunctionHeader} {options : OutlineOptions}
    {decorators : List Text} {l : Line} {after : List Line}
    (hclosed : options.docstrings = true →
      Docstring.unclosed l.indent (block l.indent after).length after = false) :
    header.declare options decorators l (after ++ more) =
      header.declare options decorators l after := by
  have hsize : (block l.indent after).length ≤ after.length :=
    (block_isPrefix l.indent after).length_le
  simp only [FunctionHeader.declare, block_append hmore, Docstring.readIf_append hsize hclosed]

theorem method?_append {options : OutlineOptions} {decorators : List Text} {l : Line}
    {after : List Line} (hclosed : ∀ f ∈ l.method? options decorators after,
      options.docstrings = true →
        Docstring.unclosed l.indent (block l.indent after).length after = false) :
    l.method? options decorators (after ++ more) = l.method? options decorators after := by
  unfold Line.method? at hclosed ⊢
  cases hform : l.form with
  | functionHeader async name parameters hint =>
      rw [hform] at hclosed
      simp only [declare_append hmore (hclosed _ rfl)]
  | _ => rfl

omit hmore in
theorem firstLine_of_mem_method? {options : OutlineOptions} {decorators : List Text} {l : Line}
    {after : List Line} {f : FunctionDecl} (hf : f ∈ l.method? options decorators after) :
    f.firstLine = l.number := by
  unfold Line.method? at hf
  cases hform : l.form with
  | functionHeader async name parameters hint =>
      rw [hform] at hf
      cases hf
      rfl
  | _ =>
      rw [hform] at hf
      cases hf

/-- The methods within a size are told by lines up to there and by docstrings. -/
theorem methods_append {options : OutlineOptions} {numbers : List Int} (size : Nat)
    (ls : List Line) (hsize : size ≤ ls.length)
    (hclosed : options.docstrings = true → DocstringsClosed numbers ls)
    (hnumbers : ∀ f ∈ methods options size ls, f.firstLine ∈ numbers) :
    methods options size (ls ++ more) = methods options size ls := by
  induction size, ls using methods_induction with
  | stop size ls hstop =>
      have htake : (ls ++ more).take size = ls.take size := List.take_append_of_le_length hsize
      rw [methods_of_stop hstop, methods_of_stop]
      rw [htake]
      refine Or.inr ?_
      rcases hstop with hnil | hstop
      · exact Nat.le_trans hsize (List.drop_eq_nil_iff.mp hnil)
      · exact hstop
  | step size ls l after hdrop hrun ih =>
      have htake : (ls ++ more).take size = ls.take size := List.take_append_of_le_length hsize
      have hlength : ls.length = (decoratorRun (ls.take size)).length + 1 + after.length := by
        have hlengths := congrArg List.length hdrop
        simp only [List.length_drop, List.length_cons] at hlengths
        omega
      have hdrop' : (ls ++ more).drop (decoratorRun ((ls ++ more).take size)).length =
          l :: (after ++ more) := by
        rw [htake, List.drop_append_of_le_length (by omega), hdrop, List.cons_append]
      have hsuffix : l :: after <:+ ls := hdrop ▸ List.drop_suffix _ ls
      have hrest : after.drop (l.taken after) <:+ ls :=
        (List.drop_suffix _ after).trans ((List.suffix_cons l after).trans hsuffix)
      rw [methods_of_drop_eq_cons hdrop hrun] at hnumbers ⊢
      rw [methods_of_drop_eq_cons hdrop' (by rwa [htake]), htake, taken_append hmore,
        List.drop_append_of_le_length (l.taken_le after), method?_append hmore ?_, ih ?_ ?_ ?_]
      · rw [List.length_drop]
        omega
      · exact fun hwanted => (hclosed hwanted).suffix hrest
      · exact fun f hf => hnumbers f (List.mem_append_right _ hf)
      · intro f hf hwanted
        refine hclosed hwanted l after hsuffix ?_
        rw [← firstLine_of_mem_method? hf]
        exact hnumbers f (List.mem_append_left _ (Option.mem_toList.mpr hf))

theorem declareClass_append {options : OutlineOptions} {name : Text} {bases : Option Text}
    {decorators : List Text} {l : Line} {after : List Line} {numbers : List Int}
    (hclosed : options.docstrings = true → DocstringsClosed numbers (l :: after))
    (hnumbers : ∀ h ∈ (declareClass options name bases decorators l after).headings,
      h.line ∈ numbers) :
    declareClass options name bases decorators l (after ++ more) =
      declareClass options name bases decorators l after := by
  have hsize : (block l.indent after).length ≤ after.length :=
    (block_isPrefix l.indent after).length_le
  have hdoc : Docstring.readIf options.docstrings l.indent (block l.indent after).length
      (after ++ more) = Docstring.readIf options.docstrings l.indent
        (block l.indent after).length
        after := by
    refine Docstring.readIf_append hsize (fun hwanted => ?_) more
    exact hclosed hwanted l after (List.suffix_refl _) (hnumbers _ List.mem_cons_self)
  have hmethods : ∀ f ∈ (declareClass options name bases decorators l after).methods,
      f.firstLine ∈ numbers := fun f hf =>
    hnumbers f.heading (List.mem_cons_of_mem _ (List.mem_map_of_mem hf))
  simp only [declareClass, block_append hmore, hdoc, ClassDecl.mk.injEq, true_and]
  rw [List.drop_append_of_le_length (by omega)]
  refine methods_append hmore _ _ ?_ (fun hwanted => ?_) hmethods
  · rw [List.length_drop]
    omega
  · exact (hclosed hwanted).suffix ((List.drop_suffix _ after).trans (List.suffix_cons l after))

theorem declaration?_append {options : OutlineOptions} {decorators : List Text} {l : Line}
    {after : List Line} {numbers : List Int}
    (hclosed : options.docstrings = true → DocstringsClosed numbers (l :: after))
    (hnumbers : ∀ d ∈ l.declaration? options decorators
      after, ∀ h ∈ d.headings, h.line ∈ numbers) :
    l.declaration? options decorators (after ++ more) =
      l.declaration? options decorators after := by
  unfold Line.declaration? at hnumbers ⊢
  cases hform : l.form with
  | functionHeader async name parameters hint =>
      rw [hform] at hnumbers
      have hnumber : (l.number : Int) ∈ numbers := hnumbers _ rfl _ List.mem_cons_self
      simp only [declare_append hmore fun hwanted =>
        hclosed hwanted l after (List.suffix_refl _) hnumber]
  | classHeader name bases =>
      rw [hform] at hnumbers
      simp only [declareClass_append hmore hclosed (hnumbers _ rfl)]
  | _ => rfl

omit hmore in
/-- Decorators and blank lines whose last line but for blank ones is no decorator are all
blank. -/
theorem isBlank_of_decoratorRun_eq {ls : List Line} (hrun : decoratorRun ls = ls)
    (hlast : ∀ l ∈ (ls.filter fun l => ! l.isBlank).getLast?, l.isDecorator = false) :
    ∀ l ∈ ls, l.isBlank = true := by
  cases hfilter : (ls.filter fun l => ! l.isBlank).getLast? with
  | none =>
      intro l hl
      have hnone := List.filter_eq_nil_iff.mp (List.getLast?_eq_none_iff.mp hfilter) l hl
      simpa using hnone
  | some m =>
      obtain ⟨hm, hblank⟩ := List.mem_filter.mp (List.mem_of_getLast? hfilter)
      have hmark := List.all_eq_true.mp List.all_takeWhile m (hrun.symm ▸ hm)
      rw [hlast m hfilter] at hmark
      simp_all

omit hmore in
theorem lastNotDecorator_suffix {ls ls' : List Line} (hsuffix : ls' <:+ ls)
    (hlast : ∀ l ∈ (ls.filter fun l => ! l.isBlank).getLast?, l.isDecorator = false) :
    ∀ l ∈ (ls'.filter fun l => ! l.isBlank).getLast?, l.isDecorator = false := by
  obtain ⟨before, rfl⟩ := hsuffix
  intro l hl
  refine hlast l ?_
  rw [List.filter_append, List.getLast?_append, hl]
  rfl

/-- The declarations of lines in front of a line at the margin are told by these lines alone, if
they do not end in decorators. -/
theorem declarations_append {options : OutlineOptions} {numbers : List Int} (ls : List Line)
    (hlast : ∀ l ∈ (ls.filter fun l => ! l.isBlank).getLast?, l.isDecorator = false)
    (hclosed : options.docstrings = true → DocstringsClosed numbers ls)
    (hnumbers : ∀ h ∈ (declarations options ls).flatMap
      Declaration.headings, h.line ∈ numbers) :
    declarations options (ls ++ more) =
      declarations options ls ++ declarations options more := by
  induction ls using declarations_induction with
  | stop ls hdrop =>
      have hrun : decoratorRun ls = ls :=
        (List.takeWhile_prefix _).eq_of_length_le (List.drop_eq_nil_iff.mp hdrop)
      rw [declarations_of_drop_eq_nil hdrop,
        declarations_blank_append options (isBlank_of_decoratorRun_eq hrun hlast)]
      rfl
  | step ls l after hdrop ih =>
      have hlength : ls.length = (decoratorRun ls).length + 1 + after.length := by
        have hlengths := congrArg List.length hdrop
        simp only [List.length_drop, List.length_cons] at hlengths
        omega
      have hrun : decoratorRun (ls ++ more) = decoratorRun ls := by
        rw [decoratorRun, List.takeWhile_append, ← decoratorRun, if_neg (by omega)]
      have hdrop' : (ls ++ more).drop (decoratorRun (ls ++ more)).length =
          l :: (after ++ more) := by
        rw [hrun, List.drop_append_of_le_length (by omega), hdrop, List.cons_append]
      have hsuffix : l :: after <:+ ls := hdrop ▸ List.drop_suffix _ ls
      have hrest : after.drop (l.taken after) <:+ ls :=
        (List.drop_suffix _ after).trans ((List.suffix_cons l after).trans hsuffix)
      rw [declarations_of_drop_eq_cons hdrop] at hnumbers ⊢
      rw [List.flatMap_append] at hnumbers
      have hfirst : l.declaration? options (decoratorTexts (decoratorRun ls)) (after ++ more) =
          l.declaration? options (decoratorTexts (decoratorRun ls)) after := by
        refine declaration?_append hmore (fun hwanted => (hclosed hwanted).suffix hsuffix) ?_
        intro d hd h hh
        refine hnumbers h (List.mem_append_left _ ?_)
        exact List.mem_flatMap.mpr ⟨d, Option.mem_toList.mpr hd, hh⟩
      have hlater := ih (lastNotDecorator_suffix hrest hlast)
        (fun hwanted => (hclosed hwanted).suffix hrest)
        (fun h hh => hnumbers h (List.mem_append_right _ hh))
      rw [declarations_of_drop_eq_cons hdrop', hrun, taken_append hmore,
        List.drop_append_of_le_length (l.taken_le after), hfirst, hlater, List.append_assoc]

end

/-! ## Texts -/

/-- The lines of a text behind another are its lines, further down. -/
theorem scan_append {A B : Text} (hA : '\r' ∉ A) (hB : '\r' ∉ B) :
    Line.scan (A ++ '\n' :: B) =
      Line.scan A ++ (Line.scan B).map (Line.shift (Line.scan A).length) := by
  have hlength : (Line.scan A).length = (lines A).length := List.length_mapIdx
  rw [hlength, Line.scan, lines_append hA hB, List.mapIdx_append, Line.scan, Line.scan]
  refine congrArg (_ ++ ·) ?_
  rw [List.mapIdx_eq_zipIdx_map, List.mapIdx_eq_zipIdx_map, List.map_map]
  rfl

/-! ## Outlines -/

theorem class?_shift (n : Nat) (d : Declaration) :
    (d.shift n).class? = d.class?.map (ClassDecl.shift n) := by
  cases d <;> rfl

theorem function?_shift (n : Nat) (d : Declaration) :
    (d.shift n).function? = d.function?.map (FunctionDecl.shift n) := by
  cases d <;> rfl

theorem filterMap_shift {α β : Type} {shift : α → α} {shift' : β → β} {find : α → Option β}
    (hfind : ∀ a, find (shift a) = (find a).map shift') (as : List α) :
    (as.map shift).filterMap find = (as.filterMap find).map shift' := by
  rw [List.filterMap_map, List.map_filterMap]
  exact List.filterMap_congr fun a _ => hfind a

/-- The outline of two texts, one behind the other, is that of the first followed by that of the
second, further down by the lines of the first. -/
theorem Outline.read_append (options : OutlineOptions) (path name : Text) {A B : Text}
    (hA : '\r' ∉ A) (hB : '\r' ∉ B)
    (hfirst : ∀ l ∈ (Line.scan B).head?, l.isBlank = false ∧ l.indent = 0)
    (hlast : ∀ l ∈ ((Line.scan A).filter fun l => ! l.isBlank).getLast?, l.isDecorator = false)
    (hclosed : options.docstrings = true → DocstringsClosed
      ((Outline.read options path name A).headings.map Heading.line) (Line.scan A)) :
    let a := Outline.read options path name A
    let b := Outline.read options path name B
    let o := Outline.read options path name (A ++ '\n' :: B)
    let n := (Line.scan A).length
    o.imports = a.imports ++ b.imports.map (ImportDecl.shift n) ∧
    o.globals = a.globals ++ b.globals.map (VariableDecl.shift n) ∧
    o.classes = a.classes ++ b.classes.map (ClassDecl.shift n) ∧
    o.functions = a.functions ++ b.functions.map (FunctionDecl.shift n) := by
  intro a b o n
  have hmore : ∀ l ∈ ((Line.scan B).map (Line.shift n)).head?, l.isBlank = false ∧
      l.indent = 0 := by
    intro l hl
    rw [List.head?_map] at hl
    obtain ⟨l', hl', rfl⟩ := Option.map_eq_some_iff.mp hl
    exact hfirst l' hl'
  have hnumbers : ∀ h ∈ (declarations options (Line.scan A)).flatMap Declaration.headings,
      h.line ∈ a.headings.map Heading.line := fun h hh =>
    List.mem_map_of_mem ((headings_perm _).mem_iff.mpr hh)
  have hscan : Line.scan (A ++ '\n' :: B) = Line.scan A ++ (Line.scan B).map (Line.shift n) :=
    scan_append hA hB
  have hdeclared : declarations options (Line.scan (A ++ '\n' :: B)) =
      declarations options (Line.scan A)
        ++ (declarations options (Line.scan B)).map (Declaration.shift n) := by
    rw [hscan, declarations_append hmore _ hlast hclosed hnumbers, declarations_shift]
  refine ⟨?_, ?_, ?_, ?_⟩
  · change (Line.scan (A ++ '\n' :: B)).filterMap Line.import? = _
    rw [hscan, List.filterMap_append, filterMap_shift (import?_shift n)]
    rfl
  · change (Line.scan (A ++ '\n' :: B)).filterMap (Line.assigned? options) = _
    rw [hscan, List.filterMap_append, filterMap_shift (assigned?_shift n options)]
    rfl
  · change (declarations options (Line.scan (A ++ '\n' :: B))).filterMap Declaration.class? = _
    rw [hdeclared, List.filterMap_append, filterMap_shift (class?_shift n)]
    rfl
  · change (declarations options (Line.scan (A ++ '\n' :: B))).filterMap
      Declaration.function? = _
    rw [hdeclared, List.filterMap_append, filterMap_shift (function?_shift n)]
    rfl

/-- Take two texts without carriage returns, where the first line of the second is neither blank
nor a comment and stands at the margin, and the last line of the first that is neither is no
decorator. When the length of snippets is an integer, all three texts have outlines: the two and
the one text of both with a line feed between them. The imports, variables, classes and
functions of that text are those of the first followed by those of the second, further down by
the number of lines of the first. This holds without docstrings, and with them if none that
opens in a class or a function of the first text is left open at its end. -/
theorem outline_concatenation (options : ReadingOptions) (name : Text) (path : Option Text)
    (A B : Text) (hlength : options.snippetLength.integer?.isSome) (hA : '\r' ∉ A)
    (hB : '\r' ∉ B) (hfirst : ∀ l ∈ (Line.scan B).head?, l.isBlank = false ∧ l.indent = 0)
    (hlast : ∀ l ∈ ((Line.scan A).filter fun l => ! l.isBlank).getLast?,
      l.isDecorator = false) :
    ∃ a b o, SourceFile.outline options ⟨name, some A, path⟩ = .ok a ∧
      SourceFile.outline options ⟨name, some B, path⟩ = .ok b ∧
      SourceFile.outline options ⟨name, some (A ++ '\n' :: B), path⟩ = .ok o ∧
      ((options.docstrings = true →
          DocstringsClosed (a.headings.map Heading.line) (Line.scan A)) →
        o.imports = a.imports ++ b.imports.map (ImportDecl.shift (Line.scan A).length) ∧
        o.globals = a.globals ++ b.globals.map (VariableDecl.shift (Line.scan A).length) ∧
        o.classes = a.classes ++ b.classes.map (ClassDecl.shift (Line.scan A).length) ∧
        o.functions = a.functions
          ++ b.functions.map (FunctionDecl.shift (Line.scan A).length)) := by
  obtain ⟨length, hlength⟩ := Option.isSome_iff_exists.mp hlength
  refine ⟨_, _, _, outline_eq_read hlength rfl, outline_eq_read hlength rfl,
    outline_eq_read hlength rfl, fun hclosed => ?_⟩
  exact Outline.read_append ⟨options.docstrings, length⟩ _ name hA hB hfirst hlast hclosed

/-- A text that ends in a class with docstrings of several lines, a blank line and a comment. -/
def frontText : Text :=
  "import os\nclass C:\n  \'\'\'a\n  b\'\'\'\n  def f(self):\n    os.exit()\n\n# end".toList

/-- A text that starts with a decorator. -/
def backText : Text := "@d\ndef h():\n  k()\nX = 1".toList

/-- The decorator of the second text decorates its function, eight lines further down. -/
theorem outline_concatenation_decorated :
    (∀ l ∈ (Line.scan backText).head?, l.isBlank = false ∧ l.indent = 0) ∧
    (∀ l ∈ ((Line.scan frontText).filter fun l => ! l.isBlank).getLast?,
      l.isDecorator = false) ∧
    ∃ o, SourceFile.outline ⟨true, .number 40⟩
        ⟨"m.py".toList, some (frontText ++ '\n' :: backText), none⟩ = .ok o ∧
      o.functions.map (fun f => (f.name, f.decorators, f.firstLine)) =
        [("h".toList, ["@d".toList], 10)] := by
  have hfirst : ∀ l ∈ (Line.scan backText).head?, l.isBlank = false ∧ l.indent = 0 := by
    decide +kernel
  have hlast : ∀ l ∈ ((Line.scan frontText).filter fun l => ! l.isBlank).getLast?,
      l.isDecorator = false := by decide +kernel
  obtain ⟨a, b, o, ha, hb, ho, hparts⟩ :=
    outline_concatenation ⟨true, .number 40⟩ "m.py".toList none
    frontText backText rfl (by decide) (by decide) hfirst hlast
  -- outlines are read by well-founded recursion, which only the kernel unfolds
  have hfront : (SourceFile.outline ⟨true, .number 40⟩ ⟨"m.py".toList, some frontText, none⟩
      ).toOption.map (fun a => (decide (DocstringsClosed (a.headings.map Heading.line)
        (Line.scan frontText)), a.functions)) = some (true, []) := by decide +kernel
  have hback : (SourceFile.outline ⟨true, .number 40⟩ ⟨"m.py".toList, some backText, none⟩
      ).toOption.map (fun b => b.functions.map fun f => (f.name, f.decorators, f.firstLine)) =
      some [("h".toList, ["@d".toList], 2)] := by decide +kernel
  rw [ha] at hfront
  rw [hb] at hback
  obtain ⟨hclosed, hnone⟩ := Prod.mk.inj (Option.some.inj hfront)
  obtain ⟨f, hf, hrow⟩ := List.map_eq_singleton_iff.mp (Option.some.inj hback)
  obtain ⟨hname, hdecorators, hline⟩ : f.name = _ ∧ f.decorators = _ ∧ f.firstLine = _ := by
    simpa only [Prod.mk.injEq] using hrow
  obtain ⟨-, -, -, hfunctions⟩ := hparts fun _ => of_decide_eq_true hclosed
  have hlines : (Line.scan frontText).length = 8 := by decide +kernel
  refine ⟨hfirst, hlast, o, ho, ?_⟩
  rw [hfunctions, hnone, hf, hlines]
  simp [FunctionDecl.shift, hname, hdecorators, hline]

end SymbolGraph
