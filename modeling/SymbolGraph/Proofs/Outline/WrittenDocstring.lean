import Mathlib.Data.List.DropRight
import SymbolGraph.Proofs.Outline.Padding
import SymbolGraph.Proofs.Text.Dedent
set_option autoImplicit false

/-!
# Docstrings as they are written

A function at the margin whose body starts with a docstring has the text of that docstring. A
docstring of several lines is written with its later lines indented and its closing quote on a
line of its own, and is dedented to its lines (`docstring_read_back`). The calls of the function
are looked for behind the closing quote. A docstring of one line with its closing quote behind
it is trimmed. With its closing quote on the next line there is no other line to give a margin,
and the blanks in front of the quote stay (`lone_docstring_keeps_blanks`).
-/

namespace SymbolGraph

open Text

/-! ## Reading from an opening line on -/

theorem Text.trimBy_append_of_run {p : Char → Bool} {run : Text} (hrun : ∀ c ∈ run, p c = false)
    (hne : run ≠ []) {rest : Text} : trimBy p (run ++ rest) = run ++ rest.rdropWhile p := by
  have hhead : ∀ c ∈ (run ++ rest).head?, p c = false := by
    rw [List.head?_append_of_ne_nil _ hne]
    exact fun c hc => hrun c (List.mem_of_mem_head? hc)
  have hlast : ∀ c ∈ run.reverse.head?, p c = false := fun c hc =>
    hrun c (List.mem_reverse.mp (List.mem_of_mem_head? hc))
  rw [trimBy, dropWhile_of_head hhead, List.reverse_append, dropWhile_append_of_head hlast,
    List.reverse_append, List.reverse_reverse, List.rdropWhile]

namespace Docstring

theorem opening?_append {quote : Text} (hquote : quote ∈ quotes) (rest : Text) :
    opening? (quote ++ rest) = some (quote, rest) := by
  rcases List.mem_cons.mp hquote with rfl | hquote
  · rfl
  · rw [List.mem_singleton.mp hquote]
    rfl

/-- A docstring is read where it opens, behind blank lines and comments. -/
theorem read_block_of_opening {blanks later : List Line} {l : Line} {quote rest : Text}
    (hblanks : ∀ m ∈ blanks, m.isBlank = true) (hvisible : l.isBlank = false)
    (hindent : 0 < l.indent) (hopening : opening? l.content = some (quote, rest)) :
    read 0 (block 0 (blanks ++ l :: later)).length (blanks ++ l :: later) =
      ⟨some (capture quote rest l later).1,
        blanks.length + ((capture quote rest l later).2 + 1)⟩ := by
  have hrun : ∀ m ∈ blanks, m.inBlock 0 = true := fun m hm =>
    Bool.or_eq_true_iff.mpr (Or.inl (hblanks m hm))
  have hl : l.inBlock 0 = true := Bool.or_eq_true_iff.mpr (Or.inr (decide_eq_true (by omega)))
  have hblock : (block 0 (blanks ++ l :: later)).length =
      blanks.length + ((block 0 later).length + 1) := by
    rw [block, List.takeWhile_append_of_pos hrun, List.takeWhile_cons_of_pos hl,
      List.length_append, List.length_cons, block]
  have hdeeper : ¬ (l.indent : Int) ≤ 0 := by omega
  rw [hblock, read_append_of_blank hblanks, read_cons_of_not_blank hvisible,
    if_neg hdeeper, hopening]
  rfl

theorem breakOn?_quote {quote pad : Text} (hpad : ∀ c ∈ pad, c ∉ quote)
    (hquote : quote ∈ quotes) (rest : Text) :
    breakOn? quote (pad ++ (quote ++ rest)) = some (pad, rest) := by
  have hne := ne_nil_of_mem_quotes hquote
  have hfront : breakOn? quote (quote ++ rest) = some ([], rest) := by
    obtain ⟨c, t, rfl⟩ := List.exists_cons_of_ne_nil hne
    rw [List.cons_append, breakOn?, ← List.cons_append, dropHead?_append]
  rw [breakOn?_append_left hpad hne, hfront]
  simp

/-- The lines in front of a closing quote are taken whole. -/
theorem untilQuote_scanFrom {quote pad : Text} (hquote : quote ∈ quotes)
    (hpad : ∀ c ∈ pad, c ∉ quote) {texts : List Text} (htexts : ∀ t ∈ texts, ¬ quote <:+: t)
    (n : Nat) (after : List Text) :
    untilQuote quote (Line.scanFrom n (texts ++ (pad ++ quote) :: after)) =
      (texts ++ [pad], texts.length + 1) := by
  induction texts generalizing n with
  | nil =>
      have hbreak := breakOn?_quote hpad hquote []
      rw [List.append_nil] at hbreak
      rw [List.nil_append, Line.scanFrom_cons, untilQuote, Line.ofText, hbreak]
      rfl
  | cons t texts ih =>
      have hnone := breakOn?_eq_none_iff.mpr (htexts t List.mem_cons_self)
      have hrest := ih (fun u hu => htexts u (List.mem_cons_of_mem t hu)) (n + 1)
      rw [List.cons_append, Line.scanFrom_cons, untilQuote, Line.ofText, hnone, hrest]
      rfl

end Docstring

/-! ## Where a docstring stands -/

theorem indentation_pos {k : Nat} (hk : 0 < k) (t : Text) :
    0 < indentation (List.replicate k ' ' ++ t) := by
  rw [indentation_append (isIndent_of_mem_blanks k), List.length_replicate]
  exact Nat.add_pos_right _ hk

/-- How a docstring stands in the body of a function: the quote, the blanks in front of the
opening quote, and the number of blanks in front of a closing quote on a line of its own. -/
structure DocstringFrame where
  quote : Text
  indent : Text
  width : Nat
  quote_mem : quote ∈ Docstring.quotes
  indent_ne_nil : indent ≠ []
  indent_blank : ∀ c ∈ indent, isIndent c = true
  width_pos : 0 < width

namespace DocstringFrame

variable (d : DocstringFrame)

/-- The line that opens the docstring, with what stands behind the quote. -/
def openingLine (rest : Text) : Text := d.indent ++ (d.quote ++ rest)

/-- The line with the closing quote alone. -/
def closingLine : Text := List.replicate d.width ' ' ++ d.quote

theorem not_mem_quote {c : Char} (hc : c ∈ d.indent) : c ∉ d.quote :=
  Docstring.not_mem_of_mem_quotes d.quote_mem (isSpace_of_isIndent (d.indent_blank c hc))

theorem blanks_not_mem_quote : ∀ c ∈ List.replicate d.width ' ', c ∉ d.quote := fun c hc =>
  Docstring.not_mem_of_mem_quotes d.quote_mem (isSpace_of_mem_blanks c hc)

theorem indent_pos (i : Nat) (rest : Text) :
    0 < (Line.ofText i (d.openingLine rest)).indent := by
  have hpos := List.length_pos_of_ne_nil d.indent_ne_nil
  have hindent := indentation_append d.indent_blank (d.quote ++ rest)
  exact Nat.lt_of_lt_of_eq (by omega) hindent.symm

theorem form_openingLine (rest : Text) : LineForm.ofText (d.openingLine rest) = .statement := by
  unfold openingLine
  rcases List.mem_cons.mp d.quote_mem with hquote | hquote
  · rw [hquote]
    exact (LineForm.ofText_indented d.indent_blank (by decide) (by decide) (by decide)).trans
      rfl
  · rw [List.mem_singleton.mp hquote]
    exact (LineForm.ofText_indented d.indent_blank (by decide) (by decide) (by decide)).trans
      rfl

theorem isBlank_openingLine (i : Nat) (rest : Text) :
    (Line.ofText i (d.openingLine rest)).isBlank = false := by
  rw [Line.isBlank, Line.ofText, d.form_openingLine]
  rfl

theorem isSpace_of_mem_quote {c : Char} (hc : c ∈ d.quote) : isSpace c = false :=
  Bool.eq_false_iff.mpr fun hspace => Docstring.not_mem_of_mem_quotes d.quote_mem hspace hc

theorem content_openingLine (i : Nat) (rest : Text) :
    (Line.ofText i (d.openingLine rest)).content = d.quote ++ rest.rdropWhile isSpace :=
  (trim_append_left d.indent_blank _).trans
    (trimBy_append_of_run (fun _ => d.isSpace_of_mem_quote)
      (Docstring.ne_nil_of_mem_quotes d.quote_mem))

/-- The docstring with its closing quote on the line it opens on is trimmed. -/
theorem capture_closed {text : Text} (htext : ∀ c ∈ text, c ∉ d.quote) (i : Nat)
    (later : List Line) :
    Docstring.capture d.quote (text ++ d.quote)
      (Line.ofText i (d.openingLine (text ++ d.quote))) later =
      (trim text, 0) := by
  have hbreak := Docstring.breakOn?_quote htext d.quote_mem []
  rw [List.append_nil] at hbreak
  rw [Docstring.capture, hbreak]

/-- The docstring with its closing quote on a line of its own is dedented. -/
theorem capture_broken {first : Text} (hfirst : ¬ d.quote <:+: first) {texts : List Text}
    (htexts : ∀ t ∈ texts, ¬ d.quote <:+: t) (i n : Nat) (after : List Text) :
    Docstring.capture d.quote (first.rdropWhile isSpace) (Line.ofText i (d.openingLine first))
        (Line.scanFrom n (texts ++ d.closingLine :: after)) =
      (dedent (unlines (first :: (texts ++ [List.replicate d.width ' ']))),
        texts.length + 1) := by
  have hnone : breakOn? d.quote (first.rdropWhile isSpace) = none :=
    breakOn?_eq_none_iff.mpr fun hmem =>
      hfirst (hmem.trans (List.rdropWhile_prefix _ _).isInfix)
  have hopen : breakOn? d.quote (d.openingLine first) = some (d.indent, first) :=
    Docstring.breakOn?_quote (fun _ => d.not_mem_quote) d.quote_mem first
  have huntil := Docstring.untilQuote_scanFrom d.quote_mem d.blanks_not_mem_quote htexts n after
  rw [Docstring.capture, hnone, closingLine, huntil, Line.ofText, hopen]
  rfl

end DocstringFrame

/-! ## Where a function stands -/

theorem outsideBlocks_of_margin {ls : List Line} {h : Nat} {l : Line} (hl : ls[h]? = some l)
    (hvisible : l.isBlank = false) (hmargin : l.indent = 0) : OutsideBlocks ls h := by
  intro g hg m _ _
  by_contra hinside
  have hin := ((le_blockEnd_iff hg m.indent).mp (Nat.not_lt.mp hinside)).2 h hg h.le_refl l hl
  have hdeeper := Line.lt_indent_of_inBlock hin hvisible
  omega

/-- How a function at the margin stands in a file: the lines in front of it, its header, the
blank lines and comments that its body starts with, and the lines behind its docstring. -/
structure FunctionFrame where
  before : List Text
  header : Text
  blanks : List Text
  after : List Text
  header_form : (LineForm.ofText header).name = "function_header"
  header_margin : indentation header = 0
  blanks_blank : ∀ line ∈ blanks, LineForm.ofText line = .blank

namespace FunctionFrame

variable (s : FunctionFrame)

/-- The lines of a file where the function has a docstring on the given lines. -/
def lines (docstring : List Text) : List Text :=
  s.before ++ s.header :: (s.blanks ++ (docstring ++ s.after))

/-- The number of the function's first line. -/
def firstLine : Nat := s.before.length + 1

theorem exists_form :
    ∃ async name parameters hint, LineForm.ofText s.header =
      .functionHeader async name parameters hint := by
  have hname := s.header_form
  cases hform : LineForm.ofText s.header with
  | functionHeader async name parameters hint => exact ⟨async, name, parameters, hint, rfl⟩
  | _ => simp [hform, LineForm.name] at hname

section

variable {options : OutlineOptions} {path name content : Text} {docstring : List Text}
  (hlines : Text.lines content = s.lines docstring)
include hlines

theorem getElem?_header :
    (Line.scan content)[s.before.length]? = some (Line.ofText s.before.length s.header) := by
  refine getElem?_scan ?_
  rw [hlines, lines, List.getElem?_append_right (Nat.le_refl _), Nat.sub_self]
  rfl

theorem drop_header :
    (Line.scan content).drop s.firstLine =
      Line.scanFrom s.firstLine s.blanks ++
        Line.scanFrom (s.firstLine + s.blanks.length) (docstring ++ s.after) := by
  have hfront : s.lines docstring =
      (s.before ++ [s.header]) ++ (s.blanks ++ (docstring ++ s.after)) := by
    rw [lines, List.append_assoc, List.singleton_append]
  have hlength : (Line.scanFrom 0 (s.before ++ [s.header])).length = s.firstLine := by
    rw [Line.length_scanFrom, List.length_append, List.length_singleton, firstLine]
  rw [Line.scan_eq_scanFrom, hlines, hfront, Line.scanFrom_append, List.drop_left' hlength,
    Line.scanFrom_append, ← Line.length_scanFrom 0 (s.before ++ [s.header]), hlength,
    Nat.zero_add]

/-- The function is one of the file's functions. -/
theorem exists_function :
    ∃ f ∈ (Outline.read options path name content).functions, f.firstLine = s.firstLine := by
  obtain ⟨async, fname, parameters, hint, hform⟩ := s.exists_form
  have hl := s.getElem?_header hlines
  have hheading := (heading?_function_iff (Line.ofText s.before.length s.header)).mpr
    ⟨async, fname, parameters, hint, hform⟩
  have hvisible : (Line.ofText s.before.length s.header).isBlank = false := by
    rw [Line.isBlank, Line.ofText, hform]
    rfl
  exact List.mem_map.mp ((mem_firsts_of_part Declaration.function? FunctionDecl.span
    (fun d => by cases d <;> rfl) hl hheading).mpr
      (outsideBlocks_of_margin hl hvisible s.header_margin))

/-- The docstring and the calls of the function are read from the lines behind its header. -/
theorem function_eq {f : FunctionDecl}
    (hf : f ∈ (Outline.read options path name content).functions)
    (hfirst : f.firstLine = s.firstLine) {doc : Docstring}
    (hdoc : Docstring.readIf options.docstrings 0
      (block 0 ((Line.scan content).drop s.firstLine)).length
      ((Line.scan content).drop s.firstLine) = doc) :
    f.docstring = doc.text ∧
      f.calls =
        bodyCalls ((block 0 ((Line.scan content).drop s.firstLine)).drop doc.bodyOffset) := by
  obtain ⟨i, l, hl, hdeclares⟩ := exists_place_of_function (function_mem_declarations hf)
    (List.mem_singleton.mpr rfl)
  obtain ⟨-, hplace, -, hdocstring⟩ := place_of_declares hl hdeclares
  obtain rfl : i = s.before.length := by
    rw [hfirst, firstLine] at hplace
    omega
  obtain rfl : l = Line.ofText s.before.length s.header :=
    Option.some.inj (hl.symm.trans (s.getElem?_header hlines))
  have hmargin : (Line.ofText s.before.length s.header).indent = 0 := s.header_margin
  have hcalls := calls_of_declares hdeclares
  rw [bodyLines, hmargin] at hcalls
  rw [hmargin] at hdocstring
  subst hdoc
  exact ⟨hdocstring, hcalls⟩

/-- The docstring of the function is captured from the line that opens it. -/
theorem read_openingLine (d : DocstringFrame) {rest text : Text} {later : List Text} {n : Nat}
    (hdocstring : docstring = d.openingLine rest :: later)
    (hcaptured : ∀ i j, Docstring.capture d.quote (rest.rdropWhile isSpace)
      (Line.ofText i (d.openingLine rest)) (Line.scanFrom j (later ++ s.after)) = (text, n)) :
    Docstring.read 0 (block 0 ((Line.scan content).drop s.firstLine)).length
        ((Line.scan content).drop s.firstLine) = ⟨some text, s.blanks.length + (n + 1)⟩ := by
  have hblanks : ∀ m ∈ Line.scanFrom s.firstLine s.blanks, m.isBlank = true := by
    intro m hm
    obtain ⟨i, t, ht, rfl⟩ := Line.exists_of_mem_scanFrom hm
    rw [Line.isBlank, Line.ofText, s.blanks_blank t ht]
    rfl
  have hopening := Docstring.opening?_append d.quote_mem (rest.rdropWhile isSpace)
  rw [← d.content_openingLine (s.firstLine + s.blanks.length)] at hopening
  rw [s.drop_header hlines, hdocstring, List.cons_append, Line.scanFrom_cons,
    Docstring.read_block_of_opening hblanks (d.isBlank_openingLine _ rest)
      (d.indent_pos _ rest) hopening,
    Line.length_scanFrom, hcaptured]

/-- When the docstring keeps to the block, the lines behind it are the rest of the body. -/
theorem body_behind
    (hinside : ∀ t ∈ docstring, LineForm.ofText t = .blank ∨ 0 < indentation t) :
    (block 0 ((Line.scan content).drop s.firstLine)).drop (s.blanks.length + docstring.length) =
      block 0 ((Line.scan content).drop
        (s.firstLine + (s.blanks.length + docstring.length))) := by
  have hfront : ∀ l ∈ Line.scanFrom s.firstLine (s.blanks ++ docstring),
      l.inBlock 0 = true := by
    intro l hl
    obtain ⟨i, t, ht, rfl⟩ := Line.exists_of_mem_scanFrom hl
    have hline : LineForm.ofText t = .blank ∨ 0 < indentation t :=
      (List.mem_append.mp ht).elim (fun hblank => Or.inl (s.blanks_blank t hblank)) (hinside t)
    simpa [Line.inBlock, Line.isBlank, Line.ofText] using hline
  have hdrop : (Line.scan content).drop s.firstLine =
      Line.scanFrom s.firstLine (s.blanks ++ docstring) ++
        Line.scanFrom (s.firstLine + (s.blanks ++ docstring).length) s.after := by
    rw [s.drop_header hlines, ← Line.scanFrom_append, ← List.append_assoc, Line.scanFrom_append]
  have hlength : (Line.scanFrom s.firstLine (s.blanks ++ docstring)).length =
      s.blanks.length + docstring.length := by
    rw [Line.length_scanFrom, List.length_append]
  have hbehind : (Line.scan content).drop (s.firstLine + (s.blanks.length + docstring.length)) =
      Line.scanFrom (s.firstLine + (s.blanks ++ docstring).length) s.after := by
    rw [← List.drop_drop (i := s.blanks.length + docstring.length), hdrop,
      List.drop_left' hlength]
  rw [hbehind, hdrop, block, List.takeWhile_append_of_pos hfront,
    List.drop_left' hlength, block]

end

end FunctionFrame

/-! ## Docstrings of several lines -/

/-- A docstring of several lines: the first starts with something visible, and so does a later
one, which gives the margin; the last is not empty. -/
structure WrittenDocstring extends DocstringFrame where
  first : Text
  later : List Text
  first_flush : IsFlush first
  later_flush : ∃ line ∈ later, IsFlush line
  last_ne_nil : ∀ line ∈ later.getLast?, line ≠ []
  plain : ∀ line ∈ first :: later, IsPlainLine line
  unquoted : ∀ line ∈ first :: later, ¬ quote <:+: line

namespace WrittenDocstring

variable (d : WrittenDocstring)

/-- The text of the docstring. -/
def text : Text := unlines (d.first :: d.later)

/-- The lines of a file that hold the docstring: the later lines are indented but for the empty
ones, and the closing quote stands on a line of its own. -/
def written : List Text :=
  d.openingLine d.first :: (d.later.map (padLine d.width) ++ [d.closingLine])

theorem unquoted_padLine {t : Text} (ht : t ∈ d.later.map (padLine d.width)) :
    ¬ d.quote <:+: t := by
  obtain ⟨line, hline, rfl⟩ := List.mem_map.mp ht
  have hne := Docstring.ne_nil_of_mem_quotes d.quote_mem
  have hunquoted := d.unquoted line (List.mem_cons_of_mem d.first hline)
  unfold padLine
  split
  · exact fun hmem => hne (List.infix_nil.mp hmem)
  · rw [← breakOn?_eq_none_iff] at hunquoted ⊢
    rw [breakOn?_append_left d.blanks_not_mem_quote hne, hunquoted]
    rfl

/-- No line of the docstring ends the block of a header at the margin. -/
theorem inside_of_mem_written {t : Text} (ht : t ∈ d.written) :
    LineForm.ofText t = .blank ∨ 0 < indentation t := by
  rcases List.mem_cons.mp ht with rfl | ht
  · exact Or.inr (d.indent_pos 0 d.first)
  · rcases List.mem_append.mp ht with ht | ht
    · obtain ⟨line, -, rfl⟩ := List.mem_map.mp ht
      unfold padLine
      split
      · exact Or.inl rfl
      · exact Or.inr (indentation_pos d.width_pos line)
    · rw [List.mem_singleton.mp ht]
      exact Or.inr (indentation_pos d.width_pos d.quote)

theorem capture_written (after : List Text) (i j : Nat) :
    Docstring.capture d.quote (d.first.rdropWhile isSpace)
      (Line.ofText i (d.openingLine d.first))
        (Line.scanFrom j (d.later.map (padLine d.width) ++ [d.closingLine] ++ after)) =
      (d.text, d.later.length + 1) := by
  rw [List.append_assoc, List.singleton_append,
    d.capture_broken (d.unquoted d.first List.mem_cons_self) fun t => d.unquoted_padLine,
    dedent_padLine d.plain d.first_flush d.later_flush d.last_ne_nil, List.length_map, text]

end WrittenDocstring

/-- A function at the margin whose body starts, perhaps behind blank lines and comments, with a
docstring of several lines is a function of the file, its docstring is the text that was
written, and its calls are those of the lines behind the closing quote. -/
theorem docstring_read_back (options : ReadingOptions) (f : SourceFile) (content : Text)
    (s : FunctionFrame) (d : WrittenDocstring) (hcontent : f.content = some content)
    (hwanted : options.docstrings = true) (hlength : options.snippetLength.integer?.isSome)
    (hlines : Text.lines content = s.lines d.written) :
    ∃ o, f.outline options = .ok o ∧ (∃ g ∈ o.functions, g.firstLine = s.firstLine) ∧
      ∀ g ∈ o.functions, g.firstLine = s.firstLine →
        g.docstring = some d.text ∧
        g.calls = bodyCalls (block 0
          ((Line.scan content).drop (s.firstLine + (s.blanks.length + d.written.length)))) := by
  obtain ⟨length, hlength⟩ := Option.isSome_iff_exists.mp hlength
  refine ⟨_, outline_eq_read hlength hcontent, s.exists_function hlines, fun g hg hfirst => ?_⟩
  have hread := s.read_openingLine hlines d.toDocstringFrame rfl (d.capture_written s.after)
  have hoffset : s.blanks.length + (d.later.length + 1 + 1) =
      s.blanks.length + d.written.length := by
    rw [WrittenDocstring.written, List.length_cons, List.length_append, List.length_map,
      List.length_singleton]
  obtain ⟨hdocstring, hcalls⟩ := s.function_eq hlines hg hfirst ((if_pos hwanted).trans hread)
  refine ⟨hdocstring, ?_⟩
  rw [hcalls, ← s.body_behind hlines fun t => d.inside_of_mem_written, hoffset]

/-- A function behind an import, with a comment in front of its docstring. -/
def commentedFunction : FunctionFrame where
  before := ["import os".toList]
  header := "def f():".toList
  blanks := ["  # c".toList]
  after := ["    h()".toList]
  header_form := by decide
  header_margin := by decide
  blanks_blank := List.forall_mem_singleton.mpr (by decide)

/-- A docstring with an empty line, a line that is indented deeper and a line that looks like a
header. -/
def steppedDocstring : WrittenDocstring where
  quote := List.replicate 3 '"'
  indent := List.replicate 4 ' '
  width := 4
  first := "a".toList
  later := [[], "  b".toList, "def g(): k()".toList]
  quote_mem := List.mem_cons_self
  indent_ne_nil := List.cons_ne_nil _ _
  indent_blank := isIndent_of_mem_blanks 4
  width_pos := by decide
  first_flush := ⟨'a', rfl, by decide⟩
  later_flush :=
    ⟨_, List.mem_cons_of_mem _ (List.mem_cons_of_mem _ List.mem_cons_self), 'd', rfl, by decide⟩
  last_ne_nil := by
    rintro line ⟨⟩
    exact List.cons_ne_nil _ _
  plain := by decide
  unquoted := by decide

/-- The empty line and the deeper one are as they were, and what looks like a header calls
nothing. -/
theorem docstring_read_back_steppedDocstring :
    ∃ o, SourceFile.outline ⟨true, .number 40⟩ ⟨"m.py".toList,
        some (unlines (commentedFunction.lines steppedDocstring.written)), none⟩ = .ok o ∧
      ∃ g ∈ o.functions, g.docstring = some "a\n\n  b\ndef g(): k()".toList ∧
        g.calls = [⟨"h".toList, 9, 5⟩] := by
  obtain ⟨o, ho, ⟨g, hg, hfirst⟩, hread⟩ :=
    docstring_read_back ⟨true, .number 40⟩ ⟨"m.py".toList,
      some (unlines (commentedFunction.lines steppedDocstring.written)), none⟩ _
        commentedFunction
    steppedDocstring rfl rfl rfl (by decide +kernel)
  obtain ⟨hdocstring, hcalls⟩ := hread g hg hfirst
  refine ⟨o, ho, g, hg, hdocstring, hcalls.trans ?_⟩
  decide +kernel

/-! ## Docstrings of one line -/

/-- A docstring of one line: a text without blanks around it, tabs and quotes. -/
structure LoneDocstring extends DocstringFrame where
  text : Text
  text_ne_nil : text ≠ []
  text_trimmed : trim text = text
  plain : IsPlainLine text
  unquoted : ∀ c ∈ text, c ∉ quote

namespace LoneDocstring

variable (d : LoneDocstring)

/-- The docstring with its closing quote behind the text. -/
def closed : List Text := [d.openingLine (d.text ++ d.quote)]

/-- The docstring with its closing quote on the next line. -/
def broken : List Text := [d.openingLine d.text, d.closingLine]

/-- The text with the line end and the blanks in front of the closing quote. -/
def trailing : Text := d.text ++ '\n' :: List.replicate d.width ' '

theorem capture_closing (after : List Text) (i j : Nat) :
    Docstring.capture d.quote ((d.text ++ d.quote).rdropWhile isSpace)
        (Line.ofText i (d.openingLine (d.text ++ d.quote))) (Line.scanFrom j ([] ++ after)) =
      (d.text, 0) := by
  have hkept : (d.text ++ d.quote).rdropWhile isSpace = d.text ++ d.quote := by
    refine List.rdropWhile_eq_self_iff.mpr fun hne => ?_
    rw [List.getLast_append_of_ne_nil _ (Docstring.ne_nil_of_mem_quotes d.quote_mem),
      d.isSpace_of_mem_quote (List.getLast_mem _)]
    exact Bool.false_ne_true
  rw [hkept, d.capture_closed d.unquoted, d.text_trimmed]

theorem isFlush_text : IsFlush d.text := by
  obtain ⟨c, t, htext⟩ := List.exists_cons_of_ne_nil d.text_ne_nil
  have hhead : c ∈ d.text.head? := by
    rw [htext]
    rfl
  exact ⟨c, hhead, visible_of_trimmed d.text_trimmed c hhead⟩

theorem capture_breaking (after : List Text) (i j : Nat) :
    Docstring.capture d.quote (d.text.rdropWhile isSpace) (Line.ofText i (d.openingLine d.text))
        (Line.scanFrom j ([d.closingLine] ++ after)) = (d.trailing, 1) := by
  have hunquoted : ¬ d.quote <:+: d.text := by
    intro hmem
    obtain ⟨c, t, hquote⟩ :=
      List.exists_cons_of_ne_nil (Docstring.ne_nil_of_mem_quotes d.quote_mem)
    have hc : c ∈ d.quote := hquote ▸ List.mem_cons_self
    exact d.unquoted c (hmem.subset hc) hc
  refine (d.capture_broken hunquoted (List.forall_mem_nil _) i j after).trans ?_
  exact congrArg (·, 1) (dedent_lone d.plain d.isFlush_text d.width_pos)

theorem trim_trailing : trim d.trailing = d.text := by
  refine Eq.trans (trimBy_append_right ?_) d.text_trimmed
  exact List.forall_mem_cons.mpr ⟨by decide, isSpace_of_mem_blanks⟩

theorem trailing_ne : d.trailing ≠ d.text := by
  intro heq
  have hlength := congrArg List.length heq
  rw [trailing, List.length_append, List.length_cons] at hlength
  omega

end LoneDocstring

/-- The same docstring of one line, once with its closing quote behind it and once with the
quote on the next line, is the docstring of a function of the file both times. The first is the
text; the second ends with a line end and the blanks in front of the quote, so that the two
agree only when they are trimmed. -/
theorem lone_docstring_keeps_blanks (options : ReadingOptions) (name : Text)
    (path : Option Text) (s : FunctionFrame) (d : LoneDocstring) (t u : Text)
    (hwanted : options.docstrings = true) (hlength : options.snippetLength.integer?.isSome)
    (hclosed : Text.lines t = s.lines d.closed) (hbroken : Text.lines u = s.lines d.broken) :
    ∃ o p, SourceFile.outline options ⟨name, some t, path⟩ = .ok o ∧
      SourceFile.outline options ⟨name, some u, path⟩ = .ok p ∧
      (∃ g ∈ o.functions, g.firstLine = s.firstLine) ∧
      (∃ h ∈ p.functions, h.firstLine = s.firstLine) ∧
      ∀ g ∈ o.functions, g.firstLine = s.firstLine →
      ∀ h ∈ p.functions, h.firstLine = s.firstLine →
        g.docstring = some d.text ∧ h.docstring = some d.trailing ∧ h.docstring ≠ g.docstring ∧
        h.docstring.map trim = g.docstring := by
  obtain ⟨length, hlength⟩ := Option.isSome_iff_exists.mp hlength
  refine ⟨_, _, outline_eq_read hlength rfl, outline_eq_read hlength rfl,
    s.exists_function hclosed, s.exists_function hbroken, fun g hg hgfirst h hh hhfirst => ?_⟩
  have hread := s.read_openingLine hclosed d.toDocstringFrame rfl (d.capture_closing s.after)
  have hread' := s.read_openingLine hbroken d.toDocstringFrame rfl (d.capture_breaking s.after)
  have hdocstring := (s.function_eq hclosed hg hgfirst ((if_pos hwanted).trans hread)).1
  have hdocstring' := (s.function_eq hbroken hh hhfirst ((if_pos hwanted).trans hread')).1
  refine ⟨hdocstring, hdocstring', ?_, ?_⟩
  · rw [hdocstring, hdocstring']
    exact fun heq => d.trailing_ne (Option.some.inj heq)
  · rw [hdocstring, hdocstring', Option.map_some, d.trim_trailing]

/-- The docstring `s`. -/
def shortDocstring : LoneDocstring where
  quote := List.replicate 3 '\''
  indent := List.replicate 4 ' '
  width := 4
  text := "s".toList
  quote_mem := List.mem_cons_of_mem _ List.mem_cons_self
  indent_ne_nil := List.cons_ne_nil _ _
  indent_blank := isIndent_of_mem_blanks 4
  width_pos := by decide
  text_ne_nil := List.cons_ne_nil _ _
  text_trimmed := by decide
  plain := by decide
  unquoted := List.forall_mem_singleton.mpr (by decide)

theorem lone_docstring_keeps_blanks_shortDocstring :
    ∃ o p, SourceFile.outline ⟨true, .number 40⟩ ⟨"m.py".toList,
        some (unlines (commentedFunction.lines shortDocstring.closed)), none⟩ = .ok o ∧
      SourceFile.outline ⟨true, .number 40⟩ ⟨"m.py".toList,
        some (unlines (commentedFunction.lines shortDocstring.broken)), none⟩ = .ok p ∧
      ∃ g ∈ o.functions, ∃ h ∈ p.functions, g.docstring = some "s".toList ∧
        h.docstring = some "s\n    ".toList := by
  obtain ⟨o, p, ho, hp, ⟨g, hg, hgfirst⟩, ⟨h, hh, hhfirst⟩, hread⟩ :=
    lone_docstring_keeps_blanks ⟨true, .number 40⟩ "m.py".toList none commentedFunction
      shortDocstring
      (unlines (commentedFunction.lines shortDocstring.closed))
      (unlines (commentedFunction.lines shortDocstring.broken)) rfl rfl (by decide +kernel)
      (by decide +kernel)
  obtain ⟨hclosed, hbroken, -, -⟩ := hread g hg hgfirst h hh hhfirst
  exact ⟨o, p, ho, hp, g, hg, h, hh, hclosed, hbroken⟩

/-- A function with the docstring `s` and nothing else has another docstring when the closing
quote is on the next line. -/
theorem broken_docstring_differs :
    (SourceFile.outline ⟨true, .number 40⟩ ⟨"m.py".toList,
        some "def f():\n    \'\'\'s\'\'\'".toList, none⟩).toOption.map
        (fun o => o.functions.map (·.docstring)) = some [some "s".toList] ∧
      (SourceFile.outline ⟨true, .number 40⟩ ⟨"m.py".toList,
        some "def f():\n    \'\'\'s\n    \'\'\'".toList, none⟩).toOption.map
        (fun o => o.functions.map (·.docstring)) = some [some "s\n    ".toList] := by
  decide +kernel

end SymbolGraph
