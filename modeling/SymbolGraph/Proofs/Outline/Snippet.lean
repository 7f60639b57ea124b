import SymbolGraph.Proofs.Graph.Outcome
import SymbolGraph.Proofs.Outline.BlankTail
import SymbolGraph.Proofs.Outline.Method
import SymbolGraph.Proofs.Outline.Padding
set_option autoImplicit false

/-!
# Pasted snippets

A snippet is trimmed before it is read, and a file is not. By name the same is found in both,
but for two cases, in which trimming changes what the lines mean. The first line loses its
indentation while the others keep theirs, so that lines may come into its block that were not
there, or it may become a header. And the lines behind the last visible one are gone, which puts
a last line in the docstring of a class before the scan for methods. Where neither is the case
(`TrimsSafely`), a snippet is read like a file with the same text (`snippet_read_as_file`). So
it is for a snippet that starts and ends with something visible (`TrimsSafely.of_isFlush`).
-/

namespace SymbolGraph

open Text

/-! ## The first line -/

/-- No header starts with a blank. -/
theorem no_header_of_blank {c : Char} (hc : isSpace c = true) (t : Text) :
    classHeader? (c :: t) = none ∧ functionHeader? (c :: t) = none := by
  have hword : ∀ word : Text, word.head?.any (! isSpace ·) = true →
      dropHead? word (c :: t) = none := by
    intro word hword
    cases word with
    | nil => cases hword
    | cons d word =>
        refine if_neg ?_
        rintro rfl
        rw [List.head?_cons, Option.any_some, hc] at hword
        cases hword
  have hasync : asyncMark (c :: t) = (none, c :: t) := by
    rw [asyncMark, hword _ (by decide)]
  rw [classHeader?, functionHeader?, hasync, hword _ (by decide)]
  dsimp only
  rw [hword _ (by decide)]
  exact ⟨rfl, rfl⟩

theorem isHeader_of_isPlain {form : LineForm} (hplain : form.isPlain = true) :
    form.isHeader = false :=
  (LineForm.of_isPlain hplain).2.2

/-- A line that starts with a blank other than those of the indentation is no header. -/
theorem isHeader_cons_of_blank {c : Char} (hc : isSpace c = true) (hindent : isIndent c = false)
    (t : Text) : (LineForm.ofText (c :: t)).isHeader = false := by
  have hhead : ∀ d ∈ (c :: t).head?, isIndent d = false := forall_head?_cons hindent t
  obtain ⟨hclass, hfunction⟩ := no_header_of_blank hc t
  unfold LineForm.ofText
  split
  · rfl
  · rfl
  · simp only [dropWhile_of_head hhead, hclass, hfunction]
    split
    · rfl
    · exact isHeader_of_isPlain (isPlain_of_no_header _ _)

/-- A header behind blanks is the same header without them. -/
theorem form_of_isHeader_append {pad t : Text} (hpad : ∀ c ∈ pad, isSpace c = true)
    (hheader : (LineForm.ofText (pad ++ t)).isHeader = true) :
    LineForm.ofText (pad ++ t) = LineForm.ofText t := by
  have hindent : ∀ c ∈ pad.takeWhile isIndent, isIndent c = true :=
    fun c hc => List.mem_takeWhile_imp hc
  have hfront := form_append_left hindent (pad.dropWhile isIndent ++ t)
  rw [← List.append_assoc, List.takeWhile_append_dropWhile] at hfront
  rcases hfront with heq | ⟨indent, name, value, -, hassigned⟩
  · cases hrest : pad.dropWhile isIndent with
    | nil => rw [heq, hrest, List.nil_append]
    | cons c rest =>
        have hc : isSpace c = true := hpad c
          (List.dropWhile_sublist isIndent |>.subset (hrest ▸ List.mem_cons_self))
        have hnot : isIndent c = false := by
          have hhead := List.head?_dropWhile_not isIndent pad
          rw [hrest] at hhead
          exact hhead
        rw [heq, hrest, List.cons_append, isHeader_cons_of_blank hc hnot] at hheader
        cases hheader
  · rw [hassigned] at hheader
    cases hheader

/-! ## Headers with one block -/

/-- A docstring is read alike behind headers that have the same block. -/
theorem Docstring.read_of_block {indent indent' : Int} {after : List Line}
    (hblock : block indent after = block indent' after) :
    read indent (block indent after).length after =
      read indent' (block indent after).length after := by
  induction after with
  | nil => rfl
  | cons l after ih =>
      have hcons : ∀ i, block i (l :: after) = if l.inBlock i then l :: block i after else [] :=
        fun i => List.takeWhile_cons
      rw [hcons, hcons] at hblock
      rw [hcons]
      cases hblank : l.isBlank with
      | true =>
          have hin : ∀ i, l.inBlock i = true := fun i => by simp [Line.inBlock, hblank]
          rw [if_pos (hin indent), if_pos (hin indent')] at hblock
          rw [if_pos (hin indent), List.length_cons, read_cons_of_blank hblank,
            read_cons_of_blank hblank, ih (List.cons.inj hblock).2]
      | false =>
          cases hin : l.inBlock indent with
          | false => rfl
          | true =>
              have hin' : l.inBlock indent' = true := by
                by_contra hout
                rw [if_pos hin, if_neg hout] at hblock
                cases hblock
              have hdeeper := Line.lt_indent_of_inBlock hin hblank
              have hdeeper' := Line.lt_indent_of_inBlock hin' hblank
              rw [if_pos rfl, List.length_cons, read_cons_of_not_blank hblank,
                read_cons_of_not_blank hblank, if_neg (Int.not_le.mpr hdeeper),
                if_neg (Int.not_le.mpr hdeeper')]

section

variable {l m : Line} {after : List Line} (hform : l.form = m.form)
  (hblock : block l.indent after = block m.indent after)
include hform hblock

omit hform in
theorem readIf_of_block (wanted : Bool) :
    Docstring.readIf wanted l.indent (block l.indent after).length after =
      Docstring.readIf wanted m.indent (block l.indent after).length after := by
  cases wanted with
  | false => rfl
  | true => exact Docstring.read_of_block hblock

theorem naming?_of_block (options : OutlineOptions) :
    l.naming? options after = m.naming? options after := by
  have hdoc := readIf_of_block hblock options.docstrings
  cases hl : l.form with
  | functionHeader async name parameters hint =>
      rw [naming?_function options hl, naming?_function options (hform.symm.trans hl),
        Line.callNames, Line.callNames, hdoc, hblock]
  | classHeader name bases =>
      rw [naming?_class options hl, naming?_class options (hform.symm.trans hl),
        Line.classMethodNames, Line.classMethodNames, Line.scanStart, Line.scanStart,
        hdoc, hblock]
  | _ =>
      have hheader : l.form.isHeader = false := by
        rw [hl]
        rfl
      rw [Line.naming?_eq_none options after hheader,
        Line.naming?_eq_none options after (hform ▸ hheader)]

theorem taken_of_block : l.taken after = m.taken after := by
  rw [Line.taken, Line.taken, hform, hblock]

end

/-- Without the blanks in front of it, the line is no header, or it is one anyway and its block
is the same. -/
def Line.KeepsBlock (l : Line) (after : List Line) : Prop :=
  (LineForm.ofText l.content).isHeader = true →
    l.form.isHeader = true ∧ block l.indent after = block 0 after

instance (l : Line) (after : List Line) : Decidable (l.KeepsBlock after) :=
  inferInstanceAs (Decidable (_ → _ ∧ _))

section

variable {t : Text} (ht : IsFlush t)
include ht

/-- Blanks behind a line do not make it a header. -/
theorem isHeader_trim : (LineForm.ofText (trim t)).isHeader = (LineForm.ofText t).isHeader := by
  obtain ⟨back, heq, hback⟩ := ht.exists_append_trim
  have hhead : ∀ d ∈ (trim t).head?, isIndent d = false := fun d hd =>
    Bool.eq_false_iff.mpr fun hindent =>
      absurd ((head?_trim t d hd).symm.trans (isSpace_of_isIndent hindent)) Bool.false_ne_true
  have hdrop : (trim t).dropWhile isIndent ≠ [] := by
    rw [dropWhile_of_head hhead]
    exact ht.trim_ne_nil
  rcases form_append_right hback hdrop with hform | ⟨hplain, hplain'⟩
  · rw [← hform, ← heq]
  · rw [← heq] at hplain'
    rw [isHeader_of_isPlain hplain, isHeader_of_isPlain hplain']

theorem indentation_eq_zero : indentation t = 0 := by
  obtain ⟨c, hc, hvisible⟩ := ht
  obtain ⟨rest, rfl⟩ := List.head?_eq_some_iff.mp hc
  have hindent : ¬ isIndent c = true := fun h =>
    absurd (hvisible.symm.trans (isSpace_of_isIndent h)) Bool.false_ne_true
  rw [indentation, List.takeWhile_cons_of_neg hindent, List.length_nil]

/-- Blanks in front of the first line change nothing by name where its block does not change. -/
theorem namings_unpad (options : OutlineOptions) {i : Nat} {pad : Text}
    (hpad : ∀ c ∈ pad, isSpace c = true) {after : List Line}
    (hkeeps : (Line.ofText i (pad ++ t)).KeepsBlock after) :
    namings options (Line.ofText i (pad ++ t) :: after) =
      namings options (Line.ofText i t :: after) := by
  have hcontent : (Line.ofText i (pad ++ t)).content = trim t := trimBy_append_left hpad
  rw [namings_cons, namings_cons]
  cases hheader : (LineForm.ofText t).isHeader with
  | true =>
      obtain ⟨hthere, hblock⟩ := hkeeps (by rw [hcontent, isHeader_trim ht, hheader])
      have hform : (Line.ofText i (pad ++ t)).form = (Line.ofText i t).form :=
        form_of_isHeader_append hpad hthere
      have hindent : (Line.ofText i t).indent = 0 := indentation_eq_zero ht
      have hsame : block (Line.ofText i (pad ++ t)).indent after =
          block (Line.ofText i t).indent after := by
        rw [hblock, hindent]
        rfl
      rw [naming?_of_block hform hsame, taken_of_block hform hsame]
  | false =>
      have hthere : (Line.ofText i (pad ++ t)).form.isHeader = false := by
        refine Bool.eq_false_iff.mpr fun hpadded => ?_
        have hform : LineForm.ofText (pad ++ t) = LineForm.ofText t :=
          form_of_isHeader_append hpad hpadded
        exact absurd (hheader.symm.trans (hform ▸ hpadded)) Bool.false_ne_true
      have hhere : (Line.ofText i t).form.isHeader = false := hheader
      rw [Line.naming?_eq_none options after hthere, Line.naming?_eq_none options after hhere,
        Line.taken_eq_zero after hthere, Line.taken_eq_zero after hhere]

end

/-! ## Trimmed texts -/

theorem isVoid_ofText (i : Nat) {raw : Text} (hraw : ∀ c ∈ raw, isSpace c = true) :
    (Line.ofText i raw).IsVoid := by
  have htrim : trim raw = [] := trim_eq_nil_iff.mpr hraw
  refine ⟨?_, fun quote hquote => breakOn?_eq_none_iff.mpr fun hmem => ?_⟩
  · have hform : LineForm.ofText raw = .blank := by
      rw [LineForm.ofText, htrim]
    rw [Line.isBlank, Line.ofText, hform]
    rfl
  · obtain ⟨c, rest, hc⟩ := List.exists_cons_of_ne_nil (Docstring.ne_nil_of_mem_quotes hquote)
    have hc : c ∈ quote := hc ▸ List.mem_cons_self
    exact Docstring.not_mem_of_mem_quotes hquote (hraw c (hmem.subset hc)) hc

theorem isVoid_of_mem_scanFrom {n : Nat} {texts : List Text}
    (htexts : ∀ t ∈ texts, ∀ c ∈ t, isSpace c = true) {l : Line}
    (hl : l ∈ Line.scanFrom n texts) : l.IsVoid := by
  obtain ⟨i, t, ht, rfl⟩ := Line.exists_of_mem_scanFrom hl
  exact isVoid_ofText i (htexts t ht)

theorem scanFrom_add (m n : Nat) (texts : List Text) :
    Line.scanFrom (m + n) texts = (Line.scanFrom m texts).map (Line.shift n) := by
  induction texts generalizing m with
  | nil => rfl
  | cons t texts ih =>
      rw [Line.scanFrom_cons, Line.scanFrom_cons, List.map_cons, ← ih, Nat.add_right_comm]
      rfl

theorem Line.Alongside.refl (l : Line) : l.Alongside 0 l where
  index := rfl
  indent := rfl
  content := rfl
  form := Or.inl rfl
  callSites := by
    have hmoved : CallSite.moveRight 0 = id := funext fun c => by simp [CallSite.moveRight]
    rw [hmoved, List.map_id]
  quotes := fun _ _ => rfl

/-- Blanks behind a line with something visible on it change nothing by name. -/
theorem namings_untail (options : OutlineOptions) (rest back : List Text) {last tail : Text}
    (hlast : trim last ≠ []) (htail : ∀ c ∈ tail, isSpace c = true) :
    namings options (Line.scanFrom 0 (rest ++ (last ++ tail) :: back)) =
      namings options (Line.scanFrom 0 (rest ++ last :: back)) := by
  have hsame : ∀ ls : List Line, List.Forall₂ (Line.Alongside 0) ls ls := fun ls =>
    List.forall₂_same.mpr fun l _ => .refl l
  rw [Line.scanFrom_append, Line.scanFrom_append, Line.scanFrom_cons, Line.scanFrom_cons]
  refine namings_alongside options (List.rel_append (hsame _) (.cons ?_ (hsame _)))
  exact alongside_append_right htail _ hlast

/-- The lines of a text from the first one with something visible on it. -/
def visibleLines (s : Text) : List Line := (Line.scan s).dropWhile (·.content.isEmpty)

/-- Trimming does not change what the lines of a text mean. The first line with something
visible on it keeps its block without the blanks in front of it. If lines follow the last one
with something visible on it, then that is not a function header which the docstring of a class
takes in. -/
structure TrimsSafely (docstrings : Bool) (s : Text) : Prop where
  first : ∀ l ∈ (visibleLines s).head?, l.KeepsBlock (visibleLines s).tail
  last : (∀ line ∈ (lines s).getLast?, trim line = []) →
    ∀ i < (Line.scan (trim s)).length, ∀ l ∈ (Line.scan (trim s))[i]?,
      l.SparesLast docstrings ((Line.scan (trim s)).drop (i + 1))

instance (docstrings : Bool) (s : Text) : Decidable (TrimsSafely docstrings s) :=
  decidable_of_iff ((∀ l ∈ (visibleLines s).head?, l.KeepsBlock (visibleLines s).tail) ∧
      ((∀ line ∈ (lines s).getLast?, trim line = []) →
        ∀ i < (Line.scan (trim s)).length, ∀ l ∈ (Line.scan (trim s))[i]?,
          l.SparesLast docstrings ((Line.scan (trim s)).drop (i + 1))))
    ⟨fun h => ⟨h.1, h.2⟩, fun h => ⟨h.first, h.last⟩⟩

section

variable {front later rest back : List Text} {pad first last tail : Text}

/-- If lines follow the last visible one, the last line is one of them. -/
theorem getLast?_of_middle (hmiddle : first :: later = rest ++ (last ++ tail) :: back)
    (hne : back ≠ []) : (front ++ (pad ++ first) :: later).getLast? = back.getLast? := by
  have hlater : later ≠ [] := by
    rintro rfl
    have hlength := congrArg List.length hmiddle
    have hpos := List.length_pos_of_ne_nil hne
    simp only [List.length_append, List.length_cons, List.length_nil] at hlength
    omega
  have hlast := congrArg List.getLast? hmiddle
  rw [List.getLast?_cons_of_ne_nil hlater,
    List.getLast?_append_of_ne_nil _ (List.cons_ne_nil _ _), List.getLast?_cons_of_ne_nil hne]
    at hlast
  rw [List.getLast?_append_of_ne_nil _ (List.cons_ne_nil _ _),
    List.getLast?_cons_of_ne_nil hlater, hlast]

variable {s : Text} (hlines : lines s = front ++ (pad ++ first) :: later)
include hlines

theorem scan_around :
    Line.scan s = Line.scanFrom 0 front ++
      Line.ofText front.length (pad ++ first) :: Line.scanFrom (front.length + 1) later := by
  rw [Line.scan_eq_scanFrom, hlines, Line.scanFrom_append, Nat.zero_add, Line.scanFrom_cons]

theorem visibleLines_eq (hfront : ∀ line ∈ front, ∀ c ∈ line, isSpace c = true)
    (hfirst : IsFlush first) :
    visibleLines s =
      Line.ofText front.length (pad ++ first) :: Line.scanFrom (front.length + 1) later := by
  have hrun : ∀ l ∈ Line.scanFrom 0 front, l.content.isEmpty = true := by
    intro l hl
    obtain ⟨i, t, ht, rfl⟩ := Line.exists_of_mem_scanFrom hl
    exact List.isEmpty_iff.mpr (trim_eq_nil_iff.mpr (hfront t ht))
  have hstop : ¬ (Line.ofText front.length (pad ++ first)).content.isEmpty = true := by
    obtain ⟨c, hc, hvisible⟩ := hfirst
    exact fun hempty =>
      trim_ne_nil_of_mem (List.mem_append_right pad (List.mem_of_mem_head? hc)) hvisible
      (List.isEmpty_iff.mp hempty)
  rw [visibleLines, scan_around hlines, List.dropWhile_append_of_pos hrun]
  exact List.dropWhile_cons_of_neg hstop

end

/-- A line that starts with something visible keeps its block. -/
theorem Line.keepsBlock_of_isFlush (i : Nat) {raw : Text} (hraw : IsFlush raw)
    (after : List Line) : (Line.ofText i raw).KeepsBlock after := by
  intro hheader
  have hindent : (Line.ofText i raw).indent = 0 := indentation_eq_zero hraw
  refine ⟨(isHeader_trim hraw).symm.trans hheader, ?_⟩
  rw [hindent]
  rfl

/-- Without docstrings the scan for methods starts right behind the header. -/
theorem Line.sparesLast_of_unwanted (l : Line) (after : List Line) : l.SparesLast false after :=
  fun _ _ _ hlast _ => List.length_pos_of_mem (List.mem_of_mem_getLast? hlast)

/-- Trimming is safe for a text that starts with something visible, if no docstrings are read or
something visible stands on its last line. -/
theorem TrimsSafely.of_isFlush {docstrings : Bool} {s : Text} (hflush : IsFlush s)
    (hend : docstrings = false ∨ ∃ line ∈ (lines s).getLast?, trim line ≠ []) :
    TrimsSafely docstrings s where
  first := by
    have hhead := hflush.head
    obtain ⟨c, hc, hvisible⟩ := hflush
    obtain ⟨first, later, hlines⟩ :=
      List.exists_cons_of_ne_nil (split_ne_nil '\n' (normalizeNewlines s))
    have hstart : c ∈ (normalizeNewlines s).head? := by rwa [head?_normalizeNewlines hhead]
    have hfirst : IsFlush first := ⟨c, head?_first hlines hstart hvisible, hvisible⟩
    have hvisibleLines :=
      @visibleLines_eq [] later [] first s hlines (List.forall_mem_nil _) hfirst
    rw [hvisibleLines]
    rintro l ⟨⟩
    exact Line.keepsBlock_of_isFlush _ hfirst _
  last := by
    rcases hend with rfl | ⟨line, hline, hvisible⟩
    · exact fun _ i _ l _ => l.sparesLast_of_unwanted _
    · exact fun hblank => absurd (hblank line hline) hvisible

/-- Where trimming is safe, the same is declared by name. -/
theorem namings_trim (options : OutlineOptions) {s : Text} (hvisible : trim s ≠ [])
    (hsafe : TrimsSafely options.docstrings s) :
    namings options (Line.scan (trim s)) = namings options (Line.scan s) := by
  obtain ⟨front, pad, first, later, rest, last, tail, back, hlines, hmiddle, htrimmed,
    hfront, hback, hfirst, hlast⟩ := exists_lines_trim hvisible
  have hfront' : ∀ line ∈ front, ∀ c ∈ line, isSpace c = true := fun line hline =>
    hfront line (List.mem_append_left _ hline)
  have hback' : ∀ line ∈ back, ∀ c ∈ line, isSpace c = true := fun line hline =>
    hback line (List.mem_cons_of_mem tail hline)
  have hscan : Line.scan (trim s) = Line.scanFrom 0 (rest ++ [last]) := by
    rw [Line.scan_eq_scanFrom, htrimmed]
  have hkeeps : (Line.ofText front.length (pad ++ first)).KeepsBlock
      (Line.scanFrom (front.length + 1) later) := by
    have hheader := hsafe.first
    rw [visibleLines_eq hlines hfront' hfirst] at hheader
    exact hheader _ rfl
  have hspares : Line.scanFrom (0 + (rest ++ [last]).length) back ≠ [] → ∀ l after,
      l :: after <:+ Line.scan (trim s) → l.SparesLast options.docstrings after := by
    intro hne l after hsuffix
    obtain ⟨i, hl, rfl⟩ := exists_place_of_suffix hsuffix
    refine hsafe.last (fun line hline => ?_) i (List.getElem?_eq_some_iff.mp hl).1 l hl
    rw [hlines, getLast?_of_middle hmiddle fun hnil => hne (by rw [hnil]; rfl)] at hline
    exact trim_eq_nil_iff.mpr (hback' line (List.mem_of_mem_getLast? hline))
  calc namings options (Line.scan (trim s))
      = namings options
        (Line.scan (trim s) ++ Line.scanFrom (0 + (rest ++ [last]).length) back) :=
        (namings_append_void (fun l => isVoid_of_mem_scanFrom hback') options hspares).symm
    _ = namings options (Line.scanFrom 0 (rest ++ last :: back)) := by
        rw [hscan, ← Line.scanFrom_append, List.append_assoc, List.singleton_append]
    _ = namings options (Line.scanFrom 0 (first :: later)) := by
        rw [hmiddle, namings_untail options rest back hlast (hback tail List.mem_cons_self)]
    _ = namings options (Line.scanFrom (0 + front.length) (first :: later)) := by
        rw [scanFrom_add, namings_shift]
    _ = namings options (Line.ofText front.length (pad ++ first) ::
          Line.scanFrom (front.length + 1) later) := by
        rw [Nat.zero_add, Line.scanFrom_cons,
          namings_unpad hfirst options
            (hfront pad (List.mem_append_right _ List.mem_cons_self)) hkeeps]
    _ = namings options (Line.scan s) := by
        rw [scan_around hlines, namings_append_of_no_header options fun l hl =>
          isHeader_of_isVoid (isVoid_of_mem_scanFrom hfront' hl)]

/-! ## Snippets and files -/

/-- Texts that declare the same by name have parts of one kind with the same names. -/
theorem parts_of_namings {α : Type} {part? : Declaration → Option α} {view : α → Naming}
    (kind : NodeKind)
    (hpart : ∀ d, (part? d).map view = if d.naming.kind = kind then some d.naming else none)
    {options : OutlineOptions} {ls ms : List Line}
    (hnamings : namings options ls = namings options ms) :
    ((declarations options ls).filterMap part?).map view =
      ((declarations options ms).filterMap part?).map view := by
  have hview : ∀ ds : List Declaration,
      (ds.filterMap part?).map view = (ds.map Declaration.naming).filter (·.kind = kind) :=
    filterMap_part fun d => by simp only [hpart, decide_eq_true_eq]
  rw [hview, hview]
  exact congrArg (List.filter _) hnamings

/-- A single source within the limits is outlined. -/
theorem outlineSources_single {maxFiles maxTotal : Int} {reading : ReadingOptions}
    {files : List SourceFile} {snippets : List (Option Text)} {f : SourceFile} {o : Outline}
    (hsources : gatherSources files snippets = [f]) (hfiles : 1 ≤ maxFiles)
    (hsize : (f.size : Int) ≤ maxTotal) (houtline : f.outline reading = .ok o) :
    outlineSources ⟨.number maxFiles, .number maxTotal, reading⟩ files snippets = .ok [o] := by
  have hone : outlines reading [f] = .ok [o] := by
    rw [outlines, houtline]
    rfl
  have htotal : ¬ maxTotal < totalSize [f] := by
    rw [totalSize, List.foldl_cons, List.foldl_nil, Nat.zero_add]
    omega
  rw [outlineSources, prepareSources_number, hsources, if_neg (List.cons_ne_nil f []),
    if_neg (by rw [List.length_singleton]; omega), if_neg htotal]
  exact hone

/-- A snippet with something visible in it and a file with the same text are both outlined
within the limits. Where trimming is safe, the classes of the two have the same names and the
same methods, and the functions the same names and the same calls. -/
theorem snippet_read_as_file (maxFiles maxTotal : Int) (reading : ReadingOptions) (s : Text)
    (hvisible : trim s ≠ []) (hfiles : 1 ≤ maxFiles) (htotal : (s.length : Int) ≤ maxTotal)
    (hlength : reading.snippetLength.integer?.isSome) :
    ∃ o p, outlineSources ⟨.number maxFiles, .number maxTotal, reading⟩ [pastedFile 1 s] [] =
      .ok [o] ∧
      outlineSources ⟨.number maxFiles, .number maxTotal, reading⟩ [] [some s] = .ok [p] ∧
      (TrimsSafely reading.docstrings s →
        p.classes.map ClassDecl.naming = o.classes.map ClassDecl.naming ∧
        p.functions.map FunctionDecl.naming = o.functions.map FunctionDecl.naming) := by
  obtain ⟨length, hlength⟩ := Option.isSome_iff_exists.mp hlength
  have hshorter : ((trim s).length : Int) ≤ maxTotal :=
    Int.le_trans (Int.ofNat_le.mpr (infix_trim s).length_le) htotal
  have hsources : gatherSources [] [some s] = [pastedFile 1 (trim s)] := by
    simp [gatherSources, pastedFiles, hvisible]
  refine ⟨_, _, outlineSources_single rfl hfiles htotal (outline_eq_read hlength rfl),
    outlineSources_single hsources hfiles hshorter (outline_eq_read hlength rfl),
    fun hsafe => ?_⟩
  have hnamings := namings_trim ⟨reading.docstrings, length⟩ hvisible hsafe
  exact ⟨parts_of_namings .class_ (fun d => by cases d <;> rfl) hnamings,
    parts_of_namings .function (fun d => by cases d <;> rfl) hnamings⟩

/-- An indented class with a docstring, between blank lines. Its last line is the header of a
method. -/
def indentedClass : Text := "\n  class A:\n    \'\'\'d\'\'\'\n    def m(self): f()\n\n".toList

/-- Limits that a few lines keep. -/
def narrowOptions : AnalysisOptions := ⟨.number 1, .number 60, ⟨true, .number 40⟩⟩

/-- The class is read with its method although it loses its indentation. -/
theorem snippet_read_as_file_indentedClass :
    trim indentedClass ≠ [] ∧ TrimsSafely true indentedClass ∧
    ∃ p, outlineSources narrowOptions [] [some indentedClass] = .ok [p] ∧
      p.classes.map ClassDecl.naming = [⟨.class_, "A".toList, ["m".toList]⟩] := by
  have hvisible : trim indentedClass ≠ [] := by decide +kernel
  have hsafe : TrimsSafely true indentedClass := by decide +kernel
  obtain ⟨o, p, ho, hp, hsame⟩ :=
    snippet_read_as_file 1 60 ⟨true, .number 40⟩ indentedClass hvisible
    (by decide) (by decide +kernel) rfl
  have hfile : (outlineSources narrowOptions [pastedFile 1 indentedClass] []).toOption.map
      (fun os => os.map fun o => o.classes.map ClassDecl.naming) =
      some [[⟨.class_, "A".toList, ["m".toList]⟩]] := by decide +kernel
  rw [narrowOptions, ho] at hfile
  refine ⟨hvisible, hsafe, p, hp, ?_⟩
  rw [(hsame hsafe).1]
  exact (List.cons.inj (Option.some.inj hfile)).1

/-- Two functions at one indentation. -/
def indentedFunctions : Text := "  def f():\n    x()\n  def g():\n    y()".toList

/-- A class whose docstring ends on a line that looks like a header, with a line end behind
it. -/
def headerInClassDocstring : Text := "class A:\n    \'\'\'doc\n    def f(): \'\'\'\n".toList

/-- What is reported of sources by name: classes with their methods, and functions with their
calls. -/
def reportedNames (files : List SourceFile) (snippets : List (Option Text)) :
    Option (List (List Naming × List Naming)) :=
  (outlineSources narrowOptions files snippets).toOption.map fun os =>
    os.map fun o => (o.classes.map ClassDecl.naming, o.functions.map FunctionDecl.naming)

/-- As a snippet, the second of two indented functions is in the block of the first, and a
header at the end of a class's docstring is a method. As files the texts are read otherwise. -/
theorem snippet_read_otherwise :
    reportedNames [] [some indentedFunctions] =
        some [([], [⟨.function, "f".toList, ["x".toList, "y".toList]⟩])] ∧
      reportedNames [pastedFile 1 indentedFunctions] [] =
        some
          [([], [⟨.function, "f".toList, ["x".toList]⟩,
            ⟨.function, "g".toList, ["y".toList]⟩])] ∧
      reportedNames [] [some headerInClassDocstring] =
        some [([⟨.class_, "A".toList, ["f".toList]⟩], [])] ∧
      reportedNames [pastedFile 1 headerInClassDocstring] [] =
        some [([⟨.class_, "A".toList, []⟩], [])] := by
  decide +kernel

end SymbolGraph
