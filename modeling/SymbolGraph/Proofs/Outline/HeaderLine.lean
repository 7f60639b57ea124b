import SymbolGraph.Proofs.Line.Place
import SymbolGraph.Proofs.Line.Rendering
import SymbolGraph.Proofs.Outline.Caller
set_option autoImplicit false

/-!
# Headers are read back

A function header is written as `def name(a, b):`, with `async` in front and `-> hint` behind
the parentheses as they occur, and a class header as `class Name(a, b):` or `class Name:`.
Whatever stands behind the colon and however far the line is indented, the declaration that an
outline has for the line has the parts that were written.

Parameters may hold colons, equals signs, arrows, opening brackets and quotes: the parentheses
end at the first closing one, and only commas are looked for between them. A hint may hold
anything but a colon.
-/

namespace SymbolGraph

open Text

/-! ## Lines with a header -/

/-- A text that can be a parameter or a base: an item of a list that does not close the
parentheses. -/
structure IsArgument (t : Text) : Prop extends IsItem t where
  parenthesisFree : ')' ∉ t

instance : DecidablePred IsArgument := fun t =>
  decidable_of_iff (IsItem t ∧ ')' ∉ t)
    ⟨fun h => ⟨h.1, h.2⟩, fun h => ⟨h.toIsItem, h.parenthesisFree⟩⟩

/-- A text that can be a hint: not empty, without blanks around it and without a colon. -/
structure IsHint (t : Text) : Prop where
  ne_nil : t ≠ []
  trimmed : trim t = t
  colonFree : ':' ∉ t

instance : DecidablePred IsHint := fun t =>
  decidable_of_iff (t ≠ [] ∧ trim t = t ∧ ':' ∉ t)
    ⟨fun h => ⟨h.1, h.2.1, h.2.2⟩, fun h => ⟨h.ne_nil, h.trimmed, h.colonFree⟩⟩

/-- Arguments with commas between them. -/
def argumentList (ts : List Text) : Text := join [',', ' '] ts

/-- A line with the header of a function. -/
structure FunctionLine where
  indent : Text
  isAsync : Bool
  name : Text
  parameters : List Text
  hint : Option Text
  /-- What stands behind the colon. -/
  behind : Text
  indent_blank : ∀ c ∈ indent, isIndent c = true
  name_identifier : IsIdentifier name
  parameters_arguments : ∀ p ∈ parameters, IsArgument p
  hint_valid : ∀ h ∈ hint, IsHint h

namespace FunctionLine

/-- The arrow with the hint, if there is one, and the colon with what stands behind it. -/
def ending (l : FunctionLine) : Text :=
  match l.hint with
  | none => ':' :: l.behind
  | some h => " -> ".toList ++ h ++ ':' :: l.behind

/-- What stands behind the word `def` and a blank. -/
def signature (l : FunctionLine) : Text :=
  l.name ++ '(' :: (argumentList l.parameters ++ ')' :: l.ending)

/-- The text of the line. -/
def text (l : FunctionLine) : Text :=
  l.indent ++ ((if l.isAsync then "async ".toList else []) ++ ("def ".toList ++ l.signature))

/-- The function has what the header says. -/
structure Describes (l : FunctionLine) (f : FunctionDecl) : Prop where
  name : f.name = l.name
  parameters : f.parameters = l.parameters
  returnHint : f.returnHint = l.hint
  isAsync : f.isAsync = some l.isAsync
  /-- Private functions are those whose names start with an underscore. -/
  isPrivate : f.isPrivate = some (decide (l.name.head? = some '_'))

end FunctionLine

/-- A line with the header of a class. -/
structure ClassLine where
  indent : Text
  name : Text
  /-- The bases, if there are parentheses for them. -/
  bases : Option (List Text)
  /-- What stands behind the colon. -/
  behind : Text
  indent_blank : ∀ c ∈ indent, isIndent c = true
  name_identifier : IsIdentifier name
  bases_arguments : ∀ bs ∈ bases, ∀ b ∈ bs, IsArgument b

namespace ClassLine

/-- The bases in parentheses, if there are any, and the colon with what stands behind it. -/
def ending (l : ClassLine) : Text :=
  match l.bases with
  | none => ':' :: l.behind
  | some bs => '(' :: (argumentList bs ++ ')' :: ':' :: l.behind)

/-- The text of the line. -/
def text (l : ClassLine) : Text := l.indent ++ ("class ".toList ++ (l.name ++ l.ending))

/-- The class has what the header says. -/
structure Describes (l : ClassLine) (c : ClassDecl) : Prop where
  name : c.name = l.name
  bases : c.bases = l.bases.getD []

end ClassLine

/-! ## Parts of a header -/

theorem identifier?_append {name t : Text} (hname : IsIdentifier name)
    (ht : ∀ c ∈ t.head?, isWord c = false) : identifier? (name ++ t) = some (name, t) := by
  cases name with
  | nil => exact absurd rfl hname.ne_nil
  | cons c cs =>
      obtain ⟨hstart, hwords⟩ := hname
      rw [List.cons_append, identifier?, if_pos hstart, takeWhile_run hwords ht,
        dropWhile_run hwords ht]

theorem visible_identifier {name t : Text} (hname : IsIdentifier name) :
    ∀ c ∈ (name ++ t).head?, isSpace c = false := by
  cases name with
  | nil => exact absurd rfl hname.ne_nil
  | cons c cs =>
      exact forall_head?_cons (isSpace_of_isDottedChar (isDottedChar_of_isNameStart hname.1)) _

theorem parenthesised?_append {inner t : Text} (hinner : ')' ∉ inner) :
    parenthesised? ('(' :: (inner ++ ')' :: t)) = some (inner, t) := by
  rw [parenthesised?, dropWhile_until hinner, takeWhile_until hinner]
  rfl

theorem not_mem_argumentList {ts : List Text} (hts : ∀ t ∈ ts, IsArgument t) :
    ')' ∉ argumentList ts := by
  intro hmem
  rcases mem_join hmem with hglue | ⟨t, ht, hc⟩
  · exact absurd hglue (by decide)
  · exact (hts t ht).parenthesisFree hc

theorem commaList_argumentList {ts : List Text} (hts : ∀ t ∈ ts, IsArgument t) :
    commaList (argumentList ts) = ts :=
  commaList_join fun t ht => (hts t ht).toIsItem

/-- A text without blanks around it starts with something visible. -/
theorem visible_of_trimmed {t : Text} (ht : trim t = t) : ∀ c ∈ t.head?, isSpace c = false := by
  intro c hc
  cases t with
  | nil => cases hc
  | cons d cs =>
      obtain rfl := Option.some.inj hc
      refine Bool.eq_false_iff.mpr fun hspace => ?_
      -- without the blank the text would be longer than what is left of it
      have hlength := (infix_trim cs).length_le
      rw [← trim_cons_blank hspace, ht, List.length_cons] at hlength
      omega

/-- The hint ends at the colon. -/
theorem returnHint?_append {h : Text} (hh : IsHint h) (t : Text) :
    returnHint? (' ' :: (h ++ ':' :: t)) = some h := by
  have hvisible : ∀ c ∈ (h ++ ':' :: t).head?, isSpace c = false := by
    rw [List.head?_append_of_ne_nil _ hh.ne_nil]
    exact visible_of_trimmed hh.trimmed
  refine afterBlanks_blank hvisible ?_
  simp only [dropWhile_until hh.colonFree, takeWhile_until hh.colonFree]
  exact Option.filter_some_pos (decide_eq_true hh.ne_nil)

/-! ## The form of the line -/

theorem ofText_of_functionHeader? {indent t : Text} {c : Char} {form : LineForm}
    (hindent : ∀ d ∈ indent, isIndent d = true) (hvisible : isSpace c = false)
    (hcomment : c ≠ '#') (hdecorator : c ≠ '@') (hclass : classHeader? (c :: t) = none)
    (hread : functionHeader? (c :: t) = some form) :
    LineForm.ofText (indent ++ c :: t) = form := by
  rw [LineForm.ofText_indented hindent hvisible hcomment hdecorator, hclass, hread]
  rfl

namespace FunctionLine

variable (l : FunctionLine)

/-- The text of the word `async` as the form has it. -/
def mark : Option Text := if l.isAsync then some "async ".toList else none

theorem asyncMark_text :
    asyncMark ((if l.isAsync then "async ".toList else []) ++ ("def ".toList ++ l.signature)) =
      (l.mark, "def ".toList ++ l.signature) := by
  unfold mark
  cases l.isAsync with
  | false => rfl
  | true => rfl

/-- Behind the parentheses the hint and the colon are read. -/
theorem functionHeader?_text :
    functionHeader?
      ((if l.isAsync then "async ".toList else []) ++ ("def ".toList ++ l.signature)) =
      some (.functionHeader l.mark l.name (argumentList l.parameters) l.hint) := by
  have hdef : dropHead? "def".toList ("def ".toList ++ l.signature) =
      some (' ' :: l.signature) :=
    dropHead?_append "def".toList (' ' :: l.signature)
  have hopening : ∀ c ∈ ('(' :: (argumentList l.parameters ++ ')' :: l.ending)).head?,
      isWord c = false :=
    forall_head?_cons (by decide) _
  have hname : afterSomeBlanks identifier? (' ' :: l.signature) =
      some (l.name, '(' :: (argumentList l.parameters ++ ')' :: l.ending)) := by
    rw [signature, afterSomeBlanks_blank (visible_identifier l.name_identifier)]
    exact identifier?_append l.name_identifier hopening
  have hparameters : parenthesised?
      (trimLeft ('(' :: (argumentList l.parameters ++ ')' :: l.ending))) =
      some (argumentList l.parameters, l.ending) :=
    parenthesised?_append (not_mem_argumentList l.parameters_arguments)
  simp only [functionHeader?, asyncMark_text, hdef, hname, hparameters, Option.bind_eq_bind,
    Option.bind_some]
  unfold ending
  -- what follows the parentheses is either the colon or the arrow, and no parameter is looked
  -- at again
  cases hhint : l.hint with
  | none => rfl
  | some h =>
      have harrow : dropHead? "->".toList (trimLeft (" -> ".toList ++ h ++ ':' :: l.behind)) =
          some (' ' :: (h ++ ':' :: l.behind)) := by
        rw [List.append_assoc]
        exact dropHead?_append "->".toList (' ' :: (h ++ ':' :: l.behind))
      simp only [harrow, returnHint?_append (l.hint_valid h hhint)]
      rfl

theorem form_text :
    LineForm.ofText l.text =
      .functionHeader l.mark l.name (argumentList l.parameters) l.hint := by
  have hread := l.functionHeader?_text
  unfold text
  cases hasync : l.isAsync with
  | false =>
      rw [hasync] at hread
      exact ofText_of_functionHeader? l.indent_blank (by decide) (by decide)
        (by decide) rfl hread
  | true =>
      rw [hasync] at hread
      exact ofText_of_functionHeader? l.indent_blank (by decide) (by decide)
        (by decide) rfl hread

end FunctionLine

namespace ClassLine

variable (l : ClassLine)

theorem classHeader?_text :
    classHeader? ("class ".toList ++ (l.name ++ l.ending)) =
      some (.classHeader l.name (l.bases.map argumentList)) := by
  have hclass : dropHead? "class".toList ("class ".toList ++ (l.name ++ l.ending)) =
      some (' ' :: (l.name ++ l.ending)) :=
    dropHead?_append "class".toList (' ' :: (l.name ++ l.ending))
  have hending : ∀ c ∈ l.ending.head?, isWord c = false := by
    unfold ending
    split
    · exact forall_head?_cons (by decide) _
    · exact forall_head?_cons (by decide) _
  have hname : afterSomeBlanks identifier? (' ' :: (l.name ++ l.ending)) =
      some (l.name, l.ending) := by
    rw [afterSomeBlanks_blank (visible_identifier l.name_identifier)]
    exact identifier?_append l.name_identifier hending
  simp only [classHeader?, hclass, hname, Option.bind_eq_bind, Option.bind_some]
  unfold ending
  cases hbases : l.bases with
  | none => rfl
  | some bs =>
      simp only [parenthesised?_append (not_mem_argumentList (l.bases_arguments bs hbases))]
      rfl

theorem form_text : LineForm.ofText l.text =
    .classHeader l.name (l.bases.map argumentList) := by
  refine (LineForm.ofText_indented l.indent_blank ?_ ?_ ?_).trans ?_
  · decide
  · decide
  · decide
  · exact congrArg (fun form =>
      (form <|> functionHeader? _ <|> fromImport? _ <|> plainImport? _ <|>
      assignment? l.indent _).getD .statement) l.classHeader?_text

end ClassLine

/-! ## Declarations of an outline -/

section

variable {options : OutlineOptions} {path name content : Text} {i : Nat}

/-- A function or method that starts on the line has what its header says. -/
theorem FunctionLine.describes (l : FunctionLine)
    (hline : (Text.lines content)[i]? = some l.text) {f : FunctionDecl}
    (hf : f ∈ (Outline.read options path name content).callers)
    (hfirst : f.firstLine = (i : Int) + 1) : l.Describes f := by
  obtain ⟨d, hd, hf⟩ := exists_declaration_of_caller hf
  obtain ⟨j, m, hm, hdeclares⟩ := exists_place_of_function hd hf
  obtain ⟨-, hplace, -, -⟩ := place_of_declares hm hdeclares
  obtain rfl : j = i := by omega
  obtain rfl : m = Line.ofText j l.text := Option.some.inj (hm.symm.trans (getElem?_scan hline))
  obtain ⟨async, fname, parameters, hint, decorators, hform, rfl⟩ := hdeclares
  obtain ⟨rfl, rfl, rfl, rfl⟩ := LineForm.functionHeader.inj (l.form_text.symm.trans hform)
  refine ⟨rfl, commaList_argumentList l.parameters_arguments, ?_, ?_, rfl⟩
  · cases hhint : l.hint with
    | none => simp [FunctionHeader.declare]
    | some h =>
        have hh := l.hint_valid h hhint
        simp [FunctionHeader.declare, hh.trimmed, hh.ne_nil]
  · unfold FunctionHeader.declare mark
    cases l.isAsync with
    | false => rfl
    | true => rfl

/-- A class that starts on the line has what its header says. -/
theorem ClassLine.describes (l : ClassLine) (hline : (Text.lines content)[i]? = some l.text)
    {c : ClassDecl} (hc : c ∈ (Outline.read options path name content).classes)
    (hfirst : c.firstLine = (i : Int) + 1) : l.Describes c := by
  obtain ⟨j, m, cname, bases, decorators, hm, hform, rfl⟩ :=
    exists_place_of_class (class_mem_declarations hc)
  have hnumber : m.number = j + 1 := number_of_getElem?_scan hm
  obtain rfl : j = i := by
    simp only [declareClass] at hfirst
    omega
  obtain rfl : m = Line.ofText j l.text := Option.some.inj (hm.symm.trans (getElem?_scan hline))
  obtain ⟨rfl, rfl⟩ := LineForm.classHeader.inj (l.form_text.symm.trans hform)
  refine ⟨rfl, ?_⟩
  cases hbases : l.bases with
  | none => simp [declareClass, commaList_nil]
  | some bs => simp [declareClass, commaList_argumentList (l.bases_arguments bs hbases)]

/-- A header of one kind is the first line of a declaration of that kind just when it lies in
the block of no earlier header. -/
theorem mem_firsts_of_part {α : Type} (part? : Declaration → Option α) (span : α → Span)
    {kind : NodeKind}
    (hpart : ∀ d, (part? d).map span = if d.span.kind = kind then some d.span else none)
    {l : Line} (hl : (Line.scan content)[i]? = some l)
    (hheading : ∃ heading, l.heading? = some heading ∧ heading.kind = kind) :
    (i : Int) + 1 ∈ ((declarations options (Line.scan content)).filterMap part?).map
        (fun a => (span a).first) ↔
      OutsideBlocks (Line.scan content) i := by
  have hspans := spans_filterMap hpart (declarations options (Line.scan content))
  rw [spans_declarations] at hspans
  have hfirsts := congrArg (List.map Span.first) hspans
  rw [List.map_map] at hfirsts
  refine Iff.trans (hfirsts ▸ mem_firsts_iff) ?_
  constructor
  · rintro ⟨h, m, hline, -, -, hout⟩
    obtain rfl : h = i := by omega
    exact hout
  · intro hout
    exact ⟨i, l, rfl, hl, hheading, hout⟩

end

/-- A file with a content has an outline if the length of snippets is an integer. If it has an
outline and one of its lines is the header of a function, indented as it may be and with
whatever text behind the colon, then the line has the form of a function header, a function of
the outline starts with it just when it lies in the block of no earlier header, and a function
or method that starts with it has the name, parameters, hint and marks that were written. The
same holds of headers of classes. -/
theorem headers_read_back (options : ReadingOptions) (f : SourceFile) (content : Text)
    (hcontent : f.content = some content) :
    (options.snippetLength.integer?.isSome → ∃ o, f.outline options = .ok o) ∧
    ∀ o, f.outline options = .ok o → ∀ i : Nat,
      (∀ l : FunctionLine, (Text.lines content)[i]? = some l.text →
        (LineForm.ofText l.text).name = "function_header" ∧
        ((i : Int) + 1 ∈ o.functions.map FunctionDecl.firstLine ↔
          OutsideBlocks (Line.scan content) i) ∧
        ∀ g ∈ o.callers, g.firstLine = (i : Int) + 1 → l.Describes g) ∧
      ∀ l : ClassLine, (Text.lines content)[i]? = some l.text →
        (LineForm.ofText l.text).name = "class_header" ∧
        ((i : Int) + 1 ∈ o.classes.map ClassDecl.firstLine ↔
          OutsideBlocks (Line.scan content) i) ∧
        ∀ c ∈ o.classes, c.firstLine = (i : Int) + 1 → l.Describes c := by
  refine ⟨exists_outline (by simp [hcontent]), fun o houtline i => ?_⟩
  obtain ⟨reading, content', hcontent', rfl⟩ := exists_read_of_outline houtline
  obtain rfl : content' = content := Option.some.inj (hcontent'.symm.trans hcontent)
  constructor
  · intro l hline
    have hheading :=
      (heading?_function_iff (Line.ofText i l.text)).mpr ⟨_, _, _, _, l.form_text⟩
    refine ⟨?_, ?_, fun g hg hfirst => l.describes hline hg hfirst⟩
    · rw [l.form_text]
      rfl
    · exact mem_firsts_of_part Declaration.function? FunctionDecl.span
        (fun d => by cases d <;> rfl)
        (getElem?_scan hline) hheading
  · intro l hline
    have hheading := (heading?_class_iff (Line.ofText i l.text)).mpr ⟨_, _, l.form_text⟩
    refine ⟨?_, ?_, fun c hc hfirst => l.describes hline hc hfirst⟩
    · rw [l.form_text]
      rfl
    · exact mem_firsts_of_part Declaration.class? ClassDecl.span (fun d => by cases d <;> rfl)
        (getElem?_scan hline) hheading

/-- `async def _f(a: t = '->(', *b) -> c[d, e]: return`, with a tab in front. -/
def arrowFunction : FunctionLine where
  indent := "\t".toList
  isAsync := true
  name := "_f".toList
  parameters := ["a: t = '->('".toList, "*b".toList]
  hint := some "c[d, e]".toList
  behind := " return".toList
  indent_blank := List.forall_mem_singleton.mpr (by decide)
  name_identifier := ⟨by decide, List.forall_mem_singleton.mpr (by decide)⟩
  parameters_arguments := by decide
  hint_valid := by decide

/-- `class C(m.B, k=v):`. -/
def keywordClass : ClassLine where
  indent := []
  name := "C".toList
  bases := some ["m.B".toList, "k=v".toList]
  behind := []
  indent_blank := List.forall_mem_nil _
  name_identifier := ⟨by decide, List.forall_mem_nil _⟩
  bases_arguments := by decide

/-- A file with the two headers on its lines. -/
def headerFile : SourceFile :=
  { name := "a.py".toList, content := some (arrowFunction.text ++ '\n' :: keywordClass.text) }

/-- The arrow in the first parameter is none, and the comma in the hint separates nothing. -/
theorem headers_read_back_headerFile :
    ∃ o, headerFile.outline ⟨true, .number 40⟩ = .ok o ∧
      (∃ g ∈ o.functions, g.parameters = ["a: t = '->('".toList, "*b".toList] ∧
        g.returnHint = some "c[d, e]".toList ∧ g.isAsync = some true ∧
        g.isPrivate = some true) ∧
      ∃ c ∈ o.classes, c.bases = ["m.B".toList, "k=v".toList] := by
  obtain ⟨hread, hexact⟩ := headers_read_back ⟨true, .number 40⟩ headerFile _ rfl
  obtain ⟨o, ho⟩ := hread rfl
  obtain ⟨-, hfunctions, hdescribes⟩ := (hexact o ho 0).1 arrowFunction (by decide +kernel)
  obtain ⟨-, hclasses, hdescribes'⟩ := (hexact o ho 1).2 keywordClass (by decide +kernel)
  obtain ⟨g, hg, hfirst⟩ := List.mem_map.mp (hfunctions.mpr (outsideBlocks_zero _))
  obtain ⟨c, hc, hfirst'⟩ := List.mem_map.mp (hclasses.mpr (by decide +kernel))
  have hfunction := hdescribes g (List.mem_append_right _ hg) hfirst
  exact ⟨o, ho, ⟨g, hg, hfunction.parameters, hfunction.returnHint, hfunction.isAsync,
    hfunction.isPrivate⟩, c, hc, (hdescribes' c hc hfirst').bases⟩

end SymbolGraph
