import SymbolGraph.Proofs.Line.Place
import SymbolGraph.Proofs.Line.Rendering
import SymbolGraph.Proofs.Outline.Caller
set_option autoImplicit false

/-!
# Imports are read back

An import is written on one line as `import a as b, c` or as `from m import a as b, c`. The
names may be in parentheses, a comma may stand behind the last one, and the line may be indented
and end in a comment. Whatever the names are, the outline of a file with such a line has for it
one import, and only one, with what was written.

The names are made of word characters and full stops. None of these is a blank, a comma, a
parenthesis or the sign that opens a comment, so nothing that stands around a name can be taken
for a part of it; even `as` and `import` can be names.
-/

namespace SymbolGraph

open Text

/-! ## Lines with an import -/

/-- A name as it stands in an import: word characters and full stops, at least one. -/
structure IsDottedName (t : Text) : Prop where
  ne_nil : t ≠ []
  dotted : ∀ c ∈ t, isDottedChar c = true

instance : DecidablePred IsDottedName := fun t =>
  decidable_of_iff (t ≠ [] ∧ t.all isDottedChar = true)
    ⟨fun h => ⟨h.1, List.all_eq_true.mp h.2⟩,
      fun h => ⟨h.ne_nil, List.all_eq_true.mpr h.dotted⟩⟩

namespace ImportedName

/-- The name and the alias can stand in an import. -/
structure IsWritable (n : ImportedName) : Prop where
  name : IsDottedName n.name
  aliasNotEmpty : n.boundAs ≠ some []
  aliasOfWords : ∀ a ∈ n.boundAs, ∀ c ∈ a, isWord c = true

instance : DecidablePred IsWritable := fun n =>
  decidable_of_iff (IsDottedName n.name ∧ n.boundAs ≠ some [] ∧
      ∀ a ∈ n.boundAs, a.all isWord = true)
    ⟨fun h => ⟨h.1, h.2.1, fun a ha => List.all_eq_true.mp (h.2.2 a ha)⟩,
      fun h => ⟨h.name, h.aliasNotEmpty,
        fun a ha => List.all_eq_true.mpr (h.aliasOfWords a ha)⟩⟩

/-- `name` or `name as alias`. -/
def written (n : ImportedName) : Text :=
  match n.boundAs with
  | none => n.name
  | some a => n.name ++ " as ".toList ++ a

end ImportedName

/-- A line with an import. -/
structure ImportLine where
  indent : Text
  /-- The module, if the import is from one. -/
  module? : Option Text
  names : List ImportedName
  /-- The names are in parentheses. -/
  enclosed : Bool
  /-- A comma stands behind the last name. -/
  lastComma : Bool
  /-- The blanks behind the names. -/
  gap : Text
  /-- The text of the comment at the end of the line. -/
  comment : Option Text
  indent_blank : ∀ c ∈ indent, isIndent c = true
  module_dotted : ∀ m ∈ module?, IsDottedName m
  names_ne_nil : names ≠ []
  names_writable : ∀ n ∈ names, n.IsWritable
  gap_blank : ∀ c ∈ gap, isIndent c = true

namespace ImportLine

/-- The names with commas between them and perhaps one behind them. -/
def nameList (l : ImportLine) : Text :=
  join [',', ' '] (l.names.map ImportedName.written) ++ if l.lastComma then [','] else []

/-- The names, perhaps in parentheses. -/
def enclosedList (l : ImportLine) : Text :=
  if l.enclosed then '(' :: (l.nameList ++ [')']) else l.nameList

/-- The comment at the end of the line. -/
def commentText (l : ImportLine) : Text := (l.comment.map ('#' :: ·)).getD []

/-- What stands behind the word `import` and a blank. -/
def afterKeyword (l : ImportLine) : Text :=
  l.enclosedList ++ l.gap ++ l.commentText

/-- What stands in front of the names. -/
def keywords (l : ImportLine) : Text :=
  match l.module? with
  | none => "import ".toList
  | some m => "from ".toList ++ m ++ " import ".toList

/-- The text of the line. -/
def text (l : ImportLine) : Text := l.indent ++ (l.keywords ++ l.afterKeyword)

def style (l : ImportLine) : ImportStyle := if l.module?.isSome then .fromModule else .plain

/-- The module imported from; for a plain import the first name. -/
def path (l : ImportLine) : Text := l.module?.getD ((l.names.head?.map (·.name)).getD [])

end ImportLine

/-! ## One name -/

theorem visible_of_isDottedChar {t : Text} (ht : ∀ c ∈ t, isDottedChar c = true) :
    ∀ c ∈ t.head?, isSpace c = false :=
  fun c hc => isSpace_of_isDottedChar (ht c (List.mem_of_mem_head? hc))

theorem isDottedChar_of_isWord {c : Char} (hc : isWord c = true) : isDottedChar c = true :=
  Bool.or_eq_true_iff.mpr (Or.inl hc)

theorem aliased?_of_dotted {t : Text} (ht : ∀ c ∈ t, isDottedChar c = true) :
    aliased? t = none := by
  rw [aliased?, List.dropWhile_eq_nil_iff.mpr ht]
  split
  · rfl
  · rfl

/-- A name, the word between blanks, and an alias. -/
theorem aliased?_as {name a : Text} (hname : IsDottedName name) (hne : a ≠ [])
    (ha : ∀ c ∈ a, isWord c = true) :
    aliased? (name ++ " as ".toList ++ a) = some { name, boundAs := some a } := by
  have hblank : ∀ c ∈ (" as ".toList ++ a).head?, isDottedChar c = false :=
    forall_head?_cons (by decide) _
  -- the name ends at the blank, even if it is itself the word `as`
  have htake := takeWhile_run hname.dotted hblank
  have hdrop := dropWhile_run hname.dotted hblank
  have hword : afterSomeBlanks (dropHead? "as".toList) (" as ".toList ++ a) =
      some (' ' :: a) := by
    refine (afterSomeBlanks_blank (t := "as".toList ++ ' ' :: a) ?_).trans
      (dropHead?_append _ _)
    exact forall_head?_cons (by decide) _
  have halias : afterSomeBlanks (fun a => if a ≠ [] ∧ a.all isWord then some a else none)
      (' ' :: a) = some a := by
    rw [afterSomeBlanks_blank
      (visible_of_isDottedChar fun c hc => isDottedChar_of_isWord (ha c hc)),
        if_pos ⟨hne, List.all_eq_true.mpr ha⟩]
  rw [List.append_assoc, aliased?, htake, hdrop, if_neg hname.ne_nil, hword]
  simp only [Option.bind_eq_bind, Option.bind_some, halias]
  rfl

namespace ImportedName

variable {n : ImportedName} (hn : n.IsWritable)
include hn

theorem IsWritable.dotted_alias {a : Text} (ha : n.boundAs = some a) : IsDottedName a := by
  refine ⟨?_, fun c hc => isDottedChar_of_isWord (hn.aliasOfWords a ha c hc)⟩
  rintro rfl
  exact hn.aliasNotEmpty ha

/-- A written name starts with a character of the name. -/
theorem IsWritable.exists_head : ∃ c t, n.written = c :: t ∧ isDottedChar c = true := by
  obtain ⟨c, cs, hname⟩ := List.exists_cons_of_ne_nil hn.name.ne_nil
  have hc : isDottedChar c = true := hn.name.dotted c (by rw [hname]; exact List.mem_cons_self)
  unfold written
  split
  · exact ⟨c, cs, hname, hc⟩
  · rw [hname]
    exact ⟨c, _, rfl, hc⟩

/-- A written name ends with a character of the name or the alias. -/
theorem IsWritable.dotted_last : ∀ c ∈ n.written.getLast?, isDottedChar c = true := by
  intro c hc
  unfold written at hc
  split at hc
  · exact hn.name.dotted c (List.mem_of_getLast? hc)
  · next a ha =>
    have halias := hn.dotted_alias ha
    rw [List.getLast?_append_of_ne_nil _ halias.ne_nil] at hc
    exact halias.dotted c (List.mem_of_getLast? hc)

theorem IsWritable.dotted_or_blank : ∀ c ∈ n.written, isDottedChar c = true ∨ c = ' ' := by
  intro c hc
  unfold written at hc
  split at hc
  · exact Or.inl (hn.name.dotted c hc)
  · next a ha =>
    rcases List.mem_append.mp hc with hc | hc
    · rcases List.mem_append.mp hc with hc | hc
      · exact Or.inl (hn.name.dotted c hc)
      · have hword : (" as ".toList.all fun d => isDottedChar d || d == ' ') = true := by decide
        exact (Bool.or_eq_true_iff.mp (List.all_eq_true.mp hword c hc)).imp_right eq_of_beq
    · exact Or.inl ((hn.dotted_alias ha).dotted c hc)

/-- Reading a written name gives it back. -/
theorem IsWritable.importedName_written : importedName n.written = n := by
  obtain ⟨name, boundAs⟩ := n
  unfold written importedName
  cases boundAs with
  | none =>
      rw [aliased?_of_dotted hn.name.dotted]
      rfl
  | some a =>
      have hne : a ≠ [] := (hn.dotted_alias rfl).ne_nil
      rw [aliased?_as hn.name hne (hn.aliasOfWords a rfl)]
      rfl

theorem IsWritable.written_ne_nil : n.written ≠ [] := by
  obtain ⟨c, t, hwritten, -⟩ := hn.exists_head
  rw [hwritten]
  exact List.cons_ne_nil c t

theorem IsWritable.isItem_written : IsItem n.written where
  ne_nil := hn.written_ne_nil
  trimmed := by
    refine trimBy_eq_self (fun c hc => ?_) fun c hc =>
      isSpace_of_isDottedChar (hn.dotted_last c hc)
    obtain ⟨d, t, hwritten, hd⟩ := hn.exists_head
    rw [hwritten] at hc
    rw [← Option.some.inj hc]
    exact isSpace_of_isDottedChar hd
  commaFree hcomma := by
    rcases hn.dotted_or_blank ',' hcomma with hdotted | hblank
    · exact absurd hdotted (by decide)
    · exact absurd hblank (by decide)

end ImportedName

/-! ## A list of names -/

namespace ImportLine

variable (l : ImportLine)

theorem isItem_of_mem {t : Text} (ht : t ∈ l.names.map ImportedName.written) : IsItem t := by
  obtain ⟨n, hn, rfl⟩ := List.mem_map.mp ht
  exact (l.names_writable n hn).isItem_written

theorem commaList_nameList : commaList l.nameList = l.names.map ImportedName.written := by
  have hjoin := commaList_join fun t ht => l.isItem_of_mem ht
  unfold nameList
  split
  · rw [commaList_concat_comma, hjoin]
  · rw [List.append_nil, hjoin]

theorem nameList_ne_nil : l.nameList ≠ [] := by
  have hnames : l.names.map ImportedName.written ≠ [] :=
    fun h => l.names_ne_nil (List.map_eq_nil_iff.mp h)
  refine List.append_ne_nil_of_left_ne_nil (join_ne_nil (fun t ht => ?_) hnames) _
  exact (l.isItem_of_mem ht).ne_nil

theorem head_nameList : ∀ c ∈ l.nameList.head?, isDottedChar c = true := by
  intro c hc
  have hnames : l.names.map ImportedName.written ≠ [] :=
    fun h => l.names_ne_nil (List.map_eq_nil_iff.mp h)
  have hne : ∀ t ∈ l.names.map ImportedName.written, t ≠ [] :=
    fun t ht => (l.isItem_of_mem ht).ne_nil
  rw [nameList, List.head?_append_of_ne_nil _ (join_ne_nil hne hnames)] at hc
  obtain ⟨t, ht, hc⟩ := mem_head?_join hne hc
  obtain ⟨n, hn, rfl⟩ := List.mem_map.mp ht
  obtain ⟨d, t, hwritten, hd⟩ := (l.names_writable n hn).exists_head
  rw [hwritten] at hc
  rwa [← Option.some.inj hc]

theorem last_nameList : ∀ c ∈ l.nameList.getLast?, isDottedChar c = true ∨ c = ',' := by
  intro c hc
  unfold nameList at hc
  split at hc
  · rw [List.getLast?_concat] at hc
    exact Or.inr (Option.some.inj hc).symm
  · rw [List.append_nil] at hc
    obtain ⟨t, ht, hc⟩ := mem_getLast?_join (fun t ht => (l.isItem_of_mem ht).ne_nil) hc
    obtain ⟨n, hn, rfl⟩ := List.mem_map.mp ht
    exact Or.inl ((l.names_writable n hn).dotted_last c hc)

/-- A list of names is made of the characters of names, blanks and commas. -/
theorem mem_nameList : ∀ c ∈ l.nameList, isDottedChar c = true ∨ c = ' ' ∨ c = ',' := by
  intro c hc
  rcases List.mem_append.mp hc with hc | hc
  · rcases mem_join hc with hglue | ⟨t, ht, hc⟩
    · rcases List.mem_pair.mp hglue with hcomma | hblank
      · exact Or.inr (Or.inr hcomma)
      · exact Or.inr (Or.inl hblank)
    · obtain ⟨n, hn, rfl⟩ := List.mem_map.mp ht
      exact ((l.names_writable n hn).dotted_or_blank c hc).imp_right Or.inl
  · split at hc
    · exact Or.inr (Or.inr (List.mem_singleton.mp hc))
    · cases hc

/-! ## The names behind the keyword -/

theorem ends_enclosedList :
    (∀ c ∈ l.enclosedList.head?, isSpace c = false) ∧
      ∀ c ∈ l.enclosedList.getLast?, isSpace c = false := by
  unfold enclosedList
  split
  · rw [← List.cons_append, List.getLast?_concat]
    refine ⟨forall_head?_cons (by decide) _, ?_⟩
    intro c hc
    rw [← Option.some.inj hc]
    decide
  · refine ⟨fun c hc => isSpace_of_isDottedChar (l.head_nameList c hc), fun c hc => ?_⟩
    rcases l.last_nameList c hc with hdotted | rfl
    · exact isSpace_of_isDottedChar hdotted
    · decide

theorem isListMark_of_isDottedChar {c : Char} (hc : isDottedChar c = true) :
    isListMark c = false := by
  refine Bool.eq_false_iff.mpr fun hmark => ?_
  simp only [isListMark, Bool.or_eq_true, beq_iff_eq] at hmark
  rcases hmark with (rfl | rfl) | rfl <;> exact absurd hc (by decide)

/-- Without the parentheses around it the list of names is left. -/
theorem trimBy_enclosedList : trimBy isListMark l.enclosedList = l.nameList := by
  have hself : trimBy isListMark l.nameList = l.nameList := by
    refine trimBy_eq_self (fun c hc => isListMark_of_isDottedChar (l.head_nameList c hc))
      fun c hc => ?_
    rcases l.last_nameList c hc with hdotted | rfl
    · exact isListMark_of_isDottedChar hdotted
    · decide
  unfold enclosedList
  split
  · have hopening : ∀ c ∈ ['('], isListMark c = true := List.forall_mem_singleton.mpr rfl
    have hclosing : ∀ c ∈ [')'], isListMark c = true := List.forall_mem_singleton.mpr rfl
    rw [← List.singleton_append, trimBy_append_left hopening,
      trimBy_append_right hclosing, hself]
  · exact hself

theorem not_mem_enclosedList : '#' ∉ l.enclosedList := by
  have hlist : '#' ∉ l.nameList := by
    intro hmem
    rcases l.mem_nameList '#' hmem with h | h | h <;> exact absurd h (by decide)
  unfold enclosedList
  split
  · simp [hlist]
  · exact hlist

/-- The names are read up to the comment, without blanks, parentheses and the last comma. -/
theorem importedNames_afterKeyword : importedNames l.afterKeyword = l.names := by
  -- the comment starts at the first sign that can open one
  have hcode : ∀ c ∈ l.enclosedList ++ l.gap, decide (c ≠ '#') = true := by
    intro c hc
    refine decide_eq_true ?_
    rintro rfl
    rcases List.mem_append.mp hc with hc | hc
    · exact l.not_mem_enclosedList hc
    · exact absurd (l.gap_blank '#' hc) (by decide)
  have hcomment : ∀ c ∈ l.commentText.head?, decide (c ≠ '#') = false := by
    intro c hc
    unfold commentText at hc
    cases hsome : l.comment with
    | none =>
        rw [hsome] at hc
        cases hc
    | some t =>
        rw [hsome] at hc
        rw [← Option.some.inj hc]
        decide
  have htrim : trim (l.enclosedList ++ l.gap) = l.enclosedList := by
    obtain ⟨hhead, hlast⟩ := l.ends_enclosedList
    rw [trim, trimBy_append_right fun c hc => isSpace_of_isIndent (l.gap_blank c hc),
      trimBy_eq_self hhead hlast]
  rw [importedNames, afterKeyword, takeWhile_run hcode hcomment, htrim, trimBy_enclosedList,
    commaList_nameList, List.map_map]
  refine (List.map_congr_left fun n hn => ?_).trans (List.map_id l.names)
  exact (l.names_writable n hn).importedName_written

end ImportLine

/-! ## The form of the line -/

section

variable {names : Text} (hvisible : ∀ c ∈ names.head?, isSpace c = false) (hne : names ≠ [])
  (hline : '\n' ∉ names)
include hvisible hne hline

theorem plainImport?_keyword :
    plainImport? ("import ".toList ++ names) = some (.plainImport names) := by
  have hkeyword : dropHead? "import".toList ("import ".toList ++ names) = some (' ' :: names) :=
    dropHead?_append "import".toList (' ' :: names)
  simp only [plainImport?, hkeyword, Option.bind_eq_bind, Option.bind_some,
    afterSomeBlanks_blank hvisible, nonemptyLine?_eq_some hne hline]
  rfl

theorem fromImport?_keywords {path : Text} (hpath : IsDottedName path) :
    fromImport? ("from ".toList ++ path ++ " import ".toList ++ names) =
      some (.fromImport path names) := by
  have hfrom : dropHead? "from".toList ("from ".toList ++ path ++ " import ".toList ++ names) =
      some (' ' :: (path ++ (" import ".toList ++ names))) := by
    rw [List.append_assoc, List.append_assoc]
    exact dropHead?_append "from".toList (' ' :: (path ++ (" import ".toList ++ names)))
  have hblank : ∀ c ∈ (" import ".toList ++ names).head?, isDottedChar c = false :=
    forall_head?_cons (by decide) _
  have hstart : ∀ c ∈ (path ++ (" import ".toList ++ names)).head?, isSpace c = false := by
    rw [List.head?_append_of_ne_nil _ hpath.ne_nil]
    exact visible_of_isDottedChar hpath.dotted
  have hmodule : afterSomeBlanks
      (fun t => some (t.takeWhile isDottedChar, t.dropWhile isDottedChar) |>.filter (·.1 ≠ []))
      (' ' :: (path ++ (" import ".toList ++ names))) =
        some (path, " import ".toList ++ names) := by
    rw [afterSomeBlanks_blank hstart, takeWhile_run hpath.dotted hblank,
      dropWhile_run hpath.dotted hblank]
    exact Option.filter_some_pos (decide_eq_true hpath.ne_nil)
  have hkeyword : afterSomeBlanks (dropHead? "import".toList) (" import ".toList ++ names) =
      some (' ' :: names) := by
    refine (afterSomeBlanks_blank (t := "import".toList ++ ' ' :: names) ?_).trans
      (dropHead?_append _ _)
    exact forall_head?_cons (by decide) _
  simp only [fromImport?, hfrom, hmodule, hkeyword, Option.bind_eq_bind, Option.bind_some,
    afterSomeBlanks_blank hvisible, nonemptyLine?_eq_some hne hline]
  rfl

end

namespace ImportLine

variable (l : ImportLine)

theorem enclosedList_ne_nil : l.enclosedList ≠ [] := by
  unfold enclosedList
  split
  · exact List.cons_ne_nil _ _
  · exact l.nameList_ne_nil

theorem afterKeyword_ne_nil : l.afterKeyword ≠ [] := by
  rw [afterKeyword, List.append_assoc]
  exact List.append_ne_nil_of_left_ne_nil l.enclosedList_ne_nil _

theorem visible_afterKeyword : ∀ c ∈ l.afterKeyword.head?, isSpace c = false := by
  rw [afterKeyword, List.append_assoc, List.head?_append_of_ne_nil _ l.enclosedList_ne_nil]
  exact l.ends_enclosedList.1

section

variable {l} (hline : '\n' ∉ l.text)
include hline

theorem not_mem_afterKeyword : '\n' ∉ l.afterKeyword := by
  intro hmem
  exact hline (List.mem_append_right _ (List.mem_append_right _ hmem))

theorem form_of_plain (hmodule : l.module? = none) :
    LineForm.ofText l.text = .plainImport l.afterKeyword := by
  have hread := plainImport?_keyword l.visible_afterKeyword l.afterKeyword_ne_nil
    (not_mem_afterKeyword hline)
  have htext : l.text = l.indent ++ 'i' :: ("mport ".toList ++ l.afterKeyword) := by
    rw [text, keywords, hmodule]
    rfl
  rw [htext, LineForm.ofText_indented l.indent_blank (by decide) (by decide) (by decide)]
  exact congrArg (fun form => (form <|> assignment? l.indent _).getD .statement) hread

theorem form_of_module {m : Text} (hmodule : l.module? = some m) :
    LineForm.ofText l.text = .fromImport m l.afterKeyword := by
  have hread := fromImport?_keywords l.visible_afterKeyword l.afterKeyword_ne_nil
    (not_mem_afterKeyword hline) (l.module_dotted m hmodule)
  have htext : l.text = l.indent ++ 'f'
      :: ("rom ".toList ++ m ++ " import ".toList ++ l.afterKeyword) := by
    rw [text, keywords, hmodule]
    rfl
  rw [htext, LineForm.ofText_indented l.indent_blank (by decide) (by decide) (by decide)]
  exact congrArg (fun form =>
    (form <|> plainImport? _ <|> assignment? l.indent _).getD .statement) hread

/-- The line is read as the import that was written. -/
theorem import?_text (i : Nat) :
    (Line.ofText i l.text).import? = some
      { style := l.style, path := l.path, names := l.names, line := (i : Int) + 1
        code := trim l.text } := by
  unfold Line.import? style path
  cases hmodule : l.module? with
  | none =>
      simp only [Line.ofText, form_of_plain hline hmodule, importedNames_afterKeyword]
      rfl
  | some m =>
      simp only [Line.ofText, form_of_module hline hmodule, importedNames_afterKeyword]
      rfl

end

end ImportLine

/-! ## The imports of an outline -/

theorem line_of_import? {l : Line} {d : ImportDecl} (himport : l.import? = some d) :
    d.line = l.number := by
  unfold Line.import? at himport
  split at himport
  · rw [← Option.some.inj himport]
  · rw [← Option.some.inj himport]
  · exact absurd himport.symm (Option.some_ne_none d)

theorem filter_imports_eq_nil {ls : List Line} {n : Nat} (hls : ∀ l ∈ ls, l.number ≠ n) :
    (ls.filterMap Line.import?).filter (·.line = (n : Int)) = [] := by
  refine List.filter_eq_nil_iff.mpr fun d hd => ?_
  obtain ⟨l, hl, himport⟩ := List.mem_filterMap.mp hd
  have hne := hls l hl
  simp only [line_of_import? himport, decide_eq_true_eq]
  omega

/-- The imports that an outline has for a line are the one on it, if there is one. -/
theorem filter_imports {ls : List Line}
    (hls : ls.Pairwise fun l later => l.number < later.number) {l : Line} (hl : l ∈ ls) :
    (ls.filterMap Line.import?).filter (·.line = (l.number : Int)) = l.import?.toList := by
  obtain ⟨front, behind, rfl⟩ := List.append_of_mem hl
  obtain ⟨-, hbehind, hfront⟩ := List.pairwise_append.mp hls
  have hothers : (behind.filterMap Line.import?).filter (·.line = (l.number : Int)) = [] :=
    filter_imports_eq_nil fun l' hl' => Nat.ne_of_gt ((List.pairwise_cons.mp hbehind).1 l' hl')
  rw [List.filterMap_append, List.filter_append,
    filter_imports_eq_nil fun l' hl' => Nat.ne_of_lt (hfront l' hl' l List.mem_cons_self),
    List.nil_append]
  cases himport : l.import? with
  | none => rw [List.filterMap_cons_none himport, hothers, Option.toList_none]
  | some d =>
      rw [List.filterMap_cons_some himport, List.filter_cons_of_pos, hothers,
        Option.toList_some]
      exact decide_eq_true (line_of_import? himport)

/-- A file with a content has an outline if the length of snippets is an integer. If it has an
outline and one of its lines is an import, indented as it may be, with or without module,
parentheses, last comma and comment, then the outline has one import for that line, and it has
the style, the module or first name, and the names and aliases in their order that were
written. -/
theorem imports_read_back (options : ReadingOptions) (f : SourceFile) (content : Text)
    (hcontent : f.content = some content) (l : ImportLine) (i : Nat)
    (hline : (Text.lines content)[i]? = some l.text) :
    (options.snippetLength.integer?.isSome → ∃ o, f.outline options = .ok o) ∧
    ∀ o, f.outline options = .ok o →
      o.imports.filter (·.line = (i : Int) + 1) =
        [{ style := l.style, path := l.path, names := l.names, line := (i : Int) + 1
           code := trim l.text }] := by
  refine ⟨exists_outline (by simp [hcontent]), fun o houtline => ?_⟩
  obtain ⟨reading, content', hcontent', rfl⟩ := exists_read_of_outline houtline
  obtain rfl : content' = content := Option.some.inj (hcontent'.symm.trans hcontent)
  have hfree : '\n' ∉ l.text := not_mem_of_mem_split (List.mem_of_getElem? hline)
  have hfilter :=
    filter_imports (numbers_ascending content') (List.mem_of_getElem? (getElem?_scan hline))
  rw [ImportLine.import?_text hfree] at hfilter
  exact hfilter

/-- `from .as import (as as import, b.c,) # d, e`, indented by a tab and a blank. -/
def keywordImport : ImportLine where
  indent := "\t ".toList
  module? := some ".as".toList
  names := [{ name := "as".toList, boundAs := some "import".toList }, { name := "b.c".toList }]
  enclosed := true
  lastComma := true
  gap := " ".toList
  comment := some " d, e".toList
  indent_blank := List.all_eq_true.mp (by decide)
  module_dotted := by decide
  names_ne_nil := by decide
  names_writable := by decide
  gap_blank := List.forall_mem_singleton.mpr (by decide)

/-- Keywords are read as names where names stand. -/
theorem imports_read_back_keywordImport :
    ∃ o, { name := "a.py".toList, content := some ("if x:\n".toList ++ keywordImport.text) :
        SourceFile }.outline ⟨true, .number 40⟩ = .ok o ∧
      (o.imports.filter (·.line = 2)).map (fun d => (d.style, d.path, d.names)) =
        [(.fromModule, ".as".toList, [{ name := "as".toList, boundAs := some "import".toList },
          { name := "b.c".toList }])] := by
  obtain ⟨hread, hexact⟩ := imports_read_back ⟨true, .number 40⟩
    { name := "a.py".toList, content := some ("if x:\n".toList ++ keywordImport.text) } _ rfl
    keywordImport 1 (by decide +kernel)
  obtain ⟨o, ho⟩ := hread rfl
  refine ⟨o, ho, ?_⟩
  have himport := hexact o ho
  rw [show ((1 : Nat) : Int) + 1 = 2 from rfl] at himport
  rw [himport]
  rfl

end SymbolGraph
