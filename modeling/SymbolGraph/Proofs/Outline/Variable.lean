import SymbolGraph.Proofs.Outline.Padding
set_option autoImplicit false

/-!
# Variables at the top level

A line assigns to a variable if a name stands at its start, then blanks as there may be, one
equals sign and something behind it that is no second one. Such a line is read as an assignment
and as nothing else, unless it starts with the word `import` and a blank. No word that opens
another form can be the name, since what follows that word is a blank and then a name, and here
it is the equals sign.

The blanks behind the equals sign may be left out of the value or belong to it: they are given
back where nothing else is left, or where a second equals sign follows them. The snippet of a
value is cut from the trimmed value, so that it is the same either way.
-/

namespace SymbolGraph

open Text

/-- The line starts with the word `import` and a blank. -/
def StartsImport (raw : Text) :
    Prop := ∃ c rest, isSpace c = true ∧ raw = "import".toList ++ c :: rest

/-- A name stands at the start of the line, then blanks as there may be, an equals sign and the
value, which is not empty and does not start with an equals sign; and the line is no import. -/
structure Assigns (raw name value : Text) : Prop where
  identifier : IsIdentifier name
  written : ∃ blanks, (∀ c ∈ blanks, isSpace c = true) ∧ raw = name ++ (blanks ++ '=' :: value)
  ne_nil : value ≠ []
  single : value.head? ≠ some '='
  not_import : ¬ StartsImport raw

/-- What stands in front of the equals sign in the signs `==`, `>=`, `<=` and `!=`. -/
def comparisonMarks : List Char := ['=', '>', '<', '!']

/-- A name stands at the start of the line, then blanks as there may be and the sign of a
comparison. -/
def Compares (raw : Text) : Prop :=
  ∃ name blanks mark rest, IsIdentifier name ∧ (∀ c ∈ blanks, isSpace c = true) ∧
    mark ∈ comparisonMarks ∧ raw = name ++ (blanks ++ mark :: '=' :: rest)

/-! ## Behind the equals sign -/

/-- What can be read is read after blanks, though perhaps from a later place. -/
theorem isSome_afterBlanks {α : Type} {read : Text → Option α} {t : Text}
    (hread : (read t).isSome = true) : (afterBlanks read t).isSome = true := by
  cases t with
  | nil => exact hread
  | cons c t =>
      rw [afterBlanks]
      split
      · split
        · rfl
        · exact hread
      · exact hread

/-- Where neither a blank nor what follows the blanks can be read, nothing is. -/
theorem afterBlanks_eq_none {α : Type} {read : Text → Option α} {blanks t : Text}
    (hblanks : ∀ c ∈ blanks, isSpace c = true) (hhead : ∀ c ∈ t.head?, isSpace c = false)
    (hspace : ∀ c u, isSpace c = true → read (c :: u) = none) (hread : read t = none) :
    afterBlanks read (blanks ++ t) = none := by
  induction blanks with
  | nil =>
      rw [List.nil_append, afterBlanks_of_head hhead]
      exact hread
  | cons c blanks ih =>
      have hc := hblanks c List.mem_cons_self
      have hrest := ih fun d hd => hblanks d (List.mem_cons_of_mem c hd)
      rw [List.cons_append, afterBlanks, if_pos hc, hrest]
      exact hspace c _ hc

theorem assignedValue?_eq_some_iff {t v : Text} (hline : '\n' ∉ t) :
    assignedValue? t = some v ↔ v = t ∧ t ≠ [] ∧ t.head? ≠ some '=' := by
  cases t with
  | nil => simp [assignedValue?]
  | cons c t =>
      have hrest : wholeLine? t = some t :=
        wholeLine?_eq_some fun hmem => hline (List.mem_cons_of_mem c hmem)
      rw [assignedValue?, hrest]
      by_cases hc : c = '=' <;> simp [hc, eq_comm]

/-- A value may leave out blanks that stand behind the equals sign, but nothing else. -/
theorem value_of_afterBlanks {t v : Text} (hline : '\n' ∉ t)
    (hread : afterBlanks assignedValue? t = some v) :
    t ≠ [] ∧ t.head? ≠ some '=' ∧ trim v = trim t := by
  induction t with
  | nil => cases hread
  | cons c t ih =>
      have hself : assignedValue? (c :: t) = some v →
          c :: t ≠ [] ∧ (c :: t).head? ≠ some '=' ∧ trim v = trim (c :: t) := by
        intro hself
        obtain ⟨rfl, hne, hhead⟩ := (assignedValue?_eq_some_iff hline).mp hself
        exact ⟨hne, hhead, rfl⟩
      rw [afterBlanks] at hread
      split at hread
      · next hc =>
        split at hread
        · next a hlater =>
          obtain rfl := Option.some.inj hread
          obtain ⟨-, -, htrim⟩ := ih (fun hmem => hline (List.mem_cons_of_mem c hmem)) hlater
          refine ⟨List.cons_ne_nil c t, ?_, htrim.trans (trim_cons_blank hc t).symm⟩
          rintro heq
          rw [Option.some.inj heq] at hc
          exact absurd hc (by decide)
        · exact hself hread
      · exact hself hread

theorem exists_afterBlanks_value {t : Text} (hline : '\n' ∉ t) (hne : t ≠ [])
    (hhead : t.head? ≠ some '=') :
    ∃ v, afterBlanks assignedValue? t = some v ∧ trim v = trim t := by
  have hself := (assignedValue?_eq_some_iff hline).mpr ⟨rfl, hne, hhead⟩
  have hsome : (afterBlanks assignedValue? t).isSome = true :=
    isSome_afterBlanks (by rw [hself]; rfl)
  obtain ⟨v, hv⟩ := Option.isSome_iff_exists.mp hsome
  exact ⟨v, hv, (value_of_afterBlanks hline hv).2.2⟩

/-! ## In front of the equals sign -/

theorem isWord_of_isNameStart {c : Char} (hc : isNameStart c = true) : isWord c = true := by
  rcases Bool.or_eq_true_iff.mp (isDottedChar_of_isNameStart hc) with hword | hdot
  · exact hword
  · rw [eq_of_beq hdot] at hc
    exact absurd hc (by decide)

theorem IsIdentifier.isWord {name : Text} (hname : IsIdentifier name) :
    ∀ c ∈ name, isWord c = true := by
  cases name with
  | nil => exact absurd rfl hname.ne_nil
  | cons c cs => exact List.forall_mem_cons.mpr ⟨isWord_of_isNameStart hname.1, hname.2⟩

/-- A text is split in one way only into word characters and a rest that starts with none. -/
theorem eq_of_append_words {name word behind rest : Text} (hname : ∀ c ∈ name, isWord c = true)
    (hbehind : ∀ c ∈ behind.head?, isWord c = false) (hword : ∀ c ∈ word, isWord c = true)
    (hrest : ∀ c ∈ rest.head?, isWord c = false) (heq : name ++ behind = word ++ rest) :
    name = word ∧ behind = rest := by
  have htake := congrArg (List.takeWhile isWord) heq
  rw [takeWhile_run hname hbehind, takeWhile_run hword hrest] at htake
  subst htake
  exact ⟨rfl, List.append_cancel_left heq⟩

theorem identifier?_eq_none {c : Char} (hc : isSpace c = true ∨ c = '=') (t : Text) :
    identifier? (c :: t) = none := by
  have hstart : isNameStart c = false := by
    rcases hc with hc | rfl
    · exact isNameStart_of_isSpace hc
    · decide
  rw [identifier?, hstart, if_neg Bool.false_ne_true]

section

variable {name blanks : Text} (hname : IsIdentifier name)
  (hblanks : ∀ c ∈ blanks, isSpace c = true)
include hblanks

theorem isWord_head?_behind {c : Char} (hc : isWord c = false) (t : Text) :
    ∀ d ∈ (blanks ++ c :: t).head?, isWord d = false := by
  cases blanks with
  | nil => exact forall_head?_cons hc t
  | cons d blanks =>
      exact forall_head?_cons (isWord_of_isSpace (hblanks d List.mem_cons_self)) _

include hname

/-- A word with a blank behind it at the start of the line is the name. -/
theorem eq_of_keyword {value word rest : Text} {c : Char} (hword : ∀ d ∈ word, isWord d = true)
    (hc : isSpace c = true) (heq : name ++ (blanks ++ '=' :: value) = word ++ c :: rest) :
    blanks ++ '=' :: value = c :: rest :=
  (eq_of_append_words hname.isWord (isWord_head?_behind hblanks (by decide) value) hword
    (forall_head?_cons (isWord_of_isSpace hc) rest) heq).2

variable (value : Text)

/-- Behind a word and blanks nothing can be read that starts neither with a blank nor with an
equals sign. -/
theorem afterKeyword_eq_none {α : Type} {read : Text → Option α} (word : Text)
    (hword : ∀ c ∈ word, isWord c = true)
    (hread : ∀ c t, isSpace c = true ∨ c = '=' → read (c :: t) = none) :
    (dropHead? word (name ++ (blanks ++ '=' :: value))).bind (afterSomeBlanks read) = none := by
  refine Option.bind_eq_none_iff.mpr fun rest hrest => ?_
  cases rest with
  | nil => rfl
  | cons c rest =>
      rw [afterSomeBlanks]
      split
      · next hc =>
        have hbehind := eq_of_keyword hname hblanks hword hc (eq_append_of_dropHead? hrest)
        cases blanks with
        | nil =>
            rw [← (List.cons.inj hbehind).1] at hc
            exact absurd hc (by decide)
        | cons d blanks =>
            rw [← (List.cons.inj hbehind).2]
            refine afterBlanks_eq_none (fun e he => hblanks e (List.mem_cons_of_mem d he)) ?_ ?_
              ?_
            · exact forall_head?_cons (by decide) value
            · exact fun e t he => hread e t (Or.inl he)
            · exact hread '=' value (Or.inr rfl)
      · rfl

theorem classHeader?_eq_none : classHeader? (name ++ (blanks ++ '=' :: value)) = none := by
  have hnone := afterKeyword_eq_none hname hblanks value "class".toList
    (List.all_eq_true.mp (by decide)) fun c t hc => identifier?_eq_none hc t
  simp only [classHeader?, Option.bind_eq_bind]
  rw [← Option.bind_assoc, hnone, Option.bind_none]

theorem fromImport?_eq_none : fromImport? (name ++ (blanks ++ '=' :: value)) = none := by
  have hnone : (dropHead? "from".toList (name ++ (blanks ++ '=' :: value))).bind
      (afterSomeBlanks fun t =>
      some (t.takeWhile isDottedChar, t.dropWhile isDottedChar) |>.filter (·.1 ≠ [])) =
        none := by
    refine afterKeyword_eq_none hname hblanks value _ (List.all_eq_true.mp (by decide))
      fun c t hc => ?_
    have hdotted : isDottedChar c = false := by
      rcases hc with hc | rfl
      · exact isDottedChar_of_isSpace hc
      · decide
    have hempty : (c :: t).takeWhile isDottedChar = [] :=
      List.takeWhile_cons_of_neg (by rw [hdotted]; exact Bool.false_ne_true)
    rw [hempty]
    rfl
  simp only [fromImport?, Option.bind_eq_bind]
  rw [← Option.bind_assoc, hnone, Option.bind_none]

/-- Behind the word `async` and blanks stands the equals sign. -/
theorem asyncMark_equals :
    (asyncMark (name ++ (blanks ++ '=' :: value))).2 = name ++ (blanks ++ '=' :: value) ∨
      (asyncMark (name ++ (blanks ++ '=' :: value))).2 = '=' :: value := by
  unfold asyncMark
  split
  · next rest hrest =>
    split
    · exact Or.inl rfl
    · next hmark =>
      refine Or.inr ?_
      cases rest with
      | nil => exact absurd rfl hmark
      | cons c rest =>
          have hc : isSpace c = true := by
            rw [← Bool.not_eq_false]
            intro hc
            exact hmark (List.takeWhile_cons_of_neg (by rw [hc]; exact Bool.false_ne_true))
          have hbehind := eq_of_keyword hname hblanks (List.all_eq_true.mp (by decide)) hc
            (eq_append_of_dropHead? hrest)
          rw [← hbehind]
          exact dropWhile_run hblanks (forall_head?_cons (by decide) value)
  · exact Or.inl rfl

theorem functionHeader?_eq_none :
    functionHeader? (name ++ (blanks ++ '=' :: value)) = none := by
  have hnone := afterKeyword_eq_none hname hblanks value "def".toList
    (List.all_eq_true.mp (by decide)) fun c t hc => identifier?_eq_none hc t
  simp only [functionHeader?, Option.bind_eq_bind]
  rw [← Option.bind_assoc]
  rcases asyncMark_equals hname hblanks value with hmark | hmark
  · rw [hmark, hnone, Option.bind_none]
  · rw [hmark]
    rfl

theorem identifier?_behind :
    identifier? (name ++ (blanks ++ '=' :: value)) = some (name, blanks ++ '=' :: value) :=
  identifier?_append hname (isWord_head?_behind hblanks (by decide) value)

/-- A line that starts with the word `import` and a blank is an import, if it goes on like an
assignment. -/
theorem plainImport?_ne_none (hline : '\n' ∉ name ++ (blanks ++ '=' :: value))
    (himport : StartsImport (name ++ (blanks ++ '=' :: value))) :
    plainImport? (name ++ (blanks ++ '=' :: value)) ≠ none := by
  obtain ⟨c, rest, hc, heq⟩ := himport
  have hbehind := eq_of_keyword hname hblanks (List.all_eq_true.mp (by decide)) hc heq
  have hne : rest ≠ [] := by
    rintro rfl
    obtain ⟨-, hequals⟩ := List.append_eq_cons_iff.mp hbehind |>.resolve_right
      fun ⟨_, _, hnil⟩ =>
      absurd hnil.symm (List.append_ne_nil_of_right_ne_nil _ (List.cons_ne_nil '=' value))
    rw [← (List.cons.inj hequals).1] at hc
    exact absurd hc (by decide)
  have hrest : '\n' ∉ rest := fun hmem => hline (by
    rw [heq]
    exact List.mem_append_right _ (List.mem_cons_of_mem c hmem))
  have hsome : (afterBlanks nonemptyLine? rest).isSome = true :=
    isSome_afterBlanks (by rw [nonemptyLine?_eq_some hne hrest]; rfl)
  obtain ⟨names, hnames⟩ := Option.isSome_iff_exists.mp hsome
  rw [heq]
  simp only [plainImport?, Option.bind_eq_bind, dropHead?_append, Option.bind_some,
    afterSomeBlanks, if_pos hc, hnames]
  exact Option.some_ne_none _

end

theorem startsImport_of_plainImport? {t : Text} {form : LineForm}
    (hread : plainImport? t = some form) : StartsImport t := by
  simp only [plainImport?, Option.bind_eq_bind, Option.bind_eq_some_iff] at hread
  obtain ⟨rest, hrest, names, hnames, -⟩ := hread
  cases rest with
  | nil => cases hnames
  | cons c rest =>
      rw [afterSomeBlanks] at hnames
      split at hnames
      · next hc => exact ⟨c, rest, hc, eq_append_of_dropHead? hrest⟩
      · cases hnames

/-! ## The form of an assignment -/

theorem eq_append_of_identifier? {t name rest : Text}
    (hread : identifier? t = some (name, rest)) : t = name ++ rest := by
  cases t with
  | nil => cases hread
  | cons c t =>
      rw [identifier?] at hread
      split at hread
      · obtain ⟨rfl, rfl⟩ := Prod.mk.inj (Option.some.inj hread)
        rw [List.cons_append, List.takeWhile_append_dropWhile]
      · cases hread

theorem assignment?_eq_some_iff {indent t : Text} {form : LineForm} :
    assignment? indent t = some form ↔
      ∃ name blanks value taken, IsIdentifier name ∧ (∀ c ∈ blanks, isSpace c = true) ∧
        t = name ++ (blanks ++ '=' :: value) ∧ afterBlanks assignedValue? value = some taken ∧
        form = .assignment indent name taken := by
  constructor
  · intro hread
    simp only [assignment?, Option.bind_eq_bind, Option.bind_eq_some_iff] at hread
    obtain ⟨⟨name, rest⟩, hname, value, hvalue, taken, htaken, hform⟩ := hread
    have hequals : rest.dropWhile isSpace = '=' :: value := eq_append_of_dropHead? hvalue
    refine ⟨name, rest.takeWhile isSpace, value, taken, isIdentifier_of_identifier? hname,
      ?_, ?_, htaken, (Option.some.inj hform).symm⟩
    · exact fun c hc => List.mem_takeWhile_imp hc
    · rw [eq_append_of_identifier? hname, ← hequals, List.takeWhile_append_dropWhile]
  · rintro ⟨name, blanks, value, taken, hname, hblanks, rfl, htaken, rfl⟩
    have htrim : trimLeft (blanks ++ '=' :: value) = '=' :: value :=
      dropWhile_run hblanks (forall_head?_cons (by decide) value)
    have hequals : dropHead? ['='] ('=' :: value) = some value := rfl
    simp only [assignment?, Option.bind_eq_bind, identifier?_behind hname hblanks value,
      Option.bind_some, htrim, hequals, htaken]
    rfl

/-- Only the last recogniser finds assignments, when those before it find nothing. -/
theorem assignment?_of_form {raw indent name taken : Text}
    (hform : LineForm.ofText raw = .assignment indent name taken) :
    plainImport? (raw.dropWhile isIndent) = none ∧
      assignment? (raw.takeWhile isIndent) (raw.dropWhile isIndent) =
        some (.assignment indent name taken) := by
  unfold LineForm.ofText at hform
  split at hform
  · cases hform
  · cases hform
  · simp only at hform
    split at hform
    · cases hform
    · generalize hread : ((classHeader? _) <|> (functionHeader? _) <|> (fromImport? _) <|>
        (plainImport? _) <|> (assignment? _ _)) = form? at hform
      cases form? with
      | none => cases hform
      | some form =>
          obtain rfl : form = .assignment indent name taken := hform
          simp only [Option.orElse_eq_orElse, Option.orElse_eq_or, Option.or_eq_some_iff]
            at hread
          obtain hclass | ⟨-, hfunction | ⟨-, hfrom | ⟨-, hplain | ⟨hplain, hassigned⟩⟩⟩⟩ :=
            hread
          · simp only [classHeader?, Option.bind_eq_bind, Option.bind_eq_some_iff] at hclass
            obtain ⟨rest, -, ⟨name, rest'⟩, -, hclass⟩ := hclass
            split at hclass <;> split at hclass <;> cases hclass
          · simp only [functionHeader?, Option.bind_eq_bind, Option.bind_eq_some_iff]
              at hfunction
            obtain ⟨rest, -, ⟨name, rest'⟩, -, ⟨parameters, rest''⟩, -, hfunction⟩ := hfunction
            split at hfunction
            · obtain ⟨hint, -, hfunction⟩ := Option.map_eq_some_iff.mp hfunction
              cases hfunction
            · split at hfunction <;> cases hfunction
          · simp only [fromImport?, Option.bind_eq_bind, Option.bind_eq_some_iff] at hfrom
            obtain ⟨rest, -, start, -, rest', -, names, -, hfrom⟩ := hfrom
            cases hfrom
          · simp only [plainImport?, Option.bind_eq_bind, Option.bind_eq_some_iff] at hplain
            obtain ⟨rest, -, names, -, hplain⟩ := hplain
            cases hplain
          · exact ⟨hplain, hassigned⟩

section

variable {raw name : Text} (hline : '\n' ∉ raw)
include hline

/-- A line that assigns is read as an assignment. -/
theorem Assigns.form {value : Text} (h : Assigns raw name value) :
    ∃ taken, LineForm.ofText raw = .assignment [] name taken ∧ trim taken = trim value := by
  obtain ⟨blanks, hblanks, rfl⟩ := h.written
  have hname := h.identifier
  have hvalue : '\n' ∉ value := fun hmem => hline (by simp [hmem])
  obtain ⟨taken, htaken, htrim⟩ := exists_afterBlanks_value hvalue h.ne_nil h.single
  have himport : plainImport? (name ++ (blanks ++ '=' :: value)) = none := by
    cases hread : plainImport? (name ++ (blanks ++ '=' :: value)) with
    | none => rfl
    | some form => exact absurd (startsImport_of_plainImport? hread) h.not_import
  have hassigned : assignment? [] (name ++ (blanks ++ '=' :: value)) =
      some (.assignment [] name taken) :=
    assignment?_eq_some_iff.mpr ⟨name, blanks, value, taken, hname, hblanks, rfl, htaken, rfl⟩
  have hclass := classHeader?_eq_none hname hblanks value
  have hfunction := functionHeader?_eq_none hname hblanks value
  have hfrom := fromImport?_eq_none hname hblanks value
  refine ⟨taken, ?_, htrim⟩
  cases name with
  | nil => exact absurd rfl hname.ne_nil
  | cons c name =>
      have hne : ∀ d, isNameStart d = false → c ≠ d := fun d hd heq =>
        absurd (hd.symm.trans (heq ▸ hname.1)) Bool.false_ne_true
      have hvisible : isSpace c = false :=
        visible_identifier (t := []) hname c rfl
      rw [List.cons_append] at hclass hfunction hfrom himport hassigned ⊢
      rw [← List.nil_append (c :: (name ++ (blanks ++ '=' :: value))),
        LineForm.ofText_indented (List.forall_mem_nil _) hvisible (hne '#' (by decide))
          (hne '@' (by decide)), hclass, hfunction, hfrom, himport, hassigned]
      rfl

/-- A line read as an assignment at the top level assigns. -/
theorem exists_assigns_of_form {indent taken : Text} (hindent : indentation raw = 0)
    (hform : LineForm.ofText raw = .assignment indent name taken) :
    ∃ value, Assigns raw name value ∧ trim taken = trim value := by
  obtain ⟨hplain, hassigned⟩ := assignment?_of_form hform
  have hdrop : raw.dropWhile isIndent = raw := by
    have happend := List.takeWhile_append_dropWhile (p := isIndent) (l := raw)
    rwa [List.length_eq_zero_iff.mp hindent, List.nil_append] at happend
  rw [hdrop] at hplain hassigned
  obtain ⟨name', blanks, value, taken', hname, hblanks, hwritten, hvalue, heq⟩ :=
    assignment?_eq_some_iff.mp hassigned
  obtain ⟨-, rfl, rfl⟩ := LineForm.assignment.inj heq
  subst hwritten
  have hline' : '\n' ∉ value := fun hmem => hline (by simp [hmem])
  obtain ⟨hne, hsingle, htrim⟩ := value_of_afterBlanks hline' hvalue
  refine ⟨value, ⟨hname, ⟨blanks, hblanks, rfl⟩, hne, hsingle, fun himport => ?_⟩, htrim⟩
  exact plainImport?_ne_none hname hblanks value hline himport hplain

end

theorem Assigns.indentation_eq_zero {raw name value : Text} (h : Assigns raw name value) :
    indentation raw = 0 := by
  obtain ⟨blanks, -, rfl⟩ := h.written
  have hvisible := visible_identifier (t := blanks ++ '=' :: value) h.identifier
  have hindent : ∀ c ∈ (name ++ (blanks ++ '=' :: value)).head?, isIndent c =
      false := fun c hc =>
    Bool.eq_false_iff.mpr fun hindent =>
      absurd ((hvisible c hc).symm.trans (isSpace_of_isIndent hindent)) Bool.false_ne_true
  rw [indentation, ← List.nil_append (name ++ (blanks ++ '=' :: value)),
    takeWhile_run (List.forall_mem_nil _) hindent, List.length_nil]

theorem visible_of_mem_comparisonMarks {c : Char} (hc : c ∈ comparisonMarks) :
    isWord c = false ∧ isSpace c = false := by
  have hall : comparisonMarks.all (fun c => ! isWord c && ! isSpace c) = true := by decide
  have hmark := List.all_eq_true.mp hall c hc
  rwa [Bool.and_eq_true_iff, Bool.not_eq_true', Bool.not_eq_true'] at hmark

/-- A line with a comparison behind its name assigns nothing. -/
theorem Compares.not_assigns {raw name value : Text} (hcompares : Compares raw) :
    ¬ Assigns raw name value := by
  obtain ⟨name', blanks', mark, rest, hname', hblanks', hmark, rfl⟩ := hcompares
  obtain ⟨hword, hvisible⟩ := visible_of_mem_comparisonMarks hmark
  intro h
  obtain ⟨blanks, hblanks, heq⟩ := h.written
  obtain ⟨-, hbehind⟩ := eq_of_append_words hname'.isWord
    (isWord_head?_behind hblanks' hword ('=' :: rest)) h.identifier.isWord
    (isWord_head?_behind hblanks (by decide) value) heq
  have hdrop := congrArg (List.dropWhile isSpace) hbehind
  rw [dropWhile_run hblanks' (forall_head?_cons hvisible _),
    dropWhile_run hblanks (forall_head?_cons (by decide) value)] at hdrop
  exact h.single (by rw [← (List.cons.inj hdrop).2]; rfl)

/-! ## The variables of a file -/

theorem snippet_of_trim {value value' : Text} (htrim : trim value = trim value')
    (length : Int) : snippet value length = snippet value' length := by
  rw [snippet, snippet, htrim]

/-- The variable on a line, if the line assigns. -/
theorem assigned?_ofText_eq_some_iff {options : OutlineOptions} {i : Nat} {raw : Text}
    {v : VariableDecl} (hline : '\n' ∉ raw) :
    (Line.ofText i raw).assigned? options = some v ↔
      ∃ value, Assigns raw v.name value ∧ v.line = i + 1 ∧
        v.snippet = some (snippet value options.snippetLength) := by
  constructor
  · intro hassigned
    unfold Line.assigned? at hassigned
    split at hassigned
    · next hform =>
      split at hassigned
      · next hindent =>
        obtain ⟨value, hassigns, htrim⟩ := exists_assigns_of_form hline hindent hform
        obtain rfl := Option.some.inj hassigned
        exact ⟨value, hassigns, rfl, congrArg some (snippet_of_trim htrim _)⟩
      · cases hassigned
    · cases hassigned
  · rintro ⟨value, hassigns, hnumber, hsnippet⟩
    obtain ⟨taken, hform, htrim⟩ := hassigns.form hline
    have hform' : (Line.ofText i raw).form = .assignment [] v.name taken := hform
    have hindent : (Line.ofText i raw).indent = 0 := hassigns.indentation_eq_zero
    obtain ⟨name, line, cut⟩ := v
    dsimp only at hnumber hsnippet hform'
    rw [Line.assigned?, hform']
    dsimp only
    rw [if_pos hindent, hnumber, hsnippet, snippet_of_trim htrim]
    rfl

/-- The variables of a file are, in the order of the lines, one for each line that assigns: with
the name that stands there, the number of the line and the snippet of the value. A comparison
gives none. -/
theorem variables_exact (options : ReadingOptions) (length : Int)
    (hlength : options.snippetLength.integer? = some length) (f : SourceFile) (content : Text)
    (hcontent : f.content = some content) :
    ∃ o, f.outline options = .ok o ∧ o.globals.Pairwise (fun v w => v.line < w.line) ∧
      (∀ v, v ∈ o.globals ↔
        ∃ (i : Nat) (raw value : Text), (Text.lines content)[i]? = some raw ∧
          Assigns raw v.name value ∧ v.line = i + 1 ∧
          v.snippet = some (snippet value length)) ∧
      ∀ (i : Nat) (raw : Text), (Text.lines content)[i]? = some raw → Compares raw →
        ∀ v ∈ o.globals, v.line ≠ i + 1 := by
  have hfree : ∀ {i : Nat} {raw : Text}, (Text.lines content)[i]? = some raw →
      '\n' ∉ raw := fun hline =>
    not_mem_of_mem_split (List.mem_of_getElem? hline)
  have hmem : ∀ v : VariableDecl,
      v ∈ (Line.scan content).filterMap (Line.assigned? ⟨options.docstrings, length⟩) ↔
        ∃ (i : Nat) (raw value : Text), (Text.lines content)[i]? = some raw ∧
          Assigns raw v.name value ∧
          v.line = i + 1 ∧ v.snippet = some (snippet value length) := by
    intro v
    rw [List.mem_filterMap]
    constructor
    · rintro ⟨l, hl, hassigned⟩
      obtain ⟨i, hi, rfl⟩ := List.mem_mapIdx.mp hl
      have hline := List.getElem?_eq_getElem hi
      obtain ⟨value, hvalue⟩ := (assigned?_ofText_eq_some_iff (hfree hline)).mp hassigned
      exact ⟨i, _, value, hline, hvalue⟩
    · rintro ⟨i, raw, value, hline, hvalue⟩
      exact ⟨Line.ofText i raw, List.mem_of_getElem? (getElem?_scan hline),
        (assigned?_ofText_eq_some_iff (hfree hline)).mpr ⟨value, hvalue⟩⟩
  refine ⟨_, outline_eq_read hlength hcontent, ?_, hmem, ?_⟩
  · refine List.pairwise_filterMap.mpr ((numbers_ascending content).imp fun hlt v hv w hw => ?_)
    rw [line_of_assigned? hv, line_of_assigned? hw]
    exact Int.ofNat_lt.mpr hlt
  · intro i raw hline hcompares v hv hnumber
    obtain ⟨j, raw', value, hline', hassigns, hnumber', -⟩ := (hmem v).mp hv
    obtain rfl : i = j := by omega
    obtain rfl := Option.some.inj (hline.symm.trans hline')
    exact hcompares.not_assigns hassigns

/-- `x = = 1`, `import = 2`, `import= 3`, `y =` and two blanks, and `z ==4`. -/
def equalsFile : SourceFile :=
  { name := "a.py".toList
    content := some "x = = 1\nimport = 2\nimport= 3\ny =  \nz ==4".toList }

/-- The second equals sign of the first line belongs to the value, and the value of the fourth
is blank. The second line is an import and the last one a comparison. -/
theorem variables_exact_equalsFile :
    ∃ o, equalsFile.outline ⟨true, .number 40⟩ = .ok o ∧
      { name := ['x'], line := 1, snippet := some "= 1".toList } ∈ o.globals ∧
      { name := "import".toList, line := 3, snippet := some ['3'] } ∈ o.globals ∧
      { name := ['y'], line := 4, snippet := some [] } ∈ o.globals ∧
      ∀ v ∈ o.globals, v.line ≠ 2 ∧ v.line ≠ 5 := by
  obtain ⟨o, ho, -, hmem, hcompares⟩ :=
    variables_exact ⟨true, .number 40⟩ 40 rfl equalsFile _ rfl
  have hname : ∀ c, isNameStart c = true → IsIdentifier [c] :=
    fun c hc => ⟨hc, List.forall_mem_nil _⟩
  have hblank : ∀ c ∈ [' '], isSpace c = true := List.forall_mem_singleton.mpr (by decide)
  have hother : ∀ c t, c ≠ 'i' → ¬ StartsImport (c :: t) := fun c t hc ⟨d, rest, _, heq⟩ =>
    hc (List.cons.inj heq).1
  have hequals : ¬ StartsImport "import= 3".toList := by
    rintro ⟨c, rest, hc, heq⟩
    have hc' : '=' = c := Option.some.inj (congrArg (fun t => t[6]?) heq)
    rw [← hc'] at hc
    exact absurd hc (by decide)
  have hx : Assigns "x = = 1".toList ['x'] " = 1".toList :=
    ⟨hname 'x' (by decide), ⟨[' '], hblank, rfl⟩,
      by decide, by decide, hother 'x' _ (by decide)⟩
  have himport : Assigns "import= 3".toList "import".toList " 3".toList :=
    ⟨⟨by decide, List.all_eq_true.mp (by decide)⟩, ⟨[], List.forall_mem_nil _, rfl⟩, by
      decide, by decide, hequals⟩
  have hy : Assigns "y =  ".toList ['y'] "  ".toList :=
    ⟨hname 'y' (by decide), ⟨[' '], hblank, rfl⟩,
      by decide, by decide, hother 'y' _ (by decide)⟩
  refine ⟨o, ho, ?_, ?_, ?_, fun v hv => ⟨fun htwo => ?_, ?_⟩⟩
  · exact (hmem _).mpr ⟨0, _, _, by decide +kernel, hx, rfl, by decide +kernel⟩
  · exact (hmem _).mpr ⟨2, _, _, by decide +kernel, himport, rfl, by decide +kernel⟩
  · exact (hmem _).mpr ⟨3, _, _, by decide +kernel, hy, rfl, by decide +kernel⟩
  · obtain ⟨i, raw, value, hline, hassigns, hnumber, -⟩ := (hmem v).mp hv
    obtain rfl : i = 1 := by omega
    have hraw : some "import = 2".toList = some raw := Eq.trans (by decide +kernel) hline
    rw [← Option.some.inj hraw] at hassigns
    exact hassigns.not_import ⟨' ', "= 2".toList, by decide, rfl⟩
  · exact hcompares 4 "z ==4".toList (by decide +kernel)
      ⟨['z'], [' '], '=', ['4'], hname 'z' (by decide), hblank, by decide, rfl⟩ v hv

end SymbolGraph
