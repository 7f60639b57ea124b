import SymbolGraph.Proofs.Line.Rendering
import SymbolGraph.Proofs.Outline.Alongside
import SymbolGraph.Proofs.Outline.CallSite
import SymbolGraph.Proofs.Outline.Concatenation
import SymbolGraph.Proofs.Outline.HeaderLine
set_option autoImplicit false

/-!
# Blanks around a line

Blanks in front of a line move it to the right and change nothing else that is read of it, but
for the indentation that an assignment keeps (`alongside_append_left`). Blanks behind a line
that is not empty are not looked at: a header ends with its colon, a call with its parenthesis,
and a quote holds no blank (`alongside_append_right`). Imports and assignments do take them in,
so that these may become statements without them, or the other way round.
-/

namespace SymbolGraph

open Text

/-! ## Looking for a mark -/

section

variable {mark blanks : Text} (hblanks : ∀ c ∈ blanks, c ∉ mark)
include hblanks

theorem breakOn?_append_left (hmark : mark ≠ []) (t : Text) :
    breakOn? mark (blanks ++ t) = (breakOn? mark t).map fun parts =>
      (blanks ++ parts.1, parts.2) := by
  induction blanks with
  | nil => simp
  | cons c blanks ih =>
      have hdrop : dropHead? mark (c :: (blanks ++ t)) = none := by
        cases mark with
        | nil => exact absurd rfl hmark
        | cons d mark =>
            rw [dropHead?, if_neg]
            rintro rfl
            exact hblanks d List.mem_cons_self List.mem_cons_self
      rw [List.cons_append, breakOn?, hdrop,
        ih fun d hd => hblanks d (List.mem_cons_of_mem c hd), Option.map_map]
      rfl

theorem dropHead?_append_right (t : Text) :
    dropHead? mark (t ++ blanks) = (dropHead? mark t).map (· ++ blanks) := by
  induction mark generalizing t with
  | nil => rfl
  | cons d mark ih =>
      cases t with
      | nil =>
          cases blanks with
          | nil => rfl
          | cons c blanks =>
              refine if_neg ?_
              rintro rfl
              exact hblanks d List.mem_cons_self List.mem_cons_self
      | cons c t =>
          rw [List.cons_append, dropHead?, dropHead?]
          split
          · exact ih (fun e he hmem => hblanks e he (List.mem_cons_of_mem d hmem)) t
          · rfl

theorem breakOn?_append_right (hmark : mark ≠ []) (t : Text) :
    breakOn? mark (t ++ blanks) = (breakOn? mark t).map fun parts =>
      (parts.1, parts.2 ++ blanks) := by
  have hempty : breakOn? mark [] = none := if_neg hmark
  induction t with
  | nil =>
      have hnone := breakOn?_append_left hblanks hmark []
      rw [List.append_nil, hempty] at hnone
      rw [List.nil_append, hnone, hempty]
      rfl
  | cons c t ih =>
      rw [List.cons_append, breakOn?, ← List.cons_append,
        dropHead?_append_right hblanks, breakOn?]
      cases dropHead? mark (c :: t) with
      | some rest => rfl
      | none =>
          rw [Option.map_none, ih, Option.map_map, Option.map_map]
          rfl

end

/-- No blank stands in a quote. -/
theorem Docstring.not_mem_of_mem_quotes {quote : Text} (hquote : quote ∈ quotes) {c : Char}
    (hc : isSpace c = true) : c ∉ quote := by
  intro hmem
  have hmark : c = '"' ∨ c = '\'' := by
    rcases List.mem_cons.mp hquote with rfl | hquote
    · exact Or.inl (List.eq_of_mem_replicate hmem)
    · rw [List.mem_singleton.mp hquote] at hmem
      exact Or.inr (List.eq_of_mem_replicate hmem)
  rcases hmark with rfl | rfl
  · exact absurd hc (by decide)
  · exact absurd hc (by decide)

theorem Docstring.ne_nil_of_mem_quotes {quote : Text} (hquote : quote ∈ quotes) :
    quote ≠ [] := by
  rcases List.mem_cons.mp hquote with rfl | hquote
  · exact List.cons_ne_nil _ _
  · rw [List.mem_singleton.mp hquote]
    exact List.cons_ne_nil _ _

/-! ## Blanks in front of a line -/

/-- Columns are counted from where the text starts. -/
theorem calledNames_add (k column : Nat) (t : Text) :
    calledNames (column + k) t = (calledNames column t).map fun site =>
      (site.1 + k, site.2) := by
  induction t using calledNames_induction generalizing column with
  | stop => simp [calledNames]
  | name c cs hc ih =>
      rw [calledNames_of_isNameStart _ hc, calledNames_of_isNameStart _ hc,
        Nat.add_right_comm, ih, List.map_append]
      split <;> rfl
  | other c cs hc ih =>
      rw [calledNames_of_not_isNameStart _ hc, calledNames_of_not_isNameStart _ hc,
        Nat.add_right_comm, ih]

theorem isNameStart_of_isSpace {c : Char} (hc : isSpace c = true) : isNameStart c = false := by
  refine Bool.eq_false_iff.mpr fun hstart => ?_
  have hdotted := isDottedChar_of_isNameStart hstart
  rw [isDottedChar_of_isSpace hc] at hdotted
  cases hdotted

/-- There are no names in blanks. -/
theorem calledNames_append_left {blanks : Text} (hblanks : ∀ c ∈ blanks, isSpace c = true)
    (column : Nat) (t : Text) :
    calledNames column (blanks ++ t) = calledNames (column + blanks.length) t := by
  induction blanks generalizing column with
  | nil => rfl
  | cons c blanks ih =>
      have hc := isNameStart_of_isSpace (hblanks c List.mem_cons_self)
      rw [List.cons_append, calledNames_of_not_isNameStart _ hc,
        ih fun d hd => hblanks d (List.mem_cons_of_mem c hd), List.length_cons, Nat.add_assoc,
        Nat.add_comm 1]

section

variable {pad : Text} (hpad : ∀ c ∈ pad, isIndent c = true)
include hpad

theorem indentation_append (raw : Text) :
    indentation (pad ++ raw) = indentation raw + pad.length := by
  rw [indentation, List.takeWhile_append_of_pos hpad, List.length_append, Nat.add_comm,
    indentation]

theorem trim_append_left (raw : Text) : trim (pad ++ raw) = trim raw :=
  trimBy_append_left fun c hc => isSpace_of_isIndent (hpad c hc)

omit hpad in
theorem assignment?_append (indent t : Text) :
    assignment? (pad ++ indent) t = assignment? indent t ∨
      ∃ name value, assignment? indent t = some (.assignment indent name value) ∧
        assignment? (pad ++ indent) t = some (.assignment (pad ++ indent) name value) := by
  unfold assignment?
  cases identifier? t with
  | none => exact Or.inl rfl
  | some parts =>
      simp only [Option.bind_eq_bind, Option.bind_some]
      cases dropHead? ['='] (trimLeft parts.2) with
      | none => exact Or.inl rfl
      | some rest =>
          simp only [Option.bind_some]
          cases afterBlanks assignedValue? rest with
          | none => exact Or.inl rfl
          | some value => exact Or.inr ⟨_, _, rfl, rfl⟩

omit hpad in
/-- Only an assignment, which is looked for last, keeps its indentation. -/
theorem recognised_append (indent t : Text) :
    let form (indent : Text) :=
  ((classHeader? t) <|> (functionHeader? t) <|> (fromImport? t) <|>
      (plainImport? t) <|> (assignment? indent t)).getD .statement
    form (pad ++ indent) = form indent ∨
      ∃ name value, form indent = .assignment indent name value ∧
      form (pad ++ indent) = .assignment (pad ++ indent) name value := by
  intro form
  simp only [form, Option.orElse_eq_orElse, Option.orElse_eq_or, ← Option.or_assoc]
  generalize (((classHeader? t).or (functionHeader? t)).or (fromImport? t)).or
    (plainImport? t) = earlier
  cases earlier with
  | some found => exact Or.inl rfl
  | none =>
      rcases @assignment?_append pad indent t with heq | ⟨name, value, hthere, hhere⟩
      · rw [heq]
        exact Or.inl rfl
      · rw [hthere, hhere]
        exact Or.inr ⟨name, value, rfl, rfl⟩

/-- Blanks in front of a line change nothing but the indentation that an assignment has. -/
theorem form_append_left (raw : Text) :
    LineForm.ofText (pad ++ raw) = LineForm.ofText raw ∨
      ∃ indent name value, LineForm.ofText raw = .assignment indent name value ∧
        LineForm.ofText (pad ++ raw) = .assignment (pad ++ indent) name value := by
  unfold LineForm.ofText
  rw [trim_append_left hpad, List.takeWhile_append_of_pos hpad,
    List.dropWhile_append_of_pos hpad]
  split
  · exact Or.inl rfl
  · exact Or.inl rfl
  · dsimp only
    split
    · exact Or.inl rfl
    · exact (recognised_append _ _).imp_right fun ⟨name, value, h⟩ => ⟨_, name, value, h⟩

/-- The line imports what it imports without the blanks. -/
theorem import?_append_left (i : Nat) (raw : Text) :
    (Line.ofText i (pad ++ raw)).import? = (Line.ofText i raw).import? := by
  have hcontent : (Line.ofText i (pad ++ raw)).content = (Line.ofText i raw).content :=
    trim_append_left hpad raw
  unfold Line.import?
  rw [hcontent]
  rcases form_append_left hpad raw with heq | ⟨indent, name, value, hthere, hhere⟩
  · simp only [Line.ofText, heq]
    rfl
  · simp only [Line.ofText, hthere, hhere]

/-- A line with blanks in front is read as the line, further to the right. -/
theorem alongside_append_left (i : Nat) (raw : Text) :
    (Line.ofText i raw).Alongside pad.length (Line.ofText i (pad ++ raw)) where
  index := rfl
  indent := indentation_append hpad raw
  content := trim_append_left hpad raw
  form := by
    refine (form_append_left hpad raw).imp_right ?_
    rintro ⟨indent, name, value, hthere, hhere⟩
    simp only [Line.ofText, hthere, hhere]
    exact ⟨rfl, rfl⟩
  callSites := by
    have hblanks : ∀ c ∈ pad, isSpace c = true := fun c hc => isSpace_of_isIndent (hpad c hc)
    simp only [Line.callSites, Line.ofText, calledNames_append_left hblanks, calledNames_add,
      List.filter_map, List.map_map]
    rfl
  quotes := by
    intro quote hquote
    have hfree : ∀ c ∈ pad, c ∉ quote := fun c hc =>
      Docstring.not_mem_of_mem_quotes hquote (isSpace_of_isIndent (hpad c hc))
    exact (congrArg Option.isSome
      (breakOn?_append_left hfree (Docstring.ne_nil_of_mem_quotes hquote) raw)
      ).trans Option.isSome_map

end

theorem isIndent_of_mem_blanks (k : Nat) : ∀ c ∈ List.replicate k ' ', isIndent c = true := by
  intro c hc
  rw [List.eq_of_mem_replicate hc]
  rfl

/-! ## Blanks behind a header -/

theorem isWord_of_isSpace {c : Char} (hc : isSpace c = true) : isWord c = false :=
  (Bool.or_eq_false_iff.mp (isDottedChar_of_isSpace hc)).1

theorem dropWhile_append_of_head {α : Type} {p : α → Bool} {ys : List α}
    (hys : ∀ y ∈ ys.head?, p y = false) (xs : List α) :
    (xs ++ ys).dropWhile p = xs.dropWhile p ++ ys := by
  rw [List.dropWhile_append]
  split
  · next hempty =>
    rw [List.isEmpty_iff.mp hempty, List.nil_append]
    cases ys with
    | nil => rfl
    | cons y ys => exact List.dropWhile_cons_of_neg (by simp [hys y rfl])
  · rfl

section

variable {α : Type} {p : α → Bool} {xs : List α} (hvisible : xs.dropWhile p ≠ [])
include hvisible

theorem dropWhile_append_of_ne_nil (ys : List α) :
    (xs ++ ys).dropWhile p = xs.dropWhile p ++ ys := by
  rw [List.dropWhile_append, if_neg (by simpa using hvisible)]

theorem takeWhile_append_of_ne_nil (ys : List α) : (xs ++ ys).takeWhile p = xs.takeWhile p := by
  have hwhole := List.takeWhile_append_dropWhile (p := p) (l := xs ++ ys)
  rw [dropWhile_append_of_ne_nil hvisible, ← List.append_assoc] at hwhole
  exact List.append_cancel_right ((List.append_cancel_right hwhole).trans
    List.takeWhile_append_dropWhile.symm)

end

section

variable {blanks : Text} (hblanks : ∀ c ∈ blanks, isSpace c = true)
include hblanks

theorem not_mem_blanks {c : Char} (hc : isSpace c = false) : c ∉ blanks :=
  fun hmem => absurd (hc.symm.trans (hblanks c hmem)) Bool.false_ne_true

theorem head?_blanks {p : Char → Bool} (hp : ∀ c, isSpace c = true → p c = false) :
    ∀ c ∈ blanks.head?, p c = false :=
  fun c hc => hp c (hblanks c (List.mem_of_mem_head? hc))

theorem identifier?_append_right (t : Text) :
    identifier? (t ++ blanks) = (identifier? t).map fun parts =>
      (parts.1, parts.2 ++ blanks) := by
  cases t with
  | nil =>
      cases blanks with
      | nil => rfl
      | cons c blanks =>
          refine if_neg ?_
          rw [isNameStart_of_isSpace (hblanks c List.mem_cons_self)]
          exact Bool.false_ne_true
  | cons c t =>
      have hhead := head?_blanks hblanks fun d => isWord_of_isSpace (c := d)
      rw [List.cons_append, identifier?, identifier?, takeWhile_append_of_head hhead,
        dropWhile_append_of_head hhead]
      split <;> rfl

theorem parenthesised?_append_right (t : Text) :
    parenthesised? (t ++ blanks) = (parenthesised? t).map fun parts =>
      (parts.1, parts.2 ++ blanks) := by
  cases t with
  | nil =>
      cases blanks with
      | nil => rfl
      | cons c blanks =>
          have hc : c ≠ '(' := by
            rintro rfl
            exact absurd (hblanks '(' List.mem_cons_self) (by decide)
          rw [List.nil_append, parenthesised?]
          · rfl
          · rintro cs heq
            exact hc (List.cons.inj heq).1
  | cons c t =>
      by_cases hc : c = '('
      · subst hc
        by_cases hclosed : ')' ∈ t
        · obtain ⟨inner, rest, rfl, hinner⟩ := List.eq_append_cons_of_mem hclosed
          rw [parenthesised?_append hinner, List.cons_append, List.append_assoc,
            List.cons_append, parenthesised?_append hinner]
          rfl
        · have hopen : ')' ∉ t ++ blanks := fun hmem =>
            (List.mem_append.mp hmem).elim hclosed (not_mem_blanks hblanks (by decide))
          rw [List.cons_append, parenthesised?, parenthesised?,
            List.dropWhile_eq_nil_iff.mpr (forall_ne_of_not_mem hclosed),
            List.dropWhile_eq_nil_iff.mpr (forall_ne_of_not_mem hopen)]
          rfl
      · have hnone : ∀ t, parenthesised? (c :: t) = none := by
          intro t
          rw [parenthesised?]
          rintro cs heq
          exact hc (List.cons.inj heq).1
        rw [List.cons_append, hnone, hnone]
        rfl

theorem trimLeft_append_blanks (t : Text) :
    trimLeft (t ++ blanks) = if trimLeft t = [] then [] else trimLeft t ++ blanks := by
  rw [trimLeft, trimLeft, List.dropWhile_append, List.dropWhile_eq_nil_iff.mpr hblanks]
  by_cases hnone : t.dropWhile isSpace = []
  · simp only [hnone, List.isEmpty_nil, if_true]
  · rw [if_neg hnone, if_neg (by simpa using hnone)]

theorem head?_trimLeft_append (t : Text) :
    (trimLeft (t ++ blanks)).head? = (trimLeft t).head? := by
  rw [trimLeft_append_blanks hblanks]
  split
  · next hnone => rw [hnone]
  · next hsome => exact List.head?_append_of_ne_nil _ hsome

/-- What is read behind blanks is read there also in front of blanks. -/
theorem read_trimLeft_append {α : Type} {read : Text → Option α} {extend : α → α}
    (hread : ∀ t, read (t ++ blanks) = (read t).map extend) (hempty : read [] = none)
    (t : Text) : read (trimLeft (t ++ blanks)) = (read (trimLeft t)).map extend := by
  rw [trimLeft_append_blanks hblanks]
  split
  · next hnone =>
    rw [hnone, hempty]
    rfl
  · exact hread _

end

/-- No blank starts an identifier, so none is given back. -/
theorem afterBlanks_identifier? (t : Text) :
    afterBlanks identifier? t = identifier? (trimLeft t) := by
  induction t with
  | nil => rfl
  | cons c t ih =>
      rw [afterBlanks, trimLeft, List.dropWhile_cons]
      split
      · next hc =>
        have hnone : identifier? (c :: t) = none := by
          refine if_neg ?_
          rw [isNameStart_of_isSpace hc]
          exact Bool.false_ne_true
        rw [ih, hnone, ← trimLeft]
        cases identifier? (trimLeft t) <;> rfl
      · rfl

theorem opensBlock_iff (t : Text) : opensBlock t = true ↔ (trimLeft t).head? = some ':' := by
  unfold opensBlock
  split
  · next heq => simp [heq]
  · next hne =>
    refine iff_of_false Bool.false_ne_true fun hhead => ?_
    obtain ⟨rest, hrest⟩ := List.head?_eq_some_iff.mp hhead
    exact hne rest hrest

theorem opensCall_iff (t : Text) : opensCall t = true ↔ (trimLeft t).head? = some '(' := by
  unfold opensCall
  split
  · next heq => simp [heq]
  · next hne =>
    refine iff_of_false Bool.false_ne_true fun hhead => ?_
    obtain ⟨rest, hrest⟩ := List.head?_eq_some_iff.mp hhead
    exact hne rest hrest

section

variable {blanks : Text} (hblanks : ∀ c ∈ blanks, isSpace c = true)
include hblanks

theorem opensBlock_append_right (t : Text) : opensBlock (t ++ blanks) = opensBlock t := by
  rw [Bool.eq_iff_iff, opensBlock_iff, opensBlock_iff, head?_trimLeft_append hblanks]

theorem opensCall_append_right (t : Text) : opensCall (t ++ blanks) = opensCall t := by
  rw [Bool.eq_iff_iff, opensCall_iff, opensCall_iff, head?_trimLeft_append hblanks]

theorem afterSomeBlanks_identifier?_append (t : Text) :
    afterSomeBlanks identifier? (t ++ blanks) =
      (afterSomeBlanks identifier? t).map fun parts => (parts.1, parts.2 ++ blanks) := by
  cases t with
  | nil =>
      cases blanks with
      | nil => rfl
      | cons c blanks =>
          have hrest : trimLeft blanks = [] :=
            List.dropWhile_eq_nil_iff.mpr fun d hd => hblanks d (List.mem_cons_of_mem c hd)
          refine (if_pos (hblanks c List.mem_cons_self)).trans ?_
          rw [afterBlanks_identifier?, hrest]
          rfl
  | cons c t =>
      rw [List.cons_append, afterSomeBlanks, afterSomeBlanks, afterBlanks_identifier?,
        afterBlanks_identifier?,
        read_trimLeft_append hblanks (identifier?_append_right hblanks) rfl]
      split <;> rfl

omit hblanks in
/-- What does not look at blanks behind a text does not look at them when it is read behind
blanks. -/
theorem afterBlanks_append_right {α : Type} {read : Text → Option α}
    (hread : ∀ t blanks, (∀ c ∈ blanks, isSpace c = true) → read (t ++ blanks) = read t)
    (hblanks : ∀ c ∈ blanks, isSpace c = true) (t : Text) :
    afterBlanks read (t ++ blanks) = afterBlanks read t := by
  induction t with
  | nil =>
      induction blanks with
      | nil => rfl
      | cons c blanks ih =>
          have hstart := hread [] (c :: blanks) hblanks
          have hrest := ih fun d hd => hblanks d (List.mem_cons_of_mem c hd)
          rw [List.nil_append] at hstart hrest
          rw [afterBlanks] at hrest
          rw [List.nil_append, afterBlanks, afterBlanks, hrest, hstart]
          cases read [] <;> simp
  | cons c t ih =>
      rw [List.cons_append, afterBlanks, afterBlanks, ih, ← List.cons_append,
        hread (c :: t) blanks hblanks]

/-- A hint ends with its colon, so that what stands behind does not count. -/
theorem returnHint?_append_right (t : Text) : returnHint? (t ++ blanks) = returnHint? t := by
  refine afterBlanks_append_right (fun t blanks hblanks => ?_) hblanks t
  by_cases hcolon : ':' ∈ t
  · obtain ⟨hint, rest, rfl, hfree⟩ := List.eq_append_cons_of_mem hcolon
    rw [List.append_assoc, List.cons_append]
    simp only [dropWhile_until hfree, takeWhile_until hfree]
  · have hnone : ':' ∉ t ++ blanks := fun hmem =>
      (List.mem_append.mp hmem).elim hcolon (not_mem_blanks hblanks (by decide))
    simp only [List.dropWhile_eq_nil_iff.mpr (forall_ne_of_not_mem hcolon),
      List.dropWhile_eq_nil_iff.mpr (forall_ne_of_not_mem hnone)]

theorem dropHead?_append_blanks {word : Text} (hword : word.all (! isSpace ·) = true)
    (t : Text) : dropHead? word (t ++ blanks) = (dropHead? word t).map (· ++ blanks) := by
  refine dropHead?_append_right (fun c hc hmem => ?_) t
  have hvisible := List.all_eq_true.mp hword c hmem
  rw [hblanks c hc] at hvisible
  cases hvisible

omit hblanks in
/-- The word `async` with nothing but blanks behind it is in front of no `def`. -/
theorem dropHead?_asyncMark {rest : Text} (hrest : ∀ c ∈ rest, isSpace c = true) :
    dropHead? "def".toList (asyncMark ("async".toList ++ rest)).2 = none := by
  have htaken : rest.takeWhile isSpace = rest := List.takeWhile_eq_self_iff.mpr hrest
  rw [asyncMark, dropHead?_append]
  dsimp only
  rw [htaken, List.dropWhile_eq_nil_iff.mpr hrest]
  cases rest <;> rfl

/-- The word `async` is told by what stands behind it, unless this is nothing but blanks. -/
theorem asyncMark_append_right (t : Text) :
    asyncMark (t ++ blanks) = ((asyncMark t).1, (asyncMark t).2 ++ blanks) ∨
      dropHead? "def".toList (asyncMark t).2 = none ∧
        dropHead? "def".toList (asyncMark (t ++ blanks)).2 = none := by
  cases hword : dropHead? "async".toList t with
  | none =>
      refine Or.inl ?_
      rw [asyncMark, asyncMark, dropHead?_append_blanks hblanks (by decide), hword]
      rfl
  | some rest =>
      have ht := eq_append_of_dropHead? hword
      by_cases hrest : ∀ c ∈ rest, isSpace c = true
      · refine Or.inr ?_
        subst ht
        refine ⟨dropHead?_asyncMark hrest, ?_⟩
        rw [List.append_assoc]
        refine dropHead?_asyncMark fun c hc => ?_
        exact (List.mem_append.mp hc).elim (hrest c) (hblanks c)
      · refine Or.inl ?_
        have hvisible : rest.dropWhile isSpace ≠ [] :=
          fun h => hrest (List.dropWhile_eq_nil_iff.mp h)
        rw [asyncMark, asyncMark, dropHead?_append_blanks hblanks (by decide), hword]
        simp only [Option.map_some, dropWhile_append_of_ne_nil hvisible,
          takeWhile_append_of_ne_nil hvisible]
        split <;> rfl

theorem classHeader?_append_right (t : Text) : classHeader? (t ++ blanks) = classHeader? t := by
  unfold classHeader?
  rw [dropHead?_append_blanks hblanks (by decide)]
  cases dropHead? "class".toList t with
  | none => rfl
  | some t =>
      simp only [Option.map_some, Option.bind_eq_bind, Option.bind_some,
        afterSomeBlanks_identifier?_append hblanks]
      cases afterSomeBlanks identifier? t with
      | none => rfl
      | some parts =>
          simp only [Option.map_some, Option.bind_some, parenthesised?_append_right hblanks]
          cases parenthesised? parts.2 <;>
            simp only [Option.map_some, Option.map_none, opensBlock_append_right hblanks]

theorem functionHeader?_append_right (t : Text) :
    functionHeader? (t ++ blanks) = functionHeader? t := by
  unfold functionHeader?
  rcases asyncMark_append_right hblanks t with heq | ⟨hhere, hthere⟩
  · rw [heq]
    dsimp only
    rw [dropHead?_append_blanks hblanks (by decide)]
    cases dropHead? "def".toList (asyncMark t).2 with
    | none => rfl
    | some t =>
        simp only [Option.map_some, Option.bind_eq_bind, Option.bind_some,
          afterSomeBlanks_identifier?_append hblanks]
        cases afterSomeBlanks identifier? t with
        | none => rfl
        | some parts =>
            have hparameters :=
              read_trimLeft_append hblanks (parenthesised?_append_right hblanks) rfl parts.2
            simp only [Option.map_some, Option.bind_some, hparameters]
            cases parenthesised? (trimLeft parts.2) with
            | none => rfl
            | some parts =>
                have harrow := read_trimLeft_append hblanks
                  (@dropHead?_append_blanks blanks hblanks "->".toList (by decide)) rfl parts.2
                simp only [Option.map_some, Option.bind_some, harrow]
                cases dropHead? "->".toList (trimLeft parts.2) <;>
                  simp only [Option.map_some, Option.map_none, opensBlock_append_right hblanks,
                    returnHint?_append_right hblanks]
  · dsimp only
    rw [hhere, hthere]
    rfl

/-- A name with blanks behind it is called as it is without them. -/
theorem calledNames_append_right (column : Nat) (t : Text) :
    calledNames column (t ++ blanks) = calledNames column t := by
  induction t using calledNames_induction generalizing column with
  | stop =>
      rw [List.nil_append, ← List.append_nil blanks, calledNames_append_left hblanks]
      simp [calledNames]
  | name c cs hc ih =>
      have hhead := head?_blanks hblanks fun d => isDottedChar_of_isSpace (c := d)
      rw [List.cons_append, calledNames_of_isNameStart _ hc, calledNames_of_isNameStart _ hc,
        takeWhile_append_of_head hhead, dropWhile_append_of_head hhead, ih,
        opensCall_append_right hblanks]
  | other c cs hc ih =>
      rw [List.cons_append, calledNames_of_not_isNameStart _ hc,
        calledNames_of_not_isNameStart _ hc, ih]

omit hblanks in
theorem isPlain_of_mem_fromImport? {t : Text} {form : LineForm}
    (hform : fromImport? t = some form) : form.isPlain = true := by
  simp only [fromImport?, Option.bind_eq_bind, Option.bind_eq_some_iff] at hform
  obtain ⟨_, _, _, _, _, _, _, _, heq⟩ := hform
  cases heq
  rfl

omit hblanks in
theorem isPlain_of_mem_plainImport? {t : Text} {form : LineForm}
    (hform : plainImport? t = some form) : form.isPlain = true := by
  simp only [plainImport?, Option.bind_eq_bind, Option.bind_eq_some_iff] at hform
  obtain ⟨_, _, _, _, heq⟩ := hform
  cases heq
  rfl

omit hblanks in
theorem isPlain_of_mem_assignment? {indent t : Text} {form : LineForm}
    (hform : assignment? indent t = some form) : form.isPlain = true := by
  simp only [assignment?, Option.bind_eq_bind, Option.bind_eq_some_iff] at hform
  obtain ⟨_, _, _, _, _, _, heq⟩ := hform
  cases heq
  rfl

omit hblanks in
/-- What is no header is an import, an assignment or a statement. -/
theorem isPlain_of_no_header (indent t : Text) :
    ((fromImport? t <|> plainImport? t <|> assignment? indent t).getD .statement).isPlain =
      true := by
  cases hfrom : fromImport? t with
  | some form => exact isPlain_of_mem_fromImport? hfrom
  | none =>
      cases hplain : plainImport? t with
      | some form => exact isPlain_of_mem_plainImport? hplain
      | none =>
          cases hassigned : assignment? indent t with
          | some form => exact isPlain_of_mem_assignment? hassigned
          | none => rfl

/-- Blanks behind a line may make it another import or assignment, or none, but nothing else. -/
theorem form_append_right {raw : Text} (hvisible : raw.dropWhile isIndent ≠ []) :
    LineForm.ofText (raw ++ blanks) = LineForm.ofText raw ∨
      (LineForm.ofText raw).isPlain = true ∧
      (LineForm.ofText (raw ++ blanks)).isPlain = true := by
  have htrim : trim (raw ++ blanks) = trim raw := trimBy_append_right hblanks
  unfold LineForm.ofText
  rw [htrim, takeWhile_append_of_ne_nil hvisible, dropWhile_append_of_ne_nil hvisible]
  obtain ⟨c, t, ht⟩ := List.exists_cons_of_ne_nil hvisible
  split
  · exact Or.inl rfl
  · exact Or.inl rfl
  · rw [ht]
    have hclass := classHeader?_append_right hblanks (c :: t)
    have hfunction := functionHeader?_append_right hblanks (c :: t)
    rw [List.cons_append] at hclass hfunction
    simp only [List.cons_append, hclass, hfunction]
    split
    · next heq =>
      rw [(List.cons.inj heq).1]
      exact Or.inl rfl
    · next hne =>
      have hc : c ≠ '@' := fun heq => hne (t ++ blanks) (by rw [heq])
      split
      · next heq => exact absurd (List.cons.inj heq).1 hc
      · cases classHeader? (c :: t) with
        | some form => exact Or.inl rfl
        | none =>
            cases functionHeader? (c :: t) with
            | some form => exact Or.inl rfl
            | none => exact Or.inr ⟨isPlain_of_no_header _ _, isPlain_of_no_header _ _⟩

omit hblanks in
/-- A line with something visible does not end with its indentation. -/
theorem dropWhile_isIndent_ne_nil {raw : Text} (hvisible : trim raw ≠ []) :
    raw.dropWhile isIndent ≠ [] := by
  intro hnil
  have hspaces : ∀ c ∈ raw, isSpace c = true := fun c hc =>
    isSpace_of_isIndent (List.dropWhile_eq_nil_iff.mp hnil c hc)
  rw [trim, trimBy, List.dropWhile_eq_nil_iff.mpr hspaces] at hvisible
  exact hvisible rfl

/-- A line with blanks behind it is read as the line, unless the line is empty. -/
theorem alongside_append_right (i : Nat) {raw : Text} (hvisible : trim raw ≠ []) :
    (Line.ofText i raw).Alongside 0 (Line.ofText i (raw ++ blanks)) where
  index := rfl
  indent := by
    simp only [Line.ofText, indentation, Nat.add_zero,
      takeWhile_append_of_ne_nil (dropWhile_isIndent_ne_nil hvisible)]
  content := trimBy_append_right hblanks
  form := form_append_right hblanks (dropWhile_isIndent_ne_nil hvisible)
  callSites := by
    have hcolumns : ∀ c : CallSite, c.moveRight 0 = c := fun c => by simp [CallSite.moveRight]
    simp only [Line.callSites, Line.ofText, calledNames_append_right hblanks, List.map_map,
      Function.comp_def, hcolumns]
    rfl
  quotes := by
    intro quote hquote
    have hfree : ∀ c ∈ blanks, c ∉ quote := fun c hc =>
      Docstring.not_mem_of_mem_quotes hquote (hblanks c hc)
    exact (congrArg Option.isSome
      (breakOn?_append_right hfree (Docstring.ne_nil_of_mem_quotes hquote) raw)
      ).trans Option.isSome_map

end

end SymbolGraph
