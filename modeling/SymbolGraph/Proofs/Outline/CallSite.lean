import Mathlib.Data.List.DropRight
import Mathlib.Data.List.Infix
import SymbolGraph.Outline.CallSite
set_option autoImplicit false

/-!
# What a parenthesis calls

The search for calls goes over a line from left to right and takes each dotted name that has a
parenthesis behind it. Seen from the parentheses it is this: each parenthesis calls the name
that ends in front of it, blanks aside, if there is one.
-/

namespace SymbolGraph

open Text

/-! ## Characters -/

theorem inRanges_eq_false {ranges others : List (Nat × Nat)}
    (hapart : ∀ r ∈ ranges, ∀ s ∈ others, r.2 < s.1 ∨ s.2 < r.1) {c : Char}
    (hc : inRanges ranges c = true) : inRanges others c = false := by
  rw [inRanges, List.any_eq_true] at hc
  obtain ⟨r, hr, hin⟩ := hc
  rw [inRanges, List.any_eq_false]
  intro s hs
  have hdisjoint := hapart r hr s hs
  simp only [Bool.and_eq_true, decide_eq_true_eq] at hin ⊢
  omega

/-- A blank is neither a word character nor a dot. -/
theorem isDottedChar_of_isSpace {c : Char} (hc : isSpace c = true) :
    isDottedChar c = false := by
  by_cases hascii : c.toNat < 128
  · -- the blanks below 128 are among the first 33 characters
    have hcontrols : ∀ n < 33, isDottedChar (Char.ofNat n) = false := by decide +kernel
    have hlow : c.toNat < 33 := by
      simp only [isSpace, inRanges, spaceRanges, List.any_eq_true, Bool.and_eq_true,
        decide_eq_true_eq] at hc
      obtain ⟨r, hr, hfirst, hlast⟩ := hc
      have hranges : ∀ r ∈ spaceRanges, r.2 < 33 ∨ 128 ≤ r.1 := by decide
      rcases hranges r hr <;> omega
    exact Char.ofNat_toNat c ▸ hcontrols c.toNat hlow
  · have hword : inRanges wordRanges c = false := inRanges_eq_false (by decide +kernel) hc
    have hdot : c ≠ '.' := by
      rintro rfl
      exact hascii (by decide)
    simp [isDottedChar, isWord, hascii, hword, hdot]

theorem isSpace_of_isDottedChar {c : Char} (hc : isDottedChar c = true) :
    isSpace c = false := by
  cases hspace : isSpace c with
  | false => rfl
  | true =>
      rw [isDottedChar_of_isSpace hspace] at hc
      cases hc

theorem isDottedChar_of_isNameStart {c : Char} (hc : isNameStart c = true) :
    isDottedChar c = true := by
  have hascii : c.toNat < 128 := by
    rcases Bool.or_eq_true_iff.mp hc with halpha | hunderscore
    · rcases Bool.or_eq_true_iff.mp halpha with hupper | hlower
      · have hle : c.toNat ≤ 'Z'.toNat := (of_decide_eq_true hupper).2
        exact Nat.lt_of_le_of_lt hle (by decide)
      · have hle : c.toNat ≤ 'z'.toNat := of_decide_eq_true (Bool.and_eq_true_iff.mp hlower).2
        exact Nat.lt_of_le_of_lt hle (by decide)
    · rw [eq_of_beq hunderscore]
      decide
  rcases Bool.or_eq_true_iff.mp hc with hc | hc <;>
    simp [isDottedChar, isWord, hascii, Char.isAlphanum, hc]

/-- A name is made of word characters and dots. -/
theorem isDottedChar_of_mem_name {c : Char} {cs : Text} (hc : isNameStart c = true)
    (hcs : ∀ d ∈ cs, isDottedChar d = true) : ∀ d ∈ c :: cs, isDottedChar d = true :=
  List.forall_mem_cons.mpr ⟨isDottedChar_of_isNameStart hc, hcs⟩

/-! ## The name at the end of a text -/

/-- The name at the end of a text: the longest run of word characters and dots there, from its
first ASCII letter or underscore on. -/
def trailingName (t : Text) : Text := (t.rtakeWhile isDottedChar).dropWhile (! isNameStart ·)

theorem trailingName_isSuffix (t : Text) : trailingName t <:+ t :=
  (List.dropWhile_suffix _).trans (List.rtakeWhile_suffix _ t)

theorem trailingName_concat_of_not_dotted {t : Text} {c : Char} (hc : isDottedChar c = false) :
    trailingName (t ++ [c]) = [] := by
  rw [trailingName, List.rtakeWhile_concat_neg _ _ _ (by simp [hc])]
  rfl

/-- A character that starts no name starts none at the end of a text. -/
theorem trailingName_concat {t : Text} {c : Char} (ht : trailingName t = [])
    (hc : isNameStart c = false) : trailingName (t ++ [c]) = [] := by
  cases hdotted : isDottedChar c with
  | false => exact trailingName_concat_of_not_dotted hdotted
  | true =>
      rw [trailingName, List.dropWhile_eq_nil_iff] at ht ⊢
      rw [List.rtakeWhile_concat_pos _ _ _ hdotted]
      intro d hd
      rcases List.mem_append.mp hd with hd | hd
      · exact ht d hd
      · obtain rfl := List.mem_singleton.mp hd
        simp [hc]

/-- A name behind a text that ends in none is the name at the end. -/
theorem trailingName_append {before cs : Text} {c : Char} (hbefore : trailingName before = [])
    (hc : isNameStart c = true) (hcs : ∀ d ∈ cs, isDottedChar d = true) :
    trailingName (before ++ c :: cs) = c :: cs := by
  have hname : ∀ d ∈ (c :: cs).reverse, isDottedChar d = true := fun d hd =>
    isDottedChar_of_mem_name hc hcs d (List.mem_reverse.mp hd)
  have hrun : (before ++ c :: cs).rtakeWhile isDottedChar =
      before.rtakeWhile isDottedChar ++ c :: cs := by
    rw [List.rtakeWhile, List.reverse_append, List.takeWhile_append_of_pos hname,
      List.reverse_append, List.reverse_reverse, List.rtakeWhile]
  rw [trailingName, List.dropWhile_eq_nil_iff] at hbefore
  rw [trailingName, hrun, List.dropWhile_append_of_pos hbefore, List.dropWhile_cons, hc]
  rfl

/-! ## One parenthesis -/

/-- The name that a parenthesis behind a text calls, with its column: the name at the end of the
text without the blanks there. -/
def calledBehind (before : Text) : Option (Nat × Text) :=
  let left := before.rdropWhile isSpace
  let name := trailingName left
  if name = [] then none else some (left.length - name.length + 1, name)

theorem calledBehind_concat_of_isSpace (before : Text) {c : Char} (hc : isSpace c = true) :
    calledBehind (before ++ [c]) = calledBehind before := by
  simp only [calledBehind, List.rdropWhile_concat_pos _ _ _ hc]

theorem calledBehind_eq_none {before : Text} {c : Char} (hc : isSpace c = false)
    (hname : trailingName (before ++ [c]) = []) : calledBehind (before ++ [c]) = none := by
  simp only [calledBehind, List.rdropWhile_concat_neg _ _ _ (by simp [hc] : ¬ isSpace c = true),
    hname, if_true]

theorem calledBehind_name {before cs : Text} {c : Char} (hbefore : trailingName before = [])
    (hc : isNameStart c = true) (hcs : ∀ d ∈ cs, isDottedChar d = true) :
    calledBehind (before ++ c :: cs) = some (before.length + 1, c :: cs) := by
  have hleft : (before ++ c :: cs).rdropWhile isSpace = before ++ c :: cs := by
    rw [List.rdropWhile_eq_self_iff]
    intro hne hspace
    have hlast : (before ++ c :: cs).getLast hne ∈ c :: cs := by
      rw [List.getLast_append_of_ne_nil hne (List.cons_ne_nil c cs)]
      exact List.getLast_mem _
    rw [isSpace_of_isDottedChar (isDottedChar_of_mem_name hc hcs _ hlast)] at hspace
    cases hspace
  simp only [calledBehind, hleft, trailingName_append hbefore hc hcs,
    List.cons_ne_nil, if_false, List.length_append, Nat.add_sub_cancel]

/-- The name stands at its column. -/
theorem name_isPrefix_of_calledBehind {before name : Text} {column : Nat}
    (hcalled : calledBehind before = some (column, name)) :
    1 ≤ column ∧ name <+: before.drop (column - 1) := by
  simp only [calledBehind] at hcalled
  split at hcalled
  · cases hcalled
  · obtain ⟨rfl, rfl⟩ := Prod.mk.inj (Option.some.inj hcalled)
    obtain ⟨front, hfront⟩ := trailingName_isSuffix (before.rdropWhile isSpace)
    obtain ⟨blanks, hblanks⟩ := List.rdropWhile_prefix isSpace before
    have hlength : (before.rdropWhile isSpace).length -
        (trailingName (before.rdropWhile isSpace)).length = front.length := by
      have hlengths := congrArg List.length hfront
      rw [List.length_append] at hlengths
      omega
    have hsplit : before = front ++ (trailingName (before.rdropWhile isSpace) ++ blanks) := by
      rw [← List.append_assoc, hfront, hblanks]
    refine ⟨Nat.le_add_left 1 _, blanks, ?_⟩
    rw [hlength, Nat.add_sub_cancel]
    exact ((congrArg (List.drop front.length) hsplit).trans List.drop_left).symm

/-! ## All parentheses -/

/-- The names that the parentheses of a text call, from left to right, when `before` stands in
front of the text. -/
def calledByParentheses (before t : Text) : List (Nat × Text) :=
  (List.range t.length).filterMap fun p =>
    if t[p]? = some '(' then calledBehind (before ++ t.take p) else none

theorem calledByParentheses_cons (before : Text) (c : Char) (cs : Text) :
    calledByParentheses before (c :: cs) =
      (if c = '(' then (calledBehind before).toList else [])
        ++ calledByParentheses (before ++ [c]) cs := by
  have hlater : (List.range cs.length).filterMap (fun p =>
      if (c :: cs)[p + 1]? = some '(' then calledBehind (before ++ (c :: cs).take (p + 1))
      else none) =
      calledByParentheses (before ++ [c]) cs := by
    simp [calledByParentheses]
  rw [calledByParentheses, List.length_cons, List.range_succ_eq_map, List.filterMap_cons,
    List.filterMap_map]
  rw [← hlater]
  by_cases hc : c = '('
  · subst hc
    cases hcalled : calledBehind before <;> simp [Function.comp_def, hcalled]
  · simp [hc, Function.comp_def]

theorem calledByParentheses_append (before a b : Text) :
    calledByParentheses before (a ++ b) =
      calledByParentheses before a ++ calledByParentheses (before ++ a) b := by
  induction a generalizing before with
  | nil => simp [calledByParentheses]
  | cons c a ih =>
      rw [List.cons_append, calledByParentheses_cons, calledByParentheses_cons, ih,
        List.append_assoc, List.append_assoc, List.singleton_append]

theorem calledByParentheses_eq_nil {before t : Text} (ht : '(' ∉ t) :
    calledByParentheses before t = [] := by
  refine List.filterMap_eq_nil_iff.mpr fun p _ => if_neg fun hp => ?_
  exact ht (List.mem_of_getElem? hp)

/-- No parenthesis stands in a name. -/
theorem calledByParentheses_name_append {name : Text}
    (hname : ∀ d ∈ name, isDottedChar d = true) (before rest : Text) :
    calledByParentheses before (name ++ rest) = calledByParentheses (before ++ name) rest := by
  have hparenthesis : '(' ∉ name := fun hmem => absurd (hname _ hmem) (by decide)
  rw [calledByParentheses_append, calledByParentheses_eq_nil hparenthesis, List.nil_append]

theorem opensCall_cons_of_isSpace {c : Char} (hc : isSpace c = true) (cs : Text) :
    opensCall (c :: cs) = opensCall cs := by
  rw [opensCall, trimLeft, List.dropWhile_cons_of_pos hc, ← trimLeft, ← opensCall]

theorem opensCall_cons_of_not_isSpace {c : Char} (hc : isSpace c = false) (hne : c ≠ '(')
    (cs : Text) : opensCall (c :: cs) = false := by
  rw [opensCall, trimLeft, List.dropWhile_cons_of_neg (by simp [hc])]
  split
  · next heq => exact absurd (List.cons.inj heq).1 hne
  · rfl

theorem opensCall_parenthesis (cs : Text) : opensCall ('(' :: cs) = true := rfl

theorem opensCall_of_isNameStart {c : Char} (hc : isNameStart c = true) (cs : Text) :
    opensCall (c :: cs) = false := by
  have hne : c ≠ '(' := by
    rintro rfl
    exact absurd hc (by decide)
  exact opensCall_cons_of_not_isSpace
    (isSpace_of_isDottedChar (isDottedChar_of_isNameStart hc)) hne cs

/-! ## The search from left to right -/

theorem calledNames_of_isNameStart (column : Nat) {c : Char} (hc : isNameStart c = true)
    (cs : Text) :
    calledNames column (c :: cs) =
      (if opensCall (cs.dropWhile isDottedChar)
        then [(column, c :: cs.takeWhile isDottedChar)] else []) ++
        calledNames (column + (c :: cs.takeWhile isDottedChar).length)
          (cs.dropWhile isDottedChar) := by
  rw [calledNames, if_pos hc]
  simp only
  split <;> rfl

theorem calledNames_of_not_isNameStart (column : Nat) {c : Char} (hc : isNameStart c = false)
    (cs : Text) : calledNames column (c :: cs) = calledNames (column + 1) cs := by
  rw [calledNames, if_neg (by simp [hc])]

/-- Induction over the steps of the search. -/
theorem calledNames_induction {P : Text → Prop} (stop : P [])
    (name : ∀ c cs, isNameStart c = true → P (cs.dropWhile isDottedChar) → P (c :: cs))
    (other : ∀ c cs, isNameStart c = false → P cs → P (c :: cs)) (t : Text) : P t := by
  induction hlength : t.length using Nat.strongRecOn generalizing t with
  | ind n ih =>
      cases t with
      | nil => exact stop
      | cons c cs =>
          have hshorter := (List.dropWhile_suffix isDottedChar (l := cs)).length_le
          rw [List.length_cons] at hlength
          cases hc : isNameStart c with
          | true => exact name c cs hc (ih _ (by omega) _ rfl)
          | false => exact other c cs hc (ih _ (by omega) _ rfl)

/-- If the text does not go on with a name at the end of what is in front of it, its parentheses
call what stands in front of it, if it opens with a parenthesis, and then the names of the text
that have a parenthesis behind them. -/
theorem calledByParentheses_eq (t before : Text)
    (hfresh : ∀ c ∈ t.head?, isDottedChar c = true → trailingName before = []) :
    calledByParentheses before t =
      (if opensCall t then (calledBehind before).toList else [])
        ++ calledNames (before.length + 1) t := by
  induction t using calledNames_induction generalizing before with
  | stop => rw [calledNames]; rfl
  | name c cs hc ih =>
      have hcs : ∀ d ∈ cs.takeWhile isDottedChar, isDottedChar d = true :=
        fun d => List.mem_takeWhile_imp
      have hsplit : c :: cs =
          (c :: cs.takeWhile isDottedChar) ++ cs.dropWhile isDottedChar := by
        rw [List.cons_append, List.takeWhile_append_dropWhile]
      have hcalled := calledBehind_name (hfresh c rfl (isDottedChar_of_isNameStart hc)) hc hcs
      -- The rest does not go on with the name, so nothing is asked of the text in front of it.
      have hrest := ih (before ++ c :: cs.takeWhile isDottedChar) fun d hd hdotted => by
        have hnot := List.head?_dropWhile_not isDottedChar cs
        rw [Option.mem_def.mp hd] at hnot
        exact absurd hdotted (by simpa using hnot)
      rw [opensCall_of_isNameStart hc, calledNames_of_isNameStart _ hc, hsplit,
        calledByParentheses_name_append (isDottedChar_of_mem_name hc hcs), hrest, hcalled,
        List.length_append, Nat.add_right_comm]
      rfl
  | other c cs hc ih =>
      have hend : trailingName (before ++ [c]) = [] := by
        cases hdotted : isDottedChar c with
        | false => exact trailingName_concat_of_not_dotted hdotted
        | true => exact trailingName_concat (hfresh c rfl hdotted) hc
      rw [calledByParentheses_cons, ih (before ++ [c]) fun _ _ _ => hend,
        calledNames_of_not_isNameStart _ hc, List.length_append, List.length_singleton,
        ← List.append_assoc]
      -- Only over a blank does the rest still call what stood in front of `c`.
      congr 1
      cases hspace : isSpace c with
      | true =>
          have hne : c ≠ '(' := by
            rintro rfl
            exact absurd hspace (by decide)
          rw [calledBehind_concat_of_isSpace before hspace,
            opensCall_cons_of_isSpace hspace, if_neg hne, List.nil_append]
      | false =>
          rw [calledBehind_eq_none hspace hend]
          by_cases hparenthesis : c = '('
          · subst hparenthesis
            simp [opensCall_parenthesis]
          · simp [opensCall_cons_of_not_isSpace hspace hparenthesis, hparenthesis]

theorem calledNames_eq_calledByParentheses (t : Text) :
    calledNames 1 t = calledByParentheses [] t := by
  have hnone : calledBehind [] = none := rfl
  rw [calledByParentheses_eq t [] fun _ _ _ => rfl, hnone]
  cases opensCall t <;> rfl

/-- The columns ascend. -/
theorem calledNames_ascending (t : Text) (column : Nat) :
    (∀ site ∈ calledNames column t, column ≤ site.1) ∧
      (calledNames column t).Pairwise fun site later => site.1 < later.1 := by
  induction t using calledNames_induction generalizing column with
  | stop => simp [calledNames]
  | name c cs hc ih =>
      obtain ⟨hbehind, hascending⟩ := ih (column + (c :: cs.takeWhile isDottedChar).length)
      rw [List.length_cons] at hbehind hascending
      rw [calledNames_of_isNameStart column hc, List.length_cons]
      cases opensCall (cs.dropWhile isDottedChar) with
      | false => exact ⟨fun site hsite => by have := hbehind site hsite; omega, hascending⟩
      | true =>
          refine ⟨List.forall_mem_cons.mpr ⟨Nat.le_refl _, fun site hsite => ?_⟩,
            List.pairwise_cons.mpr ⟨fun site hsite => ?_, hascending⟩⟩
          all_goals
            have := hbehind site hsite
            omega
  | other c cs hc ih =>
      rw [calledNames_of_not_isNameStart column hc]
      obtain ⟨hbehind, hascending⟩ := ih (column + 1)
      exact ⟨fun site hsite => by have := hbehind site hsite; omega, hascending⟩

/-! ## The call sites of a line -/

/-- What the parentheses of a line call, from left to right, if the first segment of the name is
no keyword. -/
def Line.parenthesisCalls (l : Line) : List CallSite :=
  (List.range l.raw.length).filterMap fun p =>
    if l.raw[p]? = some '(' then
      ((calledBehind (l.raw.take p)).filter fun (_, name) =>
        ! callKeywords.contains (firstSegment name)).map
        fun (column, name) => { name, line := l.number, column }
    else none

theorem Line.callSites_eq_parenthesisCalls (l : Line) : l.callSites = l.parenthesisCalls := by
  rw [Line.callSites, calledNames_eq_calledByParentheses, calledByParentheses,
    List.filter_filterMap, List.map_filterMap, Line.parenthesisCalls]
  refine List.filterMap_congr fun p _ => ?_
  split <;> rfl

section

variable {l : Line} {c : CallSite}

theorem line_of_mem_callSites (hc : c ∈ l.callSites) : c.line = l.number := by
  obtain ⟨site, -, rfl⟩ := List.mem_map.mp hc
  rfl

/-- The name stands at its column. -/
theorem name_isPrefix_of_mem_callSites (hc : c ∈ l.callSites) :
    1 ≤ c.column ∧ c.name <+: l.raw.drop (c.column - 1).toNat := by
  obtain ⟨⟨column, name⟩, hsite, rfl⟩ := List.mem_map.mp hc
  replace hsite := List.mem_of_mem_filter hsite
  rw [calledNames_eq_calledByParentheses] at hsite
  obtain ⟨p, -, hcalled⟩ := List.mem_filterMap.mp hsite
  split at hcalled
  · obtain ⟨hcolumn, hname⟩ := name_isPrefix_of_calledBehind hcalled
    have hplace : ((column : Int) - 1).toNat = column - 1 := by omega
    refine ⟨Int.ofNat_le.mpr hcolumn, ?_⟩
    rw [hplace]
    exact hname.trans ((List.take_prefix p l.raw).drop (column - 1))
  · cases hcalled

theorem Line.callSites_ascending (l : Line) :
    l.callSites.Pairwise fun c later => c.column < later.column := by
  rw [Line.callSites, List.pairwise_map]
  exact ((calledNames_ascending l.raw 1).2.imp Int.ofNat_lt.mpr).filter _

end

/-! ## The call sites of a body -/

/-- The first is on an earlier line than the second, or on the same line in an earlier
column. -/
def CallSite.Precedes (c later : CallSite) : Prop :=
  c.line < later.line ∨ c.line = later.line ∧ c.column < later.column

theorem mem_bodyCalls_iff {body : List Line} {c : CallSite} :
    c ∈ bodyCalls body ↔
      ∃ l ∈ body, l.isBlank = false ∧ l.form.isHeader = false ∧ c ∈ l.callSites := by
  simp [bodyCalls, and_assoc]

theorem bodyCalls_append (body later : List Line) :
    bodyCalls (body ++ later) = bodyCalls body ++ bodyCalls later := by
  rw [bodyCalls, List.filter_append, List.flatMap_append, bodyCalls, bodyCalls]

theorem filter_bodyCalls_eq_nil {body : List Line} {n : Nat}
    (hbody : ∀ l ∈ body, l.number ≠ n) : (bodyCalls body).filter (·.line = (n : Int)) = [] := by
  refine List.filter_eq_nil_iff.mpr fun c hc => ?_
  obtain ⟨l, hl, -, -, hsite⟩ := mem_bodyCalls_iff.mp hc
  have hne := hbody l hl
  simp only [line_of_mem_callSites hsite, decide_eq_true_eq]
  omega

section

variable {body : List Line} (hbody : body.Pairwise fun l later => l.number < later.number)

include hbody

/-- The calls on a line of a body are the call sites of the line. -/
theorem filter_bodyCalls {l : Line} (hl : l ∈ body) (hblank : l.isBlank = false)
    (hheader : l.form.isHeader = false) :
    (bodyCalls body).filter (·.line = (l.number : Int)) = l.callSites := by
  obtain ⟨front, behind, rfl⟩ := List.append_of_mem hl
  obtain ⟨-, hbehind, hfront⟩ := List.pairwise_append.mp hbody
  have hline : bodyCalls [l] = l.callSites := by simp [bodyCalls, hblank, hheader]
  have hall : l.callSites.filter (·.line = (l.number : Int)) = l.callSites :=
    List.filter_eq_self.mpr fun c hc => by simp [line_of_mem_callSites hc]
  rw [bodyCalls_append, ← List.singleton_append, bodyCalls_append, List.filter_append,
    List.filter_append, hline, hall,
    filter_bodyCalls_eq_nil fun l' hl' => Nat.ne_of_lt (hfront l' hl' l List.mem_cons_self),
    filter_bodyCalls_eq_nil fun l' hl' =>
      Nat.ne_of_gt ((List.pairwise_cons.mp hbehind).1 l' hl'),
    List.nil_append, List.append_nil]

theorem bodyCalls_ascending : (bodyCalls body).Pairwise CallSite.Precedes := by
  refine List.pairwise_flatMap.mpr ⟨fun l _ => ?_, (hbody.filter _).imp ?_⟩
  · refine l.callSites_ascending.imp_of_mem fun hc hc' hlt => Or.inr ⟨?_, hlt⟩
    rw [line_of_mem_callSites hc, line_of_mem_callSites hc']
  · intro l later hlt c hc c' hc'
    refine Or.inl ?_
    rw [line_of_mem_callSites hc, line_of_mem_callSites hc']
    exact Int.ofNat_lt.mpr hlt

end

end SymbolGraph
