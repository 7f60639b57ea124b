import SymbolGraph.Line.Docstring
import SymbolGraph.Proofs.Line.Block
set_option autoImplicit false

/-!
# Reading lines by their places

Blocks, decorators and docstrings can be found by going from place to place in a file, where
each line is looked up by its place and each quote in the text that should hold it. Nothing says
beforehand that there is a line at the place, or a quote in the text: a look-up that finds
nothing ends the reading without a result. Here it is shown that none does, whatever the lines
are, as long as a block ends within the file and the content of a line is part of it; and what
is found is what `block`, `decoratorRun` and `Docstring.read` find.
-/

namespace SymbolGraph

open Text

/-! ## Quotes in texts -/

theorem dropHead?_append (head rest : Text) : dropHead? head (head ++ rest) = some rest := by
  induction head with
  | nil => rfl
  | cons c head ih => simp [dropHead?, ih]

theorem eq_append_of_dropHead? {head t rest : Text} (hdrop : dropHead? head t = some rest) :
    t = head ++ rest := by
  induction head generalizing t with
  | nil => exact Option.some.inj hdrop
  | cons c head ih =>
      cases t with
      | nil => cases hdrop
      | cons c' t =>
          rw [dropHead?] at hdrop
          split at hdrop
          · next hc => rw [hc, ih hdrop, List.cons_append]
          · cases hdrop

/-- A text is broken on what it holds. -/
theorem breakOn?_isSome {mark t : Text} (hwithin : mark <:+: t) :
    (breakOn? mark t).isSome = true := by
  induction t with
  | nil =>
      rw [List.eq_nil_of_infix_nil hwithin]
      rfl
  | cons c t ih =>
      rw [breakOn?]
      cases hdrop : dropHead? mark (c :: t) with
      | some rest => rfl
      | none =>
          obtain hstart | hwithin := List.infix_cons_iff.mp hwithin
          · obtain ⟨rest, hrest⟩ := hstart
            rw [← hrest, dropHead?_append] at hdrop
            cases hdrop
          · rw [Option.isSome_map]
            exact ih hwithin

theorem infix_trim (t : Text) : trim t <:+: t := by
  have hright : ((t.dropWhile isSpace).reverse.dropWhile isSpace).reverse <+:
      t.dropWhile isSpace := by
    rw [← List.reverse_suffix, List.reverse_reverse]
    exact List.dropWhile_suffix _
  exact hright.isInfix.trans (List.dropWhile_suffix _).isInfix

namespace Docstring

/-- The quote that opens a docstring is part of the line's content. -/
theorem infix_of_opening? {content quote rest : Text}
    (hopening : opening? content = some (quote, rest)) : quote <:+: content := by
  unfold opening? at hopening
  split at hopening
  · obtain ⟨q, -, hq⟩ := List.exists_of_findSome?_eq_some hopening
    obtain ⟨rest', hdrop, heq⟩ := Option.map_eq_some_iff.mp hq
    obtain ⟨rfl, rfl⟩ := Prod.mk.inj heq
    have hbehind : q <+: content.dropWhile isMark :=
      ⟨rest', (eq_append_of_dropHead? hdrop).symm⟩
    exact hbehind.isInfix.trans (List.dropWhile_suffix _).isInfix
  · cases hopening

/-! ## Docstrings line by line -/

variable {indent : Int} {size : Nat} {l : Line} {after : List Line}

theorem read_zero (indent : Int) (after : List Line) : read indent 0 after = ⟨none, 0⟩ := rfl

/-- Blank lines in front of a docstring are passed over. -/
theorem read_cons_of_blank (hblank : l.isBlank = true) :
    read indent (size + 1) (l :: after) =
      ⟨(read indent size after).text, (read indent size after).bodyOffset + 1⟩ := by
  simp only [read, List.take_succ_cons, List.takeWhile_cons, hblank, if_true, List.length_cons,
    List.drop_succ_cons]
  cases (after.take size).drop ((after.take size).takeWhile (·.isBlank)).length with
  | nil => rfl
  | cons m rest =>
      simp only
      split
      · rfl
      · cases opening? m.content with
        | none => rfl
        | some opening =>
            simp only [Docstring.mk.injEq, true_and]
            omega

/-- The first line that is not blank tells whether there is a docstring. -/
theorem read_cons_of_not_blank (hblank : l.isBlank = false) :
    read indent (size + 1) (l :: after) =
      if (l.indent : Int) ≤ indent then ⟨none, 0⟩
      else (opening? l.content).elim ⟨none, 0⟩ fun opening =>
        ⟨some (capture opening.1 opening.2 l after).1,
          (capture opening.1 opening.2 l after).2 + 1⟩ := by
  have hskipped : ((l :: after.take size).takeWhile (·.isBlank)).length = 0 := by
    simp [hblank]
  simp only [read, List.take_succ_cons, hskipped, List.drop_zero, Nat.zero_add,
    List.drop_succ_cons]
  by_cases hindent : (l.indent : Int) ≤ indent
  · rw [if_pos hindent, if_pos hindent]
  · rw [if_neg hindent, if_neg hindent]
    cases opening? l.content with
    | none => rfl
    | some opening => rfl

end Docstring

/-! ## From place to place -/

namespace ByPlace

/-- The place of the last line of a block, of which the lines up to `last` are known. -/
def lastOfBlock (ls : List Line) (indent : Int) (last : Nat) : Option Nat :=
  if _h : last + 1 < ls.length then do
    let l ← ls[last + 1]?
    if l.isBlank then lastOfBlock ls indent (last + 1)
    else if (l.indent : Int) ≤ indent then return last
    else lastOfBlock ls indent (last + 1)
  else return last
termination_by ls.length - last

/-- The decorators in the run from place `i`, which goes no further than `stop`, and the place
behind it. -/
def decorators (ls : List Line) (stop i : Nat) : Option (List Text × Nat) :=
  if _h : i ≤ stop then do
    let l ← ls[i]?
    if l.isDecorator then
      let (texts, next) ← decorators ls stop (i + 1)
      return (l.content :: texts, next)
    else if l.isBlank then decorators ls stop (i + 1)
    else return ([], i)
  else return ([], i)
termination_by stop + 1 - i

/-- The texts of the lines from place `i` up to the next quote, and the place of the last of
them. -/
def untilQuote (ls : List Line) (quote : Text) (i : Nat) : Option (List Text × Nat) :=
  if _h : i < ls.length then do
    let l ← ls[i]?
    match breakOn? quote l.raw with
    | some (before, _) => return ([before], i)
    | none =>
      let (texts, last) ← untilQuote ls quote (i + 1)
      return (l.raw :: texts, last)
  else return ([], ls.length - 1)
termination_by ls.length - i

/-- The text in quotes that opens on the line at place `i` and goes on behind it, and the place
of its last line. -/
def capture (ls : List Line) (quote : Text) (i : Nat) : Option (Text × Nat) := do
  let l ← ls[i]?
  let (_, first) ← breakOn? quote l.raw
  let (texts, last) ← untilQuote ls quote (i + 1)
  return (dedent (unlines (first :: texts)), last)

/-- The docstring in a block from place `i` to `stop`, and the place behind it. -/
def docstringFrom (ls : List Line) (indent : Int) (stop i : Nat) : Option (Option Text × Nat) :=
  if _h : i ≤ stop then do
    let l ← ls[i]?
    if l.isBlank then docstringFrom ls indent stop (i + 1)
    else if (l.indent : Int) ≤ indent then return (none, i)
    else
      match Docstring.opening? l.content with
      | none => return (none, i)
      | some (quote, rest) =>
        match breakOn? quote rest with
        | some (before, _) => return (some (trim before), i + 1)
        | none =>
          let (text, last) ← capture ls quote i
          return (some text, last + 1)
  else return (none, stop + 1)
termination_by stop + 1 - i

/-- The docstring of the block from `start` to `stop`, and the first place of the body behind
it. -/
def docstring (wanted : Bool) (ls : List Line) (indent : Int) (start stop : Nat) :
    Option (Option Text × Nat) :=
  if wanted then docstringFrom ls indent stop (start + 1) else return (none, start + 1)

/-! ## No look-up fails -/

/-- At a place within the file there is a line, and it is the first of those from there on. -/
theorem exists_line {ls : List Line} {i : Nat} (hi : i < ls.length) :
    ∃ l, ls[i]? = some l ∧ ls.drop i = l :: ls.drop (i + 1) :=
  ⟨ls[i], List.getElem?_eq_getElem hi, List.drop_eq_getElem_cons hi⟩

/-- The lines from a place up to another start with the line at the place. -/
theorem take_drop_eq_cons {ls : List Line} {i stop : Nat} {l : Line}
    (hdrop : ls.drop i = l :: ls.drop (i + 1)) (hle : i ≤ stop) :
    (ls.drop i).take (stop + 1 - i) = l :: (ls.drop (i + 1)).take (stop + 1 - (i + 1)) := by
  have hsize : stop + 1 - i = stop + 1 - (i + 1) + 1 := by omega
  rw [hsize, hdrop, List.take_succ_cons]

theorem lastOfBlock_eq (ls : List Line) (indent : Int) (last : Nat) :
    lastOfBlock ls indent last = some (blockEnd ls last indent) := by
  rw [lastOfBlock]
  by_cases hlast : last + 1 < ls.length
  · have hlater := lastOfBlock_eq ls indent (last + 1)
    obtain ⟨l, hl, hdrop⟩ := exists_line hlast
    have hend : blockEnd ls last indent =
        if l.inBlock indent then blockEnd ls (last + 1) indent else last := by
      rw [blockEnd, hdrop, block, List.takeWhile_cons]
      split
      · rw [List.length_cons, blockEnd, block]
        omega
      · rfl
    rw [dif_pos hlast, hl, hend, hlater]
    simp only [Option.bind_eq_bind, Option.bind_some, Line.inBlock]
    by_cases hblank : l.isBlank = true
    · simp [hblank]
    · by_cases hindent : (l.indent : Int) ≤ indent
      · simp [hblank, hindent, Int.not_lt.mpr hindent]
      · simp [hblank, hindent, Int.not_le.mp hindent]
  · have hnone : ls.drop (last + 1) = [] := List.drop_eq_nil_iff.mpr (by omega)
    rw [dif_neg hlast, blockEnd, hnone]
    rfl
termination_by ls.length - last

theorem decorators_eq {ls : List Line} {stop : Nat} (hstop : stop < ls.length) (i : Nat) :
    decorators ls stop i =
      some (decoratorTexts (decoratorRun ((ls.drop i).take (stop + 1 - i))),
        i + (decoratorRun ((ls.drop i).take (stop + 1 - i))).length) := by
  rw [decorators]
  by_cases hle : i ≤ stop
  · have hlater := decorators_eq hstop (i + 1)
    obtain ⟨l, hl, hdrop⟩ := exists_line (Nat.lt_of_le_of_lt hle hstop)
    rw [dif_pos hle, hl, take_drop_eq_cons hdrop hle, hlater]
    generalize (ls.drop (i + 1)).take (stop + 1 - (i + 1)) = rest
    simp only [Option.bind_eq_bind, Option.bind_some, decoratorRun, List.takeWhile_cons]
    cases hdecorator : l.isDecorator with
    | true =>
        simp [decoratorTexts, hdecorator]
        omega
    | false =>
        cases hblank : l.isBlank with
        | true =>
            simp [decoratorTexts, hdecorator]
            omega
        | false => rfl
  · have hnone : stop + 1 - i = 0 := by omega
    rw [dif_neg hle, hnone]
    rfl
termination_by stop + 1 - i

theorem untilQuote_eq {ls : List Line} (quote : Text) {i : Nat} (hpos : 0 < i)
    (hi : i ≤ ls.length) :
    untilQuote ls quote i =
      some ((Docstring.untilQuote quote (ls.drop i)).1,
        i + (Docstring.untilQuote quote (ls.drop i)).2 - 1) := by
  rw [untilQuote]
  by_cases hlt : i < ls.length
  · have hlater := untilQuote_eq (i := i + 1) quote (by omega) hlt
    obtain ⟨l, hl, hdrop⟩ := exists_line hlt
    rw [dif_pos hlt, hl, hdrop, Docstring.untilQuote, hlater]
    simp only [Option.bind_eq_bind, Option.bind_some]
    cases breakOn? quote l.raw with
    | some parts => rfl
    | none =>
        simp only [Option.pure_def, Option.some.injEq, Prod.mk.injEq, true_and]
        omega
  · have hnone : ls.drop i = [] := List.drop_eq_nil_iff.mpr (by omega)
    rw [dif_neg hlt, hnone]
    simp only [Docstring.untilQuote, Option.pure_def, Option.some.injEq,
      Prod.mk.injEq, true_and]
    omega
termination_by ls.length - i

/-- The quote of a docstring is found on its line again, and the rest of it is read to its end
or to that of the file. -/
theorem capture_eq {ls : List Line} {i : Nat} {l : Line} (hl : ls[i]? = some l)
    (hcontent : l.content = trim l.raw) {quote rest : Text}
    (hopening : Docstring.opening? l.content = some (quote, rest))
    (hrest : breakOn? quote rest = none) :
    capture ls quote i =
      some ((Docstring.capture quote rest l (ls.drop (i + 1))).1,
        i + (Docstring.capture quote rest l (ls.drop (i + 1))).2) := by
  have hi : i < ls.length := (List.getElem?_eq_some_iff.mp hl).1
  have hquote : quote <:+: l.raw :=
    (Docstring.infix_of_opening? hopening).trans (hcontent ▸ infix_trim l.raw)
  obtain ⟨⟨before, first⟩, hbreak⟩ := Option.isSome_iff_exists.mp (breakOn?_isSome hquote)
  have hlater := untilQuote_eq (i := i + 1) quote (by omega) hi
  rw [capture, hl, Docstring.capture, hrest, hlater]
  simp only [Option.bind_eq_bind, Option.bind_some, hbreak, Option.map_some, Option.getD_some,
    Option.pure_def, Option.some.injEq, Prod.mk.injEq, true_and]
  omega

theorem docstringFrom_eq {ls : List Line} (hcontent : ∀ l ∈ ls, l.content = trim l.raw)
    (indent : Int) {stop : Nat} (hstop : stop < ls.length) {i : Nat} (hi : i ≤ stop + 1) :
    docstringFrom ls indent stop i =
      some ((Docstring.read indent (stop + 1 - i) (ls.drop i)).text,
        i + (Docstring.read indent (stop + 1 - i) (ls.drop i)).bodyOffset) := by
  rw [docstringFrom]
  by_cases hle : i ≤ stop
  · have hlater := docstringFrom_eq hcontent indent hstop (i := i + 1) (by omega)
    obtain ⟨l, hl, hdrop⟩ := exists_line (Nat.lt_of_le_of_lt hle hstop)
    have hsize : stop + 1 - i = stop + 1 - (i + 1) + 1 := by omega
    rw [dif_pos hle, hl, hdrop, hsize, hlater]
    simp only [Option.bind_eq_bind, Option.bind_some]
    cases hblank : l.isBlank with
    | true =>
        rw [Docstring.read_cons_of_blank hblank, if_pos rfl]
        simp only [Option.some.injEq, Prod.mk.injEq, true_and]
        omega
    | false =>
        rw [Docstring.read_cons_of_not_blank hblank, if_neg Bool.false_ne_true]
        split
        · rfl
        · cases hopening : Docstring.opening? l.content with
          | none => rfl
          | some opening =>
              obtain ⟨quote, rest⟩ := opening
              cases hrest : breakOn? quote rest with
              | some parts => simp [Docstring.capture, hrest]
              | none =>
                  have hcaptured :=
                    capture_eq hl (hcontent l (List.mem_of_getElem? hl)) hopening hrest
                  simp only [hrest, hcaptured, Option.bind_some]
                  rfl
  · have hlast : i = stop + 1 := by omega
    have hnone : stop + 1 - i = 0 := by omega
    rw [dif_neg hle, hnone, Docstring.read_zero, hlast]
    rfl
termination_by stop + 1 - i

/-- The docstring of a block is found by places as it is read from the lines behind the
header. -/
theorem docstring_eq {ls : List Line} (hcontent : ∀ l ∈ ls, l.content = trim l.raw)
    (wanted : Bool) (indent : Int) {start stop : Nat} (hle : start ≤ stop)
    (hstop : stop < ls.length) :
    docstring wanted ls indent start stop =
      some ((Docstring.readIf wanted indent (stop - start) (ls.drop (start + 1))).text,
        start + 1 + (Docstring.readIf wanted indent (stop - start)
          (ls.drop (start + 1))).bodyOffset) := by
  cases wanted with
  | false => rfl
  | true =>
      have hsize : stop + 1 - (start + 1) = stop - start := by omega
      have hread := docstringFrom_eq hcontent indent hstop (i := start + 1) (by omega)
      rw [hsize] at hread
      exact hread

end ByPlace

end SymbolGraph
