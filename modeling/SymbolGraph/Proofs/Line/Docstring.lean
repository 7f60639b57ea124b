import SymbolGraph.Line.Position
import SymbolGraph.Proofs.Line.Place
set_option autoImplicit false

/-!
# Where a docstring stands

A docstring opens on the first line of its block that is neither blank nor a comment. It closes
on that line if the quote comes again there, else on the next line of the file that holds the
quote, within the block or behind it, else with the file. So its lines can be told without
reading it (`Occupies`). A docstring is read exactly where there are such lines
(`text_isSome_iff`), and the body starts behind the last of them (`bodyStart_of_occupies`).
-/

namespace SymbolGraph

open Text

theorem eq_append_of_breakOn? {mark t before rest : Text}
    (hbreak : breakOn? mark t = some (before, rest)) : t = before ++ mark ++ rest := by
  induction t generalizing before with
  | nil =>
      rw [breakOn?] at hbreak
      split at hbreak
      · next hmark =>
        cases hbreak
        rw [hmark]
        rfl
      · cases hbreak
  | cons c t ih =>
      rw [breakOn?] at hbreak
      split at hbreak
      · next rest' hdrop =>
        cases hbreak
        exact eq_append_of_dropHead? hdrop
      · obtain ⟨⟨before', rest'⟩, hlater, heq⟩ := Option.map_eq_some_iff.mp hbreak
        cases heq
        rw [ih hlater]
        rfl

/-- A text is broken exactly on what it holds. -/
theorem breakOn?_isSome_iff {mark t : Text} :
    (breakOn? mark t).isSome = true ↔ mark <:+: t := by
  refine ⟨fun hsome => ?_, breakOn?_isSome⟩
  obtain ⟨⟨before, rest⟩, hbreak⟩ := Option.isSome_iff_exists.mp hsome
  exact ⟨before, rest, (eq_append_of_breakOn? hbreak).symm⟩

theorem breakOn?_eq_none_iff {mark t : Text} : breakOn? mark t = none ↔ ¬ mark <:+: t := by
  rw [← breakOn?_isSome_iff, Bool.not_eq_true, Option.isSome_eq_false_iff,
    Option.isNone_iff_eq_none]

namespace Docstring

/-! ## The lines of a docstring -/

/-- The first line at the places behind `i` that is neither blank nor a comment is at place `d`,
in the block, and opens a docstring with the quote. -/
structure OpensAt (ls : List Line) (i : Nat) (indent : Int) (d : Nat)
    (quote rest : Text) : Prop where
  behind : i < d
  inside : d ≤ blockEnd ls i indent
  blanks : ∀ k, i < k → k < d → ∀ l, ls[k]? = some l → l.isBlank = true
  opening : ∃ l, ls[d]? = some l ∧ l.isBlank = false ∧ opening? l.content = some (quote, rest)

/-- The line with the closing quote of a docstring that opens at place `d`, where `rest` follows
the opening quote; without a closing quote, the last line of the file. -/
inductive ClosesAt (ls : List Line) (d : Nat) (quote rest : Text) : Nat → Prop
  | here (hrest : quote <:+: rest) : ClosesAt ls d quote rest d
  | later {q : Nat} {l : Line} (hrest : ¬ quote <:+: rest) (hlt : d < q) (hl : ls[q]? = some l)
      (hquote : quote <:+: l.raw)
      (hbetween : ∀ k, d < k → k < q → ∀ m, ls[k]? = some m → ¬ quote <:+: m.raw) :
      ClosesAt ls d quote rest q
  | atEnd (hrest : ¬ quote <:+: rest)
      (hbehind : ∀ k, d < k → ∀ m, ls[k]? = some m → ¬ quote <:+: m.raw) :
      ClosesAt ls d quote rest (ls.length - 1)

/-- The docstring of the block opened at place `i` takes the lines at the places from `d` to
`q`. -/
def Occupies (ls : List Line) (i : Nat) (indent : Int) (d q : Nat) : Prop :=
  ∃ quote rest, OpensAt ls i indent d quote rest ∧ ClosesAt ls d quote rest q

/-- There is only one line that closes a docstring. -/
theorem ClosesAt.unique {ls : List Line} {d q q' : Nat} {quote rest : Text}
    (hclose : ClosesAt ls d quote rest q) (hclose' : ClosesAt ls d quote rest q') : q = q' := by
  cases hclose with
  | here hrest =>
      cases hclose' with
      | here => rfl
      | later hrest' => exact absurd hrest hrest'
      | atEnd hrest' => exact absurd hrest hrest'
  | later hrest hlt hl hquote hbetween =>
      cases hclose' with
      | here hrest' => exact absurd hrest' hrest
      | later hrest' hlt' hl' hquote' hbetween' =>
          rcases Nat.lt_trichotomy q q' with hless | heq | hmore
          · exact absurd hquote (hbetween' q hlt hless _ hl)
          · exact heq
          · exact absurd hquote' (hbetween q' hlt' hmore _ hl')
      | atEnd hrest' hbehind => exact absurd hquote (hbehind q hlt _ hl)
  | atEnd hrest hbehind =>
      cases hclose' with
      | here hrest' => exact absurd hrest' hrest
      | later hrest' hlt' hl' hquote' hbetween' => exact absurd hquote' (hbehind q' hlt' _ hl')
      | atEnd => rfl

/-! ## Where the reader stops -/

/-- The reader of a docstring goes up to the first line that holds the quote, or over all
lines. -/
theorem untilQuote_count (quote : Text) (ls : List Line) :
    ((∀ m ∈ ls, ¬ quote <:+: m.raw) ∧ (untilQuote quote ls).2 = ls.length) ∨
    ∃ k l, ls[k]? = some l ∧ quote <:+: l.raw ∧ (untilQuote quote ls).2 = k + 1 ∧
      ∀ j < k, ∀ m, ls[j]? = some m → ¬ quote <:+: m.raw := by
  induction ls with
  | nil => exact Or.inl ⟨fun m hm => absurd hm List.not_mem_nil, rfl⟩
  | cons l ls ih =>
      cases hbreak : breakOn? quote l.raw with
      | some parts =>
          have hquote : quote <:+: l.raw := breakOn?_isSome_iff.mp (by rw [hbreak]; rfl)
          refine Or.inr ⟨0, l, rfl, hquote, ?_, fun j hj => absurd hj j.not_lt_zero⟩
          rw [untilQuote, hbreak]
      | none =>
          have hnone : ¬ quote <:+: l.raw := breakOn?_eq_none_iff.mp hbreak
          have hcount : (untilQuote quote (l :: ls)).2 = (untilQuote quote ls).2 + 1 := by
            rw [untilQuote, hbreak]
          rw [hcount]
          rcases ih with ⟨hall, hlength⟩ | ⟨k, l', hl', hquote, hstop, hbefore⟩
          · refine Or.inl ⟨?_, by rw [hlength, List.length_cons]⟩
            rintro m (_ | ⟨_, hm⟩)
            · exact hnone
            · exact hall m hm
          · refine Or.inr ⟨k + 1, l', hl', hquote, by rw [hstop], ?_⟩
            intro j hj m hm
            cases j with
            | zero =>
                cases hm
                exact hnone
            | succ j => exact hbefore j (by omega) m hm

/-- A docstring is captured up to the line that closes it. -/
theorem closesAt_capture {ls : List Line} {d : Nat} {l : Line} (hl : ls[d]? = some l)
    (quote rest : Text) :
    ClosesAt ls d quote rest (d + (capture quote rest l (ls.drop (d + 1))).2) := by
  have hd : d < ls.length := (List.getElem?_eq_some_iff.mp hl).1
  unfold capture
  cases hbreak : breakOn? quote rest with
  | some parts => exact ClosesAt.here (breakOn?_isSome_iff.mp (by rw [hbreak]; rfl))
  | none =>
      have hrest : ¬ quote <:+: rest := breakOn?_eq_none_iff.mp hbreak
      simp only
      rcases untilQuote_count quote (ls.drop (d + 1))
        with ⟨hall, hcount⟩ | ⟨k, l', hl', hquote, hcount, hbefore⟩
      · have hend : d + (ls.drop (d + 1)).length = ls.length - 1 := by
          rw [List.length_drop]
          omega
        rw [hcount, hend]
        refine ClosesAt.atEnd hrest fun k hk m hm => hall m ?_
        refine List.mem_iff_getElem?.mpr ⟨k - (d + 1), ?_⟩
        rw [List.getElem?_drop, Nat.add_sub_cancel' hk]
        exact hm
      · rw [hcount]
        rw [List.getElem?_drop] at hl'
        have hplace : d + 1 + k = d + (k + 1) := by omega
        refine ClosesAt.later hrest (by omega) (hplace ▸ hl') hquote fun j hj hjk m hm => ?_
        refine hbefore (j - (d + 1)) (by omega) m ?_
        rw [List.getElem?_drop, Nat.add_sub_cancel' hj]
        exact hm

/-! ## What is read -/

variable {ls : List Line} {i d q : Nat} {indent : Int} {quote rest : Text}

/-- Blank lines and comments before a docstring are passed over. -/
theorem read_append_of_blank {blanks : List Line} (hblanks : ∀ l ∈ blanks, l.isBlank = true)
    (indent : Int) (size : Nat) (after : List Line) :
    read indent (blanks.length + size) (blanks ++ after) =
      ⟨(read indent size after).text, blanks.length + (read indent size after).bodyOffset⟩ := by
  induction blanks with
  | nil => simp
  | cons l blanks ih =>
      have hcount : (l :: blanks).length + size = blanks.length + size + 1 := by
        rw [List.length_cons]
        omega
      have hlater := ih fun m hm => hblanks m (List.mem_cons_of_mem l hm)
      rw [hcount, List.cons_append, read_cons_of_blank (hblanks l List.mem_cons_self), hlater,
        List.length_cons]
      simp only [Docstring.mk.injEq, true_and]
      omega

/-- Before a docstring there are only blank lines and comments. -/
theorem OpensAt.exists_blanks {l : Line} (hopen : OpensAt ls i indent d quote rest)
    (hl : ls[d]? = some l) :
    ∃ blanks, ls.drop (i + 1) = blanks ++ l :: ls.drop (d + 1) ∧ blanks.length = d - (i + 1) ∧
      ∀ m ∈ blanks, m.isBlank = true := by
  have hd : d < ls.length := (List.getElem?_eq_some_iff.mp hl).1
  have hbehind := hopen.behind
  have hlength : ((ls.drop (i + 1)).take (d - (i + 1))).length = d - (i + 1) := by
    rw [List.length_take, List.length_drop]
    omega
  refine ⟨(ls.drop (i + 1)).take (d - (i + 1)), ?_, hlength, fun m hm => ?_⟩
  · have hplace : i + 1 + (d - (i + 1)) = d := by omega
    have hdrop : ls.drop d = l :: ls.drop (d + 1) := by
      obtain ⟨_, rfl⟩ := List.getElem?_eq_some_iff.mp hl
      exact List.drop_eq_getElem_cons hd
    have hsplit := List.take_append_drop (d - (i + 1)) (ls.drop (i + 1))
    rw [List.drop_drop, hplace, hdrop] at hsplit
    exact hsplit.symm
  · obtain ⟨k, hk⟩ := List.mem_iff_getElem?.mp hm
    have hlt : k < d - (i + 1) := hlength ▸ (List.getElem?_eq_some_iff.mp hk).1
    rw [List.getElem?_take_of_lt hlt, List.getElem?_drop] at hk
    exact hopen.blanks (i + 1 + k) (by omega) (by omega) m hk

/-- A docstring that opens in a block is read there. -/
theorem OpensAt.read_eq {l : Line} (hopen : OpensAt ls i indent d quote rest)
    (hl : ls[d]? = some l) :
    read indent (block indent (ls.drop (i + 1))).length (ls.drop (i + 1)) =
      ⟨some (capture quote rest l (ls.drop (d + 1))).1,
        d - (i + 1) + ((capture quote rest l (ls.drop (d + 1))).2 + 1)⟩ := by
  obtain ⟨blanks, hlines, hlength, hblanks⟩ := hopen.exists_blanks hl
  obtain ⟨hbehind, hinside, -, l', hl', hblank, hopening⟩ := hopen
  obtain rfl : l = l' := Option.some.inj (hl.symm.trans hl')
  have hdeeper : ¬ (l.indent : Int) ≤ indent := by
    have hin := ((le_blockEnd_iff hbehind indent).mp hinside).2 d hbehind d.le_refl l hl
    exact Int.not_le.mpr (Line.lt_indent_of_inBlock hin hblank)
  have hsize : (block indent (ls.drop (i + 1))).length =
      blanks.length + (blockEnd ls i indent - d + 1) := by
    rw [blockEnd] at hinside ⊢
    omega
  rw [hsize, hlines, read_append_of_blank hblanks, read_cons_of_not_blank hblank,
    if_neg hdeeper, hopening, hlength]
  rfl

/-- Where a docstring is read, a line opens it, and the lines before are blank or comments. -/
theorem exists_opening_of_read {indent : Int} {size : Nat} {after : List Line}
    (hread : (read indent size after).text.isSome = true) :
    ∃ k l quote rest, k < size ∧ after[k]? = some l ∧ l.isBlank = false ∧
      opening? l.content = some (quote, rest) ∧ ∀ j < k, ∀ m, after[j]? = some m →
      m.isBlank = true := by
  induction size generalizing after with
  | zero => cases hread
  | succ size ih =>
      cases after with
      | nil => cases hread
      | cons l after =>
          cases hblank : l.isBlank with
          | true =>
              rw [read_cons_of_blank hblank] at hread
              obtain ⟨k, l', quote, rest, hk, hl', hblank', hopening, hbefore⟩ := ih hread
              refine ⟨k + 1, l', quote, rest,
                by omega, hl', hblank', hopening, fun j hj m hm => ?_⟩
              cases j with
              | zero =>
                  cases hm
                  exact hblank
              | succ j => exact hbefore j (by omega) m hm
          | false =>
              rw [read_cons_of_not_blank hblank] at hread
              split at hread
              · cases hread
              · cases hopening : opening? l.content with
                | none =>
                    rw [hopening] at hread
                    cases hread
                | some opening =>
                    exact ⟨0, l, opening.1, opening.2, by omega, rfl, hblank, hopening,
                      fun j hj => absurd hj j.not_lt_zero⟩

theorem exists_opensAt_of_read
    (hread :
      (read indent (block indent (ls.drop (i + 1))).length (ls.drop (i + 1))).text.isSome =
        true) :
    ∃ d quote rest, OpensAt ls i indent d quote rest := by
  obtain ⟨k, l, quote, rest, hk, hl, hblank, hopening, hbefore⟩ := exists_opening_of_read hread
  rw [List.getElem?_drop] at hl
  refine ⟨i + 1 + k, quote, rest, by omega, by rw [blockEnd]; omega, fun j hj hjk m hm => ?_,
    l, hl, hblank, hopening⟩
  refine hbefore (j - (i + 1)) (by omega) m ?_
  rw [List.getElem?_drop, Nat.add_sub_cancel' hj]
  exact hm

/-- A block has a docstring exactly when there are lines that it takes. -/
theorem text_isSome_iff :
    (read indent (block indent (ls.drop (i + 1))).length (ls.drop (i + 1))).text.isSome = true ↔
      ∃ d q, Occupies ls i indent d q := by
  constructor
  · intro hread
    obtain ⟨d, quote, rest, hopen⟩ := exists_opensAt_of_read hread
    obtain ⟨l, hl, -⟩ := hopen.opening
    exact ⟨d, _, quote, rest, hopen, closesAt_capture hl quote rest⟩
  · rintro ⟨d, q, quote, rest, hopen, -⟩
    obtain ⟨l, hl, -⟩ := hopen.opening
    rw [hopen.read_eq hl]
    rfl

end Docstring

/-! ## Where the body starts -/

/-- The place of the first line behind a header and its docstring, if docstrings are wanted. -/
def bodyStart (wanted : Bool) (ls : List Line) (i : Nat) (indent : Int) : Nat :=
  i + 1 + (Docstring.readIf wanted indent (block indent (ls.drop (i + 1))).length
    (ls.drop (i + 1))).bodyOffset

theorem lt_bodyStart (wanted : Bool) (ls : List Line) (i : Nat) (indent : Int) :
    i < bodyStart wanted ls i indent := by
  rw [bodyStart]
  omega

/-- The docstring of a block is read by places as it is read from the lines behind the
header. -/
theorem docstring?_block (wanted : Bool) (ls : List Line) (i : Nat) (indent : Int) :
    Position.docstring? ls i (blockEnd ls i indent) indent wanted =
      some ((Docstring.readIf wanted indent (block indent (ls.drop (i + 1))).length
        (ls.drop (i + 1))).text, (bodyStart wanted ls i indent : Int)) := by
  have hsize : ((blockEnd ls i indent : Int) - i).toNat =
      (block indent (ls.drop (i + 1))).length := by
    rw [blockEnd]
    omega
  have hlines : Position.linesFrom? ls ((i : Int) + 1) = some (ls.drop (i + 1)) :=
    if_pos (by omega)
  have hle : (block indent (ls.drop (i + 1))).length ≤ (ls.drop (i + 1)).length :=
    (block_isPrefix _ _).length_le
  unfold Position.docstring? bodyStart
  simp only [hsize, hlines, Option.bind_eq_bind, Option.bind_some]
  cases wanted with
  | false => simp [Docstring.readIf]
  | true =>
      by_cases hempty : (block indent (ls.drop (i + 1))).length = 0
      · simp [hempty, Docstring.readIf, Docstring.read_zero, blockEnd]
      · simp only [hempty, Docstring.readIf, if_false, if_true, Bool.not_true,
          Bool.false_eq_true]
        rw [if_neg (by omega)]
        simp

/-- The body starts on the line behind the docstring. -/
theorem bodyStart_of_occupies {ls : List Line} {i d q : Nat} {indent : Int}
    (hlines : Docstring.Occupies ls i indent d q) : bodyStart true ls i indent = q + 1 := by
  obtain ⟨quote, rest, hopen, hclose⟩ := hlines
  obtain ⟨l, hl, -⟩ := hopen.opening
  have hbehind := hopen.behind
  have hq := hclose.unique (Docstring.closesAt_capture hl quote rest)
  simp only [bodyStart, Docstring.readIf, if_true, hopen.read_eq hl]
  omega

/-- The lines of a docstring start with the first line that is neither blank nor a comment, and
end before the body. -/
theorem occupies_iff {ls : List Line} {i d q : Nat} {indent : Int} :
    Docstring.Occupies ls i indent d q ↔
      (Docstring.read indent (block indent (ls.drop (i + 1))).length
        (ls.drop (i + 1))).text.isSome = true ∧
        bodyStart true ls i indent = q + 1 ∧ i < d ∧ ls[d]?.any (fun l => ! l.isBlank) = true ∧
        ∀ k < d, i < k → ∀ l ∈ ls[k]?, l.isBlank = true := by
  constructor
  · intro hlines
    refine ⟨Docstring.text_isSome_iff.mpr ⟨d, q, hlines⟩, bodyStart_of_occupies hlines, ?_⟩
    obtain ⟨quote, rest, ⟨hbehind, -, hblanks, l, hl, hblank, -⟩, -⟩ := hlines
    exact ⟨hbehind, by simp [hl, hblank], fun k hk hik => hblanks k hik hk⟩
  · rintro ⟨hread, hbody, hbehind, hblank, hblanks⟩
    obtain ⟨d', q', hlines⟩ := Docstring.text_isSome_iff.mp hread
    obtain rfl : q' = q := by
      have hbody' := bodyStart_of_occupies hlines
      omega
    obtain ⟨quote, rest, ⟨hbehind', -, hblanks', l', hl', hblank', -⟩, -⟩ := id hlines
    obtain ⟨l, hl, hblank⟩ : ∃ l, ls[d]? = some l ∧ l.isBlank = false := by
      cases hl : ls[d]? with
      | none =>
          rw [hl] at hblank
          cases hblank
      | some l => exact ⟨l, rfl, by simpa [hl] using hblank⟩
    rcases Nat.lt_trichotomy d d' with hless | rfl | hmore
    · exact absurd (hblanks' d hbehind hless l hl) (by simp [hblank])
    · exact hlines
    · exact absurd (hblanks d' hmore hbehind' l' hl') (by simp [hblank'])

instance (ls : List Line) (i d q : Nat) (indent : Int) :
    Decidable (Docstring.Occupies ls i indent d q) :=
  decidable_of_iff _ occupies_iff.symm

end SymbolGraph
