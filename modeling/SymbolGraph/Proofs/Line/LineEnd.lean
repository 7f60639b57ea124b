import SymbolGraph.Proofs.Outline.TopLevel
import SymbolGraph.Proofs.Text.Lines
set_option autoImplicit false

/-!
# The lines of a text whatever its line ends

A text is normalised to line feeds in one pass. Two replacements do the same, first of the pairs
of a carriage return and a line feed and then of the returns that are left
(`normalizeNewlines_eq_replaceAll`). So what becomes of mixed line ends follows from what a
replacement does: it leaves alone a text that lacks a character of what is replaced
(`replaceAll_of_not_mem`), and the replacement the other way round undoes it where the text did
not have what was put in (`replaceAll_replaceAll`). The lines of a text are then the text up to
the kind of its line ends (`lines_lossless`).
-/

namespace SymbolGraph

namespace Text

/-! ## Replacement -/

/-- Replaces `old` by `new` behind the first `passed` characters, which are left out. -/
def replaceFrom (old new : Text) : (passed : Nat) → Text → Text
  | _, [] => []
  | passed + 1, _ :: t => replaceFrom old new passed t
  | 0, c :: t =>
    if old.isPrefixOf (c :: t) then new ++ replaceFrom old new (old.length - 1) t
    else c :: replaceFrom old new 0 t

/-- Replaces every occurrence of `old`, which is not empty, by `new`, from left to right. -/
def replaceAll (old new : Text) (t : Text) : Text := replaceFrom old new 0 t

section

variable {old : Text} (new : Text)

theorem replaceFrom_append (passed t : Text) :
    replaceFrom old new passed.length (passed ++ t) = replaceAll old new t := by
  induction passed with
  | nil => rfl
  | cons c passed ih => rw [List.length_cons, List.cons_append, replaceFrom, ih]

/-- An occurrence at the start is replaced, and the rest by itself. -/
theorem replaceAll_append (hne : old ≠ []) (t : Text) :
    replaceAll old new (old ++ t) = new ++ replaceAll old new t := by
  cases old with
  | nil => exact absurd rfl hne
  | cons c old =>
      have hstart : (c :: old).isPrefixOf (c :: (old ++ t)) = true :=
        List.isPrefixOf_iff_prefix.mpr (List.prefix_append (c :: old) t)
      rw [List.cons_append, replaceAll, replaceFrom, if_pos hstart, List.length_cons,
        Nat.add_sub_cancel, replaceFrom_append]

/-- A character that no occurrence starts with is kept. -/
theorem replaceAll_cons {c : Char} {t : Text} (hstart : ¬ old <+: c :: t) :
    replaceAll old new (c :: t) = c :: replaceAll old new t := by
  rw [replaceAll, replaceFrom, if_neg (hstart ∘ List.isPrefixOf_iff_prefix.mp)]
  rfl

/-- A text that lacks a character of what is replaced is left as it is. -/
theorem replaceAll_of_not_mem {x : Char} (hx : x ∈ old) {t : Text} (hfree : x ∉ t) :
    replaceAll old new t = t := by
  induction t with
  | nil => rfl
  | cons c t ih =>
      have hstart : ¬ old <+: c :: t := fun hoccurs => hfree (hoccurs.subset hx)
      rw [replaceAll_cons new hstart, ih (List.not_mem_of_not_mem_cons hfree)]

/-- A single character is replaced wherever it stands. -/
theorem replaceAll_singleton_cons (x c : Char) (t : Text) :
    replaceAll [x] new (c :: t) = (if c = x then new else [c]) ++ replaceAll [x] new t := by
  split
  · next hc =>
    rw [hc]
    exact replaceAll_append new (List.cons_ne_nil x []) t
  · next hc =>
    refine replaceAll_cons new fun hoccurs => hc ?_
    exact ((List.cons_prefix_cons.mp hoccurs).1).symm

/-- A character that is replaced is not there any more. -/
theorem not_mem_replaceAll {x : Char} (hnew : x ∉ new) (t : Text) :
    x ∉ replaceAll [x] new t := by
  induction t with
  | nil => exact List.not_mem_nil
  | cons c t ih =>
      rw [replaceAll_singleton_cons, List.mem_append, not_or]
      refine ⟨?_, ih⟩
      split
      · exact hnew
      · next hc => exact fun hx => hc (List.mem_singleton.mp hx).symm

end

/-- A replacement of one character is undone, where the text does not have the character that
the new text starts with. -/
theorem replaceAll_replaceAll (c : Char) {x : Char} (rest : Text) {t : Text} (hfree : x ∉ t) :
    replaceAll (x :: rest) [c] (replaceAll [c] (x :: rest) t) = t := by
  induction t with
  | nil => rfl
  | cons d t ih =>
      rw [List.mem_cons, not_or] at hfree
      rw [replaceAll_singleton_cons]
      split
      · next hd => rw [replaceAll_append [c] (List.cons_ne_nil x rest), ih hfree.2, hd,
          List.singleton_append]
      · -- whatever follows, a character of the text is not the start of what was put in
        rw [List.singleton_append, replaceAll_cons, ih hfree.2]
        exact fun hoccurs => hfree.1 (List.cons_prefix_cons.mp hoccurs).1

/-! ## Line ends as replacements -/

/-- A text is normalised by replacing the pairs first and then the returns that are left. -/
theorem normalizeNewlines_eq_replaceAll (t : Text) :
    normalizeNewlines t = replaceAll ['\r'] ['\n'] (replaceAll ['\r', '\n'] ['\n'] t) := by
  fun_induction normalizeNewlines t with
  | case1 => rfl
  | case2 rest ih =>
      have hpair : replaceAll ['\r', '\n'] ['\n'] ('\r' :: '\n' :: rest) =
          '\n' :: replaceAll ['\r', '\n'] ['\n'] rest :=
        replaceAll_append ['\n'] (List.cons_ne_nil '\r' ['\n']) rest
      rw [hpair, replaceAll_singleton_cons, if_neg (by decide), ih, List.singleton_append]
  | case3 c rest hpair ih =>
      have hstart : ¬ ['\r', '\n'] <+: c :: rest := by
        rintro ⟨later, hlater⟩
        obtain ⟨hc, hrest⟩ := List.cons.inj hlater
        exact hpair later hc.symm hrest.symm
      rw [replaceAll_cons _ hstart, replaceAll_singleton_cons, ih]
      split <;> rfl

/-- A return, a pair, a line feed and a return. -/
example : normalizeNewlines "\r\r\n\n\r".toList = "\n\n\n\n".toList := by decide

theorem not_mem_normalizeNewlines (t : Text) : '\r' ∉ normalizeNewlines t := by
  rw [normalizeNewlines_eq_replaceAll]
  exact not_mem_replaceAll ['\n'] (by decide) _

theorem normalizeNewlines_idempotent (t : Text) :
    normalizeNewlines (normalizeNewlines t) = normalizeNewlines t :=
  normalizeNewlines_of_not_mem (not_mem_normalizeNewlines t)

section

variable {t : Text} (ht : '\r' ∉ t)
include ht

/-- Pairs in place of the line feeds become line feeds again. -/
theorem normalizeNewlines_pairs : normalizeNewlines (replaceAll ['\n'] ['\r', '\n'] t) = t := by
  rw [normalizeNewlines_eq_replaceAll, replaceAll_replaceAll '\n' ['\n'] ht]
  exact replaceAll_of_not_mem ['\n'] List.mem_cons_self ht

/-- Returns in place of the line feeds become line feeds again. -/
theorem normalizeNewlines_returns : normalizeNewlines (replaceAll ['\n'] ['\r'] t) = t := by
  -- no line feed is left that could make a pair with a return
  have hfeed : '\n' ∉ replaceAll ['\n'] ['\r'] t := not_mem_replaceAll ['\r'] (by decide) t
  have hpairs : replaceAll ['\r', '\n'] ['\n'] (replaceAll ['\n'] ['\r'] t) =
      replaceAll ['\n'] ['\r'] t :=
    replaceAll_of_not_mem ['\n'] (List.mem_cons_of_mem '\r' List.mem_cons_self) hfeed
  rw [normalizeNewlines_eq_replaceAll, hpairs, replaceAll_replaceAll '\n' [] ht]

end

/-- No line has a line end in it. -/
theorem not_mem_of_mem_lines {t line : Text} (hline : line ∈ lines t) :
    '\r' ∉ line ∧ '\n' ∉ line :=
  ⟨fun hreturn => not_mem_normalizeNewlines t (mem_of_mem_split hline hreturn),
    not_mem_of_mem_split hline⟩

end Text

open Text

/-! ## Lines -/

/-- Texts that are normalised to one text have the same lines. -/
theorem scan_eq_of_normalizeNewlines {t u : Text}
    (heq : normalizeNewlines t = normalizeNewlines u) : Line.scan t = Line.scan u := by
  rw [Line.scan, Line.scan, lines, lines, heq]

/-- A text is normalised by replacing the pairs of a carriage return and a line feed and then
the returns that are left, and a normalised text stays as it is. No line of a text has a line
end in it, each has its place for its index, and put together with line feeds they are the
normalised text. A text without returns is so got back from its lines, and with pairs or with
returns in place of all its line feeds it has the same lines. -/
theorem lines_lossless (t : Text) :
    normalizeNewlines t = replaceAll ['\r'] ['\n'] (replaceAll ['\r', '\n'] ['\n'] t) ∧
    normalizeNewlines (normalizeNewlines t) = normalizeNewlines t ∧
    (∀ l ∈ Line.scan t, '\r' ∉ l.raw ∧ '\n' ∉ l.raw) ∧
    join ['\n'] ((Line.scan t).map Line.raw) = normalizeNewlines t ∧
    (∀ (i : Nat) (l : Line), (Line.scan t)[i]? = some l → l.index = i) ∧
    ('\r' ∉ t →
      join ['\n'] ((Line.scan t).map Line.raw) = t ∧
      Line.scan (replaceAll ['\n'] ['\r', '\n'] t) = Line.scan t ∧
      Line.scan (replaceAll ['\n'] ['\r'] t) = Line.scan t) := by
  have hjoin : join ['\n'] ((Line.scan t).map Line.raw) = normalizeNewlines t := by
    rw [raws_scan]
    exact unlines_lines t
  refine ⟨normalizeNewlines_eq_replaceAll t, normalizeNewlines_idempotent t,
    fun l hl => ?_, hjoin, fun i l hl => Nat.succ.inj (number_of_getElem?_scan hl),
    fun ht => ?_⟩
  · have hraw : l.raw ∈ lines t := by
      rw [← raws_scan]
      exact List.mem_map_of_mem hl
    exact not_mem_of_mem_lines hraw
  · have hself := normalizeNewlines_of_not_mem ht
    refine ⟨hjoin.trans hself, scan_eq_of_normalizeNewlines ?_, scan_eq_of_normalizeNewlines ?_⟩
    · rw [normalizeNewlines_pairs ht, hself]
    · rw [normalizeNewlines_returns ht, hself]

/-- A text with an empty line between two others and a line end behind the last of them. -/
def gappedText : Text := "def f():\n\n\treturn 1\n".toList

/-- The empty line stands between two line feeds, so that two returns or two pairs meet
there. -/
theorem lines_lossless_gappedText :
    '\r' ∉ gappedText ∧
      Line.scan "def f():\r\n\r\n\treturn 1\r\n".toList = Line.scan gappedText ∧
      Line.scan "def f():\r\r\treturn 1\r".toList = Line.scan gappedText ∧
      (Line.scan gappedText).map Line.raw =
        ["def f():", "", "\treturn 1", ""].map String.toList := by
  have hfree : '\r' ∉ gappedText := by decide
  obtain ⟨-, hpairs, hreturns⟩ := (lines_lossless gappedText).2.2.2.2.2 hfree
  have hwithPairs : replaceAll ['\n'] ['\r', '\n'] gappedText =
      "def f():\r\n\r\n\treturn 1\r\n".toList := by
    decide
  have hwithReturns : replaceAll ['\n'] ['\r'] gappedText =
      "def f():\r\r\treturn 1\r".toList := by decide
  rw [hwithPairs] at hpairs
  rw [hwithReturns] at hreturns
  exact ⟨hfree, hpairs, hreturns, by decide⟩

end SymbolGraph
