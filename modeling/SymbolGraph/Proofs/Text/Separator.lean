import SymbolGraph.Text.Basic
set_option autoImplicit false

/-!
# Separators are read back

Parts that do not hold the separator can be joined by it and split again (`split_join`), so that
two lists of such parts with one joined form are the same list, of texts as of strings. What
replacing a character does to a text, and which characters a numeral is made of, tell when parts
are free of a separator.
-/

namespace SymbolGraph.Text

section

variable {α : Type} [DecidableEq α]

/-! ## Splitting what was joined -/

/-- A text without the separator is one part. -/
theorem split_of_not_mem {s : α} {t : List α} (hfree : s ∉ t) : split s t = [t] := by
  induction t with
  | nil => rfl
  | cons c cs ih =>
      simp only [List.mem_cons, not_or] at hfree
      obtain ⟨hhead, htail⟩ := hfree
      rw [split, if_neg (Ne.symm hhead), ih htail]
      rfl

/-- The parts of a text with a separator in it are those before and those behind it. -/
theorem split_append (s : α) (a b : List α) :
    split s (a ++ s :: b) = split s a ++ split s b := by
  induction a with
  | nil => simp [split]
  | cons c a ih =>
      rw [List.cons_append, split, split, ih]
      split
      · rfl
      · cases hsplit : split s a with
        | nil => exact absurd hsplit (split_ne_nil s a)
        | cons part parts => rfl

/-- A part without the separator is split off at the separator behind it. -/
theorem split_append_cons {s : α} {part : List α} (rest : List α) (hfree : s ∉ part) :
    split s (part ++ s :: rest) = part :: split s rest := by
  rw [split_append, split_of_not_mem hfree]
  rfl

/-- Parts that do not hold the separator are read back from their joined form. -/
theorem split_join {s : α} {parts : List (List α)} (hne : parts ≠ [])
    (hfree : ∀ part ∈ parts, s ∉ part) : split s (join [s] parts) = parts := by
  induction parts with
  | nil => exact absurd rfl hne
  | cons part parts ih =>
      have hpart : s ∉ part := hfree part List.mem_cons_self
      cases parts with
      | nil => exact split_of_not_mem hpart
      | cons next later =>
          have hlater : ∀ p ∈ next :: later, s ∉ p := fun p hp =>
            hfree p (List.mem_cons_of_mem part hp)
          rw [join, List.append_assoc, List.singleton_append, split_append_cons _ hpart,
            ih (List.cons_ne_nil next later) hlater]
          simp

/-- No part holds the separator. -/
theorem not_mem_of_mem_split {s : α} {t part : List α} (hpart : part ∈ split s t) :
    s ∉ part := by
  induction t generalizing part with
  | nil =>
      rw [List.mem_singleton.mp hpart]
      exact List.not_mem_nil
  | cons c cs ih =>
      rw [split] at hpart
      split at hpart
      · rcases List.mem_cons.mp hpart with rfl | hpart
        · exact List.not_mem_nil
        · exact ih hpart
      · next hc =>
        obtain ⟨first, rest, hsplit⟩ := List.exists_cons_of_ne_nil (split_ne_nil s cs)
        rw [hsplit] at ih hpart
        rcases List.mem_cons.mp hpart with rfl | hpart
        · exact List.not_mem_cons_of_ne_of_not_mem (Ne.symm hc) (ih List.mem_cons_self)
        · exact ih (List.mem_cons_of_mem first hpart)

/-- The characters of a part are characters of the text. -/
theorem mem_of_mem_split {s c : α} {t part : List α} (hpart : part ∈ split s t)
    (hc : c ∈ part) : c ∈ t := by
  induction t generalizing part with
  | nil =>
      rw [List.mem_singleton.mp hpart] at hc
      exact hc
  | cons d t ih =>
      rw [split] at hpart
      split at hpart
      · rcases List.mem_cons.mp hpart with rfl | hpart
        · cases hc
        · exact List.mem_cons_of_mem d (ih hpart hc)
      · obtain ⟨first, rest, hsplit⟩ := List.exists_cons_of_ne_nil (split_ne_nil s t)
        rw [hsplit] at ih hpart
        rcases List.mem_cons.mp hpart with rfl | hpart
        · rcases List.mem_cons.mp hc with rfl | hc
          · exact List.mem_cons_self
          · exact List.mem_cons_of_mem d (ih List.mem_cons_self hc)
        · exact List.mem_cons_of_mem d (ih (List.mem_cons_of_mem first hpart) hc)

/-- Where two texts meet, the last part of the first and the first part of the second are
one. -/
theorem split_meet {s : α} {t u part next : List α} {parts later : List (List α)}
    (ht : split s t = parts ++ [part]) (hu : split s u = next :: later) :
    split s (t ++ u) = parts ++ (part ++ next) :: later := by
  induction t generalizing parts part with
  | nil =>
      obtain ⟨rfl, rfl⟩ : parts = [] ∧ part = [] := by
        cases parts with
        | nil => exact ⟨rfl, (List.cons.inj ht).1.symm⟩
        | cons first parts => simp [split] at ht
      exact hu
  | cons c t ih =>
      rw [split] at ht
      rw [List.cons_append, split]
      split
      · next hc =>
        rw [if_pos hc] at ht
        cases parts with
        | nil => exact absurd (List.cons.inj ht).2 (split_ne_nil s t)
        | cons first parts =>
            obtain ⟨rfl, hrest⟩ := List.cons.inj ht
            rw [ih hrest]
            rfl
      · next hc =>
        obtain ⟨first, rest, hsplit⟩ := List.exists_cons_of_ne_nil (split_ne_nil s t)
        rw [if_neg hc, hsplit, consFirst] at ht
        cases parts with
        | nil =>
            obtain ⟨rfl, rfl⟩ := List.cons.inj ht
            rw [ih (show split s t = [] ++ [first] from hsplit)]
            rfl
        | cons first' parts =>
            obtain ⟨rfl, rfl⟩ := List.cons.inj ht
            rw [ih (show split s t = (first :: parts) ++ [part] from hsplit)]
            rfl

/-- What stands behind the last separator is read off the end. -/
theorem reverse_takeWhile_append_cons {s : α} {last : List α} (hlast : s ∉ last)
    (before : List α) : ((before ++ s :: last).reverse.takeWhile (· ≠ s)).reverse = last := by
  have hall : ∀ c ∈ last.reverse, decide (c ≠ s) = true := by
    intro c hc
    exact decide_eq_true fun h => hlast (h ▸ List.mem_reverse.mp hc)
  rw [List.reverse_append, List.reverse_cons, List.append_assoc,
    List.takeWhile_append_of_pos hall]
  simp

/-- Two texts that are equal have the same end behind their last separator, whatever stands
before it. -/
theorem eq_of_append_cons_eq {s : α} {before before' last last' : List α} (hlast : s ∉ last)
    (hlast' : s ∉ last') (heq : before ++ s :: last = before' ++ s :: last') :
    last = last' := by
  rw [← reverse_takeWhile_append_cons hlast before, heq, reverse_takeWhile_append_cons hlast']

/-- A last separator divides a text in one way. -/
theorem append_cons_inj {s : α} {before before' last last' : List α} (hlast : s ∉ last)
    (hlast' : s ∉ last') (heq : before ++ s :: last = before' ++ s :: last') :
    before = before' ∧ last = last' := by
  obtain rfl := eq_of_append_cons_eq hlast hlast' heq
  exact ⟨List.append_cancel_right heq, rfl⟩

/-- There is a first part, which ends at the first separator. -/
theorem head?_split (s : α) (t : List α) : (split s t).head? = some (t.takeWhile (· ≠ s)) := by
  induction t with
  | nil => rfl
  | cons c t ih =>
      rw [split]
      split
      · next hc => simp [hc]
      · next hc =>
        cases hparts : split s t with
        | nil => exact absurd hparts (split_ne_nil s t)
        | cons part parts =>
            rw [hparts, List.head?_cons] at ih
            rw [consFirst, List.head?_cons, Option.some.inj ih]
            simp [hc]

/-- There is a last part, which starts behind the last separator. -/
theorem getLast?_split (s : α) (t : List α) :
    (split s t).getLast? = some ((t.reverse.takeWhile (· ≠ s)).reverse) := by
  by_cases hmem : s ∈ t
  · obtain ⟨last, before, hreverse, hlast⟩ :=
      List.eq_append_cons_of_mem (List.mem_reverse.mpr hmem)
    have ht : t = before.reverse ++ s :: last.reverse := by
      rw [← t.reverse_reverse, hreverse]
      simp
    have hfree : s ∉ last.reverse := fun h => hlast (List.mem_reverse.mp h)
    rw [ht, split_append, split_of_not_mem hfree, List.getLast?_concat,
      reverse_takeWhile_append_cons hfree]
  · have hall : ∀ c ∈ t.reverse, decide (c ≠ s) = true := by
      intro c hc
      exact decide_eq_true fun h => hmem (h ▸ List.mem_reverse.mp hc)
    rw [split_of_not_mem hmem, ← List.append_nil t.reverse, List.takeWhile_append_of_pos hall]
    simp

end

/-- An item of a joined list is one of the glue or of a part. -/
theorem mem_join {α : Type} {c : α} {glue : List α} {parts : List (List α)}
    (hmem : c ∈ join glue parts) : c ∈ glue ∨ ∃ part ∈ parts, c ∈ part := by
  induction parts with
  | nil => simp [join] at hmem
  | cons part parts ih =>
      cases parts with
      | nil => exact Or.inr ⟨part, List.mem_cons_self, hmem⟩
      | cons next later =>
          rw [join, List.mem_append, List.mem_append] at hmem
          · obtain (hpart | hglue) | hrest := hmem
            · exact Or.inr ⟨part, List.mem_cons_self, hpart⟩
            · exact Or.inl hglue
            · obtain hglue | ⟨p, hp, hc⟩ := ih hrest
              · exact Or.inl hglue
              · exact Or.inr ⟨p, List.mem_cons_of_mem part hp, hc⟩
          · simp

/-- The items of a part are items of the joined list. -/
theorem mem_join_of_mem {α : Type} {c : α} {glue part : List α} {parts : List (List α)}
    (hpart : part ∈ parts) (hc : c ∈ part) : c ∈ join glue parts := by
  induction parts with
  | nil => cases hpart
  | cons first later ih =>
      cases later with
      | nil => exact List.mem_singleton.mp hpart ▸ hc
      | cons next later =>
          rw [join, List.mem_append, List.mem_append]
          · rcases List.mem_cons.mp hpart with rfl | hlater
            · exact Or.inl (Or.inl hc)
            · exact Or.inr (ih hlater)
          · simp

/-! ## Replacing a character -/

/-- A character that is replaced by another is gone. -/
theorem not_mem_replaceChar {old new : Char} (hne : new ≠ old) (t : Text) :
    old ∉ replaceChar old new t := by
  intro hmem
  obtain ⟨c, -, hc⟩ := List.mem_map.mp hmem
  split at hc
  · exact hne hc
  · exact absurd hc ‹_›

/-- A text without the character is left as it is. -/
theorem replaceChar_of_not_mem {old new : Char} {t : Text} (hfree : old ∉ t) :
    replaceChar old new t = t := by
  induction t with
  | nil => rfl
  | cons c cs ih =>
      simp only [List.mem_cons, not_or] at hfree
      have htail := ih hfree.2
      simp only [replaceChar] at htail ⊢
      rw [List.map_cons, if_neg (Ne.symm hfree.1), htail]

/-! ## Numerals -/

/-- A numeral of a natural number holds digits only. -/
theorem isDigit_of_mem_ofNat {c : Char} {n : Nat} (hmem : c ∈ ofNat n) : c.isDigit = true := by
  rw [ofNat, Nat.toList_repr] at hmem
  exact Nat.isDigit_of_mem_toDigits (by decide) (by decide) hmem

/-- A numeral holds digits and perhaps a minus. -/
theorem isDigit_or_minus_of_mem_ofInt {c : Char} {n : Int} (hmem : c ∈ ofInt n) :
    c.isDigit = true ∨ c = '-' := by
  cases n with
  | ofNat n => exact Or.inl (isDigit_of_mem_ofNat hmem)
  | negSucc n =>
      rw [ofInt, List.mem_cons] at hmem
      obtain hminus | hdigit := hmem
      · exact Or.inr hminus
      · exact Or.inl (isDigit_of_mem_ofNat hdigit)

/-- Different natural numbers have different numerals. -/
theorem ofNat_inj {m n : Nat} (heq : ofNat m = ofNat n) : m = n := by
  rw [ofNat, ofNat, Nat.toList_repr, Nat.toList_repr] at heq
  have hvalue := congrArg (Nat.ofDigitChars 10 · 0) heq
  simpa only [Nat.ofDigitChars_ten_toDigits] using hvalue

/-- The numeral of a natural number does not start with a minus. -/
theorem ofNat_ne_minus_cons (n : Nat) (t : Text) : ofNat n ≠ '-' :: t := by
  intro heq
  have hdigit := isDigit_of_mem_ofNat (c := '-') (n := n) (heq ▸ List.mem_cons_self)
  exact absurd hdigit (by decide)

/-- Different integers have different numerals. -/
theorem ofInt_inj {m n : Int} (heq : ofInt m = ofInt n) : m = n := by
  cases m with
  | ofNat m =>
      cases n with
      | ofNat n => exact congrArg Int.ofNat (ofNat_inj heq)
      | negSucc n => exact absurd heq (ofNat_ne_minus_cons m _)
  | negSucc m =>
      cases n with
      | ofNat n => exact absurd heq.symm (ofNat_ne_minus_cons n _)
      | negSucc n =>
          have hnext := ofNat_inj (List.cons.inj heq).2
          exact congrArg Int.negSucc (Nat.succ.inj hnext)

end SymbolGraph.Text
