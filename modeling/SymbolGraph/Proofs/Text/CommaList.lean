import Mathlib.Data.List.Basic
import Mathlib.Data.List.TakeWhile
import SymbolGraph.Proofs.Text.Separator
import SymbolGraph.Text.Basic
set_option autoImplicit false

/-!
# Lists written with commas

Items with a comma and a blank between them are read back as they are: the commas separate them,
and the blank belongs to none of them since the parts are trimmed. A comma behind the last item
changes nothing, for the part that it opens is empty.

Trimming takes a run off either end and leaves a text that starts and ends with other
characters.
-/

namespace SymbolGraph.Text

/-! ## Runs -/

theorem forall_head?_cons {P : Char → Prop} {c : Char} (hc : P c) (t : Text) :
    ∀ d ∈ (c :: t).head?, P d := by
  intro d hd
  rwa [← Option.some.inj hd]

section

variable {p : Char → Bool} {t run : Text}

/-- A run of one class ends where another character stands. -/
theorem takeWhile_run (hrun : ∀ c ∈ run, p c = true) (hhead : ∀ c ∈ t.head?, p c = false) :
    (run ++ t).takeWhile p = run := by
  have hnil : t.takeWhile p = [] := by
    cases t with
    | nil => rfl
    | cons c t =>
        refine List.takeWhile_cons_of_neg ?_
        rw [hhead c rfl]
        exact Bool.false_ne_true
  rw [List.takeWhile_append_of_pos hrun, hnil, List.append_nil]

theorem dropWhile_of_head (hhead : ∀ c ∈ t.head?, p c = false) : t.dropWhile p = t := by
  cases t with
  | nil => rfl
  | cons c t =>
      refine List.dropWhile_cons_of_neg ?_
      rw [hhead c rfl]
      exact Bool.false_ne_true

theorem dropWhile_run (hrun : ∀ c ∈ run, p c = true) (hhead : ∀ c ∈ t.head?, p c = false) :
    (run ++ t).dropWhile p = t := by
  rw [List.dropWhile_append_of_pos hrun, dropWhile_of_head hhead]

theorem forall_ne_of_not_mem {s : Char} (hfree : s ∉ t) : ∀ c ∈ t, decide (c ≠ s) = true := by
  intro c hc
  exact decide_eq_true fun h => hfree (h ▸ hc)

/-- What stands in front of the first separator is read up to it. -/
theorem takeWhile_until {s : Char} (hfree : s ∉ t) (rest : Text) :
    (t ++ s :: rest).takeWhile (· ≠ s) = t :=
  takeWhile_run (forall_ne_of_not_mem hfree) (forall_head?_cons (by simp) rest)

theorem dropWhile_until {s : Char} (hfree : s ∉ t) (rest : Text) :
    (t ++ s :: rest).dropWhile (· ≠ s) = s :: rest :=
  dropWhile_run (forall_ne_of_not_mem hfree) (forall_head?_cons (by simp) rest)

/-! ## Trimming -/

theorem trimBy_append_left (hrun : ∀ c ∈ run, p c = true) :
    trimBy p (run ++ t) = trimBy p t := by
  rw [trimBy, List.dropWhile_append_of_pos hrun, trimBy]

theorem trimBy_append_right (hrun : ∀ c ∈ run, p c = true) :
    trimBy p (t ++ run) = trimBy p t := by
  have hreverse : ∀ c ∈ run.reverse, p c = true := fun c hc => hrun c (List.mem_reverse.mp hc)
  rw [trimBy, trimBy, List.dropWhile_append]
  split
  · next hempty =>
    rw [List.isEmpty_iff.mp hempty, List.dropWhile_eq_nil_iff.mpr hrun]
  · rw [List.reverse_append, List.dropWhile_append_of_pos hreverse]

/-- A text that starts with another character keeps its start. -/
theorem trimBy_cons {c : Char} (hc : p c = false) :
    trimBy p (c :: t) = c :: (t.reverse.dropWhile p).reverse := by
  have hkept : ∀ t, (c :: t).dropWhile p = c :: t := by
    intro t
    exact dropWhile_of_head (forall_head?_cons hc t)
  rw [trimBy, hkept, List.reverse_cons, List.dropWhile_append]
  split
  · next hempty =>
    rw [List.isEmpty_iff.mp hempty, hkept]
    rfl
  · rw [List.reverse_append]
    rfl

/-- A text that starts and ends with other characters stays as it is. -/
theorem trimBy_eq_self (hhead : ∀ c ∈ t.head?, p c = false)
    (hlast : ∀ c ∈ t.getLast?, p c = false) : trimBy p t = t := by
  rw [← List.head?_reverse] at hlast
  rw [trimBy, dropWhile_of_head hhead, dropWhile_of_head hlast, List.reverse_reverse]

end

theorem trim_cons_blank {c : Char} (hc : isSpace c = true) (t : Text) :
    trim (c :: t) = trim t :=
  trimBy_append_left (List.forall_mem_singleton.mpr hc)

/-! ## Ends of a joined text -/

theorem join_ne_nil {glue : Text} {parts : List Text} (hne : ∀ part ∈ parts, part ≠ [])
    (hparts : parts ≠ []) : join glue parts ≠ [] := by
  cases parts with
  | nil => exact absurd rfl hparts
  | cons part parts =>
      have hpart := hne part List.mem_cons_self
      cases parts with
      | nil => exact hpart
      | cons next later => simp [join, hpart]

/-- A text joined of parts that are not empty starts with the start of a part. -/
theorem mem_head?_join {c : Char} {glue : Text} {parts : List Text}
    (hne : ∀ part ∈ parts, part ≠ []) (hmem : c ∈ (join glue parts).head?) :
    ∃ part ∈ parts, c ∈ part.head? := by
  cases parts with
  | nil => cases hmem
  | cons part parts =>
      refine ⟨part, List.mem_cons_self, ?_⟩
      cases parts with
      | nil => exact hmem
      | cons next later =>
          obtain ⟨d, ds, rfl⟩ := List.exists_cons_of_ne_nil (hne part List.mem_cons_self)
          exact hmem

/-- A text joined of parts that are not empty ends with the end of a part. -/
theorem mem_getLast?_join {c : Char} {glue : Text} {parts : List Text}
    (hne : ∀ part ∈ parts, part ≠ []) (hmem : c ∈ (join glue parts).getLast?) :
    ∃ part ∈ parts, c ∈ part.getLast? := by
  induction parts with
  | nil => cases hmem
  | cons part parts ih =>
      cases parts with
      | nil => exact ⟨part, List.mem_cons_self, hmem⟩
      | cons next later =>
          have hlater : ∀ p ∈ next :: later, p ≠ [] :=
            fun p hp => hne p (List.mem_cons_of_mem part hp)
          rw [join, List.getLast?_append_of_ne_nil] at hmem
          · obtain ⟨p, hp, hc⟩ := ih hlater hmem
            exact ⟨p, List.mem_cons_of_mem part hp, hc⟩
          · exact join_ne_nil hlater (List.cons_ne_nil next later)
          · exact List.cons_ne_nil next later

/-! ## Items -/

/-- A text that can be an item of a list written with commas: it is not empty, has no blanks
around it and holds no comma. -/
structure IsItem (t : Text) : Prop where
  ne_nil : t ≠ []
  trimmed : trim t = t
  commaFree : ',' ∉ t

instance : DecidablePred IsItem := fun t =>
  decidable_of_iff (t ≠ [] ∧ trim t = t ∧ ',' ∉ t)
    ⟨fun h => ⟨h.1, h.2.1, h.2.2⟩, fun h => ⟨h.ne_nil, h.trimmed, h.commaFree⟩⟩

theorem commaList_append (a b : Text) :
    commaList (a ++ ',' :: b) = commaList a ++ commaList b := by
  rw [commaList, split_append, List.map_append, List.filter_append, ← commaList, ← commaList]

theorem commaList_nil : commaList [] = [] := rfl

/-- A blank in front belongs to no item. -/
theorem commaList_cons_blank {c : Char} (hc : isSpace c = true) (t : Text) :
    commaList (c :: t) = commaList t := by
  have hcomma : c ≠ ',' := by
    rintro rfl
    exact absurd hc (by decide)
  rw [commaList, split, if_neg hcomma, commaList]
  cases hsplit : split ',' t with
  | nil => exact absurd hsplit (split_ne_nil ',' t)
  | cons part parts => rw [consFirst, List.map_cons, List.map_cons, trim_cons_blank hc]

theorem commaList_item {t : Text} (ht : IsItem t) : commaList t = [t] := by
  rw [commaList, split_of_not_mem ht.commaFree, List.map_singleton, ht.trimmed]
  exact List.filter_cons_of_pos (decide_eq_true ht.ne_nil)

/-- Items written with commas between them are read back. -/
theorem commaList_join {ts : List Text} (hts : ∀ t ∈ ts, IsItem t) :
    commaList (join [',', ' '] ts) = ts := by
  induction ts with
  | nil => rfl
  | cons t ts ih =>
      have ht := commaList_item (hts t List.mem_cons_self)
      have hrest := ih fun u hu => hts u (List.mem_cons_of_mem t hu)
      cases ts with
      | nil => exact ht
      | cons u us =>
          rw [join, List.append_assoc, List.cons_append, List.singleton_append,
            commaList_append, ht, commaList_cons_blank (by decide), hrest]
          · rfl
          · exact List.cons_ne_nil u us

/-- A comma behind the last item changes nothing. -/
theorem commaList_concat_comma (t : Text) : commaList (t ++ [',']) = commaList t := by
  rw [commaList_append, commaList_nil, List.append_nil]

end SymbolGraph.Text
