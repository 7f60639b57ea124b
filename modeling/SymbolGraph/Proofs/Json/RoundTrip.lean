import SymbolGraph.Proofs.Assoc
import SymbolGraph.Proofs.Json.Scalar
set_option autoImplicit false

/-!
# Written values are read back

A value without doubles in which no object has a key twice is read back from what it is written
as, on one line or indented by blanks, by every reader whose limits it keeps
(`readWithin_write`). What is written of a value is read wherever it stands, as long as nothing
behind it goes on with a number. The steps that a reader takes are bounded by the length of what
is written.
-/

namespace SymbolGraph.Json

/-- The value has no doubles in it, no object in it has a key twice, and it keeps the limits of
a reader. -/
inductive Exact : JsonLimits → Json → Prop
  | null (limits : JsonLimits) : Exact limits .null
  | bool (limits : JsonLimits) (b : Bool) : Exact limits (.bool b)
  | int {limits : JsonLimits} {n : Int} (hn : limits.Allows n) : Exact limits (.int n)
  | str (limits : JsonLimits) (s : Points) : Exact limits (.str s)
  | arr {limits inside : JsonLimits} {vs : List Json} (hinside : limits.inside? = some inside)
    (hitems : ∀ v ∈ vs, Exact inside v) : Exact limits (.arr vs)
  | obj {limits inside : JsonLimits} {fs : Fields} (hinside : limits.inside? = some inside)
    (hkeys : (fs.map Prod.fst).Nodup) (hfields : ∀ f ∈ fs, Exact inside f.2) :
      Exact limits (.obj fs)

/-- A value is indented by blanks, if at all. -/
def Blank (indent : Option Text) : Prop := ∀ unit ∈ indent, ∀ c ∈ unit, isGap c = true

theorem blank_none : Blank none := fun _ h => absurd h.symm (Option.some_ne_none _)

theorem blank_spaces (n : Nat) : Blank (spaces n) := by
  intro unit hunit c hc
  rw [← Option.some.inj hunit] at hc
  rw [List.eq_of_mem_replicate hc]
  rfl

/-! ## Blanks -/

theorem skipGap_points {t : Text} (ht : ∀ c ∈ t, isGap c = true) (s : Points) :
    skipGap (t.points ++ s) = skipGap s := by
  induction t with
  | nil => rfl
  | cons c t ih =>
      have hc : (Point.char c).holds isGap = true := ht c List.mem_cons_self
      rw [Text.points, List.map_cons, List.cons_append, skipGap, List.dropWhile_cons_of_pos hc]
      exact ih fun d hd => ht d (List.mem_cons_of_mem c hd)

theorem skipGap_char {c : Char} (hc : isGap c = false) (s : Points) :
    skipGap (.char c :: s) = .char c :: s :=
  List.dropWhile_cons_of_neg (Bool.eq_false_iff.mp hc)

section

variable {indent : Option Text} (hindent : Blank indent)
include hindent

theorem skipGap_gap (depth : Nat) (s : Points) :
    skipGap (gap indent depth ++ s) = skipGap s := by
  cases indent with
  | none => rfl
  | some unit =>
      refine skipGap_points (t := '\n' :: (List.replicate depth unit).flatten) ?_ s
      intro c hc
      obtain rfl | hc := List.mem_cons.mp hc
      · rfl
      · obtain ⟨part, hpart, hc⟩ := List.mem_flatten.mp hc
        rw [List.eq_of_mem_replicate hpart] at hc
        exact hindent unit rfl c hc

/-- Behind a comma stand blanks only. -/
theorem exists_comma (depth : Nat) (s : Points) : ∃ later,
    skipGap (comma indent depth ++ s) = .char ',' :: later ∧ skipGap later = skipGap s := by
  cases indent with
  | none => exact ⟨.char ' ' :: s, rfl, rfl⟩
  | some unit => exact ⟨gap (some unit) depth ++ s, rfl, skipGap_gap hindent depth s⟩

end

/-! ## Ends -/

theorem ends_nil : Ends [] := fun _ h => absurd h.symm (Option.some_ne_none _)

theorem ends_gap (indent : Option Text) (depth : Nat) {s : Points} (hs : Ends s) :
    Ends (gap indent depth ++ s) := by
  cases indent with
  | none => exact hs
  | some unit =>
      intro p hp
      exact Or.inr (Or.inr (Or.inr (Option.some.inj hp).symm))

theorem ends_comma (indent : Option Text) (depth : Nat) (s : Points) :
    Ends (comma indent depth ++ s) := by
  intro p hp
  cases indent <;> exact Or.inl (Option.some.inj hp).symm

theorem ends_items (indent : Option Text) (depth : Nat) (vs : List Json) {s : Points}
    (hs : Ends s) : Ends (writeItems indent depth vs ++ s) := by
  cases vs with
  | nil => exact hs
  | cons v vs =>
      rw [writeItems, List.append_assoc, List.append_assoc]
      exact ends_comma indent depth _

theorem ends_fields (indent : Option Text) (depth : Nat) (fs : Fields) {s : Points}
    (hs : Ends s) : Ends (writeFields indent depth fs ++ s) := by
  cases fs with
  | nil => exact hs
  | cons f fs =>
      rw [writeFields]
      simp only [List.append_assoc]
      exact ends_comma indent depth _

/-- A value starts with a character that is no blank and closes nothing. -/
theorem exists_start {limits : JsonLimits} {v : Json} (hv : v.Exact limits)
    (indent : Option Text) (depth : Nat) :
    ∃ c t, writeAt indent depth v = .char c :: t ∧ isGap c = false ∧ c ≠ ']' := by
  cases hv with
  | null => exact ⟨'n', _, rfl, rfl, by decide⟩
  | bool _ b => cases b <;> exact ⟨_, _, rfl, rfl, by decide⟩
  | @int _ n _ =>
      obtain ⟨c, t, ht, hne⟩ := exists_ofInt_cons n
      refine ⟨c, Text.points t, ?_, ?_, hne ']' rfl (by decide)⟩
      · rw [writeAt, ht]
        rfl
      · simp [isGap, hne ' ' rfl (by decide), hne '\t' rfl (by decide),
          hne '\n' rfl (by decide), hne '\r' rfl (by decide)]
  | str => exact ⟨'"', _, rfl, rfl, by decide⟩
  | @arr _ _ vs => cases vs <;> exact ⟨'[', _, rfl, rfl, by decide⟩
  | @obj _ _ fs => cases fs <;> exact ⟨'\x7b', _, rfl, rfl, by decide⟩

theorem skipGap_writeAt {limits : JsonLimits} {v : Json} (hv : v.Exact limits)
    (indent : Option Text) (depth : Nat) (s : Points) :
    skipGap (writeAt indent depth v ++ s) = writeAt indent depth v ++ s := by
  obtain ⟨c, t, hstart, hgap, -⟩ := exists_start hv indent depth
  rw [hstart, List.cons_append]
  exact skipGap_char hgap _

/-! ## Values -/

/-- The value is read back at every depth and whatever stands behind it, given two steps for
each point. -/
def ReadsBack (limits : JsonLimits) (indent : Option Text) (v : Json) : Prop :=
  ∀ (depth fuel : Nat) (rest : Points), 2 * (writeAt indent depth v).length ≤ fuel + 1 →
    Ends rest →
    readValue limits (fuel + 1) (writeAt indent depth v ++ rest) = .ok (v, rest)

theorem length_writeAt_pos {limits : JsonLimits} {v : Json} (hv : v.Exact limits)
    (indent : Option Text) (depth : Nat) : 0 < (writeAt indent depth v).length := by
  obtain ⟨c, t, hstart, -⟩ := exists_start hv indent depth
  rw [hstart]
  exact Nat.succ_pos _

section

variable {limits : JsonLimits} {fuel : Nat} {s after later rest : Points} {v : Json}

theorem readItems_last (hv : readValue limits fuel s = .ok (v, after))
    (hend : skipGap after = .char ']' :: rest) :
    readItems limits (fuel + 1) s = .ok ([v], rest) := by
  simp only [readItems, hv, hend]

theorem readItems_more {vs : List Json} (hv : readValue limits fuel s = .ok (v, after))
    (hcomma : skipGap after = .char ',' :: later)
    (hlater : readItems limits fuel (skipGap later) = .ok (vs, rest)) :
    readItems limits (fuel + 1) s = .ok (v :: vs, rest) := by
  simp only [readItems, hv, hcomma, hlater]
  rfl

theorem writeString_append (k s : Points) : writeString k ++ (colon ++ s) =
    .char '"' :: (k.flatMap writePoint ++ .char '"' :: (.char ':' :: .char ' ' :: s)) := by
  simp [writeString, colon, Points.ofString, Text.points]

theorem readFields_last {k : Points} (hv : readValue limits fuel (skipGap s) = .ok (v, after))
    (hend : skipGap after = .char '\x7d' :: rest) :
    readFields limits (fuel + 1) (writeString k ++ (colon ++ s)) = .ok ([(k, v)], rest) := by
  have hcolon : skipGap (.char ':' :: .char ' ' :: s) = .char ':' :: .char ' ' :: s :=
    skipGap_char rfl _
  have hblank : skipGap (.char ' ' :: s) = skipGap s := rfl
  rw [writeString_append]
  simp only [readFields, readString_written, hcolon, hblank, hv, hend]

theorem readFields_more {k : Points} {fs : Fields}
    (hv : readValue limits fuel (skipGap s) = .ok (v, after))
    (hcomma : skipGap after = .char ',' :: later)
    (hlater : readFields limits fuel (skipGap later) = .ok (fs, rest)) :
    readFields limits (fuel + 1) (writeString k ++ (colon ++ s)) =
      .ok ((k, v) :: fs, rest) := by
  have hcolon : skipGap (.char ':' :: .char ' ' :: s) = .char ':' :: .char ' ' :: s :=
    skipGap_char rfl _
  have hblank : skipGap (.char ' ' :: s) = skipGap s := rfl
  rw [writeString_append]
  simp only [readFields, readString_written, hcolon, hblank, hv, hcomma, hlater]
  rfl

end

section

variable {limits : JsonLimits} {indent : Option Text} (hindent : Blank indent)
include hindent

/-- Items that are read back each are read back up to the end of their list. -/
theorem readItems_written {v : Json} {vs : List Json} (hvs : ∀ u ∈ v :: vs, u.Exact limits)
    (hread : ∀ u ∈ v :: vs, ReadsBack limits indent u) (outer depth fuel : Nat) (rest : Points)
    (hfuel : 2 * ((writeAt indent depth v).length + (writeItems indent depth vs).length) ≤
      fuel + 1) :
    readItems limits (fuel + 2) (writeAt indent depth v ++ (writeItems indent depth vs
      ++ (gap indent outer ++ .char ']' :: rest))) = .ok (v :: vs, rest) := by
  have hclose : Ends (gap indent outer ++ .char ']' :: rest) :=
    ends_gap indent outer fun p hp => Or.inr (Or.inl (Option.some.inj hp).symm)
  induction vs generalizing v fuel with
  | nil =>
      refine readItems_last (hread v List.mem_cons_self depth fuel _ (by omega) hclose) ?_
      rw [writeItems, List.nil_append, skipGap_gap hindent]
      rfl
  | cons w vs ih =>
      have hv := hread v List.mem_cons_self depth fuel _ (by omega)
        (ends_items indent depth (w :: vs) hclose)
      have hpos := length_writeAt_pos (hvs v List.mem_cons_self) indent depth
      simp only [writeItems, List.length_append, List.append_assoc] at hfuel hv ⊢
      obtain ⟨later, hcomma, hblanks⟩ := exists_comma hindent depth (writeAt indent depth w
        ++ (writeItems indent depth vs ++ (gap indent outer ++ .char ']' :: rest)))
      obtain ⟨fuel, rfl⟩ := Nat.exists_eq_add_one_of_ne_zero (n := fuel) (by omega)
      refine readItems_more hv hcomma ?_
      rw [hblanks, skipGap_writeAt (hvs w (List.mem_cons_of_mem v List.mem_cons_self))]
      exact ih (fun u hu => hvs u (List.mem_cons_of_mem v hu))
        (fun u hu => hread u (List.mem_cons_of_mem v hu)) fuel (by omega)

/-- Members whose values are read back are read back up to the end of their object. -/
theorem readFields_written {k : Points} {v : Json} {fs : Fields}
    (hfs : ∀ f ∈ (k, v) :: fs, f.2.Exact limits)
    (hread : ∀ f ∈ (k, v) :: fs, ReadsBack limits indent f.2) (outer depth fuel : Nat)
    (rest : Points)
    (hfuel : 2 * ((writeAt indent depth v).length + (writeFields indent depth fs).length) ≤
      fuel + 1) :
    readFields limits (fuel + 2) (writeString k ++ (colon ++ (writeAt indent depth v
      ++ (writeFields indent depth fs ++ (gap indent outer ++ .char '\x7d' :: rest))))) =
      .ok ((k, v) :: fs, rest) := by
  have hclose : Ends (gap indent outer ++ .char '\x7d' :: rest) :=
    ends_gap indent outer fun p hp => Or.inr (Or.inr (Or.inl (Option.some.inj hp).symm))
  induction fs generalizing k v fuel with
  | nil =>
      have hexact : v.Exact limits := hfs (k, v) List.mem_cons_self
      have hback : ReadsBack limits indent v := hread (k, v) List.mem_cons_self
      have hv := hback depth fuel _ (by omega) hclose
      rw [← skipGap_writeAt hexact] at hv
      refine readFields_last hv ?_
      rw [skipGap_gap hindent]
      rfl
  | cons f fs ih =>
      obtain ⟨l, w⟩ := f
      have hexact : v.Exact limits := hfs (k, v) List.mem_cons_self
      have hback : ReadsBack limits indent v := hread (k, v) List.mem_cons_self
      have hv := hback depth fuel _ (by omega) (ends_fields indent depth ((l, w) :: fs) hclose)
      rw [← skipGap_writeAt hexact] at hv
      have hpos := length_writeAt_pos hexact indent depth
      simp only [writeFields, List.length_append, List.append_assoc] at hfuel hv ⊢
      obtain ⟨later, hcomma, hblanks⟩ := exists_comma hindent depth (writeString l ++ (colon
        ++ (writeAt indent depth w ++ (writeFields indent depth fs
          ++ (gap indent outer ++ .char '\x7d' :: rest)))))
      obtain ⟨fuel, rfl⟩ := Nat.exists_eq_add_one_of_ne_zero (n := fuel) (by omega)
      refine readFields_more hv hcomma ?_
      rw [hblanks, writeString_append, skipGap_char rfl, ← writeString_append]
      exact ih (fun u hu => hfs u (List.mem_cons_of_mem _ hu))
        (fun u hu => hread u (List.mem_cons_of_mem _ hu)) fuel (by omega)

end

/-! ## All values -/

section

variable {limits inside : JsonLimits} {fuel : Nat} {s rest : Points}

theorem readValue_scalar {c : Char} (hstring : c ≠ '"') (hlist : c ≠ '[')
    (hobject : c ≠ '\x7b') :
    readValue limits (fuel + 1) (.char c :: s) = readScalar limits (.char c :: s) := by
  rw [readValue.eq_def]
  simp only
  split
  · next heq => exact absurd (Point.char.inj (List.cons.inj heq).1) hstring
  · next heq => exact absurd (Point.char.inj (List.cons.inj heq).1) hlist
  · next heq => exact absurd (Point.char.inj (List.cons.inj heq).1) hobject
  · rfl

theorem readValue_arr {vs : List Json} (hinside : limits.inside? = some inside)
    (hstart : ∀ t, skipGap s ≠ .char ']' :: t)
    (hitems : readItems inside fuel (skipGap s) = .ok (vs, rest)) :
    readValue limits (fuel + 1) (.char '[' :: s) = .ok (.arr vs, rest) := by
  -- `hstart` rules out the empty list
  rw [readValue.eq_def]
  simp only [hinside, hitems]
  rfl

theorem readValue_obj {fs : Fields} (hinside : limits.inside? = some inside)
    (hstart : ∀ t, skipGap s ≠ .char '\x7d' :: t)
    (hfields : readFields inside fuel (skipGap s) = .ok (fs, rest)) :
    readValue limits (fuel + 1) (.char '\x7b' :: s) =
      .ok (.obj (Assoc.putAll [] fs), rest) := by
  -- `hstart` rules out the empty object
  rw [readValue.eq_def]
  simp only [hinside, hfields]
  rfl

theorem readsBack_int {n : Int} (hn : limits.Allows n) (indent : Option Text) :
    ReadsBack limits indent (.int n) := by
  intro depth fuel rest _ hrest
  have hread := readScalar_ofInt hn hrest
  obtain ⟨c, t, ht, hne⟩ := exists_ofInt_cons n
  rw [ht] at hread
  rw [writeAt, ht]
  refine (readValue_scalar ?_ ?_ ?_).trans hread
  · exact hne '"' rfl (by decide)
  · exact hne '[' rfl (by decide)
  · exact hne '\x7b' rfl (by decide)

theorem readsBack_str (s : Points) (indent : Option Text) :
    ReadsBack limits indent (.str s) := by
  intro depth fuel rest _ _
  have hstring := readString_written s rest
  simp only [writeAt, writeString, List.append_assoc, List.cons_append, List.nil_append,
    readValue, hstring]
  rfl

variable {indent : Option Text} (hindent : Blank indent)
  (hinside : limits.inside? = some inside)
include hindent hinside

theorem readsBack_arr {vs : List Json} (hitems : ∀ v ∈ vs, v.Exact inside)
    (hread : ∀ v ∈ vs, ReadsBack inside indent v) : ReadsBack limits indent (.arr vs) := by
  intro depth fuel rest hfuel _
  cases vs with
  | nil =>
      rw [writeAt, readValue.eq_def]
      simp only [hinside]
      rfl
  | cons v vs =>
      simp only [writeAt, List.length_append, List.append_assoc, List.cons_append,
        List.nil_append, List.length_cons, List.length_nil] at hfuel ⊢
      obtain ⟨fuel, rfl⟩ := Nat.exists_eq_add_of_le' (show 2 ≤ fuel by omega)
      have hback :=
        readItems_written hindent hitems hread depth (depth + 1) fuel rest (by omega)
      have hv := hitems v List.mem_cons_self
      refine readValue_arr hinside ?_ ?_
      · obtain ⟨c, t, hstart, -, hne⟩ := exists_start hv indent (depth + 1)
        rw [skipGap_gap hindent, skipGap_writeAt hv, hstart]
        exact fun _ heq => hne (Point.char.inj (List.cons.inj heq).1)
      · rw [skipGap_gap hindent, skipGap_writeAt hv]
        exact hback

theorem readsBack_obj {fs : Fields} (hkeys : (fs.map Prod.fst).Nodup)
    (hfields : ∀ f ∈ fs, f.2.Exact inside) (hread : ∀ f ∈ fs, ReadsBack inside indent f.2) :
    ReadsBack limits indent (.obj fs) := by
  intro depth fuel rest hfuel _
  cases fs with
  | nil =>
      rw [writeAt, readValue.eq_def]
      simp only [hinside]
      rfl
  | cons f fs =>
      obtain ⟨k, v⟩ := f
      simp only [writeAt, List.length_append, List.append_assoc, List.cons_append,
        List.nil_append, List.length_cons, List.length_nil] at hfuel ⊢
      obtain ⟨fuel, rfl⟩ := Nat.exists_eq_add_of_le' (show 2 ≤ fuel by omega)
      have hback :=
        readFields_written hindent hfields hread depth (depth + 1) fuel rest (by omega)
      have hput : Assoc.putAll [] ((k, v) :: fs) = (k, v) :: fs := Assoc.putAll_of_nodup hkeys
      rw [writeString_append] at hback ⊢
      -- members whose keys differ are all kept
      rw [← hput]
      refine readValue_obj hinside ?_ ?_
      · rw [skipGap_gap hindent, skipGap_char rfl]
        exact fun _ heq => absurd (Point.char.inj (List.cons.inj heq).1) (by decide)
      · rw [skipGap_gap hindent, skipGap_char rfl]
        exact hback

end

/-- What an exact value is written as is read back. -/
theorem Exact.readsBack {limits : JsonLimits} {v : Json} (hv : v.Exact limits)
    {indent : Option Text} (hindent : Blank indent) : ReadsBack limits indent v := by
  induction hv with
  | null limits => exact fun _ _ _ _ _ => rfl
  | bool limits b =>
      intro depth fuel rest _ _
      cases b <;> rfl
  | int hn => exact readsBack_int hn indent
  | str limits s => exact readsBack_str s indent
  | arr hinside hitems ih => exact readsBack_arr hindent hinside hitems ih
  | obj hinside hkeys hfields ih => exact readsBack_obj hindent hinside hkeys hfields ih

/-- A value is read back from what it is written as, by every reader whose limits it keeps. -/
theorem readWithin_write {limits : JsonLimits} {v : Json} (hv : v.Exact limits)
    {indent : Option Text} (hindent : Blank indent) :
    readWithin limits (write indent v) = .ok v := by
  have hread := hv.readsBack hindent 0 (2 * (write indent v).length + 1) [] (by
    rw [write]
    omega) ends_nil
  rw [List.append_nil] at hread
  have hskip := skipGap_writeAt hv indent 0 []
  rw [List.append_nil] at hskip
  simp only [readWithin, write, hskip] at hread ⊢
  rw [hread]
  rfl

theorem read_write {v : Json} (hv : v.Exact {}) {indent : Option Text}
    (hindent : Blank indent) : read (write indent v) = some v := by
  rw [read, readWithin_write hv hindent]

end SymbolGraph.Json
