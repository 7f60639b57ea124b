import Mathlib.Data.List.Nodup
import SymbolGraph.Proofs.Outline.Method
set_option autoImplicit false

/-!
# What decorates a header

The readers take the decorators of a header from the run of decorators and blank lines that they
meet last before it. Where that run starts can be told without the readers: behind the last line
that is neither blank nor a decorator, or behind the last block that they have passed over,
whichever is later (`barrier`). A block can reach further than its last line of code, over blank
lines and over decorators that are indented deeper than its header; those decorate nothing.

The proof follows the places where the readers stand between two steps (`Reached`). Behind each
of them all blocks are closed, and in front of it lies a line that is no decorator, or a block
that has been passed over.
-/

namespace SymbolGraph

/-! ## Between the barrier and the header -/

/-- The line is neither blank, nor a comment, nor a decorator. -/
def Line.isPlain (l : Line) : Bool := !l.isBlank && !l.isDecorator

/-- The last line in front of line `n` that stops the search for decorators: of `start`, the
plain lines and the given ends, the last one before `n`. -/
def barrier (ls : List Line) (start : Int) (ends : List Int) (n : Int) : Int :=
  (((ls.filter Line.isPlain).map fun l => (l.number : Int)) ++ ends |>.filter (· < n)).foldl max
    start

/-- The texts of the decorators behind line `p` and before line `n`. -/
def decoratorsBetween (ls : List Line) (p n : Int) : List Text :=
  decoratorTexts (ls.filter fun l => p < l.number && l.number < n)

theorem foldl_max_le_iff (start : Int) (ns : List Int) (bound : Int) :
    ns.foldl max start ≤ bound ↔ start ≤ bound ∧ ∀ n ∈ ns, n ≤ bound := by
  induction ns generalizing start with
  | nil => simp
  | cons n ns ih =>
      rw [List.foldl_cons, ih, Int.max_le, List.forall_mem_cons]
      exact and_assoc

theorem barrier_le_iff {ls : List Line} {start : Int} {ends : List Int} {n bound : Int} :
    barrier ls start ends n ≤ bound ↔ start ≤ bound ∧
      (∀ l ∈ ls, l.isPlain = true → (l.number : Int) < n → (l.number : Int) ≤ bound) ∧
      ∀ e ∈ ends, e < n → e ≤ bound := by
  rw [barrier, foldl_max_le_iff]
  refine and_congr_right fun _ => ?_
  simp only [List.mem_filter, List.mem_append, List.mem_map, decide_eq_true_eq]
  constructor
  · intro hall
    exact ⟨fun l hl hplain hlt => hall l.number ⟨Or.inl ⟨l, ⟨hl, hplain⟩, rfl⟩, hlt⟩,
      fun e he hlt => hall e ⟨Or.inr he, hlt⟩⟩
  · rintro ⟨hplain, hends⟩ k ⟨⟨l, hl, rfl⟩ | he, hlt⟩
    · exact hplain l hl.1 hl.2 hlt
    · exact hends k he hlt

/-- Nothing stands between two barriers and their headers at once, if the headers are plain
lines. -/
theorem eq_of_between {ls : List Line} {n n' k start start' : Int} {ends ends' : List Int}
    (hn : ∃ l ∈ ls, l.isPlain = true ∧ (l.number : Int) = n)
    (hn' : ∃ l ∈ ls, l.isPlain = true ∧ (l.number : Int) = n')
    (hk : barrier ls start ends n < k ∧ k < n) (hk' : barrier ls start' ends' n' < k ∧ k < n') :
    n = n' := by
  obtain ⟨l, hl, hplain, rfl⟩ := hn
  obtain ⟨l', hl', hplain', rfl⟩ := hn'
  have hle :=
    (barrier_le_iff.mp (Int.le_refl (barrier ls start ends l.number))).2.1 l' hl' hplain'
  have hle' :=
    (barrier_le_iff.mp (Int.le_refl (barrier ls start' ends' l'.number))).2.1 l hl hplain
  omega

/-- The lines with numbers in a range are those that stand there. -/
theorem filter_number_scan {t : Text} {before run rest : List Line}
    (hlines : Line.scan t = before ++ (run ++ rest)) :
    ((Line.scan t).filter fun l => (before.length : Int) < l.number &&
      (l.number : Int) < before.length + run.length + 1) = run := by
  have hnumber : ∀ h l, (before ++ (run ++ rest))[h]? = some l →
      l.number = h + 1 := fun h l hl =>
    number_of_getElem?_scan (hlines ▸ hl)
  rw [hlines, List.filter_append, List.filter_append, List.filter_eq_nil_iff.mpr,
    List.filter_eq_self.mpr, List.filter_eq_nil_iff.mpr, List.nil_append, List.append_nil]
  · intro l hl
    obtain ⟨h, hl⟩ := List.mem_iff_getElem?.mp hl
    have hplace := hnumber (before.length + (run.length + h)) l (by
      rw [List.getElem?_append_right (by omega), Nat.add_sub_cancel_left,
        List.getElem?_append_right (by omega), Nat.add_sub_cancel_left, hl])
    simp only [Bool.and_eq_true, decide_eq_true_eq]
    omega
  · intro l hl
    obtain ⟨h, hl⟩ := List.mem_iff_getElem?.mp hl
    have hlt := (List.getElem?_eq_some_iff.mp hl).1
    have hplace := hnumber (before.length + h) l (by
      rw [List.getElem?_append_right (by omega), Nat.add_sub_cancel_left,
        List.getElem?_append_left hlt, hl])
    simp only [Bool.and_eq_true, decide_eq_true_eq]
    omega
  · intro l hl
    obtain ⟨h, hl⟩ := List.mem_iff_getElem?.mp hl
    have hlt := (List.getElem?_eq_some_iff.mp hl).1
    have hplace := hnumber h l (by rw [List.getElem?_append_left hlt, hl])
    simp only [Bool.and_eq_true, decide_eq_true_eq]
    omega

/-! ## Where the readers stand -/

/-- The readers of declarations and of methods come to stand behind the first lines and in front
of the others: each step takes a run of decorators and blank lines, the plain line behind it,
and what is passed over with that line. -/
inductive Reached : List Line → List Line → Prop
  | start (ls : List Line) : Reached [] ls
  | step {before run after : List Line} {l : Line} :
      Reached before (run ++ l :: after) → (∀ r ∈ run, r.isPlain = false) → l.isPlain = true →
      Reached (before ++ (run ++ l :: after.take (l.taken after))) (after.drop (l.taken after))

/-- A header is a plain line. -/
theorem Line.isPlain_of_isHeader {l : Line} (hheader : l.form.isHeader = true) :
    l.isPlain = true := by
  unfold Line.isPlain Line.isBlank Line.isDecorator
  cases hform : l.form <;> simp_all [LineForm.isHeader]

/-- The lines up to the first one that is no part of the run. -/
theorem decoratorRun_split {ls after : List Line} {l : Line}
    (hdrop : ls.drop (decoratorRun ls).length = l :: after) :
    ls = decoratorRun ls ++ l :: after ∧ (∀ r ∈ decoratorRun ls, r.isPlain = false) ∧
      l.isPlain = true := by
  have hlines : ls = decoratorRun ls ++ l :: after := by
    rw [← hdrop]
    exact (List.prefix_iff_eq_append.mp (List.takeWhile_prefix _)).symm
  have hrest : ls.dropWhile (fun l => l.isDecorator || l.isBlank) = l :: after := by
    have hparts : decoratorRun ls ++ ls.dropWhile (fun l => l.isDecorator || l.isBlank) = ls :=
      List.takeWhile_append_dropWhile
    exact List.append_cancel_left (hparts.trans hlines)
  have hfirst := List.head_dropWhile_not (fun l : Line => l.isDecorator || l.isBlank)
    (hrest ▸ List.cons_ne_nil l after)
  simp only [hrest, List.head_cons] at hfirst
  refine ⟨hlines, fun r hr => ?_, ?_⟩
  · have hrun := List.all_eq_true.mp List.all_takeWhile r hr
    rw [Line.isPlain, ← Bool.not_or, Bool.or_comm, hrun]
    rfl
  · rw [Line.isPlain, ← Bool.not_or, Bool.or_comm, hfirst]
    rfl

/-- The same for a run that is looked for among the first lines only. -/
theorem decoratorRun_take_split {size : Nat} {ls after : List Line} {l : Line}
    (hdrop : ls.drop (decoratorRun (ls.take size)).length = l :: after)
    (hsize : (decoratorRun (ls.take size)).length < size) :
    ls = decoratorRun (ls.take size) ++ l :: after ∧
      (∀ r ∈ decoratorRun (ls.take size), r.isPlain = false) ∧ l.isPlain = true := by
  have htake : (ls.take size).drop (decoratorRun (ls.take size)).length =
      l :: after.take (size - (decoratorRun (ls.take size)).length - 1) := by
    rw [List.drop_take, hdrop, List.take_cons (Nat.sub_pos_of_lt hsize)]
  obtain ⟨-, hrun, hplain⟩ := decoratorRun_split htake
  refine ⟨?_, hrun, hplain⟩
  rw [← hdrop]
  exact (List.prefix_iff_eq_append.mp
    ((List.takeWhile_prefix _).trans (List.take_prefix size ls))).symm

/-- Lines that close their blocks, one part after the other, close them together. -/
theorem ClosedBefore.append {before between ls : List Line}
    (hbefore : ClosedBefore before (between ++ ls)) (hbetween : ClosedBefore between ls) :
    ClosedBefore (before ++ between) ls := by
  intro g l hl hheader
  rw [List.append_assoc, List.length_append]
  by_cases hg : g < before.length
  · rw [List.getElem?_append_left hg] at hl
    have hend := hbefore g l hl hheader
    omega
  · obtain ⟨k, rfl⟩ := Nat.exists_eq_add_of_le (Nat.le_of_not_lt hg)
    rw [List.getElem?_append_right (by omega), Nat.add_sub_cancel_left] at hl
    rw [blockEnd_append]
    have hend := hbetween k l hl hheader
    omega

/-- A run has no header, so that it closes all its blocks. -/
theorem closedBefore_run {run : List Line} (hrun : ∀ r ∈ run, r.isPlain = false)
    (ls : List Line) : ClosedBefore run ls := by
  intro g l hl hheader
  have hplain := Line.isPlain_of_isHeader hheader
  rw [hrun l (List.mem_of_getElem? hl)] at hplain
  exact absurd hplain Bool.false_ne_true

theorem Reached.closed {before rest : List Line} (hreached : Reached before rest) :
    ClosedBefore before rest := by
  induction hreached with
  | start ls => exact fun g l hl => absurd hl (by simp)
  | @step before run after l _ hrun _ ih =>
      refine ClosedBefore.append ?_
        (ClosedBefore.append (closedBefore_run hrun _) (closedBefore_taken l after))
      rw [List.append_assoc, cons_take_append_drop]
      exact ih

/-- The readers stand at the start, or behind a plain line outside all blocks and what is passed
over with it. -/
theorem Reached.stop {before rest : List Line} (hreached : Reached before rest) :
    before = [] ∨ ∃ g l, (before ++ rest)[g]? = some l ∧ l.isPlain = true ∧
      OutsideBlocks (before ++ rest) g ∧
      g + l.taken ((before ++ rest).drop (g + 1)) + 1 = before.length := by
  cases hreached with
  | start ls => exact Or.inl rfl
  | @step before run after l hreached hrun hplain =>
      have hlines : before ++ (run ++ l :: after.take (l.taken after))
          ++ after.drop (l.taken after) =
          before ++ run ++ l :: after := by
        rw [List.append_assoc, List.append_assoc, cons_take_append_drop, List.append_assoc]
      have hclosed : ClosedBefore (before ++ run) (l :: after) :=
        hreached.closed.append (closedBefore_run hrun _)
      refine Or.inr ⟨(before ++ run).length, l, ?_, hplain, ?_, ?_⟩
      · rw [hlines, List.getElem?_append_right (Nat.le_refl _), Nat.sub_self]
        rfl
      · rw [hlines]
        exact (outsideBlocks_append hclosed 0).mpr (outsideBlocks_zero _)
      · have hafter : (before ++ run ++ l :: after).drop ((before ++ run).length + 1) =
            after := by
          rw [List.drop_length_add_append]
          rfl
        rw [hlines, hafter]
        simp only [List.length_append, List.length_cons,
          List.length_take_of_le (l.taken_le after)]
        omega

/-! ## What the readers attach -/

/-- Each declaration has the decorators of the run behind which its header stands. -/
theorem exists_run_of_mem_declarations {options : OutlineOptions} {before rest : List Line}
    {d : Declaration} (hreached : Reached before rest) (hd : d ∈ declarations options rest) :
    ∃ before' run l after, before' ++ (run ++ l :: after) = before ++ rest ∧
      Reached before' (run ++ l :: after) ∧ (∀ r ∈ run, r.isPlain = false) ∧
      l.declaration? options (decoratorTexts run) after = some d := by
  induction rest using declarations_induction generalizing before with
  | stop ls hdrop =>
      rw [declarations_of_drop_eq_nil hdrop] at hd
      exact absurd hd List.not_mem_nil
  | step ls l after hdrop ih =>
      obtain ⟨hlines, hrun, hplain⟩ := decoratorRun_split hdrop
      rw [declarations_of_drop_eq_cons hdrop, List.mem_append, Option.mem_toList] at hd
      generalize decoratorRun ls = run at hlines hrun hd
      subst hlines
      rcases hd with hfirst | hlater
      · exact ⟨before, run, l, after, rfl, hreached, hrun, hfirst⟩
      · obtain ⟨before', run', l', after', hsame, hparts⟩ :=
          ih (hreached.step hrun hplain) hlater
        refine ⟨before', run', l', after', hsame.trans ?_, hparts⟩
        rw [List.append_assoc, List.append_assoc, cons_take_append_drop]

/-- Each method has the decorators of the run behind which its header stands, among the first
lines. -/
theorem exists_run_of_mem_methods {options : OutlineOptions} {size : Nat}
    {before rest : List Line} {m : FunctionDecl} (hreached : Reached before rest)
    (hm : m ∈ methods options size rest) :
    ∃ before' run l after, before' ++ (run ++ l :: after) = before ++ rest ∧
      before'.length + run.length < before.length + size ∧
      Reached before' (run ++ l :: after) ∧ (∀ r ∈ run, r.isPlain = false) ∧
      l.method? options (decoratorTexts run) after = some m := by
  induction size, rest using methods_induction generalizing before with
  | stop size ls hstop =>
      rw [methods_of_stop hstop] at hm
      exact absurd hm List.not_mem_nil
  | step size ls l after hdrop hsize ih =>
      obtain ⟨hlines, hrun, hplain⟩ := decoratorRun_take_split hdrop hsize
      rw [methods_of_drop_eq_cons hdrop hsize, List.mem_append, Option.mem_toList] at hm
      generalize decoratorRun (ls.take size) = run at hlines hrun hm hsize ih
      subst hlines
      rcases hm with hfirst | hlater
      · exact ⟨before, run, l, after, rfl, by omega, hreached, hrun, hfirst⟩
      · have hfits : run.length + 1 + l.taken after < size := by
          by_contra hnot
          rw [Nat.sub_eq_zero_of_le (by omega), methods_of_stop (Or.inr (Nat.zero_le _))]
            at hlater
          exact absurd hlater List.not_mem_nil
        obtain ⟨before', run', l', after', hsame, hwithin, hparts⟩ :=
          ih (hreached.step hrun hplain) hlater
        refine ⟨before', run', l', after', hsame.trans ?_, ?_, hparts⟩
        · rw [List.append_assoc, List.append_assoc, cons_take_append_drop]
        · simp only [List.length_append, List.length_cons,
            List.length_take_of_le (l.taken_le after)]
            at hwithin
          omega

/-! ## Where the run starts -/

section

variable {t : Text} {front before run after : List Line} {l : Line} {size : Nat}
  {ends : List Int} (hlines : Line.scan t = front ++ (before ++ (run ++ l :: after)))
  (hreached : Reached before (run ++ l :: after)) (hrun : ∀ r ∈ run, r.isPlain = false)
include hlines hrun

/-- Plain lines above a header stand before its run. -/
theorem lt_of_isPlain {h : Nat} {r : Line} (hr : (Line.scan t)[h]? = some r)
    (hplain : r.isPlain = true) (hlt : h < front.length + before.length + run.length) :
    h < front.length + before.length := by
  by_contra hge
  obtain ⟨k, rfl⟩ := Nat.exists_eq_add_of_le (Nat.le_of_not_lt hge)
  rw [hlines, ← List.append_assoc, List.getElem?_append_right (by simp),
    List.length_append, Nat.add_sub_cancel_left, List.getElem?_append_left (by omega)] at hr
  exact absurd (hrun r (List.mem_of_getElem? hr)) (by simp [hplain])

variable
  (hends : ∀ e, e ∈ ends ↔
    ∃ s ∈ outerSpansWithin size ((Line.scan t).drop front.length), s.last = e)
include hreached hends

/-- Nothing in the run before a header stops the search. -/
theorem barrier_le : barrier (Line.scan t) front.length ends
    (front.length + before.length + run.length + 1) ≤ front.length + before.length := by
  refine barrier_le_iff.mpr ⟨by omega, fun r hr hplain hlt => ?_, fun e he hlt => ?_⟩
  · obtain ⟨h, hr⟩ := List.mem_iff_getElem?.mp hr
    have hnumber := number_of_getElem?_scan hr
    have hplace := lt_of_isPlain hlines hrun hr hplain (by omega)
    omega
  · obtain ⟨s, hs, rfl⟩ := (hends e).mp he
    obtain ⟨h, r, heading, hr, hstart, -, -, hheading, rfl⟩ := mem_outerSpansWithin_scan.mp hs
    have hheader : r.form.isHeader = true := by simp [isHeader_iff, hheading]
    have hle := le_blockEnd (Line.scan t) h r.indent
    simp only at hlt ⊢
    have hplace := lt_of_isPlain hlines hrun hr (Line.isPlain_of_isHeader hheader) (by omega)
    obtain ⟨k, rfl⟩ := Nat.exists_eq_add_of_le hstart
    rw [hlines, List.getElem?_append_right (by omega), Nat.add_sub_cancel_left,
      List.getElem?_append_left (by omega)] at hr
    have hclosed := hreached.closed k r hr hheader
    rw [hlines, blockEnd_append]
    omega

variable (hsize : before.length + run.length < size)
include hsize

omit hrun in
/-- What the readers passed last before the run stops the search: a plain line, or a block that
ends there. -/
theorem le_barrier : front.length + before.length ≤ barrier (Line.scan t) front.length ends
    (front.length + before.length + run.length + 1) := by
  obtain ⟨hfront, hplain, hblocks⟩ :=
    barrier_le_iff.mp (Int.le_refl (barrier (Line.scan t) front.length
    ends (front.length + before.length + run.length + 1)))
  rcases hreached.stop with rfl | ⟨g, r, hr, hrplain, hout, hlength⟩
  · simpa using hfront
  · have hplace : (Line.scan t)[front.length + g]? = some r := by
      rw [hlines, List.getElem?_append_right (by omega), Nat.add_sub_cancel_left, hr]
    by_cases hheader : r.form.isHeader = true
    · rw [Line.taken, if_pos hheader] at hlength
      have hend : blockEnd (Line.scan t) (front.length + g) r.indent + 1 =
          front.length + before.length := by
        rw [hlines, blockEnd_append, blockEnd]
        omega
      obtain ⟨heading, hheading⟩ := Option.isSome_iff_exists.mp ((isHeader_iff r).mp hheader)
      have houtside : OutsideBlocksFrom (Line.scan t) front.length (front.length + g) := by
        rw [← outsideBlocks_drop, hlines, List.drop_left]
        exact hout
      have hle := hblocks _ ((hends _).mpr ⟨_, mem_outerSpansWithin_scan.mpr ⟨front.length + g,
        r, heading, hplace, by omega, by omega, houtside, hheading, rfl⟩, rfl⟩)
      simp only at hle
      omega
    · rw [Line.taken, if_neg hheader] at hlength
      have hnumber := number_of_getElem?_scan hplace
      have hle := hplain r (List.mem_of_getElem? hplace) hrplain
      omega

/-- The run before a header holds what stands between its barrier and the header. -/
theorem decoratorTexts_run : decoratorTexts run = decoratorsBetween (Line.scan t)
    (barrier (Line.scan t) front.length ends l.number) l.number := by
  have hplace : (Line.scan t)[front.length + before.length + run.length]? = some l := by
    rw [hlines, Nat.add_assoc, List.getElem?_append_right (by omega), Nat.add_sub_cancel_left,
      List.getElem?_append_right (by omega), Nat.add_sub_cancel_left,
      List.getElem?_append_right (Nat.le_refl _), Nat.sub_self]
    rfl
  have hnumber : (l.number : Int) = front.length + before.length + run.length + 1 := by
    rw [number_of_getElem?_scan hplace]
    simp
  have hparts : Line.scan t = (front ++ before) ++ (run ++ l :: after) :=
    hlines.trans (List.append_assoc _ _ _).symm
  have hfilter := filter_number_scan hparts
  rw [List.length_append, Int.natCast_add] at hfilter
  have hbarrier := Int.le_antisymm (barrier_le hlines hreached hrun hends)
    (le_barrier hlines hreached hends hsize)
  rw [hnumber, hbarrier, decoratorsBetween, hfilter]

end

/-! ## Declarations and methods -/

/-- The decorators of a declaration. -/
def Declaration.decorators : Declaration → List Text
  | function f => f.decorators
  | .class c => c.decorators

theorem decorators_of_declaration? {options : OutlineOptions}
    {decorators : List Text} {l : Line} {after : List Line} {d : Declaration}
    (hdeclares : l.declaration? options decorators after = some d) :
    d.decorators = decorators ∧ d.span.first = l.number := by
  unfold Line.declaration? at hdeclares
  split at hdeclares
  · cases hdeclares
    exact ⟨rfl, rfl⟩
  · cases hdeclares
    exact ⟨rfl, rfl⟩
  · cases hdeclares

theorem decorators_of_method? {options : OutlineOptions} {decorators : List Text} {l : Line}
    {after : List Line} {m : FunctionDecl}
    (hdeclares : l.method? options decorators after = some m) :
    m.decorators = decorators ∧ m.firstLine = l.number := by
  unfold Line.method? at hdeclares
  split at hdeclares
  · cases hdeclares
    exact ⟨rfl, rfl⟩
  · cases hdeclares

/-- Top-level declarations take what lies behind the last plain line and the last
declaration. -/
theorem decorators_of_mem_declarations {options : OutlineOptions} {t : Text} {ends : List Int}
    {d : Declaration} (hends : ∀ e, e ∈ ends ↔ ∃ s ∈ outerSpans (Line.scan t), s.last = e)
    (hd : d ∈ declarations options (Line.scan t)) :
    d.decorators = decoratorsBetween (Line.scan t)
      (barrier (Line.scan t) 0 ends d.span.first) d.span.first := by
  obtain ⟨before, run, l, after, hlines, hreached, hrun, hdeclares⟩ :=
    exists_run_of_mem_declarations (.start _) hd
  obtain ⟨hdecorators, hfirst⟩ := decorators_of_declaration? hdeclares
  rw [hdecorators, hfirst]
  have hwhole : Line.scan t = [] ++ (before ++ (run ++ l :: after)) := hlines.symm
  have hsize : before.length + run.length < (Line.scan t).length := by
    rw [hwhole]
    simp only [List.nil_append, List.length_append, List.length_cons]
    omega
  have hspans : ∀ e, e ∈ ends ↔ ∃ s ∈ outerSpansWithin (Line.scan t).length
      ((Line.scan t).drop ([] : List Line).length), s.last = e := by
    rw [List.length_nil, List.drop_zero, ← outerSpans_eq]
    exact hends
  have htexts := decoratorTexts_run hwhole hreached hrun hspans hsize
  rw [List.length_nil, Int.natCast_zero] at htexts
  exact htexts

/-- The last lines of the classes that start in a window, outside the blocks of earlier headers
there. -/
def nestedEnds (ls : List Line) (start last : Nat) : List Int :=
  ((outerSpansWithin (last + 1 - start) (ls.drop start)).filter (·.kind = .class_)).map
    Span.last

/-- Every outer header of a window is a function or a class. -/
theorem mem_lasts_iff {t : Text} {start size : Nat} {e : Int} :
    e ∈
        ((outerSpansWithin size ((Line.scan t).drop start)).filter (·.kind = .function)).map
            Span.last
          ++ ((outerSpansWithin size ((Line.scan t).drop start)).filter (·.kind = .class_)).map
            Span.last ↔
      ∃ s ∈ outerSpansWithin size ((Line.scan t).drop start), s.last = e := by
  simp only [List.mem_append, List.mem_map, List.mem_filter, decide_eq_true_eq]
  constructor
  · rintro (⟨s, ⟨hs, -⟩, hlast⟩ | ⟨s, ⟨hs, -⟩, hlast⟩)
    · exact ⟨s, hs, hlast⟩
    · exact ⟨s, hs, hlast⟩
  · rintro ⟨s, hs, hlast⟩
    obtain ⟨h, l, heading, -, -, -, -, hheading, rfl⟩ := mem_outerSpansWithin_scan.mp hs
    unfold Line.heading? at hheading
    split at hheading
    · cases hheading
      exact Or.inl ⟨_, ⟨hs, rfl⟩, hlast⟩
    · cases hheading
      exact Or.inr ⟨_, ⟨hs, rfl⟩, hlast⟩
    · cases hheading

section

variable {options : OutlineOptions} {t : Text} {i : Nat} {l : Line} {name : Text}
  {bases : Option Text} {E b : Nat}

/-- The methods of a class and the classes in it are the outer headers of its window. -/
theorem mem_methodEnds_iff (hl : (Line.scan t)[i]? = some l)
    (hform : l.form = .classHeader name bases) (hE : blockEnd (Line.scan t) i l.indent = E)
    (hb : bodyStart options.docstrings (Line.scan t) i l.indent = b)
    (decorators : List Text) (e : Int) :
    e ∈ (declareClass options name bases decorators l ((Line.scan t).drop (i + 1))).methods.map
        FunctionDecl.lastLine ++ nestedEnds (Line.scan t) (min E b) E ↔
      ∃ s ∈ outerSpansWithin (E + 1 - min E b) ((Line.scan t).drop (min E b)), s.last = e := by
  have hspans := congrArg (List.map Span.last) (spans_classMethods hl hform decorators hE hb)
  rw [List.map_map] at hspans
  rw [← mem_lasts_iff, ← hspans]
  rfl

/-- Methods take what lies behind the start of the search, the last plain line and the last
block. -/
theorem decorators_of_mem_methods (hl : (Line.scan t)[i]? = some l)
    (hform : l.form = .classHeader name bases) (hE : blockEnd (Line.scan t) i l.indent = E)
    (hb : bodyStart options.docstrings (Line.scan t) i l.indent = b) {decorators : List Text}
    {c : ClassDecl}
    (hc : c = declareClass options name bases decorators l ((Line.scan t).drop (i + 1)))
    {m : FunctionDecl} (hm : m ∈ c.methods) :
    m.decorators = decoratorsBetween (Line.scan t)
      (barrier (Line.scan t) (min E b : Nat)
        (c.methods.map FunctionDecl.lastLine ++ nestedEnds (Line.scan t) (min E b) E)
        m.firstLine)
      m.firstLine := by
  have hlast : E < (Line.scan t).length :=
    hE ▸ blockEnd_lt_length (List.getElem?_eq_some_iff.mp hl).1 l.indent
  subst hc
  have hends := mem_methodEnds_iff hl hform hE hb decorators
  generalize _ ++ nestedEnds (Line.scan t) (min E b) E = ends at hends ⊢
  simp only [declareClass] at hm
  rw [blockEnd] at hE
  rw [bodyStart] at hb
  generalize (Docstring.readIf options.docstrings l.indent _ _).bodyOffset = offset at hb hm
  generalize (block (l.indent : Int) ((Line.scan t).drop (i + 1))).length = size at hE hm
  obtain ⟨before, run, l', after, hlines, hsize, hreached, hrun, hdeclares⟩ :=
    exists_run_of_mem_methods (.start _) hm
  obtain ⟨hdecorators, hfirst⟩ := decorators_of_method? hdeclares
  -- there is a method, so the block is not empty and the search starts within it
  rw [List.length_nil, Nat.zero_add] at hsize
  have hstart : i + 1 + min offset (size - 1) = min E b := by omega
  have hfront : ((Line.scan t).take (min E b)).length = min E b :=
    List.length_take_of_le (by omega)
  rw [List.nil_append, List.drop_drop, hstart] at hlines
  have hwhole : Line.scan t =
      (Line.scan t).take (min E b) ++ (before ++ (run ++ l' :: after)) := by
    rw [hlines, List.take_append_drop]
  have hwindow : before.length + run.length < E + 1 - min E b := by omega
  have hspans : ∀ e, e ∈ ends ↔ ∃ s ∈ outerSpansWithin (E + 1 - min E b)
      ((Line.scan t).drop ((Line.scan t).take (min E b)).length), s.last = e := by
    rw [hfront]
    exact hends
  rw [hdecorators, hfirst, decoratorTexts_run hwhole hreached hrun hspans hwindow, hfront]

end

/-- A file with a content has an outline if the length of snippets is an integer. If it has an
outline, each of its classes and functions has as decorators, in order, the texts of the
decorator lines between its header and the last line before it that is neither blank, nor a
comment, nor a decorator, or that ends a class or a function. For the methods of a class, with
the header of the class at place `i`, the end `E` of its block and the first place `b` behind
its docstring, the decorators stop at the start of the search, the lesser of `E` and `b`, and at
the ends of methods and of classes in the class. No line is between two headers and their
barriers at once, so that no decorator is taken twice. -/
theorem decorators_exact (options : ReadingOptions) (f : SourceFile) (content : Text)
    (hcontent : f.content = some content) :
    (options.snippetLength.integer?.isSome → ∃ o, f.outline options = .ok o) ∧
    ∀ o, f.outline options = .ok o →
      (∀ c ∈ o.classes, c.decorators = decoratorsBetween (Line.scan content)
        (barrier (Line.scan content) 0 (o.spans.map Span.last) c.firstLine) c.firstLine) ∧
      (∀ g ∈ o.functions, g.decorators = decoratorsBetween (Line.scan content)
        (barrier (Line.scan content) 0 (o.spans.map Span.last) g.firstLine) g.firstLine) ∧
      (∀ c ∈ o.classes, ∃ (i : Nat) (l : Line) (E b : Nat),
        (Line.scan content)[i]? = some l ∧ c.firstLine = i + 1 ∧
        E = blockEnd (Line.scan content) i l.indent ∧
        Position.docstring? (Line.scan content) i E l.indent options.docstrings =
          some (c.docstring, (b : Int)) ∧
        ∀ m ∈ c.methods, m.decorators = decoratorsBetween (Line.scan content)
          (barrier (Line.scan content) (min E b : Nat)
            (c.methods.map FunctionDecl.lastLine ++ nestedEnds (Line.scan content) (min E b) E)
            m.firstLine)
          m.firstLine) ∧
      (o.headings.map Heading.line).Nodup ∧
      ∀ h ∈ o.headings, ∀ h' ∈ o.headings, ∀ (k start start' : Int) (ends ends' : List Int),
        barrier (Line.scan content) start ends h.line < k ∧ k < h.line →
        barrier (Line.scan content) start' ends' h'.line < k ∧ k < h'.line → h = h' := by
  refine ⟨exists_outline (by simp [hcontent]), fun o houtline => ?_⟩
  obtain ⟨length, content', hcontent', rfl⟩ := exists_length_of_outline houtline
  obtain rfl : content' = content := Option.some.inj (hcontent'.symm.trans hcontent)
  generalize hreading : (⟨options.docstrings, length⟩ : OutlineOptions) = reading
  have hdocstrings : options.docstrings = reading.docstrings := by rw [← hreading]
  have hends : ∀ e, e ∈ (Outline.read reading f.filePath f.name content').spans.map Span.last ↔
      ∃ s ∈ outerSpans (Line.scan content'), s.last = e := by
    intro e
    rw [← spans_declarations reading, List.mem_map]
    simp only [← (spans_perm (declarations reading (Line.scan content'))).mem_iff]
    rfl
  have hlines := (regular_read reading f.filePath f.name content').headingLines
  have hplain : ∀ h ∈ (Outline.read reading f.filePath f.name content').headings,
      ∃ l ∈ Line.scan content', l.isPlain = true ∧ (l.number : Int) = h.line := by
    obtain ⟨found, hperm, hsublist⟩ := headings_read reading f.filePath f.name content'
    intro h hh
    obtain ⟨l, hl, hheading⟩ := List.mem_filterMap.mp (hsublist.subset (hperm.mem_iff.mp hh))
    have hheader : l.form.isHeader = true := by simp [isHeader_iff, hheading]
    exact ⟨l, hl, Line.isPlain_of_isHeader hheader, (line_of_heading? hheading).symm⟩
  refine ⟨fun c hc => ?_, fun g hg => ?_, fun c hc => ?_, ?_, ?_⟩
  · exact decorators_of_mem_declarations hends (class_mem_declarations hc)
  · exact decorators_of_mem_declarations hends (function_mem_declarations hg)
  · obtain ⟨i, l, name, bases, decorators, hl, hform, rfl⟩ :=
      exists_place_of_class (class_mem_declarations hc)
    rw [hdocstrings]
    refine ⟨i, l, _, _, hl, ?_, rfl, docstring?_block reading.docstrings _ i l.indent,
      fun m hm => ?_⟩
    · simp [declareClass, number_of_getElem?_scan hl]
    · exact decorators_of_mem_methods hl hform rfl rfl rfl hm
  · exact hlines
  · intro h hh h' hh' k start start' ends ends' hk hk'
    exact List.inj_on_of_nodup_map hlines hh hh'
      (eq_of_between (hplain h hh) (hplain h' hh') hk hk')

/-- A file with decorators at the end of a block, around a comment, and in front of a
statement. -/
def decoratedFile : SourceFile :=
  { name := "a.py".toList
    content := some ("class A:\n  @w\n@a\n# b\n\n@c(1)\nclass B:\n  @d\n  x = 1\n  @e\n" ++
      "  def f(self): pass\n  @g\ny = 2").toList }

/-- The decorator at the end of the first class does not decorate the second class, and those
around the comment do. -/
theorem decorators_exact_decoratedFile :
    ∃ o, decoratedFile.outline ⟨true, .number 40⟩ = .ok o ∧ ∃ c ∈ o.classes,
      c.firstLine = 7 ∧ c.decorators = ["@a".toList, "@c(1)".toList] := by
  obtain ⟨hread, hexact⟩ := decorators_exact ⟨true, .number 40⟩ decoratedFile _ rfl
  obtain ⟨o, ho⟩ := hread rfl
  have hlines : (decoratedFile.outline ⟨true, .number 40⟩).toOption.map
      (fun o => (o.classes.map ClassDecl.firstLine, o.spans.map Span.last)) =
        some ([1, 7], [2, 12]) := by
    decide +kernel
  rw [ho] at hlines
  obtain ⟨hfirsts, hlasts⟩ := Prod.mk.inj (Option.some.inj hlines)
  have hsecond : 7 ∈ o.classes.map ClassDecl.firstLine := by simp [hfirsts]
  obtain ⟨c, hc, hfirst⟩ := List.mem_map.mp hsecond
  refine ⟨o, ho, c, hc, hfirst, ?_⟩
  rw [(hexact o ho).1 c hc, hlasts, hfirst]
  decide +kernel

end SymbolGraph
