import SymbolGraph.Proofs.Line.Block
import SymbolGraph.Proofs.Outline.Heading
import SymbolGraph.Proofs.Outline.Source
import SymbolGraph.Proofs.Outline.Step
set_option autoImplicit false

/-!
# Top-level declarations are the headers outside all blocks

The reader of declarations goes over a file once, from block to block. Which headers it reports
can be told without it: those that lie in the block of no earlier header, whatever headers it
has passed over (`spans_declarations`). The argument needs no invariant of the pass. Behind a
header and its block, or behind a line that is no header, the headers outside all blocks are
those of the remaining lines alone, since no block reaches over the end of a block that it
begins in. The same is shown of a window of a file (`outerSpansWithin`), with the headers in
front of the window left out of account.
-/

namespace SymbolGraph

/-- The lines that a class or a function takes. -/
structure Span where
  kind : NodeKind
  first : Int
  last : Int
  excerpt : Option Text
  deriving DecidableEq, Repr

/-- One ends before the other starts. -/
def Span.Disjoint (s t : Span) : Prop := s.last < t.first ∨ t.last < s.first

def FunctionDecl.span (f : FunctionDecl) :
    Span := ⟨.function, f.firstLine, f.lastLine, f.excerpt⟩

def ClassDecl.span (c : ClassDecl) : Span := ⟨.class_, c.firstLine, c.lastLine, c.excerpt⟩

def Declaration.span : Declaration → Span
  | function f => f.span
  | .class c => c.span

/-- The lines of an outline's classes and functions. -/
def Outline.spans (o : Outline) : List Span :=
  o.classes.map ClassDecl.span ++ o.functions.map FunctionDecl.span

/-! ## Headers outside all blocks -/

/-- The block of every header before the place ends before the place. -/
def OutsideBlocks (ls : List Line) (h : Nat) : Prop :=
  ∀ g < h, ∀ l ∈ ls[g]?, l.form.isHeader = true → blockEnd ls g l.indent < h

instance (ls : List Line) : DecidablePred (OutsideBlocks ls) := fun h =>
  inferInstanceAs (Decidable (∀ g < h, ∀ l ∈ ls[g]?, l.form.isHeader = true →
    blockEnd ls g l.indent < h))

theorem outsideBlocks_zero (ls : List Line) : OutsideBlocks ls 0 :=
  fun g hg => absurd hg g.not_lt_zero

/-- The lines that the header at a place takes, if there is one. -/
def spanAt? (ls : List Line) (h : Nat) : Option Span :=
  ls[h]?.bind fun l => l.heading?.map fun heading =>
    { kind := heading.kind
      first := l.number
      last := l.number + (block l.indent (ls.drop (h + 1))).length
      excerpt := some (Line.excerpt (l :: block l.indent (ls.drop (h + 1)))) }

/-- The lines of all headers outside the blocks of earlier headers. -/
def outerSpans (ls : List Line) : List Span :=
  ((List.range ls.length).filter (OutsideBlocks ls ·)).filterMap (spanAt? ls)

/-- Those of them whose headers are among the first lines. -/
def outerSpansWithin (size : Nat) (ls : List Line) : List Span :=
  ((List.range size).filter (OutsideBlocks ls ·)).filterMap (spanAt? ls)

theorem outerSpans_eq (ls : List Line) : outerSpans ls = outerSpansWithin ls.length ls := rfl

theorem isHeader_iff (l : Line) : l.form.isHeader = true ↔ l.heading?.isSome = true := by
  unfold Line.heading? LineForm.isHeader
  cases l.form <;> simp

/-- The blocks of the headers among some lines end with these lines, whatever follows. -/
def ClosedBefore (before ls : List Line) : Prop :=
  ∀ g l, before[g]? = some l → l.form.isHeader = true →
    blockEnd (before ++ ls) g l.indent < before.length

theorem outsideBlocks_append {before ls : List Line}
    (hclosed : ClosedBefore before ls) (h : Nat) :
    OutsideBlocks (before ++ ls) (before.length + h) ↔ OutsideBlocks ls h := by
  constructor
  · intro hout g hg l hl hheader
    have hend := hout (before.length + g) (by omega) l
      (by rw [List.getElem?_append_right (by omega), Nat.add_sub_cancel_left]; exact hl) hheader
    rw [blockEnd_append] at hend
    omega
  · intro hout g hg l hl hheader
    by_cases hbefore : g < before.length
    · rw [List.getElem?_append_left hbefore] at hl
      have hend := hclosed g l hl hheader
      omega
    · rw [List.getElem?_append_right (by omega)] at hl
      have hend := hout (g - before.length) (by omega) l hl hheader
      rw [← Nat.add_sub_cancel' (Nat.le_of_not_lt hbefore), blockEnd_append]
      omega

theorem spanAt?_append (before ls : List Line) (h : Nat) :
    spanAt? (before ++ ls) (before.length + h) = spanAt? ls h := by
  rw [spanAt?, spanAt?, List.getElem?_append_right (by omega), Nat.add_sub_cancel_left,
    Nat.add_assoc, List.drop_length_add_append]

/-- Behind lines whose blocks are closed, the outer headers are those of the remaining lines. -/
theorem outerSpansWithin_append {before ls : List Line} (hclosed : ClosedBefore before ls)
    (size : Nat) :
    outerSpansWithin (before.length + size) (before ++ ls) =
      outerSpansWithin before.length (before ++ ls) ++ outerSpansWithin size ls := by
  have hout : (fun h => decide (OutsideBlocks (before ++ ls) h)) ∘ (before.length + ·) =
      fun h => decide (OutsideBlocks ls h) :=
    funext fun h => decide_eq_decide.mpr (outsideBlocks_append hclosed h)
  have hspan : spanAt? (before ++ ls) ∘ (before.length + ·) = spanAt? ls :=
    funext (spanAt?_append before ls)
  rw [outerSpansWithin, List.range_add, List.filter_append, List.filterMap_append,
    List.filter_map, List.filterMap_map, hout, hspan]
  rfl

/-! ## Line by line -/

/-- A line with those that are passed over with it. -/
theorem cons_take_append_drop (l : Line) (after : List Line) :
    l :: after.take (l.taken after) ++ after.drop (l.taken after) = l :: after := by
  rw [List.cons_append, List.take_append_drop]

/-- The blocks that begin in the block of a header end no later than it does. -/
theorem closedBefore_taken (l : Line) (after : List Line) :
    ClosedBefore (l :: after.take (l.taken after)) (after.drop (l.taken after)) := by
  intro g l' hl' hheader
  rw [cons_take_append_drop]
  have hlength : (l :: after.take (l.taken after)).length = l.taken after + 1 := by
    rw [List.length_cons, List.length_take_of_le (l.taken_le after)]
  have hg : g < l.taken after + 1 := hlength ▸ (List.getElem?_eq_some_iff.mp hl').1
  have hleft : (l :: after)[g]? = some l' := by
    rw [← cons_take_append_drop l after, List.getElem?_append_left (hlength ▸ hg)]
    exact hl'
  rw [hlength]
  cases g with
  | zero =>
      obtain rfl : l = l' := Option.some.inj hleft
      rw [blockEnd, Line.taken, if_pos hheader, List.drop_succ_cons, List.drop_zero]
      omega
  | succ g =>
      have hfirst : l.form.isHeader = true := by
        by_contra hnone
        rw [Line.taken, if_neg hnone] at hg
        omega
      have hend : blockEnd (l :: after) 0 l.indent = l.taken after := by
        rw [Line.taken, if_pos hfirst]
        simp [blockEnd]
      have hinside : blockEnd (l :: after) (g + 1) l'.indent ≤
          blockEnd (l :: after) 0 l.indent :=
        blockEnd_le_of_inside g.zero_lt_succ (by omega) hleft (Line.isBlank_of_isHeader hheader)
      omega

/-- Of a line and those that are passed over with it, only the line itself is outside all
blocks. -/
theorem outerSpansWithin_taken {l : Line} {after : List Line} {size : Nat}
    (hsize : size ≤ l.taken after) :
    outerSpansWithin (size + 1) (l :: after) = (spanAt? (l :: after) 0).toList := by
  have hinner : ((List.range size).map Nat.succ).filter (OutsideBlocks (l :: after) ·) =
      [] := by
    refine List.filter_eq_nil_iff.mpr ?_
    intro h hh hout
    obtain ⟨k, hk, rfl⟩ := List.mem_map.mp hh
    rw [List.mem_range] at hk
    have hheader : l.form.isHeader = true := by
      by_contra hnone
      rw [Line.taken, if_neg hnone] at hsize
      omega
    have hend := of_decide_eq_true hout 0 k.zero_lt_succ l rfl hheader
    rw [blockEnd, List.drop_succ_cons, List.drop_zero] at hend
    rw [Line.taken, if_pos hheader] at hsize
    omega
  have hfirst : decide (OutsideBlocks (l :: after) 0) = true :=
    decide_eq_true (outsideBlocks_zero _)
  rw [outerSpansWithin, List.range_succ_eq_map, List.filter_cons, if_pos hfirst, hinner,
    List.filterMap_cons]
  cases spanAt? (l :: after) 0 <;> rfl

/-- The first line gives the first outer header, if it is one; the others stand behind what is
passed over with it. -/
theorem outerSpansWithin_cons (size : Nat) (l : Line) (after : List Line) :
    outerSpansWithin (size + 1) (l :: after) =
      (spanAt? (l :: after) 0).toList ++
        outerSpansWithin (size - l.taken after) (after.drop (l.taken after)) := by
  by_cases hle : l.taken after ≤ size
  · have hlength : (l :: after.take (l.taken after)).length = l.taken after + 1 := by
      rw [List.length_cons, List.length_take_of_le (l.taken_le after)]
    have hsize : size + 1 =
        (l :: after.take (l.taken after)).length + (size - l.taken after) := by
      omega
    have hparts := outerSpansWithin_append (closedBefore_taken l after) (size - l.taken after)
    rw [cons_take_append_drop, ← hsize, hlength, outerSpansWithin_taken (Nat.le_refl _)]
      at hparts
    exact hparts
  · rw [outerSpansWithin_taken (by omega), Nat.sub_eq_zero_of_le (by omega)]
    exact (List.append_nil _).symm

/-- Lines that are no headers are no part of it. -/
theorem outerSpansWithin_of_no_header {before : List Line}
    (hbefore : ∀ l ∈ before, l.heading? = none) (size : Nat) (ls : List Line) :
    outerSpansWithin (before.length + size) (before ++ ls) = outerSpansWithin size ls := by
  induction before with
  | nil => rw [List.length_nil, Nat.zero_add, List.nil_append]
  | cons l before ih =>
      have hnone : l.heading? = none := hbefore l List.mem_cons_self
      have hspan : spanAt? (l :: (before ++ ls)) 0 = none := by simp [spanAt?, hnone]
      have htaken : l.taken (before ++ ls) = 0 := by
        rw [Line.taken, if_neg]
        rw [isHeader_iff, hnone]
        exact Bool.false_ne_true
      have hsize : (l :: before).length + size = before.length + size + 1 := by
        rw [List.length_cons]
        omega
      rw [List.cons_append, hsize, outerSpansWithin_cons, hspan, htaken]
      exact ih fun l' hl' => hbefore l' (List.mem_cons_of_mem l hl')

/-- Without headers among the first lines there are no spans. -/
theorem outerSpansWithin_eq_nil {size : Nat} {ls : List Line}
    (hnone : ∀ l ∈ ls.take size, l.heading? = none) : outerSpansWithin size ls = [] := by
  refine List.filterMap_eq_nil_iff.mpr fun h hh => ?_
  have hlt : h < size := List.mem_range.mp (List.mem_filter.mp hh).1
  rw [spanAt?, Option.bind_eq_none_iff]
  intro l hl
  have hmem : l ∈ ls.take size :=
    List.mem_iff_getElem?.mpr ⟨h, (List.getElem?_take_of_lt hlt).trans hl⟩
  rw [hnone l hmem]
  rfl

/-! ## What the reader reports -/

/-- The run before a declaration holds no header. -/
theorem heading?_of_mem_decoratorRun {ls : List Line} {l : Line} (hl : l ∈ decoratorRun ls) :
    l.heading? = none := by
  have hrun := List.all_eq_true.mp List.all_takeWhile l hl
  unfold Line.heading?
  cases hform : l.form <;> simp_all [Line.isDecorator, Line.isBlank]

theorem span_declaration? (options : OutlineOptions) (decorators : List Text) (l : Line)
    (after : List Line) :
    (l.declaration? options decorators after).map Declaration.span =
      spanAt? (l :: after) 0 := by
  simp only [spanAt?, List.getElem?_cons_zero, Option.bind_some, Line.heading?,
    Line.declaration?]
  cases l.form <;> rfl

/-- The declarations of some lines are their headers outside the blocks of all earlier headers,
in the order of the lines. -/
theorem spans_declarations (options : OutlineOptions) (ls : List Line) :
    (declarations options ls).map Declaration.span = outerSpans ls := by
  induction ls using declarations_induction with
  | stop ls hdrop =>
      have hrun : decoratorRun ls = ls :=
        (List.takeWhile_prefix _).eq_of_length_le (List.drop_eq_nil_iff.mp hdrop)
      have hnone : ∀ l ∈ ls.take ls.length, l.heading? = none := by
        rw [List.take_length]
        exact fun l hl => heading?_of_mem_decoratorRun (hrun.symm ▸ hl)
      rw [declarations_of_drop_eq_nil hdrop, outerSpans_eq, outerSpansWithin_eq_nil hnone]
      rfl
  | step ls l after hdrop ih =>
      have hlines : ls = decoratorRun ls ++ l :: after := by
        rw [← hdrop]
        exact (List.prefix_iff_eq_append.mp (List.takeWhile_prefix _)).symm
      have houter : outerSpans ls = outerSpansWithin (after.length + 1) (l :: after) := by
        conv => lhs; rw [outerSpans_eq, hlines, List.length_append, List.length_cons]
        exact outerSpansWithin_of_no_header (fun l => heading?_of_mem_decoratorRun) _ _
      rw [declarations_of_drop_eq_cons hdrop, List.map_append, ← Option.toList_map,
        span_declaration?, ih, houter, outerSpansWithin_cons, outerSpans_eq, List.length_drop]

/-! ## Outer headers of a text -/

theorem raws_scan (t : Text) : (Line.scan t).map Line.raw = Text.lines t := by
  refine List.ext_getElem? fun h => ?_
  simp [Line.scan, Line.ofText, Function.comp_def]

theorem number_of_getElem?_scan {t : Text} {h : Nat} {l : Line}
    (hl : (Line.scan t)[h]? = some l) : l.number = h + 1 := by
  simp only [Line.scan, List.getElem?_mapIdx, Option.map_eq_some_iff] at hl
  obtain ⟨raw, -, rfl⟩ := hl
  rfl

/-- In the lines of a text the span of a header is told by places. -/
theorem spanAt?_scan (t : Text) (h : Nat) :
    spanAt? (Line.scan t) h = (Line.scan t)[h]?.bind fun l => l.heading?.map fun heading =>
      { kind := heading.kind
        first := (h : Int) + 1
        last := (blockEnd (Line.scan t) h l.indent : Int) + 1
        excerpt := some (Text.unlines (((Text.lines t).drop h).take
          (blockEnd (Line.scan t) h l.indent + 1 - h))) } := by
  rw [spanAt?]
  refine Option.bind_congr fun l hl => ?_
  have hlines : l :: block l.indent ((Line.scan t).drop (h + 1)) =
      ((Line.scan t).drop h).take (blockEnd (Line.scan t) h l.indent + 1 - h) := by
    obtain ⟨hlt, rfl⟩ := List.getElem?_eq_some_iff.mp hl
    have hsize : ∀ n, h + n + 1 - h = n + 1 := by omega
    rw [blockEnd, hsize, List.drop_eq_getElem_cons hlt, List.take_succ_cons,
      ← List.prefix_iff_eq_take.mp (block_isPrefix _ _)]
  have hraws : (l :: block l.indent ((Line.scan t).drop (h + 1))).map Line.raw =
      ((Text.lines t).drop h).take (blockEnd (Line.scan t) h l.indent + 1 - h) := by
    rw [hlines, List.map_take, List.map_drop, raws_scan]
  simp only [Line.excerpt, hraws, number_of_getElem?_scan hl, blockEnd]
  congr 1
  funext heading
  simp only [Span.mk.injEq, and_true, true_and]
  omega

/-! ## Outer headers of a window -/

/-- The block of every header from `start` on and before the place ends before the place. -/
def OutsideBlocksFrom (ls : List Line) (start h : Nat) : Prop :=
  ∀ g, start ≤ g → g < h → ∀ l ∈ ls[g]?, l.form.isHeader = true → blockEnd ls g l.indent < h

instance (ls : List Line) (start h : Nat) : Decidable (OutsideBlocksFrom ls start h) :=
  decidable_of_iff (∀ g < h, start ≤ g → ∀ l ∈ ls[g]?, l.form.isHeader = true →
      blockEnd ls g l.indent < h)
    ⟨fun hout g hstart hg => hout g hg hstart, fun hout g hg hstart => hout g hstart hg⟩

theorem outsideBlocksFrom_zero (ls : List Line) (h : Nat) :
    OutsideBlocksFrom ls 0 h ↔ OutsideBlocks ls h :=
  ⟨fun hout g => hout g g.zero_le, fun hout g _ => hout g⟩

/-- Without the first lines, places and block ends move by their number. -/
theorem outsideBlocks_drop (ls : List Line) (start h : Nat) :
    OutsideBlocks (ls.drop start) h ↔ OutsideBlocksFrom ls start (start + h) := by
  have hend : ∀ g indent, blockEnd ls (start + g) indent =
      start + blockEnd (ls.drop start) g indent := by
    intro g indent
    rw [blockEnd, blockEnd, List.drop_drop, Nat.add_assoc, Nat.add_assoc]
  constructor
  · intro hout g hstart hg l hl hheader
    obtain ⟨k, rfl⟩ := Nat.exists_eq_add_of_le hstart
    rw [← List.getElem?_drop] at hl
    have hinner := hout k (by omega) l hl hheader
    rw [hend]
    omega
  · intro hout g hg l hl hheader
    rw [List.getElem?_drop] at hl
    have houter := hout (start + g) (by omega) (by omega) l hl hheader
    rw [hend] at houter
    omega

theorem spanAt?_drop (ls : List Line) (start h : Nat) :
    spanAt? (ls.drop start) h = spanAt? ls (start + h) := by
  rw [spanAt?, spanAt?, List.getElem?_drop, List.drop_drop, Nat.add_assoc]

/-- A span of an outer header of a window starts with it and ends with its block. -/
theorem mem_outerSpansWithin_scan {t : Text} {start size : Nat} {s : Span} :
    s ∈ outerSpansWithin size ((Line.scan t).drop start) ↔
    ∃ (h : Nat) (l : Line) (heading : Heading),
      (Line.scan t)[h]? = some l ∧ start ≤ h ∧ h < start + size ∧
      OutsideBlocksFrom (Line.scan t) start h ∧ l.heading? = some heading ∧
      s = { kind := heading.kind
            first := (h : Int) + 1
            last := (blockEnd (Line.scan t) h l.indent : Int) + 1
            excerpt := some (Text.unlines (((Text.lines t).drop h).take
              (blockEnd (Line.scan t) h l.indent + 1 - h))) } := by
  simp only [outerSpansWithin, List.mem_filterMap, List.mem_filter, List.mem_range,
    decide_eq_true_eq, outsideBlocks_drop, spanAt?_drop, spanAt?_scan, Option.bind_eq_some_iff,
    Option.map_eq_some_iff]
  constructor
  · rintro ⟨k, ⟨hk, hout⟩, l, hl, heading, hheading, rfl⟩
    exact ⟨start + k, l, heading, hl, by omega, by omega, hout, hheading, rfl⟩
  · rintro ⟨h, l, heading, hl, hstart, hsize, hout, hheading, rfl⟩
    obtain ⟨k, rfl⟩ := Nat.exists_eq_add_of_le hstart
    exact ⟨k, ⟨by omega, hout⟩, l, hl, heading, hheading, rfl⟩

/-- The spans of outer headers of a window follow each other. -/
theorem outerSpansWithin_scan_ascending (t : Text) (start size : Nat) :
    (outerSpansWithin size ((Line.scan t).drop start)).Pairwise
      fun s s' => s.last < s'.first := by
  refine List.pairwise_filterMap.mpr ?_
  refine (List.pairwise_lt_range.filter _).imp_of_mem ?_
  intro h h' _ hh' hlt s hs s' hs'
  have hout : OutsideBlocks ((Line.scan t).drop start) h' :=
    of_decide_eq_true (List.mem_filter.mp hh').2
  rw [outsideBlocks_drop] at hout
  simp only [spanAt?_drop, spanAt?_scan, Option.bind_eq_some_iff, Option.map_eq_some_iff]
    at hs hs'
  obtain ⟨l, hl, heading, hheading, rfl⟩ := hs
  obtain ⟨l', hl', heading', hheading', rfl⟩ := hs'
  have hend := hout (start + h) (by omega) (by omega) l hl (by simp [isHeader_iff, hheading])
  simp only
  omega

/-- The first lines of the outer headers of one kind in a window. -/
theorem mem_firstsWithin_iff {t : Text} {start size : Nat} {kind : NodeKind} {n : Int} :
    n ∈ ((outerSpansWithin size ((Line.scan t).drop start)).filter (·.kind = kind)).map
      Span.first ↔
      ∃ (h : Nat) (l : Line), n = h + 1 ∧ (Line.scan t)[h]? = some l ∧
        (∃ heading, l.heading? = some heading ∧ heading.kind = kind) ∧ start ≤ h ∧
        h < start + size ∧
        OutsideBlocksFrom (Line.scan t) start h := by
  simp only [List.mem_map, List.mem_filter, decide_eq_true_eq, mem_outerSpansWithin_scan]
  constructor
  · rintro ⟨s, ⟨⟨h, l, heading, hl, hstart, hsize, hout, hheading, rfl⟩, hkind⟩, rfl⟩
    exact ⟨h, l, rfl, hl, ⟨heading, hheading, hkind⟩, hstart, hsize, hout⟩
  · rintro ⟨h, l, rfl, hl, ⟨heading, hheading, hkind⟩, hstart, hsize, hout⟩
    exact ⟨_, ⟨⟨h, l, heading, hl, hstart, hsize, hout, hheading, rfl⟩, hkind⟩, rfl⟩

theorem firstsWithin_ascending (t : Text) (start size : Nat) (kind : NodeKind) :
    (((outerSpansWithin size ((Line.scan t).drop start)).filter (·.kind = kind)).map
      Span.first).Pairwise (· < ·) := by
  refine List.pairwise_map.mpr
    (((outerSpansWithin_scan_ascending t start size).imp_of_mem ?_).filter _)
  intro s s' hs _ hlt
  obtain ⟨h, l, heading, -, -, -, -, -, rfl⟩ := mem_outerSpansWithin_scan.mp hs
  have hle := le_blockEnd (Line.scan t) h l.indent
  simp only at hlt ⊢
  omega

/-- A span of an outer header of a text starts with it and ends with its block. -/
theorem mem_outerSpans_scan {t : Text} {s : Span} :
    s ∈ outerSpans (Line.scan t) ↔ ∃ (h : Nat) (l : Line) (heading : Heading),
      (Line.scan t)[h]? = some l ∧ OutsideBlocks (Line.scan t) h ∧ l.heading? = some heading ∧
      s = { kind := heading.kind
            first := (h : Int) + 1
            last := (blockEnd (Line.scan t) h l.indent : Int) + 1
            excerpt := some (Text.unlines (((Text.lines t).drop h).take
              (blockEnd (Line.scan t) h l.indent + 1 - h))) } := by
  rw [outerSpans_eq, ← List.drop_zero (l := Line.scan t), mem_outerSpansWithin_scan,
    List.drop_zero]
  constructor
  · rintro ⟨h, l, heading, hl, -, -, hout, hparts⟩
    exact ⟨h, l, heading, hl, (outsideBlocksFrom_zero _ h).mp hout, hparts⟩
  · rintro ⟨h, l, heading, hl, hout, hparts⟩
    have hlt : h < (Line.scan t).length := (List.getElem?_eq_some_iff.mp hl).1
    exact ⟨h, l, heading, hl, h.zero_le,
      by omega, (outsideBlocksFrom_zero _ h).mpr hout, hparts⟩

/-- The spans of outer headers follow each other. -/
theorem outerSpans_scan_ascending (t : Text) :
    (outerSpans (Line.scan t)).Pairwise fun s s' => s.last < s'.first :=
  outerSpansWithin_scan_ascending t 0 (Line.scan t).length

/-! ## Classes and functions of an outline -/

/-- Taking one kind of declaration out keeps the spans of that kind. -/
theorem spans_filterMap {α : Type} {part? : Declaration → Option α} {span : α → Span}
    {kind : NodeKind}
    (hpart : ∀ d, (part? d).map span = if d.span.kind = kind then some d.span else none)
    (ds : List Declaration) :
    (ds.filterMap part?).map span = (ds.map Declaration.span).filter (·.kind = kind) :=
  filterMap_part (fun d => by simp only [hpart, decide_eq_true_eq]) ds

theorem spans_perm (ds : List Declaration) :
    ((ds.filterMap Declaration.class?).map ClassDecl.span
      ++ (ds.filterMap Declaration.function?).map FunctionDecl.span).Perm
      (ds.map Declaration.span) := by
  rw [List.map_eq_flatMap, List.map_eq_flatMap, List.map_eq_flatMap]
  exact parts_perm (fun d => [d.span]) ds

theorem heading?_class_iff (l : Line) :
    (∃ heading, l.heading? = some heading ∧ heading.kind = .class_) ↔
      ∃ name bases, l.form = .classHeader name bases := by
  unfold Line.heading?
  cases l.form <;> simp

theorem heading?_function_iff (l : Line) :
    (∃ heading, l.heading? = some heading ∧ heading.kind = .function) ↔
      ∃ async name parameters hint, l.form = .functionHeader async name parameters hint := by
  unfold Line.heading?
  cases l.form <;> simp

/-- The first lines of the outer headers of one kind. -/
theorem mem_firsts_iff {t : Text} {kind : NodeKind} {n : Int} :
    n ∈ ((outerSpans (Line.scan t)).filter (·.kind = kind)).map Span.first ↔
      ∃ (h : Nat) (l : Line), n = h + 1 ∧ (Line.scan t)[h]? = some l ∧
        (∃ heading, l.heading? = some heading ∧ heading.kind = kind) ∧
        OutsideBlocks (Line.scan t) h := by
  rw [outerSpans_eq, ← List.drop_zero (l := Line.scan t), mem_firstsWithin_iff, List.drop_zero]
  simp only [outsideBlocksFrom_zero, Nat.zero_le, Nat.zero_add, true_and]
  refine exists_congr fun h => exists_congr fun l => and_congr_right fun _ =>
    and_congr_right fun hl => ?_
  exact and_congr_right fun _ => and_iff_right (List.getElem?_eq_some_iff.mp hl).1

theorem firsts_ascending (t : Text) (kind : NodeKind) :
    (((outerSpans (Line.scan t)).filter (·.kind = kind)).map Span.first).Pairwise (· < ·) :=
  firstsWithin_ascending t 0 (Line.scan t).length kind

/-- A file with a content has an outline if the length of snippets is an integer. If it has an
outline, the outline's classes and functions start at the class and function headers that lie in
the block of no earlier header of either kind, in ascending order; the lines that they take are
disjoint and within the file; and each ends with the block of its header, of which it quotes the
lines. -/
theorem topLevel_exact (options : ReadingOptions) (f : SourceFile) (content : Text)
    (hcontent : f.content = some content) :
    (options.snippetLength.integer?.isSome → ∃ o, f.outline options = .ok o) ∧
    ∀ o, f.outline options = .ok o →
      (∀ n : Int, n ∈ o.classes.map ClassDecl.firstLine ↔ ∃ (h : Nat) (l : Line),
        n = h + 1 ∧ (Line.scan content)[h]? = some l ∧
        (∃ name bases, l.form = .classHeader name bases) ∧
        OutsideBlocks (Line.scan content) h) ∧
      (∀ n : Int, n ∈ o.functions.map FunctionDecl.firstLine ↔ ∃ (h : Nat) (l : Line),
        n = h + 1 ∧ (Line.scan content)[h]? = some l ∧
        (∃ async name parameters hint, l.form = .functionHeader async name parameters hint) ∧
        OutsideBlocks (Line.scan content) h) ∧
      (o.classes.map ClassDecl.firstLine).Pairwise (· < ·) ∧
      (o.functions.map FunctionDecl.firstLine).Pairwise (· < ·) ∧
      o.spans.Pairwise Span.Disjoint ∧
      ∀ s ∈ o.spans, ∃ (h : Nat) (l : Line), (Line.scan content)[h]? = some l ∧
        s.first = h + 1 ∧ s.last - 1 = blockEnd (Line.scan content) h l.indent ∧
        s.first ≤ s.last ∧ s.last ≤ (Line.scan content).length ∧
        s.excerpt = some (Text.unlines (((Text.lines content).drop h).take
          (blockEnd (Line.scan content) h l.indent + 1 - h))) := by
  refine ⟨exists_outline (by simp [hcontent]), fun o houtline => ?_⟩
  obtain ⟨reading, content', hcontent', rfl⟩ := exists_read_of_outline houtline
  obtain rfl : content' = content := Option.some.inj (hcontent'.symm.trans hcontent)
  have hclass : ∀ d : Declaration, d.class?.map ClassDecl.span =
      if d.span.kind = .class_ then some d.span else none := fun d => by cases d <;> rfl
  have hfunction : ∀ d : Declaration, d.function?.map FunctionDecl.span =
      if d.span.kind = .function then some d.span else none := fun d => by cases d <;> rfl
  have hclasses := spans_filterMap hclass (declarations reading (Line.scan content'))
  have hfunctions := spans_filterMap hfunction (declarations reading (Line.scan content'))
  have hspans := spans_perm (declarations reading (Line.scan content'))
  rw [spans_declarations] at hclasses hfunctions hspans
  have hclassFirsts := congrArg (List.map Span.first) hclasses
  have hfunctionFirsts := congrArg (List.map Span.first) hfunctions
  rw [List.map_map] at hclassFirsts hfunctionFirsts
  refine ⟨fun n => ?_, fun n => ?_, ?_, ?_, ?_, fun s hs => ?_⟩
  · simp only [← heading?_class_iff]
    exact hclassFirsts ▸ mem_firsts_iff
  · simp only [← heading?_function_iff]
    exact hfunctionFirsts ▸ mem_firsts_iff
  · exact hclassFirsts ▸ firsts_ascending content' .class_
  · exact hfunctionFirsts ▸ firsts_ascending content' .function
  · refine (hspans.pairwise_iff ?_).mpr ((outerSpans_scan_ascending content').imp Or.inl)
    exact fun hdisjoint => hdisjoint.symm
  · obtain ⟨h, l, heading, hl, -, -, rfl⟩ := mem_outerSpans_scan.mp (hspans.mem_iff.mp hs)
    have hfirst := le_blockEnd (Line.scan content') h l.indent
    have hlast := blockEnd_lt_length (List.getElem?_eq_some_iff.mp hl).1 l.indent
    exact ⟨h, l, hl, rfl, by simp, by simp only; omega, by simp only; omega, rfl⟩

/-- A file with a function under a condition, a function inside it, and a class. -/
def nestedFile : SourceFile :=
  { name := "a.py".toList
    content := some "if x:\n  def f():\n    def g(): h()\n\nclass C(f):\n  pass".toList }

/-- The function under the condition is outside all blocks, and so is the class; the function
inside the function is not. -/
theorem topLevel_exact_nestedFile :
    ∃ o, nestedFile.outline ⟨true, .number 40⟩ = .ok o ∧
      (2 ∈ o.functions.map FunctionDecl.firstLine) ∧
      (3 ∉ o.functions.map FunctionDecl.firstLine) ∧
      5 ∈ o.classes.map ClassDecl.firstLine := by
  obtain ⟨hread, hexact⟩ := topLevel_exact ⟨true, .number 40⟩ nestedFile _ rfl
  obtain ⟨o, ho⟩ := hread rfl
  obtain ⟨hclasses, hfunctions, -⟩ := hexact o ho
  have hinner : ¬ OutsideBlocks (Line.scan (nestedFile.content.getD [])) 2 := by decide +kernel
  refine ⟨o, ho, (hfunctions 2).mpr ⟨1, _, rfl, rfl, ?_, by decide +kernel⟩, ?_,
    (hclasses 5).mpr ⟨4, _, rfl, rfl, ?_, by decide +kernel⟩⟩
  · exact ⟨none, ['f'], [], none, by decide +kernel⟩
  · intro hmem
    obtain ⟨h, l, hline, -, -, hout⟩ := (hfunctions 3).mp hmem
    obtain rfl : h = 2 := by omega
    exact hinner hout
  · exact ⟨['C'], some ['f'], by decide +kernel⟩

end SymbolGraph
