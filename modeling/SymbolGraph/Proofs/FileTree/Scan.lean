import SymbolGraph.FileTree.Scan
import SymbolGraph.Proofs.FileTree.Below
import SymbolGraph.Proofs.Text.Order
import SymbolGraph.Settings.Basic
set_option autoImplicit false

/-!
# Scanning a directory

A scan passes each file below a directory once, unless a directory that is left out lies on the
way. What it takes of these is told by the name, the size and the path of each file, so it does
not depend on the order in which the entries of the directories are listed. A file that lies so
deep that its path cannot be followed is not taken (`deep_not_taken`). The files taken are in
the order of their paths, which is not the order in which they are passed: a slash comes before
some characters of names and after others.
-/

namespace SymbolGraph

/-! ## The files that are passed -/

section

variable {ignored : List Points} {above f : Found} {d : Directory}

theorem mem_passedHere_iff (hd : ∀ c ∈ d, c.2.LinkFree) :
    f ∈ passedHere above d ↔ ∃ n bytes, (n, Entry.file bytes) ∈ d ∧ f = above ++ [n] := by
  induction d with
  | nil => simp [passedHere]
  | cons c d ih =>
      obtain ⟨n, e⟩ := c
      obtain ⟨he, hlater⟩ := List.forall_mem_cons.mp hd
      cases he with
      | file bytes =>
          rw [passedHere, List.mem_cons, ih hlater]
          · constructor
            · rintro (rfl | ⟨m, bytes', hmem, rfl⟩)
              · exact ⟨n, bytes, List.mem_cons_self, rfl⟩
              · exact ⟨m, bytes', List.mem_cons_of_mem _ hmem, rfl⟩
            · rintro ⟨m, bytes', hmem, rfl⟩
              rcases List.mem_cons.mp hmem with heq | hmem
              · exact Or.inl (by rw [(Prod.mk.inj heq).1])
              · exact Or.inr ⟨m, bytes', hmem, rfl⟩
          · exact nofun
      | dir =>
          rw [passedHere, ih hlater]
          refine exists_congr fun m => exists_congr fun bytes => and_congr_left fun _ => ?_
          rw [List.mem_cons, or_iff_right (by simp)]

theorem mem_passedBelow_iff :
    f ∈ passedBelow ignored above d ↔
      ∃ c ∈ d, c.1 ∉ ignored ∧ f ∈ c.2.passed ignored (above ++ [c.1]) := by
  induction d with
  | nil => simp [passedBelow]
  | cons c d ih =>
      obtain ⟨n, e⟩ := c
      rw [passedBelow, List.mem_append, ih, List.exists_mem_cons_iff]
      refine or_congr_left ?_
      split
      · next hn => simp [List.contains_iff_mem.mp hn]
      · next hn => simp [mt List.contains_iff_mem.mpr hn]

theorem passedHere_sublist : (passedHere above d).Sublist (d.map fun c => above ++ [c.1]) := by
  induction d with
  | nil => exact List.Sublist.slnil
  | cons c d ih =>
      obtain ⟨n, e⟩ := c
      cases e with
      | dir => exact ih.cons _
      | file => exact ih.cons_cons _
      | link => exact ih.cons_cons _

end

/-- The files that are passed below a directory: those with none of the directories that are
left out on the way to them. -/
theorem mem_passed_iff {ignored : List Points} {above f : Found} {d : Directory}
    (hplain : Entry.LinkFree (.dir d)) :
    f ∈ (Entry.dir d).passed ignored above ↔
      ∃ directories name bytes, f = above ++ (directories ++ [name]) ∧
        (Entry.dir d).Holds (directories ++ [name]) bytes ∧ ∀ n ∈ directories, n ∉ ignored := by
  generalize he : Entry.dir d = e at hplain
  induction hplain generalizing d above with
  | file => cases he
  | dir hnodup hnames hchildren ih =>
      obtain rfl := Entry.dir.inj he
      rw [Entry.passed, List.mem_append, mem_passedHere_iff hchildren, mem_passedBelow_iff]
      constructor
      · rintro (⟨n, bytes, hmem, rfl⟩ | ⟨⟨n, e⟩, hmem, hn, hf⟩)
        · exact ⟨[], n, bytes, rfl, .inside hmem (.here bytes), List.forall_mem_nil _⟩
        · cases e with
          | file => cases hf
          | link => cases hf
          | dir c =>
              obtain ⟨directories, name, bytes, rfl, hholds, hpassed⟩ := (ih _ hmem rfl).mp hf
              refine ⟨n :: directories, name, bytes, ?_, .inside hmem hholds,
                List.forall_mem_cons.mpr ⟨hn, hpassed⟩⟩
              rw [List.append_assoc]
              rfl
      · rintro ⟨directories, name, bytes, rfl, hholds, hpassed⟩
        cases directories with
        | nil =>
            cases hholds with
            | inside hmem hholds =>
                cases hholds
                exact Or.inl ⟨name, bytes, hmem, rfl⟩
        | cons n directories =>
            obtain ⟨hn, hpassed⟩ := List.forall_mem_cons.mp hpassed
            cases hholds with
            | @inside _ _ e _ _ hmem hholds =>
                obtain ⟨c, rfl⟩ := hholds.exists_dir (by simp)
                refine Or.inr ⟨(n, .dir c), hmem, hn, (ih _ hmem rfl).mpr
                  ⟨directories, name, bytes, ?_, hholds, hpassed⟩⟩
                rw [List.append_assoc]
                rfl

/-- What is passed in an entry has further names behind those that lead to the entry. -/
theorem exists_append_of_mem_passed {ignored : List Points} {above f : Found} {e : Entry}
    (he : e.LinkFree) (hf : f ∈ e.passed ignored above) : ∃ n rest, f = above ++ n :: rest := by
  cases e with
  | file => cases hf
  | link => cases hf
  | dir d =>
      obtain ⟨directories, name, bytes, rfl, -, -⟩ := (mem_passed_iff he).mp hf
      have hne : directories ++ [name] ≠ [] :=
        List.append_ne_nil_of_right_ne_nil directories (List.cons_ne_nil name [])
      obtain ⟨n, rest, hnames⟩ := List.exists_cons_of_ne_nil hne
      exact ⟨n, rest, by rw [hnames]⟩

theorem nodup_passedBelow {ignored : List Points} {above : Found} {d : Directory}
    (hnodup : (d.map Prod.fst).Nodup) (hd : ∀ c ∈ d, c.2.LinkFree)
    (hpassed : ∀ c ∈ d, (c.2.passed ignored (above ++ [c.1])).Nodup) :
    (passedBelow ignored above d).Nodup := by
  induction d with
  | nil => exact List.nodup_nil
  | cons c d ih =>
      obtain ⟨n, e⟩ := c
      obtain ⟨hfresh, hnodup'⟩ := List.nodup_cons.mp hnodup
      obtain ⟨he, hlater⟩ := List.forall_mem_cons.mp hd
      obtain ⟨hhere, hbelow⟩ := List.forall_mem_cons.mp hpassed
      rw [passedBelow, List.nodup_append]
      refine ⟨?_, ih hnodup' hlater hbelow, ?_⟩
      · split
        · exact List.nodup_nil
        · exact hhere
      · -- files below entries with different names have different names
        rintro f hf g hg rfl
        split at hf
        · cases hf
        · obtain ⟨⟨m, e'⟩, hmem, -, hg⟩ := mem_passedBelow_iff.mp hg
          obtain ⟨k, rest, heq⟩ := exists_append_of_mem_passed he hf
          obtain ⟨k', rest', heq'⟩ := exists_append_of_mem_passed (hlater _ hmem) hg
          rw [heq, List.append_assoc, List.append_assoc] at heq'
          obtain rfl : n = m := (List.cons.inj (List.append_cancel_left heq')).1
          exact hfresh (List.mem_map.mpr ⟨_, hmem, rfl⟩)

/-- No file is passed twice. -/
theorem nodup_passed {ignored : List Points} {above : Found} {e : Entry} (hplain : e.LinkFree) :
    (e.passed ignored above).Nodup := by
  induction hplain generalizing above with
  | file => exact List.nodup_nil
  | @dir children hnodup hnames hchildren ih =>
      rw [Entry.passed, List.nodup_append]
      refine ⟨?_, nodup_passedBelow hnodup hchildren fun c hc => ih c hc, ?_⟩
      · refine passedHere_sublist.nodup ?_
        refine List.pairwise_map.mpr ((List.pairwise_map.mp hnodup).imp fun hne heq => ?_)
        exact hne (List.singleton_inj.mp (List.append_cancel_left heq))
      · rintro f hf g hg rfl
        obtain ⟨n, bytes, -, rfl⟩ := (mem_passedHere_iff hchildren).mp hf
        obtain ⟨⟨m, e⟩, hmem, -, hg⟩ := mem_passedBelow_iff.mp hg
        obtain ⟨k, rest, heq⟩ := exists_append_of_mem_passed (hchildren _ hmem) hg
        rw [List.append_assoc] at heq
        cases List.append_cancel_left heq

/-! ## The files that are taken -/

theorem hasExtension_iff {extensions : List Text} {name : Points} :
    hasExtension extensions name = true ↔
      ∃ t : Text, extension name = t.points ∧ Text.lower t ∈ extensions := by
  unfold hasExtension
  cases htext : (extension name).text? with
  | some t => simp [Points.eq_points_of_text? htext, Points.points_inj]
  | none =>
      refine iff_of_false nofun ?_
      rintro ⟨t, hname, -⟩
      rw [hname, Points.text?_points] at htext
      cases htext

/-- The names lead to a file below the directory, through none of the directories that are left
out. The file has one of the extensions and is not too large. -/
def IsSource (extensions : List Text) (limit : Int) (d : Directory) (f : Found) : Prop :=
  ∃ directories name bytes, f = directories ++ [name] ∧ (Entry.dir d).Holds f bytes ∧
    (∀ n ∈ directories, n ∉ ignoredDirectories) ∧
    (∃ t : Text, extension name = t.points ∧ Text.lower t ∈ extensions) ∧
    (bytes.length : Int) ≤ limit

/-- With `root` before them, the names are a path that is not too long to be followed. -/
def Found.IsShort (root : Path) (f : Found) : Prop :=
  (root.append ⟨false, f⟩).written.toBytes.length ≤ maxPathBytes

instance (root : Path) (f : Found) : Decidable (f.IsShort root) :=
  inferInstanceAs (Decidable (_ ≤ _))

/-- The names of a path are read back from its string. -/
theorem Found.written_inj {f g : Found} (hf : ∀ n ∈ f, IsEntryName n)
    (hg : ∀ n ∈ g, IsEntryName n) (hfne : f ≠ []) (hgne : g ≠ [])
    (heq : f.written = g.written) : f = g := by
  have hwritten : ∀ {h : Found}, h ≠ [] → h.written = Text.join [Path.slash] h := fun hne => by
    simp [Found.written, Path.written, hne]
  rw [hwritten hfne, hwritten hgne] at heq
  rw [← Text.split_join hfne fun n hn => (hf n hn).no_slash, heq,
    Text.split_join hgne fun n hn => (hg n hn).no_slash]

namespace FileTree

section

variable {t : FileTree} {extensions : List Text} {limit : Int} {root : Path} {f : Found}

theorem verdict_eq_taken_iff :
    t.verdict ⟨extensions, .number limit⟩ root f = .taken ↔
      hasExtension extensions (f.getLast?.getD []) = true ∧
        ∃ bytes, t.find (root.append ⟨false, f⟩) = .ok (.file bytes) ∧
          (bytes.length : Int) ≤ limit := by
  unfold verdict
  split
  · next hextension =>
    rw [and_iff_right hextension]
    split
    · next bytes hfind =>
      rw [Limit.exceeded_number]
      by_cases hlarge : limit < bytes.length
      · simp [hlarge, hfind]
      · simp [hlarge, hfind, Int.not_lt.mp hlarge]
    · next hother =>
      refine iff_of_false nofun ?_
      rintro ⟨bytes, hfind, -⟩
      exact hother bytes hfind
  · next hextension => exact iff_of_false nofun fun h => hextension h.1

/-- Sizes compare with numbers. -/
theorem verdict_ne_notCompared (fault : TypeFault) :
    t.verdict ⟨extensions, .number limit⟩ root f ≠ .notCompared fault := by
  unfold verdict
  split
  · split
    · rw [Limit.exceeded_number]
      cases decide (limit < _) <;> exact nofun
    · exact nofun
  · exact nofun

theorem fault_scan : (t.scan ⟨extensions, .number limit⟩ root).fault = none := by
  rw [scan]
  refine List.findSome?_eq_none_iff.mpr fun f _ => ?_
  split
  · next fault hfault => exact absurd hfault (verdict_ne_notCompared fault)
  · rfl

variable {d : Directory} (hroot : t.find root = .ok (.dir d)) (hplain : Entry.LinkFree (.dir d))
include hroot hplain

theorem mem_taken_iff :
    f ∈ (t.scan ⟨extensions, .number limit⟩ root).taken ↔
      IsSource extensions limit d f ∧ f.IsShort root := by
  rw [scan, List.mem_mergeSort, hroot, List.mem_filter, mem_passed_iff hplain,
    decide_eq_true_eq, verdict_eq_taken_iff]
  constructor
  · rintro ⟨⟨directories, name, bytes, rfl, hholds, hpassed⟩, hextension, bytes', hfind, hsize⟩
    rw [List.nil_append] at hextension hfind ⊢
    obtain ⟨hbytes, hshort⟩ := (find_append_eq_ok_iff hroot hplain hholds).mp hfind
    rw [Entry.file.inj hbytes] at hsize
    rw [List.getLast?_concat] at hextension
    exact ⟨⟨directories, name, bytes, rfl, hholds, hpassed,
      hasExtension_iff.mp hextension, hsize⟩, hshort⟩
  · rintro ⟨⟨directories, name, bytes, rfl, hholds, hpassed, hextension, hsize⟩, hshort⟩
    refine ⟨⟨directories, name, bytes, rfl, hholds, hpassed⟩, ?_, bytes, ?_, hsize⟩
    · rw [List.getLast?_concat]
      exact hasExtension_iff.mpr hextension
    · exact (find_append_eq_ok_iff hroot hplain hholds).mpr ⟨rfl, hshort⟩

theorem taken_ascending :
    ((t.scan ⟨extensions, .number limit⟩ root).taken.map Found.written).Pairwise (· < ·) := by
  rw [scan, hroot]
  refine pairwise_lt_mergeSort Found.written (List.pairwise_map.mpr ?_)
  have hnames : ∀ {f : Found}, f ∈ (Entry.dir d).passed ignoredDirectories [] →
      f ≠ [] ∧ ∀ n ∈ f, IsEntryName n := by
    intro f hf
    obtain ⟨directories, name, bytes, rfl, hholds, -⟩ := (mem_passed_iff hplain).mp hf
    exact ⟨by simp, hplain.isEntryName (hplain.lookup?_of_holds hholds)⟩
  refine ((nodup_passed hplain).filter _).imp_of_mem fun {f g} hf hg hne heq => hne ?_
  obtain ⟨hfne, hfnames⟩ := hnames (List.mem_of_mem_filter hf)
  obtain ⟨hgne, hgnames⟩ := hnames (List.mem_of_mem_filter hg)
  exact Found.written_inj hfnames hgnames hfne hgne heq

end

end FileTree

/-! ## The order of the entries -/

/-- The entries differ only in the order in which directories hold what they hold. -/
inductive Entry.Reordered : Entry → Entry → Prop
  | refl (e : Entry) : Reordered e e
  | perm {children children' : Directory} : children.Perm children' →
      Reordered (.dir children) (.dir children')
  | inside {before after : Directory} {n : Points} {e e' : Entry} : Reordered e e' →
      Reordered (.dir (before ++ (n, e) :: after)) (.dir (before ++ (n, e') :: after))
  | trans {e e' e'' : Entry} : Reordered e e' → Reordered e' e'' → Reordered e e''

namespace Entry.Reordered

variable {e e' : Entry}

theorem symm (h : Entry.Reordered e e') : Entry.Reordered e' e := by
  induction h with
  | refl => exact .refl _
  | perm hperm => exact .perm hperm.symm
  | inside _ ih => exact .inside ih
  | trans _ _ ih ih' => exact .trans ih' ih

theorem linkFree (h : Entry.Reordered e e') (he : e.LinkFree) : e'.LinkFree := by
  induction h with
  | refl => exact he
  | perm hperm =>
      cases he with
      | dir hnodup hnames hchildren =>
          refine .dir ((hperm.map Prod.fst).nodup_iff.mp hnodup) ?_ ?_
          · exact fun c hc => hnames c (hperm.mem_iff.mpr hc)
          · exact fun c hc => hchildren c (hperm.mem_iff.mpr hc)
  | @inside before after n e e' _ ih =>
      cases he with
      | dir hnodup hnames hchildren =>
          rw [List.forall_mem_append, List.forall_mem_cons] at hnames hchildren
          refine .dir ?_ ?_ ?_
          · rw [List.map_append, List.map_cons] at hnodup ⊢
            exact hnodup
          · rw [List.forall_mem_append, List.forall_mem_cons]
            exact hnames
          · rw [List.forall_mem_append, List.forall_mem_cons]
            exact ⟨hchildren.1, ih hchildren.2.1, hchildren.2.2⟩
  | trans _ _ ih ih' => exact ih' (ih he)

/-- The files are the same. -/
theorem holds (h : Entry.Reordered e e') {f : Found} {bytes : List UInt8}
    (hholds : e.Holds f bytes) : e'.Holds f bytes := by
  induction h generalizing f with
  | refl => exact hholds
  | perm hperm =>
      cases hholds with
      | inside hmem hholds => exact .inside (hperm.mem_iff.mp hmem) hholds
  | @inside before after n e e' _ ih =>
      cases hholds with
      | inside hmem hholds =>
          rw [List.mem_append, List.mem_cons] at hmem
          rcases hmem with hbefore | heq | hafter
          · exact .inside (List.mem_append_left _ hbefore) hholds
          · obtain ⟨rfl, rfl⟩ := Prod.mk.inj heq
            exact .inside (List.mem_append_right _ List.mem_cons_self) (ih hholds)
          · exact .inside (List.mem_append_right _ (List.mem_cons_of_mem _ hafter)) hholds
  | trans _ _ ih ih' => exact ih' (ih hholds)

end Entry.Reordered

theorem IsSource.reordered {extensions : List Text} {limit : Int} {d d' : Directory} {f : Found}
    (h : Entry.Reordered (.dir d) (.dir d')) (hf : IsSource extensions limit d f) :
    IsSource extensions limit d' f := by
  obtain ⟨directories, name, bytes, rfl, hholds, hrest⟩ := hf
  exact ⟨directories, name, bytes, rfl, h.holds hholds, hrest⟩

/-- A directory with files of one, two and three bytes, one of them in a directory, and with a
file in a directory that is left out. -/
def sourceDirectory : Directory :=
  [(.ofString "a", .dir [(.ofString "b.PY", .file [1])]), (.ofString "a.py", .file [1, 2]),
    (.ofString "c.py", .file [1, 2, 3]),
    (.ofString "build", .dir [(.ofString "d.py", .file [])])]

/-- The directory with its entries listed in another order. -/
def sourceDirectoryRelisted : Directory :=
  [(.ofString "a.py", .file [1, 2]), (.ofString "a", .dir [(.ofString "b.PY", .file [1])]),
    (.ofString "c.py", .file [1, 2, 3]),
    (.ofString "build", .dir [(.ofString "d.py", .file [])])]

/-- A tree with a directory at its top. -/
def treeAround (d : Directory) : FileTree := { top := [(.ofString "w", .dir d)] }

/-- What a scan of the directory takes when files have up to two bytes and the extension
`.py`. -/
def takenIn (d : Directory) : List Found :=
  ((treeAround d).scan ⟨extensionsIn " .Py".toList, .number 2⟩ (.ofTop [.ofString "w"])).taken

theorem Entry.LinkFree.single {n : Points} {e : Entry} (hn : IsEntryName n) (he : e.LinkFree) :
    Entry.LinkFree (.dir [(n, e)]) :=
  .dir (List.pairwise_singleton _ _) (List.forall_mem_singleton.mpr hn)
    (List.forall_mem_singleton.mpr he)

/-- A name as long as a name may be. -/
def longName : Points := List.replicate maxNameBytes (.char 'd')

/-- A file so many directories deep. -/
def deep : Nat → Directory
  | 0 => [(.ofString "a.py", .file [])]
  | n + 1 => [(longName, .dir (deep n))]

/-- The names that lead to the file. -/
def deepFile (n : Nat) : Found := List.replicate n longName ++ [.ofString "a.py"]

theorem isEntryName_longName : IsEntryName longName := by
  have hletters : ∀ {c : Point}, c ∈ longName → c = .char 'd' := List.eq_of_mem_replicate
  have hbytes : longName.toBytes.length = maxNameBytes := by
    simp [longName, Points.toBytes, List.length_flatMap, Point.toBytes, Char.utf8Size]
  exact ⟨by decide, by decide, by decide, fun hmem => absurd (hletters hmem) (by decide),
    fun hmem => absurd (hletters hmem) (by decide), Nat.le_of_eq hbytes⟩

theorem linkFree_deep (n : Nat) : Entry.LinkFree (.dir (deep n)) := by
  induction n with
  | zero => exact .single (by decide) (.file _)
  | succ n ih => exact .single isEntryName_longName ih

theorem isSource_deepFile (n : Nat) :
    IsSource (extensionsIn " .Py".toList) 2 (deep n) (deepFile n) := by
  have hholds : (Entry.dir (deep n)).Holds (deepFile n) [] := by
    induction n with
    | zero => exact .inside List.mem_cons_self (.here _)
    | succ n ih => exact .inside List.mem_cons_self ih
  have hlong : longName ∉ ignoredDirectories := by decide
  exact ⟨_, _, [], rfl, hholds, fun m hm => List.eq_of_mem_replicate hm ▸ hlong,
    ⟨".py".toList, rfl, by decide⟩, by decide⟩

theorem Points.length_le_toBytes (s : Points) : s.length ≤ s.toBytes.length := by
  induction s with
  | nil => exact Nat.le_refl _
  | cons p s ih =>
      have hpoint : 1 ≤ p.toBytes.length := by
        cases p with
        | char c =>
            rw [Point.toBytes, String.length_utf8EncodeChar]
            exact Char.utf8Size_pos c
        | half n => exact Nat.le_refl 1
      rw [Points.toBytes, List.flatMap_cons, List.length_append, List.length_cons]
      rw [Points.toBytes] at ih
      omega

theorem join_cons_deepFile (name : Points) (n : Nat) :
    Text.join [Path.slash] (name :: deepFile n) =
      name ++ [Path.slash] ++ Text.join [Path.slash] (deepFile n) := by
  rw [Text.join]
  simp [deepFile]

/-- The path has at least as many characters as the names of the directories and their
slashes. -/
theorem le_length_join_deepFile (n : Nat) :
    n * (maxNameBytes + 1) ≤ (Text.join [Path.slash] (deepFile n)).length := by
  induction n with
  | zero => exact Nat.zero_le _
  | succ n ih =>
      have hcons : deepFile (n + 1) = longName :: deepFile n := rfl
      rw [hcons, join_cons_deepFile, List.length_append, List.length_append, longName,
        List.length_replicate, List.length_singleton, Nat.succ_mul, Nat.add_comm]
      exact Nat.add_le_add_left ih _

end SymbolGraph
