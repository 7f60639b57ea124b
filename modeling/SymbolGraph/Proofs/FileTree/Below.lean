import SymbolGraph.Proofs.FileTree.Write
import SymbolGraph.Proofs.Text.Separator
set_option autoImplicit false

/-!
# Files below a directory

In an entry without links each file is found under the names that lead to it, and under no
others: the names in a directory are distinct. So a path that leads to such a directory, through
whatever links, leads with the names of a file behind it to that file, unless it gets too long
(`find_append_eq_ok_iff`).
-/

namespace SymbolGraph

/-- What an entry can be called: not by the empty name or by dots alone, which say something
else in a path, with neither a slash nor a null character, and not too long. -/
structure IsEntryName (n : Points) : Prop where
  ne_nil : n ≠ []
  ne_here : n ≠ Path.here
  ne_up : n ≠ Path.up
  no_slash : Path.slash ∉ n
  no_null : nullPoint ∉ n
  short : n.toBytes.length ≤ maxNameBytes

instance (n : Points) : Decidable (IsEntryName n) :=
  decidable_of_iff (n ≠ [] ∧ n ≠ Path.here ∧ n ≠ Path.up ∧ n.contains Path.slash = false ∧
      n.contains nullPoint = false ∧ n.toBytes.length ≤ maxNameBytes)
    ⟨fun ⟨hnil, hhere, hup, hslash, hnull, hshort⟩ =>
      ⟨hnil, hhere, hup, fun hmem =>
        absurd (hslash.symm.trans (List.contains_iff_mem.mpr hmem)) nofun,
          fun hmem => absurd (hnull.symm.trans (List.contains_iff_mem.mpr hmem)) nofun, hshort⟩,
      fun h => ⟨h.ne_nil, h.ne_here, h.ne_up,
        Bool.eq_false_iff.mpr fun hmem => h.no_slash (List.contains_iff_mem.mp hmem),
        Bool.eq_false_iff.mpr fun hmem => h.no_null (List.contains_iff_mem.mp hmem), h.short⟩⟩

/-- There is no link in the entry, and what a directory holds stands under distinct names. -/
inductive Entry.LinkFree : Entry → Prop
  | file (bytes : List UInt8) : LinkFree (.file bytes)
  | dir {children : Directory} : (children.map Prod.fst).Nodup →
      (∀ c ∈ children, IsEntryName c.1) →
      (∀ c ∈ children, LinkFree c.2) → LinkFree (.dir children)

/-- The names lead from the entry to a file that holds the bytes. -/
inductive Entry.Holds : Entry → List Points → List UInt8 → Prop
  | here (bytes : List UInt8) : Holds (.file bytes) [] bytes
  | inside {children : Directory} {n : Points} {e : Entry} {names : List Points}
      {bytes : List UInt8} :
      (n, e) ∈ children → Holds e names bytes → Holds (.dir children) (n :: names) bytes

theorem Entry.Holds.exists_dir {e : Entry} {names : List Points} {bytes : List UInt8}
    (hholds : e.Holds names bytes) (hne : names ≠ []) : ∃ d, e = .dir d := by
  cases hholds with
  | here => exact absurd rfl hne
  | inside => exact ⟨_, rfl⟩

/-! ## Entries under names -/

namespace Directory

theorem mem_of_child? {d : Directory} {n : Points} {e : Entry} (he : d.child? n = some e) :
    (n, e) ∈ d := by
  induction d with
  | nil => cases he
  | cons c d ih =>
      obtain ⟨m, e'⟩ := c
      rw [child?] at he
      split at he
      · next hm =>
        obtain rfl := Option.some.inj he
        exact hm ▸ List.mem_cons_self
      · exact List.mem_cons_of_mem _ (ih he)

theorem child?_eq_some_iff {d : Directory} (hnodup : (d.map Prod.fst).Nodup) {n : Points}
    {e : Entry} : d.child? n = some e ↔ (n, e) ∈ d := by
  refine ⟨mem_of_child?, fun hmem => ?_⟩
  induction d with
  | nil => cases hmem
  | cons c d ih =>
      obtain ⟨m, e'⟩ := c
      obtain ⟨hfresh, hnodup⟩ := List.nodup_cons.mp hnodup
      rw [child?]
      rcases List.mem_cons.mp hmem with heq | hmem
      · obtain ⟨rfl, rfl⟩ := Prod.mk.inj heq
        exact if_pos rfl
      · have hne : m ≠ n := by
          rintro rfl
          exact hfresh (List.mem_map.mpr ⟨_, hmem, rfl⟩)
        rw [if_neg hne]
        exact ih hnodup hmem

theorem descend?_concat_eq_some_iff {at_ : List Points} {d c : Directory} {n : Points} :
    d.descend? (at_ ++ [n]) = some c ↔ d.lookup? at_ n = some (.dir c) := by
  induction at_ generalizing d with
  | nil =>
      rw [List.nil_append, descend?]
      constructor
      · intro hc
        split at hc
        · next e hn => exact Option.some.inj hc ▸ hn
        · cases hc
      · intro hn
        have hchild : d.child? n = some (.dir c) := hn
        rw [hchild]
        rfl
  | cons m ms ih =>
      rw [List.cons_append, descend?]
      constructor
      · intro hc
        split at hc
        · next e hm => rw [lookup?_cons hm, ← ih, hc]
        · cases hc
      · intro hn
        obtain ⟨e, hm, hn⟩ := exists_child?_of_lookup? hn
        rw [hm]
        exact ih.mpr hn

end Directory

namespace Entry.LinkFree

variable {d : Directory}

theorem nodup (hd : Entry.LinkFree (.dir d)) : (d.map Prod.fst).Nodup := by
  cases hd with
  | dir hnodup => exact hnodup

theorem of_child? (hd : Entry.LinkFree (.dir d)) {n : Points} {e : Entry}
    (he : d.child? n = some e) : IsEntryName n ∧ e.LinkFree := by
  cases hd with
  | dir _ hnames hchildren =>
      have hmem := Directory.mem_of_child? he
      exact ⟨hnames _ hmem, hchildren _ hmem⟩

/-- The names that lead to something are names of entries. -/
theorem isEntryName (hd : Entry.LinkFree (.dir d)) {directories : List Points}
    {name : Points} {e : Entry} (he : d.lookup? directories name = some e) :
    ∀ n ∈ directories ++ [name], IsEntryName n := by
  induction directories generalizing d with
  | nil => exact List.forall_mem_singleton.mpr (hd.of_child? he).1
  | cons m ms ih =>
      obtain ⟨c, hm, he⟩ := Directory.exists_child?_of_lookup? he
      obtain ⟨hname, hc⟩ := hd.of_child? hm
      exact List.forall_mem_cons.mpr ⟨hname, ih hc he⟩

/-- A file is looked up under its names. -/
theorem lookup?_of_holds (hd : Entry.LinkFree (.dir d)) {directories : List Points}
    {name : Points} {bytes : List UInt8}
    (hholds : Entry.Holds (.dir d) (directories ++ [name]) bytes) :
    d.lookup? directories name = some (.file bytes) := by
  induction directories generalizing d with
  | nil =>
      cases hholds with
      | inside hmem hholds =>
          cases hholds
          exact (Directory.child?_eq_some_iff hd.nodup).mpr hmem
  | cons m ms ih =>
      cases hholds with
      | inside hmem hholds =>
          obtain ⟨c, rfl⟩ := hholds.exists_dir (by simp)
          have hchild := (Directory.child?_eq_some_iff hd.nodup).mpr hmem
          rw [Directory.lookup?_cons hchild]
          exact ih (hd.of_child? hchild).2 hholds

end Entry.LinkFree

/-! ## Following a path further -/

theorem IsEntryName.passes {n : Points} (hn : IsEntryName n) (rest : List Points) :
    Aim.look.Passes n rest :=
  ⟨hn.ne_nil, hn.ne_here, hn.ne_up, fun hwrite => absurd hwrite.1 (by decide), hn.short⟩

theorem Aim.Passes.look {n : Points} {rest : List Points} (hn : Aim.look.Passes n rest)
    (rest' : List Points) : Aim.look.Passes n rest' :=
  ⟨hn.ne_nil, hn.ne_here, hn.ne_up, fun hwrite => absurd hwrite.1 (by decide), hn.short⟩

/-- What a stretch to a directory or to a link becomes when the names of a file below the
directory take the place of empty names at its end. -/
inductive Stretch.Onward (tail more : List Points) (bytes : List UInt8) :
    Stretch → Stretch → Prop
  | file {found : List Points} {d : Directory} :
      Onward tail more bytes (.arrived (.taken found (.dir d)))
        (.arrived (.taken (found ++ more) (.file bytes)))
  | link {there ms : List Points} {target : Points} :
      Onward tail more bytes (.link there target (ms ++ tail)) (.link there target (ms ++ more))

namespace FileTree

/-- Empty names lead nowhere else. -/
theorem eq_of_leads_empty {t : FileTree} {tail at_ : List Points} (htail : ∀ m ∈ tail, m = [])
    {s : Stretch} (hs : Leads t .look at_ tail s) :
    ∃ d, t.top.descend? at_ = some d ∧ s = .arrived (.taken at_ (.dir d)) := by
  induction tail with
  | nil =>
      cases hs with
      | arrive hd => exact ⟨_, hd, rfl⟩
  | cons m tail ih =>
      obtain ⟨rfl, hlater⟩ := List.forall_mem_cons.mp htail
      cases hs with
      | stay _ hs => exact ih hlater hs
      | free hn => exact absurd rfl hn.ne_nil
      | file hn => exact absurd rfl hn.ne_nil
      | into hn => exact absurd rfl hn.ne_nil
      | entry hn => exact absurd rfl hn.ne_nil
      | link hn => exact absurd rfl hn.ne_nil

variable {t : FileTree} {d : Directory} (hplain : Entry.LinkFree (.dir d))
  {directories : List Points} {name : Points} {bytes : List UInt8}
  (hfile : d.lookup? directories name = some (.file bytes))
include hplain hfile

/-- The names of a file lead to it from the directory. -/
theorem leads_below {at_ : List Points} (hd : t.top.descend? at_ = some d) :
    Leads t .look at_ (directories ++ [name])
      (.arrived (.taken (at_ ++ (directories ++ [name])) (.file bytes))) := by
  induction directories generalizing d at_ with
  | nil =>
      refine .file ((hplain.of_child? hfile).1.passes []) ?_
      rw [Directory.lookup?, hd]
      exact hfile
  | cons m ms ih =>
      obtain ⟨c, hm, hinner⟩ := Directory.exists_child?_of_lookup? hfile
      obtain ⟨hname, hc⟩ := hplain.of_child? hm
      have hlookup : t.top.lookup? at_ m = some (.dir c) := by
        rw [Directory.lookup?, hd]
        exact hm
      have hleads := ih hc hinner (Directory.descend?_concat_eq_some_iff.mpr hlookup)
      rw [List.append_assoc] at hleads
      exact .into (hname.passes _) hlookup hleads

/-- Names that lead to the directory or to a link lead on when the names of the file take the
place of empty names at their end. -/
theorem Leads.onward {tail : List Points} (htail : ∀ m ∈ tail, m = []) {ns at_ : List Points}
    {s : Stretch} (hs : Leads t .look at_ (ns ++ tail) s)
    (hend : ∀ p, s = .arrived p → ∃ found, p = .taken found (.dir d)) :
    ∃ s', s.Onward tail (directories ++ [name]) bytes s' ∧
      Leads t .look at_ (ns ++ (directories ++ [name])) s' := by
  induction ns generalizing at_ with
  | nil =>
      obtain ⟨d', hd, rfl⟩ := eq_of_leads_empty htail hs
      obtain ⟨found, hdir⟩ := hend _ rfl
      obtain ⟨rfl, hsame⟩ := Place.taken.inj hdir
      obtain rfl := Entry.dir.inj hsame
      exact ⟨_, .file, leads_below hplain hfile hd⟩
  | cons m ms ih =>
      rw [List.cons_append] at hs ⊢
      generalize hrest : ms ++ tail = rest at hs
      cases hs with
      | stay hstay hs =>
          obtain ⟨s', honward, hs'⟩ := ih (hrest ▸ hs)
          exact ⟨s', honward, .stay hstay hs'⟩
      | up hs =>
          obtain ⟨s', honward, hs'⟩ := ih (hrest ▸ hs)
          exact ⟨s', honward, .up hs'⟩
      | free => obtain ⟨found, hdir⟩ := hend _ rfl; cases hdir
      | file => obtain ⟨found, hdir⟩ := hend _ rfl; cases hdir
      | into hm hfound hs =>
          obtain ⟨s', honward, hs'⟩ := ih (hrest ▸ hs)
          exact ⟨s', honward, .into (hm.look _) hfound hs'⟩
      | entry _ hlook => cases hlook
      | link hm _ hlink =>
          subst hrest
          exact ⟨_, .link, .link (hm.look _) (fun hentry => absurd hentry.2 (by decide)) hlink⟩

/-- Names that lead to the directory lead on to the file, through as many links. -/
theorem Reaches.onward {tail : List Points} (htail : ∀ m ∈ tail, m = []) {links : Nat}
    {ns at_ found : List Points}
    (hreaches : Reaches t .look links at_ (ns ++ tail) (.taken found (.dir d))) :
    Reaches t .look links at_ (ns ++ (directories ++ [name]))
      (.taken (found ++ (directories ++ [name])) (.file bytes)) := by
  generalize hnames : ns ++ tail = names at hreaches
  generalize hplace : Place.taken found (.dir d) = place at hreaches
  induction hreaches generalizing ns tail with
  | arrive hs =>
      subst hnames hplace
      obtain ⟨s', honward, hs'⟩ := hs.onward hplain hfile htail fun p hp =>
        ⟨found, (Stretch.arrived.inj hp).symm⟩
      cases honward
      exact .arrive hs'
  | @link _ _ _ _ _ target _ hs _ ih =>
      subst hnames
      obtain ⟨s', honward, hs'⟩ := hs.onward hplain hfile htail fun p hp => nomatch hp
      cases honward with
      | @link _ ms _ =>
          obtain ⟨tail', htail', hrest⟩ := exists_linkNames_append target ms htail
          have hreaches := ih htail' hrest.symm hplace
          have hconcat := linkNames_concat target (ms ++ directories) name
          rw [List.append_assoc, ← List.append_assoc _ ms, List.append_assoc _ directories]
            at hconcat
          exact .link hs' (hconcat ▸ hreaches)

end FileTree

/-! ## Paths with names behind them -/

namespace Path

theorem mem_written_of_mem_names {p : Path} {n : Points} {c : Point} (hn : n ∈ p.names)
    (hc : c ∈ n) : c ∈ p.written := by
  have hjoin : c ∈ Text.join [slash] p.names := Text.mem_join_of_mem hn hc
  unfold written
  split
  · exact List.mem_cons_of_mem _ hjoin
  · rw [if_neg (List.ne_nil_of_mem hn)]
    exact hjoin

theorem mem_written {p : Path} {c : Point} (hc : c ∈ p.written) :
    c = slash ∨ c = .char '.' ∨ ∃ n ∈ p.names, c ∈ n := by
  have hjoin : c ∈ Text.join [slash] p.names → c = slash ∨ ∃ n ∈ p.names, c ∈ n := fun hmem =>
    (Text.mem_join hmem).imp_left List.mem_singleton.mp
  unfold written at hc
  split at hc
  · rcases List.mem_cons.mp hc with hslash | hmem
    · exact Or.inl hslash
    · exact (hjoin hmem).imp_right Or.inr
  · split at hc
    · exact Or.inr (Or.inl (List.mem_singleton.mp hc))
    · exact (hjoin hc).imp_right Or.inr

end Path

namespace FileTree

/-- A path with names of entries behind it has no null character. -/
theorem allows_append_iff {p : Path} {f : List Points} (hp : Allows p)
    (hf : ∀ n ∈ f, IsEntryName n) :
    Allows (p.append ⟨false, f⟩) ↔
    (p.append ⟨false, f⟩).written.toBytes.length ≤ maxPathBytes := by
  refine and_iff_right (Bool.eq_false_iff.mpr fun hnull => ?_)
  have hnames : (p.append ⟨false, f⟩).names = p.names ++ f := rfl
  rcases Path.mem_written (List.contains_iff_mem.mp hnull) with hslash | hdot | ⟨n, hn, hc⟩
  · exact absurd hslash (by decide)
  · exact absurd hdot (by decide)
  · rw [hnames, List.mem_append] at hn
    rcases hn with hn | hn
    · have hcontains := List.contains_iff_mem.mpr (Path.mem_written_of_mem_names hn hc)
      exact absurd (hp.1.symm.trans hcontains) Bool.false_ne_true
    · exact (hf n hn).no_null hc

theorem find_eq_ok_iff {t : FileTree} {p : Path} {e : Entry} :
    t.find p = .ok e ↔ ∃ found, t.locate p .look = .ok (.taken found e) := by
  rw [find]
  cases t.locate p .look with
  | error cause => simp [bind, Except.bind]
  | ok place =>
      cases place with
      | free directory name => simp [bind, Except.bind]
      | taken found e => simp [bind, Except.bind]

/-- Behind a path to a directory without links, the names of a file in it lead to that file,
unless the path gets too long; then they lead nowhere. -/
theorem find_append_eq_ok_iff {t : FileTree} {root : Path} {d : Directory}
    (hroot : t.find root = .ok (.dir d)) (hplain : Entry.LinkFree (.dir d))
    {directories : List Points} {name : Points} {bytes : List UInt8}
    (hholds : (Entry.dir d).Holds (directories ++ [name]) bytes) {e : Entry} :
    t.find (root.append ⟨false, directories ++ [name]⟩) = .ok e ↔
      e = .file bytes ∧
        (root.append ⟨false, directories ++ [name]⟩).written.toBytes.length ≤ maxPathBytes := by
  obtain ⟨found, hlocate⟩ := find_eq_ok_iff.mp hroot
  obtain ⟨hallows, hreaches⟩ := locate_eq_ok_iff.mp hlocate
  have hfile := hplain.lookup?_of_holds hholds
  have hnil : ∀ m ∈ ([] : List Points), m = [] := List.forall_mem_nil _
  rw [← List.append_nil root.names] at hreaches
  have honward := hreaches.onward hplain hfile hnil
  have hbelow := allows_append_iff hallows (hplain.isEntryName hfile)
  constructor
  · intro he
    obtain ⟨found', hlocate'⟩ := find_eq_ok_iff.mp he
    obtain ⟨hallows', hreaches'⟩ := locate_eq_ok_iff.mp hlocate'
    exact ⟨(Place.taken.inj (hreaches'.unique honward)).2, hbelow.mp hallows'⟩
  · rintro ⟨rfl, hshort⟩
    exact find_eq_ok_iff.mpr ⟨_, locate_eq_ok_iff.mpr ⟨hbelow.mpr hshort, honward⟩⟩

end FileTree

end SymbolGraph
