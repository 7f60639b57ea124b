import SymbolGraph.Proofs.FileTree.Below
set_option autoImplicit false

/-!
# Making directories and files

A directory is made where a name is free, and a file is written where a name is free or a file
is. Neither touches the files and links at other places (`Keeps`), and no directory goes away.
What was written is found by the path that it was written by (`locate_put`): all names on the
way to it lead to directories and links, which are as they were.
-/

namespace SymbolGraph

/-- The entry is no directory. -/
def Entry.IsLeaf : Entry → Prop
  | .dir _ => False
  | _ => True

/-- The entry has nothing in it. -/
def Entry.IsBare : Entry → Prop
  | .dir children => children = []
  | _ => True

/-! ## Putting an entry where no directory is -/

namespace Directory

theorem lookup?_nil (n : Points) (d : Directory) : d.lookup? [] n = d.child? n := rfl

theorem lookup?_cons_eq_none {m : Points} {d : Directory} (hm : ∀ c, d.child? m ≠ some (.dir c))
    (at_ : List Points) (n : Points) : d.lookup? (m :: at_) n = none := by
  rw [lookup?, descend?]
  split
  · next c hc => exact absurd hc (hm c)
  · rfl

theorem lookup?_cons_congr {m : Points} {d d' : Directory} (hm : d.child? m = d'.child? m)
    (at_ : List Points) (n : Points) : d.lookup? (m :: at_) n = d'.lookup? (m :: at_) n := by
  rw [lookup?, lookup?, descend?, descend?, hm]

theorem descend?_cons_congr {m : Points} {d d' : Directory} (hm : d.child? m = d'.child? m)
    (at_ : List Points) : d.descend? (m :: at_) = d'.descend? (m :: at_) := by
  rw [descend?, descend?, hm]

theorem descend?_cons {m : Points} {d c : Directory} (hm : d.child? m = some (.dir c))
    (at_ : List Points) : d.descend? (m :: at_) = c.descend? at_ := by
  rw [descend?, hm]

theorem lookup?_of_isBare {m : Points} {d : Directory} {e : Entry} (hm : d.child? m = some e)
    (he : e.IsBare) (at_ : List Points) (n : Points) : d.lookup? (m :: at_) n = none := by
  cases e with
  | dir c =>
      obtain rfl : c = [] := he
      rw [lookup?_cons hm]
      cases at_ <;> rfl
  | file =>
      refine lookup?_cons_eq_none (fun c hc => ?_) at_ n
      cases Option.some.inj (hm.symm.trans hc)
  | link =>
      refine lookup?_cons_eq_none (fun c hc => ?_) at_ n
      cases Option.some.inj (hm.symm.trans hc)

theorem putAt_cons_eq_self {k : Points} {d : Directory} (hk : ∀ c, d.child? k ≠ some (.dir c))
    (name : Points) (e : Entry) (ks : List Points) : d.putAt name e (k :: ks) = d := by
  rw [putAt]
  split
  · next c hc => exact absurd hc (hk c)
  · rfl

theorem child?_put_self (name : Points) (e : Entry) (d : Directory) :
    (d.put name e).child? name = some e :=
  (child?_put name name e d).trans (if_pos rfl)

theorem child?_put_of_ne {name n : Points} (hn : n ≠ name) (e : Entry) (d : Directory) :
    (d.put name e).child? n = d.child? n :=
  (child?_put name n e d).trans (if_neg hn)

/-- What is put into a directory that is there is found there. -/
theorem lookup?_putAt_of_descend? {directory : List Points} {name : Points} {d c : Directory}
    (hd : d.descend? directory = some c) (e : Entry) :
    (d.putAt name e directory).lookup? directory name = some e := by
  induction directory generalizing d with
  | nil => exact child?_put_self name e d
  | cons k ks ih =>
      rw [descend?] at hd
      split at hd
      · next c' hk =>
        rw [putAt_cons hk, lookup?_cons (child?_put_self k _ d)]
        exact ih hd
      · cases hd

/-- Nothing is put into a directory that is not there. -/
theorem putAt_of_descend?_eq_none {directory : List Points} {d : Directory}
    (hd : d.descend? directory = none) (name : Points) (e : Entry) :
    (d.putAt name e directory).lookup? directory name = none := by
  induction directory generalizing d with
  | nil => cases hd
  | cons k ks ih =>
      by_cases hk : ∃ c, d.child? k = some (.dir c)
      · obtain ⟨c, hk⟩ := hk
        rw [descend?_cons hk] at hd
        rw [putAt_cons hk, lookup?_cons (child?_put_self k _ d)]
        exact ih hd
      · rw [not_exists] at hk
        rw [putAt_cons_eq_self hk, lookup?_cons_eq_none hk]

section

variable {directory : List Points} {name : Points} {d : Directory}
  (hold : ∀ c, d.lookup? directory name ≠ some (.dir c))
include hold

/-- The files and links at other places stay, and no others are there. -/
theorem lookup?_putAt_leaf {at_ : List Points} {n : Points} {e x : Entry} (he : e.IsBare)
    (hx : x.IsLeaf) (hother : at_ ++ [n] ≠ directory ++ [name]) :
    (d.putAt name e directory).lookup? at_ n = some x ↔ d.lookup? at_ n = some x := by
  induction directory generalizing d at_ with
  | nil =>
      rw [putAt]
      cases at_ with
      | nil =>
          have hn : n ≠ name := fun hn => hother (by rw [hn])
          rw [lookup?_nil, lookup?_nil, child?_put_of_ne hn]
      | cons m ms =>
          by_cases hm : m = name
          · subst hm
            rw [lookup?_of_isBare (child?_put_self m e d) he, lookup?_cons_eq_none hold]
          · rw [lookup?_cons_congr (child?_put_of_ne hm e d)]
  | cons k ks ih =>
      by_cases hk : ∃ c, d.child? k = some (.dir c)
      · obtain ⟨c, hk⟩ := hk
        rw [putAt_cons hk]
        have hinner : ∀ c', lookup? ks name c ≠ some (.dir c') :=
          fun c' => lookup?_cons hk ks name ▸ hold c'
        cases at_ with
        | nil =>
            by_cases hn : n = k
            · -- a directory was and is there
              subst hn
              refine iff_of_false (fun hafter => ?_) (fun hbefore => ?_)
              · rw [← Option.some.inj ((child?_put_self n _ d).symm.trans hafter)] at hx
                exact hx
              · rw [← Option.some.inj (hk.symm.trans hbefore)] at hx
                exact hx
            · rw [lookup?_nil, lookup?_nil, child?_put_of_ne hn]
        | cons m ms =>
            by_cases hm : m = k
            · subst hm
              rw [lookup?_cons (child?_put_self m _ d), lookup?_cons hk]
              exact ih hinner fun heq => hother (congrArg (m :: ·) heq)
            · rw [lookup?_cons_congr (child?_put_of_ne hm _ d)]
      · rw [putAt_cons_eq_self (not_exists.mp hk)]

/-- The directories stay. -/
theorem exists_descend?_putAt {at_ : List Points} {c : Directory}
    (hat : d.descend? at_ = some c) (e : Entry) :
    ∃ c', (d.putAt name e directory).descend? at_ = some c' := by
  induction directory generalizing d at_ with
  | nil =>
      cases at_ with
      | nil => exact ⟨_, rfl⟩
      | cons m ms =>
          have hm : m ≠ name := by
            rintro rfl
            rw [descend?] at hat
            split at hat
            · next c hm => exact hold c hm
            · cases hat
          exact ⟨c, (descend?_cons_congr (child?_put_of_ne hm e d) ms).trans hat⟩
  | cons k ks ih =>
      by_cases hk : ∃ c, d.child? k = some (.dir c)
      · obtain ⟨c', hk⟩ := hk
        rw [putAt_cons hk]
        cases at_ with
        | nil => exact ⟨_, rfl⟩
        | cons m ms =>
            by_cases hm : m = k
            · subst hm
              rw [descend?_cons (child?_put_self m _ d)]
              rw [descend?_cons hk] at hat
              exact ih (fun c => lookup?_cons hk ks name ▸ hold c) hat
            · exact ⟨c, (descend?_cons_congr (child?_put_of_ne hm _ d) ms).trans hat⟩
      · rw [putAt_cons_eq_self (not_exists.mp hk)]
        exact ⟨c, hat⟩

end

theorem exists_descend?_dropLast {at_ : List Points} {d c : Directory}
    (hat : d.descend? at_ = some c) : ∃ c', d.descend? at_.dropLast = some c' := by
  rcases List.eq_nil_or_concat at_ with rfl | ⟨ns, n, rfl⟩
  · exact ⟨c, hat⟩
  · rw [List.concat_eq_append] at hat
    rw [List.concat_eq_append, List.dropLast_concat]
    exact FileTree.exists_descend? (descend?_concat_eq_some_iff.mp hat)

end Directory

/-! ## What a change keeps -/

/-- One tree has the directories of another and, but for the places that were written, its files
and links and no others. -/
structure FileTree.Keeps (t t' : FileTree) (written : List (List Points)) : Prop where
  cwd : t'.cwd = t.cwd
  directories : ∀ {names : List Points} {d : Directory}, t.top.descend? names = some d →
    ∃ d', t'.top.descend? names = some d'
  leaves : ∀ {directory : List Points} {name : Points} {e : Entry}, e.IsLeaf →
    directory ++ [name] ∉ written →
    (t'.top.lookup? directory name = some e ↔ t.top.lookup? directory name = some e)

namespace FileTree

variable {t t' : FileTree} {aim : Aim}

namespace Keeps

theorem refl (t : FileTree) : t.Keeps t [] := ⟨rfl, fun hd => ⟨_, hd⟩, fun _ _ => Iff.rfl⟩

theorem trans {t'' : FileTree} {written : List (List Points)} (h : t.Keeps t' written)
    (h' : t'.Keeps t'' written) : t.Keeps t'' written where
  cwd := h'.cwd.trans h.cwd
  directories hd := by
    obtain ⟨d', hd'⟩ := h.directories hd
    exact h'.directories hd'
  leaves he hother := (h'.leaves he hother).trans (h.leaves he hother)

/-- The working directory is still there. -/
theorem exists_cwd {written : List (List Points)} (h : t.Keeps t' written)
    (hcwd : ∃ d, t.top.descend? t.cwd = some d) : ∃ d, t'.top.descend? t'.cwd = some d := by
  obtain ⟨d, hd⟩ := hcwd
  rw [h.cwd]
  exact h.directories hd

theorem mono {written : List (List Points)} (h : t.Keeps t' []) : t.Keeps t' written :=
  ⟨h.cwd, h.directories, fun he _ => h.leaves he List.not_mem_nil⟩

end Keeps

theorem keeps_put {directory : List Points} {name : Points} {e : Entry} (he : e.IsBare)
    (hold : ∀ c, t.top.lookup? directory name ≠ some (.dir c)) :
    t.Keeps (t.put directory name e) [directory ++ [name]] where
  cwd := rfl
  directories hd := Directory.exists_descend?_putAt hold hd e
  leaves hx hother := Directory.lookup?_putAt_leaf hold he hx fun heq =>
    hother (List.mem_singleton.mpr heq)

/-- A file in a place that is free or has a file touches no other. -/
theorem keeps_put_file {directory : List Points} {name : Points} (new : List UInt8)
    (hold : ∀ e, t.top.lookup? directory name = some e → ∃ old, e = .file old) :
    t.Keeps (t.put directory name (.file new)) [directory ++ [name]] := by
  refine keeps_put trivial fun c hc => ?_
  obtain ⟨old, hfile⟩ := hold _ hc
  cases hfile

/-- An empty directory in a free place is no file. -/
theorem keeps_put_directory {directory : List Points} {name : Points}
    (hfree : t.top.lookup? directory name = none) :
    t.Keeps (t.put directory name (.dir [])) [] := by
  have hkeeps : t.Keeps (t.put directory name (.dir [])) [directory ++ [name]] :=
    keeps_put rfl fun c hc => Option.some_ne_none _ (hc.symm.trans hfree)
  refine ⟨rfl, hkeeps.directories, fun {at_ n x} hx _ => ?_⟩
  by_cases hplace : at_ ++ [n] = directory ++ [name]
  · rw [Directory.lookup?_of_place_eq hplace, Directory.lookup?_of_place_eq hplace, hfree]
    refine iff_of_false (fun hafter => ?_) nofun
    cases hd : t.top.descend? directory with
    | none => cases (Directory.putAt_of_descend?_eq_none hd name (.dir [])).symm.trans hafter
    | some c =>
        rw [← Option.some.inj
          ((Directory.lookup?_putAt_of_descend? hd (.dir [])).symm.trans hafter)] at hx
        exact hx
  · exact hkeeps.leaves hx (fun hmem => hplace (List.mem_singleton.mp hmem))

theorem Leads.exists_there {at_ names there rest : List Points} {target : Points}
    (hs : Leads t aim at_ names (.link there target rest)) :
    ∃ d, t.top.descend? there = some d := by
  generalize hlink : Stretch.link there target rest = s at hs
  induction hs with
  | arrive => cases hlink
  | stay _ _ ih => exact ih hlink
  | up _ ih => exact ih hlink
  | free => cases hlink
  | file => cases hlink
  | into _ _ _ ih => exact ih hlink
  | entry => cases hlink
  | link _ _ hfound =>
      cases hlink
      exact exists_descend? hfound

/-! ## Making directories -/

/-- Nothing is in a place that is free. -/
theorem Reaches.lookup?_of_free {links : Nat} {at_ names directory : List Points}
    {name : Points} (hreaches : Reaches t aim links at_ names (.free directory name)) :
    t.top.lookup? directory name = none := by
  have hleads : ∀ {at_ names : List Points} {s : Stretch}, Leads t aim at_ names s →
      s = .arrived (.free directory name) → t.top.lookup? directory name = none := by
    intro at_ names s hs heq
    induction hs with
    | arrive => cases heq
    | stay _ _ ih => exact ih heq
    | up _ ih => exact ih heq
    | free _ hnone =>
        cases heq
        exact hnone
    | file => cases heq
    | into _ _ _ ih => exact ih heq
    | entry => cases heq
    | link => cases heq
  generalize hplace : Place.free directory name = place at hreaches
  induction hreaches with
  | arrive hs => exact hleads hs (by rw [hplace])
  | link _ _ ih => exact ih hplace

theorem makeDirectory_keeps {p : Path} (hmake : t.makeDirectory p = .ok t') :
    t.Keeps t' [] := by
  unfold makeDirectory at hmake
  split at hmake
  · next hfree =>
    obtain rfl := Except.ok.inj hmake
    exact keeps_put_directory (locate_eq_ok_iff.mp hfree).2.lookup?_of_free
  · cases hmake
  · cases hmake

theorem allowExisting_keeps {p : Path} {r : Except PathFault FileTree}
    (hr : ∀ t', r = .ok t' → t.Keeps t' []) : t.Keeps (t.allowExisting p r).1 [] := by
  unfold allowExisting
  split
  · exact hr _ rfl
  · exact .refl t
  · exact .refl t
  · exact .refl t

theorem makeReversed_keeps (absolute : Bool) (names : List Points) :
    t.Keeps (t.makeReversed absolute names).1 [] := by
  induction names with
  | nil => exact allowExisting_keeps fun t' => makeDirectory_keeps
  | cons n above ih =>
      rw [makeReversed]
      split
      · split
        · next t' habove =>
          rw [habove] at ih
          exact ih.trans (allowExisting_keeps fun t' => makeDirectory_keeps)
        · exact ih
      · exact allowExisting_keeps fun t' => makeDirectory_keeps

/-- Making directories, whether it comes to an end or not, touches no file and no link. -/
theorem makeDirectories_keeps (t : FileTree) (p : Path) : t.Keeps (t.makeDirectories p).1 [] :=
  makeReversed_keeps p.absolute p.names.reverse

end FileTree

/-! ## Writing a file -/

theorem Aim.Passes.of_write {n : Points} {rest : List Points} (hn : Aim.write.Passes n rest)
    (aim : Aim) : aim.Passes n rest :=
  ⟨hn.ne_nil, hn.ne_here, hn.ne_up, fun hbefore => hn.before ⟨rfl, hbefore.2⟩, hn.short⟩

/-- What a stretch becomes when a file is written in a place that is free or has a file. -/
inductive Stretch.Filled (directory : List Points) (name : Points) (new : List UInt8) :
    Stretch → Stretch → Prop
  | link {there rest : List Points} {target : Points} :
      Filled directory name new (.link there target rest) (.link there target rest)
  | free : Filled directory name new (.arrived (.free directory name))
      (.arrived (.taken (directory ++ [name]) (.file new)))
  | file {old : List UInt8} :
      Filled directory name new (.arrived (.taken (directory ++ [name]) (.file old)))
      (.arrived (.taken (directory ++ [name]) (.file new)))

namespace FileTree

section

variable {t : FileTree} {aim : Aim} {directory : List Points} {name : Points} {new : List UInt8}
  (hold : ∀ e, t.top.lookup? directory name = some e → ∃ old, e = .file old)
  (haim : aim ≠ .entry)
include hold haim

/-- Names that lead to the place, or to a link, lead there when the file is written. -/
theorem Leads.filled {at_ names : List Points} {s s' : Stretch}
    (hs : Leads t .write at_ names s) (hat : ∃ d, t.top.descend? at_ = some d)
    (hfilled : s.Filled directory name new s') :
    Leads (t.put directory name (.file new)) aim at_ names s' := by
  have hkeeps := keeps_put_file new hold
  induction hs with
  | arrive => cases hfilled
  | stay hstay _ ih => exact .stay hstay (ih hat hfilled)
  | up _ ih =>
      obtain ⟨d, hd⟩ := hat
      exact .up (ih (Directory.exists_descend?_dropLast hd) hfilled)
  | free hn _ =>
      cases hfilled
      obtain ⟨d, hd⟩ := hat
      exact .file (hn.of_write aim) (Directory.lookup?_putAt_of_descend? hd _)
  | @file at_ n _ hn hfile =>
      generalize hplace : at_ ++ [n] = place at hfilled
      cases hfilled
      obtain ⟨rfl, hname⟩ := List.append_inj' hplace rfl
      obtain rfl := List.singleton_inj.mp hname
      obtain ⟨d, hd⟩ := exists_descend? hfile
      exact .file (hn.of_write aim) (Directory.lookup?_putAt_of_descend? hd _)
  | into hn hdir _ ih =>
      have hinner := Directory.descend?_concat_eq_some_iff.mpr hdir
      obtain ⟨d', hd'⟩ := hkeeps.directories hinner
      exact .into (hn.of_write aim) (Directory.descend?_concat_eq_some_iff.mp hd')
        (ih ⟨_, hinner⟩ hfilled)
  | entry _ hentry => cases hentry
  | @link at_ rest n target hn _ hlink =>
      cases hfilled
      have hother : at_ ++ [n] ∉ [directory ++ [name]] := by
        rw [List.mem_singleton]
        intro hplace
        rw [Directory.lookup?_of_place_eq hplace] at hlink
        obtain ⟨old, hold⟩ := hold _ hlink
        cases hold
      have hleaf : (Entry.link target).IsLeaf := trivial
      exact .link (hn.of_write aim) (fun hentry => haim hentry.2)
        ((hkeeps.leaves hleaf hother).mpr hlink)

theorem Reaches.filled {links : Nat} {at_ names : List Points} {place : Place}
    (hreaches : Reaches t .write links at_ names place) (hat : ∃ d, t.top.descend? at_ = some d)
    (hplace : place = .free directory name ∨
      ∃ old, place = .taken (directory ++ [name]) (.file old)) :
    Reaches (t.put directory name (.file new)) aim links at_ names
      (.taken (directory ++ [name]) (.file new)) := by
  induction hreaches with
  | arrive hs =>
      rcases hplace with rfl | ⟨old, rfl⟩
      · exact .arrive (hs.filled hold haim hat .free)
      · exact .arrive (hs.filled hold haim hat .file)
  | @link _ _ _ there _ target _ hs _ ih =>
      refine .link (hs.filled hold haim hat .link) (ih ?_ hplace)
      unfold linkStart
      split
      · exact ⟨t.top, rfl⟩
      · exact hs.exists_there

end

section

variable {t : FileTree} {p : Path} {place : FilePlace}

/-- The place where a file can be written is free or has a file. -/
theorem locate_of_writable (hplace : t.writable p = .ok place) :
    t.locate p .write = .ok (.free place.directory place.name) ∨
      ∃ old, t.locate p .write =
        .ok (.taken (place.directory ++ [place.name]) (.file old)) := by
  unfold writable at hplace
  split at hplace
  · next names old hlocate =>
    obtain ⟨directory, name, rfl, -⟩ := (locate_eq_ok_iff.mp hlocate).2.exists_lookup?
    obtain rfl := Except.ok.inj hplace
    refine Or.inr ⟨old, ?_⟩
    rw [List.dropLast_concat, List.getLast?_concat]
    exact hlocate
  · cases hplace
  · next hlocate =>
    obtain rfl := Except.ok.inj hplace
    exact Or.inl hlocate
  · cases hplace

theorem writable_of_locate {directory : List Points} {name : Points} {old : List UInt8}
    (hlocate : t.locate p .write = .ok (.taken (directory ++ [name]) (.file old))) :
    t.writable p = .ok ⟨directory, name⟩ := by
  simp [writable, hlocate]

variable (hplace : t.writable p = .ok place)
include hplace

theorem lookup?_of_writable {e : Entry}
    (he : t.top.lookup? place.directory place.name = some e) : ∃ old, e = .file old := by
  rcases locate_of_writable hplace with hfree | ⟨old, htaken⟩
  · cases he.symm.trans (locate_eq_ok_iff.mp hfree).2.lookup?_of_free
  · obtain ⟨directory, name, hsame, hfile⟩ := (locate_eq_ok_iff.mp htaken).2.exists_lookup?
    rw [Directory.lookup?_of_place_eq hsame] at he
    exact ⟨old, Option.some.inj (he.symm.trans hfile)⟩

/-- Writing a file touches no other file. -/
theorem Keeps.of_writable (new : List UInt8) :
    t.Keeps (t.put place.directory place.name (.file new)) [place.directory ++ [place.name]] :=
  keeps_put_file new fun _ he => lookup?_of_writable hplace he

/-- The path leads to what was written. -/
theorem locate_put (hcwd : ∃ d, t.top.descend? t.cwd = some d) (new : List UInt8) {aim : Aim}
    (haim : aim ≠ .entry) :
    (t.put place.directory place.name (.file new)).locate p aim =
      .ok (.taken (place.directory ++ [place.name]) (.file new)) := by
  have hstart : ∃ d, t.top.descend? (t.start p) = some d := by
    unfold start
    split
    · exact ⟨t.top, rfl⟩
    · exact hcwd
  have hold := fun e (he : t.top.lookup? place.directory place.name = some e) =>
    lookup?_of_writable hplace he
  rcases locate_of_writable hplace with hlocate | ⟨old, hlocate⟩
  · obtain ⟨hallows, hreaches⟩ := locate_eq_ok_iff.mp hlocate
    exact locate_eq_ok_iff.mpr ⟨hallows, hreaches.filled hold haim hstart (Or.inl rfl)⟩
  · obtain ⟨hallows, hreaches⟩ := locate_eq_ok_iff.mp hlocate
    exact locate_eq_ok_iff.mpr ⟨hallows, hreaches.filled hold haim hstart (Or.inr ⟨old, rfl⟩)⟩

end

end FileTree

end SymbolGraph
