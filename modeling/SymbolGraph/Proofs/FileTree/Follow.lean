import SymbolGraph.FileTree.Basic
set_option autoImplicit false

/-!
# Where paths lead

Following a path is told by two relations. `Leads` says how far names lead without a link, one
rule for each sort of name and of what is found under it; `Reaches` puts such stretches
together, with a link between two of them. Both say what the functions compute when they come to
an end (`stretch_eq_ok_iff`, `follow_eq_ok_iff`), so that what holds of paths is shown by
induction over the rules.

A path that leads to a file leads to a directory when its last name is left out
(`Reaches.above`), and leads to the same file when the file is to be written (`Reaches.write`).
-/

namespace SymbolGraph

/-- The entry under a name in the directory that names lead to, none of them a link. -/
def Directory.lookup? (at_ : List Points) (n : Points) (d : Directory) : Option Entry :=
  (d.descend? at_).bind (Directory.child? n)

/-- The name is one to be looked up, is not too long, and may stand before the rest. -/
structure Aim.Passes (aim : Aim) (n : Points) (rest : List Points) : Prop where
  ne_nil : n ≠ []
  ne_here : n ≠ Path.here
  ne_up : n ≠ Path.up
  before : ¬ (aim = .write ∧ rest = [[]])
  short : n.toBytes.length ≤ maxNameBytes

/-- The tests that a name which passes goes through on its way. -/
theorem Aim.Passes.tests {aim : Aim} {n : Points} {rest : List Points}
    (hpasses : aim.Passes n rest) :
    (n = [] || n = Path.here) = false ∧ (n = Path.up) = False ∧
      (aim = .write && rest = [[]]) = false ∧ (maxNameBytes < n.toBytes.length) = False := by
  refine ⟨?_, eq_false hpasses.ne_up, ?_, eq_false (Nat.not_lt.mpr hpasses.short)⟩
  · simp [hpasses.ne_nil, hpasses.ne_here]
  · simpa using hpasses.before

/-- How far names lead from a directory without a link. -/
inductive FileTree.Leads (t : FileTree) (aim : Aim) : List Points → List Points → Stretch → Prop
  | arrive {at_ : List Points} {d : Directory} : t.top.descend? at_ = some d →
      Leads t aim at_ [] (.arrived (.taken at_ (.dir d)))
  | stay {at_ rest : List Points} {n : Points} {s : Stretch} : n = [] ∨ n = Path.here →
      Leads t aim at_ rest s → Leads t aim at_ (n :: rest) s
  | up {at_ rest : List Points} {s : Stretch} :
      Leads t aim at_.dropLast rest s → Leads t aim at_ (Path.up :: rest) s
  | free {at_ : List Points} {n : Points} : aim.Passes n [] → t.top.lookup? at_ n = none →
      Leads t aim at_ [n] (.arrived (.free at_ n))
  | file {at_ : List Points} {n : Points} {bytes : List UInt8} : aim.Passes n [] →
      t.top.lookup? at_ n = some (.file bytes) →
      Leads t aim at_ [n] (.arrived (.taken (at_ ++ [n]) (.file bytes)))
  | into {at_ rest : List Points} {n : Points} {d : Directory} {s : Stretch} :
      aim.Passes n rest →
      t.top.lookup? at_ n = some (.dir d) → Leads t aim (at_ ++ [n]) rest s →
      Leads t aim at_ (n :: rest) s
  | entry {at_ : List Points} {n target : Points} : aim.Passes n [] → aim = .entry →
      t.top.lookup? at_ n = some (.link target) →
      Leads t aim at_ [n] (.arrived (.taken (at_ ++ [n]) (.link target)))
  | link {at_ rest : List Points} {n target : Points} : aim.Passes n rest →
      ¬ (rest = [] ∧ aim = .entry) →
      t.top.lookup? at_ n = some (.link target) →
        Leads t aim at_ (n :: rest) (.link at_ target rest)

namespace FileTree

variable {t : FileTree} {aim : Aim}

theorem leads_of_stretch {at_ names : List Points} {s : Stretch}
    (hs : t.stretch aim at_ names = .ok s) : Leads t aim at_ names s := by
  induction names generalizing at_ with
  | nil =>
      rw [stretch] at hs
      split at hs
      · next d hd =>
        cases hs
        exact .arrive hd
      · cases hs
  | cons n rest ih =>
      rw [stretch] at hs
      split at hs
      · next hstay => exact .stay (by simpa using hstay) (ih hs)
      · next hstay =>
        split at hs
        · next hup =>
          subst hup
          exact .up (ih hs)
        · next hup =>
          split at hs
          · cases hs
          · next hbefore =>
            split at hs
            · cases hs
            · next hshort =>
              simp only [Bool.or_eq_true, decide_eq_true_eq, not_or] at hstay
              have hpasses : aim.Passes n rest :=
                ⟨hstay.1, hstay.2, hup, by simpa using hbefore, Nat.le_of_not_lt hshort⟩
              split at hs
              · next hnone =>
                split at hs
                · next hrest =>
                  subst hrest
                  cases hs
                  exact .free hpasses hnone
                · cases hs
              · next d hdir => exact .into hpasses hdir (ih hs)
              · next bytes hfile =>
                split at hs
                · next hrest =>
                  subst hrest
                  cases hs
                  exact .file hpasses hfile
                · cases hs
              · next target hlink =>
                split at hs
                · next hentry =>
                  simp only [Bool.and_eq_true, decide_eq_true_eq] at hentry
                  obtain ⟨rfl, haim⟩ := hentry
                  cases hs
                  exact .entry hpasses haim hlink
                · next hentry =>
                  cases hs
                  exact .link hpasses (by simpa using hentry) hlink

theorem stretch_of_leads {at_ names : List Points} {s : Stretch}
    (hs : Leads t aim at_ names s) : t.stretch aim at_ names = .ok s := by
  induction hs with
  | arrive hd => rw [stretch, hd]
  | stay hstay _ ih =>
      rw [stretch, if_pos (by simpa using hstay)]
      exact ih
  | up _ ih =>
      rw [stretch, if_neg (by decide), if_pos rfl]
      exact ih
  | free hpasses hnone =>
      obtain ⟨hstay, hup, hbefore, hlong⟩ := hpasses.tests
      unfold Directory.lookup? at hnone
      simp only [stretch, hstay, hup, hbefore, hlong, hnone]
      rfl
  | file hpasses hfile =>
      obtain ⟨hstay, hup, hbefore, hlong⟩ := hpasses.tests
      unfold Directory.lookup? at hfile
      simp only [stretch, hstay, hup, hbefore, hlong, hfile]
      rfl
  | into hpasses hdir _ ih =>
      obtain ⟨hstay, hup, hbefore, hlong⟩ := hpasses.tests
      unfold Directory.lookup? at hdir
      simp only [stretch, hstay, hup, hbefore, hlong, hdir]
      exact ih
  | entry hpasses haim hlink =>
      obtain ⟨hstay, hup, -, hlong⟩ := hpasses.tests
      unfold Directory.lookup? at hlink
      simp only [stretch, hstay, hup, hlong, hlink, haim]
      rfl
  | @link at_ rest n target hpasses hrest hlink =>
      obtain ⟨hstay, hup, hbefore, hlong⟩ := hpasses.tests
      have hgo : (rest = [] && aim = .entry) = false := by simpa using hrest
      unfold Directory.lookup? at hlink
      simp only [stretch, hstay, hup, hbefore, hlong, hlink, hgo]
      rfl

theorem stretch_eq_ok_iff {at_ names : List Points} {s : Stretch} :
    t.stretch aim at_ names = .ok s ↔ Leads t aim at_ names s :=
  ⟨leads_of_stretch, stretch_of_leads⟩

end FileTree

/-! ## Through links -/

/-- Where the names of a link are followed from. -/
def linkStart (target : Points) (at_ : List Points) : List Points :=
  if target.head? = some Path.slash then [] else at_

/-- Where names lead from a directory, through at most a number of links. -/
inductive FileTree.Reaches (t : FileTree) (aim : Aim) :
    Nat → List Points → List Points → Place → Prop
  | arrive {links : Nat} {at_ names : List Points} {p : Place} :
      Leads t aim at_ names (.arrived p) → Reaches t aim links at_ names p
  | link {links : Nat} {at_ names there rest : List Points} {target : Points} {p : Place} :
      Leads t aim at_ names (.link there target rest) →
      Reaches t aim links (linkStart target there) (linkNames target rest) p →
      Reaches t aim (links + 1) at_ names p

namespace FileTree

variable {t : FileTree} {aim : Aim}

theorem follow_eq_ok_iff {links : Nat} {at_ names : List Points} {p : Place} :
    t.follow aim links at_ names = .ok p ↔ Reaches t aim links at_ names p := by
  constructor
  · intro hp
    induction links generalizing at_ names with
    | zero =>
        rw [follow] at hp
        split at hp
        · cases hp
        · next p' hs =>
          cases hp
          exact .arrive (stretch_eq_ok_iff.mp hs)
        · cases hp
    | succ links ih =>
        rw [follow] at hp
        split at hp
        · cases hp
        · next p' hs =>
          cases hp
          exact .arrive (stretch_eq_ok_iff.mp hs)
        · next there target rest hs => exact .link (stretch_eq_ok_iff.mp hs) (ih hp)
  · intro hp
    induction hp with
    | arrive hs => rw [follow, stretch_eq_ok_iff.mpr hs]
    | link hs _ ih =>
        rw [follow, stretch_eq_ok_iff.mpr hs]
        exact ih

/-- Names lead to one place. -/
theorem Reaches.unique {links : Nat} {at_ names : List Points} {p p' : Place}
    (hp : Reaches t aim links at_ names p) (hp' : Reaches t aim links at_ names p') :
    p = p' := by
  rw [← follow_eq_ok_iff] at hp hp'
  exact Except.ok.inj (hp.symm.trans hp')

/-- A file that is reached is found under the last of the names that lead to it. -/
theorem Reaches.exists_lookup? {links : Nat} {at_ names found : List Points}
    {bytes : List UInt8}
    (hreaches : Reaches t aim links at_ names (.taken found (.file bytes))) :
    ∃ directory name, found = directory ++ [name] ∧
    t.top.lookup? directory name = some (.file bytes) := by
  have hleads : ∀ {at_ names : List Points} {s : Stretch}, Leads t aim at_ names s →
      s = .arrived (.taken found (.file bytes)) →
      ∃ directory name, found = directory ++ [name] ∧
        t.top.lookup? directory name = some (.file bytes) := by
    intro at_ names s hs heq
    induction hs with
    | arrive => cases heq
    | stay _ _ ih => exact ih heq
    | up _ ih => exact ih heq
    | free => cases heq
    | file _ hfile =>
        cases heq
        exact ⟨_, _, rfl, hfile⟩
    | into _ _ _ ih => exact ih heq
    | entry => cases heq
    | link => cases heq
  generalize hplace : Place.taken found (.file bytes) = place at hreaches
  induction hreaches with
  | arrive hs => exact hleads hs (by rw [hplace])
  | link _ _ ih => exact ih hplace

/-! ## Without the last name -/

/-- Empty names behind a directory lead to the directory. -/
theorem leads_empty {at_ tail : List Points} {d : Directory} (hd : t.top.descend? at_ = some d)
    (htail : ∀ n ∈ tail, n = []) : Leads t aim at_ tail (.arrived (.taken at_ (.dir d))) := by
  induction tail with
  | nil => exact .arrive hd
  | cons n tail ih =>
      obtain ⟨hn, htail⟩ := List.forall_mem_cons.mp htail
      exact .stay (Or.inl hn) (ih htail)

theorem exists_descend? {at_ : List Points} {n : Points} {e : Entry} {top : Directory}
    (he : top.lookup? at_ n = some e) : ∃ d, top.descend? at_ = some d := by
  obtain ⟨d, hd, -⟩ := Option.bind_eq_some_iff.mp he
  exact ⟨d, hd⟩

/-- What is left of a way to a file when empty names take the place of its last name: the names
lead to a directory, or to the link that the way goes through. -/
def LeadsAbove (t : FileTree) (aim : Aim) (n : Points) (tail : List Points) (s : Stretch)
    (at_ names : List Points) : Prop :=
  (∃ found d, Leads t aim at_ names (.arrived (.taken found (.dir d)))) ∨
  ∃ there target ms, s = .link there target (ms ++ [n]) ∧
    (Leads t aim at_ names (.link there target (ms ++ tail)) ∨
      aim = .entry ∧ ∃ found, Leads t aim at_ names (.arrived (.taken found (.link target))))

theorem LeadsAbove.cons {n m : Points} {tail at_ there names : List Points} {s : Stretch}
    (habove : LeadsAbove t aim n tail s there names)
    (hstep : ∀ {s'}, Leads t aim there names s' → Leads t aim at_ (m :: names) s') :
    LeadsAbove t aim n tail s at_ (m :: names) := by
  rcases habove with ⟨found, d, hdir⟩ | ⟨there, target, ms, heq, hlink | ⟨hentry, found, hlink⟩⟩
  · exact Or.inl ⟨found, d, hstep hdir⟩
  · exact Or.inr ⟨there, target, ms, heq, Or.inl (hstep hlink)⟩
  · exact Or.inr ⟨there, target, ms, heq, Or.inr ⟨hentry, found, hstep hlink⟩⟩

theorem Leads.above (haim : aim ≠ .write) {tail : List Points} (htail : ∀ m ∈ tail, m = [])
    {ns at_ : List Points} {n : Points} {s : Stretch} (hs : Leads t .look at_ (ns ++ [n]) s)
    (hdir : ∀ found d, s ≠ .arrived (.taken found (.dir d)))
    (hfree : ∀ directory name, s ≠ .arrived (.free directory name)) :
    LeadsAbove t aim n tail s at_ (ns ++ tail) := by
  have hpasses : ∀ {m : Points} {rest rest' : List Points}, Aim.look.Passes m rest →
      aim.Passes m rest' :=
    fun hm => ⟨hm.ne_nil, hm.ne_here, hm.ne_up, fun hwrite => haim hwrite.1, hm.short⟩
  induction ns generalizing at_ with
  | nil =>
      refine Or.inl ?_
      cases hs with
      | stay _ hs => cases hs; exact absurd rfl (hdir _ _)
      | up hs => cases hs; exact absurd rfl (hdir _ _)
      | free => exact absurd rfl (hfree _ _)
      | file _ hfile =>
          obtain ⟨d, hd⟩ := exists_descend? hfile
          exact ⟨at_, d, leads_empty hd htail⟩
      | into _ _ hs => cases hs; exact absurd rfl (hdir _ _)
      | entry _ hlook => cases hlook
      | link _ _ hlink =>
          obtain ⟨d, hd⟩ := exists_descend? hlink
          exact ⟨at_, d, leads_empty hd htail⟩
  | cons m ms ih =>
      rw [List.cons_append] at hs ⊢
      generalize hrest : ms ++ [n] = rest at hs
      cases hs with
      | stay hstay hs => exact (ih (hrest ▸ hs)).cons (.stay hstay)
      | up hs => exact (ih (hrest ▸ hs)).cons .up
      | free => exact absurd rfl (hfree _ _)
      | file => simp at hrest
      | into hm hfound hs => exact (ih (hrest ▸ hs)).cons (.into (hpasses hm) hfound)
      | entry _ hlook => cases hlook
      | link hm _ hlink =>
          refine Or.inr ⟨at_, _, ms, by rw [hrest], ?_⟩
          by_cases hlast : ms ++ tail = [] ∧ aim = .entry
          · refine Or.inr ⟨hlast.2, at_ ++ [m], ?_⟩
            rw [hlast.1]
            exact .entry (hpasses hm) hlast.2 hlink
          · exact Or.inl (.link (hpasses hm) hlast hlink)

/-- The names of a link stand before those that follow it. -/
theorem linkNames_concat (target : Points) (ms : List Points) (n : Points) :
    linkNames target (ms ++ [n]) =
      ((Text.split Path.slash target).filter (· ≠ []) ++ ms) ++ [n] := by
  simp [linkNames]

theorem exists_linkNames_append (target : Points) (ms : List Points) {tail : List Points}
    (htail : ∀ m ∈ tail, m = []) :
    ∃ tail', (∀ m ∈ tail', m = []) ∧
      linkNames target (ms ++ tail) =
        ((Text.split Path.slash target).filter (· ≠ []) ++ ms) ++ tail' := by
  unfold linkNames
  split
  · next hslash =>
    have hnil : ms ++ tail = [] := by simpa using (Bool.and_eq_true_iff.mp hslash).1
    refine ⟨[[]], List.forall_mem_singleton.mpr rfl, ?_⟩
    rw [(List.append_eq_nil_iff.mp hnil).1, List.append_nil]
  · exact ⟨tail, htail, (List.append_assoc _ _ _).symm⟩

/-- Where names lead to a file, those without the last lead to a directory, and to something
that is there if a link at the end is not followed. -/
theorem Reaches.above (haim : aim ≠ .write) {tail : List Points} (htail : ∀ m ∈ tail, m = [])
    {links : Nat} {ns at_ found : List Points} {n : Points} {bytes : List UInt8}
    (hreaches : Reaches t .look links at_ (ns ++ [n]) (.taken found (.file bytes))) :
    ∃ above e, Reaches t aim links at_ (ns ++ tail) (.taken above e) ∧
    (aim = .look → ∃ d, e = .dir d) := by
  generalize hnames : ns ++ [n] = names at hreaches
  generalize hplace : Place.taken found (.file bytes) = place at hreaches
  induction hreaches generalizing ns tail with
  | arrive hs =>
      subst hnames hplace
      rcases hs.above haim htail (fun _ _ => nofun) (fun _ _ => nofun) with
        ⟨above, d, hdir⟩ | ⟨_, _, _, hlink, -⟩
      · exact ⟨above, _, .arrive hdir, fun _ => ⟨d, rfl⟩⟩
      · cases hlink
  | @link _ _ _ _ _ target _ hs _ ih =>
      subst hnames
      rcases hs.above haim htail (fun _ _ => nofun) (fun _ _ => nofun) with
        ⟨above, d, hdir⟩ | ⟨_, _, ms, heq, hlink | ⟨hentry, above, hlink⟩⟩
      · exact ⟨above, _, .arrive hdir, fun _ => ⟨d, rfl⟩⟩
      · obtain ⟨rfl, rfl, rfl⟩ := Stretch.link.inj heq
        obtain ⟨tail', htail', hrest⟩ := exists_linkNames_append target ms htail
        obtain ⟨above, e, hreaches, he⟩ := ih htail' (linkNames_concat target ms n).symm hplace
        exact ⟨above, e, .link hlink (hrest ▸ hreaches), he⟩
      · exact ⟨above, _, .arrive hlink,
          fun hlook => absurd (hentry.symm.trans hlook) (by decide)⟩

/-! ## Writing to a file -/

/-- Looking and writing differ only where names end in an empty one. -/
theorem Leads.write {at_ names : List Points} {s : Stretch} (hs : Leads t .look at_ names s)
    (hlast : names.getLast? ≠ some []) : Leads t .write at_ names s := by
  have hpasses : ∀ {n : Points} {rest : List Points}, Aim.look.Passes n rest →
      (n :: rest).getLast? ≠ some [] → Aim.write.Passes n rest := by
    intro n rest hn hlast
    refine ⟨hn.ne_nil, hn.ne_here, hn.ne_up, ?_, hn.short⟩
    rintro ⟨-, rfl⟩
    exact hlast rfl
  have hrest : ∀ {n : Points} {rest : List Points}, (n :: rest).getLast? ≠ some [] →
      rest.getLast? ≠ some [] := by
    intro n rest hlast hnil
    rw [List.getLast?_cons, hnil] at hlast
    exact hlast rfl
  induction hs with
  | arrive hd => exact .arrive hd
  | stay hstay _ ih => exact .stay hstay (ih (hrest hlast))
  | up _ ih => exact .up (ih (hrest hlast))
  | free hn hnone => exact .free (hpasses hn hlast) hnone
  | file hn hfile => exact .file (hpasses hn hlast) hfile
  | into hn hdir _ ih => exact .into (hpasses hn hlast) hdir (ih (hrest hlast))
  | entry _ hlook => cases hlook
  | link hn _ hlink => exact .link (hpasses hn hlast) (fun h => absurd h.2 (by decide)) hlink

/-- Names that lead to a file lead to the same file when it is to be written. -/
theorem Reaches.write {links : Nat} {at_ names found : List Points} {bytes : List UInt8}
    (hreaches : Reaches t .look links at_ names (.taken found (.file bytes))) :
    Reaches t .write links at_ names (.taken found (.file bytes)) := by
  -- if the names ended in an empty one, they would lead to a directory
  have hlast : ∀ {links : Nat} {at_ names : List Points},
      Reaches t .look links at_ names (.taken found (.file bytes)) →
        names.getLast? ≠ some [] := by
    intro links at_ names hreaches hempty
    obtain ⟨ns, rfl⟩ := List.getLast?_eq_some_iff.mp hempty
    have hlook : Aim.look ≠ .write := by decide
    obtain ⟨above, e, hdir, he⟩ := hreaches.above hlook (List.forall_mem_singleton.mpr rfl)
    obtain ⟨d, rfl⟩ := he rfl
    cases hreaches.unique hdir
  generalize hplace : Place.taken found (.file bytes) = place at hreaches
  induction hreaches with
  | @arrive links _ _ _ hs =>
      subst hplace
      have hreaches : Reaches t .look links _ _ _ := .arrive hs
      exact .arrive (hs.write (hlast hreaches))
  | link hs hrest ih =>
      subst hplace
      exact .link (hs.write (hlast (.link hs hrest))) (ih rfl)

end FileTree

end SymbolGraph
