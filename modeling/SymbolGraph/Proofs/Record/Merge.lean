import SymbolGraph.Proofs.Json.Key
import SymbolGraph.Record.Draft
set_option autoImplicit false

/-!
# What is seen first stays

Nodes are put into a draft one after the other, in any order of their identifiers. What a draft
then holds under an identifier is told by the nodes that were put in under it: the identifier
and the kind are those of the first, each of label, path and line is the first that counts,
where a label and a path count when they are not empty and a line when it is there, and each
member of the metadata is the first with its key, whatever its value is. A step only says what
becomes of one node when a second one is put in (`node?_insertRecord`); the run follows by
induction, field by field (`kept_foldl_merge`).
-/

namespace SymbolGraph

open Json

/-! ## Tables of members -/

namespace Metadata

/-- The first value of a key. -/
def valueOf? (k : Json) (m : Metadata) : Option Json := (m.find? (·.1.identical k)).map Prod.snd

/-- No key is there twice. -/
def Distinct (m : Metadata) : Prop := m.Pairwise fun p q => p.1.identical q.1 = false

theorem valueOf?_append (k : Json) (m n : Metadata) :
    valueOf? k (m ++ n) = (valueOf? k m).or (valueOf? k n) := by
  rw [valueOf?, List.find?_append, Option.map_or]
  rfl

theorem valueOf?_eq_none_iff {k : Json} {m : Metadata} :
    valueOf? k m = none ↔ m.hasKey k = false := by
  rw [valueOf?, Option.map_eq_none_iff, List.find?_eq_none, hasKey, List.any_eq_false]

section

variable {k : Json} (hk : k.isKey = true)
include hk

theorem hasKey_congr {l : Json} (hl : l.identical k = true) (m : Metadata) :
    m.hasKey l = m.hasKey k := by
  unfold hasKey
  congr 1
  funext p
  rw [Bool.eq_iff_iff, identical_iff (isKey_of_identical hk hl), identical_iff hk,
    (identical_iff hk).mp hl]

/-- A new member gives its key a value; one whose key is there changes nothing. -/
theorem valueOf?_putNew (m : Metadata) (l v : Json) :
    valueOf? k (if m.hasKey l then m else m ++ [(l, v)]) =
      (valueOf? k m).or (valueOf? k [(l, v)]) := by
  split
  · next hhas =>
    by_cases hl : l.identical k = true
    · have hsome : valueOf? k m ≠ none := by
        intro hnone
        rw [valueOf?_eq_none_iff, ← hasKey_congr hk hl, hhas] at hnone
        cases hnone
      obtain ⟨w, hw⟩ := Option.ne_none_iff_exists'.mp hsome
      rw [hw, Option.some_or]
    · have hnone : valueOf? k [(l, v)] = none := by simp [valueOf?, hl]
      rw [hnone, Option.or_none]
  · exact valueOf?_append k m [(l, v)]

/-- New members give a key the first value among them, if it had none. -/
theorem valueOf?_putAllNew (m pairs : Metadata) :
    valueOf? k (m.putAllNew pairs) = (valueOf? k m).or (valueOf? k pairs) := by
  induction pairs generalizing m with
  | nil => exact Option.or_none.symm
  | cons p pairs ih =>
      rw [putAllNew, List.foldl_cons]
      refine (ih _).trans ?_
      rw [valueOf?_putNew hk, Option.or_assoc, ← valueOf?_append, List.singleton_append]

end

/-- New members have keys that were not there. -/
theorem Distinct.putAllNew {m : Metadata} (hm : m.Distinct) (pairs : Metadata) :
    (m.putAllNew pairs).Distinct := by
  induction pairs generalizing m with
  | nil => exact hm
  | cons p pairs ih =>
      apply ih
      change Distinct (if m.hasKey p.1 then m else m ++ [p])
      split
      · exact hm
      · next hnew =>
        refine List.pairwise_append.mpr ⟨hm, List.pairwise_singleton _ _, ?_⟩
        intro q hq r hr
        rw [List.mem_singleton.mp hr]
        have hall := List.any_eq_false.mp (Bool.not_eq_true _ ▸ hnew)
        exact Bool.not_eq_true _ ▸ hall q hq

end Metadata

/-! ## Several nodes merged -/

namespace NodeRecord

/-- What a field has after merging is the first of its values that is kept, or the last one if
none is. -/
theorem kept_foldl_merge {α : Type} (field : NodeRecord → α) (keep : α → Bool)
    (hmerge : ∀ old new, field (old.merge new) =
      if keep (field old) then field old else field new)
    (n : NodeRecord) (ns : List NodeRecord) :
    (((n :: ns).map field).find? keep).or ((n :: ns).map field).getLast? =
      some (field (ns.foldl merge n)) := by
  induction ns generalizing n with
  | nil => cases hkeep : keep (field n) <;> simp [hkeep]
  | cons m ns ih =>
      have hlater := ih (n.merge m)
      rw [List.foldl_cons, ← hlater]
      cases hkeep : keep (field n) with
      | true => simp [hmerge, hkeep]
      | false => simp [hmerge, hkeep, List.find?_cons, List.getLast?_cons_cons]

theorem valueOf?_foldl_merge {k : Json} (hk : k.isKey = true) (n : NodeRecord)
    (ns : List NodeRecord) :
    Metadata.valueOf? k (ns.foldl merge n).metadata =
      Metadata.valueOf? k ((n :: ns).flatMap metadata) := by
  induction ns generalizing n with
  | nil => simp
  | cons m ns ih =>
      have hmerged := Metadata.valueOf?_putAllNew hk n.metadata m.metadata
      rw [List.foldl_cons, ih, List.flatMap_cons, Metadata.valueOf?_append]
      simp only [merge, hmerged, List.flatMap_cons, Metadata.valueOf?_append, Option.or_assoc]

end NodeRecord

/-- What becomes of a node, if it is there, when another is put in under its identifier. -/
def mergeRecordInto (old : Option NodeRecord) (new : NodeRecord) : Option NodeRecord :=
  some (old.elim new fun old => old.merge new)

theorem foldl_mergeRecordInto (n : NodeRecord) (ns : List NodeRecord) :
    ns.foldl mergeRecordInto (some n) = some (ns.foldl NodeRecord.merge n) := by
  induction ns generalizing n with
  | nil => rfl
  | cons m ns ih => exact ih (n.merge m)

/-! ## One node put in -/

/-- Only the node with the same identifier changes. -/
theorem node?_insertRecord {k : Json} (hk : k.isKey = true) {n : NodeRecord}
    (hn : n.id.isKey = true) (ms : List NodeRecord) :
    (insertRecord n ms).find? (·.id.identical k) =
      if n.id.identical k then mergeRecordInto (ms.find? (·.id.identical k)) n
      else ms.find? (·.id.identical k) := by
  induction ms with
  | nil => by_cases hnk : n.id.identical k = true <;> simp [insertRecord, mergeRecordInto, hnk]
  | cons m ms ih =>
      by_cases hm : m.id.identical n.id = true
      · have hsame : m.id.identical k = n.id.identical k := identical_congr hk hn hm
        have hid : (m.merge n).id = m.id := rfl
        rw [insertRecord, if_pos hm, List.find?_cons, List.find?_cons, hid, hsame]
        by_cases hnk : n.id.identical k = true <;> simp [hnk, mergeRecordInto]
      · rw [insertRecord, if_neg hm, List.find?_cons, List.find?_cons, ih]
        by_cases hmk : m.id.identical k = true
        · have hnk : ¬ n.id.identical k = true := fun hnk => hm (identical_of_common hk hmk hnk)
          simp [hmk, hnk]
        · simp [hmk]

theorem mem_insertRecord {n m : NodeRecord} {ms : List NodeRecord}
    (hm : m ∈ insertRecord n ms) : m ∈ ms ∨ m = n ∨ ∃ old ∈ ms, m = old.merge n := by
  induction ms with
  | nil => exact Or.inr (Or.inl (List.mem_singleton.mp hm))
  | cons l ms ih =>
      rw [insertRecord] at hm
      split at hm
      · rcases List.mem_cons.mp hm with rfl | hm
        · exact Or.inr (Or.inr ⟨l, List.mem_cons_self, rfl⟩)
        · exact Or.inl (List.mem_cons_of_mem l hm)
      · rcases List.mem_cons.mp hm with rfl | hm
        · exact Or.inl List.mem_cons_self
        · rcases ih hm with hm | rfl | ⟨old, hold, rfl⟩
          · exact Or.inl (List.mem_cons_of_mem l hm)
          · exact Or.inr (Or.inl rfl)
          · exact Or.inr (Or.inr ⟨old, List.mem_cons_of_mem l hold, rfl⟩)

/-- No two nodes have one identifier. -/
def DistinctIds (ms : List NodeRecord) :
    Prop := ms.Pairwise fun m n => m.id.identical n.id = false

theorem DistinctIds.insertRecord {ms : List NodeRecord} (hms : DistinctIds ms)
    (n : NodeRecord) : DistinctIds (insertRecord n ms) := by
  induction ms with
  | nil => exact List.pairwise_singleton _ n
  | cons m ms ih =>
      obtain ⟨hfirst, hlater⟩ := List.pairwise_cons.mp hms
      unfold SymbolGraph.insertRecord
      split
      · exact List.pairwise_cons.mpr ⟨hfirst, hlater⟩
      · next hnew =>
        refine List.pairwise_cons.mpr ⟨?_, ih hlater⟩
        intro l hl
        rcases mem_insertRecord hl with hl | rfl | ⟨old, hold, rfl⟩
        · exact hfirst l hl
        · exact Bool.not_eq_true _ ▸ hnew
        · exact hfirst old hold

/-! ## Nodes put in one after the other -/

namespace DraftRecord

/-- A draft after nodes were put in. One whose identifier may not be a key is refused, and the
draft stays as it is. -/
def insertAll (d : DraftRecord) (ns : List NodeRecord) : DraftRecord :=
  ns.foldl (fun d n => (d.insert n).toOption.getD d) d

theorem insertAll_cons (d : DraftRecord) (n : NodeRecord) (ns : List NodeRecord) :
    d.insertAll (n :: ns) = ((d.insert n).toOption.getD d).insertAll ns := rfl

/-- A node that is put in changes the list of nodes, if it may be, and nothing else. -/
theorem toOption_insert (d : DraftRecord) (n : NodeRecord) :
    (d.insert n).toOption.getD d =
      if n.id.isKey then { d with nodes := insertRecord n d.nodes } else d := by
  unfold DraftRecord.insert
  split <;> rfl

section

variable {k : Json} (hk : k.isKey = true)
include hk

theorem node?_insert_getD (d : DraftRecord) (n : NodeRecord) :
    ((d.insert n).toOption.getD d).node? k =
      if n.id.identical k then mergeRecordInto (d.node? k) n else d.node? k := by
  rw [toOption_insert]
  by_cases hn : n.id.isKey = true
  · rw [if_pos hn]
    exact node?_insertRecord hk hn d.nodes
  · have hnk : ¬ n.id.identical k = true := fun hnk => hn (isKey_of_identical hk hnk)
    rw [if_neg hn, if_neg hnk]

/-- What is under an identifier is made of what was put in under it. -/
theorem node?_insertAll (d : DraftRecord) (ns : List NodeRecord) :
    (d.insertAll ns).node? k =
      (ns.filter (·.id.identical k)).foldl mergeRecordInto (d.node? k) := by
  induction ns generalizing d with
  | nil => rfl
  | cons n ns ih =>
      rw [insertAll_cons, ih, node?_insert_getD hk]
      by_cases hnk : n.id.identical k = true <;> simp [hnk]

/-- Where nothing was seen there is nothing, else all that was seen, merged into the first. -/
theorem node?_insertAll_empty (ns : List NodeRecord) :
    (ns.filter (·.id.identical k) = [] ∧ (insertAll {} ns).node? k = none) ∨
    ∃ n later, ns.filter (·.id.identical k) = n :: later ∧
      (insertAll {} ns).node? k = some (later.foldl NodeRecord.merge n) := by
  rw [node?_insertAll hk]
  cases ns.filter (·.id.identical k) with
  | nil => exact Or.inl ⟨rfl, rfl⟩
  | cons n later => exact Or.inr ⟨n, later, rfl, foldl_mergeRecordInto n later⟩

end

/-- What holds of the nodes at first and is kept by putting one in holds of all nodes in the
end. -/
theorem insertAll_induction {P : List NodeRecord → Prop} {d : DraftRecord}
    {ns : List NodeRecord} (start : P d.nodes)
    (step : ∀ n ∈ ns, n.id.isKey = true → ∀ ms, P ms → P (insertRecord n ms)) :
    P (d.insertAll ns).nodes := by
  induction ns generalizing d with
  | nil => exact start
  | cons n ns ih =>
      rw [insertAll_cons]
      refine ih ?_ fun m hm => step m (List.mem_cons_of_mem n hm)
      rw [toOption_insert]
      split
      · next hn => exact step n List.mem_cons_self hn _ start
      · exact start

theorem distinctIds_insertAll (ns : List NodeRecord) : DistinctIds (insertAll {} ns).nodes :=
  insertAll_induction List.Pairwise.nil fun n _ _ _ hms => hms.insertRecord n

theorem isKey_of_mem_insertAll {ns : List NodeRecord} :
    ∀ m ∈ (insertAll {} ns).nodes, m.id.isKey = true := by
  refine insertAll_induction (P := fun ms => ∀ m ∈ ms, m.id.isKey = true)
    (List.forall_mem_nil _) ?_
  intro n _ hn ms hms m hm
  rcases mem_insertRecord hm with hm | rfl | ⟨old, hold, rfl⟩
  · exact hms m hm
  · exact hn
  · exact hms old hold

theorem distinct_metadata_insertAll {ns : List NodeRecord}
    (hns : ∀ n ∈ ns, n.metadata.Distinct) :
    ∀ m ∈ (insertAll {} ns).nodes, m.metadata.Distinct := by
  refine insertAll_induction (P := fun ms => ∀ m ∈ ms, m.metadata.Distinct)
    (List.forall_mem_nil _) ?_
  intro n hn _ ms hms m hm
  rcases mem_insertRecord hm with hm | rfl | ⟨old, hold, rfl⟩
  · exact hms m hm
  · exact hns m hn
  · exact (hms old hold).putAllNew n.metadata

/-- The nodes are what looking up their identifiers gives. -/
theorem mem_insertAll_iff {ns : List NodeRecord} {m : NodeRecord} :
    m ∈ (insertAll {} ns).nodes ↔ m.id.isKey = true ∧
    (insertAll {} ns).node? m.id = some m := by
  refine ⟨fun hm => ?_, fun hm => List.mem_of_find?_eq_some hm.2⟩
  have hkey := isKey_of_mem_insertAll m hm
  refine ⟨hkey, ?_⟩
  obtain ⟨before, after, hnodes⟩ := List.append_of_mem hm
  have hdistinct := distinctIds_insertAll ns
  rw [DistinctIds, hnodes, List.pairwise_append] at hdistinct
  rw [node?, hnodes, List.find?_eq_some_iff_append]
  refine ⟨identical_self hkey, before, after, rfl, fun l hl => ?_⟩
  simp [hdistinct.2.2 l hl m List.mem_cons_self]

/-- The nodes of a draft are put in as their records are. -/
theorem insertAll_record (d : Draft) (ns : List Node) :
    d.record.insertAll (ns.map Node.record) = (ns.foldl Draft.insert d).record := by
  induction ns generalizing d with
  | nil => rfl
  | cons n ns ih =>
      rw [List.map_cons, insertAll_cons, Draft.record_insert]
      exact ih (d.insert n)

/-- Nodes are put into an empty draft, one after the other, with identifiers in any order. Then
the draft has a node for every identifier that was seen and for no other, and none has two. Of
the nodes that were seen with an identifier, the node under it has the identifier and the kind
of the first; the first label and the first path that are not empty, and the last if all are;
the first line that is there; and for every key of the metadata the first value, whatever it is,
with no key twice unless one of them has a key twice. Putting one more node in changes no node
with another identifier. Nodes of a draft whose values are texts are put in in the same way. -/
theorem insertAll_keeps_first (ns : List NodeRecord) :
    let d := insertAll {} ns
    DistinctIds d.nodes ∧
    (∀ m, m ∈ d.nodes ↔ m.id.isKey = true ∧ d.node? m.id = some m) ∧
    (∀ k : Json, k.isKey = true →
      ((d.node? k).isSome = true ↔ ∃ n ∈ ns, n.id.identical k = true)) ∧
    (∀ (k : Json) (m : NodeRecord), k.isKey = true → d.node? k = some m →
      let seen := ns.filter (·.id.identical k)
      seen.head?.map (fun n => (n.id, n.kind)) = some (m.id, m.kind) ∧
      ((seen.map NodeRecord.label).find? truthy).or (seen.map NodeRecord.label).getLast? =
        some m.label ∧
      ((seen.map NodeRecord.filePath).find? truthy).or (seen.map NodeRecord.filePath).getLast? =
        some m.filePath ∧
      ((seen.map NodeRecord.line).find? (· ≠ .null)).or (seen.map NodeRecord.line).getLast? =
        some m.line ∧
      ∀ q : Json, q.isKey = true →
        m.metadata.valueOf? q = Metadata.valueOf? q (seen.flatMap NodeRecord.metadata)) ∧
    ((∀ n ∈ ns, n.metadata.Distinct) → ∀ m ∈ d.nodes, m.metadata.Distinct) ∧
    (∀ (n : NodeRecord) (d' : DraftRecord), d.insert n = .ok d' →
      ∀ k : Json, k.isKey = true → n.id.identical k = false → d'.node? k = d.node? k) ∧
    ∀ ms : List Node, ns = ms.map Node.record → d = (ms.foldl Draft.insert {}).record := by
  intro d
  refine ⟨distinctIds_insertAll ns, fun m => mem_insertAll_iff, ?_, ?_,
    distinct_metadata_insertAll, ?_, ?_⟩
  · intro k hk
    obtain ⟨hseen, hnode⟩ | ⟨n, later, hseen, hnode⟩ := node?_insertAll_empty hk ns
    · rw [hnode]
      simpa using List.filter_eq_nil_iff.mp hseen
    · have hn : n ∈ ns.filter (·.id.identical k) := hseen ▸ List.mem_cons_self
      rw [hnode]
      exact ⟨fun _ => ⟨n, List.mem_filter.mp hn⟩, fun _ => rfl⟩
  · intro k m hk hm
    obtain ⟨-, hnode⟩ | ⟨n, later, hseen, hnode⟩ := node?_insertAll_empty hk ns
    · cases hnode.symm.trans hm
    · obtain rfl := Option.some.inj (hnode.symm.trans hm)
      rw [hseen]
      refine ⟨?_, NodeRecord.kept_foldl_merge _ _ (fun _ _ => rfl) n later,
        NodeRecord.kept_foldl_merge _ _ (fun _ _ => rfl) n later,
        NodeRecord.kept_foldl_merge _ _ (fun old new => ?_) n later,
        fun q hq => NodeRecord.valueOf?_foldl_merge hq n later⟩
      · -- identifier and kind are kept from the first node on
        have hfirst := NodeRecord.kept_foldl_merge (fun n => (n.id, n.kind)) (fun _ => true)
          (fun _ _ => rfl) n later
        simpa using hfirst
      · by_cases hline : old.line = .null <;> simp [NodeRecord.merge, hline]
  · intro n d' hinsert k hk hnk
    have hstep := node?_insert_getD hk d n
    rw [hinsert, hnk] at hstep
    exact hstep
  · rintro ms rfl
    exact insertAll_record {} ms

/-- A node with an empty label and a member that is null, one with another identifier, and two
more with the identifier of the first. -/
def seenNodes : List NodeRecord :=
  [{ id := ofString "x", label := .str [], kind := .function
     metadata := [(ofString "k", .null)] },
   { id := ofString "y", label := ofString "d", kind := .module_ },
   { id := ofString "x", label := ofString "a", kind := .class_
     filePath := ofString "p", line := .int 0
     metadata := [(ofString "k", .int 1), (ofString "j", .int 2)] },
   { id := ofString "x", label := ofString "b", kind := .class_
     filePath := ofString "q", line := .int 5 }]

/-- The line 0 and the member that is null are there, the empty label is not. -/
theorem insertAll_keeps_first_seenNodes :
    ∃ m, (insertAll {} seenNodes).node? (ofString "x") = some m ∧ m.kind = .function ∧
      m.label = ofString "a" ∧ m.filePath = ofString "p" ∧ m.line = .int 0 ∧
      m.metadata.valueOf? (ofString "k") = some .null ∧
      m.metadata.valueOf? (ofString "j") = some (.int 2) := by
  obtain ⟨-, -, hids, hfields, -⟩ := insertAll_keeps_first seenNodes
  obtain ⟨m, hm⟩ := Option.isSome_iff_exists.mp
    ((hids (ofString "x") rfl).mpr ⟨_, List.mem_cons_self, rfl⟩)
  obtain ⟨hfirst, hlabel, hpath, hline, hmetadata⟩ := hfields (ofString "x") m rfl hm
  refine ⟨m, hm, ?_, ?_, ?_, ?_, ?_, ?_⟩
  · exact (congrArg Prod.snd (Option.some.inj hfirst)).symm
  · exact (Option.some.inj hlabel).symm
  · exact (Option.some.inj hpath).symm
  · exact (Option.some.inj hline).symm
  · exact hmetadata (ofString "k") rfl
  · exact hmetadata (ofString "j") rfl

end DraftRecord

end SymbolGraph
