import SymbolGraph.Json.Basic
set_option autoImplicit false

/-!
# Metadata

Metadata are a table in insertion order. Its keys are strings or, where the table was given as a
list of pairs, any values that may be keys; numbers and truth values that are equal are one key.
When the table is written, each key becomes a string, and keys that differ may then look alike.
-/

namespace SymbolGraph

/-- A table of values by keys. -/
abbrev Metadata := List (Json × Json)

/-- The string that a key becomes when it is written. -/
def Json.writtenKey : Json → Points
  | str s => s
  | null => Points.ofString "null"
  | bool true => Points.ofString "true"
  | bool false => Points.ofString "false"
  | float x => (x.render "Infinity".toList "NaN".toList).points
  | v => v.display.points

namespace Metadata

/-- The table with the members of an object. -/
def ofFields (fs : Fields) : Metadata := fs.map fun (k, v) => (.str k, v)

/-- The members of the object that the table is written as. -/
def fields (m : Metadata) : Fields := m.map fun (k, v) => (k.writtenKey, v)

/-- The metadata of an edge that stands for a number of references. -/
def ofWeight (n : Nat) : Metadata := [(Json.ofString "weight", .int n)]

/-- The value of a literal. -/
def get? (key : String) (m : Metadata) : Option Json :=
  (m.find? fun (k, _) => k = Json.ofString key).map (·.2)

/-- The table has a key. -/
def hasKey (k : Json) (m : Metadata) : Bool := m.any fun (l, _) => l.identical k

/-- Gives a key a value, in its place if it has one, else at the end. -/
def put (k v : Json) : Metadata → Metadata
  | [] => [(k, v)]
  | (l, w) :: rest => if l.identical k then (l, v) :: rest else (l, w) :: put k v rest

/-- All keys are strings. -/
def hasStrings (m : Metadata) : Bool := m.all fun (k, _) => k matches .str _

/-- Puts those pairs whose key is new, one after the other. -/
def putAllNew (m pairs : Metadata) : Metadata :=
  pairs.foldl (fun m (k, v) => if m.hasKey k then m else m ++ [(k, v)]) m

/-- What is written of the members of an object is those members. -/
@[simp] theorem fields_ofFields (fs : Fields) : (ofFields fs).fields = fs := by
  induction fs with
  | nil => rfl
  | cons p rest ih => exact congrArg (p :: ·) ih

/-- The keys of an object are strings. -/
@[simp] theorem hasStrings_ofFields (fs : Fields) : (ofFields fs).hasStrings = true := by
  simp [hasStrings, ofFields]

/-- The keys of an object are keys of its table. -/
theorem hasKey_ofFields (k : Points) (fs : Fields) :
    (ofFields fs).hasKey (.str k) = Assoc.contains k fs := by
  induction fs with
  | nil => rfl
  | cons p rest ih =>
    obtain ⟨l, v⟩ := p
    simp only [ofFields, hasKey, List.map_cons, List.any_cons, Assoc.contains, Assoc.get?,
      Json.identical_str] at ih ⊢
    by_cases h : l = k <;> simp [h, ih]

/-- The value of a literal is that of the object's member. -/
theorem get?_ofFields (key : String) (fs : Fields) :
    (ofFields fs).get? key = Assoc.get? (Points.ofString key) fs := by
  induction fs with
  | nil => rfl
  | cons p rest ih =>
    obtain ⟨l, v⟩ := p
    by_cases h : l = Points.ofString key
    · simp [get?, ofFields, Assoc.get?, Json.ofString, Json.text, Points.ofString, h]
    · have other : Json.str l ≠ Json.ofString key := fun e => h (Json.str.inj e)
      rw [Assoc.get?, if_neg h, ← ih]
      simp [get?, ofFields, other]

/-- A member is put into an object as it is put into its table. -/
theorem put_ofFields (k : Points) (v : Json) (fs : Fields) :
    (ofFields fs).put (.str k) v = ofFields (Assoc.put k v fs) := by
  induction fs with
  | nil => rfl
  | cons p rest ih =>
    obtain ⟨l, w⟩ := p
    simp only [ofFields, List.map_cons, put, Assoc.put, Json.identical_str, decide_eq_true_eq]
      at ih ⊢
    split <;> simp [ih]

/-- New members are put into an object as they are put into its table. -/
theorem ofFields_putAllNew (fs gs : Fields) :
    ofFields (Assoc.putAllNew fs gs) = (ofFields fs).putAllNew (ofFields gs) := by
  induction gs generalizing fs with
  | nil => rfl
  | cons p rest ih =>
    obtain ⟨k, v⟩ := p
    have tail := ih (Assoc.putNew k v fs)
    have key := hasKey_ofFields k fs
    simp only [Assoc.putAllNew, putAllNew, ofFields, List.map_cons, List.foldl_cons]
      at tail key ⊢
    rw [tail, key, Assoc.putNew]
    congr 1
    split <;> simp

end Metadata

end SymbolGraph
