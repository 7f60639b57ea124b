set_option autoImplicit false

/-!
# Association lists in insertion order

Tables whose order matters are lists of pairs: a key keeps the place where it was first put, and
a later value for it takes that place.
-/

namespace SymbolGraph.Assoc

variable {κ α : Type} [DecidableEq κ]

/-- The value of a key. -/
def get? (k : κ) : List (κ × α) → Option α
  | [] => none
  | (k', v) :: rest => if k' = k then some v else get? k rest

/-- The table has the key. -/
def contains (k : κ) (t : List (κ × α)) : Bool := (get? k t).isSome

/-- Gives a key a value, in its place if it has one, else at the end. -/
def put (k : κ) (v : α) : List (κ × α) → List (κ × α)
  | [] => [(k, v)]
  | (k', v') :: rest => if k' = k then (k', v) :: rest else (k', v') :: put k v rest

/-- Gives a key a value unless it has one. -/
def putNew (k : κ) (v : α) (t : List (κ × α)) : List (κ × α) :=
  if contains k t then t else t ++ [(k, v)]

/-- Puts pairs one after the other. -/
def putAll (t pairs : List (κ × α)) : List (κ × α) := pairs.foldl (fun t p => put p.1 p.2 t) t

/-- Puts those pairs whose key is new, one after the other. -/
def putAllNew (t pairs : List (κ × α)) : List (κ × α) :=
  pairs.foldl (fun t p => putNew p.1 p.2 t) t

/-! ## Laws -/

@[simp] theorem get?_nil (k : κ) : get? k ([] : List (κ × α)) = none := rfl

theorem get?_append (k : κ) (s t : List (κ × α)) :
    get? k (s ++ t) = (get? k s).or (get? k t) := by
  induction s with
  | nil => rfl
  | cons p rest ih => by_cases h : p.1 = k <;> simp [get?, h, ih]

/-- After a key is put, it has the value, and all other keys keep theirs. -/
theorem get?_put (k k' : κ) (v : α) (t : List (κ × α)) :
    get? k' (put k v t) = if k = k' then some v else get? k' t := by
  induction t with
  | nil => simp [put, get?]
  | cons p rest ih =>
    obtain ⟨q, w⟩ := p
    unfold put
    split
    · next h => subst h; simp only [get?]; split <;> rfl
    · next h =>
      simp only [get?, ih]
      split
      · next h' => subst h'; simp [Ne.symm h]
      · rfl

/-- A key that has a value keeps it. -/
theorem get?_putNew (k k' : κ) (v : α) (t : List (κ × α)) :
    get? k' (putNew k v t) = (get? k' t).or (if k = k' then some v else none) := by
  unfold putNew contains
  split
  · next h =>
    split
    · next hk => subst hk; cases hg : get? k t <;> simp_all
    · simp
  · simp [get?_append, get?]

end SymbolGraph.Assoc
