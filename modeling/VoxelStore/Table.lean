/-!
# Small tables

A table has at most one value per key. Writing replaces the value of the key and leaves all others:
`find?_insert_self`, `find?_insert_of_ne`.
-/

namespace VoxelStore

/-- A table as its list of entries. -/
structure Table (κ α : Type) where
  entries : List (κ × α) := []
  deriving DecidableEq, Repr

namespace Table

variable {κ α : Type} [DecidableEq κ]

def find? (t : Table κ α) (k : κ) : Option α :=
  (t.entries.find? fun e => decide (e.1 = k)).map Prod.snd

/-- The table with `a` as the value of `k`. -/
def insert (t : Table κ α) (k : κ) (a : α) : Table κ α :=
  ⟨(k, a) :: t.entries.filter fun e => decide (e.1 ≠ k)⟩

def isEmpty (t : Table κ α) : Bool := t.entries.isEmpty

theorem find?_insert_self (t : Table κ α) (k : κ) (a : α) : (t.insert k a).find? k = some a := by
  simp [find?, insert]

theorem find?_insert_of_ne (t : Table κ α) {k k' : κ} (a : α) (h : k' ≠ k) :
    (t.insert k a).find? k' = t.find? k' := by
  have : (fun e : κ × α => !decide (e.1 = k) && decide (e.1 = k')) = fun e => decide (e.1 = k') := by
    funext e
    by_cases he : e.1 = k' <;> simp [he, h]
  simp [find?, insert, Ne.symm h, List.find?_filter, this]

theorem isEmpty_insert (t : Table κ α) (k : κ) (a : α) : (t.insert k a).isEmpty = false := rfl

end Table

end VoxelStore
