import VoxelStore.Bits
import VoxelStore.Fault
/-!
# The global palette

The host numbers block states by ids of its own. The global palette has the id of every ordinal, and the
ordinal of every id. Every id maps back to itself through its ordinal; an ordinal that stands for no id
may carry any id.
-/

namespace VoxelStore

/-- Every id comes back from the ordinal that it stands for. -/
def MapsBack (ids ordinals : Array UInt32) : Prop :=
  ∀ id (h : id < ordinals.size), ids[ordinals[id].toNat]? = some (UInt32.ofNat id)

/-- `MapsBack` for the ids from `id` on. -/
def mapsBackFrom (ids : Array UInt32) : List UInt32 → Nat → Bool
  | [], _ => true
  | ordinal :: rest, id => ids[ordinal.toNat]? == some (UInt32.ofNat id) && mapsBackFrom ids rest (id + 1)

theorem mapsBackFrom_iff {ids : Array UInt32} {l : List UInt32} {k : Nat} :
    mapsBackFrom ids l k = true ↔ ∀ i (h : i < l.length), ids[l[i].toNat]? = some (UInt32.ofNat (k + i)) := by
  induction l generalizing k with
  | nil => simp [mapsBackFrom]
  | cons a l ih =>
    simp only [mapsBackFrom, Bool.and_eq_true, beq_iff_eq, ih]
    constructor
    · rintro ⟨h0, h⟩ i hi
      cases i with
      | zero => simpa using h0
      | succ i =>
        have := h i (by simpa using hi)
        simpa [Nat.add_assoc, Nat.add_comm 1] using this
    · intro h
      refine ⟨h 0 (by simp), fun i hi => ?_⟩
      have := h (i + 1) (by simpa using hi)
      simpa [Nat.add_assoc, Nat.add_comm 1] using this

instance (ids ordinals : Array UInt32) : Decidable (MapsBack ids ordinals) :=
  decidable_of_iff (mapsBackFrom ids ordinals.toList 0 = true) (by
    rw [mapsBackFrom_iff]
    simp [MapsBack])

/-- The ids of all ordinals and the ordinals of all ids. -/
structure GlobalPalette where
  /-- The id of each ordinal. -/
  ids : Array UInt32
  /-- The ordinal of each id. -/
  ordinals : Array UInt32
  nonempty : 0 < ordinals.size
  mapsBack : MapsBack ids ordinals
  deriving DecidableEq

namespace GlobalPalette

def ofTables (ids ordinals : Array UInt32) : Except Fault GlobalPalette :=
  if h : 0 < ordinals.size then
    if hm : MapsBack ids ordinals then .ok ⟨ids, ordinals, h, hm⟩ else .error .inconsistentIds
  else .error .noGlobalIds

/-- The ordinals below `n`, and zero if there are none. -/
def ordinalsBelow (n : UInt32) : Array UInt32 := Array.ofFn (n := max n.toNat 1) fun i => UInt32.ofNat i

theorem size_ordinalsBelow (n : UInt32) : (ordinalsBelow n).size = max n.toNat 1 := Array.size_ofFn

theorem getElem_ordinalsBelow (n : UInt32) (i : Nat) (h : i < (ordinalsBelow n).size) :
    (ordinalsBelow n)[i] = UInt32.ofNat i := Array.getElem_ofFn _

theorem mapsBack_ordinalsBelow (n : UInt32) : MapsBack (ordinalsBelow n) (ordinalsBelow n) := by
  intro id h
  have hid : id < UInt32.size := by
    have hn := n.toNat_lt_size
    rw [size_ordinalsBelow] at h
    omega
  rw [getElem_ordinalsBelow, UInt32.toNat_ofNat_of_lt' hid, Array.getElem?_eq_getElem h, getElem_ordinalsBelow]

/-- The palette whose ids are the ordinals themselves. It has at least one. -/
def identity (n : UInt32) : GlobalPalette where
  ids := ordinalsBelow n
  ordinals := ordinalsBelow n
  nonempty := by rw [size_ordinalsBelow]; omega
  mapsBack := mapsBack_ordinalsBelow n

variable (g : GlobalPalette)

def size : Nat := g.ordinals.size

/-- The width of an id. Only the lower 32 bits of the greatest id count. -/
def bits : Nat := bitLength ((g.size - 1) % UInt32.size)

def idOf (ordinal : BlockState) : Except Fault UInt32 :=
  match g.ids[ordinal.toNat]? with
  | some id => .ok id
  | none => .error (.outOfBounds ordinal.toNat g.ids.size)

/-- The ordinal of an id, if there is such an id. -/
def ordinalOf (id : UInt64) : Option BlockState := g.ordinals[id.toNat]?

end GlobalPalette

end VoxelStore
