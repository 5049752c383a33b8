import Mathlib
import VoxelStore.Geometry
/-!
# Addresses in 32-bit coordinates

Positions count in unbounded integers, and their addresses are quotients and remainders that round down. In 32-bit
coordinates these are shifts and masks, below zero too (`WordPosition`). Layer and block index together are a full
address: every layer that 32 bits can reach has 4096 blocks (`existsUnique_of_address`).
-/

namespace VoxelStore

/-- A block position in 32-bit coordinates. Its addresses are found by shifts and masks. -/
structure WordPosition where
  x : Int32
  y : Int32
  z : Int32
  deriving DecidableEq, Repr

namespace WordPosition

variable (w : WordPosition)

def position : Position := ⟨w.x.toInt, w.y.toInt, w.z.toInt⟩

def layer : Int32 := w.y >>> 4

def inColumn : WordPosition := ⟨w.x &&& 15, w.y, w.z &&& 15⟩

def blockIndex : Int32 := (w.y &&& 15) <<< 8 ||| (w.z &&& 15) <<< 4 ||| (w.x &&& 15)

def biomeIndex : Int32 := (w.y &&& 12) <<< (2 : Int32) ||| (w.z &&& 12) ||| (w.x &&& 12) >>> (2 : Int32)

end WordPosition

namespace Position

/-- The block of a column with a given layer and place. -/
def ofAddress (layer : Int) (i : Fin sectionBlocks) : Position := ⟨i % 16, 16 * layer + i / 256, i / 16 % 16⟩

@[simp] theorem layer_ofAddress (layer : Int) (i : Fin sectionBlocks) : (ofAddress layer i).layer = layer := by
  have hi : i.val < 4096 := i.isLt
  show (16 * layer + (i.val : Int) / 256) / 16 = layer
  omega

@[simp] theorem blockIndex_ofAddress (layer : Int) (i : Fin sectionBlocks) :
    (ofAddress layer i).blockIndex = i := by
  have hi : i.val < 4096 := i.isLt
  apply Fin.ext
  rw [ofAddress, blockIndex]
  dsimp only
  omega

/-- The layer and the block index say where in its column a block is. -/
theorem inColumn_eq_ofAddress (p : Position) : p.inColumn = ofAddress p.layer p.blockIndex := by
  rw [inColumn, ofAddress, layer, blockIndex, mk.injEq]
  dsimp only
  omega

theorem inColumn_ofAddress (layer : Int) (i : Fin sectionBlocks) :
    (ofAddress layer i).inColumn = ofAddress layer i := by
  rw [inColumn_eq_ofAddress, layer_ofAddress, blockIndex_ofAddress]

end Position

/-! ## Shifts and masks -/

/-- Fields next to each other, each of `k` bits, the first of any width. -/
theorem shiftLeft_or_or {a b c k : Nat} (hb : b < 2 ^ k) (hc : c < 2 ^ k) :
    a <<< (k + k) ||| b <<< k ||| c = (a * 2 ^ k + b) * 2 ^ k + c := by
  calc a <<< (k + k) ||| b <<< k ||| c
      = (a <<< k ||| b) <<< k ||| c := by rw [Nat.shiftLeft_or_distrib, Nat.shiftLeft_add]
    _ = (a <<< k + b) <<< k + c := by
      rw [← Nat.shiftLeft_add_eq_or_of_lt hb, ← Nat.shiftLeft_add_eq_or_of_lt hc]
    _ = (a * 2 ^ k + b) * 2 ^ k + c := by rw [Nat.shiftLeft_eq, Nat.shiftLeft_eq]

theorem and_twelve (n : Nat) : n &&& 12 = (n % 16 / 4) <<< 2 := by
  have hlow : n &&& 12 = n % 16 &&& 12 := by
    rw [← Nat.and_two_pow_sub_one_eq_mod n 4, Nat.and_assoc]
    rfl
  have hcases : ∀ k : Fin 16, (k.val &&& 12) = (k.val / 4) <<< 2 := by decide
  rw [hlow]
  exact hcases ⟨n % 16, by omega⟩

namespace Int32

theorem toInt_of_small {x : Int32} {n : Nat} (h : x.toBitVec.toNat = n) (hn : n < 2 ^ 31) : x.toInt = n := by
  rw [← Int32.toInt_toBitVec, BitVec.toInt_eq_toNat_of_lt (by omega), h]

/-- The lower bits of a negative number are those of its remainder. -/
theorem toNat_mod_sixteen (x : Int32) : ((x.toBitVec.toNat % 16 : Nat) : Int) = x.toInt % 16 := by
  rw [← Int32.toInt_toBitVec, BitVec.toInt_eq_toNat_cond]
  split <;> omega

theorem toNat_and_fifteen (x : Int32) : (x &&& 15).toBitVec.toNat = x.toBitVec.toNat % 16 := by
  rw [Int32.toBitVec_and, BitVec.toNat_and]
  exact Nat.and_two_pow_sub_one_eq_mod _ 4

theorem toNat_and_twelve (x : Int32) : (x &&& 12).toBitVec.toNat = (x.toBitVec.toNat % 16 / 4) <<< 2 := by
  rw [Int32.toBitVec_and, BitVec.toNat_and]
  exact and_twelve _

theorem toNat_shiftLeft_of_lt {v : BitVec 32} (hv : v.toNat < 16) {k : Nat} (hk : k ≤ 8) :
    (v <<< k).toNat = v.toNat <<< k := by
  have hpow : 2 ^ k ≤ 2 ^ 8 := Nat.pow_le_pow_right (by decide) hk
  have hmul : v.toNat * 2 ^ k ≤ 16 * 2 ^ 8 := Nat.mul_le_mul hv.le hpow
  rw [BitVec.toNat_shiftLeft, Nat.mod_eq_of_lt]
  rw [Nat.shiftLeft_eq]
  omega

theorem toNat_shiftRight_two {x : Int32} (hx : x.toBitVec.toNat < 16) :
    (x >>> (2 : Int32)).toBitVec.toNat = x.toBitVec.toNat >>> 2 := by
  have hshift : (x >>> (2 : Int32)).toBitVec = x.toBitVec.sshiftRight 2 := rfl
  have hmsb : x.toBitVec.msb = false := by
    rw [BitVec.msb_eq_false_iff_two_mul_lt]
    omega
  rw [hshift, BitVec.toNat_sshiftRight_of_msb_false hmsb]

theorem toInt_shiftRight_four (x : Int32) : (x >>> 4).toInt = x.toInt / 16 := by
  have hshift : (x >>> 4).toBitVec = x.toBitVec.sshiftRight 4 := rfl
  rw [← Int32.toInt_toBitVec, hshift, BitVec.toInt_sshiftRight, Int.shiftRight_eq_div_pow, Int32.toInt_toBitVec]
  rfl

end Int32

namespace WordPosition

theorem toInt_layer (w : WordPosition) : w.layer.toInt = w.position.layer := Int32.toInt_shiftRight_four w.y

theorem position_inColumn (w : WordPosition) : w.inColumn.position = w.position.inColumn := by
  have hmask : ∀ x : Int32, (x &&& 15).toInt = x.toInt % 16 := by
    intro x
    rw [Int32.toInt_of_small (Int32.toNat_and_fifteen x) (by omega), Int32.toNat_mod_sixteen]
  simp [inColumn, position, Position.inColumn, hmask]

theorem toInt_blockIndex (w : WordPosition) : w.blockIndex.toInt = w.position.blockIndex := by
  have hmask : ∀ x : Int32, (x &&& 15).toBitVec.toNat < 16 := by
    intro x
    rw [Int32.toNat_and_fifteen]
    omega
  have hnat : w.blockIndex.toBitVec.toNat =
      (w.y.toBitVec.toNat % 16 * 2 ^ 4 + w.z.toBitVec.toNat % 16) * 2 ^ 4 + w.x.toBitVec.toNat % 16 := by
    rw [← shiftLeft_or_or (by omega) (by omega)]
    show ((w.y &&& 15).toBitVec <<< 8 ||| (w.z &&& 15).toBitVec <<< 4 ||| (w.x &&& 15).toBitVec).toNat = _
    rw [BitVec.toNat_or, BitVec.toNat_or, Int32.toNat_shiftLeft_of_lt (hmask w.y) (by decide),
      Int32.toNat_shiftLeft_of_lt (hmask w.z) (by decide), Int32.toNat_and_fifteen, Int32.toNat_and_fifteen,
      Int32.toNat_and_fifteen]
  rw [Int32.toInt_of_small hnat (by omega)]
  have hx := Int32.toNat_mod_sixteen w.x
  have hy := Int32.toNat_mod_sixteen w.y
  have hz := Int32.toNat_mod_sixteen w.z
  simp only [Position.blockIndex, position]
  omega

theorem toInt_biomeIndex (w : WordPosition) : w.biomeIndex.toInt = w.position.biomeIndex := by
  have hmask : ∀ x : Int32, (x &&& 12).toBitVec.toNat < 16 := by
    intro x
    rw [Int32.toNat_and_twelve, Nat.shiftLeft_eq]
    omega
  have hnat : w.biomeIndex.toBitVec.toNat =
      (w.y.toBitVec.toNat % 16 / 4 * 2 ^ 2 + w.z.toBitVec.toNat % 16 / 4) * 2 ^ 2 +
        w.x.toBitVec.toNat % 16 / 4 := by
    rw [← shiftLeft_or_or (by omega) (by omega)]
    show ((w.y &&& 12).toBitVec <<< 2 ||| (w.z &&& 12).toBitVec ||| ((w.x &&& 12) >>> (2 : Int32)).toBitVec).toNat = _
    rw [BitVec.toNat_or, BitVec.toNat_or, Int32.toNat_shiftLeft_of_lt (hmask w.y) (by decide),
      Int32.toNat_shiftRight_two (hmask w.x), Int32.toNat_and_twelve, Int32.toNat_and_twelve,
      Int32.toNat_and_twelve, Nat.shiftLeft_shiftRight, ← Nat.shiftLeft_add]
  rw [Int32.toInt_of_small hnat (by omega)]
  have hx := Int32.toNat_mod_sixteen w.x
  have hy := Int32.toNat_mod_sixteen w.y
  have hz := Int32.toNat_mod_sixteen w.z
  simp only [Position.biomeIndex, position]
  omega

theorem position_injective : Function.Injective position := by
  rintro ⟨x, y, z⟩ ⟨x', y', z'⟩ h
  obtain ⟨hx, hy, hz⟩ := Position.mk.inj h
  rw [mk.injEq]
  exact ⟨Int32.toInt_inj.1 hx, Int32.toInt_inj.1 hy, Int32.toInt_inj.1 hz⟩

/-- A position with a layer that 32 bits can reach has 32-bit coordinates inside its column. -/
theorem exists_position_ofAddress {layer : Int} (hlow : -2 ^ 27 ≤ layer) (hhigh : layer < 2 ^ 27)
    (i : Fin sectionBlocks) : ∃ w : WordPosition, w.position = Position.ofAddress layer i := by
  have hi : i.val < 4096 := i.isLt
  have hword : ∀ n : Int, -2 ^ 31 ≤ n → n < 2 ^ 31 → (Int32.ofInt n).toInt = n := by
    intro n hlow hhigh
    exact Int32.toInt_ofInt_of_le hlow hhigh
  refine ⟨⟨.ofInt (i % 16), .ofInt (16 * layer + i / 256), .ofInt (i / 16 % 16)⟩, ?_⟩
  rw [position, Position.ofAddress, hword _ (by omega) (by omega), hword _ (by omega) (by omega),
    hword _ (by omega) (by omega)]

theorem existsUnique_of_address {layer : Int} (hlow : -2 ^ 27 ≤ layer) (hhigh : layer < 2 ^ 27)
    (i : Fin sectionBlocks) :
    ∃! w : WordPosition, w.inColumn = w ∧ w.layer.toInt = layer ∧ w.blockIndex.toInt = i := by
  obtain ⟨w, hw⟩ := exists_position_ofAddress hlow hhigh i
  refine ⟨w, ⟨?_, ?_, ?_⟩, ?_⟩
  · apply position_injective
    rw [position_inColumn, hw, Position.inColumn_ofAddress]
  · rw [toInt_layer, hw, Position.layer_ofAddress]
  · rw [toInt_blockIndex, hw, Position.blockIndex_ofAddress]
  · rintro w' ⟨hcolumn, hlayer, hindex⟩
    apply position_injective
    rw [toInt_layer] at hlayer
    rw [toInt_blockIndex] at hindex
    have hplace : w'.position.blockIndex = i := Fin.ext (by exact_mod_cast hindex)
    rw [hw, ← hcolumn, position_inColumn, Position.inColumn_eq_ofAddress, hlayer, hplace]

end WordPosition

end VoxelStore
