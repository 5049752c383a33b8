import VoxelStore.Palette.Encoder
import VoxelStore.Proofs.Palette.Ids
import VoxelStore.Proofs.Palette.Stored
/-!
# What the encoder makes of a section

The first pass notes the ordinals that a section stores: `Noted seen e c` says that the two tables of the
encoder are inverse to each other and hold the distinct ordinals of `seen`, in the order of first sight, and
that `c` has counted them and the blocks. The second pass turns every block into an entry that the chosen
palette takes back to its ordinal. Both meet in `encode_stores`: whichever palette is chosen, the section
stores the blocks, and the encoder is clean again and as large as before.
-/

namespace VoxelStore

/-- The distinct ordinals that a section stores, in the order of first sight. -/
def SectionArray.storedPalette (blocks : SectionArray) : List BlockState :=
  (blocks.cells.toList.map BlockState.stored).eraseDups

/-- What is seen for the first time comes last, and what was seen before stays where it is. -/
theorem eraseDups_concat (l : List UInt32) (v : UInt32) :
    (l ++ [v]).eraseDups = if v ∈ l then l.eraseDups else l.eraseDups ++ [v] := by
  rw [List.eraseDups_append]
  by_cases h : v ∈ l
  · simp [List.removeAll, h]
  · simp [List.removeAll, h, List.eraseDups_cons]

theorem length_eraseDups_le (l : List UInt32) : l.eraseDups.length ≤ l.length := by
  induction l using List.reverseRecOn with
  | nil => exact Nat.le_refl 0
  | append_singleton l v ih =>
    rw [eraseDups_concat, List.length_append, List.length_singleton]
    split
    · exact Nat.le_succ_of_le ih
    · rw [List.length_append, List.length_singleton]
      exact Nat.succ_le_succ ih

theorem nodup_eraseDups (l : List UInt32) : l.eraseDups.Nodup := by
  induction l using List.reverseRecOn with
  | nil => exact List.nodup_nil
  | append_singleton l v ih =>
    rw [eraseDups_concat]
    split
    · exact ih
    · next hv =>
      refine ih.append (List.nodup_singleton v) fun u hu hu' => ?_
      rw [List.mem_singleton.1 hu', List.mem_eraseDups] at hu
      exact hv hu

theorem SectionArray.length_storedPalette_le (blocks : SectionArray) :
    blocks.storedPalette.length ≤ sectionBlocks := by
  have h := length_eraseDups_le (blocks.cells.toList.map BlockState.stored)
  rwa [List.length_map, Vector.length_toList] at h

theorem SectionArray.length_storedPalette_le_size (blocks : SectionArray) :
    blocks.storedPalette.length ≤ UInt32.size :=
  Nat.le_trans blocks.length_storedPalette_le (by decide)

/-- What a section stores for its blocks. -/
def SectionArray.storedCells (blocks : SectionArray) : Vector BlockState sectionBlocks :=
  blocks.cells.map BlockState.stored

namespace SectionArray

variable {blocks : SectionArray}

theorem getElem_storedCells (blocks : SectionArray) (i : Nat) (h : i < sectionBlocks) :
    blocks.storedCells[i] = blocks.cells[i].stored := Vector.getElem_map ..

theorem mem_storedPalette {v : BlockState} :
    v ∈ blocks.storedPalette ↔ ∃ (i : Nat) (h : i < sectionBlocks), blocks.cells[i].stored = v := by
  rw [storedPalette, List.mem_eraseDups, List.mem_map]
  constructor
  · rintro ⟨u, hu, rfl⟩
    obtain ⟨i, hi, rfl⟩ := Vector.mem_iff_getElem.1 (Vector.mem_toList_iff.1 hu)
    exact ⟨i, hi, rfl⟩
  · rintro ⟨i, hi, rfl⟩
    exact ⟨_, Vector.mem_toList_iff.2 (Vector.getElem_mem hi), rfl⟩

theorem stored_mem_palette (blocks : SectionArray) (i : Nat) (h : i < sectionBlocks) :
    blocks.cells[i].stored ∈ blocks.storedPalette := mem_storedPalette.2 ⟨i, h, rfl⟩

theorem length_storedPalette_pos (blocks : SectionArray) : 0 < blocks.storedPalette.length :=
  List.length_pos_of_mem (blocks.stored_mem_palette 0 (by decide))

end SectionArray

/-- Each of the ordinals has an entry of `bits` bits, which the palette takes back to the ordinal. -/
def Palette.Returns (palette : Palette) (g : GlobalPalette) (bits : Nat)
    (entry : BlockState → Except Fault UInt32) (ordinals : List BlockState) : Prop :=
  ∀ v ∈ ordinals, ∃ x, entry v = .ok x ∧ x.toNat < 2 ^ bits ∧ palette.resolve g x.toUInt64 = .ok v

/-- One value needs no index, and the indices of up to `2 ^ kind.maxBits` values have the least width that holds them,
as far as the kind allows it. -/
theorem PaletteKind.localBits_eq (kind : PaletteKind) {len : Nat} (h : len ≤ UInt32.size) :
    kind.localBits len =
      if len ≤ 1 then some 0
      else if len ≤ 2 ^ kind.maxBits then some (max kind.minBits (bitLength (len - 1)))
      else none := by
  -- the width is taken of a 32-bit number, which such a count is
  have hmod : (len - 1) % UInt32.size = len - 1 := Nat.mod_eq_of_lt (by unfold UInt32.size at *; omega)
  unfold localBits
  rw [hmod]
  dsimp only
  by_cases hone : len ≤ 1
  · rw [if_pos hone, Nat.sub_eq_zero_of_le hone, bitLength_zero]
    rfl
  · have hpos : 0 < bitLength (len - 1) := by
      rw [← Nat.not_le, bitLength_le_iff]
      omega
    have hroom : bitLength (len - 1) ≤ kind.maxBits ↔ len ≤ 2 ^ kind.maxBits := bitLength_pred_le_iff (by omega)
    rw [if_neg hone, if_pos hpos]
    by_cases hfew : len ≤ 2 ^ kind.maxBits
    · rw [if_neg (Nat.not_lt_of_le (hroom.2 hfew)), if_pos hfew]
    · rw [if_pos (Nat.lt_of_not_le (mt hroom.1 hfew)), if_neg hfew]

namespace GlobalPalette

variable {g : GlobalPalette} {ordinals : List BlockState}

/-- The ids take the ordinals back if and only if each of these stands for an id that is not cut. -/
theorem returns_iff :
    Palette.global.Returns g g.bits g.idOf ordinals ↔ g.Covers ordinals ∧ ∀ v ∈ ordinals, g.IdFits v := by
  have hentry : ∀ {id : UInt32}, id.toNat < 2 ^ g.bits → id.toUInt64 = UInt64.ofNat (id.toNat % 2 ^ g.bits) := by
    intro id hlt
    rw [Nat.mod_eq_of_lt hlt, ← UInt32.toNat_toUInt64, UInt64.ofNat_toNat]
  constructor
  · intro h
    refine ⟨fun v hv => ?_, fun v hv id hid => ?_⟩
    · obtain ⟨id, hid, hlt, hread⟩ := h v hv
      rw [hentry hlt] at hread
      exact ((resolve_iff hid).1 hread).1
    · obtain ⟨id', hid', hlt, -⟩ := h v hv
      cases hid.symm.trans hid'
      exact hlt
  · rintro ⟨hcovers, hfits⟩ v hv
    obtain ⟨id, hid, -⟩ := exists_idOf (hcovers v hv)
    have hlt := hfits v hv id hid
    refine ⟨id, hid, hlt, ?_⟩
    rw [hentry hlt]
    exact (resolve_iff hid).2 ⟨hcovers v hv, hlt⟩

/-- As long as there are no more ids than 32-bit numbers, none is cut. -/
theorem Covers.returns (h : g.Covers ordinals) (hsize : g.size ≤ UInt32.size) :
    Palette.global.Returns g g.bits g.idOf ordinals :=
  returns_iff.2 ⟨h, fun v hv => idFits_of_size hsize (h v hv)⟩

end GlobalPalette

/-- Storing the placeholder as air does not change how many blocks are of the air family. -/
theorem countP_stored (ordinals : List BlockState) :
    (ordinals.map BlockState.stored).countP BlockState.isAir = ordinals.countP BlockState.isAir := by
  have hfamily : BlockState.isAir ∘ BlockState.stored = BlockState.isAir := funext BlockState.isAir_stored
  rw [List.countP_map, hfamily]

/-- The number of blocks outside of the air family. -/
def SectionArray.nonAir (blocks : SectionArray) : UInt16 :=
  UInt16.ofNat (blocks.cells.countP fun v => !v.isAir)

/-- The blocks of the air family are the ones that are not counted. -/
theorem SectionArray.nonAir_add_countP (blocks : SectionArray) :
    blocks.nonAir.toNat + blocks.cells.countP BlockState.isAir = sectionBlocks := by
  have hall : sectionBlocks = blocks.cells.countP BlockState.isAir +
      blocks.cells.countP fun v => decide ¬v.isAir = true := Vector.size_eq_countP_add_countP
  have hle : (blocks.cells.countP fun v => !v.isAir) ≤ sectionBlocks := Vector.countP_le_size
  simp only [Bool.not_eq_true, Bool.decide_eq_false] at hall
  rw [nonAir, UInt16.toNat_ofNat_of_lt' (Nat.lt_of_le_of_lt hle (by decide)), Nat.add_comm]
  exact hall.symm

namespace Encoder

variable {e e' e'' : Encoder} {c : Census} {seen palette : List BlockState} {v : BlockState}

/-! ## The tables -/

/-- Every slot of both tables of the first pass is unset. The entries and the packing words may hold anything. -/
structure IsClean (e : Encoder) : Prop where
  indexOf : ∀ i (h : i < e.indexOf.size), e.indexOf[i] = unset
  palette : ∀ k (h : k < sectionBlocks), e.palette[k] = unset

theorem isClean_clean (states words : Nat) : (clean states words).IsClean where
  indexOf _ _ := Array.getElem_replicate _
  palette _ hk := Vector.getElem_replicate hk

/-- The tables are as large as those of another encoder. -/
structure AsLarge (e e' : Encoder) : Prop where
  indexOf : e'.indexOf.size = e.indexOf.size
  words : e'.words.size = e.words.size

theorem AsLarge.trans (h : AsLarge e e') (h' : AsLarge e' e'') : AsLarge e e'' :=
  ⟨h'.indexOf.trans h.indexOf, h'.words.trans h.words⟩

/-- A slot in use has no more than the number of a block, so that it cannot be taken for an unset one. -/
theorem ofNat_ne_unset {k : Nat} (h : k < sectionBlocks) : UInt32.ofNat k ≠ unset := by
  intro hk
  have hnat := congrArg UInt32.toNat hk
  rw [UInt32.toNat_ofNat_of_lt' (Nat.lt_trans h (by decide))] at hnat
  exact Nat.ne_of_lt (Nat.lt_trans h (by decide)) hnat

/-- What slot `i` of the index table holds once the ordinals of the palette were noted, in this order. -/
def slot (palette : List BlockState) (i : Nat) : UInt32 :=
  (palette.findIdx? (·.toNat == i)).elim unset UInt32.ofNat

theorem slot_of_forall_ne {i : Nat} (h : ∀ v ∈ palette, v.toNat ≠ i) : slot palette i = unset := by
  rw [slot, List.findIdx?_eq_none_iff.2 fun v hv => beq_false_of_ne (h v hv)]
  rfl

theorem slot_of_mem (h : v ∈ palette) : slot palette v.toNat = UInt32.ofNat (palette.idxOf v) := by
  have hbeq : (fun u : BlockState => u.toNat == v.toNat) = (· == v) := by
    funext u
    rw [Bool.eq_iff_iff, beq_iff_eq, beq_iff_eq, UInt32.toNat_inj]
  have hplace : palette.findIdx? (·.toNat == v.toNat) = some (palette.idxOf v) := by
    rw [hbeq, List.findIdx?_eq_some_iff_findIdx_eq]
    exact ⟨List.idxOf_lt_length_of_mem h, rfl⟩
  rw [slot, hplace]
  rfl

theorem slot_eq_unset_iff (hroom : palette.length ≤ sectionBlocks) :
    slot palette v.toNat = unset ↔ v ∉ palette := by
  constructor
  · intro h hv
    rw [slot_of_mem hv] at h
    exact ofNat_ne_unset (Nat.lt_of_lt_of_le (List.idxOf_lt_length_of_mem hv) hroom) h
  · intro hv
    refine slot_of_forall_ne fun u hu huv => hv ?_
    rwa [← UInt32.toNat_inj.1 huv]

/-- A new ordinal gets the next slot, and the others keep theirs. -/
theorem slot_concat (hv : v ∉ palette) (i : Nat) :
    slot (palette ++ [v]) i = if v.toNat = i then UInt32.ofNat palette.length else slot palette i := by
  unfold slot
  rw [List.findIdx?_append]
  by_cases hi : v.toNat = i
  · subst hi
    have hnone : palette.findIdx? (·.toNat == v.toNat) = none := by
      refine List.findIdx?_eq_none_iff.2 fun u hu => beq_false_of_ne fun huv => hv ?_
      rwa [← UInt32.toNat_inj.1 huv]
    simp [hnone]
  · simp [hi]

/-- The palette changes in the slot behind those in use. -/
theorem getD_concat (l : List UInt32) (v d : UInt32) (k : Nat) :
    (l ++ [v])[k]?.getD d = if l.length = k then v else l[k]?.getD d := by
  rcases Nat.lt_trichotomy l.length k with hlt | rfl | hgt
  · rw [if_neg (Nat.ne_of_lt hlt), List.getElem?_eq_none (Nat.le_of_lt hlt),
      List.getElem?_eq_none (by rwa [List.length_append, List.length_singleton])]
  · rw [if_pos rfl, List.getElem?_concat_length, Option.getD_some]
  · rw [if_neg (Nat.ne_of_gt hgt), List.getElem?_append_left hgt]

/-- The tables after the first pass has come to the end of `seen`, which are ordinals as they are stored. The palette
has the distinct ones in order, the index table says where each of them is, all other slots are unset, and every block
has been counted. -/
structure Noted (seen : List BlockState) (e : Encoder) (c : Census) : Prop where
  room : seen.length ≤ sectionBlocks
  distinct : c.distinct = seen.eraseDups.length
  palette : ∀ k (h : k < sectionBlocks), e.palette[k] = seen.eraseDups[k]?.getD unset
  indexOf : ∀ i (h : i < e.indexOf.size), e.indexOf[i] = slot seen.eraseDups i
  nonAir : c.nonAir.toNat + seen.countP BlockState.isAir = sectionBlocks

theorem noted_of_clean (h : e.IsClean) : e.Noted [] {} where
  room := Nat.zero_le _
  distinct := rfl
  palette k hk := by simp [h.palette k hk]
  indexOf i hi := by rw [h.indexOf i hi, slot_of_forall_ne (by simp)]
  nonAir := rfl

theorem Noted.length_le (h : e.Noted seen c) : seen.eraseDups.length ≤ sectionBlocks :=
  Nat.le_trans (length_eraseDups_le seen) h.room

/-- The slots in use hold the distinct ordinals. -/
theorem Noted.noted_eq (h : e.Noted seen c) : e.noted c.distinct = seen.eraseDups.toArray := by
  have hle := h.length_le
  have hsize : (e.noted c.distinct).size = seen.eraseDups.length := by
    rw [noted, Array.size_extract, Vector.size_toArray, h.distinct]
    omega
  refine Array.ext (hsize.trans List.size_toArray.symm) fun k hk hk' => ?_
  rw [List.size_toArray] at hk'
  simp only [noted, Array.getElem_extract, Nat.zero_add, Vector.getElem_toArray]
  rw [h.palette k (Nat.lt_of_lt_of_le hk' hle), List.getElem?_eq_getElem hk', Option.getD_some, List.getElem_toArray]

/-- One more block of the air family leaves one less. There are never more of them than blocks, so that the count does
not wrap. -/
theorem nonAir_strike (hroom : seen.length < sectionBlocks)
    (hcount : c.nonAir.toNat + seen.countP BlockState.isAir = sectionBlocks) :
    (c.strike v).nonAir.toNat + (seen ++ [v.stored]).countP BlockState.isAir = sectionBlocks := by
  have hle : seen.countP BlockState.isAir ≤ seen.length := List.countP_le_length
  rw [List.countP_append, List.countP_singleton, v.isAir_stored, Census.strike]
  cases v.isAir with
  | false => simpa using hcount
  | true =>
    have hone : (1 : UInt16) ≤ c.nonAir := by
      rw [UInt16.le_iff_toNat_le, UInt16.toNat_one]
      omega
    simp only [if_true, UInt16.toNat_sub_of_le _ _ hone, UInt16.toNat_one]
    omega

theorem distinct_strike : (c.strike v).distinct = c.distinct := by
  unfold Census.strike
  split <;> rfl

/-- One block of the first pass. -/
theorem Noted.note (h : e.Noted seen c) (hroom : seen.length < sectionBlocks)
    (hv : v.stored.toNat < e.indexOf.size) :
    ∃ e' c', e.note (c.strike v) v.stored = .ok (e', c') ∧ e'.Noted (seen ++ [v.stored]) c' ∧ AsLarge e e' := by
  have hlen : (seen ++ [v.stored]).length ≤ sectionBlocks := by
    rw [List.length_append]
    exact hroom
  have hnonAir := nonAir_strike (v := v) hroom h.nonAir
  have hunset := slot_eq_unset_iff (v := v.stored) h.length_le
  rw [Encoder.note, Array.getElem?_eq_getElem hv, h.indexOf _ hv]
  dsimp only
  by_cases hmem : v.stored ∈ seen.eraseDups
  · have hdedup := eraseDups_concat seen v.stored
    rw [if_pos (List.mem_eraseDups.1 hmem)] at hdedup
    rw [if_pos (mt hunset.1 (not_not_intro hmem))]
    refine ⟨e, _, rfl, ⟨hlen, ?_, ?_, ?_, hnonAir⟩, rfl, rfl⟩
    · rw [hdedup, distinct_strike, h.distinct]
    · rw [hdedup]
      exact h.palette
    · rw [hdedup]
      exact h.indexOf
  · have hdedup := eraseDups_concat seen v.stored
    rw [if_neg (mt List.mem_eraseDups.2 hmem)] at hdedup
    rw [if_neg (not_not_intro (hunset.2 hmem))]
    have hdistinct : (c.strike v).distinct = seen.eraseDups.length := distinct_strike.trans h.distinct
    have hplace : (c.strike v).distinct < sectionBlocks := by
      rw [hdistinct]
      exact Nat.lt_of_le_of_lt (length_eraseDups_le seen) hroom
    rw [dif_pos hplace]
    refine ⟨_, _, rfl, ⟨hlen, ?_, fun k hk => ?_, fun i hi => ?_, hnonAir⟩, by simp, rfl⟩
    · simp only [hdistinct, hdedup, List.length_append, List.length_singleton]
    · simp only [Vector.getElem_set, hdistinct, hdedup, getD_concat, h.palette k hk]
    · have hi' : i < e.indexOf.size := by simpa using hi
      simp only [Array.set!_eq_setIfInBounds, Array.getElem_setIfInBounds hi', hdistinct, hdedup, slot_concat hmem,
        h.indexOf i hi']

theorem Noted.noteAll (h : e.Noted seen c) {ordinals : List BlockState}
    (hroom : seen.length + ordinals.length ≤ sectionBlocks) (hv : ∀ v ∈ ordinals, v.stored.toNat < e.indexOf.size) :
    ∃ e' c', e.noteAll c ordinals = .ok (e', c') ∧ e'.Noted (seen ++ ordinals.map BlockState.stored) c' ∧
      AsLarge e e' := by
  induction ordinals generalizing e c seen with
  | nil => exact ⟨e, c, rfl, by rwa [List.map_nil, List.append_nil], rfl, rfl⟩
  | cons v ordinals ih =>
    rw [List.length_cons] at hroom
    obtain ⟨e₁, c₁, hnote, hnoted, hlarge⟩ := h.note (by omega) (hv v List.mem_cons_self)
    obtain ⟨e', c', hall, hnoted', hlarge'⟩ := ih hnoted (by rw [List.length_append, List.length_singleton]; omega)
      fun u hu => by
        rw [hlarge.indexOf]
        exact hv u (List.mem_cons_of_mem v hu)
    refine ⟨e', c', ?_, ?_, hlarge.trans hlarge'⟩
    · rw [Encoder.noteAll, List.foldlM_cons]
      exact except_bind_eq_ok.2 ⟨(e₁, c₁), hnote, hall⟩
    · rwa [List.map_cons, List.append_cons]

/-- The index of an ordinal that was seen is its place among the distinct ones. -/
theorem Noted.localIndex_eq (h : e.Noted seen c) (hv : v ∈ seen) (hsize : v.toNat < e.indexOf.size) :
    e.localIndex v = .ok (UInt32.ofNat (seen.eraseDups.idxOf v)) := by
  rw [localIndex, Array.getElem?_eq_getElem hsize, h.indexOf _ hsize, slot_of_mem (List.mem_eraseDups.2 hv)]

/-- It leads back to the ordinal. -/
theorem Noted.returns {bits : Nat} (h : e.Noted seen c) (g : GlobalPalette)
    (hseen : ∀ v ∈ seen, v.toNat < e.indexOf.size) (hsize : seen.eraseDups.length ≤ 2 ^ bits) (h32 : bits ≤ 32) :
    (Palette.indirect (e.noted c.distinct)).Returns g bits e.localIndex seen.eraseDups := by
  intro v hv
  have hmem := List.mem_eraseDups.1 hv
  have hlt : seen.eraseDups.idxOf v < seen.eraseDups.length := List.idxOf_lt_length_of_mem hv
  have hmax : 2 ^ bits ≤ UInt32.size := Nat.pow_le_pow_right (by decide) h32
  have hnat : (UInt32.ofNat (seen.eraseDups.idxOf v)).toNat = seen.eraseDups.idxOf v :=
    UInt32.toNat_ofNat_of_lt' (by omega)
  refine ⟨_, h.localIndex_eq hmem (hseen v hmem), by omega, ?_⟩
  rw [Palette.resolve, UInt32.toNat_toUInt64, hnat, h.noted_eq, List.getElem?_toArray, List.getElem?_idxOf hv]

theorem getElem?_foldl_forget {l : List BlockState} {table : Array UInt32} (i : Nat) :
    (l.foldl (fun table ordinal => table.set! ordinal.toNat unset) table)[i]? =
      if i ∈ l.map UInt32.toNat then table[i]?.map fun _ => unset else table[i]? := by
  induction l generalizing table with
  | nil => simp
  | cons v l ih =>
    rw [List.foldl_cons, ih, Array.set!_eq_setIfInBounds, Array.getElem?_setIfInBounds, List.map_cons]
    by_cases hi : v.toNat = i
    · subst hi
      by_cases hv : v.toNat < table.size
      · simp [hv]
      · simp [hv]
    · simp [hi, Ne.symm hi]

/-- Forgetting what is noted leaves no slot behind. -/
theorem Noted.forget (h : e.Noted seen c) : (e.forget c.distinct).IsClean ∧ AsLarge e (e.forget c.distinct) := by
  have hindex : (e.forget c.distinct).indexOf = Array.replicate e.indexOf.size unset := by
    refine Array.ext_getElem? fun i => ?_
    rw [Encoder.forget, h.noted_eq, List.foldl_toArray, getElem?_foldl_forget, Array.getElem?_replicate]
    by_cases hi : i < e.indexOf.size
    · rw [if_pos hi, Array.getElem?_eq_getElem hi, h.indexOf i hi]
      split
      · rfl
      · next hnot =>
        -- no ordinal of the palette has this slot
        refine congrArg some (slot_of_forall_ne fun v hv hvi => hnot ?_)
        exact List.mem_map.2 ⟨v, hv, hvi⟩
    · rw [if_neg hi, Array.getElem?_eq_none (Nat.le_of_not_lt hi)]
      split <;> rfl
  refine ⟨⟨fun i hi => ?_, fun k hk => ?_⟩, by rw [hindex, Array.size_replicate], rfl⟩
  · simp only [hindex, Array.getElem_replicate]
  · simp only [Encoder.forget, Vector.getElem_mapIdx]
    split
    · rfl
    · next hout =>
      rw [h.distinct] at hout
      rw [h.palette k hk, List.getElem?_eq_none (Nat.le_of_not_lt hout), Option.getD_none]

/-! ## The choice of a palette -/

/-- The width of the entries that a section gets. -/
def entryBits (blocks : SectionArray) (g : GlobalPalette) : Nat :=
  (PaletteKind.blocks.localBits blocks.storedPalette.length).getD g.bits

/-- The tables have room for every ordinal that the section stores, and for its packed entries. -/
structure Fits (e : Encoder) (blocks : SectionArray) (g : GlobalPalette) : Prop where
  states : ∀ v ∈ blocks.storedPalette, v.toNat < e.indexOf.size
  words : Packed.wordsNeeded sectionBlocks (entryBits blocks g) ≤ e.words.size

theorem localBits_blocks_cases {len : Nat} (h : len ≤ UInt32.size) :
    (PaletteKind.blocks.localBits len = none ∧ 256 < len) ∨
      (PaletteKind.blocks.localBits len = some 0 ∧ len ≤ 1) ∨
      ∃ bits, PaletteKind.blocks.localBits len = some (bits + 1) ∧ bits < 8 ∧ len ≤ 2 ^ (bits + 1) ∧
        1 < len ∧ bits + 1 = max 4 (bitLength (len - 1)) := by
  have hmax : 2 ^ PaletteKind.blocks.maxBits = 256 := rfl
  have hmin : PaletteKind.blocks.minBits = 4 := rfl
  rw [PaletteKind.localBits_eq .blocks h, hmax, hmin]
  by_cases hone : len ≤ 1
  · exact .inr (.inl ⟨if_pos hone, hone⟩)
  rw [if_neg hone]
  by_cases hfew : len ≤ 256
  · have h8 : bitLength (len - 1) ≤ 8 := (bitLength_pred_le_iff (by omega)).2 hfew
    have hpred : max 4 (bitLength (len - 1)) - 1 + 1 = max 4 (bitLength (len - 1)) := by omega
    have hroom : len ≤ 2 ^ max 4 (bitLength (len - 1)) := (bitLength_pred_le_iff (by omega)).1 (Nat.le_max_right ..)
    refine .inr (.inr ⟨max 4 (bitLength (len - 1)) - 1, ?_, by omega, ?_, by omega, hpred⟩)
    · rw [if_pos hfew, hpred]
    · rwa [hpred]
  · exact .inl ⟨if_neg hfew, Nat.lt_of_not_le hfew⟩

/-! ## The entries -/

section

variable {entry : BlockState → Except Fault UInt32} {blocks : SectionArray} {l : List (Fin sectionBlocks)}
variable {entries entries' filled : Vector UInt32 sectionBlocks}

/-- Each of the given blocks gets its entry, and the other places are as before. -/
theorem fill_eq_ok (h : fill entry blocks l entries = .ok filled) (i : Fin sectionBlocks) :
    (i ∈ l → entry (blocks.cells.get i).stored = .ok (filled.get i)) ∧
      (i ∉ l → filled.get i = entries.get i) := by
  induction l generalizing entries with
  | nil =>
    cases h
    exact ⟨fun hi => absurd hi List.not_mem_nil, fun _ => rfl⟩
  | cons k l ih =>
    obtain ⟨x, hx, h⟩ := except_bind_eq_ok.1 h
    obtain ⟨hmem, hrest⟩ := ih h
    refine ⟨fun hi => ?_, fun hi => ?_⟩
    · by_cases hil : i ∈ l
      · exact hmem hil
      · -- this was the last time that the place was filled
        obtain rfl := (List.mem_cons.1 hi).resolve_right hil
        rw [hrest hil, hx]
        simp [Vector.get_eq_getElem]
    · rw [List.mem_cons, not_or] at hi
      rw [hrest hi.2]
      simp [Vector.get_eq_getElem, Fin.val_ne_of_ne (Ne.symm hi.1)]

theorem fill_of_ok (h : ∀ i ∈ l, ∃ x, entry (blocks.cells.get i).stored = .ok x)
    (entries : Vector UInt32 sectionBlocks) : ∃ filled, fill entry blocks l entries = .ok filled := by
  induction l generalizing entries with
  | nil => exact ⟨entries, rfl⟩
  | cons k l ih =>
    obtain ⟨x, hx⟩ := h k List.mem_cons_self
    obtain ⟨filled, hfilled⟩ := ih (fun i hi => h i (List.mem_cons_of_mem k hi)) (entries.set k x)
    exact ⟨filled, except_bind_eq_ok.2 ⟨x, hx, hfilled⟩⟩

/-- What is in the places before does not matter, as they are all filled. -/
theorem fill_congr (h : ∀ i, i ∉ l → entries.get i = entries'.get i) :
    fill entry blocks l entries = fill entry blocks l entries' := by
  induction l generalizing entries entries' with
  | nil => exact congrArg Except.ok (Vector.ext fun i hi => h ⟨i, hi⟩ List.not_mem_nil)
  | cons k l ih =>
    unfold fill
    cases hx : entry (blocks.cells.get k).stored with
    | error f => rfl
    | ok x =>
      refine ih fun i hi => ?_
      by_cases hik : i = k
      · subst hik
        simp [Vector.get_eq_getElem]
      · have hne : k.val ≠ i.val := Fin.val_ne_of_ne (Ne.symm hik)
        simpa [Vector.get_eq_getElem, hne] using h i (by simp [hik, hi])

end

/-- All places are filled. -/
theorem fill_finRange {entry : BlockState → Except Fault UInt32} {blocks : SectionArray}
    {entries filled : Vector UInt32 sectionBlocks}
    (h : fill entry blocks (List.finRange sectionBlocks) entries = .ok filled) {i : Nat} (hi : i < sectionBlocks) :
    entry blocks.cells[i].stored = .ok filled[i] :=
  (fill_eq_ok h ⟨i, hi⟩).1 (List.mem_finRange _)

/-- Entries that the palette takes back to their ordinals are packed into a section that stores the
blocks. -/
theorem pack_stores {bits : Nat} {palette : Palette} {entry : BlockState → Except Fault UInt32}
    {blocks : SectionArray} {g : GlobalPalette} {nonAir : UInt16} (h32 : bits ≤ 32)
    (hwords : Packed.wordsNeeded sectionBlocks bits ≤ e.words.size)
    (hentry : palette.Returns g bits entry blocks.storedPalette) :
    ∃ s entries words, e.pack bits palette entry blocks nonAir = .ok (s, { e with entries, words }) ∧
      words.size = e.words.size ∧ s.Stores g blocks.storedCells := by
  have hall : ∀ i ∈ List.finRange sectionBlocks, ∃ x, entry (blocks.cells.get i).stored = .ok x := by
    intro i _
    obtain ⟨x, hx, -⟩ := hentry _ (blocks.stored_mem_palette i i.isLt)
    exact ⟨x, hx⟩
  obtain ⟨entries, hfill⟩ := fill_of_ok hall e.entries
  have hsize : entries.toArray.size = sectionBlocks := Vector.size_toArray _
  have hroom : Packed.wordsNeeded entries.toArray.size bits ≤ e.words.size := by rwa [hsize]
  obtain ⟨words, hpack, hws, -⟩ := Packed.packInto_ok hroom
  -- what the scratch words held before stands behind the used ones, and is cut off
  obtain ⟨hextract, hword⟩ := Packed.extract_of_packInto hpack
  have hused := hextract.trans (congrArg (Packed.wordsNeeded · bits) hsize)
  refine ⟨_, entries, words, except_bind_eq_ok.2 ⟨entries, hfill, except_bind_eq_ok.2 ⟨_, hpack, rfl⟩⟩, hws,
    rfl, rfl, h32, hused, fun i hi => ?_⟩
  have hi' : i < entries.toArray.size := by rwa [hsize]
  obtain ⟨x, hx, hlt, hres⟩ := hentry _ (blocks.stored_mem_palette i hi)
  cases hx.symm.trans (fill_finRange hfill hi)
  have h64 : bits ≤ 64 := Nat.le_trans h32 (by decide)
  rw [blocks.getElem_storedCells]
  exact PalettedSection.fieldValue_eq (Packed.field_of_packed h64 hi' hlt hword) hres

/-! ## Every section -/

/-- A section with one ordinal to store stores it everywhere. -/
theorem storedCells_of_length {blocks : SectionArray} (h : blocks.storedPalette.length ≤ 1) :
    blocks.storedCells = Vector.replicate sectionBlocks blocks.first.stored := by
  refine Vector.ext fun i hi => ?_
  have hmem := blocks.stored_mem_palette i hi
  have hfirst := blocks.stored_mem_palette 0 (by decide)
  rw [blocks.getElem_storedCells, Vector.getElem_replicate, SectionArray.first]
  obtain ⟨v, hone⟩ := List.length_eq_one_iff.1 (Nat.le_antisymm h (List.length_pos_of_mem hmem))
  rw [hone, List.mem_singleton] at hmem hfirst
  rw [hmem, hfirst]

section

variable {blocks : SectionArray} {g : GlobalPalette}

/-- Once the blocks of a section were noted, as many slots are in use as it has ordinals. -/
theorem Noted.distinct_eq (h : e.Noted (blocks.cells.toList.map BlockState.stored) c) :
    c.distinct = blocks.storedPalette.length := h.distinct

/-- The blocks have been counted. -/
theorem Noted.nonAir_eq (h : e.Noted (blocks.cells.toList.map BlockState.stored) c) : c.nonAir = blocks.nonAir := by
  have hcount := h.nonAir
  rw [countP_stored, Vector.countP_toList] at hcount
  have hall := blocks.nonAir_add_countP
  exact UInt16.toNat_inj.1 (by omega)

/-- A section of one ordinal has it in the first slot. -/
theorem Noted.get_zero (h : e.Noted (blocks.cells.toList.map BlockState.stored) c)
    (hone : blocks.storedPalette.length ≤ 1) : e.palette.get ⟨0, sectionBlocks_pos⟩ = blocks.first.stored := by
  have hfirst := blocks.stored_mem_palette 0 (by decide)
  obtain ⟨v, hv⟩ := List.length_eq_one_iff.1 (Nat.le_antisymm hone (List.length_pos_of_mem hfirst))
  have hpalette : e.palette[0] = blocks.storedPalette[0]?.getD unset := h.palette 0 (by decide)
  rw [hv, List.mem_singleton] at hfirst
  rw [hv] at hpalette
  exact hpalette.trans hfirst.symm

/-- The tables of the first pass do not depend on the entries and the words. -/
theorem Noted.scratch (h : e.Noted seen c) (entries : Vector UInt32 sectionBlocks) (words : Array UInt64) :
    Noted seen { e with entries, words } c :=
  ⟨h.room, h.distinct, h.palette, h.indexOf, h.nonAir⟩

/-- Packing after the ordinals were noted stores the blocks, and forgetting leaves the encoder clean:
packing changes no table of the first pass. -/
theorem Noted.pack_forget {bits : Nat} {palette : Palette} {entry : BlockState → Except Fault UInt32}
    {nonAir : UInt16} (hnoted : e.Noted seen c) (h32 : bits ≤ 32)
    (hwords : Packed.wordsNeeded sectionBlocks bits ≤ e.words.size)
    (hentry : palette.Returns g bits entry blocks.storedPalette) :
    ∃ encoded e', e.pack bits palette entry blocks nonAir = .ok (encoded, e') ∧
      encoded.Stores g blocks.storedCells ∧ (e'.forget c.distinct).IsClean ∧ AsLarge e (e'.forget c.distinct) := by
  obtain ⟨encoded, entries, words, hpack, hsize, hstores⟩ := pack_stores h32 hwords hentry
  have hlarge : AsLarge e { e with entries, words } := ⟨rfl, hsize⟩
  obtain ⟨hclean, hlarge'⟩ := (hnoted.scratch entries words).forget
  exact ⟨encoded, _, hpack, hstores, hclean, hlarge.trans hlarge'⟩

/-- A clean encoder with room for a section notes all of its ordinals, and has room for the words after that. -/
theorem Fits.noteAll (hfits : e.Fits blocks g) (hclean : e.IsClean) :
    ∃ e₁ c, e.noteAll {} blocks.cells.toList = .ok (e₁, c) ∧ e₁.Noted (blocks.cells.toList.map BlockState.stored) c ∧
      AsLarge e e₁ ∧ Packed.wordsNeeded sectionBlocks (entryBits blocks g) ≤ e₁.words.size := by
  have hstates : ∀ v ∈ blocks.cells.toList, v.stored.toNat < e.indexOf.size := fun v hv =>
    hfits.states _ (List.mem_eraseDups.2 (List.mem_map_of_mem hv))
  have hroom : ([] : List BlockState).length + blocks.cells.toList.length ≤ sectionBlocks := by simp
  obtain ⟨e₁, c, hnote, hnoted, hlarge⟩ := (noted_of_clean hclean).noteAll hroom hstates
  exact ⟨e₁, c, hnote, hnoted, hlarge, hlarge.words ▸ hfits.words⟩

/-- A clean encoder with room for a section encodes it: the section stores the blocks, whichever palette
it gets, and the encoder is clean again. The global palette is asked only beyond 256 ordinals. -/
theorem encode_stores (hclean : e.IsClean) (hfits : e.Fits blocks g)
    (hglobal : 256 < blocks.storedPalette.length → Palette.global.Returns g g.bits g.idOf blocks.storedPalette)
    (s : Session) :
    ∃ encoded e' t, e.encode blocks g s = .ok (encoded, e') t ∧ encoded.Stores g blocks.storedCells ∧
      e'.IsClean ∧ AsLarge e e' ∧ t.width = s.width := by
  obtain ⟨e₁, c, hnote, hnoted, hlarge, hroom⟩ := hfits.noteAll hclean
  have hlen := hnoted.distinct_eq
  have hmax := blocks.length_storedPalette_le_size
  rw [entryBits] at hroom
  rw [encode, Run.bind_of_ok (Run.lift_of_ok hnote)]
  dsimp only
  rw [hlen]
  rcases localBits_blocks_cases hmax with ⟨hbits, hmany⟩ | ⟨hbits, hone⟩ | ⟨bits, hbits, h8, hpow, -⟩
  · -- more ordinals than a local palette holds
    rw [hbits, Option.getD_none] at hroom
    obtain ⟨encoded, e', hpack, hstores, hc, hl⟩ := hnoted.pack_forget g.bits_le hroom (hglobal hmany)
    rw [hbits, ← hlen]
    exact ⟨encoded, _, _, (Run.bind_of_ok (Run.emit_eq _) _).trans (Run.bind_of_ok (Run.lift_of_ok hpack) _),
      hstores, hc, hlarge.trans hl, rfl⟩
  · -- one ordinal for all blocks, and nothing to pack
    rw [hbits, hnoted.get_zero hone, ← hlen]
    obtain ⟨hc, hl⟩ := hnoted.forget
    refine ⟨_, _, s, rfl, ?_, hc, hlarge.trans hl, rfl⟩
    rw [storedCells_of_length hone]
    exact PalettedSection.single_stores g _ _
  · rw [hbits, Option.getD_some] at hroom
    have hstates : ∀ v ∈ blocks.cells.toList.map BlockState.stored, v.toNat < e₁.indexOf.size := fun v hv => by
      rw [hlarge.indexOf]
      exact hfits.states v (List.mem_eraseDups.2 hv)
    have hreturns := hnoted.returns g hstates hpow (by omega)
    obtain ⟨encoded, e', hpack, hstores, hc, hl⟩ := hnoted.pack_forget (by omega) hroom hreturns
    rw [hbits, ← hlen]
    exact ⟨encoded, _, s, Run.bind_of_ok (Run.lift_of_ok hpack) _, hstores, hc, hlarge.trans hl, rfl⟩

end

end Encoder

end VoxelStore
