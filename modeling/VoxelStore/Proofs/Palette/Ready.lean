import VoxelStore.Proofs.Column.Registry
import VoxelStore.Proofs.Palette.Encoding
/-!
# Encoders for a registry

The tables of `Encoder.create` and `GlobalPalette.identity` have room for every section of their registry
(`Encoder.Ready`), so that every layer of a column of the registry is encoded, and comes back.
-/

namespace VoxelStore

/-! ## Room -/

/-- Storing the placeholder as air stays within every registry that has air. -/
theorem BlockState.stored_lt {v n : BlockState} (hv : v < n) (hn : 1 < n) : v.stored < n := by
  unfold stored
  split
  · exact hn
  · exact hv

/-- An array of one value stores one ordinal. -/
theorem SectionArray.length_storedPalette_of_replicate {blocks : SectionArray} {v : BlockState}
    (h : blocks.cells = Vector.replicate sectionBlocks v) : blocks.storedPalette.length ≤ 1 := by
  have hone : blocks.storedPalette ⊆ [v.stored] := by
    intro u hu
    obtain ⟨i, hi, rfl⟩ := mem_storedPalette.1 hu
    simp [h]
  exact ((nodup_eraseDups _).subperm hone).length_le

theorem SectionArray.InRegistry.lt_of_mem {blocks : SectionArray} {n v : UInt32} (h : blocks.InRegistry n)
    (hn : 1 < n) (hv : v ∈ blocks.storedPalette) : v < n := by
  obtain ⟨i, hi, rfl⟩ := mem_storedPalette.1 hv
  exact BlockState.stored_lt (h.cells i hi) hn

/-- The ids of the identity are 32-bit numbers. -/
theorem GlobalPalette.size_identity_le (n : UInt32) : (identity n).size ≤ UInt32.size := by
  have hn := n.toNat_lt_size
  rw [GlobalPalette.size, identity, size_ordinalsBelow]
  omega

/-- The identity knows every ordinal below its size. -/
theorem GlobalPalette.identity_covers {n : UInt32} {ordinals : List BlockState} (h : ∀ v ∈ ordinals, v < n) :
    (identity n).Covers ordinals := by
  intro v hv
  have hlt : v.toNat < (ordinalsBelow n).size := by
    rw [size_ordinalsBelow]
    exact Nat.lt_of_lt_of_le (UInt32.lt_iff_toNat_lt.1 (h v hv)) (Nat.le_max_left ..)
  refine Array.mem_iff_getElem.2 ⟨v.toNat, hlt, ?_⟩
  exact (getElem_ordinalsBelow n _ hlt).trans UInt32.ofNat_toNat

theorem SectionArray.InRegistry.covers {blocks : SectionArray} {n : UInt32} (h : blocks.InRegistry n)
    (hn : 1 < n) : (GlobalPalette.identity n).Covers blocks.storedPalette :=
  GlobalPalette.identity_covers fun _ hv => h.lt_of_mem hn hv

theorem GlobalPalette.idOf_identity {n v : UInt32} (h : v < n) : (identity n).idOf v = .ok v := by
  have hlt : v.toNat < (ordinalsBelow n).size := by
    rw [size_ordinalsBelow]
    exact Nat.lt_of_lt_of_le (UInt32.lt_iff_toNat_lt.1 h) (Nat.le_max_left ..)
  rw [idOf, identity, Array.getElem?_eq_getElem hlt, getElem_ordinalsBelow, UInt32.ofNat_toNat]

/-- Two entries of at most 32 bits share a word. -/
theorem Packed.wordsNeeded_le {bits : Nat} (h : bits ≤ 32) :
    wordsNeeded sectionBlocks bits ≤ Encoder.maxWords := by
  rcases Nat.eq_zero_or_pos bits with rfl | hpos
  · rw [wordsNeeded_zero]
    exact Nat.zero_le _
  · have htwo : 2 ≤ perWord bits := (Nat.le_div_iff_mul_le hpos).2 (by omega)
    have hmax : Encoder.maxWords = 2048 := rfl
    have hlen : sectionBlocks = 4096 := rfl
    rw [wordsNeeded, hmax, hlen]
    refine Nat.lt_succ_iff.1 ((Nat.div_lt_iff_lt_mul (by omega)).2 ?_)
    omega

namespace Encoder

variable {e : Encoder} {blocks : SectionArray} {g : GlobalPalette} {n : UInt32}

/-- The tables have the sizes for a registry of `n` states, and nothing is noted in them. -/
structure Ready (n : UInt32) (e : Encoder) : Prop where
  clean : e.IsClean
  states : e.indexOf.size = n.toNat
  words : e.words.size = maxWords

theorem ready_create (n : UInt32) : (create n).Ready n :=
  ⟨isClean_clean _ _, Array.size_replicate, Array.size_replicate⟩

theorem Ready.trans {e' : Encoder} (h : e.Ready n) (hclean : e'.IsClean) (hlarge : AsLarge e e') : e'.Ready n :=
  ⟨hclean, hlarge.indexOf.trans h.states, hlarge.words.trans h.words⟩

/-- Such tables have room for every section whose ordinals lie below `n`. -/
theorem Ready.fits_of_lt (he : e.Ready n) (h : ∀ v ∈ blocks.storedPalette, v < n) (g : GlobalPalette) :
    e.Fits blocks g where
  states v hv := by
    rw [he.states]
    exact UInt32.lt_iff_toNat_lt.1 (h v hv)
  words := by
    rw [he.words, entryBits]
    refine Packed.wordsNeeded_le ?_
    have hmax := blocks.length_storedPalette_le_size
    rcases localBits_blocks_cases hmax with ⟨hbits, -⟩ | ⟨hbits, -⟩ | ⟨bits, hbits, h8, -⟩
    · rw [hbits]
      exact g.bits_le
    · rw [hbits]
      exact Nat.zero_le _
    · rw [hbits, Option.getD_some]
      omega

theorem Ready.fits (he : e.Ready n) (hblocks : blocks.InRegistry n) (hn : 1 < n) (g : GlobalPalette) :
    e.Fits blocks g := he.fits_of_lt (fun _ hv => hblocks.lt_of_mem hn hv) g

/-- Such an encoder serves every section of the registry, and the next one after it. -/
theorem Ready.encode_stores (he : e.Ready n) (hblocks : blocks.InRegistry n) (hn : 1 < n) (s : Session) :
    ∃ encoded e' t, e.encode blocks (.identity n) s = .ok (encoded, e') t ∧
      encoded.Stores (.identity n) blocks.storedCells ∧ e'.Ready n ∧ t.width = s.width := by
  obtain ⟨encoded, e', t, hrun, hstores, hclean, hlarge, hw⟩ :=
    Encoder.encode_stores he.clean (he.fits hblocks hn _)
      (fun _ => (hblocks.covers hn).returns (GlobalPalette.size_identity_le n)) s
  exact ⟨encoded, e', t, hrun, hstores, he.trans hclean hlarge, hw⟩

/-! ## The layers of a column -/

/-- A layer of the registry is encoded unless it is empty, and the encoder is ready for the next one. -/
theorem encodeLayer_stores {c : Column} (he : e.Ready n) (hc : c.InRegistry n) (hn : 1 < n) (layer : Int)
    (s : Session) :
    ∃ answer e' t, e.encodeLayer c layer (.identity n) s = .ok (answer, e') t ∧ e'.Ready n ∧
      t.width = s.width ∧ (answer = none ↔ c.state layer = .empty) ∧
      ∀ encoded, answer = some encoded →
        encoded.Stores (.identity n) (((c.layer layer).contents c.background).map BlockState.stored) := by
  have hlayer := hc.layer layer
  rw [encodeLayer, Column.state]
  cases h : c.layer layer with
  | empty spare => exact ⟨none, e, s, rfl, he, rfl, by simp [Layer.state], by rintro encoded ⟨⟩⟩
  | uniform value spare =>
    refine ⟨_, e, s, rfl, he, rfl, by simp [Layer.state], ?_⟩
    rintro encoded ⟨⟩
    rw [Layer.contents, Vector.map_replicate]
    exact PalettedSection.single_stores ..
  | present blocks =>
    rw [h] at hlayer
    obtain ⟨encoded, e', t, hrun, hstores, he', hw⟩ := he.encode_stores hlayer hn s
    refine ⟨some encoded, e', t, Run.bind_of_ok hrun _, he', hw, by simp [Layer.state], ?_⟩
    rintro _ ⟨⟩
    exact hstores

/-! ## A section with many ordinals -/

/-- The first 300 ordinals in turn, the placeholder among them. -/
def manyStates : SectionArray where
  width := .narrow
  cells := Vector.ofFn fun i => UInt32.ofNat (i % 300)
  fits i hi := by
    rw [Vector.getElem_ofFn]
    refine UInt32.le_iff_toNat_le.2 ?_
    have hlt : i % 300 < 300 := Nat.mod_lt _ (by decide)
    rw [UInt32.toNat_ofNat_of_lt' (Nat.lt_trans hlt (by decide))]
    exact Nat.le_of_lt (Nat.lt_trans hlt (by decide))

theorem manyStates_inRegistry : manyStates.InRegistry 300 where
  width := rfl
  cells i hi := by
    have hlt : i % 300 < 300 := Nat.mod_lt _ (by decide)
    simp only [manyStates, Vector.getElem_ofFn]
    refine UInt32.lt_iff_toNat_lt.2 ?_
    rw [UInt32.toNat_ofNat_of_lt' (Nat.lt_trans hlt (by decide))]
    exact hlt

end Encoder

end VoxelStore
