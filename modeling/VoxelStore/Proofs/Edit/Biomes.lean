import VoxelStore.Proofs.Edit.LastWrite
import VoxelStore.Proofs.Palette.Biomes
import VoxelStore.Proofs.Palette.Ready
/-!
# Biomes from an edit to a stored section and back

The biomes that were set in a layer of an edit are taken out as a grid, encoded, and decoded again. After all of
that every block of the layer has the biome that was last set in its cell, or the default where none was, unless
the biomes are stored in ids that are cut (`history_encodeBiomes`).
-/

namespace VoxelStore

namespace Edit

variable {e : Edit} {bottom top : Int} {ops : List Op} {grid : Vector (Option Biome) sectionBiomes} {p : Position}

theorem getBiome_eq_lastWrite (h : History bottom top ops e) (p : Position) :
    e.getBiome p = lastWrite (Op.biomeAt p) ops := by
  have hread := SideData.read_after (·.biome p) (Op.biomeAt p) some (fun m _ _ => SideData.biome_step p m) h.lit
  rw [← (sideData_of_history h).1] at hread
  refine hread.trans ?_
  cases lastWrite (Op.biomeAt p) ops <;> rfl

theorem getBiome_of_grid (h : e.biomes? p.layer = some grid) : e.getBiome p = grid.get p.biomeIndex := by
  rw [getBiome, h]
  rfl

theorem hasBiomes_of_getBiome {biome : Biome} (h : e.getBiome p = some biome) : e.hasBiomes p.layer := by
  cases hgrid : e.biomes? p.layer with
  | none =>
    rw [getBiome, hgrid] at h
    cases h
  | some grid => rw [hasBiomes, hgrid, Option.isSome_some]

theorem getElem_resolved (h : e.biomes? p.layer = some grid) (d : Biome)
    (hi : p.biomeIndex.val < (BiomeGrid.resolved d grid.toArray).size) :
    (BiomeGrid.resolved d grid.toArray)[p.biomeIndex.val] = ((e.getBiome p).getD d).toUInt32 := by
  rw [getBiome_of_grid h]
  simp [BiomeGrid.resolved, Vector.get_eq_getElem]

/-- The biome of a block is among those of the grid of its layer. -/
theorem mem_distinct_of_grid (h : e.biomes? p.layer = some grid) (d : Biome) :
    ((e.getBiome p).getD d).toUInt32 ∈ BiomeGrid.distinct (BiomeGrid.resolved d grid.toArray) := by
  have hi : p.biomeIndex.val < (BiomeGrid.resolved d grid.toArray).size := by simp [BiomeGrid.resolved]
  rw [BiomeGrid.mem_distinct, ← getElem_resolved h d hi]
  exact Array.getElem_mem hi

/-- After any history, the biomes of a layer in which any were set are encoded into a section, if the global palette
knows them where they are more than eight. The section decodes to the biomes, as long as the palette has no more ids
than there are 32-bit numbers; each cell reads, at every block of it, the biome that was last set there, or the
default. Of a larger palette the ids are cut to its width, and a cell of a grid that uses them reads its biome if and
only if the id has room in that. The section counts no blocks. One distinct biome needs no entries; two to eight are
found, in the order of first sight, by indices of the least width; more are ids of the global palette. And nothing of
a grid matters but the biomes, set or by default. -/
theorem history_encodeBiomes (h : History bottom top ops e) :
    (∀ p, e.getBiome p = lastWrite (Op.biomeAt p) ops) ∧
      (∀ layer, e.hasBiomes layer → ∃ grid, e.biomes? layer = some grid ∧
        ∀ (d : Biome) (g : GlobalPalette),
          let distinct := BiomeGrid.distinct (BiomeGrid.resolved d grid.toArray)
          (8 < distinct.length → g.Covers distinct) →
          ∃ s values, BiomeGrid.encode grid.toArray d g = .ok s ∧
            (∀ p : Position, p.layer = layer →
              values[p.biomeIndex.val]? = some ((e.getBiome p).getD d).toUInt32) ∧
            (g.size ≤ UInt32.size → s.decode g = pure values) ∧
            (s.decode g = pure values ↔ (8 < distinct.length → ∀ biome ∈ distinct, g.IdFits biome)) ∧
            (∀ p : Position, p.layer = layer →
              (s.get g p.biomeIndex = pure ((e.getBiome p).getD d).toUInt32 ↔
                (8 < distinct.length → g.IdFits ((e.getBiome p).getD d).toUInt32))) ∧
            s.nonAir = 0 ∧ 0 < distinct.length ∧
            (∀ biome, distinct = [biome] → s.palette = .single biome ∧ s.data.bits = 0 ∧ s.data.words = #[]) ∧
            (1 < distinct.length → distinct.length ≤ 8 → s.palette = .indirect distinct.toArray ∧
              ∀ b, s.data.bits ≤ b ↔ distinct.length ≤ 2 ^ b) ∧
            (8 < distinct.length → s.palette = .global ∧ s.data.bits = g.bits)) ∧
      ∀ (cells cells' : Vector (Option Biome) sectionBiomes) (d d' : Biome) (g : GlobalPalette),
        (∀ i (h : i < sectionBiomes), cells[i].getD d = cells'[i].getD d') →
        BiomeGrid.encode cells.toArray d g = BiomeGrid.encode cells'.toArray d' g := by
  refine ⟨getBiome_eq_lastWrite h, fun layer hlayer => ?_, fun cells cells' d d' g hcells => ?_⟩
  · obtain ⟨grid, hgrid⟩ := Option.isSome_iff_exists.1 hlayer
    refine ⟨grid, hgrid, ?_⟩
    intro d g distinct hg
    obtain ⟨s, hs, hencodes⟩ := BiomeGrid.encode_encodes grid.size_toArray hg
    have hsize : (BiomeGrid.resolved d grid.toArray).size = sectionBiomes := by simp [BiomeGrid.resolved]
    have hindex : ∀ p : Position, p.biomeIndex.val < (BiomeGrid.resolved d grid.toArray).size := fun p =>
      Nat.lt_of_lt_of_eq p.biomeIndex.isLt hsize.symm
    refine ⟨s, BiomeGrid.resolved d grid.toArray, hs, fun p hp => ?_, fun hids => ?_, hencodes.decode_iff,
      fun p hp => ?_, hencodes.nonAir, ?_, fun biome hone => ?_, hencodes.indirect, hencodes.global⟩
    · subst hp
      rw [Array.getElem?_eq_getElem (hindex p), getElem_resolved hgrid]
    · exact hencodes.decode_iff.2 fun hmany biome hbiome =>
        GlobalPalette.idFits_of_size hids (hg hmany biome hbiome)
    · subst hp
      have hread := hencodes.value _ (hindex p)
      rwa [getElem_resolved hgrid] at hread
    · exact BiomeGrid.length_distinct_pos (by rw [hsize]; decide)
    · rw [hencodes.single biome hone]
      exact ⟨rfl, rfl, rfl⟩
  · refine BiomeGrid.encode_congr cells.size_toArray cells'.size_toArray ?_ g
    refine Array.ext (by simp [BiomeGrid.resolved]) fun i hi _ => ?_
    have hi' : i < sectionBiomes := by simpa [BiomeGrid.resolved] using hi
    simp [BiomeGrid.resolved, hcells i hi']

/-- Biomes set before and after the column grew downwards. A cell is read at any of its blocks, and a cell that
was not set has the default. -/
theorem history_encodeBiomes_growth :
    ∃ e, History 0 3 [.setBiome ⟨4, 40, 8⟩ 7, .setBlock ⟨0, -50, 0⟩ 3, .setBiome ⟨0, 33, 1⟩ 9] e ∧
      ∃ grid s values, e.biomes? 2 = some grid ∧
        BiomeGrid.encode grid.toArray 5 (.identity 65536) = .ok s ∧ s.decode (.identity 65536) = pure values ∧
        values[41]? = some 7 ∧ values[0]? = some 9 ∧ values[1]? = some 5 := by
  obtain ⟨e, he⟩ := exists_history (n := 16) (show (0 : Int) ≤ 3 by decide) (by decide)
    [.setBiome ⟨4, 40, 8⟩ 7, .setBlock ⟨0, -50, 0⟩ 3, .setBiome ⟨0, 33, 1⟩ 9]
    (by simp [Op.Legal, Op.Lit, Op.columnOps, Column.Op.Legal])
  obtain ⟨hlast, hencode, -⟩ := history_encodeBiomes he
  have hseven : e.getBiome ⟨4, 40, 8⟩ = some 7 := (hlast _).trans (by decide)
  have hnine : e.getBiome ⟨0, 33, 1⟩ = some 9 := (hlast _).trans (by decide)
  have hunset : e.getBiome ⟨4, 32, 0⟩ = none := (hlast _).trans (by decide)
  obtain ⟨grid, hgrid, hform⟩ := hencode 2 (hasBiomes_of_getBiome hseven)
  have hcovers : (GlobalPalette.identity 65536).Covers
      (BiomeGrid.distinct (BiomeGrid.resolved 5 grid.toArray)) := by
    refine GlobalPalette.identity_covers fun v hv => ?_
    obtain ⟨cell, -, rfl⟩ := Array.mem_map.1 (BiomeGrid.mem_distinct.1 hv)
    rw [UInt32.lt_iff_toNat_lt, UInt16.toNat_toUInt32]
    exact UInt16.toNat_lt _
  obtain ⟨s, values, hs, hvalues, hdecode, -⟩ := hform 5 (.identity 65536) fun _ => hcovers
  refine ⟨e, he, grid, s, values, hgrid, hs, hdecode (GlobalPalette.size_identity_le _), ?_, ?_, ?_⟩
  · exact (hvalues ⟨4, 40, 8⟩ rfl).trans (by rw [hseven]; rfl)
  · exact (hvalues ⟨0, 33, 1⟩ rfl).trans (by rw [hnine]; rfl)
  · exact (hvalues ⟨4, 32, 0⟩ rfl).trans (by rw [hunset]; rfl)

/-- The first block of one of the first cells of layer zero. -/
def cellStart (k : Nat) : Position := ⟨4 * (k % 4 : Nat), 4 * (k / 4 : Nat), 0⟩

/-- Nine biomes in as many cells. -/
def nineBiomes : List Op := (List.range 9).map fun k => .setBiome (cellStart k) (UInt16.ofNat k)

/-- With a palette of `2 ^ 32 + 1` ids, which has an ordinal for each of them, nothing is stored for nine biomes, and
the cell of the last one reads another biome. -/
theorem encodeBiomes_wrapping :
    ∃ e, History 0 0 nineBiomes e ∧ e.getBiome ⟨0, 8, 0⟩ = some 8 ∧
      ∃ grid s, e.biomes? 0 = some grid ∧
        GlobalPalette.wrapping.Covers (BiomeGrid.distinct (BiomeGrid.resolved 0 grid.toArray)) ∧
        BiomeGrid.encode grid.toArray 0 .wrapping = .ok s ∧ s.data.bits = 0 ∧
        s.decode .wrapping ≠ pure (BiomeGrid.resolved 0 grid.toArray) ∧
        s.get .wrapping (Position.biomeIndex ⟨0, 8, 0⟩) ≠ pure 8 := by
  obtain ⟨e, he⟩ := exists_history (n := 16) (show (0 : Int) ≤ 0 by decide) (by decide) nineBiomes
    (by simp [nineBiomes, Op.Legal, Op.Lit, Op.columnOps, Column.Op.Legal])
  have hset : ∀ k, k < 9 → (cellStart k).layer = 0 ∧ e.getBiome (cellStart k) = some (UInt16.ofNat k) := by
    intro k hk
    rw [getBiome_eq_lastWrite he]
    interval_cases k <;> decide
  obtain ⟨hlayer, height⟩ := hset 8 (by decide)
  obtain ⟨grid, hgrid⟩ := Option.isSome_iff_exists.1 (hasBiomes_of_getBiome height)
  rw [hlayer] at hgrid
  have hmem : ∀ k, k < 9 → UInt32.ofNat k ∈ BiomeGrid.distinct (BiomeGrid.resolved 0 grid.toArray) := by
    intro k hk
    obtain ⟨hlayer, hbiome⟩ := hset k hk
    have hcell := mem_distinct_of_grid (p := cellStart k) (hlayer.symm ▸ hgrid) 0
    rw [hbiome] at hcell
    interval_cases k <;> exact hcell
  have hmany : 8 < (BiomeGrid.distinct (BiomeGrid.resolved 0 grid.toArray)).length := by
    have hnodup : ((List.range 9).map UInt32.ofNat).Nodup := by decide
    refine (hnodup.subperm fun v hv => ?_).length_le
    obtain ⟨k, hk, rfl⟩ := List.mem_map.1 hv
    exact hmem k (List.mem_range.1 hk)
  have hcovers := GlobalPalette.covers_wrapping (BiomeGrid.distinct (BiomeGrid.resolved 0 grid.toArray))
  obtain ⟨s, hs, hencodes⟩ := BiomeGrid.encode_encodes grid.size_toArray fun _ => hcovers
  have hcut : ¬GlobalPalette.wrapping.IdFits 8 := by
    rw [GlobalPalette.idFits_wrapping_iff]
    decide
  refine ⟨e, he, height, grid, s, hgrid, hcovers, hs, ?_, ?_, ?_⟩
  · rw [(hencodes.global hmany).2, GlobalPalette.bits_wrapping]
  · exact fun hpure => hcut (hencodes.decode_iff.1 hpure hmany 8 (hmem 8 (by decide)))
  · have hi : (cellStart 8).biomeIndex.val < (BiomeGrid.resolved 0 grid.toArray).size := by
      simp [BiomeGrid.resolved]
    have hread := hencodes.value _ hi
    rw [getElem_resolved (p := cellStart 8) (hlayer.symm ▸ hgrid), height] at hread
    exact fun hpure => hcut (hread.1 hpure hmany)

end Edit

end VoxelStore
