import VoxelStore.Proofs.Edit.LastWrite
import VoxelStore.Proofs.Geometry
/-!
# A write changes the block that it names

Blocks, tiles and biome cells each have an address of their own, and all of them cut the same space: two positions are
the same block of a column exactly if layer and block index agree, and a biome cell is 64 of these blocks. So what is
written at a position is read at every position of the same block, or of the same cell, and nowhere else
(`history_addresses`).
-/

namespace VoxelStore

/-! ## The blocks of a biome cell -/

namespace Position

/-- The blocks of the cell of a position, by their places in it. -/
def inCell (p : Position) (place : Fin 4 × Fin 4 × Fin 4) : Position :=
  ⟨p.x % 16 / 4 * 4 + place.1, p.y / 4 * 4 + place.2.1, p.z % 16 / 4 * 4 + place.2.2⟩

theorem inCell_injective (p : Position) : Function.Injective p.inCell := by
  rintro ⟨a, b, c⟩ ⟨a', b', c'⟩ h
  obtain ⟨hx, hy, hz⟩ := Position.mk.inj h
  rw [Prod.mk.injEq, Prod.mk.injEq, Fin.ext_iff, Fin.ext_iff, Fin.ext_iff]
  dsimp only at hx hy hz
  omega

theorem range_inCell (p : Position) : Set.range p.inCell = {q | q.inColumn = q ∧ q.SameCell p} := by
  ext q
  simp only [Set.mem_range, Set.mem_ofPred_eq, SameCell, layer]
  constructor
  · rintro ⟨⟨a, b, c⟩, rfl⟩
    rw [inCell, inColumn, mk.injEq]
    dsimp only
    omega
  · rintro ⟨hcolumn, hlayer, hx, hy, hz⟩
    obtain ⟨hx', -, hz'⟩ := Position.mk.inj hcolumn
    refine ⟨(⟨(q.x % 4).toNat, by omega⟩, ⟨(q.y % 4).toNat, by omega⟩, ⟨(q.z % 4).toNat, by omega⟩), ?_⟩
    obtain ⟨x, y, z⟩ := q
    rw [inCell, mk.injEq]
    dsimp only at *
    omega

/-- A biome cell has 64 blocks. -/
theorem ncard_sameCell (p : Position) : {q : Position | q.inColumn = q ∧ q.SameCell p}.ncard = 64 := by
  rw [← range_inCell, ← Set.image_univ, Set.ncard_image_of_injective _ p.inCell_injective, Set.ncard_univ]
  simp

end Position

namespace WordPosition

theorem inColumn_eq_iff {p q : WordPosition} :
    p.inColumn = q.inColumn ↔ p.layer = q.layer ∧ p.blockIndex = q.blockIndex := by
  rw [← position_injective.eq_iff, position_inColumn, position_inColumn, Position.inColumn_eq_iff,
    ← Int32.toInt_inj, ← Int32.toInt_inj, toInt_layer, toInt_layer, toInt_blockIndex, toInt_blockIndex,
    Fin.ext_iff, Nat.cast_inj]

theorem sameCell_iff {p q : WordPosition} :
    p.position.SameCell q.position ↔ p.layer = q.layer ∧ p.biomeIndex = q.biomeIndex := by
  rw [Position.sameCell_iff, ← Int32.toInt_inj, ← Int32.toInt_inj, toInt_layer, toInt_layer, toInt_biomeIndex,
    toInt_biomeIndex, Fin.ext_iff, Nat.cast_inj]

theorem ncard_sameCell (p : WordPosition) :
    {q : WordPosition | q.inColumn = q ∧ q.layer = p.layer ∧ q.biomeIndex = p.biomeIndex}.ncard = 64 := by
  rw [← Position.ncard_sameCell p.position, ← Set.ncard_image_of_injective _ position_injective]
  congr 1
  ext q
  simp only [Set.mem_image, Set.mem_ofPred_eq, ← sameCell_iff]
  constructor
  · rintro ⟨w, ⟨hcolumn, hcell⟩, rfl⟩
    rw [← position_inColumn, hcolumn]
    exact ⟨rfl, hcell⟩
  · rintro ⟨hcolumn, hcell⟩
    -- the layer of the cell is one that 32 bits can reach, since the cell is that of such a position
    have hlow : -2 ^ 31 ≤ p.y.toInt := Int32.le_toInt p.y
    have hhigh : p.y.toInt < 2 ^ 31 := Int32.toInt_lt p.y
    have hlayer : q.layer = p.y.toInt / 16 := hcell.1
    have hqlow : -2 ^ 27 ≤ q.layer := by omega
    have hqhigh : q.layer < 2 ^ 27 := by omega
    obtain ⟨w, hw⟩ := exists_position_ofAddress hqlow hqhigh q.blockIndex
    rw [← Position.inColumn_eq_ofAddress, hcolumn] at hw
    refine ⟨w, ⟨?_, hw ▸ hcell⟩, hw⟩
    apply position_injective
    rw [position_inColumn, hw, hcolumn]

end WordPosition

/-! ## One write -/

theorem BlockMap.get_setBlock (m : BlockMap) (p q : Position) (value : BlockState) :
    (m.step (.setBlock p value)).get q = if q.inColumn = p.inColumn then value else m.get q := by
  rw [get, step, put]
  dsimp only
  by_cases hlayer : q.layer = p.layer
  · rw [if_pos hlayer, Vector.get_eq_getElem, Vector.getElem_setIfInBounds]
    by_cases hindex : p.blockIndex = q.blockIndex
    · rw [if_pos (congrArg Fin.val hindex), if_pos (Position.inColumn_eq_iff.2 ⟨hlayer, hindex.symm⟩)]
    · rw [if_neg fun h => hindex (Fin.ext h), if_neg fun h => hindex (Position.inColumn_eq_iff.1 h).2.symm, get,
        hlayer, Vector.get_eq_getElem]
  · rw [if_neg hlayer, if_neg fun h => hlayer (Position.inColumn_eq_iff.1 h).1, get]

namespace Edit

variable {e e' : Edit} {p : Position} {s t : Session}

theorem setTile_ok (e : Edit) (p : Position) (tile : Tag) (s : Session) :
    ∃ e' t, e.setTile p tile s = .ok e' t := by
  obtain ⟨e₁, t, hreach⟩ := e.reach_ok p.layer s
  exact ⟨_, t, Run.bind_of_ok hreach _⟩

theorem setBiome_ok (e : Edit) (p : Position) (biome : Biome) (s : Session) :
    ∃ e' t, e.setBiome p biome s = .ok e' t := by
  obtain ⟨e₁, t, hreach⟩ := e.reach_ok p.layer s
  exact ⟨_, t, Run.bind_of_ok hreach _⟩

theorem setBlock_ok {n : UInt32} {value : BlockState} (he : e.column.InRegistry n) (hs : s.Serves n)
    (hv : value < n) : ∃ e' t, e.setBlock p value s = .ok e' t := by
  have hlegal : (Op.setBlock p value).Legal n := by simpa [Op.Legal, Op.Lit, Op.columnOps, Column.Op.Legal] using hv
  obtain ⟨e', t, hrun, -⟩ := Op.run_inRegistry hlegal he hs
  exact ⟨e', t, hrun⟩

theorem getTile_setTile {tile : Tag} (h : e.setTile p tile s = .ok e' t) (he : e.Sized) (q : Position) :
    e'.getTile q = if q.inColumn = p.inColumn then some tile else e.getTile q := by
  obtain ⟨hside, -⟩ := sideData_setTile h he
  show e'.sideData.tiles q.inColumn = _
  rw [hside]
  rfl

theorem getBiome_setBiome {biome : Biome} (h : e.setBiome p biome s = .ok e' t) (he : e.Sized) (q : Position) :
    e'.getBiome q = if q.SameCell p then some biome else e.getBiome q := by
  obtain ⟨hside, -⟩ := sideData_setBiome h he
  have hread : e'.getBiome q = (Op.biomeAt q (.setBiome p biome)).elim (e.getBiome q) some := by
    show e'.sideData.biome q = _
    rw [hside]
    exact SideData.biome_step q e.sideData (by rintro ⟨⟩)
  have hsymm : p.SameCell q ↔ q.SameCell p := by
    rw [Position.sameCell_iff, Position.sameCell_iff, eq_comm, eq_comm (a := p.biomeIndex)]
  rw [hread, Op.biomeAt]
  by_cases hcell : q.SameCell p
  · rw [if_pos hcell, if_pos (hsymm.2 hcell)]
    rfl
  · rw [if_neg hcell, if_neg fun h => hcell (hsymm.1 h)]
    rfl

theorem getBlock_setBlock {value : BlockState} (h : e.setBlock p value s = .ok e' t) (q : Position) :
    e'.getBlock q = if q.inColumn = p.inColumn then value else e.getBlock q := by
  obtain ⟨e₁, s₁, hreach, h⟩ := Run.bind_eq_ok.1 h
  obtain ⟨c, s₂, hset, h⟩ := Run.bind_eq_ok.1 h
  cases h
  have he := Column.refines_blockMap e.column
  have hextends := (Column.reach_eq_ok (column_reach_of_ok hreach)).1
  have hrun : (Column.Op.setBlock p value).run e₁.column s₁ = .ok c t := hset
  have hc := (he.extend hextends).step hrun
  show c.getBlock q = if q.inColumn = p.inColumn then value else e.column.getBlock q
  rw [hc.getBlock, he.getBlock, BlockMap.get_setBlock]
  rfl

/-! ## Every history -/

/-- A write changes the block that it names. In 32-bit coordinates the addresses are what shifts and masks make of them.
Two positions are the same block of a column exactly if layer and block index agree; each pair of a layer that 32 bits
can reach and an index below 4096 is the address of one block of the column, and its height is that of the layer and of
the index, below zero too. Biome cells cut each layer into 64 parts of 64 blocks. So in an edit with any history, a tile
or a block that was set is read at each position of the same block, a biome at each position of the same cell, and what
was read before at all others. -/
theorem history_addresses {bottom top : Int} {ops : List Op} (h : History bottom top ops e) :
    (∀ w : WordPosition, w.layer.toInt = w.position.layer ∧ w.blockIndex.toInt = w.position.blockIndex ∧
        w.biomeIndex.toInt = w.position.biomeIndex ∧ w.inColumn.position = w.position.inColumn) ∧
      (∀ p q : WordPosition, p.inColumn = q.inColumn ↔ p.layer = q.layer ∧ p.blockIndex = q.blockIndex) ∧
      (∀ w : WordPosition, 0 ≤ w.blockIndex.toInt ∧ w.blockIndex.toInt < 4096 ∧ 0 ≤ w.biomeIndex.toInt ∧
        w.biomeIndex.toInt < 64 ∧ w.y.toInt = 16 * w.layer.toInt + w.blockIndex.toInt / 256) ∧
      (∀ layer : Int, -2 ^ 27 ≤ layer → layer < 2 ^ 27 → ∀ i : Fin sectionBlocks,
        ∃! w : WordPosition, w.inColumn = w ∧ w.layer.toInt = layer ∧ w.blockIndex.toInt = i) ∧
      (∀ p q : WordPosition, p.layer = q.layer → (p.biomeIndex = q.biomeIndex ↔
        p.x.toInt % 16 / 4 = q.x.toInt % 16 / 4 ∧ p.y.toInt % 16 / 4 = q.y.toInt % 16 / 4 ∧
          p.z.toInt % 16 / 4 = q.z.toInt % 16 / 4)) ∧
      (∀ p : WordPosition,
        {q : WordPosition | q.inColumn = q ∧ q.layer = p.layer ∧ q.biomeIndex = p.biomeIndex}.ncard = 64) ∧
      (∀ p tile s, ∃ e' t, e.setTile p tile s = .ok e' t ∧
        ∀ q, e'.getTile q = if q.inColumn = p.inColumn then some tile else e.getTile q) ∧
      (∀ p biome s, ∃ e' t, e.setBiome p biome s = .ok e' t ∧
        ∀ q, e'.getBiome q =
          if q.layer = p.layer ∧ q.biomeIndex = p.biomeIndex then some biome else e.getBiome q) ∧
      (∀ p value s e' t, e.setBlock p value s = .ok e' t →
        ∀ q, e'.getBlock q = if q.inColumn = p.inColumn then value else e.getBlock q) ∧
      ∀ n p value s, e.column.InRegistry n → s.Serves n → value < n →
        ∃ e' t, e.setBlock p value s = .ok e' t := by
  obtain ⟨-, hsized⟩ := sideData_of_history h
  refine ⟨fun w => ⟨w.toInt_layer, w.toInt_blockIndex, w.toInt_biomeIndex, w.position_inColumn⟩,
    fun p q => WordPosition.inColumn_eq_iff, fun w => ?_,
    fun layer hlow hhigh i => WordPosition.existsUnique_of_address hlow hhigh i, fun p q hlayer => ?_,
    fun p => p.ncard_sameCell, fun p tile s => ?_, fun p biome s => ?_,
    fun p value s e' t hset q => getBlock_setBlock hset q, fun n p value s he hs hv => setBlock_ok he hs hv⟩
  · have hblock : w.position.blockIndex.val < 4096 := w.position.blockIndex.isLt
    have hbiome : w.position.biomeIndex.val < 64 := w.position.biomeIndex.isLt
    have hheight := congrArg Position.y w.position.inColumn_eq_ofAddress
    rw [w.toInt_blockIndex, w.toInt_biomeIndex, w.toInt_layer]
    refine ⟨?_, ?_, ?_, ?_, hheight⟩
    all_goals omega
  · rw [← and_iff_right hlayer (b := p.biomeIndex = q.biomeIndex), ← WordPosition.sameCell_iff, Position.SameCell,
      ← p.toInt_layer, ← q.toInt_layer, Int32.toInt_inj, and_iff_right hlayer]
    rfl
  · obtain ⟨e', t, hset⟩ := e.setTile_ok p tile s
    exact ⟨e', t, hset, getTile_setTile hset hsized⟩
  · obtain ⟨e', t, hset⟩ := e.setBiome_ok p biome s
    refine ⟨e', t, hset, fun q => ?_⟩
    simp only [getBiome_setBiome hset hsized q, Position.sameCell_iff]

/-- Below zero, where the column has grown downwards: a tile is found at the same block of the column and not one block
below, a biome at any block of its cell and not in the cell below, and a block alike. -/
theorem history_addresses_below_zero :
    ∃ e, History 0 3 [.setTile ⟨1, -21, 3⟩ ⟨[10, 1]⟩, .fillSection (-2) 7, .setBiome ⟨0, -24, 0⟩ 2] e ∧
      (∃ e' t, e.setTile ⟨17, -20, 3⟩ ⟨[10, 0]⟩ {} = .ok e' t ∧ e'.getTile ⟨1, -20, 19⟩ = some ⟨[10, 0]⟩ ∧
        e'.getTile ⟨1, -21, 3⟩ = some ⟨[10, 1]⟩) ∧
      (∃ e' t, e.setBiome ⟨5, -20, 9⟩ 4 {} = .ok e' t ∧ e'.getBiome ⟨4, -17, 11⟩ = some 4 ∧
        e'.getBiome ⟨0, -21, 3⟩ = some 2) ∧
      ∀ s e' t, e.setBlock ⟨-1, -20, 33⟩ 9 s = .ok e' t →
        e'.getBlock ⟨15, -20, 1⟩ = 9 ∧ e'.getBlock ⟨14, -20, 1⟩ = 7 := by
  obtain ⟨e, he⟩ := exists_history (n := 16) (show (0 : Int) ≤ 3 by decide) (by decide)
    [.setTile ⟨1, -21, 3⟩ ⟨[10, 1]⟩, .fillSection (-2) 7, .setBiome ⟨0, -24, 0⟩ 2]
    (by simp [Op.Legal, Op.Lit, Op.columnOps, Column.Op.Legal])
  obtain ⟨hside, -⟩ := sideData_of_history he
  have hcolumn := Column.refines_of_history he.column
  have htile : e.getTile ⟨1, -21, 3⟩ = some ⟨[10, 1]⟩ := by
    show e.sideData.tiles _ = _
    rw [hside]
    decide
  have hbiome : e.getBiome ⟨0, -21, 3⟩ = some 2 := by
    show e.sideData.biome _ = _
    rw [hside]
    decide
  have hblock : e.getBlock ⟨14, -20, 1⟩ = 7 := (hcolumn.getBlock _).trans (by decide +kernel)
  obtain ⟨-, -, -, -, -, -, hsetTile, hsetBiome, hsetBlock, -⟩ := history_addresses he
  refine ⟨e, he, ?_, ?_, fun s e' t hset => ?_⟩
  · obtain ⟨e', t, hset, hread⟩ := hsetTile ⟨17, -20, 3⟩ ⟨[10, 0]⟩ {}
    exact ⟨e', t, hset, (hread _).trans (if_pos (by decide)), (hread _).trans ((if_neg (by decide)).trans htile)⟩
  · obtain ⟨e', t, hset, hread⟩ := hsetBiome ⟨5, -20, 9⟩ 4 {}
    exact ⟨e', t, hset, (hread _).trans (if_pos (by decide)), (hread _).trans ((if_neg (by decide)).trans hbiome)⟩
  · have hread := hsetBlock ⟨-1, -20, 33⟩ 9 s e' t hset
    exact ⟨(hread _).trans (if_pos (by decide)), (hread _).trans ((if_neg (by decide)).trans hblock)⟩

end Edit

end VoxelStore
