import Mathlib
import VoxelStore.Proofs.Edit.Frame
/-!
# An edit reads back the last write

A read of an edit looks at the operations since the last reset, the newest first, and takes what the first
of them that covers its place has written. `SideData.read_after` is that statement for any read that one
step changes in this way; biomes, light and tiles are such reads, each by a lemma about one step.
-/

namespace VoxelStore

namespace Position

/-- Both blocks lie in one biome cell. -/
def SameCell (p q : Position) : Prop :=
  p.layer = q.layer ∧ p.x % 16 / 4 = q.x % 16 / 4 ∧ p.y % 16 / 4 = q.y % 16 / 4 ∧
    p.z % 16 / 4 = q.z % 16 / 4

instance (p q : Position) : Decidable (p.SameCell q) :=
  inferInstanceAs (Decidable (_ ∧ _ ∧ _ ∧ _))

theorem sameCell_iff {p q : Position} : p.SameCell q ↔ p.layer = q.layer ∧ p.biomeIndex = q.biomeIndex := by
  rw [SameCell, Fin.ext_iff, biomeIndex, biomeIndex]
  dsimp only
  constructor
  · rintro ⟨hl, hx, hy, hz⟩
    exact ⟨hl, by rw [hx, hy, hz]⟩
  · rintro ⟨hl, h⟩
    refine ⟨hl, ?_⟩
    omega

theorem inColumn_eq_iff {p q : Position} :
    p.inColumn = q.inColumn ↔ p.layer = q.layer ∧ p.blockIndex = q.blockIndex := by
  rw [Fin.ext_iff, blockIndex, blockIndex, inColumn, inColumn, layer, layer, mk.injEq]
  dsimp only
  omega

end Position

namespace Edit

namespace Op

def isReset : Op → Bool
  | reset => true
  | _ => false

theorem isReset_eq_false {op : Op} (h : op ≠ .reset) : op.isReset = false := by
  cases op with
  | reset => exact absurd rfl h
  | _ => rfl

/-- The biome that an operation gives to the cell of a block. -/
def biomeAt (p : Position) : Op → Option Biome
  | setBiome q biome => if q.SameCell p then some biome else none
  | _ => none

/-- The light of one kind that an operation gives to a block. -/
def lightAt (kind : LightKind) (p : Position) : Op → Option UInt8
  | setLight kind' q value => if kind' = kind ∧ q.inColumn = p.inColumn then some value else none
  | setLightLayer kind' layer light => if kind' = kind ∧ layer = p.layer then light[p.blockIndex]? else none
  | removeLighting layer sky => if layer = p.layer ∧ (kind = .block ∨ sky) then some 0 else none
  | setFullBright layer => if layer = p.layer then some maxLight else none
  | _ => none

/-- The tile that an operation puts at a position. -/
def tileAt (p : Position) : Op → Option Tag
  | setTile q tile => if q.inColumn = p.inColumn then some tile else none
  | _ => none

/-- The operation sets the biome of some cell of a layer. -/
def SetsBiomesOf (layer : Int) : Op → Prop
  | setBiome q _ => q.layer = layer
  | _ => False

/-- The operation sets light of one kind in a layer. -/
def LightsLayer (kind : LightKind) (layer : Int) : Op → Prop
  | setLight kind' q _ => kind' = kind ∧ q.layer = layer
  | setLightLayer kind' layer' _ => kind' = kind ∧ layer' = layer
  | removeLighting layer' sky => layer' = layer ∧ (kind = .block ∨ sky)
  | setFullBright layer' => layer' = layer
  | _ => False

end Op

/-- The operations since the last reset, the newest first. -/
def sinceReset (ops : List Op) : List Op := ops.reverse.takeWhile fun op => !op.isReset

/-- What the newest operation since the last reset that writes anything has written. -/
def lastWrite {α : Type} (written : Op → Option α) (ops : List Op) : Option α :=
  (sinceReset ops).findSome? written

theorem sinceReset_append (ops : List Op) (op : Op) :
    sinceReset (ops ++ [op]) = if op.isReset then [] else op :: sinceReset ops := by
  rw [sinceReset, List.reverse_append, List.reverse_singleton, List.singleton_append, List.takeWhile_cons]
  cases op.isReset <;> rfl

end Edit

namespace SideData

/-- The side data after a list of operations. -/
def after (m : SideData) (ops : List Edit.Op) : SideData := ops.foldl step m

theorem after_append (m : SideData) (ops : List Edit.Op) (op : Edit.Op) :
    m.after (ops ++ [op]) = (m.after ops).step op := by
  rw [after, List.foldl_append]
  rfl

/-- A read that each operation changes to what it has written, if anything, and a reset to what it was in
the beginning, reads the last write. -/
theorem read_after {α β : Type} (read : SideData → β) (written : Edit.Op → Option α) (f : α → β)
    (hstep : ∀ (m : SideData) (op : Edit.Op), op.Lit → op ≠ .reset →
      read (m.step op) = (written op).elim (read m) f)
    {ops : List Edit.Op} (hops : ∀ op ∈ ops, op.Lit) :
    read (unchanged.after ops) = (Edit.lastWrite written ops).elim (read unchanged) f := by
  -- from the end of the list, since the newest operation is the first that a read looks at
  induction ops using List.reverseRecOn with
  | nil => rfl
  | append_singleton ops op ih =>
    have hlit : op.Lit := hops op (List.mem_append_right _ List.mem_cons_self)
    have hbefore := ih fun x hx => hops x (List.mem_append_left _ hx)
    rw [after_append, Edit.lastWrite, Edit.sinceReset_append]
    by_cases hop : op = .reset
    · rw [hop]
      rfl
    · rw [hstep _ _ hlit hop, hbefore, Edit.Op.isReset_eq_false hop, if_neg Bool.false_ne_true,
        List.findSome?_cons]
      cases written op <;> rfl

/-- Something that each operation brings about or leaves as it is, and a reset undoes, is there if an
operation since the last reset has brought it about. -/
theorem present_after (present : SideData → Prop) (brings : Edit.Op → Prop) (hnone : ¬present unchanged)
    (hstep : ∀ (m : SideData) (op : Edit.Op), op.Lit → op ≠ .reset →
      (present (m.step op) ↔ brings op ∨ present m))
    {ops : List Edit.Op} (hops : ∀ op ∈ ops, op.Lit) :
    present (unchanged.after ops) ↔ ∃ op ∈ Edit.sinceReset ops, brings op := by
  induction ops using List.reverseRecOn with
  | nil => exact ⟨fun h => absurd h hnone, by rintro ⟨op, ⟨⟩, -⟩⟩
  | append_singleton ops op ih =>
    have hlit : op.Lit := hops op (List.mem_append_right _ List.mem_cons_self)
    have hbefore := ih fun x hx => hops x (List.mem_append_left _ hx)
    rw [after_append, Edit.sinceReset_append]
    by_cases hop : op = .reset
    · rw [hop]
      exact ⟨fun h => absurd h hnone, by rintro ⟨x, ⟨⟩, -⟩⟩
    · rw [hstep _ _ hlit hop, hbefore, Edit.Op.isReset_eq_false hop, if_neg Bool.false_ne_true]
      simp only [List.mem_cons, exists_eq_or_imp]

/-! ## Biomes -/

/-- The biome of a block. -/
def biome (m : SideData) (p : Position) : Option Biome := (m.biomes p.layer).bind (·.get p.biomeIndex)

theorem eq_setBiome {op : Edit.Op} (h : op.Writes .biomes) (hop : op ≠ .reset) :
    ∃ q value, op = .setBiome q value := by
  cases op <;> simp [Edit.Op.Writes] at h hop ⊢

theorem biome_step (p : Position) (m : SideData) {op : Edit.Op} (hop : op ≠ .reset) :
    (m.step op).biome p = (op.biomeAt p).elim (m.biome p) some := by
  -- only `setBiome` writes biomes; the frame of all others is `Edit.biomes_step`
  by_cases hw : op.Writes .biomes
  · obtain ⟨q, value, rfl⟩ := eq_setBiome hw hop
    rw [biome, Edit.Op.biomeAt, step]
    dsimp only
    by_cases hl : p.layer = q.layer
    · rw [change, if_pos hl, Option.bind_some, Vector.get_eq_getElem, Vector.getElem_setIfInBounds]
      by_cases hi : q.biomeIndex = p.biomeIndex
      · rw [if_pos (congrArg Fin.val hi), if_pos (Position.sameCell_iff.2 ⟨hl.symm, hi⟩)]
        rfl
      · rw [if_neg fun h => hi (Fin.ext h), if_neg fun h => hi (Position.sameCell_iff.1 h).2, biome, ← hl]
        cases m.biomes p.layer <;> simp [Vector.get_eq_getElem]
    · rw [change, if_neg hl, if_neg fun h => hl (Position.sameCell_iff.1 h).1.symm]
      rfl
  · have hnone : op.biomeAt p = none := by cases op <;> first | rfl | exact absurd rfl hw
    rw [biome, Edit.biomes_step m hw, hnone]
    rfl

theorem isSome_change {α : Type} {n : Nat} (grids : Int → Option (Vector α n)) (layer : Int) (blank : α)
    (f : Vector α n → Vector α n) (k : Int) :
    (change grids layer blank f k).isSome ↔ layer = k ∨ (grids k).isSome := by
  unfold change
  by_cases h : k = layer
  · simp [h]
  · simp [h, Ne.symm h]

theorem hasBiomes_step (layer : Int) (m : SideData) {op : Edit.Op} (hop : op ≠ .reset) :
    ((m.step op).biomes layer).isSome ↔ op.SetsBiomesOf layer ∨ (m.biomes layer).isSome := by
  by_cases hw : op.Writes .biomes
  · obtain ⟨q, value, rfl⟩ := eq_setBiome hw hop
    simp only [step, Edit.Op.SetsBiomesOf, isSome_change]
  · have hnot : ¬op.SetsBiomesOf layer := by cases op <;> first | exact not_false | exact absurd rfl hw
    rw [Edit.biomes_step m hw]
    exact (or_iff_right hnot).symm

/-! ## Light -/

/-- The light of a block. -/
def lightOf (m : SideData) (kind : LightKind) (p : Position) : UInt8 :=
  ((m.light kind p.layer).map (·.get p.blockIndex)).getD lightUnset

theorem lightOf_changeLight (m : SideData) (kind kind' : LightKind) (layer : Int) (p : Position)
    (f : Vector UInt8 sectionBlocks → Vector UInt8 sectionBlocks) :
    (m.changeLight kind' layer f).lightOf kind p =
      if kind' = kind ∧ layer = p.layer then
        (f ((m.light kind p.layer).getD (Vector.replicate sectionBlocks lightUnset))).get p.blockIndex
      else m.lightOf kind p := by
  rw [lightOf]
  by_cases hk : kind = kind'
  · subst hk
    rw [light_changeLight_self, change]
    by_cases hl : p.layer = layer
    · rw [if_pos hl, if_pos ⟨rfl, hl.symm⟩, hl]
      rfl
    · rw [if_neg hl, if_neg fun h => hl h.2.symm]
      rfl
  · rw [light_changeLight_of_ne hk, if_neg fun h => hk h.1.symm]
    rfl

theorem lightOf_fillLight (m : SideData) (kind kind' : LightKind) (layer : Int) (p : Position)
    (value : UInt8) :
    (m.fillLight kind' layer value).lightOf kind p =
      if kind' = kind ∧ layer = p.layer then value else m.lightOf kind p := by
  rw [fillLight, lightOf_changeLight, Vector.get_eq_getElem, Vector.getElem_replicate]

theorem lightOf_step (kind : LightKind) (p : Position) (m : SideData) {op : Edit.Op} (hlit : op.Lit)
    (hop : op ≠ .reset) :
    (m.step op).lightOf kind p = (op.lightAt kind p).elim (m.lightOf kind p) id := by
  cases op with
  | setLight kind' q value =>
    rw [step, lightOf_changeLight, Edit.Op.lightAt]
    by_cases hl : kind' = kind ∧ q.layer = p.layer
    · -- the grid may be a new one, which is unset in all other cells
      rw [if_pos hl, Vector.get_eq_getElem, Vector.getElem_setIfInBounds]
      by_cases hi : q.blockIndex = p.blockIndex
      · rw [if_pos (congrArg Fin.val hi), if_pos ⟨hl.1, Position.inColumn_eq_iff.2 ⟨hl.2, hi⟩⟩]
        rfl
      · rw [if_neg fun h => hi (Fin.ext h), if_neg fun h => hi (Position.inColumn_eq_iff.1 h.2).2, lightOf]
        cases m.light kind p.layer <;> simp [Vector.get_eq_getElem]
    · rw [if_neg hl, if_neg fun h => hl ⟨h.1, (Position.inColumn_eq_iff.1 h.2).1⟩]
      rfl
  | setLightLayer kind' layer light =>
    have hsize : light.size = sectionBlocks := hlit
    rw [step, dif_pos hsize, lightOf_changeLight, Edit.Op.lightAt]
    split
    · simp [hsize]
    · rfl
  | removeLighting layer sky =>
    rw [step, Edit.Op.lightAt]
    cases sky <;> cases kind <;> by_cases hl : layer = p.layer <;> simp [lightOf_fillLight, hl]
  | setFullBright layer =>
    rw [step, lightOf_fillLight, lightOf_fillLight, Edit.Op.lightAt]
    cases kind <;> by_cases hl : layer = p.layer <;> simp [hl]
  | reset => exact absurd rfl hop
  | _ => rfl

theorem isSome_changeLight (m : SideData) (kind kind' : LightKind) (layer k : Int)
    (f : Vector UInt8 sectionBlocks → Vector UInt8 sectionBlocks) :
    ((m.changeLight kind' layer f).light kind k).isSome ↔
      (kind' = kind ∧ layer = k) ∨ (m.light kind k).isSome := by
  by_cases hk : kind = kind'
  · subst hk
    rw [light_changeLight_self, isSome_change, eq_self, true_and]
  · rw [light_changeLight_of_ne hk]
    exact (or_iff_right fun h => hk h.1.symm).symm

theorem hasLight_step (kind : LightKind) (layer : Int) (m : SideData) {op : Edit.Op} (hlit : op.Lit)
    (hop : op ≠ .reset) :
    ((m.step op).light kind layer).isSome ↔ op.LightsLayer kind layer ∨ (m.light kind layer).isSome := by
  cases op with
  | setLight kind' q value => exact isSome_changeLight ..
  | setLightLayer kind' layer' light =>
    have hsize : light.size = sectionBlocks := hlit
    rw [step, dif_pos hsize]
    exact isSome_changeLight ..
  | removeLighting layer' sky =>
    rw [step, Edit.Op.LightsLayer]
    cases sky <;> cases kind <;> simp [fillLight, isSome_changeLight]
  | setFullBright layer' =>
    rw [step, fillLight, fillLight, isSome_changeLight, isSome_changeLight, Edit.Op.LightsLayer]
    cases kind <;> simp
  | reset => exact absurd rfl hop
  | _ => exact (or_iff_right not_false).symm

/-! ## Tiles -/

theorem tile_step (p : Position) (m : SideData) {op : Edit.Op} (hop : op ≠ .reset) :
    (m.step op).tiles p.inColumn = (op.tileAt p).elim (m.tiles p.inColumn) some := by
  by_cases hw : op.Writes .tiles
  · obtain ⟨q, tile, rfl⟩ : ∃ q tile, op = .setTile q tile := by
      cases op <;> simp [Edit.Op.Writes] at hw hop ⊢
    rw [step, Edit.Op.tileAt]
    by_cases hq : p.inColumn = q.inColumn
    · rw [if_pos hq.symm]
      exact if_pos hq
    · rw [if_neg (Ne.symm hq)]
      exact if_neg hq
  · have hnone : op.tileAt p = none := by cases op <;> first | rfl | exact absurd rfl hw
    rw [Edit.tiles_step m hw, hnone]
    rfl

end SideData

/-! ## Every history -/

namespace Edit

variable {e : Edit} {bottom top : Int} {ops : List Op}

theorem History.lit (h : History bottom top ops e) : ∀ op ∈ ops, op.Lit := by
  induction h with
  | create _ => exact fun op hop => absurd hop List.not_mem_nil
  | step _ hrun ih =>
    intro op hop
    rcases List.mem_append.1 hop with hop | hop
    · exact ih op hop
    · rw [List.mem_singleton.1 hop]
      exact Op.lit_of_ok hrun

theorem sideData_of_history (h : History bottom top ops e) :
    e.sideData = SideData.unchanged.after ops ∧ e.Sized := by
  induction h with
  | create h =>
    obtain ⟨c, s, -, h⟩ := Run.bind_eq_ok.1 h
    cases h
    exact sideData_fresh c
  | step _ hrun ih =>
    obtain ⟨hside, hsized⟩ := ih
    obtain ⟨hside', hsized'⟩ := Op.run_sideData hrun hsized
    exact ⟨by rw [hside', hside, SideData.after_append], hsized'⟩

theorem getLight_eq_lightOf (e : Edit) (kind : LightKind) (p : Position) :
    e.getLight kind p = e.sideData.lightOf kind p := by
  show _ = ((e.lightLayer? kind p.layer).map (·.get p.blockIndex)).getD lightUnset
  rw [getLight]
  cases e.lightLayer? kind p.layer <;> rfl

/-- An edit reads back the last write, however its range has grown. After any history, the biome of a block
is the one that was last set in its cell since the last reset, its light the last that covered it, and its
tile the last at its position; a layer has biomes, or light of a kind, exactly if these were written there
since the last reset. Every channel that was written has one entry for each layer of the column. And any
further operation leaves the parts that it does not write as they are. -/
theorem history_lastWrite (h : History bottom top ops e) :
    (∀ p, e.getBiome p = lastWrite (Op.biomeAt p) ops) ∧
      (∀ kind p, e.getLight kind p = (lastWrite (Op.lightAt kind p) ops).getD lightUnset) ∧
      (∀ p, e.getTile p = lastWrite (Op.tileAt p) ops) ∧
      (∀ layer, e.hasBiomes layer ↔ ∃ op ∈ sinceReset ops, op.SetsBiomesOf layer) ∧
      (∀ kind layer,
        (e.lightLayer? kind layer).isSome ↔ ∃ op ∈ sinceReset ops, op.LightsLayer kind layer) ∧
      e.Sized ∧
      ∀ (op : Op) s e' t, op.run e s = .ok e' t → ∀ part, ¬op.Writes part → e.Agrees e' part := by
  obtain ⟨hside, hsized⟩ := sideData_of_history h
  have hlit := h.lit
  refine ⟨fun p => ?_, fun kind p => ?_, fun p => ?_, fun layer => ?_, fun kind layer => ?_, hsized, ?_⟩
  · have hread := SideData.read_after (·.biome p) (Op.biomeAt p) some
      (fun m _ _ => SideData.biome_step p m) hlit
    rw [← hside] at hread
    refine hread.trans ?_
    cases lastWrite (Op.biomeAt p) ops <;> rfl
  · have hread := SideData.read_after (·.lightOf kind p) (Op.lightAt kind p) id
      (fun m _ => SideData.lightOf_step kind p m) hlit
    rw [← hside] at hread
    rw [getLight_eq_lightOf, hread]
    cases lastWrite (Op.lightAt kind p) ops <;> rfl
  · have hread := SideData.read_after (·.tiles p.inColumn) (Op.tileAt p) some
      (fun m _ _ => SideData.tile_step p m) hlit
    rw [← hside] at hread
    refine hread.trans ?_
    cases lastWrite (Op.tileAt p) ops <;> rfl
  · -- a grid is there as soon as anything was written to it, so presence asks for any write
    have hnone : ¬(SideData.unchanged.biomes layer).isSome := Bool.false_ne_true
    have hpresent := SideData.present_after (fun m => (m.biomes layer).isSome) (Op.SetsBiomesOf layer)
      hnone (fun m _ _ => SideData.hasBiomes_step layer m) hlit
    rwa [← hside] at hpresent
  · have hnone : ¬(SideData.unchanged.light kind layer).isSome := Bool.false_ne_true
    have hpresent := SideData.present_after (fun m => (m.light kind layer).isSome) (Op.LightsLayer kind layer)
      hnone (fun m _ => SideData.hasLight_step kind layer m) hlit
    rwa [← hside] at hpresent
  · exact fun op s e' t hrun part hpart => Op.run_frame hrun hsized hpart

/-- Biomes, light and tiles written before and after the column grew downwards and upwards: what was
written before the reset is gone, a cell is read at any of its blocks, darkening leaves the sky alone, and
a tile is found at every position with the same place in its column. -/
theorem history_lastWrite_growth :
    ∃ e, History 0 3 [.setTile ⟨2, 50, 2⟩ ⟨[10, 1]⟩, .setBiome ⟨4, 40, 8⟩ 6, .reset, .setBiome ⟨4, 40, 8⟩ 7,
        .setLight .block ⟨1, 40, 1⟩ 12, .setLight .sky ⟨1, 40, 1⟩ 9, .setBlock ⟨0, -50, 0⟩ 3,
        .setLight .sky ⟨0, 200, 0⟩ 5, .removeLighting 2 false, .setTile ⟨17, -60, 3⟩ ⟨[10, 0]⟩] e ∧
      e.getBiome ⟨5, 41, 11⟩ = some 7 ∧ e.getBiome ⟨4, 40, 0⟩ = none ∧ e.getLight .block ⟨1, 40, 1⟩ = 0 ∧
      e.getLight .sky ⟨1, 40, 1⟩ = 9 ∧ e.getLight .sky ⟨16, 200, 0⟩ = 5 ∧
      e.getLight .sky ⟨0, 0, 0⟩ = lightUnset ∧ e.getTile ⟨1, -60, 19⟩ = some ⟨[10, 0]⟩ ∧
      e.getTile ⟨2, 50, 2⟩ = none := by
  obtain ⟨e, he⟩ := exists_history (n := 16) (show (0 : Int) ≤ 3 by decide) (by decide)
    [.setTile ⟨2, 50, 2⟩ ⟨[10, 1]⟩, .setBiome ⟨4, 40, 8⟩ 6, .reset, .setBiome ⟨4, 40, 8⟩ 7,
      .setLight .block ⟨1, 40, 1⟩ 12, .setLight .sky ⟨1, 40, 1⟩ 9, .setBlock ⟨0, -50, 0⟩ 3,
      .setLight .sky ⟨0, 200, 0⟩ 5, .removeLighting 2 false, .setTile ⟨17, -60, 3⟩ ⟨[10, 0]⟩]
    (by simp [Op.Legal, Op.Lit, Op.columnOps, Column.Op.Legal, maxLight])
  obtain ⟨hbiome, hlight, htile, -⟩ := history_lastWrite he
  refine ⟨e, he, ?_, ?_, ?_, ?_, ?_, ?_, ?_, ?_⟩
  · exact (hbiome _).trans (by decide)
  · exact (hbiome _).trans (by decide)
  · exact (hlight _ _).trans (by decide)
  · exact (hlight _ _).trans (by decide)
  · exact (hlight _ _).trans (by decide)
  · exact (hlight _ _).trans (by decide)
  · exact (htile _).trans (by decide)
  · exact (htile _).trans (by decide)

end Edit

end VoxelStore
