import VoxelStore.Proofs.Edit.SideData
/-!
# What an operation on an edit leaves alone

`Op.Writes` names the parts of an edit that an operation may change; `Op.run_frame` says that whoever reads
another part reads the same as before, even where the operation made the column grow.
-/

namespace VoxelStore

namespace Column

/-- Both columns answer alike: their layers differ in their spares at most. -/
structure SameBlocks (c c' : Column) : Prop where
  background : c'.background = c.background
  layer : ∀ k, (c'.layer k).withoutSpare = (c.layer k).withoutSpare

/-- The operation changes nothing that others see of the blocks. -/
def Op.Keeps : Op → Prop
  | extendTo _ | sectionLock _ | copy => True
  | _ => False

variable {c c' : Column} {layer : Int} {s t : Session}

theorem SameBlocks.trans {c₁ : Column} (h : SameBlocks c c₁) (h' : SameBlocks c₁ c') : SameBlocks c c' :=
  ⟨h'.background.trans h.background, fun k => (h'.layer k).trans (h.layer k)⟩

theorem Extends.sameBlocks (h : Extends layer c c') : SameBlocks c c' :=
  ⟨h.background, fun k => by rw [h.layer]⟩

theorem Op.run_sameBlocks {op : Op} (hop : op.Keeps) (h : op.run c s = .ok c' t) : SameBlocks c c' := by
  cases op with
  | extendTo layer => exact (reach_eq_ok h).1.sameBlocks
  | sectionLock layer =>
    obtain ⟨lock, c₁, t₁, h₁, he, -⟩ := sectionLock_ok c layer s
    cases (Run.map_of_ok h₁ Prod.snd).symm.trans h
    exact he.sameBlocks
  | copy =>
    obtain ⟨c₁, t₁, h₁, hm, -⟩ := copy_ok c s
    cases h₁.symm.trans h
    exact ⟨hm.background, fun k => by rw [hm.layer]; cases c.layer k <;> rfl⟩
  | _ => exact hop.elim

theorem runAll_sameBlocks {ops : List Op} (hops : ∀ op ∈ ops, op.Keeps) (h : runAll ops c s = .ok c' t) :
    SameBlocks c c' := by
  induction ops generalizing c s with
  | nil =>
    obtain ⟨rfl, -⟩ := Run.pure_eq_ok.1 h
    exact ⟨rfl, fun _ => rfl⟩
  | cons op ops ih =>
    obtain ⟨c₁, s₁, hop, h⟩ := Run.bind_eq_ok.1 h
    exact (Op.run_sameBlocks (hops op List.mem_cons_self) hop).trans
      (ih (fun x hx => hops x (List.mem_cons_of_mem op hx)) h)

theorem SameBlocks.getBlock (h : SameBlocks c c') (p : Position) : c'.getBlock p = c.getBlock p := by
  have hget : ∀ (b : BlockState) (l : Layer), l.get b p.blockIndex = l.withoutSpare.get b p.blockIndex :=
    fun b l => by cases l <;> rfl
  rw [Column.getBlock, Column.getBlock, hget, hget _ (c.layer _), h.layer, h.background]

theorem SameBlocks.state (h : SameBlocks c c') (k : Int) : c'.state k = c.state k := by
  have hstate : ∀ l : Layer, l.state = l.withoutSpare.state := fun l => by cases l <;> rfl
  rw [Column.state, Column.state, hstate, h.layer, ← hstate]

theorem SameBlocks.peek (h : SameBlocks c c') (k : Int) : c'.peek k = c.peek k := by
  have hblocks : ∀ l : Layer, l.blocks? = l.withoutSpare.blocks? := fun l => by cases l <;> rfl
  rw [Column.peek, Column.peek, hblocks, h.layer, ← hblocks]

end Column

namespace Edit

/-- What can be read of an edit. -/
inductive Part where
  | blocks
  | biomes
  | light (kind : LightKind)
  | tiles
  | entities
  | entityRemoves
  | heightMaps
  | fastMode
  | bitMask
  deriving DecidableEq

/-- The parts that an operation may change. A reset may change all of them. -/
def Op.Writes : Op → Part → Prop
  | write .., part | setBlocks .., part | replaceBlocks .., part | fillSection .., part
  | setBlock .., part | trimAll, part => part = .blocks
  | setBiome .., part => part = .biomes
  | setLight kind .., part | setLightLayer kind .., part => part = .light kind
  | removeLighting _ sky, part => part = .light .block ∨ sky ∧ part = .light .sky
  | setFullBright _, part => part = .light .block ∨ part = .light .sky
  | setTile .., part => part = .tiles
  | setEntity _, part => part = .entities
  | removeEntity _, part => part = .entityRemoves
  | setHeightMap .., part => part = .heightMaps
  | setFastMode _, part => part = .fastMode
  | setBitMask _, part => part = .bitMask
  | sectionLock _, _ | copy, _ => False
  | reset, _ => True

/-- Every read of the part has the same answer in both edits. -/
def Agrees (e e' : Edit) : Part → Prop
  | .blocks => (∀ p, e'.getBlock p = e.getBlock p) ∧
      ∀ layer, e'.column.state layer = e.column.state layer ∧ e'.peek layer = e.peek layer
  | .biomes => ∀ layer, e'.biomes? layer = e.biomes? layer
  | .light kind => ∀ layer, e'.lightLayer? kind layer = e.lightLayer? kind layer
  | .tiles => ∀ p, e'.getTile p = e.getTile p
  | .entities => e'.entities = e.entities
  | .entityRemoves => e'.entityRemoves = e.entityRemoves
  | .heightMaps => e'.heightMaps = e.heightMaps
  | .fastMode => e'.fastMode = e.fastMode
  | .bitMask => e'.bitMask = e.bitMask

variable {e e' : Edit} {s t : Session} {op : Op}

/-- Outside of the block operations a column at most grows. -/
theorem Op.keeps_of_not_writes (h : ¬op.Writes .blocks) : ∀ x ∈ op.columnOps, x.Keeps := by
  cases op <;> simp [Writes, columnOps, Column.Op.Keeps] at h ⊢

theorem light_step (m : SideData) {kind : LightKind} (h : ¬op.Writes (.light kind)) :
    (m.step op).light kind = m.light kind := by
  cases op with
  | setLight kind' p value => exact SideData.light_changeLight_of_ne fun he => h (congrArg _ he)
  | setLightLayer kind' layer light =>
    rw [SideData.step]
    split
    · exact SideData.light_changeLight_of_ne fun he => h (congrArg _ he)
    · rfl
  | removeLighting layer sky =>
    have hblock : kind ≠ .block := fun he => h (.inl (congrArg _ he))
    rw [SideData.step]
    split
    · next hsky =>
      have hsky : kind ≠ .sky := fun he => h (.inr ⟨hsky, congrArg _ he⟩)
      exact (SideData.light_changeLight_of_ne hsky).trans (SideData.light_changeLight_of_ne hblock)
    · exact SideData.light_changeLight_of_ne hblock
  | setFullBright layer =>
    have hblock : kind ≠ .block := fun he => h (.inl (congrArg _ he))
    have hsky : kind ≠ .sky := fun he => h (.inr (congrArg _ he))
    exact (SideData.light_changeLight_of_ne hsky).trans (SideData.light_changeLight_of_ne hblock)
  | reset => exact (h trivial).elim
  | _ => rfl

/-- A part of the side data, as one value. -/
def SideAgrees (m m' : SideData) : Part → Prop
  | .blocks => True
  | .biomes => m'.biomes = m.biomes
  | .light kind => m'.light kind = m.light kind
  | .tiles => m'.tiles = m.tiles
  | .entities => m'.entities = m.entities
  | .entityRemoves => m'.entityRemoves = m.entityRemoves
  | .heightMaps => m'.heightMaps = m.heightMaps
  | .fastMode => m'.fastMode = m.fastMode
  | .bitMask => m'.bitMask = m.bitMask

theorem step_agrees (m : SideData) {part : Part} (h : ¬op.Writes part) : SideAgrees m (m.step op) part := by
  cases part with
  | blocks => trivial
  | light kind => exact light_step m h
  | _ =>
    -- of these parts an operation changes one as a whole, or none
    cases op with
    | reset => exact (h trivial).elim
    | setLightLayer kind layer light => rw [SideData.step]; split <;> rfl
    | removeLighting layer sky => rw [SideData.step]; split <;> rfl
    | _ => first | rfl | exact (h rfl).elim

theorem biomes_step (m : SideData) (h : ¬op.Writes .biomes) : (m.step op).biomes = m.biomes := step_agrees m h

theorem tiles_step (m : SideData) (h : ¬op.Writes .tiles) : (m.step op).tiles = m.tiles := step_agrees m h

/-- What an operation does not write reads the same after it. -/
theorem Op.run_frame (h : op.run e s = .ok e' t) (he : e.Sized) {part : Part} (hpart : ¬op.Writes part) :
    e.Agrees e' part := by
  have hside := step_agrees e.sideData hpart
  rw [← (run_sideData h he).1] at hside
  cases part with
  | blocks =>
    -- blocks are no side data; what happens to them happens to the column
    have hsame := Column.runAll_sameBlocks (keeps_of_not_writes hpart) (column_of_ok h)
    exact ⟨hsame.getBlock, fun layer => ⟨hsame.state layer, hsame.peek layer⟩⟩
  | biomes => exact congrFun hside
  | light kind => exact congrFun hside
  | tiles => exact fun p => congrFun hside p.inColumn
  | entities => exact hside
  | entityRemoves => exact hside
  | heightMaps => exact hside
  | fastMode => exact hside
  | bitMask => exact hside

end Edit

end VoxelStore
