import VoxelStore.Proofs.Column.History
/-!
# A column is a map from blocks to ordinals

`BlockMap` is a column without representation: 4096 values for every layer, and a range. Every operation
on a column does to what the column stands for what `BlockMap.step` does to the map
(`Refines.step`), whatever tag a layer has, whatever spares were left behind and wherever the bottom has
moved. Hence after every history reading, loading and replacing all answer from the map.
-/

namespace VoxelStore

/-- 4096 values for every layer, a background and a range of layers. -/
structure BlockMap where
  bottom : Int
  top : Int
  background : BlockState
  blocks : Int → Vector BlockState sectionBlocks

namespace BlockMap

/-- The background everywhere. -/
def constant (bottom top : Int) (background : BlockState) : BlockMap :=
  ⟨bottom, top, background, fun _ => Vector.replicate sectionBlocks background⟩

/-- The value of one block. -/
def get (m : BlockMap) (p : Position) : BlockState := (m.blocks p.layer).get p.blockIndex

/-- The same values over a range that contains `layer` too. -/
def reach (m : BlockMap) (layer : Int) : BlockMap :=
  { m with bottom := min m.bottom layer, top := max m.top layer }

/-- Other values for one layer. -/
def put (m : BlockMap) (layer : Int) (values : Vector BlockState sectionBlocks) : BlockMap :=
  { m.reach layer with blocks := fun k => if k = layer then values else m.blocks k }

/-- What an operation on a column means for the map. -/
def step (m : BlockMap) : Column.Op → BlockMap
  | .extendTo layer | .sectionLock layer => m.reach layer
  | .setBlock p value => m.put p.layer ((m.blocks p.layer).setIfInBounds p.blockIndex value)
  | .fillSection layer value => m.put layer (Vector.replicate sectionBlocks value)
  | .write layer writes => m.put layer (writes.foldl ArrayWrite.onCells (m.blocks layer))
  | .setBlocks layer data | .replaceBlocks layer data =>
    m.put layer (data.elim (Vector.replicate sectionBlocks m.background) SectionArray.cells)
  | .trim _ | .trimAll | .copy => m
  | .reset => { m with blocks := fun _ => Vector.replicate sectionBlocks m.background }

/-- Putting what a layer of the range has already changes nothing. -/
theorem put_self {m : BlockMap} {l : Int} (h : m.bottom ≤ l ∧ l ≤ m.top) :
    m.put l (m.blocks l) = m := by
  have hbottom : min m.bottom l = m.bottom := by omega
  have htop : max m.top l = m.top := by omega
  have hblocks : (fun k => if k = l then m.blocks l else m.blocks k) = m.blocks := by
    funext k
    split
    · next hk => rw [hk]
    · rfl
  rw [put, reach, hbottom, htop, hblocks]

/-- The map after a list of operations. -/
def after (m : BlockMap) (ops : List Column.Op) : BlockMap := ops.foldl step m

end BlockMap

namespace Column

/-- The column stands for the map. -/
structure Refines (c : Column) (m : BlockMap) : Prop where
  bottom : c.bottom = m.bottom
  top : c.top = m.top
  background : c.background = m.background
  blocks : ∀ k, (c.layer k).contents c.background = m.blocks k

/-- The map that a column stands for. -/
def blockMap (c : Column) : BlockMap where
  bottom := c.bottom
  top := c.top
  background := c.background
  blocks k := (c.layer k).contents c.background

theorem refines_blockMap (c : Column) : Refines c c.blockMap := ⟨rfl, rfl, rfl, fun _ => rfl⟩

variable {c c' : Column} {m : BlockMap} {layer : Int} {s t : Session}

/-! ## One step -/

theorem Refines.extend (h : Refines c m) (he : Extends layer c c') : Refines c' (m.reach layer) where
  bottom := by rw [he.bottom, h.bottom]; rfl
  top := by rw [he.top, h.top]; rfl
  background := he.background.trans h.background
  blocks k := by rw [he.layer, he.background]; exact h.blocks k

theorem Refines.put {x : Layer} {values : Vector BlockState sectionBlocks} (h : Refines c m)
    (hput : Writes layer x c c') (hx : x.contents c.background = values) :
    Refines c' (m.put layer values) where
  bottom := by rw [hput.bottom, h.bottom]; rfl
  top := by rw [hput.top, h.top]; rfl
  background := hput.background.trans h.background
  blocks k := by
    rw [hput.layer, hput.background]
    simp only [BlockMap.put]
    split
    · exact hx
    · exact h.blocks k

theorem Refines.map {f : Layer → Layer} {blocks : Int → Vector BlockState sectionBlocks} (h : Refines c m)
    (hm : Maps f c c') (hf : ∀ k, (f (c.layer k)).contents c.background = blocks k) :
    Refines c' { m with blocks } where
  bottom := hm.bottom.trans h.bottom
  top := hm.top.trans h.top
  background := hm.background.trans h.background
  blocks k := by rw [hm.layer, hm.background]; exact hf k

/-- A write to the loaded array is a write to the values of the layer. -/
theorem Refines.modifyLayer {write : SectionArray → Except Fault SectionArray}
    (h : Refines c m) (onCells : Vector BlockState sectionBlocks → Vector BlockState sectionBlocks)
    (hwrite : ∀ a b : SectionArray, write a = .ok b → b.cells = onCells a.cells)
    (hrun : c.modifyLayer layer write s = .ok c' t) : Refines c' (m.put layer (onCells (m.blocks layer))) := by
  obtain ⟨a, b, s₁, hput, -, hload, hb⟩ := modifyLayer_eq_ok hrun
  refine h.put hput ?_
  rw [← h.blocks layer, ← Layer.materialize_eq_ok hload]
  exact hwrite a b hb

/-- A layer that is `value` everywhere is not changed by setting one of its blocks to `value`. -/
theorem Refines.set_uniform {p : Position} {value : BlockState} (h : Refines c m)
    (hstate : c.state p.layer = .uniform value) :
    m.put p.layer ((m.blocks p.layer).setIfInBounds p.blockIndex value) = m := by
  obtain ⟨spare, hl⟩ : ∃ spare, c.layer p.layer = .uniform value spare := by
    unfold state at hstate
    cases hl : c.layer p.layer <;> rw [hl] at hstate <;> cases hstate
    exact ⟨_, rfl⟩
  have hmem := mem_of_layer (c := c) (l := p.layer) (by rw [hl]; rintro ⟨⟩)
  have hvalues : m.blocks p.layer = Vector.replicate sectionBlocks value := by rw [← h.blocks, hl]; rfl
  have hset : (m.blocks p.layer).setIfInBounds p.blockIndex value = m.blocks p.layer := by
    rw [hvalues, Vector.setIfInBounds_replicate_self]
  rw [hset, BlockMap.put_self (by rwa [← h.bottom, ← h.top])]

/-- Every operation does to the column what it means for the map. -/
theorem Refines.step {op : Op} (h : Refines c m) (hrun : op.run c s = .ok c' t) : Refines c' (m.step op) := by
  cases op with
  | extendTo layer =>
    exact h.extend (reach_eq_ok hrun).1
  | setBlock p value =>
    rcases setBlock_eq_ok hrun with ⟨hstate, rfl, -⟩ | hrun
    · -- the column is left alone, so the map must not change either
      rw [BlockMap.step, h.set_uniform hstate]
      exact h
    · refine h.modifyLayer (·.setIfInBounds p.blockIndex value) (fun a b hb => ?_) hrun
      exact (SectionArray.set_eq_ok hb).2
  | fillSection layer value =>
    obtain ⟨c₁, t₁, h₁, hput, -⟩ := fillSection_ok c layer value s
    cases h₁.symm.trans hrun
    exact h.put hput (Layer.contents_filled _)
  | write layer writes =>
    exact h.modifyLayer (writes.foldl ArrayWrite.onCells)
      (fun a b hb => ArrayWrite.cells_runAll hb) hrun
  | setBlocks layer data =>
    obtain ⟨c₁, t₁, h₁, hput, -⟩ := setBlocks_ok c layer data s
    cases h₁.symm.trans hrun
    exact h.put hput (by cases data <;> simp [Layer.contents, h.background])
  | replaceBlocks layer data =>
    obtain ⟨c₁, t₁, h₁, hput, -⟩ := setBlocks_ok c layer data s
    cases h₁.symm.trans hrun
    exact h.put hput (by cases data <;> simp [Layer.contents, h.background])
  | trim layer =>
    obtain ⟨rfl, -⟩ := Run.pure_eq_ok.1 hrun
    rcases trim_cases c layer with ⟨-, htrim⟩ | ⟨x, hx, -, hmem, hput⟩
    · rwa [htrim]
    · -- a trimmed layer is written, with the values that it has
      rw [BlockMap.step, ← BlockMap.put_self (m := m) (l := layer) (by rwa [← h.bottom, ← h.top])]
      exact h.put hput ((Layer.contents_trimmed hx).trans (h.blocks layer))
  | trimAll =>
    obtain ⟨rfl, -⟩ := Run.pure_eq_ok.1 hrun
    refine h.map (maps_trimAll c) fun k => ?_
    rw [← h.blocks k]
    cases hx : (c.layer k).trimmed? c.background with
    | none => rfl
    | some x => exact Layer.contents_trimmed hx
  | sectionLock layer =>
    obtain ⟨lock, c₁, t₁, h₁, he, -⟩ := sectionLock_ok c layer s
    cases (Run.map_of_ok h₁ Prod.snd).symm.trans hrun
    exact h.extend he
  | reset =>
    obtain ⟨rfl, -⟩ := Run.pure_eq_ok.1 hrun
    exact h.map (maps_reset c) fun k => by rw [Layer.contents_cleared, h.background]
  | copy =>
    obtain ⟨c₁, t₁, h₁, hm, -⟩ := copy_ok c s
    cases h₁.symm.trans hrun
    exact h.map hm fun k => by rw [Layer.contents_withoutSpare, h.blocks k]

/-! ## Every history -/

theorem refines_create {bottom top : Int} {background : BlockState}
    (h : create bottom top background s = .ok c t) : Refines c (.constant bottom top background) := by
  obtain ⟨hb, ht, hg, hl, -⟩ := create_eq_ok h
  exact ⟨hb, ht, hg, fun k => by rw [hl k, hg]; rfl⟩

theorem refines_of_history {bottom top : Int} {background : BlockState} {ops : List Op}
    (h : History bottom top background ops c) :
    Refines c ((BlockMap.constant bottom top background).after ops) := by
  induction h with
  | create h => exact refines_create h
  | step _ hrun ih =>
    rw [BlockMap.after, List.foldl_append]
    exact ih.step hrun

/-! ## What a column answers -/

theorem Refines.getBlock (h : Refines c m) (p : Position) : c.getBlock p = m.get p := by
  rw [Column.getBlock, BlockMap.get, ← h.blocks p.layer, Layer.get_contents]

theorem Refines.load {a : SectionArray} (h : Refines c m) (hload : c.load layer s = .ok (a, c') t) :
    a.cells = m.blocks layer := by
  obtain ⟨-, s₁, -, hmat⟩ := load_eq_ok hload
  rw [Layer.materialize_eq_ok hmat, h.blocks]

/-- Only a layer that has an array gives one back, and then with the values of the layer. -/
theorem Refines.peek (h : Refines c m) (layer : Int) :
    ((c.peek layer).isSome ↔ c.state layer = .present) ∧
      ∀ a, c.peek layer = some a → a.cells = m.blocks layer := by
  unfold Column.peek state
  rw [← h.blocks layer]
  cases c.layer layer with
  | present blocks =>
    refine ⟨by simp [Layer.blocks?, Layer.state], ?_⟩
    rintro a ⟨⟩
    rfl
  | empty spare => exact ⟨by simp [Layer.blocks?, Layer.state], by rintro a ⟨⟩⟩
  | uniform value spare => exact ⟨by simp [Layer.blocks?, Layer.state], by rintro a ⟨⟩⟩

/-- A column is a plain map. After any history it has the range of the map that went through the same
operations. It reads at every position, in the range or not, what the map holds there; an array that is
loaded holds the map's values of its layer; and replacing a layer gives an array back exactly if the layer
had one, and then the map's values of the layer. -/
theorem history_refines {bottom top : Int} {background : BlockState} {ops : List Op}
    (h : History bottom top background ops c) :
    let m := (BlockMap.constant bottom top background).after ops
    c.bottom = m.bottom ∧ c.top = m.top ∧ (∀ p, c.getBlock p = m.get p) ∧
      (∀ layer s a c' t, c.load layer s = .ok (a, c') t → a.cells = m.blocks layer) ∧
      ∀ layer data s, ∃ before c' t, c.replaceBlocks layer data s = .ok (before, c') t ∧
        (before.isSome ↔ c.state layer = .present) ∧
        ∀ a, before = some a → a.cells = m.blocks layer := by
  intro m
  have hc : Refines c m := refines_of_history h
  refine ⟨hc.bottom, hc.top, hc.getBlock, fun layer s a c' t hload => hc.load hload, ?_⟩
  intro layer data s
  obtain ⟨c', t, hrun, -⟩ := replaceBlocks_ok c layer data s
  exact ⟨c.peek layer, c', t, hrun, hc.peek layer⟩

/-- A filled layer below the first range is loaded by a write to one block of it, survives growth upwards,
and keeps its values in a copy that drops the spares. -/
theorem history_refines_below_range :
    ∃ c, History 0 15 .reserved [.fillSection (-2) 7, .setBlock ⟨1, -20, 3⟩ 9, .fillSection 4 7, .reset,
        .fillSection (-2) 8, .setBlock ⟨1, -20, 3⟩ 9, .extendTo 20, .trimAll, .copy] c ∧
      c.bottom = -2 ∧ c.top = 20 ∧ c.getBlock ⟨1, -20, 3⟩ = 9 ∧ c.getBlock ⟨0, -20, 3⟩ = 8 ∧
      c.getBlock ⟨0, 64, 0⟩ = .reserved := by
  obtain ⟨c, hc⟩ := exists_history (n := 16) (show (0 : Int) ≤ 15 by decide)
    (show BlockState.reserved < 16 by decide) [.fillSection (-2) 7, .setBlock ⟨1, -20, 3⟩ 9, .fillSection 4 7,
      .reset, .fillSection (-2) 8, .setBlock ⟨1, -20, 3⟩ 9, .extendTo 20, .trimAll, .copy] (by simp [Op.Legal])
  obtain ⟨hb, ht, hget, -⟩ := history_refines hc
  exact ⟨c, hc, hb.trans (by decide), ht.trans (by decide), (hget _).trans (by decide +kernel),
    (hget _).trans (by decide +kernel), (hget _).trans (by decide)⟩

end Column

end VoxelStore
