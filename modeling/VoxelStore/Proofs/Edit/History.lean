import VoxelStore.Edit
import VoxelStore.Proofs.Column.BlockMap
/-!
# Histories of an edit

`Edit.Op` names the operations on an edit as data. Whatever an operation does to the side data, its column
goes through operations on columns only (`Op.map_column`): an edit never faults where its column does not,
and what is known about the blocks of a column holds for the blocks of an edit.
-/

namespace VoxelStore

namespace Edit

/-- The operations that change an edit. -/
inductive Op where
  /-- Loads a layer and writes to its array. Without any write it is only loaded. -/
  | write (layer : Int) (writes : List ArrayWrite)
  | setBlocks (layer : Int) (data : Option SectionArray)
  | replaceBlocks (layer : Int) (data : Option SectionArray)
  | fillSection (layer : Int) (value : BlockState)
  | setBlock (p : Position) (value : BlockState)
  | trimAll
  | sectionLock (layer : Int)
  | setBiome (p : Position) (biome : Biome)
  | setLight (kind : LightKind) (p : Position) (value : UInt8)
  | setLightLayer (kind : LightKind) (layer : Int) (light : Array UInt8)
  | removeLighting (layer : Int) (sky : Bool)
  | setFullBright (layer : Int)
  | setTile (p : Position) (tile : Tag)
  | setEntity (entity : Tag)
  | removeEntity (id : Nat)
  | setHeightMap (kind : HeightMap) (heights : Array Int)
  | setFastMode (on : Bool)
  | setBitMask (mask : Int)
  | reset
  /-- Goes on with a copy. -/
  | copy

namespace Op

/-- What an operation makes of an edit. -/
def run (e : Edit) : Op → Run Edit
  | write layer writes => e.modifyLayer layer (ArrayWrite.runAll writes)
  | setBlocks layer data => e.setBlocks layer data
  | replaceBlocks layer data => Prod.snd <$> e.replaceBlocks layer data
  | fillSection layer value => e.fillSection layer value
  | setBlock p value => e.setBlock p value
  | trimAll => return e.trimAll.2
  | sectionLock layer => Prod.snd <$> e.sectionLock layer
  | setBiome p biome => e.setBiome p biome
  | setLight kind p value => e.setLight kind p value
  | setLightLayer kind layer light => e.setLightLayer kind layer light
  | removeLighting layer sky => e.removeLighting layer sky
  | setFullBright layer => e.setFullBright layer
  | setTile p tile => e.setTile p tile
  | setEntity entity => return e.setEntity entity
  | removeEntity id => return e.removeEntity id
  | setHeightMap kind heights => return e.setHeightMap kind heights
  | setFastMode on => return e.setFastMode on
  | setBitMask mask => return e.setBitMask mask
  | reset => return e.reset
  | copy => e.copy

/-- The operation brings light that is checked to be light: a level that exists, or a whole layer. -/
def Lit : Op → Prop
  | setLight _ _ value => value ≤ maxLight
  | setLightLayer _ _ light => light.size = sectionBlocks
  | _ => True

/-- What an operation does to the column. -/
def columnOps : Op → List Column.Op
  | write layer writes => [.extendTo layer, .write layer writes]
  | setBlocks layer data | replaceBlocks layer data => [.extendTo layer, .setBlocks layer data]
  | fillSection layer value => [.extendTo layer, .fillSection layer value]
  | setBlock p value => [.extendTo p.layer, .setBlock p value]
  | trimAll => [.trimAll]
  | sectionLock layer => [.extendTo layer, .sectionLock layer]
  | setBiome p _ | setLight _ p _ | setTile p _ => [.extendTo p.layer]
  | setLightLayer _ layer _ => [.extendTo layer]
  | removeLighting layer sky => .extendTo layer :: if sky then [.extendTo layer] else []
  | setFullBright layer => [.extendTo layer, .extendTo layer]
  | setEntity _ | removeEntity _ | setHeightMap .. | setFastMode _ | setBitMask _ => []
  | reset => [.reset]
  | copy => [.copy]

/-- The operation is legal for a registry of `n` states. -/
def Legal (n : UInt32) (op : Op) : Prop := op.Lit ∧ ∀ x ∈ op.columnOps, x.Legal n

end Op

variable {e e' : Edit} {layer : Int} {s t : Session}

/-! ## The column of an edit -/

theorem map_column_reach (e : Edit) (layer : Int) : column <$> e.reach layer = e.column.reach layer := by
  rw [reach, Column.reach, map_bind, map_eq_pure_bind]
  refine bind_congr fun ⟨growth, c⟩ => ?_
  cases growth <;> rfl

theorem column_reach_of_ok (h : e.reach layer s = .ok e' t) : e.column.reach layer s = .ok e'.column t := by
  rw [← map_column_reach]
  exact Run.map_of_ok h column

theorem reach_ok (e : Edit) (layer : Int) (s : Session) : ∃ e' t, e.reach layer s = .ok e' t := by
  obtain ⟨c, t, h, -⟩ := e.column.reach_ok layer s
  rw [← map_column_reach] at h
  obtain ⟨e', h, -⟩ := Run.map_eq_ok.1 h
  exact ⟨e', t, h⟩

/-- Reaches a layer and then changes the column alone. -/
def onColumn (e : Edit) (layer : Int) (f : Column → Run Column) : Run Edit := do
  let e ← e.reach layer
  return { e with column := ← f e.column }

theorem setBlocks_eq_onColumn (e : Edit) (layer : Int) (data : Option SectionArray) :
    e.setBlocks layer data = e.onColumn layer (·.setBlocks layer data) := by
  rw [setBlocks, replaceBlocks, map_bind]
  refine bind_congr fun e₁ => ?_
  show _ = Prod.snd <$> e₁.column.replaceBlocks layer data >>= fun c => pure { e₁ with column := c }
  rw [map_bind, bind_map_left]
  exact bind_congr fun _ => rfl

theorem sectionLock_eq_onColumn (e : Edit) (layer : Int) :
    Prod.snd <$> e.sectionLock layer = e.onColumn layer fun c => Prod.snd <$> c.sectionLock layer := by
  rw [sectionLock, map_bind]
  refine bind_congr fun e₁ => ?_
  rw [map_bind, bind_map_left]
  exact bind_congr fun _ => rfl

theorem map_column_onColumn (e : Edit) (layer : Int) (f : Column → Run Column) :
    column <$> e.onColumn layer f = e.column.reach layer >>= f := by
  rw [← map_column_reach, onColumn, map_bind, bind_map_left]
  refine bind_congr fun e₁ => ?_
  rw [map_bind]
  exact bind_pure _

theorem map_column_reach_with {f : Edit → Edit} (hf : ∀ e, (f e).column = e.column) :
    column <$> (do let e ← e.reach layer; return f e) = e.column.reach layer := by
  rw [← map_column_reach, map_bind, map_eq_pure_bind]
  refine bind_congr fun e₁ => ?_
  rw [map_pure, hf]

theorem column_withLight (e : Edit) (kind : LightKind) (light : Channel UInt8 sectionBlocks) :
    (e.withLight kind light).column = e.column := by cases kind <;> rfl

theorem map_column_updateLight (e : Edit) (kind : LightKind) (layer : Int)
    (change : Vector UInt8 sectionBlocks → Vector UInt8 sectionBlocks) :
    column <$> e.updateLight kind layer change = e.column.reach layer :=
  map_column_reach_with fun _ => column_withLight ..

theorem map_column_fillLight_twice (e : Edit) (kind kind' : LightKind) (layer : Int) (value value' : UInt8) :
    column <$> (do let e ← e.fillLight kind layer value; e.fillLight kind' layer value') =
      e.column.reach layer >>= (·.reach layer) := by
  rw [map_bind, ← map_column_updateLight e kind layer fun _ => Vector.replicate sectionBlocks value,
    bind_map_left]
  exact bind_congr fun e₁ => map_column_updateLight ..

/-- One operation on an edit is a few operations on its column. -/
theorem Op.map_column {op : Op} (h : op.Lit) (e : Edit) :
    column <$> op.run e = Column.runAll op.columnOps e.column := by
  have hreach : ∀ layer (c : Column), c.reach layer = Column.runAll [.extendTo layer] c :=
    fun _ _ => (bind_pure _).symm
  have hthen : ∀ layer (x : Column.Op) (c : Column),
      c.reach layer >>= (fun c => x.run c) = Column.runAll [.extendTo layer, x] c := fun layer x c => by
    rw [Column.runAll, List.foldlM_cons]
    exact bind_congr fun c₁ => (bind_pure _).symm
  cases op with
  | write layer writes => exact (map_column_onColumn e layer _).trans (hthen layer (.write layer writes) _)
  | setBlocks layer data =>
    rw [run, setBlocks_eq_onColumn, map_column_onColumn]
    exact hthen layer (.setBlocks layer data) _
  | replaceBlocks layer data =>
    rw [run, ← Edit.setBlocks, setBlocks_eq_onColumn, map_column_onColumn]
    exact hthen layer (.setBlocks layer data) _
  | fillSection layer value =>
    exact (map_column_onColumn e layer _).trans (hthen layer (.fillSection layer value) _)
  | setBlock p value =>
    exact (map_column_onColumn e p.layer _).trans (hthen p.layer (.setBlock p value) _)
  | sectionLock layer =>
    rw [run, sectionLock_eq_onColumn, map_column_onColumn]
    exact hthen layer (.sectionLock layer) _
  | setBiome p biome =>
    have hcolumn : column <$> e.setBiome p biome = e.column.reach p.layer := map_column_reach_with fun _ => rfl
    exact hcolumn.trans (hreach ..)
  | setTile p tile =>
    have hcolumn : column <$> e.setTile p tile = e.column.reach p.layer := map_column_reach_with fun _ => rfl
    exact hcolumn.trans (hreach ..)
  | setLight kind p value =>
    have hnot : ¬maxLight < value := UInt8.not_lt.2 h
    rw [run, Edit.setLight, if_neg hnot]
    exact (map_column_updateLight ..).trans (hreach ..)
  | setLightLayer kind layer light =>
    have hsize : light.size = sectionBlocks := h
    rw [run, Edit.setLightLayer, dif_pos hsize]
    exact (map_column_updateLight ..).trans (hreach ..)
  | removeLighting layer sky =>
    -- each kind of light reaches the layer for itself
    cases sky with
    | false =>
      have hone : e.removeLighting layer false = e.fillLight .block layer 0 := bind_pure _
      rw [run, hone]
      exact (map_column_updateLight ..).trans (hreach ..)
    | true => exact (map_column_fillLight_twice ..).trans (hthen layer (.extendTo layer) _)
  | setFullBright layer => exact (map_column_fillLight_twice ..).trans (hthen layer (.extendTo layer) _)
  | trimAll => rfl
  | setEntity entity => rfl
  | removeEntity id => rfl
  | setHeightMap kind heights => rfl
  | setFastMode on => rfl
  | setBitMask mask => rfl
  | reset => rfl
  | copy =>
    rw [run, Edit.copy, map_bind]
    exact bind_congr fun c => rfl

/-- An operation that ends in an edit has passed its checks. -/
theorem Op.lit_of_ok {op : Op} (h : op.run e s = .ok e' t) : op.Lit := by
  cases op with
  | setLight kind p value =>
    rw [run, Edit.setLight] at h
    split at h
    · cases h
    · next hnot => exact UInt8.not_lt.1 hnot
  | setLightLayer kind layer light =>
    rw [run, Edit.setLightLayer] at h
    split at h
    · next hsize => exact hsize
    · cases h
  | _ => trivial

theorem Op.column_of_ok {op : Op} (h : op.run e s = .ok e' t) :
    Column.runAll op.columnOps e.column s = .ok e'.column t := by
  rw [← map_column (lit_of_ok h)]
  exact Run.map_of_ok h column

/-- No legal operation faults on an edit whose column is of the registry, and it leaves such an edit. -/
theorem Op.run_inRegistry {n : UInt32} {op : Op} (hop : op.Legal n) (he : e.column.InRegistry n)
    (hs : s.Serves n) :
    ∃ e' t, op.run e s = .ok e' t ∧ e'.column.InRegistry n ∧ t.Serves n := by
  obtain ⟨c', t, hrun, hc', ht⟩ := Column.runAll_inRegistry hop.2 he hs
  rw [← map_column hop.1] at hrun
  obtain ⟨e', hrun', rfl⟩ := Run.map_eq_ok.1 hrun
  exact ⟨e', t, hrun', hc', ht⟩

theorem create_inRegistry {n : UInt32} {bottom top : Int} (hrange : bottom ≤ top) (hn : 0 < n) (s : Session) :
    ∃ e t, create bottom top s = .ok e t ∧ e.column.InRegistry n ∧ t.width = s.width := by
  obtain ⟨c, t, hc⟩ := Column.create_ok .reserved hrange s
  exact ⟨_, t, Run.bind_of_ok hc _, Column.inRegistry_create hc hn, (Column.create_eq_ok hc).2.2.2.2⟩

/-! ## Histories -/

/-- `History bottom top ops e`: the operations `ops`, in this order and without a fault, lead from an edit
without changes to `e`. -/
inductive History (bottom top : Int) : List Op → Edit → Prop
  | create {e : Edit} {s t : Session} : create bottom top s = .ok e t → History bottom top [] e
  | step {ops : List Op} {op : Op} {e e' : Edit} {s t : Session} :
      History bottom top ops e → op.run e s = .ok e' t → History bottom top (ops ++ [op]) e'

/-- A history goes on with any legal operations. -/
theorem History.goOn {n : UInt32} {bottom top : Int} {before ops : List Op}
    (h : History bottom top before e) (he : e.column.InRegistry n) (hops : ∀ op ∈ ops, op.Legal n) :
    ∃ e', History bottom top (before ++ ops) e' := by
  induction ops generalizing before e with
  | nil => exact ⟨e, by rwa [List.append_nil]⟩
  | cons op ops ih =>
    have hs : Session.Serves n { width := some (ArrayWidth.forStateCount n) } := rfl
    obtain ⟨e₁, t, hrun, he₁, -⟩ := Op.run_inRegistry (hops op List.mem_cons_self) he hs
    rw [List.append_cons]
    exact ih (h.step hrun) he₁ fun x hx => hops x (List.mem_cons_of_mem op hx)

/-- From an edit without changes there is a history of every list of legal operations. -/
theorem exists_history {n : UInt32} {bottom top : Int} (hrange : bottom ≤ top) (hn : 0 < n) (ops : List Op)
    (hops : ∀ op ∈ ops, op.Legal n) : ∃ e, History bottom top ops e := by
  obtain ⟨e, t, hcreate, he, -⟩ := create_inRegistry hrange hn {}
  exact (History.create hcreate).goOn he hops

/-- The column of an edit has a history of its own. -/
theorem History.column {bottom top : Int} {ops : List Op} (h : History bottom top ops e) :
    Column.History bottom top .reserved (ops.flatMap Op.columnOps) e.column := by
  induction h with
  | create h =>
    obtain ⟨c, s, hc, h⟩ := Run.bind_eq_ok.1 h
    cases h
    exact .create hc
  | step _ hrun ih =>
    rw [List.flatMap_append, List.flatMap_singleton]
    exact ih.run (Op.column_of_ok hrun)

end Edit

end VoxelStore
