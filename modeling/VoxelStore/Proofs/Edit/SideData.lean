import VoxelStore.Proofs.Edit.Channels
import VoxelStore.Proofs.Edit.History
/-!
# Side data as plain maps

`SideData` is what an edit says besides its blocks, with a grid or none for every layer and no allocation.
In an edit whose channels are as large as its column (`Edit.Sized`), every operation does to the side data
what `SideData.step` says, and the channels stay that large (`Op.run_sideData`). Growth is no step of its
own: the grids stay with their layers.
-/

namespace VoxelStore

/-- What an edit says besides its blocks. Tiles go by their position inside the column. -/
structure SideData where
  biomes : Int → Option (Vector (Option Biome) sectionBiomes)
  light : LightKind → Int → Option (Vector UInt8 sectionBlocks)
  tiles : Position → Option Tag
  entities : List Tag
  entityRemoves : List Nat
  heightMaps : Table HeightMap (Array Int)
  fastMode : Bool
  bitMask : Int

namespace SideData

/-- No change at all. -/
def unchanged : SideData where
  biomes _ := none
  light _ _ := none
  tiles _ := none
  entities := []
  entityRemoves := []
  heightMaps := {}
  fastMode := false
  bitMask := -1

/-- The grids with the one of a layer changed, which is blank where there is none. -/
def change {α : Type} {n : Nat} (grids : Int → Option (Vector α n)) (layer : Int) (blank : α)
    (f : Vector α n → Vector α n) : Int → Option (Vector α n) := fun k =>
  if k = layer then some (f ((grids layer).getD (Vector.replicate n blank))) else grids k

variable (m : SideData)

def changeLight (kind : LightKind) (layer : Int)
    (f : Vector UInt8 sectionBlocks → Vector UInt8 sectionBlocks) : SideData :=
  { m with light := fun kind' =>
      if kind' = kind then change (m.light kind) layer lightUnset f else m.light kind' }

variable {m} in
theorem light_changeLight_self {kind : LightKind} {layer : Int}
    {f : Vector UInt8 sectionBlocks → Vector UInt8 sectionBlocks} :
    (m.changeLight kind layer f).light kind = change (m.light kind) layer lightUnset f := if_pos rfl

variable {m} in
theorem light_changeLight_of_ne {kind kind' : LightKind} {layer : Int}
    {f : Vector UInt8 sectionBlocks → Vector UInt8 sectionBlocks} (h : kind' ≠ kind) :
    (m.changeLight kind layer f).light kind' = m.light kind' := if_neg h

def fillLight (kind : LightKind) (layer : Int) (value : UInt8) : SideData :=
  m.changeLight kind layer fun _ => Vector.replicate sectionBlocks value

/-- What an operation on an edit means for the side data. -/
def step : Edit.Op → SideData
  | .setBiome p biome =>
    { m with biomes := change m.biomes p.layer none (·.setIfInBounds p.biomeIndex (some biome)) }
  | .setLight kind p value => m.changeLight kind p.layer (·.setIfInBounds p.blockIndex value)
  | .setLightLayer kind layer light =>
    if h : light.size = sectionBlocks then m.changeLight kind layer fun _ => ⟨light, h⟩ else m
  | .removeLighting layer sky =>
    if sky then (m.fillLight .block layer 0).fillLight .sky layer 0 else m.fillLight .block layer 0
  | .setFullBright layer => (m.fillLight .block layer maxLight).fillLight .sky layer maxLight
  | .setTile p tile => { m with tiles := fun q => if q = p.inColumn then some tile else m.tiles q }
  | .setEntity entity => { m with entities := m.entities.insert entity }
  | .removeEntity id => { m with entityRemoves := m.entityRemoves.insert id }
  | .setHeightMap kind heights => { m with heightMaps := m.heightMaps.insert kind heights }
  | .setFastMode on => { m with fastMode := on }
  | .setBitMask mask => { m with bitMask := mask }
  | .reset => unchanged
  | .write .. | .setBlocks .. | .replaceBlocks .. | .fillSection .. | .setBlock .. | .trimAll
  | .sectionLock _ | .copy => m

end SideData

namespace Edit

variable {e e₁ e' : Edit} {layer : Int} {s t : Session}

/-- The side data of an edit. -/
def sideData (e : Edit) : SideData where
  biomes := e.biomes?
  light := e.lightLayer?
  tiles := e.tiles.find?
  entities := e.entities
  entityRemoves := e.entityRemoves
  heightMaps := e.heightMaps
  fastMode := e.fastMode
  bitMask := e.bitMask

/-- Every channel that was written has one entry for every layer of the column. -/
structure Sized (e : Edit) : Prop where
  biomes : e.biomes.Sized e.column
  light : ∀ kind, (e.light kind).Sized e.column

theorem light_withLight (e : Edit) (kind kind' : LightKind) (light : Channel UInt8 sectionBlocks) :
    (e.withLight kind light).light kind' = if kind' = kind then light else e.light kind' := by
  cases kind <;> cases kind' <;> rfl

/-- Other light of one kind is a change of the light of that kind alone. -/
theorem sideData_withLight (e : Edit) (kind : LightKind) (light : Channel UInt8 sectionBlocks) :
    (e.withLight kind light).sideData =
      { e.sideData with light := fun kind' =>
          if kind' = kind then light.onLayer e.column else e.lightLayer? kind' } := by
  have hlight : (e.withLight kind light).lightLayer? = fun kind' =>
      if kind' = kind then light.onLayer e.column else e.lightLayer? kind' := by
    funext kind'
    cases kind <;> cases kind' <;> rfl
  rw [← hlight]
  cases kind <;> rfl

/-! ## The range -/

/-- Channels count by the grids that they give to the layers, wherever those are kept. -/
theorem sideData_of_grids {c : Column} {biomes : Channel (Option Biome) sectionBiomes}
    {blockLight skyLight : Channel UInt8 sectionBlocks}
    (hbiomes : ∀ k, biomes.onLayer c k = e.biomes.onLayer e.column k)
    (hblock : ∀ k, blockLight.onLayer c k = e.blockLight.onLayer e.column k)
    (hsky : ∀ k, skyLight.onLayer c k = e.skyLight.onLayer e.column k) :
    ({ e with column := c, biomes, blockLight, skyLight } : Edit).sideData = e.sideData := by
  have hb : ({ e with column := c, biomes, blockLight, skyLight } : Edit).biomes? = e.biomes? := funext hbiomes
  have hl : ({ e with column := c, biomes, blockLight, skyLight } : Edit).lightLayer? = e.lightLayer? := by
    funext kind
    cases kind with
    | block => exact funext hblock
    | sky => exact funext hsky
  rw [sideData, sideData, hb, hl]

theorem sideData_withColumn {c : Column} (hb : c.bottom = e.column.bottom) (ht : c.top = e.column.top) :
    ({ e with column := c } : Edit).sideData = e.sideData :=
  sideData_of_grids (Channel.onLayer_congr hb ht) (Channel.onLayer_congr hb ht) (Channel.onLayer_congr hb ht)

theorem Sized.withColumn {c : Column} (h : e.Sized) (hb : c.bottom = e.column.bottom)
    (ht : c.top = e.column.top) : ({ e with column := c } : Edit).Sized where
  biomes := h.biomes.congr hb ht
  light
    | .block => (h.light .block).congr hb ht
    | .sky => (h.light .sky).congr hb ht

/-- Reaching a layer changes no side data, in whichever direction the column grows. -/
theorem sideData_reach (h : e.reach layer s = .ok e₁ t) (he : e.Sized) :
    e₁.sideData = e.sideData ∧ e₁.Sized ∧ e₁.column.bottom ≤ layer ∧ layer ≤ e₁.column.top := by
  obtain ⟨c, s₁, hext, hc, -⟩ := e.column.extendTo_ok layer s
  rw [reach, Run.bind_of_ok hext] at h
  cases hg : e.column.growth? layer with
  | none =>
    rw [hg] at h
    cases h
    have hmem := Column.mem_of_growth hg
    have hb : c.bottom = e.column.bottom := by rw [hc.bottom]; omega
    have ht : c.top = e.column.top := by rw [hc.top]; omega
    exact ⟨sideData_withColumn hb ht, he.withColumn hb ht, hc.mem⟩
  | some g =>
    rw [hg] at h
    cases h
    -- the column and the three channels grow by the same extension
    refine ⟨?_, ⟨he.biomes.grow hg hc, ?_⟩, hc.mem⟩
    · exact sideData_of_grids (Channel.onLayer_grow he.biomes hg hc)
        (Channel.onLayer_grow (he.light .block) hg hc) (Channel.onLayer_grow (he.light .sky) hg hc)
    · intro kind
      cases kind with
      | block => exact (he.light .block).grow hg hc
      | sky => exact (he.light .sky).grow hg hc

/-- Nor does any operation on the reached layer of the column. -/
theorem sideData_onColumn {x : Column.Op} (h : e.onColumn layer (fun c => x.run c) s = .ok e' t)
    (hx : ∀ m : BlockMap, (m.step x).bottom = min m.bottom layer ∧ (m.step x).top = max m.top layer)
    (he : e.Sized) : e'.sideData = e.sideData ∧ e'.Sized := by
  obtain ⟨e₁, s₁, hreach, h⟩ := Run.bind_eq_ok.1 h
  obtain ⟨c, s₂, hrun, h⟩ := Run.bind_eq_ok.1 h
  cases h
  obtain ⟨hside, hsized, hmem⟩ := sideData_reach hreach he
  -- the range after the operation is that of the map, and it contains the layer already
  have hrefines := (Column.refines_blockMap e₁.column).step hrun
  have hb : c.bottom = e₁.column.bottom := by
    rw [hrefines.bottom, (hx _).1]
    exact Int.min_eq_left hmem.1
  have ht : c.top = e₁.column.top := by
    rw [hrefines.top, (hx _).2]
    exact Int.max_eq_left hmem.2
  exact ⟨(sideData_withColumn hb ht).trans hside, hsized.withColumn hb ht⟩

/-! ## Light and biomes -/

theorem sideData_updateLight {kind : LightKind} {f : Vector UInt8 sectionBlocks → Vector UInt8 sectionBlocks}
    (h : e.updateLight kind layer f s = .ok e' t) (he : e.Sized) :
    e'.sideData = e.sideData.changeLight kind layer f ∧ e'.Sized := by
  obtain ⟨e₁, s₁, hreach, h⟩ := Run.bind_eq_ok.1 h
  cases h
  obtain ⟨hside, hsized, hmem⟩ := sideData_reach hreach he
  have hchange : ((e₁.light kind).update e₁.layerCount (e₁.offset layer) lightUnset f).onLayer e₁.column =
      SideData.change (e₁.lightLayer? kind) layer lightUnset f :=
    funext fun k => Channel.onLayer_update (hsized.light kind) hmem lightUnset f k
  refine ⟨?_, ⟨?_, fun kind' => ?_⟩⟩
  · rw [sideData_withLight, hchange, ← hside]
    rfl
  · rw [column_withLight]
    cases kind <;> exact hsized.biomes
  · rw [column_withLight, light_withLight]
    split
    · exact (hsized.light kind).update _ _ _
    · exact hsized.light kind'

theorem sideData_setBiome {p : Position} {biome : Biome} (h : e.setBiome p biome s = .ok e' t) (he : e.Sized) :
    e'.sideData = e.sideData.step (.setBiome p biome) ∧ e'.Sized := by
  obtain ⟨e₁, s₁, hreach, h⟩ := Run.bind_eq_ok.1 h
  cases h
  obtain ⟨hside, hsized, hmem⟩ := sideData_reach hreach he
  have hchange : (e₁.biomes.update e₁.layerCount (e₁.offset p.layer) none
      (·.setIfInBounds p.biomeIndex (some biome))).onLayer e₁.column =
      SideData.change e₁.biomes? p.layer none (·.setIfInBounds p.biomeIndex (some biome)) :=
    funext fun k => Channel.onLayer_update hsized.biomes hmem none _ k
  refine ⟨?_, ⟨hsized.biomes.update _ _ _, hsized.light⟩⟩
  rw [← hside, SideData.step]
  simp only [set_eq_setIfInBounds]
  exact congrArg (fun biomes => { e₁.sideData with biomes }) hchange

/-- Two fills of one layer change the light of both kinds. -/
theorem sideData_fillLight_twice {kind kind' : LightKind} {value value' : UInt8}
    (h : (do let e ← e.fillLight kind layer value; e.fillLight kind' layer value') s = .ok e' t) (he : e.Sized) :
    e'.sideData = (e.sideData.fillLight kind layer value).fillLight kind' layer value' ∧ e'.Sized := by
  obtain ⟨e₁, s₁, hfirst, h⟩ := Run.bind_eq_ok.1 h
  obtain ⟨hside, hsized⟩ := sideData_updateLight hfirst he
  obtain ⟨hside', hsized'⟩ := sideData_updateLight h hsized
  rw [hside] at hside'
  exact ⟨hside', hsized'⟩

theorem sideData_setTile {p : Position} {tile : Tag} (h : e.setTile p tile s = .ok e' t) (he : e.Sized) :
    e'.sideData = e.sideData.step (.setTile p tile) ∧ e'.Sized := by
  obtain ⟨e₁, s₁, hreach, h⟩ := Run.bind_eq_ok.1 h
  cases h
  obtain ⟨hside, hsized, -⟩ := sideData_reach hreach he
  have htiles : (e₁.tiles.insert p.inColumn tile).find? = fun q =>
      if q = p.inColumn then some tile else e₁.tiles.find? q := by
    funext q
    by_cases hq : q = p.inColumn
    · rw [if_pos hq, hq, Table.find?_insert_self]
    · rw [if_neg hq, Table.find?_insert_of_ne _ _ hq]
  refine ⟨?_, hsized.biomes, hsized.light⟩
  rw [← hside, SideData.step]
  exact congrArg (fun tiles => { e₁.sideData with tiles }) htiles

/-- An edit of a column alone changes nothing else. -/
theorem sideData_fresh (c : Column) :
    ({ column := c } : Edit).sideData = .unchanged ∧ ({ column := c } : Edit).Sized := by
  refine ⟨?_, ⟨Channel.sized_unwritten c, fun kind => by cases kind <;> exact Channel.sized_unwritten c⟩⟩
  have hlight : ({ column := c } : Edit).lightLayer? = fun _ _ => none := by
    funext kind k
    cases kind <;> rfl
  rw [sideData, hlight]
  rfl

/-! ## One step -/

/-- Every operation does to the side data what it means for it. -/
theorem Op.run_sideData {op : Op} (h : op.run e s = .ok e' t) (he : e.Sized) :
    e'.sideData = e.sideData.step op ∧ e'.Sized := by
  cases op with
  | write layer writes =>
    exact sideData_onColumn (x := .write layer writes) h (fun _ => ⟨rfl, rfl⟩) he
  | setBlocks layer data =>
    rw [run, setBlocks_eq_onColumn] at h
    exact sideData_onColumn (x := .setBlocks layer data) h (fun _ => ⟨rfl, rfl⟩) he
  | replaceBlocks layer data =>
    rw [run, ← Edit.setBlocks, setBlocks_eq_onColumn] at h
    exact sideData_onColumn (x := .setBlocks layer data) h (fun _ => ⟨rfl, rfl⟩) he
  | fillSection layer value =>
    exact sideData_onColumn (x := .fillSection layer value) h (fun _ => ⟨rfl, rfl⟩) he
  | setBlock p value =>
    exact sideData_onColumn (x := .setBlock p value) h (fun _ => ⟨rfl, rfl⟩) he
  | sectionLock layer =>
    rw [run, sectionLock_eq_onColumn] at h
    exact sideData_onColumn (x := .sectionLock layer) h (fun _ => ⟨rfl, rfl⟩) he
  | setBiome p biome => exact sideData_setBiome h he
  | setLight kind p value =>
    rw [run, Edit.setLight] at h
    split at h
    · cases h
    · simp only [set_eq_setIfInBounds] at h
      exact sideData_updateLight h he
  | setLightLayer kind layer light =>
    have hsize : light.size = sectionBlocks := lit_of_ok h
    rw [run, Edit.setLightLayer, dif_pos hsize] at h
    rw [SideData.step, dif_pos hsize]
    exact sideData_updateLight h he
  | removeLighting layer sky =>
    cases sky with
    | false =>
      obtain ⟨e₁, s₁, hblock, h⟩ := Run.bind_eq_ok.1 h
      obtain ⟨rfl, -⟩ := Run.pure_eq_ok.1 h
      exact sideData_updateLight hblock he
    | true => exact sideData_fillLight_twice h he
  | setFullBright layer => exact sideData_fillLight_twice h he
  | setTile p tile => exact sideData_setTile h he
  | trimAll =>
    cases h
    have hm := Column.maps_trimAll e.column
    exact ⟨sideData_withColumn hm.bottom hm.top, he.withColumn hm.bottom hm.top⟩
  | copy =>
    obtain ⟨c, s₁, hcopy, h⟩ := Run.bind_eq_ok.1 h
    cases h
    obtain ⟨c₁, t₁, h₁, hm, -⟩ := Column.copy_ok e.column s
    cases h₁.symm.trans hcopy
    exact ⟨sideData_withColumn hm.bottom hm.top, he.withColumn hm.bottom hm.top⟩
  | reset =>
    cases h
    exact sideData_fresh _
  | setEntity entity =>
    cases h
    exact ⟨rfl, he.biomes, he.light⟩
  | removeEntity id =>
    cases h
    exact ⟨rfl, he.biomes, he.light⟩
  | setHeightMap kind heights =>
    cases h
    exact ⟨rfl, he.biomes, he.light⟩
  | setFastMode on =>
    cases h
    exact ⟨rfl, he.biomes, he.light⟩
  | setBitMask mask =>
    cases h
    exact ⟨rfl, he.biomes, he.light⟩

end Edit

end VoxelStore
