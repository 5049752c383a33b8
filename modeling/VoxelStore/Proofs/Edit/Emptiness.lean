import VoxelStore.Palette.Encoder
import VoxelStore.Proofs.Column.NormalForm
import VoxelStore.Proofs.Edit.LastWrite
import VoxelStore.Proofs.Edit.Recycling
/-!
# When an edit is empty

An edit counts as empty while its column is, and while no side data were set since the last reset. No
history sets side data in another way (`sideData_since_reset`). Hence an empty edit has nothing to apply, and
trimming, which leaves no layer of the background alone in the column (`Column.isEmpty_trimAll_iff`), finds
every edit empty whose blocks and side data are.
-/

namespace VoxelStore

/-! ## Side data -/

namespace Channel

variable {α : Type} {n : Nat} (ch : Channel α n)

theorem isWritten_grow (g : Extension) : (ch.grow g).isWritten = ch.isWritten := Option.isSome_map

theorem grid?_of_unwritten (h : ch.isWritten = false) (offset : Option Nat) : ch.grid? offset = none := by
  have hlayers : ch.layers = none := Option.isNone_iff_eq_none.1 (by simpa [isWritten] using h)
  rw [grid?, hlayers, Option.bind_none]

theorem isWritten_update (count offset : Nat) (blank : α) (change : Vector α n → Vector α n) :
    (ch.update count offset blank change).isWritten = true := rfl

end Channel

namespace Edit

variable {e e' : Edit} {layer : Int} {s t : Session}

/-- Any side data were set. -/
def hasSideData (e : Edit) : Bool :=
  e.biomes.isWritten || e.blockLight.isWritten || e.skyLight.isWritten || !e.tiles.isEmpty ||
    !e.entities.isEmpty || !e.entityRemoves.isEmpty || !e.heightMaps.isEmpty

theorem isEmpty_iff (e : Edit) : e.isEmpty = true ↔ e.hasSideData = false ∧ ∀ k, e.column.state k = .empty := by
  rw [← Column.isEmpty_iff]
  simp [isEmpty, hasSideData, and_assoc]

/-- The operation sets side data other than the two flags. -/
def Op.SetsSideData : Op → Prop
  | setBiome .. | setLight .. | setLightLayer .. | removeLighting .. | setFullBright _ | setTile ..
  | setEntity _ | removeEntity _ | setHeightMap .. => True
  | write .. | setBlocks .. | replaceBlocks .. | fillSection .. | setBlock .. | trimAll | sectionLock _
  | setFastMode _ | setBitMask _ | reset | copy => False

theorem hasSideData_reach (h : e.reach layer s = .ok e' t) : e'.hasSideData = e.hasSideData := by
  obtain ⟨⟨growth, c⟩, s₁, -, h⟩ := Run.bind_eq_ok.1 h
  cases growth with
  | none =>
    cases h
    rfl
  | some g =>
    cases h
    simp only [hasSideData, Channel.isWritten_grow]

theorem hasSideData_onColumn (f : Column → Run Column) (h : e.onColumn layer f s = .ok e' t) :
    e'.hasSideData = e.hasSideData := by
  obtain ⟨e₁, s₁, hreach, h⟩ := Run.bind_eq_ok.1 h
  obtain ⟨c, s₂, -, h⟩ := Run.bind_eq_ok.1 h
  cases h
  exact (hasSideData_reach hreach : e₁.hasSideData = e.hasSideData)

theorem hasSideData_updateLight {kind : LightKind} {change : Vector UInt8 sectionBlocks → Vector UInt8 sectionBlocks}
    (h : e.updateLight kind layer change s = .ok e' t) : e'.hasSideData = true := by
  obtain ⟨e₁, s₁, -, h⟩ := Run.bind_eq_ok.1 h
  cases h
  cases kind <;> simp [hasSideData, withLight, Channel.isWritten_update]

/-- Whoever sets side data leaves some, even where the value was there before. -/
theorem hasSideData_of_sets {op : Op} (h : op.run e s = .ok e' t) (hop : op.SetsSideData) :
    e'.hasSideData = true := by
  cases op with
  | setBiome p biome =>
    obtain ⟨e₁, s₁, -, h⟩ := Run.bind_eq_ok.1 h
    cases h
    simp [hasSideData, Channel.isWritten_update]
  | setLight kind p value =>
    have hlit : value ≤ maxLight := Op.lit_of_ok h
    rw [Op.run, setLight, if_neg (UInt8.not_lt.2 hlit)] at h
    exact hasSideData_updateLight h
  | setLightLayer kind layer light =>
    have hsize : light.size = sectionBlocks := Op.lit_of_ok h
    rw [Op.run, setLightLayer, dif_pos hsize] at h
    exact hasSideData_updateLight h
  | removeLighting layer sky =>
    obtain ⟨e₁, s₁, hblock, h⟩ := Run.bind_eq_ok.1 h
    cases sky with
    | false =>
      cases h
      exact hasSideData_updateLight hblock
    | true => exact hasSideData_updateLight h
  | setFullBright layer =>
    obtain ⟨e₁, s₁, -, h⟩ := Run.bind_eq_ok.1 h
    exact hasSideData_updateLight h
  | setTile p tile =>
    obtain ⟨e₁, s₁, -, h⟩ := Run.bind_eq_ok.1 h
    cases h
    simp [hasSideData, Table.isEmpty_insert]
  | setEntity entity =>
    cases h
    have hne : e.entities.insert entity ≠ [] := List.ne_nil_of_mem List.mem_insert_self
    simp [hasSideData, setEntity, hne]
  | removeEntity id =>
    cases h
    have hne : e.entityRemoves.insert id ≠ [] := List.ne_nil_of_mem List.mem_insert_self
    simp [hasSideData, removeEntity, hne]
  | setHeightMap kind heights =>
    cases h
    simp [hasSideData, setHeightMap, Table.isEmpty_insert]
  | _ => exact hop.elim

theorem hasSideData_of_not_sets {op : Op} (h : op.run e s = .ok e' t) (hop : ¬op.SetsSideData)
    (hreset : op ≠ .reset) : e'.hasSideData = e.hasSideData := by
  cases op with
  | write layer writes => exact hasSideData_onColumn (·.modifyLayer layer (ArrayWrite.runAll writes)) h
  | setBlocks layer data =>
    rw [Op.run, setBlocks_eq_onColumn] at h
    exact hasSideData_onColumn _ h
  | replaceBlocks layer data =>
    rw [Op.run, ← setBlocks, setBlocks_eq_onColumn] at h
    exact hasSideData_onColumn _ h
  | fillSection layer value => exact hasSideData_onColumn (·.fillSection layer value) h
  | setBlock p value => exact hasSideData_onColumn (·.setBlock p value) h
  | sectionLock layer =>
    rw [Op.run, sectionLock_eq_onColumn] at h
    exact hasSideData_onColumn _ h
  | trimAll =>
    cases h
    rfl
  | setFastMode on =>
    cases h
    rfl
  | setBitMask mask =>
    cases h
    rfl
  | copy =>
    obtain ⟨c, s₁, -, h⟩ := Run.bind_eq_ok.1 h
    cases h
    rfl
  | reset => exact absurd rfl hreset
  | _ => exact absurd trivial hop

/-! ## Histories -/

variable {bottom top : Int} {ops : List Op}

/-- There are side data exactly if any were set since the last reset. -/
theorem sideData_since_reset (h : History bottom top ops e) :
    e.hasSideData = true ↔ ∃ op ∈ sinceReset ops, op.SetsSideData := by
  induction h with
  | create h =>
    obtain ⟨c, s, -, h⟩ := Run.bind_eq_ok.1 h
    cases h
    simp [sinceReset, hasSideData, Channel.isWritten, Table.isEmpty]
  | @step ops op e e' s t _ hrun ih =>
    rw [sinceReset_append]
    by_cases hreset : op = .reset
    · subst hreset
      cases hrun
      simp [reset, Op.isReset, hasSideData, Channel.isWritten, Table.isEmpty]
    · rw [Op.isReset_eq_false hreset, if_neg Bool.false_ne_true]
      by_cases hop : op.SetsSideData
      · exact ⟨fun _ => ⟨op, List.mem_cons_self, hop⟩, fun _ => hasSideData_of_sets hrun hop⟩
      · rw [hasSideData_of_not_sets hrun hop hreset, ih]
        simp [hop]

/-- Without side data all reads of side data answer as in an edit without changes. -/
theorem reads_of_not_hasSideData (h : e.hasSideData = false) :
    (∀ p, e.getBiome p = none ∧ (∀ kind, e.getLight kind p = lightUnset) ∧ e.getTile p = none) ∧
      e.entities = [] ∧ e.entityRemoves = [] ∧ e.heightMaps.entries = [] := by
  simp only [hasSideData, Bool.or_eq_false_iff, Bool.not_eq_false', List.isEmpty_iff, Table.isEmpty] at h
  obtain ⟨⟨⟨⟨⟨⟨hbiomes, hblock⟩, hsky⟩, htiles⟩, hentities⟩, hremoves⟩, hmaps⟩ := h
  refine ⟨fun p => ⟨?_, fun kind => ?_, ?_⟩, hentities, hremoves, hmaps⟩
  · rw [getBiome, biomes?, e.biomes.grid?_of_unwritten hbiomes]
    rfl
  · have hlight : (e.light kind).isWritten = false := by
      cases kind with
      | block => exact hblock
      | sky => exact hsky
    rw [getLight, lightLayer?, (e.light kind).grid?_of_unwritten hlight]
  · rw [getTile, Table.find?, htiles]
    rfl

theorem load_contents {a : SectionArray} (h : e.load layer s = .ok (a, e') t) :
    a.cells = (e.column.layer layer).contents e.column.background := by
  obtain ⟨e₁, s₁, hreach, h⟩ := Run.bind_eq_ok.1 h
  obtain ⟨⟨b, c⟩, s₂, hload, h⟩ := Run.bind_eq_ok.1 h
  cases h
  have hcolumn := Run.map_of_ok hreach column
  rw [map_column_reach] at hcolumn
  obtain ⟨hextends, -⟩ := Column.reach_eq_ok hcolumn
  obtain ⟨-, s₃, -, hmat⟩ := Column.load_eq_ok hload
  rw [Layer.materialize_eq_ok hmat, hextends.layer, hextends.background]

/-- There is nothing to apply of an empty edit. -/
theorem History.reads_of_isEmpty (h : History bottom top ops e) (hempty : e.isEmpty = true) :
    (∀ p, e.getBlock p = .reserved ∧ e.getBiome p = none ∧ (∀ kind, e.getLight kind p = lightUnset) ∧
        e.getTile p = none) ∧
      e.entities = [] ∧ e.entityRemoves = [] ∧ e.heightMaps.entries = [] ∧
      ∀ encoder : Encoder, ∀ k g s, encoder.encodeLayer e.column k g s = .ok (none, encoder) s := by
  obtain ⟨hnone, hstate⟩ := (isEmpty_iff e).1 hempty
  obtain ⟨hreads, hentities, hremoves, hmaps⟩ := reads_of_not_hasSideData hnone
  have hlayer : ∀ k, ∃ spare, e.column.layer k = .empty spare := by
    intro k
    have hk := hstate k
    rw [Column.state] at hk
    cases hl : e.column.layer k with
    | empty spare => exact ⟨spare, rfl⟩
    | uniform v spare =>
      rw [hl] at hk
      cases hk
    | present blocks =>
      rw [hl] at hk
      cases hk
  refine ⟨fun p => ⟨?_, hreads p⟩, hentities, hremoves, hmaps, fun encoder k g s => ?_⟩
  · obtain ⟨spare, hl⟩ := hlayer p.layer
    rw [getBlock, Column.getBlock, hl, h.column.background_eq]
    rfl
  · obtain ⟨spare, hl⟩ := hlayer k
    rw [Encoder.encodeLayer, hl]
    rfl

/-- Trimming changes nothing that a layer stands for. -/
theorem contents_trimAll (e : Edit) (k : Int) :
    (e.trimAll.2.column.layer k).contents e.trimAll.2.column.background =
      (e.column.layer k).contents e.column.background := e.column.contents_trimAll k

/-- An edit is empty exactly if no layer holds anything and no side data were set since the last reset,
whatever has been undone before. An empty edit has nothing to apply: all reads answer as in an edit
without changes, and there is no layer to encode. Trimming makes an edit empty if all blocks of all layers,
as they are loaded after it, are the placeholder, and again no side data were set. -/
theorem history_isEmpty (h : History bottom top ops e) :
    (e.isEmpty = true ↔
      (∀ k, e.column.state k = .empty) ∧ ∀ op ∈ sinceReset ops, ¬op.SetsSideData) ∧
    (e.isEmpty = true →
      (∀ p, e.getBlock p = .reserved ∧ e.getBiome p = none ∧ (∀ kind, e.getLight kind p = lightUnset) ∧
        e.getTile p = none) ∧
      e.entities = [] ∧ e.entityRemoves = [] ∧ e.heightMaps.entries = [] ∧
      ∀ encoder : Encoder, ∀ k g s, encoder.encodeLayer e.column k g s = .ok (none, encoder) s) ∧
    ((∀ op ∈ sinceReset ops, ¬op.SetsSideData) →
      (∀ k, ∃ s a e₁ t, e.trimAll.2.load k s = .ok (a, e₁) t ∧
        a.cells = Vector.replicate sectionBlocks .reserved) →
      e.trimAll.2.isEmpty = true) := by
  have hside : e.hasSideData = false ↔ ∀ op ∈ sinceReset ops, ¬op.SetsSideData := by
    rw [Bool.eq_false_iff, Ne, sideData_since_reset h]
    simp
  refine ⟨?_, h.reads_of_isEmpty, fun hsets hload => ?_⟩
  · rw [isEmpty_iff, hside, and_comm]
  · have htrimmed : e.trimAll.2.column.isEmpty = true := by
      refine (Column.isEmpty_trimAll_iff h.column).2 fun k => ?_
      obtain ⟨s, a, e₁, t, hrun, hcells⟩ := hload k
      rw [load_contents hrun, contents_trimAll] at hcells
      exact hcells
    exact (isEmpty_iff _).2 ⟨hside.2 hsets, (Column.isEmpty_iff _).1 htrimmed⟩

theorem load_inRegistry {n : UInt32} (he : e.column.InRegistry n) (hs : s.Serves n) (k : Int) :
    ∃ a e' t, e.load k s = .ok (a, e') t := by
  obtain ⟨c, s₁, hreach, hextends, hw⟩ := Column.reach_ok e.column k s
  rw [← map_column_reach] at hreach
  obtain ⟨e₁, hedit, rfl⟩ := Run.map_eq_ok.1 hreach
  obtain ⟨a, c', t, hload, -⟩ := Column.load_inRegistry (hw.trans hs) (hextends.inRegistry he) k
  exact ⟨a, _, t, (Run.bind_of_ok hedit _).trans (Run.bind_of_ok hload _)⟩

/-- A layer that was written and undone is no change once it is trimmed. Neither is the tile, which was set
before the reset, nor the flag. -/
theorem history_isEmpty_undone :
    ∃ e, History 0 3 [.setTile ⟨0, 70, 0⟩ ⟨[]⟩, .reset, .setFastMode true,
        .write 2 [.setAll 7, .setAll .reserved]] e ∧ e.trimAll.2.isEmpty = true := by
  obtain ⟨e₀, t₀, hcreate, he₀, -⟩ := create_inRegistry (n := 16) (show (0 : Int) ≤ 3 by decide) (by decide) {}
  obtain ⟨e, he, hreg⟩ := (HistoryIn.create hcreate).goOn he₀ [.setTile ⟨0, 70, 0⟩ ⟨[]⟩, .reset,
    .setFastMode true, .write 2 [.setAll 7, .setAll .reserved]]
    (by simp [Op.Legal, Op.Lit, Op.columnOps, Column.Op.Legal, ArrayWrite.Legal]; decide)
  have hhistory := he.history
  obtain ⟨-, -, htrim⟩ := history_isEmpty hhistory
  refine ⟨e, hhistory, htrim (by simp [sinceReset, Op.isReset, Op.SetsSideData]) fun k => ?_⟩
  have hs : Session.Serves 16 { width := some (ArrayWidth.forStateCount 16) } := rfl
  obtain ⟨a, e₁, t, hload⟩ := load_inRegistry (e := e.trimAll.2) (Column.inRegistry_trimAll hreg) hs k
  refine ⟨_, a, e₁, t, hload, ?_⟩
  have hblocks := (Column.refines_of_history hhistory.column).blocks k
  rw [load_contents hload, contents_trimAll, hblocks]
  show (if k = 2 then Vector.replicate sectionBlocks BlockState.reserved else _) = _
  split <;> rfl

end Edit

end VoxelStore
