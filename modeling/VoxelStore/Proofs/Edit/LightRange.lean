import VoxelStore.Proofs.Edit.LastWrite
/-!
# Which light an edit can have

The light of a block is a level up to `maxLight`, or `lightUnset` where nothing changes. Of the operations
that write light, `setLight` refuses any other level, and darkening and brightening a layer have levels of
their own. The light of a whole layer is taken as it comes. So there is light out of range in an edit exactly
while the newest light of some block came with such a layer (`history_lightInRange_iff`).
-/

namespace VoxelStore

theorem findSome?_eq_bind_find? {α β : Type} (f : α → Option β) (l : List α) :
    l.findSome? f = (l.find? fun x => (f x).isSome).bind f := by
  induction l with
  | nil => rfl
  | cons x l ih =>
    rw [List.findSome?_cons, List.find?_cons]
    cases h : f x with
    | none => exact ih
    | some y => exact h.symm

/-- Every place of a layer is the place of a block. -/
theorem Position.exists_of_place (layer : Int) (i : Fin sectionBlocks) :
    ∃ p : Position, p.layer = layer ∧ p.blockIndex = i := by
  have hi : i.val < 4096 := i.isLt
  refine ⟨⟨i % 16, layer * 16 + i / 256, i / 16 % 16⟩, ?_, Fin.ext ?_⟩
  · show (layer * 16 + (i.val : Int) / 256) / 16 = layer
    omega
  · rw [blockIndex]
    dsimp only
    omega

namespace Edit

variable {e : Edit} {bottom top : Int} {ops : List Op} {kind : LightKind} {p : Position}

/-- All light that can be read, block by block or by layers, is a level or unset. -/
structure LightInRange (e : Edit) : Prop where
  block : ∀ kind p, e.getLight kind p ≤ maxLight ∨ e.getLight kind p = lightUnset
  layer : ∀ kind layer grid, e.lightLayer? kind layer = some grid →
    ∀ i (h : i < sectionBlocks), grid[i] ≤ lightUnset

/-- The newest operation since the last reset that wrote the light of a block. -/
def lastLight (kind : LightKind) (p : Position) (ops : List Op) : Option Op :=
  (sinceReset ops).find? fun op => (op.lightAt kind p).isSome

theorem le_lightUnset_iff {v : UInt8} : v ≤ lightUnset ↔ v ≤ maxLight ∨ v = lightUnset := by
  rw [UInt8.le_iff_toNat_le, UInt8.le_iff_toNat_le, ← UInt8.toNat_inj]
  show v.toNat ≤ 16 ↔ v.toNat ≤ 15 ∨ v.toNat = 16
  omega

/-- Only light that comes with a whole layer can be out of range. -/
theorem Op.lightAt_eq_some {op : Op} {v : UInt8} (hlit : op.Lit) (h : op.lightAt kind p = some v) :
    v ≤ maxLight ∨ ∃ light, op = .setLightLayer kind p.layer light ∧ light[p.blockIndex]? = some v := by
  cases op with
  | setLight kind' q value =>
    obtain ⟨-, hv⟩ := Option.ite_none_right_eq_some.1 h
    cases hv
    exact .inl hlit
  | setLightLayer kind' layer light =>
    obtain ⟨⟨rfl, rfl⟩, hv⟩ := Option.ite_none_right_eq_some.1 h
    exact .inr ⟨light, rfl, hv⟩
  | removeLighting layer sky =>
    obtain ⟨-, hv⟩ := Option.ite_none_right_eq_some.1 h
    cases hv
    exact .inl (by decide)
  | setFullBright layer =>
    obtain ⟨-, hv⟩ := Option.ite_none_right_eq_some.1 h
    cases hv
    exact .inl (UInt8.le_refl _)
  | _ => cases h

theorem getLight_eq_lastLight (h : History bottom top ops e) (kind : LightKind) (p : Position) :
    e.getLight kind p = ((lastLight kind p ops).bind (Op.lightAt kind p)).getD lightUnset := by
  have hread := SideData.read_after (·.lightOf kind p) (Op.lightAt kind p) id
    (fun m _ => SideData.lightOf_step kind p m) h.lit
  rw [← (sideData_of_history h).1, lastWrite, findSome?_eq_bind_find?] at hread
  rw [getLight_eq_lightOf, hread, lastLight]
  cases ((sinceReset ops).find? fun op => (op.lightAt kind p).isSome).bind (Op.lightAt kind p) <;> rfl

theorem mem_of_lastLight {op : Op} (h : lastLight kind p ops = some op) : op ∈ ops := by
  have hmem := List.mem_of_find?_eq_some h
  exact List.mem_reverse.1 ((List.takeWhile_sublist _).subset hmem)

/-- The light of a block is in range unless the newest of it came with a layer. -/
theorem getLight_le_iff (h : History bottom top ops e) (kind : LightKind) (p : Position) :
    e.getLight kind p ≤ lightUnset ↔ ∀ light v, lastLight kind p ops = some (.setLightLayer kind p.layer light) →
      light[p.blockIndex]? = some v → v ≤ lightUnset := by
  rw [getLight_eq_lastLight h]
  cases hlast : lastLight kind p ops with
  | none => exact ⟨fun _ light v hop => (by cases hop), fun _ => UInt8.le_refl _⟩
  | some op =>
    have hlit := h.lit op (mem_of_lastLight hlast)
    have hsome := List.find?_some (p := fun op => (Op.lightAt kind p op).isSome) hlast
    obtain ⟨v, hv⟩ := Option.isSome_iff_exists.1 hsome
    rw [Option.bind_some, hv, Option.getD_some]
    constructor
    · intro hle light v' hop hv'
      cases hop
      have hlight : light[p.blockIndex]? = some v := (if_pos ⟨rfl, rfl⟩).symm.trans hv
      cases hlight.symm.trans hv'
      exact hle
    · intro hlayer
      rcases Op.lightAt_eq_some hlit hv with hle | ⟨light, rfl, hlight⟩
      · exact le_lightUnset_iff.2 (.inl hle)
      · exact hlayer light v rfl hlight

/-- The grid of a layer holds the light of its blocks. -/
theorem getLight_of_grid {grid : Vector UInt8 sectionBlocks} (h : e.lightLayer? kind p.layer = some grid) :
    e.getLight kind p = grid.get p.blockIndex := by
  rw [getLight, h]
  rfl

theorem lightInRange_iff_getLight : e.LightInRange ↔ ∀ kind p, e.getLight kind p ≤ lightUnset := by
  constructor
  · intro h kind p
    exact le_lightUnset_iff.2 (h.block kind p)
  · intro h
    refine ⟨fun kind p => le_lightUnset_iff.1 (h kind p), fun kind layer grid hgrid i hi => ?_⟩
    obtain ⟨p, rfl, hp⟩ := Position.exists_of_place layer ⟨i, hi⟩
    have hle := h kind p
    rw [getLight_of_grid hgrid, hp] at hle
    exact hle

/-- After any history the light of an edit is in range, read block by block or by layers, unless the newest light
of some block came with a whole layer and was out of range there. Nothing else brings such light, and any other
light that is written over it takes it away. -/
theorem history_lightInRange_iff (h : History bottom top ops e) :
    e.LightInRange ↔ ∀ kind p light v, lastLight kind p ops = some (.setLightLayer kind p.layer light) →
      light[p.blockIndex]? = some v → v ≤ lightUnset := by
  rw [lightInRange_iff_getLight]
  exact forall_congr' fun kind => forall_congr' fun p => getLight_le_iff h kind p

/-- Light that comes with a layer is not looked at, and reads as it came. -/
theorem not_lightInRange_layer :
    ∃ e, History 0 0 [.setLightLayer .block 0 (Array.replicate sectionBlocks 200)] e ∧
      e.getLight .block ⟨0, 0, 0⟩ = 200 ∧ ¬e.LightInRange := by
  obtain ⟨e, he⟩ := exists_history (n := 16) (show (0 : Int) ≤ 0 by decide) (by decide)
    [.setLightLayer .block 0 (Array.replicate sectionBlocks 200)]
    (by simp [Op.Legal, Op.Lit, Op.columnOps, Column.Op.Legal])
  have hlight : e.getLight .block ⟨0, 0, 0⟩ = 200 := by
    rw [getLight_eq_lastLight he]
    simp [lastLight, sinceReset, Op.isReset, Op.lightAt, Position.layer]
  refine ⟨e, he, hlight, fun hrange => ?_⟩
  have hlevel := hrange.block .block ⟨0, 0, 0⟩
  rw [hlight] at hlevel
  exact absurd hlevel (by decide)

/-- Such light is gone once its layer is darkened. Sky light of a layer that came with the mark for no change is in
range. -/
theorem history_lightInRange_darkened :
    ∃ e, History 0 3 [.setLightLayer .block 0 (Array.replicate sectionBlocks 200), .removeLighting 0 false,
        .setLightLayer .sky 3 (Array.replicate sectionBlocks lightUnset)] e ∧ e.LightInRange := by
  obtain ⟨e, he⟩ := exists_history (n := 16) (show (0 : Int) ≤ 3 by decide) (by decide)
    [.setLightLayer .block 0 (Array.replicate sectionBlocks 200), .removeLighting 0 false,
      .setLightLayer .sky 3 (Array.replicate sectionBlocks lightUnset)]
    (by simp [Op.Legal, Op.Lit, Op.columnOps, Column.Op.Legal])
  refine ⟨e, he, (history_lightInRange_iff he).2 fun kind p light v hop hv => ?_⟩
  cases kind with
  | block =>
    -- a block that the bright layer covers was darkened after it
    have hnone : 0 ≠ p.layer ∧ 0 = p.layer ∧ Array.replicate sectionBlocks 200 = light := by
      simpa [lastLight, sinceReset, Op.isReset, Op.lightAt] using hop
    exact absurd hnone.2.1 hnone.1
  | sky =>
    obtain ⟨-, rfl⟩ : 3 = p.layer ∧ Array.replicate sectionBlocks lightUnset = light := by
      simpa [lastLight, sinceReset, Op.isReset, Op.lightAt] using hop
    have hunset : lightUnset = v := by simpa using hv
    exact hunset ▸ UInt8.le_refl lightUnset

end Edit

end VoxelStore
