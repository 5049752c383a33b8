import VoxelStore.Column.Layers
import VoxelStore.Proofs.SectionArray.Writes
/-!
# What the operations do to a column

A column is described by its range, its background and `Column.layer`. Every operation either widens the
range (`Extends`), widens it and writes one layer (`Writes`), or treats all layers alike (`Maps`). The
lemmas below say which, once for each operation; nothing after them opens an operation again.

Growth, replacing, filling, locking and copying end in a value in every session. Loading may fault where
the layer needs an array of another width than it gets.
-/

namespace VoxelStore

/-! ## Values of one layer -/

namespace Layer

variable {background value : BlockState}

theorem get_contents (l : Layer) (i : Fin sectionBlocks) :
    (l.contents background).get i = l.get background i := by
  cases l with
  | present blocks => rfl
  | empty spare => exact Vector.getElem_replicate i.isLt
  | uniform value spare => exact Vector.getElem_replicate i.isLt

theorem contents_filled (spare : Option SectionArray) :
    (filled background value spare).contents background = Vector.replicate sectionBlocks value := by
  unfold filled
  split
  · next h => rw [h]; rfl
  · rfl

theorem contents_cleared (l : Layer) :
    l.cleared.contents background = Vector.replicate sectionBlocks background := rfl

theorem contents_withoutSpare (l : Layer) : l.withoutSpare.contents background = l.contents background := by
  cases l <;> rfl

theorem refill_eq_ok {spare : Option SectionArray} {b : SectionArray} {s t : Session}
    (h : refill value spare s = .ok b t) : b.cells = Vector.replicate sectionBlocks value := by
  cases spare with
  | some a => exact (SectionArray.setAll_eq_ok (Run.lift_eq_ok.1 h).1).2
  | none => exact SectionArray.filled_eq_ok h

/-- The array made for a layer holds the values that the layer stood for. -/
theorem materialize_eq_ok {l : Layer} {b : SectionArray} {s t : Session}
    (h : l.materialize background s = .ok b t) : b.cells = l.contents background := by
  cases l with
  | empty spare => exact refill_eq_ok h
  | uniform value spare => exact refill_eq_ok h
  | present blocks =>
    obtain ⟨rfl, -⟩ := Run.pure_eq_ok.1 h
    rfl

end Layer

theorem Layer.contents_trimmed {background : BlockState} {l x : Layer} (h : l.trimmed? background = some x) :
    x.contents background = l.contents background := by
  cases l with
  | present blocks =>
    obtain ⟨v, hv, rfl⟩ := Option.map_eq_some_iff.1 h
    exact (contents_filled _).trans (SectionArray.cells_of_uniform hv).symm
  | empty spare => cases h
  | uniform value spare => cases h

namespace Column

variable {c c₁ c' : Column} {layer : Int} {s t : Session}

/-! ## The three kinds of effect -/

/-- `c'` is `c` with a range that contains `layer` too. -/
structure Extends (layer : Int) (c c' : Column) : Prop where
  bottom : c'.bottom = min c.bottom layer
  top : c'.top = max c.top layer
  background : c'.background = c.background
  layer : ∀ k, c'.layer k = c.layer k

/-- `c'` is `c` with a range that contains `layer` too, where this layer has become `x`. -/
structure Writes (layer : Int) (x : Layer) (c c' : Column) : Prop where
  bottom : c'.bottom = min c.bottom layer
  top : c'.top = max c.top layer
  background : c'.background = c.background
  layer : ∀ k, c'.layer k = if k = layer then x else c.layer k

/-- `c'` is `c` with `f` applied to every layer. -/
structure Maps (f : Layer → Layer) (c c' : Column) : Prop where
  bottom : c'.bottom = c.bottom
  top : c'.top = c.top
  background : c'.background = c.background
  layer : ∀ k, c'.layer k = f (c.layer k)

/-- A layer that is not empty, or has a spare, lies in the range. -/
theorem mem_of_layer {l : Int} (h : c.layer l ≠ .empty none) : c.bottom ≤ l ∧ l ≤ c.top := by
  by_cases hmem : c.bottom ≤ l ∧ l ≤ c.top
  · exact hmem
  · exact absurd (layer_of_not_mem hmem) h

theorem extends_of_mem (h : c.bottom ≤ layer ∧ layer ≤ c.top) : Extends layer c c :=
  ⟨by omega, by omega, rfl, fun _ => rfl⟩

theorem Extends.mem (h : Extends layer c c') : c'.bottom ≤ layer ∧ layer ≤ c'.top := by
  have := h.bottom
  have := h.top
  omega

theorem top_putLayer (c : Column) (k : Int) (x : Layer) : (c.putLayer k x).top = c.top := by
  unfold putLayer top
  split <;> simp

theorem bottom_putLayer (c : Column) (k : Int) (x : Layer) : (c.putLayer k x).bottom = c.bottom := by
  unfold putLayer
  split <;> rfl

theorem background_putLayer (c : Column) (k : Int) (x : Layer) :
    (c.putLayer k x).background = c.background := by
  unfold putLayer
  split <;> rfl

/-- Writing a layer of the widened range. -/
theorem Extends.put (h : Extends layer c c₁) (x : Layer) : Writes layer x c (c₁.putLayer layer x) where
  bottom := (bottom_putLayer ..).trans h.bottom
  top := (top_putLayer ..).trans h.top
  background := (background_putLayer ..).trans h.background
  layer k := by rw [layer_putLayer c₁ h.mem, h.layer k]

/-- The second of two writes to one layer is the one that stays. -/
theorem Writes.put {y : Layer} (h : Writes layer y c c₁) (x : Layer) :
    Writes layer x c (c₁.putLayer layer x) where
  bottom := (bottom_putLayer ..).trans h.bottom
  top := (top_putLayer ..).trans h.top
  background := (background_putLayer ..).trans h.background
  layer k := by
    have hb := h.bottom
    have ht := h.top
    rw [layer_putLayer c₁ ⟨by omega, by omega⟩, h.layer k]
    split <;> rfl

/-- Changing all slots alike changes all layers alike, those outside of the range included. -/
theorem maps_of_slots {f : Layer → Layer} (hf : f (.empty none) = .empty none) (hb : c'.bottom = c.bottom)
    (hg : c'.background = c.background) (hs : c'.slots.size = c.slots.size)
    (hl : ∀ i : Nat, (c'.slots[i]?).map Slot.layer = ((c.slots[i]?).map Slot.layer).map f) : Maps f c c' where
  bottom := hb
  top := by simp only [top, hb, hs]
  background := hg
  layer k := by
    have htop : c'.top = c.top := by simp only [top, hb, hs]
    by_cases hk : c.bottom ≤ k ∧ k ≤ c.top
    · rw [layer_of_mem hk, layer_of_mem (by rwa [hb, htop]), hb, hl]
      cases (c.slots[(k - c.bottom).toNat]?).map Slot.layer with
      | none => exact hf.symm
      | some l => rfl
    · -- there is no slot out here, and `f` leaves the empty layer as it is
      rw [layer_of_not_mem hk, layer_of_not_mem (by rwa [hb, htop]), hf]

/-! ## Growth -/

theorem mem_of_growth (h : c.growth? layer = none) : c.bottom ≤ layer ∧ layer ≤ c.top := by
  unfold growth? at h
  split at h
  · cases h
  · split at h
    · cases h
    · omega

theorem extends_grow {g : Extension} (h : c.growth? layer = some g) (n : Nat) :
    Extends layer c (c.grow g n).1 :=
  ⟨bottom_grow h n, top_grow h n, rfl, layer_grow h n⟩

/-- Growth always succeeds, says how it went, and leaves the width of the session alone. -/
theorem extendTo_ok (c : Column) (layer : Int) (s : Session) :
    ∃ c' t, c.extendTo layer s = .ok (c.growth? layer, c') t ∧ Extends layer c c' ∧ t.width = s.width := by
  unfold extendTo
  cases h : c.growth? layer with
  | none => exact ⟨c, s, rfl, extends_of_mem (mem_of_growth h), rfl⟩
  | some e => exact ⟨(c.grow e s.nextLock).1, _, rfl, extends_grow h s.nextLock, rfl⟩

theorem reach_ok (c : Column) (layer : Int) (s : Session) :
    ∃ c' t, c.reach layer s = .ok c' t ∧ Extends layer c c' ∧ t.width = s.width := by
  obtain ⟨c', t, h, he, hw⟩ := extendTo_ok c layer s
  exact ⟨c', t, Run.map_of_ok h Prod.snd, he, hw⟩

theorem reach_eq_ok (h : c.reach layer s = .ok c' t) : Extends layer c c' ∧ t.width = s.width := by
  obtain ⟨c₁, t₁, h₁, he, hw⟩ := reach_ok c layer s
  rw [h] at h₁
  cases h₁
  exact ⟨he, hw⟩

/-- A column that was made has the range that was asked for, and every layer of it is empty. -/
theorem create_eq_ok {bottom top : Int} {background : BlockState}
    (h : create bottom top background s = .ok c t) :
    c.bottom = bottom ∧ c.top = top ∧ c.background = background ∧ (∀ k, c.layer k = .empty none) ∧
      t.width = s.width := by
  unfold create at h
  split at h
  · cases h
  · next hrange =>
    cases h
    refine ⟨rfl, ?_, rfl, fun k => ?_, rfl⟩
    · simp only [Column.top, List.size_toArray, Extension.length_make]
      omega
    · unfold layer slot?
      cases offset? _ k with
      | none => rfl
      | some i =>
        simp only [Option.bind_some, List.getElem?_toArray]
        cases hi : (Extension.make Slot.fresh (top - bottom + 1).toNat s.nextLock).1[i]? with
        | none => rfl
        | some slot => exact Slot.layer_of_mem_make (List.mem_of_getElem? hi)

theorem create_ok {bottom top : Int} (background : BlockState) (h : bottom ≤ top) (s : Session) :
    ∃ c t, create bottom top background s = .ok c t := by
  unfold create
  rw [if_neg (by omega)]
  exact ⟨_, _, rfl⟩

theorem le_of_create {bottom top : Int} {background : BlockState}
    (h : create bottom top background s = .ok c t) : bottom ≤ top := by
  unfold create at h
  split at h
  · cases h
  · next hrange => exact Int.not_lt.1 hrange

/-! ## Writes to one layer -/

/-- The array that is given back is the one that the layer had. -/
theorem replaceBlocks_ok (c : Column) (layer : Int) (data : Option SectionArray) (s : Session) :
    ∃ c' t, c.replaceBlocks layer data s = .ok (c.peek layer, c') t ∧
      Writes layer (data.elim (.empty none) .present) c c' ∧ t.width = s.width := by
  obtain ⟨c₁, t, h, he, hw⟩ := reach_ok c layer s
  have hpeek : c₁.peek layer = c.peek layer := by rw [peek, he.layer, ← peek]
  exact ⟨_, t, (Run.bind_of_ok h _).trans (by rw [hpeek]; rfl), he.put _, hw⟩

theorem setBlocks_ok (c : Column) (layer : Int) (data : Option SectionArray) (s : Session) :
    ∃ c' t, c.setBlocks layer data s = .ok c' t ∧
      Writes layer (data.elim (.empty none) .present) c c' ∧ t.width = s.width := by
  obtain ⟨c', t, h, hput, hw⟩ := replaceBlocks_ok c layer data s
  exact ⟨c', t, Run.map_of_ok h Prod.snd, hput, hw⟩

theorem fillSection_ok (c : Column) (layer : Int) (value : BlockState) (s : Session) :
    ∃ c' t, c.fillSection layer value s = .ok c' t ∧
      Writes layer (.filled c.background value (c.layer layer).array?) c c' ∧ t.width = s.width := by
  obtain ⟨c₁, t, h, he, hw⟩ := reach_ok c layer s
  refine ⟨_, t, (Run.bind_of_ok h _).trans rfl, ?_, hw⟩
  rw [← he.layer layer, ← he.background]
  exact he.put _

/-- The loaded array stands in the column from then on. -/
theorem load_eq_ok {b : SectionArray} (h : c.load layer s = .ok (b, c') t) :
    Writes layer (.present b) c c' ∧ ∃ s₁, s₁.width = s.width ∧
      (c.layer layer).materialize c.background s₁ = .ok b t := by
  obtain ⟨c₁, s₁, hreach, h⟩ := Run.bind_eq_ok.1 h
  obtain ⟨he, hw⟩ := reach_eq_ok hreach
  obtain ⟨b', s₂, hload, h⟩ := Run.bind_eq_ok.1 h
  cases h
  rw [he.layer, he.background] at hload
  exact ⟨he.put _, s₁, hw, hload⟩

theorem load_of_materialize (c : Column) (layer : Int) (s : Session)
    (h : ∀ s₁ : Session, s₁.width = s.width → ∃ b t, (c.layer layer).materialize c.background s₁ = .ok b t) :
    ∃ b c' t, c.load layer s = .ok (b, c') t := by
  obtain ⟨c₁, s₁, hreach, he, hw⟩ := reach_ok c layer s
  obtain ⟨b, t, hb⟩ := h s₁ hw
  rw [← he.layer, ← he.background] at hb
  exact ⟨b, _, t, (Run.bind_of_ok hreach _).trans ((Run.bind_of_ok hb _).trans rfl)⟩

theorem modifyLayer_eq_ok {write : SectionArray → Except Fault SectionArray}
    (h : c.modifyLayer layer write s = .ok c' t) :
    ∃ a b s₁, Writes layer (.present b) c c' ∧ s₁.width = s.width ∧
      (c.layer layer).materialize c.background s₁ = .ok a t ∧ write a = .ok b := by
  obtain ⟨⟨a, c₁⟩, s₂, hload, h⟩ := Run.bind_eq_ok.1 h
  obtain ⟨b, s₃, hlift, h⟩ := Run.bind_eq_ok.1 h
  obtain ⟨hwrite, rfl⟩ := Run.lift_eq_ok.1 hlift
  cases h
  obtain ⟨hput, s₁, hw, hmat⟩ := load_eq_ok hload
  exact ⟨a, b, s₁, hput.put _, hw, hmat, hwrite⟩

/-- A layer that already holds the value everywhere is left alone; any other is loaded and written. -/
theorem setBlock_eq_ok {p : Position} {value : BlockState} (h : c.setBlock p value s = .ok c' t) :
    (c.state p.layer = .uniform value ∧ c' = c ∧ t = s) ∨
      c.modifyLayer p.layer (·.set p.blockIndex value) s = .ok c' t := by
  unfold setBlock at h
  split at h
  · next hstate =>
    obtain ⟨rfl, rfl⟩ := Run.pure_eq_ok.1 h
    exact .inl ⟨hstate, rfl, rfl⟩
  · exact .inr h

theorem sectionLock_ok (c : Column) (layer : Int) (s : Session) :
    ∃ lock c' t, c.sectionLock layer s = .ok (lock, c') t ∧ Extends layer c c' ∧ t.width = s.width := by
  obtain ⟨c₁, t, hreach, he, hw⟩ := reach_ok c layer s
  have hmem := he.mem
  have hi : (layer - c₁.bottom).toNat < c₁.slots.size := by unfold top at hmem; omega
  have hslot : c₁.slot? layer = some c₁.slots[(layer - c₁.bottom).toNat] := by
    simp [slot?, offset?_eq_some hmem, hi]
  exact ⟨_, c₁, t, (Run.bind_of_ok hreach _).trans (by rw [hslot]; rfl), he, hw⟩

/-! ## Operations on all layers -/

/-- Trimming one layer changes none of the others, and no value of any. -/
theorem trim_cases (c : Column) (layer : Int) :
    ((c.layer layer).trimmed? c.background = none ∧ c.trim layer = (false, c)) ∨
      ∃ x, (c.layer layer).trimmed? c.background = some x ∧ (c.trim layer).1 = true ∧
        (c.bottom ≤ layer ∧ layer ≤ c.top) ∧ Writes layer x c (c.trim layer).2 := by
  unfold trim
  cases h : (c.layer layer).trimmed? c.background with
  | none => exact .inl ⟨rfl, rfl⟩
  | some x =>
    -- a layer outside of the range has no array to lose
    have hmem := mem_of_layer (c := c) (l := layer) fun hl => by rw [hl] at h; cases h
    exact .inr ⟨x, rfl, rfl, hmem, (extends_of_mem hmem).put x⟩

theorem maps_trimAll (c : Column) :
    Maps (fun l => (l.trimmed? c.background).getD l) c c.trimAll.2 :=
  maps_of_slots rfl rfl rfl (by simp [trimAll]) fun i => by
    simp [trimAll, Option.map_map, Function.comp_def]

theorem maps_reset (c : Column) : Maps Layer.cleared c c.reset :=
  maps_of_slots rfl rfl rfl (by simp [reset]) fun i => by simp [reset, Option.map_map, Function.comp_def]

theorem copy_ok (c : Column) (s : Session) :
    ∃ c' t, c.copy s = .ok c' t ∧ Maps Layer.withoutSpare c c' ∧ t.width = s.width :=
  ⟨_, _, rfl, maps_of_slots rfl rfl rfl (by simp) fun i => by
    simp [Slot.copy, Option.map_map, Function.comp_def], rfl⟩

end Column

end VoxelStore
