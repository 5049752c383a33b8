import Mathlib
import VoxelStore.Proofs.Column.BlockMap
import VoxelStore.Proofs.Column.Changes
/-!
# Trimming is a normal form

A layer can be kept in several ways: the background as an array, one value as an array, either with a spare.
After trimming there is one way left for each contents, `SectionState.ofContents`. That rests on an invariant
that trimming itself does not bring about: no history marks a layer as uniformly the background
(`History.state_ne_background`). Columns with the same contents are therefore alike once they are trimmed,
whatever led to them (`history_trimAll`).
-/

namespace VoxelStore

/-! ## One state for each contents -/

namespace SectionState

variable {background v : BlockState} {values : Vector BlockState sectionBlocks}

/-- The state in which a trimmed layer keeps its contents. -/
def ofContents (background : BlockState) (values : Vector BlockState sectionBlocks) : SectionState :=
  if values = Vector.replicate sectionBlocks background then .empty
  else if values = Vector.replicate sectionBlocks (values.get 0) then .uniform (values.get 0)
  else .present

theorem eq_first_of_replicate (h : values = Vector.replicate sectionBlocks v) : values.get 0 = v := by
  simp [h, Vector.get_eq_getElem]

theorem ofContents_eq_empty :
    ofContents background values = .empty ↔ values = Vector.replicate sectionBlocks background := by
  unfold ofContents
  split
  · next h => simp [h]
  · next h =>
    split
    · simp [h]
    · simp [h]

theorem ofContents_eq_uniform :
    ofContents background values = .uniform v ↔
      v ≠ background ∧ values = Vector.replicate sectionBlocks v := by
  unfold ofContents
  split
  · next h =>
    have hfirst := eq_first_of_replicate h
    refine ⟨nofun, ?_⟩
    rintro ⟨hne, hv⟩
    exact absurd ((eq_first_of_replicate hv).symm.trans hfirst) hne
  · next h =>
    split
    · next hfirst =>
      constructor
      · intro hv
        cases hv
        refine ⟨?_, hfirst⟩
        intro hback
        rw [hback] at hfirst
        exact h hfirst
      · rintro ⟨-, hv⟩
        rw [eq_first_of_replicate hv]
    · next hfirst =>
      refine ⟨nofun, ?_⟩
      rintro ⟨-, hv⟩
      rw [eq_first_of_replicate hv] at hfirst
      exact absurd hv hfirst

/-- Values are all the same, or two of them differ. -/
theorem forall_ne_replicate_iff :
    (∀ v, values ≠ Vector.replicate sectionBlocks v) ↔
      ∃ i j : Fin sectionBlocks, values.get i ≠ values.get j := by
  constructor
  · intro h
    by_contra hsame
    push Not at hsame
    apply h values[0]
    apply Vector.ext
    intro i hi
    rw [Vector.getElem_replicate]
    exact hsame ⟨i, hi⟩ 0
  · rintro ⟨i, j, hne⟩ v rfl
    apply hne
    simp [Vector.get_eq_getElem]

theorem ofContents_eq_present :
    ofContents background values = .present ↔
      ∃ i j : Fin sectionBlocks, values.get i ≠ values.get j := by
  rw [← forall_ne_replicate_iff]
  constructor
  · intro h v hv
    by_cases hback : v = background
    · subst hback
      rw [ofContents_eq_empty.2 hv] at h
      cases h
    · rw [ofContents_eq_uniform.2 ⟨hback, hv⟩] at h
      cases h
  · intro h
    rw [ofContents, if_neg (h _), if_neg (h _)]

end SectionState

namespace Layer

variable {background : BlockState} {l : Layer}

/-- The layer as trimming leaves it. -/
def trimmed (background : BlockState) (l : Layer) : Layer := (l.trimmed? background).getD l

theorem contents_trim (background : BlockState) (l : Layer) :
    (l.trimmed background).contents background = l.contents background := by
  unfold trimmed
  cases h : l.trimmed? background with
  | none => rfl
  | some x => exact contents_trimmed h

/-- A layer loses its array exactly if it has one, and all values in it are the same. -/
theorem isSome_trimmed?_iff :
    (l.trimmed? background).isSome ↔
      l.state = .present ∧ ∃ v, l.contents background = Vector.replicate sectionBlocks v := by
  cases l with
  | empty spare => simp [trimmed?, state]
  | uniform value spare => simp [trimmed?, state]
  | present blocks =>
    simp [trimmed?, state, contents, Option.isSome_iff_exists, SectionArray.uniform?_eq_some_iff]

/-- A trimmed layer is in the state that its contents ask for, unless it was marked as uniformly the
background before. -/
theorem state_trimmed (h : l.state ≠ .uniform background) :
    (l.trimmed background).state = .ofContents background (l.contents background) := by
  cases l with
  | empty spare => exact (SectionState.ofContents_eq_empty.2 rfl).symm
  | uniform value spare =>
    have hne : value ≠ background := fun hv => h (congrArg SectionState.uniform hv)
    exact (SectionState.ofContents_eq_uniform.2 ⟨hne, rfl⟩).symm
  | present blocks =>
    cases hv : blocks.uniform? with
    | none =>
      have hpresent : (trimmed background (present blocks)).state = .present := by
        simp [trimmed, trimmed?, hv, state]
      rw [hpresent, eq_comm, SectionState.ofContents_eq_present, ← SectionState.forall_ne_replicate_iff]
      intro v hcells
      rw [SectionArray.uniform?_eq_some_iff.2 hcells] at hv
      cases hv
    | some v =>
      have hcells := SectionArray.cells_of_uniform hv
      have hfilled : trimmed background (present blocks) = filled background v (some blocks) := by
        simp [trimmed, trimmed?, hv]
      rw [hfilled, filled]
      split
      · next hback =>
        rw [hback] at hcells
        exact (SectionState.ofContents_eq_empty.2 hcells).symm
      · next hback => exact (SectionState.ofContents_eq_uniform.2 ⟨hback, hcells⟩).symm

/-- There is nothing more to trim in a trimmed layer. -/
theorem trimmed?_trimmed (background : BlockState) (l : Layer) :
    (l.trimmed background).trimmed? background = none := by
  unfold trimmed
  cases h : l.trimmed? background with
  | none => exact h
  | some x =>
    cases l with
    | present blocks =>
      obtain ⟨v, -, rfl⟩ := Option.map_eq_some_iff.1 h
      unfold filled
      split
      · rfl
      · rfl
    | empty spare => cases h
    | uniform value spare => cases h

end Layer

namespace Column

variable {c : Column} {bottom top : Int} {background : BlockState} {ops : List Op}

/-! ## The invariant -/

/-- No layer is marked as uniformly the background. -/
theorem History.state_ne_background {ops : List Op} (h : History bottom top background ops c) (k : Int) :
    c.state k ≠ .uniform background := by
  refine (h.each (Q := fun l => l.state ≠ .uniform background) nofun ?_).2 k
  intro placed t l l' hl hbecomes
  have hfilled : ∀ v spare, (Layer.filled background v spare).state ≠ .uniform background := by
    intro v spare
    unfold Layer.filled
    split
    · nofun
    · next hv =>
      intro hstate
      cases hstate
      exact hv rfl
  cases hbecomes with
  | kept => exact hl
  | filled v => exact hfilled v _
  | loaded _ => nofun
  | emptied => nofun
  | trimmed hx =>
    cases l with
    | present blocks =>
      obtain ⟨v, -, rfl⟩ := Option.map_eq_some_iff.1 hx
      exact hfilled v _
    | empty spare => cases hx
    | uniform v spare => cases hx
  | cleared => nofun
  | withoutSpare => cases l <;> exact hl

theorem isEmpty_iff (c : Column) : c.isEmpty = true ↔ ∀ k, c.state k = .empty := by
  have hstate : ∀ l : Layer, l.isEmpty = true ↔ l.state = .empty := by
    intro l
    cases l <;> simp [Layer.isEmpty, Layer.state]
  have hslots : c.isEmpty = true ↔ ∀ x ∈ c.slots.toList.map Slot.layer, x.state = .empty := by
    simp [Column.isEmpty, ← Array.all_toList, hstate]
  rw [hslots, map_layer_slots]
  constructor
  · intro h k
    by_cases hmem : c.bottom ≤ k ∧ k ≤ c.top
    · refine h _ (List.mem_map.2 ⟨(k - c.bottom).toNat, List.mem_range.2 ?_, ?_⟩)
      · unfold top at hmem
        omega
      · congr 1
        omega
    · rw [state, layer_of_not_mem hmem]
      rfl
  · intro h x hx
    obtain ⟨i, -, rfl⟩ := List.mem_map.1 hx
    exact h _

/-! ## Trimming every layer -/

/-- The 4096 values that a layer stands for, the background outside of the range. -/
def contents (c : Column) (k : Int) : Vector BlockState sectionBlocks := (c.layer k).contents c.background

/-- All blocks of the layer are the same. -/
def IsConstant (c : Column) (k : Int) : Prop := ∃ v, c.contents k = Vector.replicate sectionBlocks v

instance (c : Column) (k : Int) : Decidable (c.IsConstant k) :=
  decidable_of_iff (c.contents k = Vector.replicate sectionBlocks ((c.contents k).get 0)) (by
    constructor
    · intro h
      exact ⟨_, h⟩
    · rintro ⟨v, hv⟩
      rwa [SectionState.eq_first_of_replicate hv])

theorem getBlock_eq_contents (c : Column) (p : Position) : c.getBlock p = (c.contents p.layer).get p.blockIndex := by
  rw [getBlock, contents, Layer.get_contents]

theorem contents_trimAll (c : Column) (k : Int) : c.trimAll.2.contents k = c.contents k := by
  have hmaps := maps_trimAll c
  rw [contents, hmaps.layer, hmaps.background]
  exact Layer.contents_trim c.background (c.layer k)

theorem state_trimAll (h : History bottom top background ops c) (k : Int) :
    c.trimAll.2.state k = .ofContents background (c.contents k) := by
  have hback := h.background_eq
  have hne := h.state_ne_background k
  subst hback
  rw [state, (maps_trimAll c).layer]
  exact Layer.state_trimmed hne

/-- Trimming all layers counts those that trimming alone would collapse. -/
theorem trimAll_count (c : Column) :
    c.trimAll.1 = ((Finset.Icc c.bottom c.top).filter fun k => c.state k = .present ∧ c.IsConstant k).card := by
  have hslots : c.trimAll.1 =
      (List.range c.slots.size).countP fun i : Nat => ((c.layer (c.bottom + i)).trimmed? c.background).isSome := by
    have hmap := congrArg (List.countP fun l : Layer => (l.trimmed? c.background).isSome) c.map_layer_slots
    rw [List.countP_map, List.countP_map] at hmap
    rw [trimAll, ← Array.countP_toList]
    exact hmap
  have hsize : (c.top + 1 - c.bottom).toNat = c.slots.size := by
    unfold top
    omega
  rw [hslots, Int.Icc_eq_finset_map, hsize, Finset.filter_map, Finset.card_map, List.countP_eq_length_filter]
  have hpred : ∀ i : Nat, (c.state (c.bottom + i) = .present ∧ c.IsConstant (c.bottom + i)) ↔
      ((c.layer (c.bottom + i)).trimmed? c.background).isSome := fun i => Layer.isSome_trimmed?_iff.symm
  show _ = ((List.range c.slots.size).filter fun i : Nat =>
    decide (c.state (c.bottom + i) = .present ∧ c.IsConstant (c.bottom + i))).length
  congr 2
  funext i
  rw [Bool.eq_iff_iff, decide_eq_true_iff, hpred]

/-- A column that was trimmed has nothing more to trim. -/
theorem trimAll_trimAll (c : Column) : c.trimAll.2.trimAll = (0, c.trimAll.2) := by
  have hnone : ∀ x ∈ c.trimAll.2.slots, x.layer.trimmed? c.background = none := by
    intro x hx
    obtain ⟨y, -, rfl⟩ := Array.mem_map.1 hx
    exact Layer.trimmed?_trimmed c.background y.layer
  have hcount : (c.trimAll.2.slots.countP fun x => (x.layer.trimmed? c.background).isSome) = 0 := by
    rw [Array.countP_eq_zero]
    intro x hx
    simp [hnone x hx]
  have hslots : (c.trimAll.2.slots.map fun x =>
      { x with layer := (x.layer.trimmed? c.background).getD x.layer }) = c.trimAll.2.slots := by
    refine (Array.map_congr_left ?_).trans (Array.map_id _)
    intro x hx
    rw [hnone x hx]
    rfl
  exact Prod.ext hcount (congrArg (fun slots => { c with slots }) hslots)

/-- Trimming empties the layers that hold the background everywhere. -/
theorem isEmpty_trimAll_iff (h : History bottom top background ops c) :
    c.trimAll.2.isEmpty = true ↔ ∀ k, c.contents k = Vector.replicate sectionBlocks background := by
  rw [isEmpty_iff]
  refine forall_congr' fun k => ?_
  rw [state_trimAll h, SectionState.ofContents_eq_empty]

/-- Trimming is a normal form. It counts the layers that lose an array of one value, and changes no block of any
layer. After it a layer is empty, uniform or present as its blocks are all the background, all one other value,
or not all the same; a second trimming finds nothing to do; and the column is empty exactly if all of its blocks
are the background. Hence columns over one background with the same blocks have the same states once they are
trimmed, whatever their ranges and their histories. -/
theorem history_trimAll (h : History bottom top background ops c) :
    c.trimAll.1 = ((Finset.Icc c.bottom c.top).filter fun k => c.state k = .present ∧ c.IsConstant k).card ∧
      (∀ k, c.trimAll.2.contents k = c.contents k) ∧ (∀ p, c.trimAll.2.getBlock p = c.getBlock p) ∧
      (∀ k,
        (c.trimAll.2.state k = .empty ↔ c.contents k = Vector.replicate sectionBlocks background) ∧
        (∀ v, c.trimAll.2.state k = .uniform v ↔
          v ≠ background ∧ c.contents k = Vector.replicate sectionBlocks v) ∧
        (c.trimAll.2.state k = .present ↔
          ∃ i j : Fin sectionBlocks, (c.contents k).get i ≠ (c.contents k).get j)) ∧
      c.trimAll.2.trimAll = (0, c.trimAll.2) ∧
      (c.trimAll.2.isEmpty = true ↔ ∀ k, c.contents k = Vector.replicate sectionBlocks background) ∧
      ∀ bottom' top' ops' c', History bottom' top' background ops' c' →
        (∀ k, c'.contents k = c.contents k) → ∀ k, c'.trimAll.2.state k = c.trimAll.2.state k := by
  refine ⟨trimAll_count c, contents_trimAll c, fun p => ?_, fun k => ?_, trimAll_trimAll c,
    isEmpty_trimAll_iff h, ?_⟩
  · rw [getBlock_eq_contents, getBlock_eq_contents, contents_trimAll]
  · rw [state_trimAll h]
    exact ⟨SectionState.ofContents_eq_empty, fun v => SectionState.ofContents_eq_uniform,
      SectionState.ofContents_eq_present⟩
  · intro bottom' top' ops' c' h' hsame k
    rw [state_trimAll h, state_trimAll h', hsame]

/-- One column was written array by array, the other was filled and grew in both directions. Layer 2 of the
first was written and undone. -/
theorem history_trimAll_twoHistories :
    ∃ c c', History 0 3 .reserved [.write 1 [.setAll 7], .write 2 [.setAll 7, .setAll .reserved],
        .setBlock ⟨0, 0, 0⟩ 5] c ∧
      History (-2) 1 .reserved [.fillSection 1 7, .write 0 [.set 0 5], .extendTo 9] c' ∧
      c.trimAll.2.trimAll.1 = 0 ∧ c.trimAll.2.state 0 = .present ∧ c.trimAll.2.state 1 = .uniform 7 ∧
      c.trimAll.2.state 2 = .empty ∧ ∀ k, c'.trimAll.2.state k = c.trimAll.2.state k := by
  obtain ⟨c, hc⟩ := exists_history (n := 16) (show (0 : Int) ≤ 3 by decide)
    (show BlockState.reserved < 16 by decide)
    [.write 1 [.setAll 7], .write 2 [.setAll 7, .setAll .reserved], .setBlock ⟨0, 0, 0⟩ 5]
    (by simp [Op.Legal, ArrayWrite.Legal]; decide)
  obtain ⟨c', hc'⟩ := exists_history (n := 16) (show (-2 : Int) ≤ 1 by decide)
    (show BlockState.reserved < 16 by decide) [.fillSection 1 7, .write 0 [.set 0 5], .extendTo 9]
    (by simp [Op.Legal, ArrayWrite.Legal])
  have hblocks := (refines_of_history hc).blocks
  have hblocks' := (refines_of_history hc').blocks
  have hsame : ∀ k, c'.contents k = c.contents k := by
    intro k
    rw [contents, contents, hblocks, hblocks']
    show (if k = 0 then _ else if k = 1 then _ else _) =
      if k = 0 then _ else if k = 2 then _ else if k = 1 then _ else _
    by_cases h0 : k = 0
    · rw [if_pos h0, if_pos h0]
      rfl
    · rw [if_neg h0, if_neg h0]
      by_cases h1 : k = 1
      · rw [if_pos h1, h1]
        rfl
      · rw [if_neg h1, if_neg h1]
        split
        · rfl
        · rfl
  obtain ⟨-, -, -, hstate, htwice, -, hcongr⟩ := history_trimAll hc
  refine ⟨c, c', hc, hc', by rw [htwice], ?_, ?_, ?_, hcongr _ _ _ _ hc' hsame⟩
  · refine (hstate 0).2.2.2 ⟨0, 1, ?_⟩
    rw [contents, hblocks]
    decide +kernel
  · exact ((hstate 1).2.1 7).2 ⟨by decide, hblocks 1⟩
  · exact (hstate 2).1.2 (hblocks 2)

end Column

end VoxelStore
