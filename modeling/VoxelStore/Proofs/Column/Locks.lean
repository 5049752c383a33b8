import VoxelStore.Proofs.Column.Growth
/-!
# The locks of a column

Every layer of a range has a lock, which is the next one of the session when the layer is added. `Issues` says what
may happen to a table of locks: what has a lock keeps it, and what gets one gets a new one, that nothing else has.
Every operation on a column but copying does that to the locks of its layers (`Op.run_issues`). A new column and a
copy have new locks only (`create_issues`, `copy_issues`).
-/

namespace VoxelStore

/-! ## Tables of locks -/

section

variable {κ : Type} {f g h : κ → Option SectionLock} {n m p : Nat}

/-- `g` has the locks of `f` in their places, and in other places new ones, in each a different one. The number of
the next lock was `n` before and is `m` after. -/
structure Issues (n m : Nat) (f g : κ → Option SectionLock) : Prop where
  supply : n ≤ m
  kept : ∀ k l, f k = some l → g k = some l
  new : ∀ k l, f k = none → g k = some l → n ≤ l.id ∧ l.id < m
  distinct : ∀ k k' l, f k = none → f k' = none → g k = some l → g k' = some l → k = k'

/-- No lock stands in two places, and all of them were issued before the lock of number `n`. -/
structure Distinct (n : Nat) (f : κ → Option SectionLock) : Prop where
  below : ∀ k l, f k = some l → l.id < n
  injective : ∀ k k' l, f k = some l → f k' = some l → k = k'

theorem Issues.of_eq (hf : g = f) (hn : m = n) : Issues n m f g := by
  subst hf hn
  exact ⟨Nat.le_refl _, fun _ _ hk => hk, fun k l hnone hsome => by simp [hnone] at hsome,
    fun k k' l hnone _ hsome => by simp [hnone] at hsome⟩

theorem Issues.trans (h₁ : Issues n m f g) (h₂ : Issues m p g h) : Issues n p f h where
  supply := Nat.le_trans h₁.supply h₂.supply
  kept k l hk := h₂.kept k l (h₁.kept k l hk)
  new k l hnone hk := by
    have hm := h₁.supply
    have hp := h₂.supply
    cases hg : g k with
    | some l' =>
      obtain rfl : l' = l := by simpa [h₂.kept k l' hg] using hk
      have := h₁.new k l' hnone hg
      omega
    | none =>
      have := h₂.new k l hg hk
      omega
  distinct k k' l hnone hnone' hk hk' := by
    -- a lock of the first step has a smaller number than any of the second
    cases hg : g k with
    | some l₁ =>
      obtain rfl : l₁ = l := by simpa [h₂.kept k l₁ hg] using hk
      have hsmall := h₁.new k l₁ hnone hg
      cases hg' : g k' with
      | some l₂ =>
        obtain rfl : l₂ = l₁ := by simpa [h₂.kept k' l₂ hg'] using hk'
        exact h₁.distinct k k' l₂ hnone hnone' hg hg'
      | none =>
        have hlarge := h₂.new k' l₁ hg' hk'
        omega
    | none =>
      have hlarge := h₂.new k l hg hk
      cases hg' : g k' with
      | some l₂ =>
        obtain rfl : l₂ = l := by simpa [h₂.kept k' l₂ hg'] using hk'
        have hsmall := h₁.new k' l₂ hnone' hg'
        omega
      | none => exact h₂.distinct k k' l hg hg' hk hk'

theorem Distinct.issue (hf : Distinct n f) (h : Issues n m f g) : Distinct m g where
  below k l hk := by
    cases hfk : f k with
    | some l' =>
      obtain rfl : l' = l := by simpa [h.kept k l' hfk] using hk
      exact Nat.lt_of_lt_of_le (hf.below k l' hfk) h.supply
    | none => exact (h.new k l hfk hk).2
  injective k k' l hk hk' := by
    cases hfk : f k with
    | some l₁ =>
      obtain rfl : l₁ = l := by simpa [h.kept k l₁ hfk] using hk
      have hsmall := hf.below k l₁ hfk
      cases hfk' : f k' with
      | some l₂ =>
        obtain rfl : l₂ = l₁ := by simpa [h.kept k' l₂ hfk'] using hk'
        exact hf.injective k k' l₂ hfk hfk'
      | none =>
        have hlarge := h.new k' l₁ hfk' hk'
        omega
    | none =>
      have hlarge := h.new k l hfk hk
      cases hfk' : f k' with
      | some l₂ =>
        obtain rfl : l₂ = l := by simpa [h.kept k' l₂ hfk'] using hk'
        have hsmall := hf.below k' l₂ hfk'
        omega
      | none => exact h.distinct k k' l hfk hfk' hk hk'

end

namespace Column

variable {c c' : Column} {layer : Int} {s t : Session}

/-- The lock of a layer of the range. -/
def lock? (c : Column) (layer : Int) : Option SectionLock := (c.slot? layer).map Slot.lock

/-! ## What leaves the locks alone -/

/-- Writes to layers do not touch locks. -/
theorem lock?_of_slots (hb : c'.bottom = c.bottom) (hs : c'.slots.map Slot.lock = c.slots.map Slot.lock) :
    c'.lock? = c.lock? := by
  have hsize : c'.slots.size = c.slots.size := by simpa using congrArg Array.size hs
  have htop : c'.top = c.top := by simp only [top, hb, hsize]
  funext k
  have hoff : c'.offset? k = c.offset? k := by simp only [offset?, hb, htop]
  unfold lock? slot?
  rw [hoff]
  cases c.offset? k with
  | none => rfl
  | some i =>
    have hi := congrArg (·[i]?) hs
    simpa using hi

theorem lock?_putLayer (c : Column) (k : Int) (x : Layer) : (c.putLayer k x).lock? = c.lock? := by
  apply lock?_of_slots (bottom_putLayer ..)
  unfold putLayer
  split
  · apply Array.ext
    · simp
    · intro i hi _
      simp only [Array.size_map, Array.size_modify] at hi
      simp only [Array.getElem_map, Array.getElem_modify]
      split <;> rfl
  · rfl

theorem lock?_trim (c : Column) (layer : Int) : (c.trim layer).2.lock? = c.lock? := by
  unfold trim
  split
  · exact lock?_putLayer ..
  · rfl

theorem lock?_trimAll (c : Column) : c.trimAll.2.lock? = c.lock? :=
  lock?_of_slots rfl (by simp [trimAll, Function.comp_def])

theorem lock?_reset (c : Column) : c.reset.lock? = c.lock? :=
  lock?_of_slots rfl (by simp [reset, Function.comp_def])

/-- Making an array takes no lock from the session. -/
theorem nextLock_of_materialize {l : Layer} {background : BlockState} {a : SectionArray}
    (h : l.materialize background s = .ok a t) : t.nextLock = s.nextLock := by
  have hcurrent : ∀ {w : ArrayWidth} {s t : Session}, ArrayWidth.current s = .ok w t → t.nextLock = s.nextLock := by
    intro w s t h
    rw [ArrayWidth.current, Run.bind_of_ok Run.get_eq] at h
    cases hw : s.width with
    | some w' =>
      rw [hw] at h
      cases h
      rfl
    | none =>
      rw [hw] at h
      cases h
      rfl
  have hrefill : ∀ {value : BlockState} {spare : Option SectionArray},
      Layer.refill value spare s = .ok a t → t.nextLock = s.nextLock := by
    intro value spare h
    cases spare with
    | some b =>
      obtain ⟨-, rfl⟩ := Run.lift_eq_ok.1 h
      rfl
    | none =>
      obtain ⟨b, s₁, hcreate, h⟩ := Run.bind_eq_ok.1 h
      obtain ⟨-, rfl⟩ := Run.lift_eq_ok.1 h
      obtain ⟨w, hw, -⟩ := Run.map_eq_ok.1 hcreate
      exact hcurrent hw
  cases l with
  | empty spare => exact hrefill h
  | uniform value spare => exact hrefill h
  | present blocks =>
    obtain ⟨-, rfl⟩ := Run.pure_eq_ok.1 h
    rfl

/-! ## What issues locks -/

theorem make_fresh (n k : Nat) :
    Extension.make Slot.fresh n k = ((List.range n).map fun i => ⟨.empty none, ⟨k + i⟩⟩, k + n) := by
  induction n generalizing k with
  | zero => rfl
  | succ n ih =>
    simp only [Extension.make, Slot.fresh, ih, List.range_succ_eq_map]
    simp [Nat.add_assoc, Nat.add_comm 1, Function.comp_def]

/-- Growth gives every added layer the next lock, and leaves the locks of all others at their layers. -/
theorem issues_follow (he : Extends layer c c') {n m : Nat}
    (hgrow : Extension.follow Slot.fresh (c.growth? layer) c.slots n = (c'.slots, m)) :
    Issues n m c.lock? c'.lock? := by
  have hin := he.inStep rfl Slot.fresh n
  rw [hgrow] at hin
  generalize gained c.bottom c.top layer = added at hin
  have hm := hin.supply
  have hslots := hin.made
  simp only [make_fresh] at hm hslots
  -- the layers of the range keep their slots, and the added ones have new slots with numbers in a row
  have hkept : ∀ k, c.bottom ≤ k ∧ k ≤ c.top → c'.lock? k = c.lock? k := by
    intro k hk
    exact congrArg (Option.map Slot.lock) (hin.kept k hk)
  have hadded : ∀ k l, c.lock? k = none → c'.lock? k = some l →
      ∃ i, ∃ hi : i < added.length, added[i] = k ∧ l.id = n + i := by
    intro k l hnone hsome
    have hmem : k ∈ added := by
      rw [hin.mem_added]
      constructor
      · by_contra hout
        simp [lock?, slot?, offset?, hout] at hsome
      · intro hold
        rw [hkept k hold, hnone] at hsome
        cases hsome
    obtain ⟨i, hi, rfl⟩ := List.getElem_of_mem hmem
    have hmade := congrArg (·[i]?) hslots
    simp [hi] at hmade
    refine ⟨i, hi, rfl, ?_⟩
    have hlock : c'.lock? added[i] = some ⟨n + i⟩ := congrArg (Option.map Slot.lock) hmade
    rw [hlock] at hsome
    cases hsome
    rfl
  constructor
  · omega
  · intro k l hk
    have hmem : c.bottom ≤ k ∧ k ≤ c.top := by
      by_contra hout
      simp [lock?, slot?, offset?, hout] at hk
    rw [hkept k hmem, hk]
  · intro k l hnone hsome
    obtain ⟨i, hi, -, hid⟩ := hadded k l hnone hsome
    omega
  · intro k k' l hnone hnone' hsome hsome'
    obtain ⟨i, hi, rfl, hid⟩ := hadded k l hnone hsome
    obtain ⟨j, hj, rfl, hid'⟩ := hadded k' l hnone' hsome'
    have hij : i = j := by omega
    subst hij
    rfl

theorem reach_issues (h : c.reach layer s = .ok c' t) : Issues s.nextLock t.nextLock c.lock? c'.lock? := by
  apply issues_follow (reach_eq_ok h).1
  unfold reach extendTo at h
  cases hg : c.growth? layer with
  | none =>
    rw [hg] at h
    cases h
    rfl
  | some e =>
    rw [hg] at h
    cases h
    rfl

theorem load_issues {a : SectionArray} (h : c.load layer s = .ok (a, c') t) :
    Issues s.nextLock t.nextLock c.lock? c'.lock? := by
  obtain ⟨c₁, s₁, hreach, h⟩ := Run.bind_eq_ok.1 h
  obtain ⟨b, s₂, hload, h⟩ := Run.bind_eq_ok.1 h
  cases h
  apply (reach_issues hreach).trans
  exact Issues.of_eq (lock?_putLayer ..) (nextLock_of_materialize hload)

theorem modifyLayer_issues {write : SectionArray → Except Fault SectionArray}
    (h : c.modifyLayer layer write s = .ok c' t) : Issues s.nextLock t.nextLock c.lock? c'.lock? := by
  obtain ⟨⟨a, c₁⟩, s₁, hload, h⟩ := Run.bind_eq_ok.1 h
  obtain ⟨b, s₂, hwrite, h⟩ := Run.bind_eq_ok.1 h
  obtain ⟨-, rfl⟩ := Run.lift_eq_ok.1 hwrite
  cases h
  apply (load_issues hload).trans
  exact Issues.of_eq (lock?_putLayer ..) rfl

theorem replaceBlocks_issues {data before : Option SectionArray}
    (h : c.replaceBlocks layer data s = .ok (before, c') t) :
    Issues s.nextLock t.nextLock c.lock? c'.lock? := by
  obtain ⟨c₁, s₁, hreach, h⟩ := Run.bind_eq_ok.1 h
  cases h
  apply (reach_issues hreach).trans
  exact Issues.of_eq (lock?_putLayer ..) rfl

/-- Asking for a lock gives the lock of the layer, which the layer has from then on at the latest. -/
theorem sectionLock_issues {lock : SectionLock} (h : c.sectionLock layer s = .ok (lock, c') t) :
    Issues s.nextLock t.nextLock c.lock? c'.lock? ∧ c'.lock? layer = some lock := by
  obtain ⟨c₁, s₁, hreach, h⟩ := Run.bind_eq_ok.1 h
  cases hslot : c₁.slot? layer with
  | none =>
    rw [hslot] at h
    cases h
  | some slot =>
    rw [hslot] at h
    cases h
    exact ⟨reach_issues hreach, by rw [lock?, hslot]; rfl⟩

/-- No operation moves a lock to another layer or puts another in its place. Copying makes another column. -/
theorem Op.run_issues {op : Op} (hop : op ≠ .copy) (h : op.run c s = .ok c' t) :
    Issues s.nextLock t.nextLock c.lock? c'.lock? := by
  cases op with
  | extendTo layer => exact reach_issues h
  | setBlock p value =>
    rcases setBlock_eq_ok h with ⟨-, rfl, rfl⟩ | h
    · exact .of_eq rfl rfl
    · exact modifyLayer_issues h
  | fillSection layer value =>
    obtain ⟨c₁, s₁, hreach, h⟩ := Run.bind_eq_ok.1 h
    cases h
    apply (reach_issues hreach).trans
    exact Issues.of_eq (lock?_putLayer ..) rfl
  | write layer writes => exact modifyLayer_issues h
  | setBlocks layer data =>
    obtain ⟨⟨before, c₁⟩, hrun, rfl⟩ := Run.map_eq_ok.1 h
    exact replaceBlocks_issues hrun
  | replaceBlocks layer data =>
    obtain ⟨⟨before, c₁⟩, hrun, rfl⟩ := Run.map_eq_ok.1 h
    exact replaceBlocks_issues hrun
  | trim layer =>
    cases h
    exact .of_eq (lock?_trim c layer) rfl
  | trimAll =>
    cases h
    exact .of_eq (lock?_trimAll c) rfl
  | sectionLock layer =>
    obtain ⟨⟨lock, c₁⟩, hrun, rfl⟩ := Run.map_eq_ok.1 h
    exact (sectionLock_issues hrun).1
  | reset =>
    cases h
    exact .of_eq (lock?_reset c) rfl
  | copy => exact absurd rfl hop

theorem runAll_issues {ops : List Op} (hops : ∀ op ∈ ops, op ≠ .copy) (h : runAll ops c s = .ok c' t) :
    Issues s.nextLock t.nextLock c.lock? c'.lock? := by
  induction ops generalizing c s with
  | nil =>
    obtain ⟨rfl, rfl⟩ := Run.pure_eq_ok.1 h
    exact .of_eq rfl rfl
  | cons op ops ih =>
    obtain ⟨c₁, s₁, hop, h⟩ := Run.bind_eq_ok.1 h
    apply (Op.run_issues (hops op List.mem_cons_self) hop).trans
    exact ih (fun x hx => hops x (List.mem_cons_of_mem op hx)) h

/-! ## New columns -/

/-- A column whose locks have numbers in a row has new locks only. -/
theorem issues_of_numbered {n : Nat} (h : ∀ i (hi : i < c.slots.size), c.slots[i].lock = ⟨n + i⟩) :
    Issues n (n + c.slots.size) (fun _ => none) c.lock? := by
  have hlock : ∀ k l, c.lock? k = some l →
      ∃ i, i < c.slots.size ∧ k = c.bottom + i ∧ l.id = n + i := by
    intro k l hk
    by_cases hmem : c.bottom ≤ k ∧ k ≤ c.top
    · have hi : (k - c.bottom).toNat < c.slots.size := by unfold top at hmem; omega
      simp only [lock?, slot?, offset?_eq_some hmem, Option.bind_some, Array.getElem?_eq_getElem hi,
        Option.map_some, Option.some.injEq] at hk
      rw [h _ hi] at hk
      subst hk
      exact ⟨_, hi, by omega, rfl⟩
    · simp [lock?, slot?, offset?, hmem] at hk
  constructor
  · omega
  · intro k l hk
    cases hk
  · intro k l _ hk
    obtain ⟨i, hi, -, hid⟩ := hlock k l hk
    omega
  · intro k k' l _ _ hk hk'
    obtain ⟨i, hi, rfl, hid⟩ := hlock k l hk
    obtain ⟨j, hj, rfl, hid'⟩ := hlock k' l hk'
    omega

theorem create_issues {bottom top : Int} {background : BlockState} (h : create bottom top background s = .ok c t) :
    Issues s.nextLock t.nextLock (fun _ => none) c.lock? := by
  unfold create at h
  split at h
  · cases h
  · simp only [make_fresh] at h
    cases h
    have hnumbered := issues_of_numbered (n := s.nextLock)
      (c := ⟨bottom, ((List.range (top - bottom + 1).toNat).map fun i => ⟨.empty none, ⟨s.nextLock + i⟩⟩).toArray,
        background⟩) (fun i hi => by simp)
    simpa using hnumbered

theorem copy_issues (h : c.copy s = .ok c' t) : Issues s.nextLock t.nextLock (fun _ => none) c'.lock? := by
  cases h
  have hnumbered := issues_of_numbered (n := s.nextLock)
    (c := { c with slots := c.slots.mapIdx fun i slot => slot.copy (s.nextLock + i) })
    (fun i hi => by simp [Slot.copy])
  simpa using hnumbered

end Column

end VoxelStore
