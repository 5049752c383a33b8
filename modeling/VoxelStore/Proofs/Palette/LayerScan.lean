import VoxelStore.Proofs.Column.NormalForm
import VoxelStore.Proofs.Palette.Merging
import VoxelStore.Proofs.Palette.Shape
/-!
# Layers that are not scanned

A layer of one value is encoded from its state alone. The scan of the array that stands for the layer comes to the
same section (`IsClean.encode_constant`), so the state in which a column keeps a layer does not show, with one
exception: an empty layer is not encoded at all. Trimming moves a layer of the background, and no other, into the
state with the exception (`encodeLayer_eq_scan`).
-/

namespace VoxelStore

namespace Column

variable {c c' : Column} {k layer : Int}

/-- `c'` has the layer as trimming leaves it. -/
structure Trimmed (layer : Int) (c c' : Column) : Prop where
  background : c'.background = c.background
  layer : c'.layer layer = (c.layer layer).trimmed c.background

theorem trimmed_trim (c : Column) (layer : Int) : Trimmed layer c (c.trim layer).2 := by
  rcases trim_cases c layer with ⟨hx, htrim⟩ | ⟨x, hx, -, -, hput⟩
  · rw [htrim]
    exact ⟨rfl, by rw [Layer.trimmed, hx, Option.getD_none]⟩
  · exact ⟨hput.background, by rw [hput.layer, if_pos rfl, Layer.trimmed, hx, Option.getD_some]⟩

theorem trimmed_trimAll (c : Column) (layer : Int) : Trimmed layer c c.trimAll.2 :=
  ⟨(maps_trimAll c).background, (maps_trimAll c).layer layer⟩

theorem layer_trim_of_ne (c : Column) (h : k ≠ layer) : (c.trim layer).2.layer k = c.layer k := by
  rcases trim_cases c layer with ⟨-, htrim⟩ | ⟨x, -, -, -, hput⟩
  · rw [htrim]
  · rw [hput.layer, if_neg h]

theorem Trimmed.contents (h : Trimmed layer c c') : c'.contents layer = c.contents layer := by
  rw [Column.contents, h.layer, h.background, Layer.contents_trim]
  rfl

/-- The array that is loaded holds what the layer stands for. -/
theorem contents_of_load {blocks : SectionArray} {s t : Session} (h : c.load layer s = .ok (blocks, c') t) :
    c.contents layer = blocks.cells := by
  obtain ⟨-, s₁, -, hmat⟩ := load_eq_ok h
  exact (Layer.materialize_eq_ok hmat).symm

theorem contents_of_empty (h : c.state layer = .empty) :
    c.contents layer = Vector.replicate sectionBlocks c.background := by
  unfold state at h
  unfold contents
  cases hl : c.layer layer <;> rw [hl] at h <;> cases h
  rfl

end Column

namespace Encoder

variable {e e₁ : Encoder} {blocks a : SectionArray} {g : GlobalPalette} {s t s₁ s₂ s₃ : Session}
variable {scanned : PalettedSection} {c c' c₁ : Column} {layer : Int} {v : BlockState}

/-- The encoder answers `r` for a layer, in every session. -/
def Answers (e : Encoder) (c : Column) (layer : Int) (g : GlobalPalette) (r : Option PalettedSection) : Prop :=
  ∀ s, ∃ e' t, e.encodeLayer c layer g s = .ok (r, e') t

/-! ## Scans -/

/-- The width of an array does not show in its section. -/
theorem encode_of_cells (h : a.cells = blocks.cells) : e.encode a g = e.encode blocks g := by
  have hfill : ∀ entry l entries, fill entry a l entries = fill entry blocks l entries := fun _ => fill_of_cells h
  simp only [encode, pack, h, hfill]

theorem nonAir_constant (h : blocks.cells = Vector.replicate sectionBlocks v) :
    blocks.nonAir = if v.isAir then 0 else UInt16.ofNat sectionBlocks := by
  rw [SectionArray.nonAir, h, Vector.countP_replicate]
  cases v.isAir <;> rfl

/-- The scan of an array of one value finds what the value tells. -/
theorem IsClean.encode_constant (hclean : e.IsClean) (h : blocks.cells = Vector.replicate sectionBlocks v)
    (hscan : e.encode blocks g s = .ok (scanned, e₁) t) : scanned = uniformSection v := by
  have hone := SectionArray.length_storedPalette_of_replicate h
  obtain ⟨-, -, -, -, -, ⟨-, rfl, -⟩ | ⟨hmore, -⟩ | ⟨hmany, -⟩⟩ := encode_cases hclean hscan
  · have hfirst : blocks.first = v := by simp [SectionArray.first, h]
    rw [uniformSection, hfirst, nonAir_constant h]
  · omega
  · omega

/-! ## Layers -/

/-- Only an empty layer is not answered with the section of what it stands for. -/
theorem IsClean.answers (hclean : e.IsClean) (hscan : e.encode blocks g s = .ok (scanned, e₁) t)
    (hcells : c.contents layer = blocks.cells) :
    e.Answers c layer g (if c.state layer = .empty then none else some scanned) := by
  intro s'
  unfold Column.contents at hcells
  unfold Column.state encodeLayer
  cases hl : c.layer layer with
  | empty spare => exact ⟨e, s', rfl⟩
  | uniform value spare =>
    rw [hl] at hcells
    rw [hclean.encode_constant hcells.symm hscan]
    exact ⟨e, s', rfl⟩
  | present a =>
    rw [hl] at hcells
    obtain ⟨e', t', hagain⟩ := hclean.encode_again hscan hclean ⟨rfl, rfl⟩ s'
    rw [← encode_of_cells hcells] at hagain
    exact ⟨e', t', Run.bind_of_ok hagain _⟩

/-- Once it is trimmed, a layer of the background is empty, and no other. -/
theorem IsClean.answers_trimmed {bottom top : Int} {background : BlockState} {ops : List Column.Op}
    (hclean : e.IsClean) (h : Column.History bottom top background ops c)
    (hscan : e.encode blocks g s = .ok (scanned, e₁) t) (hcells : c.contents layer = blocks.cells)
    (htrim : Column.Trimmed layer c c') :
    e.Answers c' layer g
      (if c.contents layer = Vector.replicate sectionBlocks background then none else some scanned) := by
  have hback := h.background_eq
  have hne := h.state_ne_background layer
  subst hback
  have hstate : c'.state layer = .ofContents c.background (c.contents layer) := by
    rw [Column.state, htrim.layer]
    exact Layer.state_trimmed hne
  have hanswers := hclean.answers hscan (htrim.contents.trans hcells)
  rw [hstate] at hanswers
  simp only [SectionState.ofContents_eq_empty] at hanswers
  exact hanswers

/-- The fast path agrees with the scan. Take any layer of a column of any history, and a clean encoder that can scan
the array that loading the layer gives. A layer outside of the range is empty. An empty layer is answered with
nothing, and any other with the section that the scan of the array makes. If the layer or the whole column is trimmed
before, a layer of which every block is the background is answered with nothing, and every other as it was. To trim
another layer changes nothing. -/
theorem encodeLayer_eq_scan {bottom top : Int} {background : BlockState} {ops : List Column.Op}
    (h : Column.History bottom top background ops c) (hclean : e.IsClean)
    (hload : c.load layer s = .ok (blocks, c₁) s₁) (hscan : e.encode blocks g s₂ = .ok (scanned, e₁) s₃) :
    let answer := if c.state layer = .empty then none else some scanned
    let isBackground := c.contents layer = Vector.replicate sectionBlocks background
    (¬(c.bottom ≤ layer ∧ layer ≤ c.top) → c.state layer = .empty) ∧
      e.Answers c layer g answer ∧
      (isBackground → e.Answers (c.trim layer).2 layer g none ∧ e.Answers c.trimAll.2 layer g none) ∧
      (¬isBackground → e.Answers (c.trim layer).2 layer g answer ∧ e.Answers c.trimAll.2 layer g answer) ∧
      ∀ k, k ≠ layer → e.Answers (c.trim k).2 layer g answer := by
  intro answer isBackground
  have hcells := Column.contents_of_load hload
  have hanswer : e.Answers c layer g answer := hclean.answers hscan hcells
  have htrim := hclean.answers_trimmed h hscan hcells (Column.trimmed_trim c layer)
  have htrimAll := hclean.answers_trimmed h hscan hcells (Column.trimmed_trimAll c layer)
  refine ⟨?_, hanswer, ?_, ?_, ?_⟩
  · intro hout
    rw [Column.state, Column.layer_of_not_mem hout]
    rfl
  · intro hall
    rw [if_pos hall] at htrim htrimAll
    exact ⟨htrim, htrimAll⟩
  · -- an empty layer would be one of the background
    intro hnot
    have hstate : c.state layer ≠ .empty := by
      intro hempty
      have hcontents := Column.contents_of_empty hempty
      rw [h.background_eq] at hcontents
      exact hnot hcontents
    have hsome : answer = some scanned := if_neg hstate
    rw [if_neg hnot] at htrim htrimAll
    rw [hsome]
    exact ⟨htrim, htrimAll⟩
  · intro k hk s'
    unfold encodeLayer
    rw [Column.layer_trim_of_ne c hk.symm]
    exact hanswer s'

/-- Layer 2 was loaded and then written back to the background, air. It has an array, which is encoded as a section
of air as long as the column is not trimmed. -/
theorem encodeLayer_eq_scan_background :
    ∃ c, Column.History 0 3 .air [.fillSection 1 .reserved, .write 2 [.setAll 7, .setAll .air]] c ∧
      ∃ scanned, (create 16).Answers c 2 (.identity 16) (some scanned) ∧
        (create 16).Answers (c.trim 1).2 2 (.identity 16) (some scanned) ∧
        (create 16).Answers (c.trim 2).2 2 (.identity 16) none ∧
        (create 16).Answers c.trimAll.2 2 (.identity 16) none := by
  obtain ⟨c₀, t₀, hcreate⟩ := Column.create_ok .air (show (0 : Int) ≤ 3 by decide)
    { width := some (ArrayWidth.forStateCount 16) }
  have hserves : t₀.Serves 16 := (Column.create_eq_ok hcreate).2.2.2.2
  have hlegal₁ : (Column.Op.fillSection 1 .reserved).Legal 16 := show BlockState.reserved < 16 by decide
  have hlegal : (Column.Op.write 2 [.setAll 7, .setAll .air]).Legal 16 := by
    intro x hx
    rcases List.mem_pair.1 hx with rfl | rfl
    · show (7 : UInt32) < 16
      decide
    · show BlockState.air < 16
      decide
  obtain ⟨c₁, t₁, hfill, hreg₁, hserves₁⟩ :=
    Column.Op.run_inRegistry hlegal₁ (Column.inRegistry_create hcreate (by decide)) hserves
  obtain ⟨c, t, hwrite, hreg, hserves⟩ := Column.Op.run_inRegistry hlegal hreg₁ hserves₁
  have hc : Column.History 0 3 .air [.fillSection 1 .reserved, .write 2 [.setAll 7, .setAll .air]] c :=
    ((Column.History.create hcreate).step hfill).step hwrite
  have hstate : c.state 2 ≠ .empty := by
    obtain ⟨a, b, s, hput, -⟩ := Column.modifyLayer_eq_ok hwrite
    rw [Column.state, hput.layer, if_pos rfl]
    simp [Layer.state]
  have hbackground : c.contents 2 = Vector.replicate sectionBlocks .air := by
    rw [Column.contents, (Column.refines_of_history hc).blocks]
    rfl
  have hready := ready_create 16
  obtain ⟨blocks, c₂, s₂, hload, hblocks, -⟩ := Column.load_inRegistry hserves hreg 2
  obtain ⟨scanned, e, s₃, hscan, -⟩ := hready.encode_stores hblocks (by decide) {}
  obtain ⟨-, hanswer, htrim, -, hother⟩ := encodeLayer_eq_scan hc hready.clean hload hscan
  rw [if_neg hstate] at hanswer hother
  exact ⟨c, hc, scanned, hanswer, hother 1 (by decide), htrim hbackground⟩

end Encoder

end VoxelStore
