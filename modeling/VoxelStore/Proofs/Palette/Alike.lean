import VoxelStore.Proofs.Column.Alike
import VoxelStore.Proofs.Palette.Encoded
/-!
# What encoding depends on

What an encoder makes of a section depends on the values of its array and on the tables of the first pass, not on the
width of the array, nor on what the entries and the packing words hold (`Encoder.encode_same`). `Encoder.Alike` relates
encoders that agree in all but that content; each of the three ways to encode ends alike on alike encoders and alike
arrays, in any sessions. The palettes hold shared ordinals only, so decoding into alike arrays goes alike as well.
-/

namespace VoxelStore

/-- Of the scratch words only the number is of use: the packed words stand in front, and the words behind
them are cut off. -/
theorem Packed.packInto_alike (bits : Nat) (values : Array UInt32) {scratch scratch' : Array UInt64}
    (h : scratch'.size = scratch.size) :
    ExceptAlike (fun p q => q.1 = p.1 ∧ q.2.extract 0 q.1 = p.2.extract 0 p.1 ∧ q.2.size = p.2.size)
      (packInto bits values scratch) (packInto bits values scratch') := by
  simp only [packInto, h]
  split
  · exact .error _
  · refine .ok ⟨rfl, ?_, by simp [h]⟩
    apply Array.ext
    · simp [h]
    · intro i hi _
      have hused : i < wordsNeeded values.size bits := by
        simp only [Array.size_extract, Array.size_mapIdx] at hi
        omega
      simp [hused]

/-- The same section. Its own palette holds shared ordinals only, if it is one of blocks. -/
inductive PalettedSection.Alike (P : WidthPairing) (s : PalettedSection) : PalettedSection → Prop
  | intro : (s.kind = .blocks → ∀ v ∈ s.palette.values, P.Shared v) → Alike P s s

theorem PalettedSection.Alike.eq {P : WidthPairing} {s s' : PalettedSection} (h : s.Alike P s') : s' = s := by
  cases h
  rfl

theorem PalettedSection.eq_of_alike {P : WidthPairing} {s s' : Option PalettedSection}
    (h : Option.Rel (PalettedSection.Alike P) s s') : s' = s := by
  cases h with
  | none => rfl
  | some h => rw [h.eq]

theorem PalettedSection.alike_single {P : WidthPairing} {v : BlockState} (hv : P.Shared v)
    (kind : PaletteKind) (nonAir : UInt16) : (single kind v nonAir).Alike P (single kind v nonAir) := by
  refine .intro fun _ u hu => ?_
  rwa [Array.mem_singleton.1 hu]

namespace Encoder

/-- The same ordinals are noted in both encoders, and there is room for the same number of words. What the entries and
the words hold may differ. -/
structure SameTables (e f : Encoder) : Prop where
  indexOf : f.indexOf = e.indexOf
  palette : f.palette = e.palette
  words : f.words.size = e.words.size

/-- The tables are the same, and no ordinal is noted that is not shared. -/
structure Alike (P : WidthPairing) (e f : Encoder) : Prop where
  tables : e.SameTables f
  clean : e.IsClean ∨ ∀ v, P.Shared v

variable {e f : Encoder} {P : WidthPairing} {a b : SectionArray} {S : Session → Session → Prop}

theorem sameTables_refl (e : Encoder) : e.SameTables e := ⟨rfl, rfl, rfl⟩

theorem alike_refl {w : ArrayWidth} (e : Encoder) : e.Alike (.equal w) e :=
  ⟨e.sameTables_refl, .inr (WidthPairing.shared_equal w)⟩

/-- Clean encoders of the same sizes differ in what their entries and words hold. -/
theorem IsClean.sameTables (h : e.IsClean) (hf : f.IsClean) (hlarge : AsLarge e f) : e.SameTables f where
  indexOf := Array.ext hlarge.indexOf fun i hi hi' => by rw [hf.indexOf i hi, h.indexOf i hi']
  palette := Vector.ext fun k hk => by rw [hf.palette k hk, h.palette k hk]
  words := hlarge.words

/-! ## The tables -/

theorem SameTables.note (h : e.SameTables f) (c : Census) (v : BlockState) :
    ExceptAlike (fun p q => p.1.SameTables q.1 ∧ q.2 = p.2) (e.note c v) (f.note c v) := by
  unfold Encoder.note
  rw [h.indexOf, h.palette]
  split
  · exact .error _
  · split
    · exact .ok ⟨h, rfl⟩
    · split
      · exact .ok ⟨⟨rfl, rfl, h.words⟩, rfl⟩
      · exact .error _

theorem SameTables.noteAll {ordinals : List BlockState} (h : e.SameTables f) (c : Census) :
    ExceptAlike (fun p q => p.1.SameTables q.1 ∧ q.2 = p.2) (e.noteAll c ordinals) (f.noteAll c ordinals) := by
  induction ordinals generalizing e f c with
  | nil => exact .ok ⟨h, rfl⟩
  | cons v ordinals ih =>
    rw [Encoder.noteAll, Encoder.noteAll, List.foldlM_cons, List.foldlM_cons]
    refine (h.note (c.strike v) v.stored).bind ?_
    rintro ⟨e₁, c₁⟩ ⟨f₁, c₂⟩ ⟨h₁, hc⟩
    cases hc
    exact ih h₁ c₁

theorem SameTables.noted (h : e.SameTables f) (distinct : Nat) : f.noted distinct = e.noted distinct := by
  rw [Encoder.noted, Encoder.noted, h.palette]

theorem SameTables.forget (h : e.SameTables f) (distinct : Nat) :
    (e.forget distinct).SameTables (f.forget distinct) where
  indexOf := by rw [Encoder.forget, Encoder.forget, h.noted, h.indexOf]
  palette := by rw [Encoder.forget, Encoder.forget, h.palette]
  words := h.words

theorem SameTables.localIndex (h : e.SameTables f) : f.localIndex = e.localIndex := by
  funext v
  rw [Encoder.localIndex, Encoder.localIndex, h.indexOf]

theorem fill_of_cells {entry : BlockState → Except Fault UInt32} (hab : b.cells = a.cells)
    (l : List (Fin sectionBlocks)) (entries : Vector UInt32 sectionBlocks) :
    fill entry b l entries = fill entry a l entries := by
  induction l generalizing entries with
  | nil => rfl
  | cons i l ih =>
    unfold fill
    rw [hab]
    exact congrArg (entry (a.cells.get i).stored >>= ·) (funext fun x => ih (entries.set i x))

/-! ## Sections -/

theorem SameTables.pack (h : e.SameTables f) (hab : b.cells = a.cells) (bits : Nat) (palette : Palette)
    (entry : BlockState → Except Fault UInt32) (nonAir : UInt16) :
    ExceptAlike (fun p q => q.1 = p.1 ∧ p.2.SameTables q.2) (e.pack bits palette entry a nonAir)
      (f.pack bits palette entry b nonAir) := by
  have hfill : fill entry b (List.finRange sectionBlocks) f.entries =
      fill entry a (List.finRange sectionBlocks) e.entries :=
    (fill_of_cells hab _ _).trans (fill_congr fun i hi => absurd (List.mem_finRange i) hi)
  unfold Encoder.pack
  rw [hfill]
  refine ExceptAlike.refl.bind fun entries entries' hentries => ?_
  cases hentries
  refine (Packed.packInto_alike bits entries.toArray h.words).bind fun p q hpq => ?_
  obtain ⟨hused, hwords, hsize⟩ := hpq
  refine .ok ⟨?_, h.indexOf, h.palette, hsize⟩
  rw [hwords]

/-- What an encoder makes of a section depends on the cells and on the tables of the first pass. -/
theorem encode_same (hS : Run.Alike.LogFree S) (h : e.SameTables f) (hab : b.cells = a.cells) (g : GlobalPalette) :
    Run.Alike S (fun p q => q.1 = p.1 ∧ p.2.SameTables q.2) (e.encode a g) (f.encode b g) := by
  unfold encode
  rw [hab]
  refine (Run.Alike.lift (h.noteAll {})).bind ?_
  rintro ⟨e₁, c⟩ ⟨f₁, c'⟩ ⟨h₁, hc⟩
  cases hc
  dsimp only
  rw [h₁.noted, h₁.localIndex, h₁.palette]
  split
  · refine (Run.Alike.emit hS _).bind fun _ _ _ => ?_
    exact (Run.Alike.lift (h₁.pack hab _ _ _ _)).bind fun p q hpq => .pure ⟨hpq.1, hpq.2.forget _⟩
  · exact .pure ⟨rfl, h₁.forget _⟩
  · exact (Run.Alike.lift (h₁.pack hab _ _ _ _)).bind fun p q hpq => .pure ⟨hpq.1, hpq.2.forget _⟩

/-- Alike encoders give the same section for alike arrays, or fault in the same way. -/
theorem encode_alike (hS : Run.Alike.LogFree S) (h : e.Alike P f) (hab : a.Alike P b) (g : GlobalPalette) :
    Run.Alike S (fun p q => p.1.Alike P q.1 ∧ p.2.Alike P q.2) (e.encode a g) (f.encode b g) := by
  intro s t hs
  have hend := encode_same hS h.tables hab.cells g s t hs
  generalize hx : e.encode a g s = x, f.encode b g t = y at hend ⊢
  cases hend with
  | error => exact .error
  | @ok p q s' t' hpq hs' =>
    obtain ⟨encoded, e'⟩ := p
    obtain ⟨encoded', f'⟩ := q
    obtain ⟨heq, htables⟩ := hpq
    cases heq
    rcases h.clean with hclean | hall
    · -- what is noted and encoded are values of the array
      obtain ⟨hclean', -⟩ := encode_leaves_clean hclean hx
      refine .ok ⟨.intro fun _ v hv => ?_, htables, .inl hclean'⟩ hs'
      obtain ⟨i, hi, rfl⟩ := SectionArray.mem_storedPalette.1 (mem_palette_of_encode hclean hx hv)
      exact WidthPairing.shared_stored (hab.shared i hi)
    · exact .ok ⟨.intro fun _ v _ => hall v, htables, .inr hall⟩ hs'

variable {base base' : SectionArray}

theorem resolve_cons (base a : SectionArray) (i : Nat) (hi : i < sectionBlocks) (l : List (Fin sectionBlocks)) :
    resolve base (⟨i, hi⟩ :: l) a =
      if a.cells[i] = .reserved then a.set i (merged a.cells[i] base.cells[i]) >>= resolve base l
      else resolve base l a := rfl

/-- Merging writes a value of the base, or air, so alike arrays stay alike. -/
theorem resolve_alike (hab : a.Alike P b) (hbase : base.Alike P base') (l : List (Fin sectionBlocks)) :
    ExceptAlike (SectionArray.Alike P) (resolve base l a) (resolve base' l b) := by
  induction l generalizing a b with
  | nil => exact .ok hab
  | cons i l ih =>
    obtain ⟨i, hi⟩ := i
    rw [resolve_cons, resolve_cons, hab.cells, hbase.cells]
    have hshared : P.Shared (merged a.cells[i] base.cells[i]) := by
      unfold merged
      split
      · exact WidthPairing.shared_stored (hbase.shared i hi)
      · exact hab.shared i hi
    split
    · exact (hab.set hshared i).bind fun _ _ => ih
    · exact ih hab

theorem encodeMerged_alike (hS : Run.Alike.LogFree S) (h : e.Alike P f) (hab : a.Alike P b)
    (hbase : base.Alike P base') (g : GlobalPalette) :
    Run.Alike S (fun p q => p.1.Alike P q.1 ∧ p.2.1.Alike P q.2.1 ∧ p.2.2.Alike P q.2.2)
      (e.encodeMerged a base g) (f.encodeMerged b base' g) := by
  refine (Run.Alike.lift (resolve_alike hab hbase _)).bind fun a₁ b₁ h₁ => ?_
  exact (encode_alike hS h h₁ g).bind fun p q hpq => .pure ⟨hpq.1, h₁, hpq.2⟩

theorem encodeLayer_alike {c c' : Column} (hS : Run.Alike.LogFree S) (h : e.Alike P f) (hc : c.Alike P c')
    (layer : Int) (g : GlobalPalette) :
    Run.Alike S (fun p q => Option.Rel (PalettedSection.Alike P) p.1 q.1 ∧ p.2.Alike P q.2)
      (e.encodeLayer c layer g) (f.encodeLayer c' layer g) := by
  have hlayer := hc.layer layer
  unfold encodeLayer
  generalize c.layer layer = l, c'.layer layer = l' at hlayer
  cases hlayer with
  | empty _ => exact .pure ⟨.none, h⟩
  | uniform hv _ =>
    have hsingle := PalettedSection.alike_single (WidthPairing.shared_stored hv)
    exact .pure ⟨.some (hsingle _ _), h⟩
  | present hab => exact (encode_alike hS h hab g).bind fun p q hpq => .pure ⟨.some hpq.1, hpq.2⟩

end Encoder

/-! ## Decoding -/

namespace PalettedSection

variable {P : WidthPairing} {s : PalettedSection} {g : GlobalPalette} {a b : SectionArray}

/-- A value that an entry stands for is one of the palette's own, or one of the global palette. -/
theorem resolve_mem {p : Palette} {entry : UInt64} {v : UInt32} (h : p.resolve g entry = .ok v) :
    v ∈ p.values ∨ v ∈ g.ordinals := by
  cases p with
  | single value =>
    cases h
    exact .inl (Array.mem_singleton.2 rfl)
  | indirect values =>
    rw [Palette.resolve] at h
    split at h
    · next hv =>
      cases h
      exact .inl (Array.mem_of_getElem? hv)
    · cases h
  | global =>
    rw [Palette.resolve] at h
    split at h
    · next hv =>
      cases h
      exact .inr (Array.mem_of_getElem? hv)
    · cases h

theorem writeFrom_alike (hs : ∀ v ∈ s.palette.values, P.Shared v) (hg : ∀ v ∈ g.ordinals, P.Shared v)
    (count i : Nat) (h : a.Alike P b) :
    ExceptAlike (fun p q => q.1 = p.1 ∧ p.2.Alike P q.2) (s.writeFrom g count i a)
      (s.writeFrom g count i b) := by
  induction count generalizing i a b with
  | zero => exact .ok ⟨rfl, h⟩
  | succ count ih =>
    rw [writeFrom, writeFrom]
    cases hfield : s.data.field i with
    | error f =>
      have hvalue : (s.fieldValue g i).run = .error f := by
        rw [fieldValue, hfield]
        rfl
      rw [hvalue]
      exact .error f
    | ok entry =>
      have hvalue : (s.fieldValue g i).run = .ok (s.palette.resolve g entry) := by
        rw [fieldValue, hfield]
        rfl
      rw [hvalue]
      cases hv : s.palette.resolve g entry with
      | error e => exact .ok ⟨rfl, h⟩
      | ok v => exact (h.set ((resolve_mem hv).elim (hs v) (hg v)) i).bind fun _ _ => ih (i + 1)

/-- Arrays that are alike take the same decoded blocks. What a section of biomes holds does not matter, as it
is refused. -/
theorem decodeInto_alike (hs : s.kind = .blocks → ∀ v ∈ s.palette.values, P.Shared v)
    (hg : ∀ v ∈ g.ordinals, P.Shared v) (h : a.Alike P b) :
    ExceptAlike (fun p q => q.1 = p.1 ∧ p.2.Alike P q.2) (s.decodeInto g a) (s.decodeInto g b) := by
  unfold decodeInto
  cases hk : s.kind with
  | biomes => exact .ok ⟨rfl, h⟩
  | blocks => exact writeFrom_alike (hs hk) hg _ _ h

end PalettedSection

end VoxelStore
