import VoxelStore.Proofs.Palette.Reading
/-!
# What a stored section stands for

`Stores` ties a section to the 4096 block states that its entries stand for, whatever palette it uses.
Reading one entry, decoding all of them, decoding into an array and taking the section apart and
assembling it again are each described once, for every such section.
-/

namespace VoxelStore

namespace PalettedSection

/-- The section is well formed, and its entries stand for `values`. -/
structure Stores (s : PalettedSection) (g : GlobalPalette) (values : Vector BlockState sectionBlocks) :
    Prop where
  kind : s.kind = .blocks
  len : s.data.len = sectionBlocks
  bits : s.data.bits ≤ 32
  words : s.data.words.size = Packed.wordsNeeded sectionBlocks s.data.bits
  value : ∀ i (h : i < sectionBlocks), s.fieldValue g i = pure values[i]

variable {s : PalettedSection} {g : GlobalPalette} {values : Vector BlockState sectionBlocks}

theorem fieldValue_eq {i : Nat} {entry : UInt64} {v : BlockState} (hfield : s.data.field i = .ok entry)
    (hv : s.palette.resolve g entry = .ok v) : s.fieldValue g i = pure v := by
  rw [fieldValue, hfield]
  show ExceptT.mk (Except.ok (s.palette.resolve g entry)) = pure v
  rw [hv]
  rfl

/-- What is read for an entry is what its number stands for. -/
theorem get_of_entry {i : Nat} {x : UInt64} (hi : i < s.data.len)
    (h : s.data.get i = .ok (some x)) (g : GlobalPalette) :
    s.get g i = ExceptT.mk (.ok (s.palette.resolve g x)) := by
  rw [Packed.get, if_pos hi] at h
  cases hfield : s.data.field i with
  | error f =>
    rw [hfield] at h
    cases h
  | ok y =>
    rw [hfield] at h
    cases h
    rw [get_of_lt hi, fieldValue, hfield]
    rfl

/-- A section of blocks fills an array with certain values exactly if it decodes to them. -/
theorem decodeInto_iff {out : SectionArray} (hkind : s.kind = .blocks) (hlen : s.data.len = sectionBlocks)
    (hfit : ∀ j (h : j < sectionBlocks), out.width.Holds values[j]) :
    (∃ filled, s.decodeInto g out = .ok (.ok (), filled) ∧ filled.width = out.width ∧ filled.cells = values) ↔
      s.decode g = pure values.toArray := by
  constructor
  · rintro ⟨filled, hrun, -, rfl⟩
    rw [decodeInto, hkind, hlen] at hrun
    obtain ⟨-, hvalues⟩ := writeFrom_eq_ok hrun (Nat.le_of_eq (Nat.zero_add _))
    refine decode_eq_pure_iff.2 ⟨(Vector.size_toArray _).trans hlen.symm, fun i hi => ?_⟩
    rw [Vector.size_toArray] at hi
    rw [get_of_lt (hlen ▸ hi), hvalues i hi (Nat.zero_le i) (by rwa [Nat.zero_add]), Vector.getElem_toArray]
  · intro hdecode
    have hvalues : ∀ v ∈ values.toArray, out.width.Holds v := by
      intro v hv
      obtain ⟨j, hj, rfl⟩ := Vector.mem_iff_getElem.1 ((Vector.mem_toArray_iff _ _).1 hv)
      exact hfit j hj
    obtain ⟨filled, hrun, hwidth, hcells⟩ := decodeInto_of_decode hkind (Nat.le_of_eq hlen) hvalues hdecode
    refine ⟨filled, hrun, hwidth, Vector.ext fun j hj => ?_⟩
    have hj' : j < values.toArray.size := by rwa [values.size_toArray]
    rw [hcells j hj, Array.getElem?_eq_getElem hj', Option.getD_some, Vector.getElem_toArray]

theorem Stores.get (hs : s.Stores g values) {i : Nat} (h : i < sectionBlocks) :
    s.get g i = pure values[i] := by
  rw [PalettedSection.get, if_pos (by rwa [hs.len]), hs.value i h]

theorem Stores.decode (hs : s.Stores g values) : s.decode g = pure values.toArray := by
  refine decode_eq_pure_iff.2 ⟨values.size_toArray.trans hs.len.symm, fun i hi => ?_⟩
  have hi' : i < sectionBlocks := values.size_toArray ▸ hi
  rw [hs.get hi', Vector.getElem_toArray]

theorem single_stores (g : GlobalPalette) (value : BlockState) (nonAir : UInt16) :
    (single .blocks value nonAir).Stores g (Vector.replicate sectionBlocks value) where
  kind := rfl
  len := rfl
  bits := Nat.zero_le 32
  words := (Packed.wordsNeeded_zero sectionBlocks).symm
  value i h := by rw [Vector.getElem_replicate]; rfl

end PalettedSection

end VoxelStore
