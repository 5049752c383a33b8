import VoxelStore.Proofs.Palette.Returns
import VoxelStore.Proofs.Palette.Shape
/-!
# Sections of global ids

A section with too many ordinals for a palette of its own stores their global ids, cut to the width of the greatest
one. An ordinal that stands for no id may have any id in the table, also that of another ordinal, and nothing faults.
`global_get_iff` says which blocks come back: those whose ordinals stand for an id that is not cut, and no others. No id
is cut unless there are more of them than 32-bit numbers. Then all may be: with one more, every entry reads the same
ordinal (`encode_wrapping`).
-/

namespace VoxelStore

namespace GlobalPalette

variable {g : GlobalPalette}

/-- No ordinal stands for two ids, unless there are more ids than 32-bit numbers. -/
theorem nodup_ordinals_iff : g.ordinals.toList.Nodup ↔ g.size ≤ UInt32.size := by
  constructor
  · intro hnodup
    have hnats : (g.ordinals.toList.map UInt32.toNat).Nodup := hnodup.map fun _ _ => UInt32.toNat_inj.1
    have hsubset : g.ordinals.toList.map UInt32.toNat ⊆ List.range UInt32.size := by
      intro k hk
      obtain ⟨v, -, rfl⟩ := List.mem_map.1 hk
      exact List.mem_range.2 v.toNat_lt_size
    have hle := (hnats.subperm hsubset).length_le
    rwa [List.length_map, List.length_range, Array.length_toList] at hle
  · intro h
    refine List.nodup_iff_injective_get.2 fun i j heq => Fin.ext ?_
    simp only [List.get_eq_getElem, Array.getElem_toList] at heq
    exact ordinals_injective i.isLt j.isLt (Nat.lt_of_lt_of_le i.isLt h) (Nat.lt_of_lt_of_le j.isLt h) heq

/-- An id leads to its ordinal, and that back to the id as a 32-bit number. -/
theorem idOf_ordinalOf {id : UInt64} (hid : id.toNat < g.size) :
    ∃ v x, g.ordinalOf id = some v ∧ g.idOf v = .ok x ∧ x.toNat = id.toNat % UInt32.size := by
  refine ⟨g.ordinals[id.toNat], UInt32.ofNat id.toNat, ?_, idOf_ordinal hid, UInt32.toNat_ofNat'⟩
  rw [ordinalOf, Array.getElem?_eq_getElem hid]

end GlobalPalette

namespace Encoder

variable {e e' : Encoder} {blocks : SectionArray} {g : GlobalPalette} {s t : Session}
variable {encoded : PalettedSection} {i : Nat}

/-- The section packs the global ids of its ordinals, if they are too many for a palette of its own. -/
theorem pack_of_encode (hclean : e.IsClean) (hmany : 256 < blocks.storedPalette.length)
    (h : e.encode blocks g s = .ok (encoded, e') t) :
    ∃ e₁ e₂ : Encoder, e₁.pack g.bits .global g.idOf blocks blocks.nonAir = .ok (encoded, e₂) := by
  obtain ⟨e₁, c, -, -, -, ⟨hone, -⟩ | ⟨-, hfew, -⟩ | ⟨-, e₂, hpack, -⟩⟩ := encode_cases hclean h
  · omega
  · omega
  · exact ⟨e₁, e₂, hpack⟩

/-- Of an ordinal the section stores the id, as far as the width of the ids goes. What is read is the ordinal of that
number, if it is an id. -/
theorem get_of_encode (hclean : e.IsClean) (hmany : 256 < blocks.storedPalette.length)
    (h : e.encode blocks g s = .ok (encoded, e') t) (hi : i < sectionBlocks) :
    ∃ id, g.idOf blocks.cells[i].stored = .ok id ∧
      encoded.get g i = ExceptT.mk (.ok (Palette.global.resolve g (UInt64.ofNat (id.toNat % 2 ^ g.bits)))) := by
  obtain ⟨e₁, e₂, hpack⟩ := pack_of_encode hclean hmany h
  have h64 : g.bits ≤ 64 := Nat.le_trans g.bits_le (by decide)
  obtain ⟨-, hpalette, -, hlen, -, -, hentries⟩ := pack_shape h64 hpack
  obtain ⟨id, x, hid, hget, hx⟩ := hentries i hi
  refine ⟨id, hid, ?_⟩
  rw [PalettedSection.get_of_entry (hlen ▸ hi) hget, hpalette, ← hx, UInt64.ofNat_toNat]

/-- The number of an entry is an id or too large for one. -/
theorem resolve_global_cases (g : GlobalPalette) (x : UInt64) :
    (∃ v ∈ g.ordinals, Palette.global.resolve g x = .ok v) ∨
      g.size ≤ x.toNat ∧ Palette.global.resolve g x = .error (.paletteIndexOutOfRange x g.size) := by
  have htable := Palette.resolve_of_table (p := .global) (g := g) rfl x
  by_cases hx : x.toNat < g.ordinals.size
  · rw [Array.getElem?_eq_getElem hx] at htable
    exact .inl ⟨_, Array.getElem_mem hx, htable⟩
  · rw [Array.getElem?_eq_none (Nat.le_of_not_lt hx)] at htable
    exact .inr ⟨Nat.le_of_not_lt hx, htable⟩

/-- An ordinal comes back exactly if it stands for an id that is not cut. -/
theorem get_global_iff (hclean : e.IsClean) (hmany : 256 < blocks.storedPalette.length)
    (h : e.encode blocks g s = .ok (encoded, e') t) (hi : i < sectionBlocks) :
    encoded.get g i = pure blocks.cells[i].stored ↔
      blocks.cells[i].stored ∈ g.ordinals ∧ g.IdFits blocks.cells[i].stored := by
  obtain ⟨id, hid, hget⟩ := get_of_encode hclean hmany h hi
  rw [hget, Checked.mk_eq_pure_iff, GlobalPalette.resolve_iff hid, GlobalPalette.idFits_iff_lt hid]

/-- What an entry reads is an ordinal, or an error. -/
theorem get_global_cases (hclean : e.IsClean) (hmany : 256 < blocks.storedPalette.length)
    (h : e.encode blocks g s = .ok (encoded, e') t) (hi : i < sectionBlocks) :
    (∃ v ∈ g.ordinals, encoded.get g i = pure v) ∨
      ∃ x, g.size ≤ x.toNat ∧ encoded.get g i = throw (.paletteIndexOutOfRange x g.size) := by
  obtain ⟨id, -, hget⟩ := get_of_encode hclean hmany h hi
  rw [hget]
  rcases resolve_global_cases g (UInt64.ofNat (id.toNat % 2 ^ g.bits)) with ⟨v, hv, hresolve⟩ | ⟨hx, hresolve⟩
  · exact .inl ⟨v, hv, by rw [hresolve]; rfl⟩
  · exact .inr ⟨_, hx, by rw [hresolve]; rfl⟩

/-- With one id too many the ids take no bits, and every entry of a section that needs them reads the first ordinal. -/
theorem encode_wrapping (hclean : e.IsClean) (hfits : e.Fits blocks .wrapping)
    (hmany : 256 < blocks.storedPalette.length) (s : Session) :
    ∃ encoded e' t, e.encode blocks .wrapping s = .ok (encoded, e') t ∧ encoded.palette = .global ∧
      encoded.data.bits = 0 ∧ ∀ i, i < sectionBlocks → encoded.get .wrapping i = pure 0 := by
  obtain ⟨encoded, e', t, hrun⟩ :=
    encode_returns_of_covers hclean hfits (fun _ => GlobalPalette.covers_wrapping blocks.storedPalette) s
  obtain ⟨e₁, e₂, hpack⟩ := pack_of_encode hclean hmany hrun
  obtain ⟨-, hpalette, -, -, hbits, -⟩ := pack_shape (Nat.le_trans (GlobalPalette.bits_le _) (by decide)) hpack
  refine ⟨encoded, e', t, hrun, hpalette, hbits.trans GlobalPalette.bits_wrapping, fun i hi => ?_⟩
  obtain ⟨id, -, hget⟩ := get_of_encode hclean hmany hrun hi
  rw [hget, GlobalPalette.bits_wrapping, Nat.pow_zero, Nat.mod_one, Checked.mk_eq_pure_iff, Palette.resolve,
    GlobalPalette.ordinalOf_wrapping _ (Nat.zero_le _)]
  rfl

theorem mapsBack_idsBelow {m n : UInt32} (h : m ≤ n) :
    MapsBack (GlobalPalette.ordinalsBelow n) (GlobalPalette.ordinalsBelow m) := by
  intro id hid
  have hback := GlobalPalette.mapsBack_ordinalsBelow n id
  have hle := UInt32.le_iff_toNat_le.1 h
  simp only [GlobalPalette.size_ordinalsBelow, GlobalPalette.getElem_ordinalsBelow] at hid hback ⊢
  exact hback (by omega)

/-- The ids are the ordinals below `m`. The table knows the ordinals below `n`, each as its own id. -/
def idsBelow (m n : UInt32) (h : m ≤ n) : GlobalPalette where
  ids := GlobalPalette.ordinalsBelow n
  ordinals := GlobalPalette.ordinalsBelow m
  nonempty := (GlobalPalette.identity m).nonempty
  mapsBack := mapsBack_idsBelow h

section

variable {m n : UInt32} {h : m ≤ n}

theorem size_idsBelow : (idsBelow m n h).size = max m.toNat 1 := GlobalPalette.size_ordinalsBelow m

theorem getElem?_idsBelow {k : Nat} (hk : k < max m.toNat 1) :
    (idsBelow m n h).ordinals[k]? = some (UInt32.ofNat k) := by
  have hlt : k < (idsBelow m n h).ordinals.size := by
    rwa [← GlobalPalette.size, size_idsBelow]
  rw [Array.getElem?_eq_getElem hlt]
  exact congrArg some (GlobalPalette.getElem_ordinalsBelow m k hlt)

theorem idOf_idsBelow {v : BlockState} (hv : v < n) : (idsBelow m n h).idOf v = .ok v :=
  GlobalPalette.idOf_identity hv

end

/-- No ordinal stands for two ids of a palette if and only if these are 32-bit numbers. The ordinal of an id leads back
to it, as a 32-bit number. Of a section that is stored in global ids, an entry reads the ordinal of its block if and
only if that stands for an id, and the id is not cut to the width that the palette gives its ids. For any other block
the entry reads some other ordinal, or is reported as out of the range of the ids. As long as the ids are 32-bit numbers
none is cut, and otherwise all are kept only if they have the width of 32-bit numbers. -/
theorem global_get_iff (g : GlobalPalette) :
    (g.ordinals.toList.Nodup ↔ g.size ≤ UInt32.size) ∧
      (∀ id : UInt64, id.toNat < g.size → ∃ v x, g.ordinalOf id = some v ∧ g.idOf v = .ok x ∧
        x.toNat = id.toNat % UInt32.size ∧ (g.size ≤ UInt32.size → x.toNat = id.toNat)) ∧
      ((∀ v ∈ g.ordinals, g.IdFits v) ↔ g.size ≤ UInt32.size ∨ g.bits = 32) ∧
      ∀ (e e' : Encoder) (blocks : SectionArray) (encoded : PalettedSection) (s t : Session), e.IsClean →
        256 < blocks.storedPalette.length → e.encode blocks g s = .ok (encoded, e') t →
        ∀ i (hi : i < sectionBlocks),
          (encoded.get g i = pure blocks.cells[i].stored ↔
            blocks.cells[i].stored ∈ g.ordinals ∧ g.IdFits blocks.cells[i].stored) ∧
          (g.size ≤ UInt32.size →
            (encoded.get g i = pure blocks.cells[i].stored ↔ blocks.cells[i].stored ∈ g.ordinals)) ∧
          (encoded.get g i ≠ pure blocks.cells[i].stored →
            (∃ v, v ≠ blocks.cells[i].stored ∧ encoded.get g i = pure v) ∨
              ∃ x, g.size ≤ x.toNat ∧ encoded.get g i = throw (.paletteIndexOutOfRange x g.size)) := by
  refine ⟨GlobalPalette.nodup_ordinals_iff, fun id hid => ?_, GlobalPalette.idFits_iff, ?_⟩
  · obtain ⟨v, x, hv, hx, hmod⟩ := GlobalPalette.idOf_ordinalOf hid
    refine ⟨v, x, hv, hx, hmod, fun hsize => ?_⟩
    rw [hmod, Nat.mod_eq_of_lt (Nat.lt_of_lt_of_le hid hsize)]
  intro e e' blocks encoded s t hclean hmany h i hi
  have hread := get_global_iff hclean hmany h hi
  refine ⟨hread, fun hsize => ?_, fun hlost => ?_⟩
  · rw [hread]
    exact and_iff_left_of_imp (GlobalPalette.idFits_of_size hsize)
  · rcases get_global_cases hclean hmany h hi with ⟨v, -, hv⟩ | hout
    · refine .inl ⟨v, ?_, hv⟩
      rintro rfl
      exact hlost hv
    · exact .inr hout

/-- An ordinal with an id comes back. The number in the table for any other is cut to eight bits. It is then out of
range, or the id of another ordinal. -/
theorem global_get_iff_idsBelow :
    ∃ encoded e' t, (create 300).encode manyStates (idsBelow 200 300 (by decide)) {} = .ok (encoded, e') t ∧
      encoded.get (idsBelow 200 300 (by decide)) 100 = pure 100 ∧
      encoded.get (idsBelow 200 300 (by decide)) 210 = throw (.paletteIndexOutOfRange 210 200) ∧
      encoded.get (idsBelow 200 300 (by decide)) 260 = pure 4 := by
  have hsize : (idsBelow 200 300 (by decide)).size = 200 := size_idsBelow.trans (by decide)
  have hordinals : ∀ k, k < 200 → (idsBelow 200 300 (by decide)).ordinals[k]? = some (UInt32.ofNat k) := by
    intro k hk
    exact getElem?_idsBelow (Nat.lt_of_lt_of_eq hk (by decide))
  have hidOf : ∀ v, v < 300 → (idsBelow 200 300 (by decide)).idOf v = .ok v := fun v hv => idOf_idsBelow hv
  -- nothing else about the tables is used
  generalize idsBelow 200 300 (by decide) = g at hsize hordinals hidOf ⊢
  have hbits : g.bits = 8 := by
    rw [GlobalPalette.bits, hsize]
    decide
  have hready := ready_create 300
  have hids : ∀ v ∈ manyStates.storedPalette, v.toNat < g.ids.size := by
    intro v hv
    exact GlobalPalette.idOf_returns_iff.1 ⟨v, hidOf v (manyStates_inRegistry.lt_of_mem (by decide) hv)⟩
  obtain ⟨encoded, e', t, hrun⟩ := (encode_returns_iff (s := {}) hready.clean).2
    ⟨hready.fits manyStates_inRegistry (by decide) g, fun _ => hids⟩
  have hread : ∀ i (hi : i < sectionBlocks) (r : Except StoreError UInt32), 0 < i → i < 300 →
      Palette.global.resolve g (UInt64.ofNat (i % 2 ^ 8)) = r → encoded.get g i = ExceptT.mk (.ok r) := by
    intro i hi r hpos hlt hr
    obtain ⟨id, hid, hget⟩ := get_of_encode hready.clean length_storedPalette_manyStates hrun hi
    rw [hidOf _ (BlockState.stored_lt (manyStates_inRegistry.cells i hi) (by decide)), Except.ok.injEq] at hid
    rw [hget, ← hid, stored_manyStates hi hpos hlt, toNat_ofNat_of_lt_300 hlt, hbits, hr]
  obtain ⟨-, -, -, hentry⟩ := global_get_iff g
  have hknown : UInt32.ofNat 100 ∈ g.ordinals := Array.mem_of_getElem? (hordinals 100 (by decide))
  have hiff := (hentry _ _ _ _ _ _ hready.clean length_storedPalette_manyStates hrun 100 (by decide)).2.1
    (hsize.trans_le (by decide))
  rw [stored_manyStates (by decide) (by decide) (by decide)] at hiff
  have hnone : g.ordinals[210]? = none := Array.getElem?_eq_none (hsize.trans_le (by decide))
  have hstray : Palette.global.resolve g 210 = .error (.paletteIndexOutOfRange 210 200) := by
    simp [Palette.resolve, GlobalPalette.ordinalOf, hnone, hsize]
  have hother : Palette.global.resolve g 4 = .ok 4 := by
    simp [Palette.resolve, GlobalPalette.ordinalOf, hordinals 4 (by decide)]
  exact ⟨encoded, e', t, hrun, hiff.2 hknown, hread 210 (by decide) _ (by decide) (by decide) hstray,
    hread 260 (by decide) _ (by decide) (by decide) hother⟩

/-- With `2 ^ 32 + 1` ids two of them have one ordinal, the last does not come back from its ordinal, and of a section
that is stored in global ids an entry reads another ordinal, although that of its block stands for an id. -/
theorem global_get_wrapping :
    ¬GlobalPalette.wrapping.ordinals.toList.Nodup ∧
      (4294967296 < GlobalPalette.wrapping.size ∧ GlobalPalette.wrapping.ordinalOf 4294967296 = some 0 ∧
        GlobalPalette.wrapping.idOf 0 = .ok 0) ∧
      ∃ encoded e' t, (create 300).encode manyStates .wrapping {} = .ok (encoded, e') t ∧
        manyStates.cells[299].stored = 299 ∧ 299 ∈ GlobalPalette.wrapping.ordinals ∧
        encoded.get .wrapping 299 = pure 0 := by
  have hready := ready_create 300
  obtain ⟨encoded, e', t, hrun, -, -, hget⟩ := encode_wrapping hready.clean
    (hready.fits manyStates_inRegistry (by decide) .wrapping) length_storedPalette_manyStates {}
  have hsize := GlobalPalette.size_wrapping
  refine ⟨fun hnodup => ?_, ⟨?_, GlobalPalette.ordinalOf_wrapping _ (by decide), GlobalPalette.idOf_wrapping 0⟩,
    encoded, e', t, hrun, stored_manyStates (by decide) (by decide) (by decide), ?_, hget 299 (by decide)⟩
  · have hle := GlobalPalette.nodup_ordinals_iff.1 hnodup
    rw [hsize] at hle
    exact Nat.not_succ_le_self _ hle
  · rw [hsize]
    decide
  · exact GlobalPalette.covers_wrapping [299] 299 List.mem_cons_self

end Encoder

end VoxelStore
