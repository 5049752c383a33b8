import VoxelStore.Proofs.Palette.Alike
import VoxelStore.Proofs.Requests
/-!
# Edits of two sessions

Alike edits have the same side data and alike columns. They give alike replies to every read, and stay alike
under every operation, which gives the same back or faults in the same way (`Op.Alike.serve`): where a
column grows the other grows by as much, and the side data follow.
-/

namespace VoxelStore

namespace Edit

variable {P : WidthPairing}

/-- The edits differ in their columns at most, which are alike. -/
inductive Alike (P : WidthPairing) (e : Edit) : Edit → Prop
  | intro {c : Column} : e.column.Alike P c → Alike P e { e with column := c }

variable {e e' : Edit}

theorem Alike.column (h : e.Alike P e') : e.column.Alike P e'.column := by
  cases h with
  | intro hc => exact hc

theorem Alike.isEmpty (h : e.Alike P e') : e'.isEmpty = e.isEmpty := by
  cases h with
  | intro hc => rw [Edit.isEmpty, Edit.isEmpty, hc.isEmpty]

theorem Alike.biomes? (h : e.Alike P e') (layer : Int) : e'.biomes? layer = e.biomes? layer := by
  cases h with
  | intro hc => rw [Edit.biomes?, Edit.biomes?, hc.offset?]

theorem Alike.lightLayer? (h : e.Alike P e') (kind : LightKind) (layer : Int) :
    e'.lightLayer? kind layer = e.lightLayer? kind layer := by
  cases h with
  | intro hc =>
    rw [Edit.lightLayer?, Edit.lightLayer?, hc.offset?]
    cases kind <;> rfl

theorem Read.answer_alike (r : Read) (h : e.Alike P e') : (r.answer e).Alike P (r.answer e') := by
  cases r with
  | column r => exact r.answer_alike h.column
  | getBiome p => exact .of_eq rfl (by rw [answer, answer, Edit.getBiome, Edit.getBiome, h.biomes?])
  | biomes layer => exact .of_eq rfl (by rw [answer, answer, h.biomes?])
  | hasBiomes layer => exact .of_eq rfl (by rw [answer, answer, Edit.hasBiomes, Edit.hasBiomes, h.biomes?])
  | getLight kind p => exact .of_eq rfl (by rw [answer, answer, Edit.getLight, Edit.getLight, h.lightLayer?])
  | lightLayer kind layer => exact .of_eq rfl (by rw [answer, answer, h.lightLayer?])
  | isEmpty => exact .of_eq rfl (by rw [answer, answer, h.isEmpty])
  | _ =>
    -- these are read from the side data
    cases h with
    | intro _ => exact .same rfl

/-! ## Operations -/

theorem create_alike (bottom top : Int) :
    Run.Alike P.Sessions (Alike P) (create bottom top) (create bottom top) :=
  (Column.create_alike WidthPairing.shared_reserved bottom top).bind fun _ _ hc => .pure (.intro hc)

theorem reach_alike (h : e.Alike P e') (layer : Int) :
    Run.Alike P.Sessions (Alike P) (e.reach layer) (e'.reach layer) := by
  cases h with
  | intro hc =>
    refine (Column.extendTo_alike hc layer).bind ?_
    rintro ⟨growth, c₁⟩ ⟨growth', c₁'⟩ ⟨hgrowth, h₁⟩
    cases hgrowth
    cases growth with
    | none => exact .pure (.intro h₁)
    | some g => exact .pure (.intro h₁)

theorem onColumn_alike {f f' : Column → Run Column} (h : e.Alike P e') (layer : Int)
    (hf : ∀ c c', c.Alike P c' → Run.Alike P.Sessions (Column.Alike P) (f c) (f' c')) :
    Run.Alike P.Sessions (Alike P) (e.onColumn layer f) (e'.onColumn layer f') := by
  refine (reach_alike h layer).bind fun e₁ e₁' h₁ => ?_
  cases h₁ with
  | intro hc => exact (hf _ _ hc).bind fun _ _ hc' => .pure (.intro hc')

theorem replaceBlocks_alike {data data' : Option SectionArray} (h : e.Alike P e') (layer : Int)
    (hdata : Option.Rel (SectionArray.Alike P) data data') :
    Run.Alike P.Sessions (fun p q => Option.Rel (SectionArray.Alike P) p.1 q.1 ∧ p.2.Alike P q.2)
      (e.replaceBlocks layer data) (e'.replaceBlocks layer data') := by
  refine (reach_alike h layer).bind fun e₁ e₁' h₁ => ?_
  cases h₁ with
  | intro hc =>
    exact (Column.replaceBlocks_alike hc layer hdata).bind fun _ _ hpq => .pure ⟨hpq.1, .intro hpq.2⟩

theorem sectionLock_alike (h : e.Alike P e') (layer : Int) :
    Run.Alike P.Sessions (Alike P) (Prod.snd <$> e.sectionLock layer) (Prod.snd <$> e'.sectionLock layer) := by
  rw [sectionLock_eq_onColumn, sectionLock_eq_onColumn]
  exact onColumn_alike h layer fun _ _ hc => (Column.sectionLock_alike hc layer).map fun _ _ hpq => hpq

theorem setBiome_alike (h : e.Alike P e') (p : Position) (biome : Biome) :
    Run.Alike P.Sessions (Alike P) (e.setBiome p biome) (e'.setBiome p biome) := by
  refine (reach_alike h p.layer).bind fun e₁ e₁' h₁ => ?_
  cases h₁ with
  | intro hc =>
    simp only [layerCount, offset, hc.size, hc.bottom]
    exact .pure (.intro hc)

theorem updateLight_alike (h : e.Alike P e') (kind : LightKind) (layer : Int)
    (change : Vector UInt8 sectionBlocks → Vector UInt8 sectionBlocks) :
    Run.Alike P.Sessions (Alike P) (e.updateLight kind layer change) (e'.updateLight kind layer change) := by
  refine (reach_alike h layer).bind fun e₁ e₁' h₁ => ?_
  cases h₁ with
  | intro hc =>
    simp only [layerCount, offset, hc.size, hc.bottom]
    cases kind with
    | block => exact .pure (.intro hc)
    | sky => exact .pure (.intro hc)

theorem setLight_alike (h : e.Alike P e') (kind : LightKind) (p : Position) (value : UInt8) :
    Run.Alike P.Sessions (Alike P) (e.setLight kind p value) (e'.setLight kind p value) := by
  unfold setLight
  split
  · exact .throw _
  · exact updateLight_alike h kind p.layer _

theorem setLightLayer_alike (h : e.Alike P e') (kind : LightKind) (layer : Int) (light : Array UInt8) :
    Run.Alike P.Sessions (Alike P) (e.setLightLayer kind layer light) (e'.setLightLayer kind layer light) := by
  unfold setLightLayer
  split
  · exact updateLight_alike h kind layer _
  · exact .throw _

theorem removeLighting_alike (h : e.Alike P e') (layer : Int) (sky : Bool) :
    Run.Alike P.Sessions (Alike P) (e.removeLighting layer sky) (e'.removeLighting layer sky) := by
  refine (updateLight_alike h .block layer _).bind fun e₁ e₁' h₁ => ?_
  cases sky with
  | false => exact .pure h₁
  | true => exact updateLight_alike h₁ .sky layer _

theorem setFullBright_alike (h : e.Alike P e') (layer : Int) :
    Run.Alike P.Sessions (Alike P) (e.setFullBright layer) (e'.setFullBright layer) :=
  (updateLight_alike h .block layer _).bind fun _ _ h₁ => updateLight_alike h₁ .sky layer _

theorem setTile_alike (h : e.Alike P e') (p : Position) (tile : Tag) :
    Run.Alike P.Sessions (Alike P) (e.setTile p tile) (e'.setTile p tile) := by
  refine (reach_alike h p.layer).bind fun e₁ e₁' h₁ => ?_
  cases h₁ with
  | intro hc => exact .pure (.intro hc)

theorem reset_alike (h : e.Alike P e') : e.reset.Alike P e'.reset := by
  cases h with
  | intro hc => exact .intro (Column.reset_alike hc)

theorem copy_alike (h : e.Alike P e') : Run.Alike P.Sessions (Alike P) e.copy e'.copy := by
  cases h with
  | intro hc => exact (Column.copy_alike hc).bind fun _ _ hc' => .pure (.intro hc')

namespace Op

/-- The operation puts blocks into the column. -/
def PutsBlocks : Op → Prop
  | write .. | setBlocks .. | replaceBlocks .. | fillSection .. | setBlock .. => True
  | _ => False

/-- The same operation, with arrays that are alike where it brings any. -/
inductive Alike (P : WidthPairing) : Op → Op → Prop
  | write (layer : Int) {writes writes' : List ArrayWrite} :
    List.Forall₂ (ArrayWrite.Alike P) writes writes' → Alike P (.write layer writes) (.write layer writes')
  | setBlocks (layer : Int) {data data' : Option SectionArray} :
    Option.Rel (SectionArray.Alike P) data data' → Alike P (.setBlocks layer data) (.setBlocks layer data')
  | replaceBlocks (layer : Int) {data data' : Option SectionArray} :
    Option.Rel (SectionArray.Alike P) data data' → Alike P (.replaceBlocks layer data) (.replaceBlocks layer data')
  | fillSection (layer : Int) {value : BlockState} :
    P.Shared value → Alike P (.fillSection layer value) (.fillSection layer value)
  | setBlock (p : Position) {value : BlockState} :
    P.Shared value → Alike P (.setBlock p value) (.setBlock p value)
  | same {op : Op} : ¬op.PutsBlocks → Alike P op op

theorem alike_refl {w : ArrayWidth} (op : Op) : Alike (.equal w) op op := by
  have hshared := WidthPairing.shared_equal w
  cases op with
  | write layer writes => exact .write layer (List.forall₂_same.2 fun x _ => x.alike_refl)
  | setBlocks layer data => exact .setBlocks layer (SectionArray.alike_refl_option data)
  | replaceBlocks layer data => exact .replaceBlocks layer (SectionArray.alike_refl_option data)
  | fillSection layer value => exact .fillSection layer (hshared value)
  | setBlock p value => exact .setBlock p (hshared value)
  | _ => exact .same fun h => h

/-- Alike operations on alike edits give the same back, or fault in the same way, and leave alike edits. -/
theorem Alike.serve {op op' : Op} (hop : Alike P op op') (h : e.Alike P e') :
    Run.Alike P.Sessions (fun p q => p.1.Alike P q.1 ∧ p.2.Alike P q.2) (op.serve e) (op'.serve e') := by
  cases hop with
  | write layer hwrites =>
    refine Run.Alike.bind ?_ fun e₁ e₁' h₁ => .pure ⟨Reply.alike_array (h₁.column.peek layer), h₁⟩
    exact onColumn_alike h layer fun _ _ hc =>
      Column.modifyLayer_alike hc layer fun _ _ => ArrayWrite.runAll_alike hwrites
  | setBlocks layer hdata => exact Reply.done_alike ((replaceBlocks_alike h layer hdata).map fun _ _ hpq => hpq.2)
  | replaceBlocks layer hdata =>
    exact (replaceBlocks_alike h layer hdata).bind fun _ _ hpq => .pure ⟨Reply.alike_array hpq.1, hpq.2⟩
  | fillSection layer hv =>
    exact Reply.done_alike (onColumn_alike h layer fun _ _ hc => Column.fillSection_alike hc layer hv)
  | setBlock p hv => exact Reply.done_alike (onColumn_alike h p.layer fun _ _ hc => Column.setBlock_alike hc p hv)
  | same hputs =>
    cases op with
    | trimAll =>
      cases h with
      | intro hc =>
        refine .pure ⟨?_, .intro (Column.trimAll_alike hc)⟩
        rw [Edit.trimAll, Edit.trimAll, hc.trimAll_count]
        exact .same rfl
    | sectionLock layer => exact Reply.done_alike (sectionLock_alike h layer)
    | setBiome p biome => exact Reply.done_alike (setBiome_alike h p biome)
    | setLight kind p value => exact Reply.done_alike (setLight_alike h kind p value)
    | setLightLayer kind layer light => exact Reply.done_alike (setLightLayer_alike h kind layer light)
    | removeLighting layer sky => exact Reply.done_alike (removeLighting_alike h layer sky)
    | setFullBright layer => exact Reply.done_alike (setFullBright_alike h layer)
    | setTile p tile => exact Reply.done_alike (setTile_alike h p tile)
    | reset => exact Reply.done_alike (.pure (reset_alike h))
    | copy => exact Reply.done_alike (copy_alike h)
    | write | setBlocks | replaceBlocks | fillSection | setBlock => exact absurd trivial hputs
    | _ =>
      cases h with
      | intro hc => exact Reply.done_alike (.pure (.intro hc))

end Op

/-- Requests that bring arrays of their own are answered by edits that differ in their spares only as if
they were the same edit. -/
theorem Request.serve_alike {w : ArrayWidth} (r : Request) (h : e.Alike (.equal w) e') :
    Run.Alike (WidthPairing.equal w).Sessions (fun p q => p.1 = q.1 ∧ p.2.Alike (.equal w) q.2)
      (r.serve e) (r.serve e') := by
  cases r with
  | read r => exact .pure ⟨(r.answer_alike h).eq, h⟩
  | change op => exact (op.alike_refl.serve h).mono fun _ _ hpq => ⟨hpq.1.eq, hpq.2⟩
  | encode encoder layer g =>
    refine (Encoder.encodeLayer_alike (WidthPairing.logFree_sessions _) encoder.alike_refl h.column layer g).bind
      fun p q hpq => .pure ⟨?_, h⟩
    rw [PalettedSection.eq_of_alike hpq.1]

end Edit

end VoxelStore
