import VoxelStore.Proofs.Requests
import VoxelStore.Proofs.SectionArray.Widths
/-!
# Columns of two sessions

Two columns are alike when their layers are: the same tag, the same value, arrays that are alike. Spares
need to agree in one thing only, the width of the array that they are filled to, and a layer without a spare
counts as having one of the width of the session. Alike columns give alike replies to every read
(`Read.answer_alike`), and stay alike under every operation, which gives the same back or faults in the same
way (`Op.Alike.serve`).
-/

namespace VoxelStore

variable {P : WidthPairing}

/-! ## Layers -/

namespace Layer

/-- The width of the array that is made in place of a spare, in a session that makes arrays of width `w`. -/
def spareWidth (w : ArrayWidth) (spare : Option SectionArray) : ArrayWidth :=
  (spare.map SectionArray.width).getD w

variable (P) in
def SpareAlike (spare spare' : Option SectionArray) : Prop :=
  P.Pair (spareWidth P.left spare) (spareWidth P.right spare')

variable (P) in
/-- Both layers hold the same, whatever their spares hold. -/
inductive Alike : Layer → Layer → Prop
  | empty {spare spare'} : SpareAlike P spare spare' → Alike (.empty spare) (.empty spare')
  | uniform {v spare spare'} : P.Shared v → SpareAlike P spare spare' →
    Alike (.uniform v spare) (.uniform v spare')
  | present {a b} : a.Alike P b → Alike (.present a) (.present b)

variable {l l' x x' : Layer} {background value : BlockState}

theorem spareAlike_none : SpareAlike P none none := P.pair_sessions

theorem alike_refl {w : ArrayWidth} (l : Layer) : Alike (.equal w) l l := by
  cases l with
  | empty spare => exact .empty rfl
  | uniform v spare => exact .uniform (WidthPairing.shared_equal w v) rfl
  | present a => exact .present (SectionArray.alike_refl a)

theorem Alike.array? (h : l.Alike P l') : SpareAlike P l.array? l'.array? := by
  cases h with
  | empty h => exact h
  | uniform _ h => exact h
  | present h => exact h.width

theorem Alike.state (h : l.Alike P l') : l'.state = l.state := by cases h <;> rfl

theorem Alike.isEmpty (h : l.Alike P l') : l'.isEmpty = l.isEmpty := by cases h <;> rfl

theorem Alike.blocks? (h : l.Alike P l') : Option.Rel (SectionArray.Alike P) l.blocks? l'.blocks? := by
  cases h with
  | empty _ => exact .none
  | uniform _ _ => exact .none
  | present h => exact .some h

theorem Alike.get (h : l.Alike P l') (i : Fin sectionBlocks) : l'.get background i = l.get background i := by
  cases h with
  | empty _ => rfl
  | uniform _ _ => rfl
  | present h => simp only [Layer.get, h.cells]

theorem Alike.cleared (h : l.Alike P l') : l.cleared.Alike P l'.cleared := .empty h.array?

theorem Alike.withoutSpare (h : l.Alike P l') : l.withoutSpare.Alike P l'.withoutSpare := by
  cases h with
  | empty _ => exact .empty spareAlike_none
  | uniform hv _ => exact .uniform hv spareAlike_none
  | present h => exact .present h

theorem filled_alike {spare spare' : Option SectionArray} (hv : P.Shared value)
    (h : SpareAlike P spare spare') :
    (filled background value spare).Alike P (filled background value spare') := by
  unfold filled
  split
  · exact .empty h
  · exact .uniform hv h

/-- Trimming needs the values only, so both layers lose their arrays or none does. -/
theorem Alike.trimmed? (h : l.Alike P l') (background : BlockState) :
    Option.Rel (Alike P) (l.trimmed? background) (l'.trimmed? background) := by
  cases h with
  | empty _ => exact .none
  | uniform _ _ => exact .none
  | @present a b h =>
    simp only [Layer.trimmed?, h.uniform?]
    cases hv : a.uniform? with
    | none => exact .none
    | some v => exact .some (filled_alike (SectionArray.uniform?_shared h hv) h.width)

/-- Refilling forgets what the spare held, and a missing spare is a blank array of the session. -/
theorem refill_alike {spare spare' : Option SectionArray} (hv : P.Shared value)
    (h : SpareAlike P spare spare') :
    Run.Alike P.Sessions (SectionArray.Alike P) (refill value spare) (refill value spare') := by
  have hrefill : ∀ sp, refill value sp =
      ((sp.elim SectionArray.create pure : Run SectionArray) >>= fun a => (liftM (a.setAll value) : Run _)) := by
    intro sp
    cases sp with
    | none => rfl
    | some a => rfl
  have hspare : ∀ sp (s : Session), ∃ a t, (sp.elim SectionArray.create pure : Run SectionArray) s = .ok a t ∧
      a.width = spareWidth s.arrayWidth sp ∧ t.arrayWidth = s.arrayWidth := by
    intro sp s
    cases sp with
    | none =>
      obtain ⟨t, ht, hw⟩ := SectionArray.create_ok s
      exact ⟨_, t, ht, rfl, Session.arrayWidth_of_width hw⟩
    | some a => exact ⟨a, s, rfl, rfl, rfl⟩
  rw [hrefill, hrefill]
  refine Run.Alike.bind (R := fun a b => P.Pair a.width b.width) ?_ fun a b hab =>
    .lift (SectionArray.setAll_alike hab hv)
  refine Run.Alike.of_ok ?_
  rintro s t ⟨hs, ht⟩
  obtain ⟨a, s', ha, hwa, hs'⟩ := hspare spare s
  obtain ⟨b, t', hb, hwb, ht'⟩ := hspare spare' t
  refine ⟨a, s', b, t', ha, hb, ?_, hs'.trans hs, ht'.trans ht⟩
  rw [hwa, hwb, hs, ht]
  exact h

theorem Alike.materialize (h : l.Alike P l') (hb : P.Shared background) :
    Run.Alike P.Sessions (SectionArray.Alike P) (l.materialize background) (l'.materialize background) := by
  cases h with
  | empty h => exact refill_alike hb h
  | uniform hv h => exact refill_alike hv h
  | present h => exact .pure h

end Layer

/-! ## Replies -/

namespace Reply

/-- The array that is given back. -/
def array? : Reply → Option SectionArray
  | array a => a
  | _ => none

variable (P) in
/-- The same reply, or arrays that are alike. -/
inductive Alike : Reply → Reply → Prop
  | same {r} : r.array? = none → Alike r r
  | array {a b} : a.Alike P b → Alike (.array (some a)) (.array (some b))

theorem Alike.of_eq {r r' : Reply} (hr : r.array? = none) (h : r' = r) : r.Alike P r' := by
  rw [h]
  exact .same hr

/-- Of a run that gives nothing back, what it leaves counts. -/
theorem done_alike {α : Type} {R : α → α → Prop} {S : Session → Session → Prop} {x y : Run α}
    (h : Run.Alike S R x y) :
    Run.Alike S (fun p q => p.1.Alike P q.1 ∧ R p.2 q.2) (do return (done, ← x)) (do return (done, ← y)) :=
  h.bind fun _ _ hab => .pure ⟨.same rfl, hab⟩

theorem alike_array {a b : Option SectionArray} (h : Option.Rel (SectionArray.Alike P) a b) :
    (array a).Alike P (array b) := by
  cases h with
  | none => exact .same rfl
  | some h => exact .array h

theorem Alike.eq {w : ArrayWidth} {r r' : Reply} (h : r.Alike (.equal w) r') : r = r' := by
  cases h with
  | same _ => rfl
  | array h => rw [h.eq]

end Reply

namespace Column

variable (P) in
/-- The columns have the same range, and layers that are alike. -/
structure Alike (c c' : Column) : Prop where
  bottom : c'.bottom = c.bottom
  top : c'.top = c.top
  background : c'.background = c.background
  shared : P.Shared c.background
  layer : ∀ k, (c.layer k).Alike P (c'.layer k)

variable {c c' c₁ c₁' : Column} {layer : Int} {x x' : Layer}

theorem alike_refl {w : ArrayWidth} (c : Column) : c.Alike (.equal w) c :=
  ⟨rfl, rfl, rfl, WidthPairing.shared_equal w _, fun _ => Layer.alike_refl _⟩

/-! ## Effects -/

theorem Alike.size (h : c.Alike P c') : c'.slots.size = c.slots.size := by
  have hb := h.bottom
  have ht : c'.bottom + c'.slots.size - 1 = c.bottom + c.slots.size - 1 := h.top
  omega

theorem Alike.extends (h : c.Alike P c') (he : Extends layer c c₁) (he' : Extends layer c' c₁') :
    c₁.Alike P c₁' where
  bottom := by rw [he'.bottom, he.bottom, h.bottom]
  top := by rw [he'.top, he.top, h.top]
  background := by rw [he'.background, he.background, h.background]
  shared := he.background ▸ h.shared
  layer k := by rw [he.layer, he'.layer]; exact h.layer k

theorem Alike.maps {f f' : Layer → Layer} (h : c.Alike P c') (hm : Maps f c c₁) (hm' : Maps f' c' c₁')
    (hf : ∀ l l', l.Alike P l' → (f l).Alike P (f' l')) : c₁.Alike P c₁' where
  bottom := by rw [hm'.bottom, hm.bottom, h.bottom]
  top := by rw [hm'.top, hm.top, h.top]
  background := by rw [hm'.background, hm.background, h.background]
  shared := hm.background ▸ h.shared
  layer k := by rw [hm.layer, hm'.layer]; exact hf _ _ (h.layer k)

/-- A layer is written in both columns or, outside of the range, in neither. -/
theorem Alike.putLayer (h : c.Alike P c') (hx : x.Alike P x') (layer : Int) :
    (c.putLayer layer x).Alike P (c'.putLayer layer x') where
  bottom := by rw [bottom_putLayer, bottom_putLayer, h.bottom]
  top := by rw [top_putLayer, top_putLayer, h.top]
  background := by rw [background_putLayer, background_putLayer, h.background]
  shared := by rw [background_putLayer]; exact h.shared
  layer k := by
    by_cases hmem : c.bottom ≤ layer ∧ layer ≤ c.top
    · rw [layer_putLayer c hmem, layer_putLayer c' (by rwa [h.bottom, h.top])]
      split
      · exact hx
      · exact h.layer k
    · have hnone : c.offset? layer = none := if_neg hmem
      have hnone' : c'.offset? layer = none := if_neg (by rwa [h.bottom, h.top])
      rw [Column.putLayer, Column.putLayer, hnone, hnone']
      exact h.layer k

/-! ## Reads -/

/-- What depends on the layers alone is the same slot by slot. -/
theorem Alike.map_slots {β : Type} {f : Layer → β} (h : c.Alike P c')
    (hf : ∀ l l', Layer.Alike P l l' → f l' = f l) :
    (c'.slots.toList.map fun s => f s.layer) = c.slots.toList.map fun s => f s.layer := by
  have hmap : ∀ d : Column, (d.slots.toList.map fun s => f s.layer) =
      (List.range d.slots.size).map fun i : Nat => f (d.layer (d.bottom + i)) := by
    intro d
    have hd := congrArg (List.map f) d.map_layer_slots
    rwa [List.map_map, List.map_map] at hd
  rw [hmap, hmap, h.size, h.bottom]
  apply List.map_congr_left
  intro i _
  exact hf _ _ (h.layer _)

theorem Alike.state (h : c.Alike P c') (layer : Int) : c'.state layer = c.state layer := (h.layer layer).state

theorem Alike.getBlock (h : c.Alike P c') (p : Position) : c'.getBlock p = c.getBlock p := by
  rw [Column.getBlock, Column.getBlock, h.background]
  exact (h.layer p.layer).get _

theorem Alike.offset? (h : c.Alike P c') (layer : Int) : c'.offset? layer = c.offset? layer := by
  rw [Column.offset?, Column.offset?, h.bottom, h.top]

theorem Alike.isEmpty (h : c.Alike P c') : c'.isEmpty = c.isEmpty := by
  have hall : ∀ d : Column, d.isEmpty = (d.slots.toList.map fun s => s.layer.isEmpty).all id := by
    intro d
    rw [Column.isEmpty, List.all_map, ← Array.all_toList]
    rfl
  rw [hall, hall, h.map_slots fun _ _ hl => hl.isEmpty]

theorem Alike.sectionLayers (h : c.Alike P c') : c'.sectionLayers = c.sectionLayers := by
  have hfilter : ∀ d : Column, d.sectionLayers = (d.slots.toList.map fun s => s.layer.isEmpty).zipIdx.filterMap
      fun (e, i) => if e then none else some (d.bottom + i) := by
    intro d
    rw [List.zipIdx_map, List.filterMap_map]
    rfl
  rw [hfilter, hfilter, h.map_slots fun _ _ hl => hl.isEmpty, h.bottom]

theorem Alike.trimAll_count (h : c.Alike P c') : c'.trimAll.1 = c.trimAll.1 := by
  have hcount : ∀ d : Column, d.trimAll.1 =
      (d.slots.toList.map fun s => (s.layer.trimmed? d.background).isSome).countP id := by
    intro d
    rw [List.countP_map, trimAll, ← Array.countP_toList]
    rfl
  have htrimmed : ∀ l l', Layer.Alike P l l' →
      (l'.trimmed? c.background).isSome = (l.trimmed? c.background).isSome := by
    intro l l' hl
    have hrel := hl.trimmed? c.background
    generalize l.trimmed? c.background = x, l'.trimmed? c.background = x' at hrel
    cases hrel <;> rfl
  rw [hcount, hcount, h.background, h.map_slots htrimmed]

theorem Alike.peek (h : c.Alike P c') (layer : Int) :
    Option.Rel (SectionArray.Alike P) (c.peek layer) (c'.peek layer) := (h.layer layer).blocks?

theorem Read.answer_alike (r : Read) (h : c.Alike P c') : (r.answer c).Alike P (r.answer c') := by
  cases r with
  | range => exact .of_eq rfl (by rw [answer, answer, h.bottom, h.top])
  | layerCount => exact .of_eq rfl (by rw [answer, answer, h.size])
  | background => exact .of_eq rfl (by rw [answer, answer, h.background])
  | offset layer => exact .of_eq rfl (by rw [answer, answer, h.offset?])
  | state layer => exact .of_eq rfl (by rw [answer, answer, h.state])
  | hasSection layer =>
    refine .of_eq rfl ?_
    rw [answer, answer, Column.hasSection, Column.hasSection, (h.layer layer).isEmpty]
  | sectionLayers => exact .of_eq rfl (by rw [answer, answer, h.sectionLayers])
  | isEmpty => exact .of_eq rfl (by rw [answer, answer, h.isEmpty])
  | peek layer => exact Reply.alike_array (h.peek layer)
  | getBlock p => exact .of_eq rfl (by rw [answer, answer, h.getBlock])

/-! ## Operations -/

theorem create_alike {background : BlockState} (hb : P.Shared background) (bottom top : Int) :
    Run.Alike P.Sessions (Alike P) (create bottom top background) (create bottom top background) := by
  by_cases hrange : bottom ≤ top
  · refine Run.Alike.of_ok ?_
    rintro s t ⟨hs, ht⟩
    obtain ⟨c, s', hc⟩ := create_ok background hrange s
    obtain ⟨c', t', hc'⟩ := create_ok background hrange t
    obtain ⟨hbot, htop, hback, hlayer, hw⟩ := create_eq_ok hc
    obtain ⟨hbot', htop', hback', hlayer', hw'⟩ := create_eq_ok hc'
    refine ⟨c, s', c', t', hc, hc', ?_, ?_⟩
    · refine ⟨by rw [hbot, hbot'], by rw [htop, htop'], by rw [hback, hback'], hback ▸ hb, fun k => ?_⟩
      rw [hlayer, hlayer']
      exact .empty Layer.spareAlike_none
    · unfold Session.arrayWidth at hs ht
      exact ⟨by rwa [Session.arrayWidth, hw], by rwa [Session.arrayWidth, hw']⟩
  · have hthrow : create bottom top background = throw (.rangeInverted bottom top) := by
      unfold create
      rw [if_pos (by omega)]
      rfl
    rw [hthrow]
    exact .throw _

theorem sessions_of_width {s t s' t' : Session} (h : P.Sessions s t) (hs : s'.width = s.width)
    (ht : t'.width = t.width) : P.Sessions s' t' := by
  unfold WidthPairing.Sessions Session.arrayWidth at *
  rwa [hs, ht]

theorem extendTo_alike (h : c.Alike P c') (layer : Int) :
    Run.Alike P.Sessions (fun p q => q.1 = p.1 ∧ p.2.Alike P q.2) (c.extendTo layer) (c'.extendTo layer) := by
  have hgrowth : c'.growth? layer = c.growth? layer := by
    rw [growth?, growth?, h.bottom, h.top]
  refine Run.Alike.of_ok ?_
  intro s t hst
  obtain ⟨c₁, s₁, hc, he, hw⟩ := extendTo_ok c layer s
  obtain ⟨c₁', t₁, hc', he', hw'⟩ := extendTo_ok c' layer t
  exact ⟨_, s₁, _, t₁, hc, hc', ⟨hgrowth, h.extends he he'⟩, sessions_of_width hst hw hw'⟩

theorem reach_alike (h : c.Alike P c') (layer : Int) :
    Run.Alike P.Sessions (Alike P) (c.reach layer) (c'.reach layer) :=
  (extendTo_alike h layer).map fun _ _ hpq => hpq.2

theorem load_alike (h : c.Alike P c') (layer : Int) :
    Run.Alike P.Sessions (fun p q => p.1.Alike P q.1 ∧ p.2.Alike P q.2) (c.load layer) (c'.load layer) := by
  refine (reach_alike h layer).bind fun c₁ c₁' h₁ => ?_
  rw [h₁.background]
  refine ((h₁.layer layer).materialize h₁.shared).bind fun a b hab => ?_
  exact .pure ⟨hab, h₁.putLayer (.present hab) layer⟩

theorem modifyLayer_alike {write write' : SectionArray → Except Fault SectionArray} (h : c.Alike P c')
    (layer : Int) (hwrite : ∀ a b, a.Alike P b → ExceptAlike (SectionArray.Alike P) (write a) (write' b)) :
    Run.Alike P.Sessions (Alike P) (c.modifyLayer layer write) (c'.modifyLayer layer write') := by
  refine (load_alike h layer).bind fun p q hpq => ?_
  refine (Run.Alike.lift (hwrite _ _ hpq.1)).bind fun a b hab => ?_
  exact .pure (hpq.2.putLayer (.present hab) layer)

theorem setBlock_alike {value : BlockState} (h : c.Alike P c') (p : Position) (hv : P.Shared value) :
    Run.Alike P.Sessions (Alike P) (c.setBlock p value) (c'.setBlock p value) := by
  unfold setBlock
  rw [h.state]
  split
  · exact .pure h
  · exact modifyLayer_alike h p.layer fun _ _ hab => hab.set hv p.blockIndex

theorem fillSection_alike {value : BlockState} (h : c.Alike P c') (layer : Int) (hv : P.Shared value) :
    Run.Alike P.Sessions (Alike P) (c.fillSection layer value) (c'.fillSection layer value) := by
  refine (reach_alike h layer).bind fun c₁ c₁' h₁ => ?_
  rw [h₁.background]
  exact .pure (h₁.putLayer (Layer.filled_alike hv (h₁.layer layer).array?) layer)

theorem replaceBlocks_alike {data data' : Option SectionArray} (h : c.Alike P c') (layer : Int)
    (hdata : Option.Rel (SectionArray.Alike P) data data') :
    Run.Alike P.Sessions (fun p q => Option.Rel (SectionArray.Alike P) p.1 q.1 ∧ p.2.Alike P q.2)
      (c.replaceBlocks layer data) (c'.replaceBlocks layer data') := by
  refine (reach_alike h layer).bind fun c₁ c₁' h₁ => .pure ⟨h₁.peek layer, ?_⟩
  cases hdata with
  | none => exact h₁.putLayer (.empty Layer.spareAlike_none) layer
  | some hab => exact h₁.putLayer (.present hab) layer

theorem trim_alike (h : c.Alike P c') (layer : Int) :
    (c'.trim layer).1 = (c.trim layer).1 ∧ (c.trim layer).2.Alike P (c'.trim layer).2 := by
  unfold trim
  rw [h.background]
  have hrel := (h.layer layer).trimmed? c.background
  generalize (c.layer layer).trimmed? c.background = x, (c'.layer layer).trimmed? c.background = x' at hrel
  cases hrel with
  | none => exact ⟨rfl, h⟩
  | some hxx => exact ⟨rfl, h.putLayer hxx layer⟩

theorem trimAll_alike (h : c.Alike P c') : c.trimAll.2.Alike P c'.trimAll.2 := by
  refine h.maps (maps_trimAll c) (maps_trimAll c') fun l l' hl => ?_
  have hrel := hl.trimmed? c.background
  rw [h.background]
  generalize l.trimmed? c.background = x, l'.trimmed? c.background = x' at hrel
  cases hrel with
  | none => exact hl
  | some hxx => exact hxx

theorem reset_alike (h : c.Alike P c') : c.reset.Alike P c'.reset :=
  h.maps (maps_reset c) (maps_reset c') fun _ _ hl => hl.cleared

theorem sectionLock_alike (h : c.Alike P c') (layer : Int) :
    Run.Alike P.Sessions (fun p q => p.2.Alike P q.2) (c.sectionLock layer) (c'.sectionLock layer) := by
  refine Run.Alike.of_ok ?_
  intro s t hst
  obtain ⟨lock, c₁, s₁, hc, he, hw⟩ := sectionLock_ok c layer s
  obtain ⟨lock', c₁', t₁, hc', he', hw'⟩ := sectionLock_ok c' layer t
  exact ⟨_, s₁, _, t₁, hc, hc', h.extends he he', sessions_of_width hst hw hw'⟩

theorem copy_alike (h : c.Alike P c') : Run.Alike P.Sessions (Alike P) c.copy c'.copy := by
  refine Run.Alike.of_ok ?_
  intro s t hst
  obtain ⟨c₁, s₁, hc, hm, hw⟩ := copy_ok c s
  obtain ⟨c₁', t₁, hc', hm', hw'⟩ := copy_ok c' t
  exact ⟨_, s₁, _, t₁, hc, hc', h.maps hm hm' fun _ _ hl => hl.withoutSpare, sessions_of_width hst hw hw'⟩

namespace Op

/-- The same operation, with arrays that are alike where it brings any. -/
inductive Alike (P : WidthPairing) : Op → Op → Prop
  | extendTo (layer : Int) : Alike P (.extendTo layer) (.extendTo layer)
  | setBlock (p : Position) {value : BlockState} :
    P.Shared value → Alike P (.setBlock p value) (.setBlock p value)
  | fillSection (layer : Int) {value : BlockState} :
    P.Shared value → Alike P (.fillSection layer value) (.fillSection layer value)
  | write (layer : Int) {writes writes' : List ArrayWrite} :
    List.Forall₂ (ArrayWrite.Alike P) writes writes' → Alike P (.write layer writes) (.write layer writes')
  | setBlocks (layer : Int) {data data' : Option SectionArray} :
    Option.Rel (SectionArray.Alike P) data data' → Alike P (.setBlocks layer data) (.setBlocks layer data')
  | replaceBlocks (layer : Int) {data data' : Option SectionArray} :
    Option.Rel (SectionArray.Alike P) data data' → Alike P (.replaceBlocks layer data) (.replaceBlocks layer data')
  | trim (layer : Int) : Alike P (.trim layer) (.trim layer)
  | trimAll : Alike P .trimAll .trimAll
  | sectionLock (layer : Int) : Alike P (.sectionLock layer) (.sectionLock layer)
  | reset : Alike P .reset .reset
  | copy : Alike P .copy .copy

theorem alike_refl {w : ArrayWidth} (op : Op) : Alike (.equal w) op op := by
  have hshared := WidthPairing.shared_equal w
  cases op with
  | extendTo layer => exact .extendTo layer
  | setBlock p value => exact .setBlock p (hshared value)
  | fillSection layer value => exact .fillSection layer (hshared value)
  | write layer writes => exact .write layer (List.forall₂_same.2 fun x _ => x.alike_refl)
  | setBlocks layer data => exact .setBlocks layer (SectionArray.alike_refl_option data)
  | replaceBlocks layer data => exact .replaceBlocks layer (SectionArray.alike_refl_option data)
  | trim layer => exact .trim layer
  | trimAll => exact .trimAll
  | sectionLock layer => exact .sectionLock layer
  | reset => exact .reset
  | copy => exact .copy

/-- Alike operations on alike columns give the same back, or fault in the same way, and leave alike
columns. -/
theorem Alike.serve {op op' : Op} (hop : Alike P op op') (h : c.Alike P c') :
    Run.Alike P.Sessions (fun p q => p.1.Alike P q.1 ∧ p.2.Alike P q.2) (op.serve c) (op'.serve c') := by
  cases hop with
  | extendTo layer =>
    refine (extendTo_alike h layer).bind fun p q hpq => .pure ⟨?_, hpq.2⟩
    rw [hpq.1]
    exact .same rfl
  | setBlock p hv => exact Reply.done_alike (setBlock_alike h p hv)
  | fillSection layer hv => exact Reply.done_alike (fillSection_alike h layer hv)
  | write layer hwrites =>
    refine Run.Alike.bind ?_ fun c₁ c₁' h₁ => .pure ⟨Reply.alike_array (h₁.peek layer), h₁⟩
    exact modifyLayer_alike h layer fun _ _ => ArrayWrite.runAll_alike hwrites
  | setBlocks layer hdata => exact Reply.done_alike ((replaceBlocks_alike h layer hdata).map fun _ _ hpq => hpq.2)
  | replaceBlocks layer hdata =>
    exact (replaceBlocks_alike h layer hdata).bind fun p q hpq => .pure ⟨Reply.alike_array hpq.1, hpq.2⟩
  | trim layer =>
    obtain ⟨hflag, htrim⟩ := trim_alike h layer
    refine .pure ⟨?_, htrim⟩
    rw [hflag]
    exact .same rfl
  | trimAll =>
    refine .pure ⟨?_, trimAll_alike h⟩
    rw [h.trimAll_count]
    exact .same rfl
  | sectionLock layer => exact Reply.done_alike ((sectionLock_alike h layer).map fun _ _ hpq => hpq)
  | reset => exact Reply.done_alike (.pure (reset_alike h))
  | copy => exact Reply.done_alike (copy_alike h)

end Op

end Column

end VoxelStore
