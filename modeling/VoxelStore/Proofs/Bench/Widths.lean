import VoxelStore.Proofs.Bench.Commands
import VoxelStore.Proofs.Edit.Alike
/-!
# The width of the cells cannot be observed

Two benches are alike when alike objects of one kind lie under each name. A command that brings ordinals of
at most 16 bits, and no array from outside of the bench, gives alike replies on both and leaves them alike
(`Command.serve_alike`). Hence a list of such commands has the same replies in a session with narrow cells
as in one with wide cells, but for the widths of the arrays that are given back
(`width_unobservable`).
-/

namespace VoxelStore

variable {P : WidthPairing}

/-! ## Ordinals of 16 bits -/

/-- The write brings no array, and an ordinal that fits any cell. -/
def ArrayWrite.Narrow : ArrayWrite → Prop
  | set _ v | setRange _ _ v | setAll v => ArrayWidth.narrow.Holds v
  | copyFrom _ | assign _ => False

/-- The operation brings no array, and ordinals that fit any cell. -/
def Column.Op.Narrow : Column.Op → Prop
  | setBlock _ v | fillSection _ v => ArrayWidth.narrow.Holds v
  | write _ writes => ∀ x ∈ writes, x.Narrow
  | setBlocks _ data | replaceBlocks _ data => data = none
  | extendTo _ | trim _ | trimAll | sectionLock _ | reset | copy => True

/-- The operation brings no array, and ordinals that fit any cell. -/
def Edit.Op.Narrow : Edit.Op → Prop
  | setBlock _ v | fillSection _ v => ArrayWidth.narrow.Holds v
  | write _ writes => ∀ x ∈ writes, x.Narrow
  | setBlocks _ data | replaceBlocks _ data => data = none
  | _ => True

theorem ArrayWrite.Narrow.alike {x : ArrayWrite} (h : x.Narrow) : x.Alike P x := by
  cases x with
  | set i v => exact .set i (WidthPairing.shared_of_holds_both h)
  | setRange start stop v => exact .setRange start stop (WidthPairing.shared_of_holds_both h)
  | setAll v => exact .setAll (WidthPairing.shared_of_holds_both h)
  | copyFrom a => exact h.elim
  | assign a => exact h.elim

theorem ArrayWrite.alike_of_narrow {writes : List ArrayWrite} (h : ∀ x ∈ writes, x.Narrow) :
    List.Forall₂ (ArrayWrite.Alike P) writes writes := by
  induction writes with
  | nil => exact .nil
  | cons x writes ih =>
    exact .cons (h x List.mem_cons_self).alike (ih fun y hy => h y (List.mem_cons_of_mem x hy))

theorem Column.Op.Narrow.alike {op : Column.Op} (h : op.Narrow) : op.Alike P op := by
  cases op with
  | extendTo layer => exact .extendTo layer
  | setBlock p v => exact .setBlock p (WidthPairing.shared_of_holds_both h)
  | fillSection layer v => exact .fillSection layer (WidthPairing.shared_of_holds_both h)
  | write layer writes => exact .write layer (ArrayWrite.alike_of_narrow h)
  | setBlocks layer data =>
    obtain rfl : data = none := h
    exact .setBlocks layer .none
  | replaceBlocks layer data =>
    obtain rfl : data = none := h
    exact .replaceBlocks layer .none
  | trim layer => exact .trim layer
  | trimAll => exact .trimAll
  | sectionLock layer => exact .sectionLock layer
  | reset => exact .reset
  | copy => exact .copy

theorem Edit.Op.Narrow.alike {op : Edit.Op} (h : op.Narrow) : op.Alike P op := by
  cases op with
  | setBlock p v => exact .setBlock p (WidthPairing.shared_of_holds_both h)
  | fillSection layer v => exact .fillSection layer (WidthPairing.shared_of_holds_both h)
  | write layer writes => exact .write layer (ArrayWrite.alike_of_narrow h)
  | setBlocks layer data =>
    obtain rfl : data = none := h
    exact .setBlocks layer .none
  | replaceBlocks layer data =>
    obtain rfl : data = none := h
    exact .replaceBlocks layer .none
  | _ => exact .same fun hputs => hputs

namespace Handing

variable {a b : SectionArray} (how : Handing) (layer : Int)

theorem columnOp_alike (h : a.Alike P b) : (how.columnOp layer a).Alike P (how.columnOp layer b) := by
  cases how with
  | setBlocks => exact .setBlocks layer (.some h)
  | replaceBlocks => exact .replaceBlocks layer (.some h)
  | copyInto => exact .write layer (.cons (.copyFrom h) .nil)
  | assign => exact .write layer (.cons (.assign h) .nil)

theorem editOp_alike (h : a.Alike P b) : (how.editOp layer a).Alike P (how.editOp layer b) := by
  cases how with
  | setBlocks => exact .setBlocks layer (.some h)
  | replaceBlocks => exact .replaceBlocks layer (.some h)
  | copyInto => exact .write layer (.cons (.copyFrom h) .nil)
  | assign => exact .write layer (.cons (.assign h) .nil)

end Handing

/-! ## Pools -/

/-- The pools have alike edits waiting, and make and clear edits alike. -/
structure Pool.Alike (P : WidthPairing) (p q : Pool Edit) : Prop where
  capacity : q.capacity = p.capacity
  idle : List.Forall₂ (Edit.Alike P) p.idle q.idle
  build : Run.Alike P.Sessions (Edit.Alike P) p.build q.build
  clear : ∀ e e', Edit.Alike P e e' → (p.clear e).Alike P (q.clear e')

namespace Pool

variable {p q : Pool Edit}

theorem forEdits_alike (settings : Settings) : ExceptAlike (Alike P) (forEdits settings) (forEdits settings) := by
  refine ExceptAlike.refl.bind fun _ _ _ => ?_
  unfold create
  split
  · exact .error _
  · exact .ok ⟨rfl, .nil, Edit.create_alike _ _, fun _ _ => Edit.reset_alike⟩

theorem Alike.poll (h : p.Alike P q) :
    Run.Alike P.Sessions (fun x y => x.1.Alike P y.1 ∧ x.2.Alike P y.2) p.poll q.poll := by
  have hidle := h.idle
  unfold Pool.poll
  generalize hp : p.idle = waiting, hq : q.idle = waiting' at hidle
  cases hidle with
  | nil =>
    refine (Run.Alike.emit (WidthPairing.logFree_sessions P) _).bind fun _ _ _ => ?_
    exact h.build.bind fun _ _ he => .pure ⟨he, h⟩
  | cons he hrest => exact .pure ⟨he, h.capacity, hrest, h.build, h.clear⟩

theorem Alike.recycle {e e' : Edit} (h : p.Alike P q) (he : e.Alike P e') :
    Run.Alike P.Sessions (Alike P) (p.recycle e) (q.recycle e') := by
  unfold Pool.recycle
  rw [h.capacity, ← h.idle.length_eq]
  split
  · have hcleared := List.Forall₂.cons (h.clear e e' he) .nil
    exact .pure ⟨rfl, List.rel_append h.idle hcleared, h.build, h.clear⟩
  · exact (Run.Alike.emit (WidthPairing.logFree_sessions P) _).bind fun _ _ _ => .pure h

end Pool

/-! ## Benches -/

/-- Alike objects of one kind. -/
inductive Object.Alike (P : WidthPairing) : Object → Object → Prop
  | array {a b : SectionArray} : a.Alike P b → Alike P (.array a) (.array b)
  | column {c d : Column} : c.Alike P d → Alike P (.column c) (.column d)
  | edit {e f : Edit} : e.Alike P f → Alike P (.edit e) (.edit f)
  | pool {p q : Pool Edit} : p.Alike P q → Alike P (.pool p) (.pool q)
  | encoder {e f : Encoder} : e.Alike P f → Alike P (.encoder e) (.encoder f)
  | stored {s s' : PalettedSection} : s.Alike P s' → Alike P (.stored s) (.stored s')

namespace Object

variable {x x' : Object}

theorem Alike.array? (h : x.Alike P x') : Option.Rel (SectionArray.Alike P) x.array? x'.array? := by
  cases h with
  | array h => exact .some h
  | _ => exact .none

theorem Alike.column? (h : x.Alike P x') : Option.Rel (Column.Alike P) x.column? x'.column? := by
  cases h with
  | column h => exact .some h
  | _ => exact .none

theorem Alike.edit? (h : x.Alike P x') : Option.Rel (Edit.Alike P) x.edit? x'.edit? := by
  cases h with
  | edit h => exact .some h
  | _ => exact .none

theorem Alike.pool? (h : x.Alike P x') : Option.Rel (Pool.Alike P) x.pool? x'.pool? := by
  cases h with
  | pool h => exact .some h
  | _ => exact .none

theorem Alike.encoder? (h : x.Alike P x') : Option.Rel (Encoder.Alike P) x.encoder? x'.encoder? := by
  cases h with
  | encoder h => exact .some h
  | _ => exact .none

theorem Alike.stored? (h : x.Alike P x') : Option.Rel (PalettedSection.Alike P) x.stored? x'.stored? := by
  cases h with
  | stored h => exact .some h
  | _ => exact .none

end Object

namespace Bench

/-- Alike objects lie under each name, or none. -/
def Alike (P : WidthPairing) (b b' : Bench) : Prop := ∀ n, Option.Rel (Object.Alike P) (b n) (b' n)

/-- Alike replies, and alike benches after them. -/
def Served (P : WidthPairing) (x y : Reply × Bench) : Prop := x.1.Alike P y.1 ∧ x.2.Alike P y.2

variable {b b' : Bench} {x x' : Object}

theorem Alike.set {y y' : Option Object} (h : b.Alike P b') (name : Nat)
    (hy : Option.Rel (Object.Alike P) y y') : (b.set name y).Alike P (b'.set name y') := by
  intro n
  unfold Bench.set
  split
  · exact hy
  · exact h n

theorem Alike.put (h : b.Alike P b') (name : Nat) (hx : x.Alike P x') :
    (b.put name x).Alike P (b'.put name x') := h.set name (.some hx)

theorem Alike.keep {r r' : Reply} (h : b.Alike P b') (name : Nat) (hr : r.Alike P r') :
    (b.keep name r).Alike P (b'.keep name r') := by
  cases hr with
  | array hab => exact h.put name (.array hab)
  | same hnone =>
    -- such a reply gives no array back
    cases r with
    | array a =>
      obtain rfl : a = none := hnone
      exact h
    | _ => exact h

/-- Alike objects are used alike, and a missing one is missed on both benches. -/
theorem Alike.use {α : Type} {get : Object → Option α} {R : α → α → Prop} {f f' : α → Run (Reply × Bench)}
    (h : b.Alike P b') (name : Nat) (hget : ∀ {x x'}, Object.Alike P x x' → Option.Rel R (get x) (get x'))
    (hf : ∀ a a', R a a' → Run.Alike P.Sessions (Served P) (f a) (f' a')) :
    Run.Alike P.Sessions (Served P) (b.use get name f) (b'.use get name f') := by
  have hname : Option.Rel R ((b name).bind get) ((b' name).bind get) := by
    have hobject := h name
    generalize b name = x, b' name = x' at hobject
    cases hobject with
    | none => exact .none
    | some hx => exact hget hx
  unfold Bench.use
  generalize (b name).bind get = y, (b' name).bind get = y' at hname
  cases hname with
  | none => exact .pure ⟨.same rfl, h⟩
  | some ha => exact hf _ _ ha

/-- What was made alike is put on both benches. -/
theorem Alike.made {α : Type} {R : α → α → Prop} {y y' : Run α} {f : α → Object} (h : b.Alike P b')
    (name : Nat) (hy : Run.Alike P.Sessions R y y') (hf : ∀ a a', R a a' → (f a).Alike P (f a')) :
    Run.Alike P.Sessions (Served P) (do return (.done, b.put name (f (← y))))
      (do return (.done, b'.put name (f (← y')))) :=
  hy.bind fun _ _ ha => .pure ⟨.same rfl, h.put name (hf _ _ ha)⟩

end Bench

/-! ## Commands -/

theorem ArrayRead.answer_alike {a b : SectionArray} (r : ArrayRead) (h : a.Alike P b) :
    ExceptAlike (Reply.Alike P) (r.answer a) (r.answer b) := by
  cases r with
  | get i =>
    rw [answer, answer, h.get]
    cases a.get i with
    | ok v => exact .ok (.same rfl)
    | error f => exact .error f
  | isEmpty =>
    rw [answer, answer, h.isEmpty]
    exact .ok (.same rfl)
  | uniform =>
    rw [answer, answer, h.uniform?]
    exact .ok (.same rfl)
  | values =>
    rw [answer, answer, h.cells]
    exact .ok (.same rfl)

theorem Encoder.withSizes_alike (states words : Nat) :
    ExceptAlike (Encoder.Alike P) (withSizes states words) (withSizes states words) := by
  refine ExceptAlike.refl.bind fun _ _ _ => ExceptAlike.refl.bind fun _ _ _ => .ok ?_
  exact ⟨sameTables_refl _, .inl (isClean_clean states words)⟩

namespace BiomeGrid

variable {cells : Array (Option Biome)} {defaultBiome : Biome} {g : GlobalPalette}

theorem kind_of_encode {s : PalettedSection} (h : encode cells defaultBiome g = .ok s) : s.kind = .biomes := by
  unfold encode at h
  split at h
  · cases h
  · dsimp only at h
    generalize PaletteKind.biomes.localBits (palette (resolved defaultBiome cells)).size = bits at h
    match bits, h with
    | some 0, h =>
      cases h
      rfl
    | some (bits + 1), h =>
      obtain ⟨packed, -, h⟩ := except_bind_eq_ok.1 h
      cases h
      rfl
    | none, h =>
      obtain ⟨ids, -, h⟩ := except_bind_eq_ok.1 h
      obtain ⟨packed, -, h⟩ := except_bind_eq_ok.1 h
      cases h
      rfl

theorem encode_alike (cells : Array (Option Biome)) (defaultBiome : Biome) (g : GlobalPalette) :
    ExceptAlike (PalettedSection.Alike P) (encode cells defaultBiome g) (encode cells defaultBiome g) := by
  cases h : encode cells defaultBiome g with
  | error f => exact .error f
  | ok s =>
    refine .ok (.intro fun hk => ?_)
    rw [kind_of_encode h] at hk
    cases hk

end BiomeGrid

namespace Command

open ArrayWidth (narrow)

/-- The command brings ordinals that fit any cell, and no array. Of global palettes only those count that
are used to decode into an array, and of sections from outside only those of blocks. -/
def Narrow : Command → Prop
  | newFilled _ v => narrow.Holds v
  | writeArray _ x => x.Narrow
  | newColumn _ _ _ background => narrow.Holds background
  | changeColumn _ op _ => op.Narrow
  | changeEdit _ op _ => op.Narrow
  | newStored _ s => s.kind = .blocks → ∀ v ∈ s.palette.values, narrow.Holds v
  | decodeInto _ _ g => ∀ v ∈ g.ordinals, narrow.Holds v
  | _ => True

variable {b b' : Bench}

theorem encodeLayerOf_alike {c c' : Column} (h : b.Alike P b') (encoder : Nat) (hc : c.Alike P c')
    (layer : Int) (g : GlobalPalette) (dst : Nat) :
    Run.Alike P.Sessions (Bench.Served P) (encodeLayerOf b encoder c layer g dst)
      (encodeLayerOf b' encoder c' layer g dst) := by
  refine h.use encoder (·.encoder?) fun e e' he => ?_
  refine (Encoder.encodeLayer_alike (WidthPairing.logFree_sessions P) he hc layer g).bind ?_
  rintro ⟨encoded, e₁⟩ ⟨encoded', e₁'⟩ ⟨hencoded, he₁⟩
  have hput := h.put encoder (.encoder he₁)
  cases hencoded with
  | none => exact .pure ⟨.same rfl, hput⟩
  | some hs =>
    cases hs.eq
    exact .pure ⟨.same rfl, hput.put dst (.stored hs)⟩

/-- On alike benches a command gives alike replies, or faults in the same way, and leaves alike benches. -/
theorem serve_alike {x : Command} (hx : x.Narrow) (h : b.Alike P b') :
    Run.Alike P.Sessions (Bench.Served P) (x.serve b) (x.serve b') := by
  have hlog := WidthPairing.logFree_sessions P
  cases x with
  | newArray dst => exact h.made dst SectionArray.create_alike fun _ _ => .array
  | newFilled dst v =>
    exact h.made dst (SectionArray.filled_alike (WidthPairing.shared_of_holds_both hx)) fun _ _ => .array
  | copyArray dst src =>
    exact h.use src (·.array?) fun a a' ha => h.made dst (SectionArray.copyOf_alike ha) fun _ _ => .array
  | cloneArray dst src =>
    exact h.use src (·.array?) fun a a' ha => .pure ⟨.same rfl, h.put dst (.array ha)⟩
  | writeArray dst x =>
    exact h.use dst (·.array?) fun a a' ha => h.made dst (.lift (hx.alike.run ha)) fun _ _ => .array
  | copyInto src dst =>
    refine h.use src (·.array?) fun a a' ha => h.use dst (·.array?) fun d d' hd => ?_
    exact h.made dst (.lift (ha.copyInto hd)) fun _ _ => .array
  | readArray src r =>
    exact h.use src (·.array?) fun a a' ha => (Run.Alike.lift (r.answer_alike ha)).bind fun _ _ hr => .pure ⟨hr, h⟩
  | compareArrays x y =>
    refine h.use x (·.array?) fun a a' ha => h.use y (·.array?) fun d d' hd => .pure ⟨?_, h⟩
    rw [decide_eq_decide.2 (ha.eq_iff hd)]
    exact .same rfl
  | newColumn dst bottom top background =>
    exact h.made dst (Column.create_alike (WidthPairing.shared_of_holds_both hx) bottom top) fun _ _ => .column
  | copyColumn dst src =>
    exact h.use src (·.column?) fun c c' hc => h.made dst (Column.copy_alike hc) fun _ _ => .column
  | readColumn src r keep =>
    refine h.use src (·.column?) fun c c' hc => .pure ⟨r.answer_alike hc, ?_⟩
    exact h.keep keep (r.answer_alike hc)
  | changeColumn dst op keep =>
    refine h.use dst (·.column?) fun c c' hc => (hx.alike.serve hc).bind fun p q hpq => .pure ⟨hpq.1, ?_⟩
    exact (h.put dst (.column hpq.2)).keep keep hpq.1
  | handToColumn dst how layer src keep =>
    refine h.use src (·.array?) fun a a' ha => h.use dst (·.column?) fun c c' hc => ?_
    refine ((how.columnOp_alike layer ha).serve hc).bind fun p q hpq => .pure ⟨hpq.1, ?_⟩
    exact (h.put dst (.column hpq.2)).keep keep hpq.1
  | newEdit dst bottom top => exact h.made dst (Edit.create_alike bottom top) fun _ _ => .edit
  | copyEdit dst src =>
    exact h.use src (·.edit?) fun e e' he => h.made dst (Edit.copy_alike he) fun _ _ => .edit
  | readEdit src r keep =>
    refine h.use src (·.edit?) fun e e' he => .pure ⟨r.answer_alike he, ?_⟩
    exact h.keep keep (r.answer_alike he)
  | changeEdit dst op keep =>
    refine h.use dst (·.edit?) fun e e' he => (hx.alike.serve he).bind fun p q hpq => .pure ⟨hpq.1, ?_⟩
    exact (h.put dst (.edit hpq.2)).keep keep hpq.1
  | handToEdit dst how layer src keep =>
    refine h.use src (·.array?) fun a a' ha => h.use dst (·.edit?) fun e e' he => ?_
    refine ((how.editOp_alike layer ha).serve he).bind fun p q hpq => .pure ⟨hpq.1, ?_⟩
    exact (h.put dst (.edit hpq.2)).keep keep hpq.1
  | newPool dst settings => exact h.made dst (.lift (Pool.forEdits_alike settings)) fun _ _ => .pool
  | poll src dst =>
    refine h.use src (·.pool?) fun p q hp => hp.poll.bind fun x y hxy => .pure ⟨.same rfl, ?_⟩
    exact (h.put src (.pool hxy.2)).put dst (.edit hxy.1)
  | recycle dst src =>
    refine h.use dst (·.pool?) fun p q hp => h.use src (·.edit?) fun e e' he => ?_
    exact (hp.recycle he).bind fun _ _ hp' => .pure ⟨.same rfl, (h.set src .none).put dst (.pool hp')⟩
  | idle src =>
    refine h.use src (·.pool?) fun p q hp => .pure ⟨?_, h⟩
    rw [hp.idle.length_eq]
    exact .same rfl
  | newEncoder dst states words =>
    exact h.made dst (.lift (Encoder.withSizes_alike states words)) fun _ _ => .encoder
  | encode encoder src g dst =>
    refine h.use src (·.array?) fun a a' ha => h.use encoder (·.encoder?) fun e e' he => ?_
    refine (Encoder.encode_alike hlog he ha g).bind fun p q hpq => .pure ⟨?_, ?_⟩
    · rw [hpq.1.eq]
      exact .same rfl
    · exact (h.put encoder (.encoder hpq.2)).put dst (.stored hpq.1)
  | encodeMerged encoder src base g dst =>
    refine h.use src (·.array?) fun a a' ha => h.use base (·.array?) fun d d' hd => ?_
    refine h.use encoder (·.encoder?) fun e e' he => ?_
    refine (Encoder.encodeMerged_alike hlog he ha hd g).bind fun p q hpq => .pure ⟨?_, ?_⟩
    · rw [hpq.1.eq]
      exact .same rfl
    · exact ((h.put encoder (.encoder hpq.2.2)).put src (.array hpq.2.1)).put dst (.stored hpq.1)
  | encodeColumnLayer encoder src layer g dst =>
    exact h.use src (·.column?) fun c c' hc => encodeLayerOf_alike h encoder hc layer g dst
  | encodeEditLayer encoder src layer g dst =>
    exact h.use src (·.edit?) fun e e' he => encodeLayerOf_alike h encoder he.column layer g dst
  | encodeBiomes cells defaultBiome g dst =>
    have hencode := BiomeGrid.encode_alike (P := P) cells defaultBiome g
    refine (Run.Alike.lift hencode).bind fun s s' hs => .pure ⟨?_, ?_⟩
    · rw [hs.eq]
      exact .same rfl
    · exact h.put dst (.stored hs)
  | newStored dst s =>
    have hs : s.Alike P s := .intro fun hk v hv => WidthPairing.shared_of_holds_both (hx hk v hv)
    exact .pure ⟨.same rfl, h.put dst (.stored hs)⟩
  | getEntry src i g =>
    refine h.use src (·.stored?) fun s s' hs => ?_
    cases hs.eq
    exact (Run.Alike.lift ExceptAlike.refl).bind fun r r' hr => .pure ⟨hr ▸ .same rfl, h⟩
  | decode src g =>
    refine h.use src (·.stored?) fun s s' hs => ?_
    cases hs.eq
    exact (Run.Alike.lift ExceptAlike.refl).bind fun r r' hr => .pure ⟨hr ▸ .same rfl, h⟩
  | decodeInto src dst g =>
    refine h.use src (·.stored?) fun s s' hs => h.use dst (·.array?) fun a a' ha => ?_
    cases hs with
    | intro hs =>
      have hg : ∀ v ∈ g.ordinals, P.Shared v := fun v hv => WidthPairing.shared_of_holds_both (hx v hv)
      refine (Run.Alike.lift (PalettedSection.decodeInto_alike hs hg ha)).bind fun p q hpq => .pure ⟨?_, ?_⟩
      · rw [hpq.1]
        exact .same rfl
      · exact h.put dst (.array hpq.2)
  | compareStored x y =>
    refine h.use x (·.stored?) fun s s' hs => h.use y (·.stored?) fun d d' hd => ?_
    cases hs.eq
    cases hd.eq
    exact .pure ⟨.same rfl, h⟩

end Command

/-- The reply without the width of the array that it gives back. -/
def Reply.withoutWidth : Reply → Reply
  | .array a => .cells (a.map SectionArray.cells)
  | r => r

theorem Reply.Alike.withoutWidth {r r' : Reply} (h : r.Alike P r') : r.withoutWidth = r'.withoutWidth := by
  cases h with
  | same _ => rfl
  | array hab =>
    show Reply.cells (some _) = Reply.cells (some _)
    rw [hab.cells]

/-- A list of commands that bring ordinals of at most 16 bits, with arrays that are all made in the session,
has the same replies in a session with narrow cells as in one with wide cells, step by step, except that an
array that is given back is of another width. If it ends in a fault, it does so at the same step and in the
same fault. -/
theorem Bench.width_unobservable {commands : List Command} (h : ∀ x ∈ commands, x.Narrow) {s t : Session}
    (hs : s.arrayWidth = .narrow) (ht : t.arrayWidth = .wide) :
    (Run.transcript Command.serve commands bare s).1.map Reply.withoutWidth =
      (Run.transcript Command.serve commands bare t).1.map Reply.withoutWidth ∧
    (Run.transcript Command.serve commands bare s).2 = (Run.transcript Command.serve commands bare t).2 := by
  have hbare : bare.Alike .narrowWide bare := fun _ => .none
  obtain ⟨hreplies, hfault⟩ := Run.transcript_alike (R := Reply.Alike .narrowWide) commands
    (fun x hx b b' hb => Command.serve_alike (x := x) (h x hx) hb) hbare ⟨hs, ht⟩
  refine ⟨?_, hfault⟩
  generalize (Run.transcript Command.serve commands bare s).1 = replies,
    (Run.transcript Command.serve commands bare t).1 = replies' at hreplies
  induction hreplies with
  | nil => rfl
  | cons hr _ ih => rw [List.map_cons, List.map_cons, hr.withoutWidth, ih]

theorem GlobalPalette.holds_identity {n : UInt32} (hn : n ≤ 0xFFFF) :
    ∀ v ∈ (identity n).ordinals, ArrayWidth.narrow.Holds v := by
  intro v hv
  have hn' : n.toNat ≤ 0xFFFF := UInt32.le_iff_toNat_le.1 hn
  obtain ⟨i, hi, rfl⟩ := Array.mem_iff_getElem.1 hv
  have hentry : (identity n).ordinals[i] = UInt32.ofNat i := getElem_ordinalsBelow n i hi
  have hsize : (identity n).ordinals.size = max n.toNat 1 := size_ordinalsBelow n
  have hlt : i ≤ 0xFFFF := by omega
  rw [hentry, ArrayWidth.Holds, UInt32.le_iff_toNat_le,
    UInt32.toNat_ofNat_of_lt' (Nat.lt_of_le_of_lt hlt (by decide))]
  exact hlt

/-- An array goes into a column and comes out of it again, a layer is encoded, and the section is decoded
into a third array. The last write is out of bounds in both sessions. -/
theorem Bench.width_unobservable_exchange :
    let commands : List Command := [.newFilled 0 7, .newColumn 1 0 3 .reserved,
      .handToColumn 1 .setBlocks 2 0 9, .changeColumn 1 (.setBlock ⟨1, 40, 3⟩ 299) 9,
      .changeColumn 1 (.replaceBlocks 2 none) 9, .newEncoder 3 300 2048, .encode 3 9 (.identity 300) 4,
      .newArray 5, .decodeInto 4 5 (.identity 300), .compareArrays 5 9, .writeArray 5 (.set 4096 1)]
    let replies := fun w => Run.transcript Command.serve commands bare { width := some w }
    (replies .narrow).1.map Reply.withoutWidth = (replies .wide).1.map Reply.withoutWidth ∧
      (replies .narrow).2 = (replies .wide).2 := by
  have hglobal := GlobalPalette.holds_identity (n := 300) (by decide)
  have hholds : ∀ v : BlockState, v ≤ 0xFFFF → ArrayWidth.narrow.Holds v := fun _ hv => hv
  refine width_unobservable ?_ rfl rfl
  simp only [List.forall_mem_cons]
  exact ⟨hholds 7 (by decide), hholds .reserved (by decide), trivial, hholds 299 (by decide), rfl, trivial,
    trivial, trivial, hglobal, trivial, hholds 1 (by decide), nofun⟩

end VoxelStore
