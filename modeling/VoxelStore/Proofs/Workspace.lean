import VoxelStore.Pool
import VoxelStore.Proofs.Edit.History
import VoxelStore.Proofs.Palette.Ready
/-!
# The store as a whole

A workspace is what one registry needs to be worked on: a pool of edits, one encoder and one global
palette, and the edits that are out of the pool. Commands poll and recycle edits, change them and encode
their layers, in any order. `Workspace.Sound` is what every command preserves. From it follows that no
command faults (`runAll_sound`), and that every layer of every edit is encoded into a section that decodes
to the blocks of the edit (`Sound.encodes`).
-/

namespace VoxelStore

/-- A pool of edits, the tables that all encodings share, and the edits that are out of the pool. -/
structure Workspace where
  pool : Pool Edit
  encoder : Encoder
  global : GlobalPalette
  edits : List Edit

namespace Workspace

/-- A workspace for the settings, in a session whose width they decide. -/
def start (settings : Settings) : Run Workspace := do
  let _ ← ArrayWidth.settle settings.blockStates
  return {
    pool := ← Pool.forEdits settings
    encoder := .create settings.blockStates
    global := .identity settings.blockStates
    edits := [] }

/-- What can be done with a workspace. Edits go by their place among those out of the pool; a command on an
edit that is not there does nothing. -/
inductive Command where
  | poll
  | recycle (i : Nat)
  | edit (i : Nat) (op : Edit.Op)
  | encode (i : Nat) (layer : Int)

namespace Command

/-- What a command makes of a workspace. -/
def run (w : Workspace) : Command → Run Workspace
  | poll => do
    let (e, pool) ← w.pool.poll
    return { w with pool, edits := w.edits ++ [e] }
  | recycle i =>
    match w.edits[i]? with
    | none => return w
    | some e => return { w with pool := ← w.pool.recycle e, edits := w.edits.eraseIdx i }
  | edit i op =>
    match w.edits[i]? with
    | none => return w
    | some e => return { w with edits := w.edits.set i (← op.run e) }
  | encode i layer =>
    match w.edits[i]? with
    | none => return w
    | some e => do
      let (_, encoder) ← w.encoder.encodeLayer e.column layer w.global
      return { w with encoder }

/-- The command brings only ordinals and arrays of a registry of `n` states, and light that is light. -/
def Legal (n : UInt32) : Command → Prop
  | edit _ op => op.Legal n
  | _ => True

end Command

/-- One command after the other. -/
def runAll (commands : List Command) (w : Workspace) : Run Workspace := commands.foldlM Command.run w

/-! ## What every command preserves -/

/-- The pool makes edits of the initial range, and all of its idle ones stay within the registry. -/
structure PoolSound (settings : Settings) (pool : Pool Edit) : Prop where
  build : pool.build = Edit.ofSettings settings
  clear : pool.clear = Edit.reset
  idle : ∀ e ∈ pool.idle, e.column.InRegistry settings.blockStates

/-- Every edit, idle or out of the pool, stays within the registry, and the tables are ready to encode. -/
structure Sound (settings : Settings) (w : Workspace) : Prop where
  pool : PoolSound settings w.pool
  encoder : w.encoder.Ready settings.blockStates
  global : w.global = .identity settings.blockStates
  edits : ∀ e ∈ w.edits, e.column.InRegistry settings.blockStates

variable {settings : Settings} {w : Workspace} {s : Session}

/-- Settings without a problem name a range, a pool with room and the ordinals that every registry has. -/
theorem valid_settings (h : settings.validate = .ok settings) :
    settings.bottom.toInt ≤ settings.top.toInt ∧ settings.poolSize.toNat ≠ 0 ∧ 1 < settings.blockStates := by
  have hnone : settings.problem? = none := by
    unfold Settings.validate at h
    split at h
    · cases h
    · assumption
  unfold Settings.problem? at hnone
  -- in the order in which the settings are checked
  by_cases hpool : settings.poolSize = 0
  · rw [if_pos hpool] at hnone
    cases hnone
  by_cases hstates : settings.blockStates < 4
  · rw [if_neg hpool, if_pos hstates] at hnone
    cases hnone
  by_cases hrange : settings.top < settings.bottom
  · rw [if_neg hpool, if_neg hstates] at hnone
    split at hnone
    · cases hnone
    · split at hnone
      · cases hnone
      · cases hnone
  · refine ⟨?_, fun h => hpool (UInt64.toNat_inj.1 h), ?_⟩
    · exact Int.not_lt.1 fun h => hrange (Int32.lt_iff_toInt_lt.2 h)
    · have h4 : 4 ≤ settings.blockStates := UInt32.not_lt.1 hstates
      exact UInt32.lt_of_lt_of_le (by decide) h4

theorem start_sound (h : settings.validate = .ok settings)
    (hmemory : settings.poolSize.toNat * Pool.editBytes ≤ maxTableBytes) (hs : s.width = none) :
    ∃ w t, start settings s = .ok w t ∧ w.Sound settings ∧ t.Serves settings.blockStates := by
  obtain ⟨-, hpool, -⟩ := valid_settings h
  have hroom : Pool.forEdits settings = .ok
      { capacity := settings.poolSize.toNat, build := Edit.ofSettings settings, clear := Edit.reset } := by
    have hcheck : checkTable settings.poolSize.toNat Pool.editBytes = .ok () := if_neg (Nat.not_lt.2 hmemory)
    rw [Pool.forEdits, hcheck]
    exact if_neg hpool
  refine ⟨_, _, (Run.bind_of_ok (ArrayWidth.settle_eq hs _) _).trans (Run.bind_of_ok (Run.lift_of_ok hroom) _),
    ⟨⟨rfl, rfl, fun e he => absurd he List.not_mem_nil⟩, Encoder.ready_create _, rfl,
      fun e he => absurd he List.not_mem_nil⟩, rfl⟩

/-- Polling never faults, whether an edit waits or not. -/
theorem poll_sound {pool : Pool Edit} (h : settings.validate = .ok settings)
    (hpool : PoolSound settings pool) (hs : s.Serves settings.blockStates) :
    ∃ e pool' t, pool.poll s = .ok (e, pool') t ∧ e.column.InRegistry settings.blockStates ∧
      PoolSound settings pool' ∧ t.Serves settings.blockStates := by
  rw [Pool.poll]
  cases hidle : pool.idle with
  | cons first rest =>
    have hmem : ∀ e ∈ first :: rest, e.column.InRegistry settings.blockStates := hidle ▸ hpool.idle
    exact ⟨first, _, s, rfl, hmem first List.mem_cons_self,
      ⟨hpool.build, hpool.clear, fun e he => hmem e (List.mem_cons_of_mem first he)⟩, hs⟩
  | nil =>
    -- an empty pool makes a new edit over the range of the settings
    obtain ⟨hrange, -, hn⟩ := valid_settings h
    have hpos : 0 < settings.blockStates := UInt32.lt_trans (by decide) hn
    obtain ⟨e, t, hbuild, he, hw⟩ :=
      Edit.create_inRegistry hrange hpos { s with events := s.events.push .poolWasEmpty }
    refine ⟨e, pool, t, ?_, he, hpool, hw.trans hs⟩
    rw [hpool.build]
    exact (Run.bind_of_ok (Run.emit_eq _) _).trans (Run.bind_of_ok hbuild _)

theorem recycle_sound {pool : Pool Edit} {e : Edit} (hpool : PoolSound settings pool)
    (he : e.column.InRegistry settings.blockStates) (hs : s.Serves settings.blockStates) :
    ∃ pool' t, pool.recycle e s = .ok pool' t ∧ PoolSound settings pool' ∧ t.Serves settings.blockStates := by
  rw [Pool.recycle]
  split
  · refine ⟨_, s, rfl, ⟨hpool.build, hpool.clear, fun x hx => ?_⟩, hs⟩
    rcases List.mem_append.1 hx with hx | hx
    · exact hpool.idle x hx
    · rw [List.mem_singleton.1 hx, hpool.clear]
      exact Column.inRegistry_reset he
  · exact ⟨pool, _, Run.bind_of_ok (Run.emit_eq _) _, hpool, hs⟩

/-- No legal command faults, and each leaves a sound workspace. -/
theorem Command.run_sound {command : Command} (hcommand : command.Legal settings.blockStates)
    (h : settings.validate = .ok settings) (hw : w.Sound settings) (hs : s.Serves settings.blockStates) :
    ∃ w' t, command.run w s = .ok w' t ∧ w'.Sound settings ∧ t.Serves settings.blockStates := by
  -- a command changes the pool, the encoder or one edit, and what it leaves alone stays sound
  cases command with
  | poll =>
    obtain ⟨e, pool, t, hrun, he, hpool, ht⟩ := poll_sound h hw.pool hs
    refine ⟨_, t, Run.bind_of_ok hrun _, ⟨hpool, hw.encoder, hw.global, fun x hx => ?_⟩, ht⟩
    rcases List.mem_append.1 hx with hx | hx
    · exact hw.edits x hx
    · rwa [List.mem_singleton.1 hx]
  | recycle i =>
    rw [run]
    cases hi : w.edits[i]? with
    | none => exact ⟨w, s, rfl, hw, hs⟩
    | some e =>
      obtain ⟨pool, t, hrun, hpool, ht⟩ := recycle_sound hw.pool (hw.edits e (List.mem_of_getElem? hi)) hs
      exact ⟨_, t, Run.bind_of_ok hrun _,
        ⟨hpool, hw.encoder, hw.global, fun x hx => hw.edits x (List.mem_of_mem_eraseIdx hx)⟩, ht⟩
  | edit i op =>
    rw [run]
    cases hi : w.edits[i]? with
    | none => exact ⟨w, s, rfl, hw, hs⟩
    | some e =>
      obtain ⟨e', t, hrun, he', ht⟩ :=
        Edit.Op.run_inRegistry hcommand (hw.edits e (List.mem_of_getElem? hi)) hs
      refine ⟨_, t, Run.bind_of_ok hrun _, ⟨hw.pool, hw.encoder, hw.global, fun x hx => ?_⟩, ht⟩
      rcases List.mem_or_eq_of_mem_set hx with hx | rfl
      · exact hw.edits x hx
      · exact he'
  | encode i layer =>
    rw [run]
    cases hi : w.edits[i]? with
    | none => exact ⟨w, s, rfl, hw, hs⟩
    | some e =>
      obtain ⟨answer, encoder, t, hrun, hready, ht, -⟩ := Encoder.encodeLayer_stores hw.encoder
        (hw.edits e (List.mem_of_getElem? hi)) (valid_settings h).2.2 layer s
      rw [← hw.global] at hrun
      exact ⟨_, t, Run.bind_of_ok hrun _, ⟨hw.pool, hready, hw.global, hw.edits⟩, ht.trans hs⟩

/-- Legal commands in any order never fault. -/
theorem runAll_sound {commands : List Command} (hcommands : ∀ x ∈ commands, x.Legal settings.blockStates)
    (h : settings.validate = .ok settings) (hw : w.Sound settings) (hs : s.Serves settings.blockStates) :
    ∃ w' t, runAll commands w s = .ok w' t ∧ w'.Sound settings ∧ t.Serves settings.blockStates := by
  induction commands generalizing w s with
  | nil => exact ⟨w, s, rfl, hw, hs⟩
  | cons command commands ih =>
    obtain ⟨w₁, s₁, hrun, hw₁, hs₁⟩ := Command.run_sound (hcommands command List.mem_cons_self) h hw hs
    obtain ⟨w', t, hall, hw', ht⟩ := ih (fun x hx => hcommands x (List.mem_cons_of_mem command hx)) hw₁ hs₁
    exact ⟨w', t, (Run.bind_of_ok hrun _).trans hall, hw', ht⟩

/-- In a sound workspace a layer of an edit is encoded unless it is empty, and decodes to the blocks that
the edit has there, with air in place of the placeholder. -/
theorem Sound.encodes (hw : w.Sound settings) (h : settings.validate = .ok settings) {e : Edit}
    (he : e ∈ w.edits) (layer : Int) (s : Session) :
    ∃ answer encoder t, w.encoder.encodeLayer e.column layer w.global s = .ok (answer, encoder) t ∧
      (answer = none ↔ e.column.state layer = .empty) ∧
      ∀ encoded, answer = some encoded → ∃ values, encoded.decode w.global = pure values ∧
        ∀ p : Position, p.layer = layer → values[p.blockIndex]? = some (e.getBlock p).stored := by
  obtain ⟨answer, encoder, t, hrun, -, -, hnone, hstores⟩ := Encoder.encodeLayer_stores hw.encoder
    (hw.edits e he) (valid_settings h).2.2 layer s
  rw [hw.global]
  refine ⟨answer, encoder, t, hrun, hnone, fun encoded hencoded => ⟨_, (hstores encoded hencoded).decode, ?_⟩⟩
  rintro p rfl
  have hcell :
      (((e.column.layer p.layer).contents e.column.background).map BlockState.stored)[p.blockIndex] =
        (e.getBlock p).stored := by
    rw [Fin.getElem_fin, Vector.getElem_map, ← Vector.get_eq_getElem, Layer.get_contents]
    rfl
  rw [← hcell]
  simp

/-- No data is lost and nothing faults from end to end. With valid settings and memory for the pool, any legal
commands run; then, at whatever point that is, every layer of every edit out of the pool is encoded unless it
is empty, and what it is encoded into decodes to the blocks of the edit. -/
theorem start_runAll_encodes (h : settings.validate = .ok settings)
    (hmemory : settings.poolSize.toNat * Pool.editBytes ≤ maxTableBytes) (hs : s.width = none)
    {commands : List Command} (hcommands : ∀ x ∈ commands, x.Legal settings.blockStates) :
    ∃ w t, (start settings >>= runAll commands) s = .ok w t ∧
      ∀ e ∈ w.edits, ∀ layer, ∃ answer encoder t',
        w.encoder.encodeLayer e.column layer w.global t = .ok (answer, encoder) t' ∧
        (answer = none ↔ e.column.state layer = .empty) ∧
        ∀ encoded, answer = some encoded → ∃ values, encoded.decode w.global = pure values ∧
          ∀ p : Position, p.layer = layer → values[p.blockIndex]? = some (e.getBlock p).stored := by
  obtain ⟨w₀, s₀, hstart, hw₀, hs₀⟩ := start_sound h hmemory hs
  obtain ⟨w, t, hrun, hw, -⟩ := runAll_sound hcommands h hw₀ hs₀
  exact ⟨w, t, (Run.bind_of_ok hstart _).trans hrun, fun e he layer => hw.encodes h he layer t⟩

/-- An edit is filled, written, recycled and polled again below the initial range. Its layers are all encoded,
the one with the refilled array of the first owner among them. -/
theorem start_runAll_encodes_recycled :
    let commands : List Command := [.poll, .edit 0 (.fillSection (-2) 7), .edit 0 (.setBlock ⟨1, -20, 3⟩ 9),
      .encode 0 4, .recycle 0, .poll, .edit 0 (.setBlock ⟨2, -20, 3⟩ 8), .poll, .edit 1 (.sectionLock 20)]
    ∃ w t, (start {} >>= runAll commands) {} = .ok w t ∧ w.edits.length = 2 ∧
      ∀ e ∈ w.edits, ∃ answer encoder t',
        w.encoder.encodeLayer e.column (-2) w.global t = .ok (answer, encoder) t' ∧
        ∀ encoded, answer = some encoded → ∃ values, encoded.decode w.global = pure values ∧
          values[Position.blockIndex ⟨2, -20, 3⟩]? = some (e.getBlock ⟨2, -20, 3⟩).stored := by
  intro commands
  have hlength : (match (start {} >>= runAll commands) {} with
      | .ok w _ => w.edits.length
      | .error _ _ => 0) = 2 := by decide +kernel
  have hvalid : Settings.validate {} = .ok {} := rfl
  have hlegal : ∀ x ∈ commands, x.Legal (Settings.blockStates {}) := by
    simp [commands, Command.Legal, Edit.Op.Legal, Edit.Op.Lit, Edit.Op.columnOps, Column.Op.Legal]
  obtain ⟨w, t, hrun, hencodes⟩ := start_runAll_encodes hvalid (by decide) (s := {}) rfl hlegal
  rw [hrun] at hlength
  refine ⟨w, t, hrun, hlength, fun e he => ?_⟩
  obtain ⟨answer, encoder, t', henc, -, hsome⟩ := hencodes e he (-2)
  refine ⟨answer, encoder, t', henc, fun encoded hencoded => ?_⟩
  obtain ⟨values, hdecode, hvalues⟩ := hsome encoded hencoded
  exact ⟨values, hdecode, hvalues ⟨2, -20, 3⟩ rfl⟩

end Workspace

end VoxelStore
