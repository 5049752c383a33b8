import VoxelStore.Proofs.Column.Registry
/-!
# Histories of a column

`Column.Op` names the operations on a column as data, and `Column.History` the columns that they lead to
from a new one. Each step of a history runs in a session of its own, so a history also stands for what
happens to one column while the session serves others: copies of it, other columns, other threads taking
their turn.
-/

namespace VoxelStore

namespace Column

/-- The operations that change a column. -/
inductive Op where
  | extendTo (layer : Int)
  | setBlock (p : Position) (value : BlockState)
  | fillSection (layer : Int) (value : BlockState)
  /-- Loads a layer and writes to its array. Without any write it is only loaded. -/
  | write (layer : Int) (writes : List ArrayWrite)
  | setBlocks (layer : Int) (data : Option SectionArray)
  | replaceBlocks (layer : Int) (data : Option SectionArray)
  | trim (layer : Int)
  | trimAll
  | sectionLock (layer : Int)
  | reset
  /-- Goes on with a copy. To go on with the column that was copied is no step of its history. -/
  | copy

/-- What an operation makes of a column. -/
def Op.run (c : Column) : Op → Run Column
  | extendTo layer => Prod.snd <$> c.extendTo layer
  | setBlock p value => c.setBlock p value
  | fillSection layer value => c.fillSection layer value
  | write layer writes => c.modifyLayer layer (ArrayWrite.runAll writes)
  | setBlocks layer data => c.setBlocks layer data
  | replaceBlocks layer data => Prod.snd <$> c.replaceBlocks layer data
  | trim layer => return (c.trim layer).2
  | trimAll => return c.trimAll.2
  | sectionLock layer => Prod.snd <$> c.sectionLock layer
  | reset => return c.reset
  | copy => c.copy

/-- The operation brings only ordinals and arrays of a registry of `n` states, and writes inside arrays. -/
def Op.Legal (n : UInt32) : Op → Prop
  | setBlock _ value | fillSection _ value => value < n
  | write _ writes => ∀ x ∈ writes, x.Legal n
  | setBlocks _ data | replaceBlocks _ data => ∀ a, data = some a → a.InRegistry n
  | extendTo _ | trim _ | trimAll | sectionLock _ | reset | copy => True

/-- No legal operation faults on a column of the registry, and each leaves such a column. -/
theorem Op.run_inRegistry {n : UInt32} {op : Op} {c : Column} {s : Session} (hop : op.Legal n)
    (hc : c.InRegistry n) (hs : s.Serves n) :
    ∃ c' t, op.run c s = .ok c' t ∧ c'.InRegistry n ∧ t.Serves n := by
  cases op with
  | extendTo layer =>
    obtain ⟨c', t, h, he, hw⟩ := reach_ok c layer s
    exact ⟨c', t, h, he.inRegistry hc, hw.trans hs⟩
  | setBlock p value => exact setBlock_inRegistry hs hc p hop
  | fillSection layer value => exact fillSection_inRegistry hs hc layer hop
  | write layer writes =>
    exact modifyLayer_inRegistry hs hc layer fun a ha => ArrayWrite.runAll_inRegistry hop ha
  | setBlocks layer data =>
    obtain ⟨c', t, h, hreg⟩ := replaceBlocks_inRegistry hs hc layer hop
    exact ⟨c', t, Run.map_of_ok h Prod.snd, hreg⟩
  | replaceBlocks layer data =>
    obtain ⟨c', t, h, hreg⟩ := replaceBlocks_inRegistry hs hc layer hop
    exact ⟨c', t, Run.map_of_ok h Prod.snd, hreg⟩
  | trim layer =>
    rcases trim_cases c layer with ⟨-, htrim⟩ | ⟨x, hx, -, -, hput⟩
    · exact ⟨_, s, rfl, by rwa [htrim], hs⟩
    · exact ⟨_, s, rfl, hput.inRegistry hc (Layer.inRegistry_trimmed (hc.layer layer) hx), hs⟩
  | trimAll => exact ⟨_, s, rfl, inRegistry_trimAll hc, hs⟩
  | sectionLock layer =>
    obtain ⟨lock, c', t, h, hreg⟩ := sectionLock_inRegistry hs hc layer
    exact ⟨c', t, Run.map_of_ok h Prod.snd, hreg⟩
  | reset => exact ⟨_, s, rfl, inRegistry_reset hc, hs⟩
  | copy => exact copy_inRegistry hs hc

/-- One operation after the other. -/
def runAll (ops : List Op) (c : Column) : Run Column := ops.foldlM Op.run c

/-- `History bottom top background ops c`: the operations `ops`, in this order and without a fault, lead
from a new column to `c`. -/
inductive History (bottom top : Int) (background : BlockState) : List Op → Column → Prop
  | create {c s t} : create bottom top background s = .ok c t → History bottom top background [] c
  | step {ops op c c' s t} : History bottom top background ops c → op.run c s = .ok c' t →
      History bottom top background (ops ++ [op]) c'

/-- A run that ends in a column is a history. -/
theorem History.run {bottom top : Int} {background : BlockState} {before ops : List Op} {c c' : Column}
    {s t : Session} (h : History bottom top background before c) (hrun : runAll ops c s = .ok c' t) :
    History bottom top background (before ++ ops) c' := by
  induction ops generalizing before c s with
  | nil =>
    obtain ⟨rfl, -⟩ := Run.pure_eq_ok.1 hrun
    rwa [List.append_nil]
  | cons op ops ih =>
    obtain ⟨c₁, s₁, hop, hrun⟩ := Run.bind_eq_ok.1 hrun
    rw [List.append_cons]
    exact ih (h.step hop) hrun

/-- Legal operations in any order never fault. -/
theorem runAll_inRegistry {n : UInt32} {ops : List Op} {c : Column} {s : Session}
    (hops : ∀ op ∈ ops, op.Legal n) (hc : c.InRegistry n) (hs : s.Serves n) :
    ∃ c' t, runAll ops c s = .ok c' t ∧ c'.InRegistry n ∧ t.Serves n := by
  induction ops generalizing c s with
  | nil => exact ⟨c, s, rfl, hc, hs⟩
  | cons op ops ih =>
    obtain ⟨c₁, s₁, hop, hc₁, hs₁⟩ := Op.run_inRegistry (hops op List.mem_cons_self) hc hs
    obtain ⟨c', t, hrun, hreg⟩ := ih (fun x hx => hops x (List.mem_cons_of_mem op hx)) hc₁ hs₁
    exact ⟨c', t, (Run.bind_of_ok hop _).trans hrun, hreg⟩

/-- From a new column of the registry there is a history of every list of legal operations. -/
theorem exists_history {n : UInt32} {bottom top : Int} {background : BlockState} (hrange : bottom ≤ top)
    (hb : background < n) (ops : List Op) (hops : ∀ op ∈ ops, op.Legal n) :
    ∃ c, History bottom top background ops c := by
  -- one session whose width is decided from the start serves the whole history
  obtain ⟨c, t, hc⟩ := create_ok background hrange { width := some (ArrayWidth.forStateCount n) }
  have hs : t.Serves n := (create_eq_ok hc).2.2.2.2
  obtain ⟨c', t', hrun, -⟩ := runAll_inRegistry hops (inRegistry_create hc hb) hs
  exact ⟨c', List.nil_append ops ▸ (History.create hc).run hrun⟩

end Column

end VoxelStore
