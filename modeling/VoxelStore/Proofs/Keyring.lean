import VoxelStore.Proofs.Column.Locks
import VoxelStore.Proofs.Edit.History
/-!
# Locks that were handed out

A `Keyring` is the columns and edits of one session, numbered as they were made, and every lock that was asked for of
them. Objects are made, changed and copied in any order, and in between the session may serve others. `Sound` is what
every command preserves: no two places of the objects have one lock, and each lock that was handed out is still that
of the layer for which it was asked. From it follows that two handles are the same lock exactly if they are for one
layer of one object (`history_handles`).
-/

namespace VoxelStore

/-- What has locks: a column, or an edit with its column. -/
inductive Lockable where
  | column (c : Column)
  | edit (e : Edit)

def Lockable.lock? : Lockable → Int → Option SectionLock
  | column c => c.lock?
  | edit e => e.column.lock?

/-- A lock that was handed out, with the number of the object and the layer for which it was asked. -/
structure Handle where
  object : Nat
  layer : Int
  lock : SectionLock

/-- The columns and edits of a session, and the locks that they handed out. -/
structure Keyring where
  objects : List Lockable := []
  /-- Oldest first. -/
  handles : List Handle := []

/-- An operation on an edit does to its locks what operations on its column do. -/
theorem Edit.Op.run_issues {op : Edit.Op} {e e' : Edit} {s t : Session} (hop : op ≠ .copy)
    (h : op.run e s = .ok e' t) : Issues s.nextLock t.nextLock e.column.lock? e'.column.lock? := by
  apply Column.runAll_issues _ (Edit.Op.column_of_ok h)
  intro x hx
  -- only copying an edit copies its column
  cases op with
  | removeLighting layer sky =>
    cases sky <;> simp [Edit.Op.columnOps] at hx <;> simp [hx]
  | copy => exact absurd rfl hop
  | _ => simp [Edit.Op.columnOps] at hx <;> rcases hx with rfl | rfl <;> simp

theorem Edit.sectionLock_ok (e : Edit) (layer : Int) (s : Session) :
    ∃ lock e' t, e.sectionLock layer s = .ok (lock, e') t := by
  obtain ⟨e₁, s₁, hreach⟩ := e.reach_ok layer s
  obtain ⟨lock, c', t, hlock, -⟩ := e₁.column.sectionLock_ok layer s₁
  exact ⟨lock, { e₁ with column := c' }, t, (Run.bind_of_ok hreach _).trans (Run.bind_of_ok hlock _)⟩

/-- Asking an edit for a lock gives the lock of the layer in its column. -/
theorem Edit.sectionLock_issues {e e' : Edit} {layer : Int} {lock : SectionLock} {s t : Session}
    (h : e.sectionLock layer s = .ok (lock, e') t) :
    Issues s.nextLock t.nextLock e.column.lock? e'.column.lock? ∧ e'.column.lock? layer = some lock := by
  obtain ⟨e₁, s₁, hreach, h⟩ := Run.bind_eq_ok.1 h
  obtain ⟨⟨lock', c⟩, s₂, hlock, h⟩ := Run.bind_eq_ok.1 h
  cases h
  obtain ⟨hissues, hsome⟩ := Column.sectionLock_issues hlock
  exact ⟨(Column.reach_issues (Edit.column_reach_of_ok hreach)).trans hissues, hsome⟩

namespace Keyring

section

variable (r : Keyring)

/-- The lock of a layer of an object. -/
def lockAt? (place : Nat × Int) : Option SectionLock := r.objects[place.1]?.bind (·.lock? place.2)

/-- One object more. It gets the next number. -/
def add (x : Lockable) : Keyring := { r with objects := r.objects ++ [x] }

/-- The object of a number as it is now. -/
def put (i : Nat) (x : Lockable) : Keyring := { r with objects := r.objects.set i x }

def note (x : Handle) : Keyring := { r with handles := r.handles ++ [x] }

/-- Runs an operation on column `i`. A copy is an object of its own; a lock that is handed out is noted. -/
def changeColumn (i : Nat) (c : Column) : Column.Op → Run Keyring
  | .copy => do
    return r.add (.column (← c.copy))
  | .sectionLock layer => do
    let (lock, c) ← c.sectionLock layer
    return (r.put i (.column c)).note ⟨i, layer, lock⟩
  | op => do
    return r.put i (.column (← op.run c))

/-- Runs an operation on edit `i`. A copy is an object of its own; a lock that is handed out is noted. -/
def changeEdit (i : Nat) (e : Edit) : Edit.Op → Run Keyring
  | .copy => do
    return r.add (.edit (← e.copy))
  | .sectionLock layer => do
    let (lock, e) ← e.sectionLock layer
    return (r.put i (.edit e)).note ⟨i, layer, lock⟩
  | op => do
    return r.put i (.edit (← op.run e))

end

/-- What can be done. A command on an object that is not there, or is of the other kind, does nothing. -/
inductive Command where
  | newColumn (bottom top : Int) (background : BlockState)
  | newEdit (bottom top : Int)
  | column (i : Nat) (op : Column.Op)
  | edit (i : Nat) (op : Edit.Op)

def Command.run (r : Keyring) : Command → Run Keyring
  | newColumn bottom top background => do
    return r.add (.column (← Column.create bottom top background))
  | newEdit bottom top => do
    return r.add (.edit (← Edit.create bottom top))
  | column i op =>
    match r.objects[i]? with
    | some (.column c) => r.changeColumn i c op
    | some (.edit _) | none => return r
  | edit i op =>
    match r.objects[i]? with
    | some (.edit e) => r.changeEdit i e op
    | some (.column _) | none => return r

/-- The command that asks object `i` for the lock of a layer. -/
def request (i : Nat) (layer : Int) : Lockable → Command
  | .column _ => .column i (.sectionLock layer)
  | .edit _ => .edit i (.sectionLock layer)

/-- One command after the other. -/
def runAll (commands : List Command) (r : Keyring) : Run Keyring := commands.foldlM Command.run r

/-- `History r s`: commands without a fault lead from no objects to `r`, and the session is `s` then. Whatever else
the session does in between, it takes no lock back. -/
inductive History : Keyring → Session → Prop
  | start (s : Session) : History {} s
  | step {r r' : Keyring} {command : Command} {s t : Session} :
      History r s → command.run r s = .ok r' t → History r' t
  | elsewhere {r : Keyring} {s t : Session} : History r s → s.nextLock ≤ t.nextLock → History r t

/-- No lock stands in two places, and each handle has the lock of its place. -/
structure Sound (n : Nat) (r : Keyring) : Prop where
  distinct : Distinct n r.lockAt?
  handles : ∀ x ∈ r.handles, r.lockAt? (x.object, x.layer) = some x.lock

variable {r r' : Keyring} {x y : Lockable} {i n m : Nat} {layer : Int} {s t : Session}

/-! ## Objects -/

theorem lockAt?_eq_some {place : Nat × Int} {l : SectionLock} :
    r.lockAt? place = some l ↔ ∃ x, r.objects[place.1]? = some x ∧ x.lock? place.2 = some l := by
  simp [lockAt?, Option.bind_eq_some_iff]

/-- The locks of the objects change as those of one of them do. -/
theorem issues_put (hx : r.objects[i]? = some x) (h : Issues n m x.lock? y.lock?) :
    Issues n m r.lockAt? (r.put i y).lockAt? := by
  have hi : i < r.objects.length := (List.getElem?_eq_some_iff.1 hx).1
  have hself : ∀ k, (r.put i y).lockAt? (i, k) = y.lock? k := by
    intro k
    simp [lockAt?, put, hi]
  have hother : ∀ j k, j ≠ i → (r.put i y).lockAt? (j, k) = r.lockAt? (j, k) := by
    intro j k hj
    simp [lockAt?, put, List.getElem?_set_ne (Ne.symm hj)]
  have hold : ∀ k, r.lockAt? (i, k) = x.lock? k := by
    intro k
    simp [lockAt?, hx]
  -- a place with a lock that it did not have is one of the changed object
  have hplace : ∀ j k l, r.lockAt? (j, k) = none → (r.put i y).lockAt? (j, k) = some l → j = i := by
    intro j k l hnone hsome
    by_contra hj
    rw [hother j k hj, hnone] at hsome
    cases hsome
  constructor
  · exact h.supply
  · rintro ⟨j, k⟩ l hk
    by_cases hj : j = i
    · subst hj
      rw [hself]
      exact h.kept k l (hold k ▸ hk)
    · rwa [hother j k hj]
  · rintro ⟨j, k⟩ l hnone hsome
    obtain rfl := hplace j k l hnone hsome
    rw [hold] at hnone
    rw [hself] at hsome
    exact h.new k l hnone hsome
  · rintro ⟨j, k⟩ ⟨j', k'⟩ l hnone hnone' hsome hsome'
    obtain rfl := hplace j k l hnone hsome
    obtain rfl := hplace j' k' l hnone' hsome'
    rw [hold] at hnone hnone'
    rw [hself] at hsome hsome'
    rw [h.distinct k k' l hnone hnone' hsome hsome']

/-- An object with new locks only adds these. -/
theorem issues_add (h : Issues n m (fun _ => none) x.lock?) : Issues n m r.lockAt? (r.add x).lockAt? := by
  have hold : ∀ j k, j < r.objects.length → (r.add x).lockAt? (j, k) = r.lockAt? (j, k) := by
    intro j k hj
    simp [lockAt?, add, List.getElem?_append_left hj]
  have hplace : ∀ j k l, r.lockAt? (j, k) = none → (r.add x).lockAt? (j, k) = some l →
      j = r.objects.length ∧ x.lock? k = some l := by
    intro j k l hnone hsome
    have hj : r.objects.length ≤ j := by
      by_contra hj
      rw [hold j k (by omega), hnone] at hsome
      cases hsome
    obtain ⟨y, hy, hk⟩ := lockAt?_eq_some.1 hsome
    simp only [add, List.getElem?_append_right hj, List.getElem?_singleton] at hy
    split at hy
    · cases hy
      exact ⟨by omega, hk⟩
    · cases hy
  constructor
  · exact h.supply
  · rintro ⟨j, k⟩ l hk
    obtain ⟨y, hy, -⟩ := lockAt?_eq_some.1 hk
    rwa [hold j k (List.getElem?_eq_some_iff.1 hy).1]
  · rintro ⟨j, k⟩ l hnone hsome
    exact h.new k l rfl (hplace j k l hnone hsome).2
  · rintro ⟨j, k⟩ ⟨j', k'⟩ l hnone hnone' hsome hsome'
    obtain ⟨rfl, hk⟩ := hplace j k l hnone hsome
    obtain ⟨rfl, hk'⟩ := hplace j' k' l hnone' hsome'
    rw [h.distinct k k' l rfl rfl hk hk']

/-! ## What every command preserves -/

/-- Every handle of `r'` is one of `r`, or has the lock of its place. -/
def NotesFrom (r r' : Keyring) : Prop :=
  ∀ x ∈ r'.handles, x ∈ r.handles ∨ r'.lockAt? (x.object, x.layer) = some x.lock

theorem notesFrom_of_eq (h : r'.handles = r.handles) : NotesFrom r r' := by
  intro x hx
  exact .inl (h ▸ hx)

theorem notesFrom_note (hx : r.objects[i]? = some x) {lock : SectionLock} (hlock : y.lock? layer = some lock) :
    NotesFrom r ((r.put i y).note ⟨i, layer, lock⟩) := by
  intro z hz
  have hi : i < r.objects.length := (List.getElem?_eq_some_iff.1 hx).1
  rcases List.mem_append.1 hz with hz | hz
  · exact .inl hz
  · obtain rfl := List.mem_singleton.1 hz
    right
    simp [lockAt?, note, put, hi, hlock]

theorem changeColumn_issues {c : Column} {op : Column.Op} (hc : r.objects[i]? = some (.column c))
    (h : r.changeColumn i c op s = .ok r' t) :
    Issues s.nextLock t.nextLock r.lockAt? r'.lockAt? ∧ NotesFrom r r' := by
  cases op with
  | copy =>
    obtain ⟨c', s₁, hcopy, h⟩ := Run.bind_eq_ok.1 h
    cases h
    exact ⟨issues_add (x := .column c') (Column.copy_issues hcopy), notesFrom_of_eq rfl⟩
  | sectionLock layer =>
    obtain ⟨⟨lock, c'⟩, s₁, hlock, h⟩ := Run.bind_eq_ok.1 h
    cases h
    obtain ⟨hissues, hsome⟩ := Column.sectionLock_issues hlock
    exact ⟨issues_put (y := .column c') hc hissues, notesFrom_note (y := .column c') hc hsome⟩
  | _ =>
    obtain ⟨c', s₁, hrun, h⟩ := Run.bind_eq_ok.1 h
    cases h
    exact ⟨issues_put (y := .column c') hc (Column.Op.run_issues (by simp) hrun), notesFrom_of_eq rfl⟩

theorem changeEdit_issues {e : Edit} {op : Edit.Op} (he : r.objects[i]? = some (.edit e))
    (h : r.changeEdit i e op s = .ok r' t) :
    Issues s.nextLock t.nextLock r.lockAt? r'.lockAt? ∧ NotesFrom r r' := by
  cases op with
  | copy =>
    obtain ⟨e', s₁, hcopy, h⟩ := Run.bind_eq_ok.1 h
    cases h
    obtain ⟨c, s₂, hcopy, h⟩ := Run.bind_eq_ok.1 hcopy
    cases h
    exact ⟨issues_add (x := .edit { e with column := c }) (Column.copy_issues hcopy), notesFrom_of_eq rfl⟩
  | sectionLock layer =>
    obtain ⟨⟨lock, e'⟩, s₁, hlock, h⟩ := Run.bind_eq_ok.1 h
    cases h
    obtain ⟨hissues, hsome⟩ := Edit.sectionLock_issues hlock
    exact ⟨issues_put (y := .edit e') he hissues, notesFrom_note (y := .edit e') he hsome⟩
  | _ =>
    obtain ⟨e', s₁, hrun, h⟩ := Run.bind_eq_ok.1 h
    cases h
    exact ⟨issues_put (y := .edit e') he (Edit.Op.run_issues (by simp) hrun), notesFrom_of_eq rfl⟩

/-- No command moves a lock, and each lock that is handed out is noted for its place. -/
theorem Command.run_issues {command : Command} (h : command.run r s = .ok r' t) :
    Issues s.nextLock t.nextLock r.lockAt? r'.lockAt? ∧ NotesFrom r r' := by
  have hnothing : (pure r : Run Keyring) s = .ok r' t →
      Issues s.nextLock t.nextLock r.lockAt? r'.lockAt? ∧ NotesFrom r r' := by
    intro h
    obtain ⟨rfl, rfl⟩ := Run.pure_eq_ok.1 h
    exact ⟨.of_eq rfl rfl, notesFrom_of_eq rfl⟩
  cases command with
  | newColumn bottom top background =>
    obtain ⟨c, s₁, hcreate, h⟩ := Run.bind_eq_ok.1 h
    cases h
    exact ⟨issues_add (x := .column c) (Column.create_issues hcreate), notesFrom_of_eq rfl⟩
  | newEdit bottom top =>
    obtain ⟨e, s₁, hcreate, h⟩ := Run.bind_eq_ok.1 h
    cases h
    obtain ⟨c, s₂, hcreate, h⟩ := Run.bind_eq_ok.1 hcreate
    cases h
    exact ⟨issues_add (x := .edit { column := c }) (Column.create_issues hcreate), notesFrom_of_eq rfl⟩
  | column i op =>
    cases hc : r.objects[i]? with
    | none =>
      rw [run, hc] at h
      exact hnothing h
    | some x =>
      rw [run, hc] at h
      cases x with
      | column c => exact changeColumn_issues hc h
      | edit e => exact hnothing h
  | edit i op =>
    cases he : r.objects[i]? with
    | none =>
      rw [run, he] at h
      exact hnothing h
    | some x =>
      rw [run, he] at h
      cases x with
      | edit e => exact changeEdit_issues he h
      | column c => exact hnothing h

theorem Sound.run {command : Command} (hr : r.Sound s.nextLock) (h : command.run r s = .ok r' t) :
    r'.Sound t.nextLock := by
  obtain ⟨hissues, hhandles⟩ := Command.run_issues h
  constructor
  · exact hr.distinct.issue hissues
  · intro x hx
    rcases hhandles x hx with hold | hnew
    · exact hissues.kept _ _ (hr.handles x hold)
    · exact hnew

theorem History.sound (h : History r s) : r.Sound s.nextLock := by
  induction h with
  | start s => exact ⟨⟨fun k l hk => by simp [lockAt?] at hk, fun k k' l hk => by simp [lockAt?] at hk⟩, nofun⟩
  | step _ hrun ih => exact ih.run hrun
  | elsewhere _ hle ih =>
    exact ⟨⟨fun k l hk => Nat.lt_of_lt_of_le (ih.distinct.below k l hk) hle, ih.distinct.injective⟩, ih.handles⟩

theorem History.run {commands : List Command} (h : History r s) (hrun : runAll commands r s = .ok r' t) :
    History r' t := by
  induction commands generalizing r s with
  | nil =>
    obtain ⟨rfl, rfl⟩ := Run.pure_eq_ok.1 hrun
    exact h
  | cons command commands ih =>
    obtain ⟨r₁, s₁, hcommand, hrun⟩ := Run.bind_eq_ok.1 hrun
    exact ih (h.step hcommand) hrun

/-! ## Who has which lock -/

/-- A request for a lock is always answered, and the answer is noted. -/
theorem request_ok (hx : r.objects[i]? = some x) (layer : Int) (s : Session) :
    ∃ lock r' t, (request i layer x).run r s = .ok r' t ∧ r'.handles = r.handles ++ [⟨i, layer, lock⟩] := by
  cases x with
  | column c =>
    obtain ⟨lock, c', t, hlock, -⟩ := c.sectionLock_ok layer s
    refine ⟨lock, (r.put i (.column c')).note ⟨i, layer, lock⟩, t, ?_, rfl⟩
    rw [request, Command.run, hx]
    exact Run.bind_of_ok hlock _
  | edit e =>
    obtain ⟨lock, e', t, hlock⟩ := e.sectionLock_ok layer s
    refine ⟨lock, (r.put i (.edit e')).note ⟨i, layer, lock⟩, t, ?_, rfl⟩
    rw [request, Command.run, hx]
    exact Run.bind_of_ok hlock _

/-- Locks stay with their layers. Whatever was done with the columns and edits of a session, in whichever directions
they grew, two locks that were handed out are the same exactly if they were asked for one layer of one object. So no
lock of a copy is one of the object that was copied, or of any other. Whoever asks for a lock now gets one, and it is
the one of every handle for that layer of that object, and of no other. -/
theorem history_handles (h : History r s) :
    (∀ a ∈ r.handles, ∀ b ∈ r.handles, a.lock = b.lock ↔ a.object = b.object ∧ a.layer = b.layer) ∧
      ∀ i x, r.objects[i]? = some x → ∀ layer, ∃ lock r' t,
        (request i layer x).run r s = .ok r' t ∧ r'.handles = r.handles ++ [⟨i, layer, lock⟩] ∧
        ∀ a ∈ r.handles, a.lock = lock ↔ a.object = i ∧ a.layer = layer := by
  have hsame : ∀ {r s}, History r s → ∀ a ∈ r.handles, ∀ b ∈ r.handles,
      a.lock = b.lock ↔ a.object = b.object ∧ a.layer = b.layer := by
    intro r s h a ha b hb
    have hplace := h.sound.handles a ha
    have hplace' := h.sound.handles b hb
    constructor
    · intro heq
      rw [← heq] at hplace'
      simpa using h.sound.distinct.injective _ _ _ hplace hplace'
    · rintro ⟨hobject, hlayer⟩
      rw [hobject, hlayer, hplace'] at hplace
      exact (Option.some.inj hplace).symm
  refine ⟨hsame h, ?_⟩
  intro i x hx layer
  obtain ⟨lock, r', t, hrun, hnoted⟩ := request_ok hx layer s
  refine ⟨lock, r', t, hrun, hnoted, ?_⟩
  intro a ha
  have hmem : ∀ b ∈ r.handles ++ [⟨i, layer, lock⟩], b ∈ r'.handles := by simp [hnoted]
  exact hsame (h.step hrun) a (hmem a (by simp [ha])) ⟨i, layer, lock⟩ (hmem _ (by simp))

/-- Layer 1 of a column is asked for its lock twice, and in between the column grows both ways and is copied. The two
are one lock. The locks of layer -4, of layer 1 of the copy and of layer 1 of an edit are others. -/
theorem history_handles_growth :
    ∃ r s, History r s ∧ ∃ a b c d e, r.handles = [a, b, c, d, e] ∧ a.lock = b.lock ∧ a.lock ≠ c.lock ∧
      a.lock ≠ d.lock ∧ a.lock ≠ e.lock ∧ d.lock ≠ e.lock := by
  let commands : List Command := [.newColumn 0 3 .reserved, .column 0 (.sectionLock 1), .column 0 .copy,
    .column 0 (.fillSection (-5) 7), .column 0 (.extendTo 6), .column 0 (.sectionLock 1), .column 0 .reset,
    .column 0 (.sectionLock (-4)), .column 1 (.sectionLock 1), .newEdit 0 0, .edit 2 (.sectionLock 1)]
  have hplaces : (match runAll commands {} {} with
      | .ok r _ => r.handles.map fun x => (x.object, x.layer)
      | .error _ _ => []) = [(0, 1), (0, 1), (0, -4), (1, 1), (2, 1)] := by decide +kernel
  cases hrun : runAll commands {} {} with
  | error f s =>
    rw [hrun] at hplaces
    cases hplaces
  | ok r s =>
    rw [hrun] at hplaces
    have h := (History.start {}).run hrun
    obtain ⟨a, b, c, d, e, hhandles⟩ : ∃ a b c d e, r.handles = [a, b, c, d, e] := by
      have hlength := congrArg List.length hplaces
      simp only [List.length_map, List.length_cons, List.length_nil] at hlength
      match hr : r.handles, hlength with
      | [a, b, c, d, e], _ => exact ⟨a, b, c, d, e, rfl⟩
    simp [hhandles] at hplaces
    have hsame := (history_handles h).1
    simp only [hhandles, List.mem_cons, List.not_mem_nil, or_false] at hsame
    refine ⟨r, s, h, a, b, c, d, e, hhandles, ?_, ?_, ?_, ?_, ?_⟩
    · simp [hsame a (by simp) b (by simp), hplaces]
    · simp [hsame a (by simp) c (by simp), hplaces]
    · simp [hsame a (by simp) d (by simp), hplaces]
    · simp [hsame a (by simp) e (by simp), hplaces]
    · simp [hsame d (by simp) e (by simp), hplaces]

end Keyring

end VoxelStore
