import VoxelStore.Pool
import VoxelStore.Proofs.Column.NormalForm
import VoxelStore.Proofs.Edit.SideData
/-!
# Who has an edit

An edit is constructed once, by the pool or elsewhere, and is then handed from owner to owner through the pool.
`Lending` is a pool together with everything that is out of it. Edits are numbered as they are constructed, and
a log says what the pool did with each of them; the pool itself is the same code for numbered edits
(`plain_poll`, `plain_recycle`). Owners poll, recycle, change, copy, pass on and drop their edits in any order,
and bring edits of their own.

`Sound` is what every command preserves. From it follows that each edit is in one place only, that idle ones are
cleared, that the pool hands them out in the order in which it took them back, and that no range ever shrinks
(`history_lending`).
-/

namespace VoxelStore

/-! ## Numbered edits -/

/-- An edit with the number that it got when it was constructed. -/
structure Instance where
  id : Nat
  edit : Edit

namespace Instance

variable {x y z : Instance}

def map (f : Edit → Edit) (x : Instance) : Instance := { x with edit := f x.edit }

/-- The range of `y` contains that of `x`. -/
structure GrowsTo (x y : Instance) : Prop where
  bottom : y.edit.column.bottom ≤ x.edit.column.bottom
  top : x.edit.column.top ≤ y.edit.column.top

theorem GrowsTo.refl (x : Instance) : x.GrowsTo x := ⟨Int.le_refl _, Int.le_refl _⟩

theorem GrowsTo.trans (h : x.GrowsTo y) (h' : y.GrowsTo z) : x.GrowsTo z :=
  ⟨Int.le_trans h'.bottom h.bottom, Int.le_trans h.top h'.top⟩

/-- Clearing an edit keeps its range. -/
theorem growsTo_reset (x : Instance) : x.GrowsTo (x.map Edit.reset) := by
  have h := Column.maps_reset x.edit.column
  exact ⟨Int.le_of_eq h.bottom, Int.le_of_eq h.top.symm⟩

end Instance

/-- An operation takes no layer away from an edit. -/
theorem Edit.Op.growsTo {op : Edit.Op} {x : Instance} {e : Edit} {s t : Session}
    (h : op.run x.edit s = .ok e t) : x.GrowsTo { x with edit := e } := by
  obtain ⟨hbottom, htop, -⟩ := Column.runAll_grows (Edit.Op.column_of_ok h)
  exact ⟨hbottom, htop⟩

/-- A cleared edit would change nothing, and says nothing besides. -/
theorem Edit.reset_cleared (e : Edit) : e.reset.isEmpty = true ∧ e.reset.sideData = .unchanged := by
  have hlayers : e.reset.column.isEmpty = true := by
    refine (Column.isEmpty_iff _).2 fun k => ?_
    rw [Column.state, Edit.reset, (Column.maps_reset e.column).layer k]
    cases e.column.layer k <;> rfl
  exact ⟨hlayers, (sideData_fresh e.column.reset).1⟩

/-! ## A pool and what is out of it -/

/-- What happens to an edit as a whole, with the edit as it is then. -/
inductive Lending.Event where
  /-- It was constructed, but not by the pool. -/
  | constructed (x : Instance)
  /-- The pool constructed it for who polled. -/
  | built (x : Instance)
  /-- It was idle, and was polled. -/
  | lent (x : Instance)
  /-- It was recycled and cleared, and is idle now. -/
  | kept (x : Instance)
  /-- It was recycled and is gone. -/
  | dropped (x : Instance)

namespace Lending.Event

def subject : Event → Instance
  | constructed x | built x | lent x | kept x | dropped x => x

def lent? : Event → Option Instance
  | lent x => some x
  | _ => none

def kept? : Event → Option Instance
  | kept x => some x
  | _ => none

end Lending.Event

/-- A pool, its idle edits and the edits that have owners. -/
structure Lending where
  /-- The pool as it was made, which says its capacity and how it builds and clears. -/
  origin : Pool Edit
  /-- What waits in the pool, the edit that has waited longest first. -/
  idle : List Instance := []
  /-- Owners, and what they own. -/
  owned : List (Nat × Instance) := []
  /-- The number of the next edit. -/
  next : Nat := 0
  /-- What the pool did, oldest first. -/
  log : List Lending.Event := []

namespace Lending

variable {l l' : Lending} {s t : Session} {owner : Nat} {x : Instance}

/-- The pool of numbered edits: one that it builds gets the next number, and clearing keeps the number. -/
def pool (l : Lending) : Pool Instance where
  capacity := l.origin.capacity
  idle := l.idle
  build := Instance.mk l.next <$> l.origin.build
  clear := Instance.map l.origin.clear

/-- The pool without the numbers. -/
def plain (l : Lending) : Pool Edit := { l.origin with idle := l.idle.map Instance.edit }

/-- Everything that was constructed and is not gone. -/
def instances (l : Lending) : List Instance := l.idle ++ l.owned.map Prod.snd

/-- An edit for an owner, and why the owner has it. -/
def hand (l : Lending) (owner : Nat) (x : Instance) (event : Event) : Lending :=
  { l with owned := l.owned ++ [(owner, x)], log := l.log ++ [event] }

/-- A new edit for an owner. It takes the next number. -/
def enroll (l : Lending) (owner : Nat) (e : Edit) (event : Instance → Event) : Lending :=
  { l.hand owner ⟨l.next, e⟩ (event ⟨l.next, e⟩) with next := l.next + 1 }

/-- What an owner can do. Owned edits go by their place; a command on an edit that is not there does
nothing. -/
inductive Command where
  | poll (owner : Nat)
  | recycle (i : Nat)
  | change (i : Nat) (op : Edit.Op)
  | copy (i owner : Nat)
  /-- An edit from elsewhere, in any state. -/
  | bring (owner : Nat) (e : Edit)
  | give (i owner : Nat)
  | discard (i : Nat)

namespace Command

/-- What a command makes of a pool and its owners. Whether a polled edit is a new one, and whether a recycled one
was kept, is told from what the pool did. -/
def run (l : Lending) : Command → Run Lending
  | poll owner => do
    let (x, pool) ← l.pool.poll
    if x.id < l.next then return { l.hand owner x (.lent x) with idle := pool.idle }
    else return { l.hand owner x (.built x) with idle := pool.idle, next := x.id + 1 }
  | recycle i =>
    match l.owned[i]? with
    | none => return l
    | some (_, x) => do
      let pool ← l.pool.recycle x
      return { l with
        idle := pool.idle
        owned := l.owned.eraseIdx i
        log := l.log ++ [(pool.idle.find? (·.id = x.id)).elim (.dropped x) .kept] }
  | change i op =>
    match l.owned[i]? with
    | none => return l
    | some (owner, x) => return { l with owned := l.owned.set i (owner, { x with edit := ← op.run x.edit }) }
  | copy i owner =>
    match l.owned[i]? with
    | none => return l
    | some (_, x) => return l.enroll owner (← x.edit.copy) .constructed
  | bring owner e => return l.enroll owner e .constructed
  | give i owner =>
    match l.owned[i]? with
    | none => return l
    | some (_, x) => return { l with owned := l.owned.set i (owner, x) }
  | discard i => return { l with owned := l.owned.eraseIdx i }

/-- The command changes edits where they are. To go on with a copy is to own another edit. -/
def InPlace : Command → Prop
  | change _ .copy => False
  | _ => True

end Command

/-- One command after the other. -/
def runAll (commands : List Command) (l : Lending) : Run Lending := commands.foldlM Command.run l

/-- `History capacity build commands l`: a pool was made with the capacity and the way to build edits, and is `l`
after the commands, each in a session of its own. -/
inductive History (capacity : Nat) (build : Run Edit) : List Command → Lending → Prop
  | start {pool : Pool Edit} :
      Pool.create capacity build Edit.reset = .ok pool → History capacity build [] { origin := pool }
  | step {commands : List Command} {command : Command} {l l' : Lending} {s t : Session} :
      History capacity build commands l → command.InPlace → command.run l s = .ok l' t →
      History capacity build (commands ++ [command]) l'

/-! ## The pool does not look at the numbers -/

/-- A pool of edits without numbers hands out the same edits, and the same ones are left in it. -/
theorem plain_poll (l : Lending) :
    (fun p => (p.1, p.2.idle)) <$> l.plain.poll =
      (fun p => (p.1.edit, p.2.idle.map Instance.edit)) <$> l.pool.poll := by
  unfold Pool.poll plain pool
  cases l.idle with
  | nil => simp only [map_eq_pure_bind, bind_assoc, pure_bind, List.map_nil]
  | cons x rest => rfl

/-- It also keeps the same edits. -/
theorem plain_recycle (l : Lending) (x : Instance) :
    Pool.idle <$> l.plain.recycle x.edit = (fun p => p.idle.map Instance.edit) <$> l.pool.recycle x := by
  unfold Pool.recycle plain pool
  dsimp only
  rw [List.length_map]
  split
  · simp [Instance.map]
  · simp only [map_eq_pure_bind, bind_assoc, pure_bind]

/-! ## Numbers and ranges -/

/-- What the numbers of the edits at hand say about a log: no number is there twice, the ones from `next` on are
free, and whenever an edit was seen its range was no larger than it was later. -/
structure Traced (xs : List Instance) (next : Nat) (log : List Event) : Prop where
  once : (xs.map Instance.id).Nodup
  below : ∀ x ∈ xs, x.id < next
  seenBelow : ∀ a ∈ log, a.subject.id < next
  current : ∀ a ∈ log, ∀ x ∈ xs, a.subject.id = x.id → a.subject.GrowsTo x
  grows : log.Pairwise fun a b => a.subject.id = b.subject.id → a.subject.GrowsTo b.subject

variable {xs ys : List Instance} {next : Nat} {log : List Event}

theorem Traced.sublist (h : Traced xs next log) (hsub : ys.Sublist xs) : Traced ys next log where
  once := (hsub.map Instance.id).nodup h.once
  below y hy := h.below y (hsub.subset hy)
  seenBelow := h.seenBelow
  current a ha y hy := h.current a ha y (hsub.subset hy)
  grows := h.grows

theorem Traced.perm (h : Traced xs next log) (hperm : xs.Perm ys) : Traced ys next log where
  once := (hperm.map Instance.id).nodup_iff.1 h.once
  below y hy := h.below y (hperm.mem_iff.2 hy)
  seenBelow := h.seenBelow
  current a ha y hy := h.current a ha y (hperm.mem_iff.2 hy)
  grows := h.grows

/-- An edit at hand may be seen at any time. -/
theorem Traced.see (h : Traced xs next log) {a : Event} (ha : a.subject ∈ xs) : Traced xs next (log ++ [a]) where
  once := h.once
  below := h.below
  seenBelow b hb := by
    rcases List.mem_append.1 hb with hb | hb
    · exact h.seenBelow b hb
    · rw [List.mem_singleton.1 hb]
      exact h.below _ ha
  current b hb x hx hid := by
    rcases List.mem_append.1 hb with hb | hb
    · exact h.current b hb x hx hid
    · -- two edits at hand with one number are one edit
      rw [List.mem_singleton.1 hb] at hid ⊢
      rw [List.inj_on_of_nodup_map h.once ha hx hid]
      exact .refl x
  grows := by
    refine List.pairwise_append.2 ⟨h.grows, List.pairwise_singleton _ _, fun b hb c hc hid => ?_⟩
    rw [List.mem_singleton.1 hc] at hid ⊢
    exact h.current b hb _ ha hid

/-- An edit may grow. -/
theorem Traced.grow {y : Instance} (h : Traced (x :: xs) next log) (hid : y.id = x.id) (hgrows : x.GrowsTo y) :
    Traced (y :: xs) next log where
  once := by
    have honce := h.once
    rw [List.map_cons] at honce ⊢
    rwa [hid]
  below z hz := by
    rcases List.mem_cons.1 hz with rfl | hz
    · rw [hid]
      exact h.below x List.mem_cons_self
    · exact h.below z (List.mem_cons_of_mem x hz)
  seenBelow := h.seenBelow
  current a ha z hz haz := by
    rcases List.mem_cons.1 hz with rfl | hz
    · exact (h.current a ha x List.mem_cons_self (haz.trans hid)).trans hgrows
    · exact h.current a ha z (List.mem_cons_of_mem x hz) haz
  grows := h.grows

/-- A new edit takes the next number, and nothing with that number was seen before. -/
theorem Traced.construct (h : Traced xs next log) (hx : x.id = next) : Traced (x :: xs) (next + 1) log where
  once := by
    rw [List.map_cons, List.nodup_cons]
    refine ⟨fun hmem => ?_, h.once⟩
    obtain ⟨y, hy, hid⟩ := List.mem_map.1 hmem
    exact Nat.ne_of_lt (h.below y hy) (hid.trans hx)
  below y hy := by
    rcases List.mem_cons.1 hy with rfl | hy
    · exact hx ▸ Nat.lt_succ_self _
    · exact Nat.lt_succ_of_lt (h.below y hy)
  seenBelow a ha := Nat.lt_succ_of_lt (h.seenBelow a ha)
  current a ha y hy hid := by
    rcases List.mem_cons.1 hy with rfl | hy
    · exact absurd (hid.trans hx) (Nat.ne_of_lt (h.seenBelow a ha))
    · exact h.current a ha y hy hid
  grows := h.grows

/-! ## What the pool does -/

/-- Edits from the pool to an owner: the one that has waited longest. -/
theorem run_poll_of_idle {rest : List Instance} (h : l.idle = x :: rest) (hx : x.id < l.next) (owner : Nat)
    (s : Session) :
    (Command.poll owner).run l s = .ok { l.hand owner x (.lent x) with idle := rest } s := by
  have hpoll : l.pool.poll s = .ok (x, { l.pool with idle := rest }) s := by
    rw [Pool.poll, pool, h]
    rfl
  rw [Command.run, Run.bind_of_ok hpoll]
  simp only [if_pos hx]
  rfl

/-- An empty pool builds. -/
theorem run_poll_of_empty (h : l.idle = []) (owner : Nat) :
    (Command.poll owner).run l = (do
      Run.emit .poolWasEmpty
      return l.enroll owner (← l.origin.build) .built) := by
  have hpoll : l.pool.poll = (do
      Run.emit .poolWasEmpty
      return (⟨l.next, ← l.origin.build⟩, l.pool)) := by
    rw [Pool.poll, pool, h]
    simp only [map_eq_pure_bind, bind_assoc, pure_bind]
  rw [Command.run, hpoll]
  simp only [bind_assoc, pure_bind, Nat.lt_irrefl, if_false]
  rfl

theorem find?_idle_eq_none (h : ∀ y ∈ l.idle, y.id ≠ x.id) : l.idle.find? (·.id = x.id) = none := by
  refine List.find?_eq_none.2 fun y hy => ?_
  rw [decide_eq_true_eq]
  exact h y hy

/-- A pool with room clears what is recycled, and puts it behind all that waits. -/
theorem run_recycle_of_room {i : Nat} (h : l.owned[i]? = some (owner, x)) (hidle : ∀ y ∈ l.idle, y.id ≠ x.id)
    (hroom : l.idle.length < l.origin.capacity) (s : Session) :
    (Command.recycle i).run l s = .ok { l with
      idle := l.idle ++ [x.map l.origin.clear]
      owned := l.owned.eraseIdx i
      log := l.log ++ [.kept (x.map l.origin.clear)] } s := by
  have hrecycle : l.pool.recycle x s = .ok { l.pool with idle := l.idle ++ [x.map l.origin.clear] } s := by
    rw [Pool.recycle, if_pos (show l.pool.idle.length < l.pool.capacity from hroom)]
    rfl
  have hfind : (l.idle ++ [x.map l.origin.clear]).find? (·.id = x.id) = some (x.map l.origin.clear) := by
    rw [List.find?_append, find?_idle_eq_none hidle]
    simp [Instance.map]
  rw [Command.run, h]
  dsimp only
  rw [Run.bind_of_ok hrecycle, hfind]
  rfl

/-- A full pool does not change. -/
theorem run_recycle_of_full {i : Nat} (h : l.owned[i]? = some (owner, x)) (hidle : ∀ y ∈ l.idle, y.id ≠ x.id)
    (hfull : ¬l.idle.length < l.origin.capacity) (s : Session) :
    (Command.recycle i).run l s = .ok { l with
      owned := l.owned.eraseIdx i
      log := l.log ++ [.dropped x] } { s with events := s.events.push .poolWasFull } := by
  have hrecycle : l.pool.recycle x s = .ok l.pool { s with events := s.events.push .poolWasFull } := by
    rw [Pool.recycle, if_neg (show ¬l.pool.idle.length < l.pool.capacity from hfull)]
    rfl
  rw [Command.run, h]
  dsimp only
  rw [Run.bind_of_ok hrecycle, show l.pool.idle = l.idle from rfl, find?_idle_eq_none hidle]
  rfl

/-! ## What every command preserves -/

/-- A pool of edits and its owners are in order. -/
structure Sound (l : Lending) : Prop where
  clear : l.origin.clear = Edit.reset
  traced : Traced l.instances l.next l.log
  room : l.idle.length ≤ l.origin.capacity
  cleared : ∀ x ∈ l.idle, x.edit.isEmpty = true ∧ x.edit.sideData = .unchanged
  /-- What was kept was lent out again in the same order, except for what is still idle. -/
  inOrder : l.log.filterMap Event.kept? = l.log.filterMap Event.lent? ++ l.idle

/-- What an owner has comes beside everything else. -/
theorem instances_perm {i : Nat} (h : l.owned[i]? = some (owner, x)) :
    l.instances.Perm (x :: (l.idle ++ (l.owned.eraseIdx i).map Prod.snd)) := by
  obtain ⟨hi, hx⟩ := List.getElem?_eq_some_iff.1 h
  have howned := (List.getElem_cons_eraseIdx_perm hi).map Prod.snd
  rw [hx, List.map_cons] at howned
  exact (howned.symm.append_left l.idle).trans List.perm_middle

theorem Sound.idle_ne (hl : l.Sound) {i : Nat} (h : l.owned[i]? = some (owner, x)) :
    ∀ y ∈ l.idle, y.id ≠ x.id := by
  have honce := (hl.traced.perm (instances_perm h)).once
  rw [List.map_cons, List.nodup_cons] at honce
  intro y hy hid
  exact honce.1 (hid ▸ List.mem_map_of_mem (List.mem_append_left _ hy))

/-- What an owner is handed comes beside everything else. -/
theorem instances_hand_perm (l : Lending) (owner : Nat) (x : Instance) (a : Event) :
    (x :: l.instances).Perm (l.hand owner x a).instances := by
  have happend := (List.perm_append_singleton x l.instances).symm
  simpa [instances, hand, List.append_assoc] using happend

/-- A new edit for an owner. -/
theorem Sound.enroll (hl : l.Sound) (owner : Nat) (e : Edit) {event : Instance → Event}
    (hevent : event = .built ∨ event = .constructed) : (l.enroll owner e event).Sound where
  clear := hl.clear
  traced := by
    have hsubject : (event ⟨l.next, e⟩).subject ∈ (⟨l.next, e⟩ :: l.instances : List Instance) := by
      rcases hevent with rfl | rfl
      · exact List.mem_cons_self
      · exact List.mem_cons_self
    have htraced := (hl.traced.construct (x := ⟨l.next, e⟩) rfl).see hsubject
    exact htraced.perm (instances_hand_perm l owner ⟨l.next, e⟩ (event ⟨l.next, e⟩))
  room := hl.room
  cleared := hl.cleared
  inOrder := by
    have horder := hl.inOrder
    rcases hevent with rfl | rfl
    · simp [Lending.enroll, hand, List.filterMap_cons, Event.kept?, Event.lent?, horder]
    · simp [Lending.enroll, hand, List.filterMap_cons, Event.kept?, Event.lent?, horder]

/-- The edit of an owner grows, or changes its owner. -/
theorem Sound.set (hl : l.Sound) {i owner' : Nat} {y : Instance} (h : l.owned[i]? = some (owner, x))
    (hid : y.id = x.id) (hgrows : x.GrowsTo y) :
    Sound { l with owned := l.owned.set i (owner', y) } where
  clear := hl.clear
  traced := by
    have htraced := (hl.traced.perm (instances_perm h)).grow hid hgrows
    obtain ⟨hi, -⟩ := List.getElem?_eq_some_iff.1 h
    have howned := (List.set_perm_cons_eraseIdx hi (owner', y)).map Prod.snd
    exact htraced.perm (List.perm_middle.symm.trans (howned.symm.append_left l.idle))
  room := hl.room
  cleared := hl.cleared
  inOrder := hl.inOrder

theorem Sound.discard (hl : l.Sound) (i : Nat) : Sound { l with owned := l.owned.eraseIdx i } where
  clear := hl.clear
  traced := hl.traced.sublist (((List.eraseIdx_sublist l.owned i).map Prod.snd).append_left l.idle)
  room := hl.room
  cleared := hl.cleared
  inOrder := hl.inOrder

/-- The edit that has waited longest goes to an owner. -/
theorem Sound.lend (hl : l.Sound) {rest : List Instance} (h : l.idle = x :: rest) (owner : Nat) :
    Sound { l.hand owner x (.lent x) with idle := rest } where
  clear := hl.clear
  traced := by
    have hx : (Event.lent x).subject ∈ l.instances := List.mem_append_left _ (h ▸ List.mem_cons_self)
    have hperm := instances_hand_perm { l with idle := rest } owner x (.lent x)
    have hinstances : l.instances = x :: instances { l with idle := rest } := by
      rw [instances, h]
      rfl
    rw [← hinstances] at hperm
    exact (hl.traced.see hx).perm hperm
  room := by
    have hroom := hl.room
    rw [h, List.length_cons] at hroom
    exact Nat.le_of_succ_le hroom
  cleared y hy := hl.cleared y (h ▸ List.mem_cons_of_mem x hy)
  inOrder := by
    have horder := hl.inOrder
    rw [h] at horder
    simp [hand, List.filterMap_cons, Event.kept?, Event.lent?, horder]

/-- A recycled edit is cleared and waits. -/
theorem Sound.keep (hl : l.Sound) {i : Nat} (h : l.owned[i]? = some (owner, x))
    (hroom : l.idle.length < l.origin.capacity) :
    Sound { l with
      idle := l.idle ++ [x.map l.origin.clear]
      owned := l.owned.eraseIdx i
      log := l.log ++ [.kept (x.map l.origin.clear)] } where
  clear := hl.clear
  traced := by
    have hgrows : x.GrowsTo (x.map l.origin.clear) := by
      rw [hl.clear]
      exact x.growsTo_reset
    have htraced := (hl.traced.perm (instances_perm h)).grow (y := x.map l.origin.clear) rfl hgrows
    have hseen := htraced.see (a := .kept (x.map l.origin.clear)) List.mem_cons_self
    refine hseen.perm ?_
    rw [instances, List.append_assoc]
    exact List.perm_middle.symm
  room := by
    rw [List.length_append, List.length_singleton]
    exact hroom
  cleared y hy := by
    rcases List.mem_append.1 hy with hy | hy
    · exact hl.cleared y hy
    · rw [List.mem_singleton.1 hy, hl.clear]
      exact x.edit.reset_cleared
  inOrder := by
    have horder := hl.inOrder
    simp [List.filterMap_cons, Event.kept?, Event.lent?, horder]

/-- A recycled edit for which there is no room is gone. -/
theorem Sound.drop (hl : l.Sound) {i : Nat} (h : l.owned[i]? = some (owner, x)) :
    Sound { l with owned := l.owned.eraseIdx i, log := l.log ++ [.dropped x] } := by
  have hseen : Sound { l with log := l.log ++ [.dropped x] } := by
    refine ⟨hl.clear, ?_, hl.room, hl.cleared, ?_⟩
    · exact hl.traced.see ((instances_perm h).mem_iff.2 List.mem_cons_self)
    · have horder := hl.inOrder
      simp [List.filterMap_cons, Event.kept?, Event.lent?, horder]
  exact hseen.discard i

/-- Every command leaves everything in order. -/
theorem Command.run_sound {command : Command} (hplace : command.InPlace) (h : command.run l s = .ok l' t)
    (hl : l.Sound) : l'.Sound ∧ l'.origin = l.origin := by
  cases command with
  | poll owner =>
    cases hidle : l.idle with
    | nil =>
      rw [run_poll_of_empty hidle] at h
      obtain ⟨-, s₁, -, h⟩ := Run.bind_eq_ok.1 h
      obtain ⟨e, s₂, -, h⟩ := Run.bind_eq_ok.1 h
      cases h
      exact ⟨hl.enroll owner e (.inl rfl), rfl⟩
    | cons x rest =>
      have hx : x ∈ l.instances := List.mem_append_left _ (hidle ▸ List.mem_cons_self)
      cases (run_poll_of_idle hidle (hl.traced.below x hx) owner s).symm.trans h
      exact ⟨hl.lend hidle owner, rfl⟩
  | recycle i =>
    cases hi : l.owned[i]? with
    | none =>
      rw [run, hi] at h
      cases h
      exact ⟨hl, rfl⟩
    | some o =>
      by_cases hroom : l.idle.length < l.origin.capacity
      · cases (run_recycle_of_room hi (hl.idle_ne hi) hroom s).symm.trans h
        exact ⟨hl.keep hi hroom, rfl⟩
      · cases (run_recycle_of_full hi (hl.idle_ne hi) hroom s).symm.trans h
        exact ⟨hl.drop hi, rfl⟩
  | change i op =>
    rw [run] at h
    cases hi : l.owned[i]? with
    | none =>
      rw [hi] at h
      cases h
      exact ⟨hl, rfl⟩
    | some o =>
      rw [hi] at h
      obtain ⟨e, s₁, hop, h⟩ := Run.bind_eq_ok.1 h
      cases h
      exact ⟨hl.set hi rfl (Edit.Op.growsTo hop), rfl⟩
  | copy i owner =>
    rw [run] at h
    cases hi : l.owned[i]? with
    | none =>
      rw [hi] at h
      cases h
      exact ⟨hl, rfl⟩
    | some o =>
      rw [hi] at h
      obtain ⟨e, s₁, -, h⟩ := Run.bind_eq_ok.1 h
      cases h
      exact ⟨hl.enroll owner e (.inr rfl), rfl⟩
  | bring owner e =>
    cases h
    exact ⟨hl.enroll owner e (.inr rfl), rfl⟩
  | give i owner =>
    rw [run] at h
    cases hi : l.owned[i]? with
    | none =>
      rw [hi] at h
      cases h
      exact ⟨hl, rfl⟩
    | some o =>
      rw [hi] at h
      cases h
      exact ⟨hl.set hi rfl (.refl _), rfl⟩
  | discard i =>
    cases h
    exact ⟨hl.discard i, rfl⟩

/-! ## Every history -/

variable {capacity : Nat} {build : Run Edit} {commands : List Command}

theorem History.sound (h : History capacity build commands l) :
    l.Sound ∧ l.origin = { capacity, build, clear := Edit.reset } := by
  induction h with
  | start hcreate =>
    rw [Pool.create] at hcreate
    split at hcreate
    · cases hcreate
    · cases hcreate
      refine ⟨⟨rfl, ⟨List.nodup_nil, ?_, ?_, ?_, .nil⟩, Nat.zero_le capacity, ?_, rfl⟩, rfl⟩
      · exact fun x hx => absurd hx List.not_mem_nil
      · exact fun a ha => absurd ha List.not_mem_nil
      · exact fun a ha => absurd ha List.not_mem_nil
      · exact fun x hx => absurd hx List.not_mem_nil
  | step _ hplace hrun ih =>
    obtain ⟨hsound, horigin⟩ := Command.run_sound hplace hrun ih.1
    exact ⟨hsound, horigin.trans ih.2⟩

/-- The pools of the settings are such pools. -/
theorem history_forEdits {settings : Settings} {pool : Pool Edit} (h : Pool.forEdits settings = .ok pool) :
    History settings.poolSize.toNat (Edit.ofSettings settings) [] { origin := pool } := by
  obtain ⟨-, -, hcreate⟩ := except_bind_eq_ok.1 h
  exact .start hcreate

/-- A run of commands is a history. -/
theorem History.run {more : List Command} (h : History capacity build commands l)
    (hplace : ∀ x ∈ more, x.InPlace) (hrun : runAll more l s = .ok l' t) :
    History capacity build (commands ++ more) l' := by
  induction more generalizing commands l s with
  | nil =>
    cases hrun
    rwa [List.append_nil]
  | cons command more ih =>
    obtain ⟨l₁, s₁, hcommand, hrun⟩ := Run.bind_eq_ok.1 hrun
    have hstep := h.step (hplace command List.mem_cons_self) hcommand
    have hall := ih hstep (fun x hx => hplace x (List.mem_cons_of_mem command hx)) hrun
    rwa [List.append_assoc] at hall

/-- Whatever its owners did, a pool has lent out each of its edits once. No edit is in two places: idle twice, idle
and owned, or with two owners. There are never more idle edits than the capacity, and all of them are cleared.
What was kept has been lent out in the same order and as it was kept, except for what is still idle. The range of
an edit is never smaller than it was before, from its construction on. Numbers are not used twice.

What the pool does next is settled by this state alone. It builds an edit if none is idle, and hands out the one
that has waited longest otherwise. It keeps what is recycled, cleared and behind all others, if there is room,
and drops it otherwise. -/
theorem history_lending (h : History capacity build commands l) :
    (l.instances.map Instance.id).Nodup ∧
      l.idle.length ≤ capacity ∧
      (∀ x ∈ l.idle, x.edit.isEmpty = true ∧ x.edit.sideData = .unchanged ∧ x.edit.fastMode = false ∧
        x.edit.bitMask = -1) ∧
      l.log.filterMap Event.kept? = l.log.filterMap Event.lent? ++ l.idle ∧
      (l.log.Pairwise fun a b => a.subject.id = b.subject.id → a.subject.GrowsTo b.subject) ∧
      ((∀ x ∈ l.instances, x.id < l.next) ∧ ∀ a ∈ l.log, a.subject.id < l.next) ∧
      (∀ owner, l.idle = [] → (Command.poll owner).run l = (do
        Run.emit .poolWasEmpty
        return l.enroll owner (← build) .built)) ∧
      (∀ owner x rest s, l.idle = x :: rest →
        (Command.poll owner).run l s = .ok { l.hand owner x (.lent x) with idle := rest } s) ∧
      (∀ i owner x s, l.owned[i]? = some (owner, x) → l.idle.length < capacity →
        (Command.recycle i).run l s = .ok { l with
          idle := l.idle ++ [x.map Edit.reset]
          owned := l.owned.eraseIdx i
          log := l.log ++ [.kept (x.map Edit.reset)] } s) ∧
      ∀ i owner x s, l.owned[i]? = some (owner, x) → l.idle.length = capacity →
        (Command.recycle i).run l s = .ok { l with
          owned := l.owned.eraseIdx i
          log := l.log ++ [.dropped x] } { s with events := s.events.push .poolWasFull } := by
  obtain ⟨hl, horigin⟩ := h.sound
  have hcapacity : l.origin.capacity = capacity := by rw [horigin]
  refine ⟨hl.traced.once, hcapacity ▸ hl.room, fun x hx => ?_, hl.inOrder, hl.traced.grows,
    ⟨hl.traced.below, hl.traced.seenBelow⟩, fun owner hidle => ?_, fun owner x rest s hidle => ?_,
    fun i owner x s hi hroom => ?_, fun i owner x s hi hfull => ?_⟩
  · obtain ⟨hempty, hside⟩ := hl.cleared x hx
    exact ⟨hempty, hside, congrArg SideData.fastMode hside, congrArg SideData.bitMask hside⟩
  · rw [run_poll_of_empty hidle, horigin]
  · have hx : x ∈ l.instances := List.mem_append_left _ (hidle ▸ List.mem_cons_self)
    exact run_poll_of_idle hidle (hl.traced.below x hx) owner s
  · rw [← hcapacity] at hroom
    rw [run_recycle_of_room hi (hl.idle_ne hi) hroom, hl.clear]
  · have hnot : ¬l.idle.length < l.origin.capacity := by
      rw [hfull, hcapacity]
      exact Nat.lt_irrefl capacity
    exact run_recycle_of_full hi (hl.idle_ne hi) hnot s

/-- A pool for one edit takes an edit from elsewhere and lends it out cleared. It grows there, while another one is
built; it comes back first, so the other finds the pool full. The next owner gets it with the range that it
has grown to. -/
theorem history_lending_foreign :
    let foreign : Edit := { column := ⟨0, #[⟨.uniform 7 none, ⟨0⟩⟩], .reserved⟩, fastMode := true, bitMask := 3 }
    ∃ l x, History 1 (Edit.create 0 0) [.bring 7 foreign, .recycle 0, .poll 1, .change 0 (.fillSection 2 5),
        .poll 2, .recycle 0, .recycle 0] l ∧
      l.idle = [x] ∧ l.owned.length = 0 ∧ x.id = 0 ∧ x.edit.column.top = 2 ∧ x.edit.isEmpty = true ∧
      x.edit.sideData = .unchanged ∧
      (Command.poll 3).run l {} = .ok { l.hand 3 x (.lent x) with idle := [] } {} := by
  intro foreign
  have hstart : History 1 (Edit.create 0 0) []
      { origin := { capacity := 1, build := Edit.create 0 0, clear := Edit.reset } } := .start rfl
  have hseen : (match runAll [.bring 7 foreign, .recycle 0, .poll 1, .change 0 (.fillSection 2 5), .poll 2,
        .recycle 0, .recycle 0] { origin := { capacity := 1, build := Edit.create 0 0, clear := Edit.reset } } {} with
      | .ok l _ => (l.owned.length, l.idle.map fun x => (x.id, x.edit.column.top))
      | .error _ _ => (0, [])) = (0, [(0, 2)]) := by decide +kernel
  split at hseen
  · next l t hrun =>
    have hl := hstart.run (by simp [Command.InPlace]) hrun
    obtain ⟨howned, hidle⟩ := Prod.mk.inj hseen
    obtain ⟨x, hx, hx'⟩ := List.map_eq_singleton_iff.1 hidle
    obtain ⟨hid, htop⟩ := Prod.mk.inj hx'
    obtain ⟨-, -, hcleared, -, -, -, -, hlend, -⟩ := history_lending hl
    obtain ⟨hempty, hside, -⟩ := hcleared x (hx ▸ List.mem_cons_self)
    exact ⟨l, x, hl, hx, howned, hid, htop, hempty, hside, hlend 3 x [] {} hx⟩
  · cases hseen

end Lending

end VoxelStore
