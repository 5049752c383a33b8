import VoxelStore.SectionArray
/-!
# Taking runs apart

A run in a session ends in a value or in a fault. The equivalences below split a run that ends in a value
at its binds; `bind_of_ok` goes the other way and steps over a part that is known to end in a value. No
run changes a width that is decided (`current_eq`).
-/

namespace VoxelStore

theorem except_bind_eq_ok {ε α β : Type} {x : Except ε α} {f : α → Except ε β} {b : β} :
    x >>= f = .ok b ↔ ∃ a, x = .ok a ∧ f a = .ok b := by
  cases x <;> simp [bind, Except.bind]

theorem except_bind_eq_error {ε α β : Type} {x : Except ε α} {f : α → Except ε β} {e : ε} :
    x >>= f = .error e ↔ x = .error e ∨ ∃ a, x = .ok a ∧ f a = .error e := by
  cases x <;> simp [bind, Except.bind]

theorem except_list_mapM_of_ok {ε α β : Type} {f : α → Except ε β} {l : List α}
    (h : ∀ x ∈ l, ∃ y, f x = .ok y) : ∃ ys, l.mapM f = .ok ys ∧ l.map f = ys.map .ok := by
  induction l with
  | nil => exact ⟨[], rfl, rfl⟩
  | cons x l ih =>
    obtain ⟨y, hy⟩ := h x List.mem_cons_self
    obtain ⟨ys, hys, hmap⟩ := ih fun x' hx' => h x' (List.mem_cons_of_mem x hx')
    refine ⟨y :: ys, ?_, by rw [List.map_cons, List.map_cons, hy, hmap]⟩
    rw [List.mapM_cons]
    exact except_bind_eq_ok.2 ⟨y, hy, except_bind_eq_ok.2 ⟨ys, hys, rfl⟩⟩

theorem except_mapM_of_ok {ε α β : Type} {f : α → Except ε β} {xs : Array α}
    (h : ∀ x ∈ xs, ∃ y, f x = .ok y) : ∃ ys, xs.mapM f = .ok ys ∧ xs.map f = ys.map .ok := by
  obtain ⟨ys, hys, hmap⟩ := except_list_mapM_of_ok fun x hx => h x (Array.mem_toList_iff.1 hx)
  refine ⟨ys.toArray, ?_, ?_⟩
  · rw [Array.mapM_eq_mapM_toList, hys]
    rfl
  · rw [← Array.toList_inj, Array.toList_map, Array.toList_map, hmap]

namespace Run

variable {α β : Type} {s t : Session}

theorem bind_of_ok {x : Run α} {a : α} (h : x s = .ok a t) (f : α → Run β) : (x >>= f) s = f a t := by
  simp only [bind, EStateM.bind, h]

/-- A sequence ends in the fault of its first part. -/
theorem bind_of_error {x : Run α} {e : Fault} (h : x s = .error e t) (f : α → Run β) :
    (x >>= f) s = .error e t := by
  simp only [bind, EStateM.bind, h]

theorem map_of_ok {x : Run α} {a : α} (h : x s = .ok a t) (f : α → β) : (f <$> x) s = .ok (f a) t := by
  simp only [Functor.map, EStateM.map, h]

/-- A sequence ends in a value when both of its parts do. -/
theorem bind_eq_ok {x : Run α} {f : α → Run β} {b : β} :
    (x >>= f) s = .ok b t ↔ ∃ a s', x s = .ok a s' ∧ f a s' = .ok b t := by
  constructor
  · intro h
    simp only [bind, EStateM.bind] at h
    split at h
    · next a s' hx => exact ⟨a, s', hx, h⟩
    · cases h
  · rintro ⟨a, s', hx, hf⟩
    rw [bind_of_ok hx, hf]

/-- A sequence ends in a fault when one of its parts does. -/
theorem bind_eq_error {x : Run α} {f : α → Run β} {e : Fault} :
    (x >>= f) s = .error e t ↔ x s = .error e t ∨ ∃ a s', x s = .ok a s' ∧ f a s' = .error e t := by
  constructor
  · intro h
    simp only [bind, EStateM.bind] at h
    split at h
    · next a s' hx => exact .inr ⟨a, s', hx, h⟩
    · next e' s' hx =>
      cases h
      exact .inl hx
  · rintro (hx | ⟨a, s', hx, hf⟩)
    · exact bind_of_error hx f
    · rw [bind_of_ok hx, hf]

/-- A run that does not end in a value ends in a fault. -/
theorem faults_iff {x : Run α} : (∃ e t, x s = .error e t) ↔ ¬∃ a t, x s = .ok a t := by
  cases h : x s with
  | ok a t => simp
  | error e t => simp

theorem map_eq_ok {x : Run α} {f : α → β} {b : β} :
    (f <$> x) s = .ok b t ↔ ∃ a, x s = .ok a t ∧ f a = b := by
  constructor
  · intro h
    simp only [Functor.map, EStateM.map] at h
    split at h
    · next a s' hx =>
      cases h
      exact ⟨a, hx, rfl⟩
    · cases h
  · rintro ⟨a, hx, rfl⟩
    exact map_of_ok hx f

theorem pure_eq_ok {a b : α} : (pure a : Run α) s = .ok b t ↔ a = b ∧ s = t := by
  simp [pure, EStateM.pure]

/-- A computation outside of the session leaves the session as it is. -/
theorem lift_eq_ok {x : Except Fault α} {a : α} : (liftM x : Run α) s = .ok a t ↔ x = .ok a ∧ s = t := by
  cases x with
  | ok b => exact pure_eq_ok.trans (by simp)
  | error f => exact ⟨nofun, nofun⟩

theorem lift_eq_error {x : Except Fault α} {e : Fault} :
    (liftM x : Run α) s = .error e t ↔ x = .error e ∧ s = t := by
  cases x with
  | ok a => exact ⟨nofun, nofun⟩
  | error f =>
    constructor
    · intro h
      cases h
      exact ⟨rfl, rfl⟩
    · rintro ⟨⟨⟩, rfl⟩
      rfl

/-- The value of a computation outside of the session can be changed there too. -/
theorem map_of_lift {x : Run α} {y : Except Fault α} (h : x s = (liftM y : Run α) t) (f : α → β) :
    (f <$> x) s = (liftM (f <$> y) : Run β) t := by
  simp only [Functor.map, EStateM.map, h]
  cases y <;> rfl

theorem lift_of_ok {x : Except Fault α} {a : α} (h : x = .ok a) : (liftM x : Run α) s = .ok a s :=
  lift_eq_ok.2 ⟨h, rfl⟩

theorem get_eq : (get : Run Session) s = .ok s s := rfl

/-- Logging an event changes nothing but the log. -/
theorem emit_eq (e : Event) : emit e s = .ok () { s with events := s.events.push e } := rfl

end Run

namespace ArrayWidth

variable {s : Session} {w : ArrayWidth}

/-- A width that is decided stays. -/
theorem current_eq (h : s.width = some w) : current s = .ok w s := by
  rw [current, Run.bind_of_ok Run.get_eq, h]
  rfl

/-- The first registry that a session is told decides its width. -/
theorem settle_eq (h : s.width = none) (states : UInt32) :
    settle states s = .ok (forStateCount states)
      { s with
        width := some (forStateCount states)
        events := s.events.push (.widthSettled (forStateCount states) states) } := by
  rw [settle, Run.bind_of_ok Run.get_eq, h]
  rfl

end ArrayWidth

end VoxelStore
