import VoxelStore.Proofs.Run.Alike
import VoxelStore.Proofs.SectionArray.Writes
/-!
# Arrays of two sessions

A `WidthPairing` says which widths go together when two sessions are compared: the widths of the sessions
themselves, and those of arrays in the one and in the other. Arrays of paired widths with the same values
answer alike and take the same writes, as long as either both widths hold an ordinal or neither does
(`Shared`). Two pairings are of use: `equal`, where nothing may differ, and `narrowWide`.
-/

namespace VoxelStore

/-- The width of the arrays that the session makes. It is wide until it is decided. -/
def Session.arrayWidth (s : Session) : ArrayWidth := s.width.getD .wide

/-- Which widths go together. There is one pair only, or all pairs are of equal widths. -/
structure WidthPairing where
  left : ArrayWidth
  right : ArrayWidth
  Pair : ArrayWidth → ArrayWidth → Prop
  pair_sessions : Pair left right
  pair_cases : ∀ {x y x' y'}, Pair x y → Pair x' y' → (x = x' ∧ y = y') ∨ (x = y ∧ x' = y')

namespace WidthPairing

/-- Two sessions of one width, and arrays of any widths that are equal. -/
def equal (w : ArrayWidth) : WidthPairing where
  left := w
  right := w
  Pair x y := x = y
  pair_sessions := rfl
  pair_cases h h' := .inr ⟨h, h'⟩

/-- A session with narrow arrays only and one with wide arrays only. -/
def narrowWide : WidthPairing where
  left := .narrow
  right := .wide
  Pair x y := x = .narrow ∧ y = .wide
  pair_sessions := ⟨rfl, rfl⟩
  pair_cases h h' := .inl ⟨h.1.trans h'.1.symm, h.2.trans h'.2.symm⟩

variable (P : WidthPairing)

/-- The sessions make arrays of the paired widths. -/
def Sessions (s t : Session) : Prop := s.arrayWidth = P.left ∧ t.arrayWidth = P.right

/-- Of two paired widths both hold the ordinal or neither does. -/
def Shared (v : BlockState) : Prop := ∀ ⦃x y⦄, P.Pair x y → (x.Holds v ↔ y.Holds v)

/-- Logging changes no width. -/
theorem logFree_sessions : Run.Alike.LogFree P.Sessions := fun _ _ _ _ hs => hs

variable {P} {v : BlockState}

theorem shared_equal (w : ArrayWidth) (v : BlockState) : (equal w).Shared v := by
  intro x y h
  rw [show x = y from h]

/-- An ordinal that stands in two paired arrays is shared. -/
theorem shared_of_holds {x y : ArrayWidth} (h : P.Pair x y) (hx : x.Holds v) (hy : y.Holds v) : P.Shared v := by
  intro x' y' h'
  rcases P.pair_cases h h' with ⟨rfl, rfl⟩ | ⟨-, rfl⟩
  · exact ⟨fun _ => hy, fun _ => hx⟩
  · exact Iff.rfl

theorem shared_of_holds_both (hn : ArrayWidth.narrow.Holds v) : P.Shared v := by
  have hall : ∀ w : ArrayWidth, w.Holds v := fun w => by
    cases w with
    | narrow => exact hn
    | wide => exact ArrayWidth.holds_wide v
  intro x y _
  exact ⟨fun _ => hall y, fun _ => hall x⟩

theorem shared_reserved : P.Shared .reserved := shared_of_holds_both (by decide)

theorem shared_stored (h : P.Shared v) : P.Shared v.stored := by
  unfold BlockState.stored
  split
  · exact shared_of_holds_both (by decide)
  · exact h

end WidthPairing

theorem Session.arrayWidth_of_width {s : Session} {w : ArrayWidth} (h : s.width = some w) :
    s.arrayWidth = w := by
  rw [arrayWidth, h, Option.getD_some]

/-- Whoever asks for the width of arrays decides it. -/
theorem ArrayWidth.current_ok (s : Session) :
    ∃ t, current s = .ok s.arrayWidth t ∧ t.width = some s.arrayWidth := by
  cases h : s.width with
  | some w =>
    rw [Session.arrayWidth_of_width h]
    exact ⟨s, current_eq h, h⟩
  | none =>
    refine ⟨{ s with events := s.events.push .widthAssumed, width := some .wide }, ?_, ?_⟩
    · rw [current, Run.bind_of_ok Run.get_eq, Session.arrayWidth, h]
      rfl
    · rw [Session.arrayWidth, h, Option.getD_none]

namespace SectionArray

variable (P : WidthPairing)

/-- The arrays hold the same values in cells of paired widths. -/
structure Alike (a b : SectionArray) : Prop where
  width : P.Pair a.width b.width
  cells : b.cells = a.cells

variable {P} {a b a' b' : SectionArray} {v : BlockState} {w : ArrayWidth}

theorem Alike.eq (h : Alike (.equal w) a b) : a = b := ext_of_width h.width.symm h.cells

theorem alike_refl (a : SectionArray) : Alike (.equal w) a a := ⟨rfl, rfl⟩

theorem alike_refl_option (a : Option SectionArray) : Option.Rel (Alike (.equal w)) a a := by
  cases a with
  | none => exact .none
  | some a => exact .some a.alike_refl

/-- Each value of an array is held by the widths of both. -/
theorem Alike.shared (h : Alike P a b) (i : Nat) (hi : i < sectionBlocks) : P.Shared a.cells[i] := by
  have hb := b.fits i hi
  simp only [h.cells] at hb
  exact WidthPairing.shared_of_holds h.width (a.fits i hi) hb

/-! ## Reads -/

theorem Alike.get (h : Alike P a b) (i : Nat) : b.get i = a.get i := by
  simp only [SectionArray.get, h.cells]

theorem Alike.isEmpty (h : Alike P a b) : b.isEmpty = a.isEmpty := by
  simp only [SectionArray.isEmpty, h.cells]

theorem Alike.uniform? (h : Alike P a b) : b.uniform? = a.uniform? := by
  unfold SectionArray.uniform? first
  rw [h.cells]

/-- Arrays of one session are equal if and only if those of the other are. -/
theorem Alike.eq_iff (h : Alike P a b) (h' : Alike P a' b') : b = b' ↔ a = a' := by
  have hwidth : b.width = b'.width ↔ a.width = a'.width := by
    rcases P.pair_cases h.width h'.width with ⟨hx, hy⟩ | ⟨hx, hy⟩
    · simp only [hx, hy]
    · rw [hx, hy]
  constructor
  · rintro rfl
    exact ext_of_width (hwidth.1 rfl).symm (by rw [← h.cells, ← h'.cells])
  · rintro rfl
    exact ext_of_width (hwidth.2 rfl).symm (by rw [h.cells, h'.cells])

theorem uniform?_shared (h : Alike P a b) (hv : a.uniform? = some v) : P.Shared v := by
  unfold SectionArray.uniform? at hv
  split at hv
  · cases hv
    exact h.shared 0 (by decide)
  · cases hv

/-! ## Writes -/

theorem Alike.set (h : Alike P a b) (hv : P.Shared v) (i : Nat) :
    ExceptAlike (Alike P) (a.set i v) (b.set i v) := by
  unfold SectionArray.set
  by_cases ha : a.width.Holds v
  · rw [dif_pos ha, dif_pos ((hv h.width).1 ha)]
    split
    · exact .ok ⟨h.width, by simp only [h.cells]⟩
    · exact .error _
  · rw [dif_neg ha, dif_neg fun hb => ha ((hv h.width).2 hb)]
    exact .error _

theorem Alike.setRange (h : Alike P a b) (hv : P.Shared v) (start stop : Nat) :
    ExceptAlike (Alike P) (a.setRange start stop v) (b.setRange start stop v) := by
  unfold SectionArray.setRange
  split
  · exact .error _
  · by_cases ha : a.width.Holds v
    · rw [dif_pos ha, dif_pos ((hv h.width).1 ha)]
      exact .ok ⟨h.width, by simp only [h.cells]⟩
    · rw [dif_neg ha, dif_neg fun hb => ha ((hv h.width).2 hb)]
      exact .error _

theorem setAll_alike (h : P.Pair a.width b.width) (hv : P.Shared v) :
    ExceptAlike (Alike P) (a.setAll v) (b.setAll v) := by
  rw [setAll_eq, setAll_eq]
  by_cases ha : a.width.Holds v
  · rw [dif_pos ha, dif_pos ((hv h).1 ha)]
    exact .ok ⟨h, rfl⟩
  · rw [dif_neg ha, dif_neg fun hb => ha ((hv h).2 hb)]
    exact .error _

theorem Alike.copyInto (h : Alike P a b) (h' : Alike P a' b') :
    ExceptAlike (Alike P) (a.copyInto a') (b.copyInto b') := by
  unfold SectionArray.copyInto
  -- either both copies are within one width, or all four widths are known to be equal in pairs
  rcases P.pair_cases h.width h'.width with ⟨hx, hy⟩ | ⟨hx, hy⟩
  · rw [dif_pos hx, dif_pos hy]
    exact .ok ⟨h'.width, h.cells⟩
  · by_cases hw : a.width = a'.width
    · rw [dif_pos hw, dif_pos (by rw [← hx, ← hy, hw])]
      exact .ok ⟨h'.width, h.cells⟩
    · rw [dif_neg hw, dif_neg (by rwa [← hx, ← hy]), hx, hy]
      exact .error _

/-! ## New arrays -/

theorem create_ok (s : Session) :
    ∃ t, create s = .ok (blank s.arrayWidth) t ∧ t.width = some s.arrayWidth := by
  obtain ⟨t, h, hw⟩ := ArrayWidth.current_ok s
  exact ⟨t, Run.map_of_ok h blank, hw⟩

theorem create_alike : Run.Alike P.Sessions (Alike P) create create := by
  refine Run.Alike.of_ok ?_
  rintro s t ⟨hs, ht⟩
  obtain ⟨s', hs', hsw⟩ := create_ok s
  obtain ⟨t', ht', htw⟩ := create_ok t
  rw [hs] at hs' hsw
  rw [ht] at ht' htw
  exact ⟨_, s', _, t', hs', ht', ⟨P.pair_sessions, rfl⟩, Session.arrayWidth_of_width hsw,
    Session.arrayWidth_of_width htw⟩

theorem filled_alike (hv : P.Shared v) : Run.Alike P.Sessions (Alike P) (filled v) (filled v) :=
  create_alike.bind fun _ _ h => .lift (setAll_alike h.width hv)

theorem copyOf_alike (h : Alike P a b) : Run.Alike P.Sessions (Alike P) (copyOf a) (copyOf b) :=
  create_alike.bind fun _ _ h' => .lift (h.copyInto h')

end SectionArray

namespace ArrayWrite

/-- The same write, with arrays that are alike where it brings any. -/
inductive Alike (P : WidthPairing) : ArrayWrite → ArrayWrite → Prop
  | set (i : Nat) {v : BlockState} : P.Shared v → Alike P (.set i v) (.set i v)
  | setRange (start stop : Nat) {v : BlockState} :
    P.Shared v → Alike P (.setRange start stop v) (.setRange start stop v)
  | setAll {v : BlockState} : P.Shared v → Alike P (.setAll v) (.setAll v)
  | copyFrom {a b : SectionArray} : a.Alike P b → Alike P (.copyFrom a) (.copyFrom b)
  | assign {a b : SectionArray} : a.Alike P b → Alike P (.assign a) (.assign b)

variable {P : WidthPairing} {a b : SectionArray}

theorem alike_refl {w : ArrayWidth} (x : ArrayWrite) : Alike (.equal w) x x := by
  have hshared := WidthPairing.shared_equal w
  cases x with
  | set i v => exact .set i (hshared v)
  | setRange start stop v => exact .setRange start stop (hshared v)
  | setAll v => exact .setAll (hshared v)
  | copyFrom a => exact .copyFrom a.alike_refl
  | assign a => exact .assign a.alike_refl

theorem Alike.run {x y : ArrayWrite} (h : Alike P x y) (hab : a.Alike P b) :
    ExceptAlike (SectionArray.Alike P) (x.run a) (y.run b) := by
  cases h with
  | set i hv => exact hab.set hv i
  | setRange start stop hv => exact hab.setRange hv start stop
  | setAll hv => exact SectionArray.setAll_alike hab.width hv
  | copyFrom h => exact h.copyInto hab
  | assign h => exact .ok h

theorem runAll_alike {xs ys : List ArrayWrite} (h : List.Forall₂ (Alike P) xs ys) (hab : a.Alike P b) :
    ExceptAlike (SectionArray.Alike P) (runAll xs a) (runAll ys b) := by
  induction h generalizing a b with
  | nil => exact .ok hab
  | cons hxy _ ih => exact (hxy.run hab).bind fun _ _ => ih

end ArrayWrite

end VoxelStore
