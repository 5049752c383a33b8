import Mathlib
import VoxelStore.Json.Shape
/-!
# What a shape finds

The integer shapes accept one JSON value for each number, the integer itself. A field of an object is found exactly if
its key stands there at most once.
-/

namespace VoxelStore

theorem mapM_eq_some_map {α β : Type} {f : α → Option β} {g : α → β} {l : List α} :
    l.mapM f = some (l.map g) ↔ ∀ x ∈ l, f x = some (g x) := by
  induction l with
  | nil => simp
  | cons x l ih => simp [List.mapM_cons, ← ih, Option.bind_eq_some_iff]

/-- A list filled up to a length, place by place. -/
theorem map_some_append_replicate {α : Type} {items : List α} {n : Nat} (h : items.length ≤ n) :
    items.map some ++ List.replicate (n - items.length) none = (List.range n).map (items[·]?) := by
  apply List.ext_getElem
  · simp
    omega
  · intro i hi hi'
    rw [List.getElem_append, List.getElem_map, List.getElem_range]
    split
    · next hlt =>
      rw [List.length_map] at hlt
      rw [List.getElem_map, List.getElem?_eq_getElem hlt]
    · next hge =>
      rw [List.length_map] at hge
      rw [List.getElem_replicate, List.getElem?_eq_none (Nat.not_lt.1 hge)]

namespace Json

variable {j : Json}

/-! ## Integers -/

theorem int?_eq_some {least greatest n : Int} :
    j.int? least greatest = some n ↔ j = .integer n ∧ least ≤ n ∧ n ≤ greatest := by
  cases j with
  | integer m =>
    simp only [int?, Option.ite_none_right_eq_some, Option.some.injEq, integer.injEq]
    constructor
    · rintro ⟨hrange, rfl⟩
      exact ⟨rfl, hrange⟩
    · rintro ⟨rfl, hrange⟩
      exact ⟨hrange, rfl⟩
  | _ => simp [int?]

theorem natBelow?_eq_some {bound n : Nat} : j.natBelow? bound = some n ↔ j = .nat n ∧ n < bound := by
  simp only [natBelow?, Option.map_eq_map, Option.map_eq_some_iff, int?_eq_some]
  constructor
  · rintro ⟨m, ⟨rfl, hlow, hhigh⟩, rfl⟩
    refine ⟨?_, by omega⟩
    rw [nat, Int.toNat_of_nonneg hlow]
  · rintro ⟨rfl, hlt⟩
    exact ⟨n, ⟨rfl, by omega, by omega⟩, Int.toNat_natCast n⟩

/-- A shape of naturals below a bound, whose values are words. -/
theorem word?_eq_some {α : Type} {bound : Nat} {ofNat : Nat → α} {toNat : α → Nat} {x : α}
    (hlt : ∀ x, toNat x < bound) (hof : ∀ x, ofNat (toNat x) = x) (hto : ∀ n, n < bound → toNat (ofNat n) = n) :
    ofNat <$> j.natBelow? bound = some x ↔ j = .nat (toNat x) := by
  simp only [Option.map_eq_map, Option.map_eq_some_iff, natBelow?_eq_some]
  constructor
  · rintro ⟨n, ⟨rfl, hn⟩, rfl⟩
    rw [hto n hn]
  · rintro rfl
    exact ⟨toNat x, ⟨rfl, hlt x⟩, hof x⟩

theorem uint64?_eq_some {x : UInt64} : j.uint64? = some x ↔ j = .nat x.toNat :=
  word?_eq_some UInt64.toNat_lt (fun _ => UInt64.ofNat_toNat) fun _ h => UInt64.toNat_ofNat_of_lt h

theorem uint32?_eq_some {x : UInt32} : j.uint32? = some x ↔ j = .nat x.toNat :=
  word?_eq_some UInt32.toNat_lt (fun _ => UInt32.ofNat_toNat) fun _ h => UInt32.toNat_ofNat_of_lt h

theorem uint16?_eq_some {x : UInt16} : j.uint16? = some x ↔ j = .nat x.toNat :=
  word?_eq_some UInt16.toNat_lt (fun _ => UInt16.ofNat_toNat) fun _ h => UInt16.toNat_ofNat_of_lt h

theorem int32?_eq_some {x : Int32} : Int32.ofInt <$> j.signed32? = some x ↔ j = .integer x.toInt := by
  simp only [signed32?, Option.map_eq_map, Option.map_eq_some_iff, int?_eq_some]
  constructor
  · rintro ⟨n, ⟨rfl, hlow, hhigh⟩, rfl⟩
    rw [Int32.toInt_ofInt_of_le hlow (by omega)]
  · rintro rfl
    exact ⟨x.toInt, ⟨rfl, Int32.le_toInt x, Int32.toInt_le x⟩, Int32.ofInt_toInt x⟩

theorem list?_nats {α : Type} {item? : Json → Option α} {toNat : α → Nat}
    (h : ∀ x, item? (.nat (toNat x)) = some x) (xs : List α) : (nats (xs.map toNat)).list? item? = some xs := by
  have hitems : xs.mapM (fun x => item? (nat (toNat x))) = some (xs.map id) :=
    mapM_eq_some_map.2 fun x _ => h x
  rw [nats, list?, List.mapM_map, List.mapM_map]
  rw [List.map_id] at hitems
  exact hitems

theorem readAs_ofList {α : Type} {shape : Json → Option α} {cs : List Char} {a : α} (hread : read? cs = some j)
    (hshape : shape j = some a) : readAs shape (String.ofList cs) = .ok a := by
  simp [readAs, read, hread, hshape, bind, Except.bind]

/-! ## Fields -/

theorem field?_eq_some {key : String} {members : List (Option String × Json)} {v : Option Json} :
    field? key members = some v ↔ valuesOf key members = v.toList := by
  unfold field?
  cases valuesOf key members with
  | nil => cases v <;> simp
  | cons a rest => cases rest <;> cases v <;> simp

/-- An object has the named fields if all keys are text and each name stands there at most once. -/
theorem fields?_object {α : Type} {names : List α} {key : α → String} {members : List (Option String × Json)}
    {values : α → Option Json} :
    (object members).fields? (names.map key) = some (names.map values) ↔
      (∀ m ∈ members, m.1.isSome) ∧ ∀ x ∈ names, valuesOf (key x) members = (values x).toList := by
  simp only [fields?, Option.ite_none_right_eq_some, List.all_eq_true, List.mapM_map, mapM_eq_some_map,
    Function.comp_apply, field?_eq_some]

theorem valuesOf_append (key : String) (members rest : List (Option String × Json)) :
    valuesOf key (members ++ rest) = valuesOf key members ++ valuesOf key rest := List.filterMap_append

theorem valuesOf_perm {members rest : List (Option String × Json)} (h : members.Perm rest) (key : String) :
    (valuesOf key members).Perm (valuesOf key rest) := h.filterMap _

theorem valuesOf_of_not_mem {key : String} {members : List (Option String × Json)}
    (h : ∀ m ∈ members, m.1 ≠ some key) : valuesOf key members = [] := by
  rw [valuesOf, List.filterMap_eq_nil_iff]
  intro m hm
  exact if_neg (h m hm)

/-- Members with different keys, one for each of some things, say one value of each. -/
theorem valuesOf_map {α : Type} [DecidableEq α] {key : α → String} (hkey : Function.Injective key) (value : α → Json)
    {l : List α} (hl : l.Nodup) (x : α) :
    valuesOf (key x) (l.map fun y => (some (key y), value y)) = if x ∈ l then [value x] else [] := by
  induction l with
  | nil => rfl
  | cons y l ih =>
    obtain ⟨hy, hl⟩ := List.nodup_cons.1 hl
    have hcons : valuesOf (key x) ((y :: l).map fun y => (some (key y), value y)) =
        (if y = x then [value y] else []) ++ valuesOf (key x) (l.map fun y => (some (key y), value y)) := by
      by_cases hyx : y = x
      · simp [valuesOf, hyx]
      · have hne : key y ≠ key x := fun h => hyx (hkey h)
        simp [valuesOf, hyx, hne]
    rw [hcons, ih hl]
    by_cases hyx : y = x
    · subst hyx
      simp [hy]
    · simp [hyx, Ne.symm hyx]

end Json

end VoxelStore
