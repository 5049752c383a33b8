import VoxelStore.Proofs.Json.Shape
import VoxelStore.Settings.Json
import VoxelStore.Text.Integer
/-!
# The fields of settings

Settings have six fields, each an integer in the range of its type, with a key in JSON and a variable of its own. What
holds for each of them is stated once for a `Field`. A JSON value gives settings exactly if it holds at most one integer
in range for each field (`ofJson?_eq_some`), and settings have no problem exactly if they are `Valid`.
-/

namespace VoxelStore

namespace Settings

/-- The fields of settings, in the order in which they are read. -/
inductive Field where
  | poolSize
  | blockStates
  | biomes
  | defaultBiome
  | bottom
  | top
  deriving DecidableEq, Repr

namespace Field

def all : List Field := [poolSize, blockStates, biomes, defaultBiome, bottom, top]

/-- The name of the field in JSON. -/
def key : Field → String
  | poolSize => "pool_size"
  | blockStates => "block_state_count"
  | biomes => "biome_count"
  | defaultBiome => "default_biome"
  | bottom => "initial_min_section"
  | top => "initial_max_section"

/-- The variable that gives the field. -/
def variableName : Field → String
  | poolSize => "CHUNKSTORE_POOL_SIZE"
  | blockStates => "CHUNKSTORE_BLOCK_STATES"
  | biomes => "CHUNKSTORE_BIOMES"
  | defaultBiome => "CHUNKSTORE_DEFAULT_BIOME"
  | bottom => "CHUNKSTORE_MIN_SECTION"
  | top => "CHUNKSTORE_MAX_SECTION"

/-- The least value of the type of the field. -/
def least : Field → Int
  | bottom | top => -0x80000000
  | _ => 0

/-- The greatest value of the type of the field. -/
def greatest : Field → Int
  | poolSize => 0xFFFFFFFFFFFFFFFF
  | blockStates | biomes => 0xFFFFFFFF
  | defaultBiome => 0xFFFF
  | bottom | top => 0x7FFFFFFF

def InRange (f : Field) (n : Int) : Prop := f.least ≤ n ∧ n ≤ f.greatest

/-- The number in a text, if it is one of the type of the field. -/
def parse? : Field → List Char → Option Int
  | bottom, cs | top, cs => Text.int? (-0x80000000) 0x7FFFFFFF cs
  | poolSize, cs => Int.ofNat <$> Text.natBelow? UInt64.size cs
  | blockStates, cs | biomes, cs => Int.ofNat <$> Text.natBelow? UInt32.size cs
  | defaultBiome, cs => Int.ofNat <$> Text.natBelow? UInt16.size cs

/-- The place of the field in the order of all. -/
def index : Field → Nat
  | poolSize => 0
  | blockStates => 1
  | biomes => 2
  | defaultBiome => 3
  | bottom => 4
  | top => 5

theorem forall_iff {P : Field → Prop} :
    (∀ f, P f) ↔ P poolSize ∧ P blockStates ∧ P biomes ∧ P defaultBiome ∧ P bottom ∧ P top := by
  constructor
  · intro h
    exact ⟨h _, h _, h _, h _, h _, h _⟩
  · rintro ⟨h₁, h₂, h₃, h₄, h₅, h₆⟩ f
    cases f <;> assumption

theorem mem_all (f : Field) : f ∈ all := by cases f <;> decide

theorem nodup_all : all.Nodup := by decide

theorem key_injective : Function.Injective key := by
  intro f g h
  cases f <;> cases g <;> first | rfl | exact absurd h (by decide)

theorem map_key_all : all.map key = fieldNames := rfl

end Field

/-- The value of a field. -/
def get (s : Settings) : Field → Int
  | .poolSize => s.poolSize.toNat
  | .blockStates => s.blockStates.toNat
  | .biomes => s.biomes.toNat
  | .defaultBiome => s.defaultBiome.toNat
  | .bottom => s.bottom.toInt
  | .top => s.top.toInt

/-- Settings are their fields. -/
theorem ext_get {s t : Settings} (h : ∀ f, s.get f = t.get f) : s = t := by
  obtain ⟨h₁, h₂, h₃, h₄, h₅, h₆⟩ := Field.forall_iff.1 h
  obtain ⟨a, b, c, d, e, f⟩ := s
  simp only [get, Nat.cast_inj, UInt64.toNat_inj, UInt32.toNat_inj, UInt16.toNat_inj, Int32.toInt_inj] at *
  subst h₁ h₂ h₃ h₄ h₅ h₆
  rfl

theorem inRange_get (s : Settings) (f : Field) : f.InRange (s.get f) := by
  have h₁ := s.poolSize.toNat_lt
  have h₂ := s.blockStates.toNat_lt
  have h₃ := s.biomes.toNat_lt
  have h₄ := s.defaultBiome.toNat_lt
  cases f with
  | bottom => exact ⟨Int32.le_toInt s.bottom, Int32.toInt_le s.bottom⟩
  | top => exact ⟨Int32.le_toInt s.top, Int32.toInt_le s.top⟩
  | _ => simp only [Field.InRange, Field.least, Field.greatest, get]; omega

/-- The settings with another value for a field, if there is one. -/
def overlay (s : Settings) (f : Field) (v : Option Int) : Settings :=
  match f with
  | .poolSize => { s with poolSize := (v.map fun n => UInt64.ofNat n.toNat).getD s.poolSize }
  | .blockStates => { s with blockStates := (v.map fun n => UInt32.ofNat n.toNat).getD s.blockStates }
  | .biomes => { s with biomes := (v.map fun n => UInt32.ofNat n.toNat).getD s.biomes }
  | .defaultBiome => { s with defaultBiome := (v.map fun n => UInt16.ofNat n.toNat).getD s.defaultBiome }
  | .bottom => { s with bottom := (v.map Int32.ofInt).getD s.bottom }
  | .top => { s with top := (v.map Int32.ofInt).getD s.top }

/-- A field that lies over settings is read there, and the others are those below. -/
theorem get_overlay {f : Field} {v : Option Int} (h : ∀ n, v = some n → f.InRange n) (s : Settings) (g : Field) :
    (s.overlay f v).get g = if g = f then v.getD (s.get g) else s.get g := by
  by_cases hg : g = f
  · subst hg
    rw [if_pos rfl]
    cases v with
    | none => cases g <;> rfl
    | some n =>
      obtain ⟨hlow, hhigh⟩ := h n rfl
      have hword : ∀ {k m : Nat}, (n.toNat < m → k = n.toNat) → 0 ≤ n → n ≤ g.greatest → g.greatest < m →
          (k : Int) = n := by
        intro k m hk _ _ _
        rw [hk (by omega)]
        omega
      cases g with
      | poolSize => exact hword UInt64.toNat_ofNat_of_lt hlow hhigh (by decide)
      | blockStates => exact hword UInt32.toNat_ofNat_of_lt hlow hhigh (by decide)
      | biomes => exact hword UInt32.toNat_ofNat_of_lt hlow hhigh (by decide)
      | defaultBiome => exact hword UInt16.toNat_ofNat_of_lt hlow hhigh (by decide)
      | bottom => exact Int32.toInt_ofInt_of_le hlow (Int.lt_of_le_of_lt hhigh (by decide))
      | top => exact Int32.toInt_ofInt_of_le hlow (Int.lt_of_le_of_lt hhigh (by decide))
  · rw [if_neg hg]
    cases f <;> cases g <;> first | rfl | exact absurd rfl hg

/-- The settings with other values for all fields that have one. -/
def overlayAll (s : Settings) (given : Field → Option Int) : Settings :=
  Field.all.foldl (fun s f => s.overlay f (given f)) s

theorem get_overlayAll {given : Field → Option Int} (h : ∀ f n, given f = some n → Field.InRange f n)
    (s : Settings) (g : Field) : (s.overlayAll given).get g = (given g).getD (s.get g) := by
  have hlist : ∀ (l : List Field) (s : Settings), (l.foldl (fun s f => s.overlay f (given f)) s).get g =
      if g ∈ l then (given g).getD (s.get g) else s.get g := by
    intro l
    induction l with
    | nil => exact fun s => rfl
    | cons f l ih =>
      intro s
      rw [List.foldl_cons, ih, get_overlay (h f)]
      by_cases hg : g = f
      · subst hg
        cases given g <;> simp
      · simp [hg]
  exact (hlist Field.all s).trans (if_pos g.mem_all)

/-! ## Validity -/

/-- Settings that can work. -/
structure Valid (s : Settings) : Prop where
  poolSize : 1 ≤ s.poolSize
  blockStates : 4 ≤ s.blockStates
  biomes : 1 ≤ s.biomes
  defaultBiome : s.defaultBiome.toNat < s.biomes.toNat
  range : s.bottom ≤ s.top

theorem ite_some_eq_none {α : Type} {P : Prop} [Decidable P] {a : α} {rest : Option α} :
    (if P then some a else rest) = none ↔ ¬P ∧ rest = none := by
  by_cases h : P <;> simp [h]

theorem problem?_eq_none {s : Settings} : s.problem? = none ↔ s.Valid := by
  have hchecks : s.problem? = none ↔ s.poolSize ≠ 0 ∧ ¬s.blockStates < 4 ∧ s.biomes ≠ 0 ∧
      ¬s.biomes ≤ s.defaultBiome.toUInt32 ∧ ¬s.top < s.bottom := by
    simp only [problem?, ite_some_eq_none, and_true, ne_eq]
  have hpool : s.poolSize ≠ 0 ↔ 1 ≤ s.poolSize := by
    rw [ne_eq, ← UInt64.toNat_inj, UInt64.le_iff_toNat_le]
    show ¬s.poolSize.toNat = 0 ↔ 1 ≤ s.poolSize.toNat
    omega
  have hbiomes : s.biomes ≠ 0 ↔ 1 ≤ s.biomes := by
    rw [ne_eq, ← UInt32.toNat_inj, UInt32.le_iff_toNat_le]
    show ¬s.biomes.toNat = 0 ↔ 1 ≤ s.biomes.toNat
    omega
  have hbiome : ¬s.biomes ≤ s.defaultBiome.toUInt32 ↔ s.defaultBiome.toNat < s.biomes.toNat := by
    rw [UInt32.not_le, UInt32.lt_iff_toNat_lt, UInt16.toNat_toUInt32]
  rw [hchecks, hpool, UInt32.not_lt, hbiomes, hbiome, Int32.not_lt]
  constructor
  · rintro ⟨h₁, h₂, h₃, h₄, h₅⟩
    exact ⟨h₁, h₂, h₃, h₄, h₅⟩
  · intro h
    exact ⟨h.poolSize, h.blockStates, h.biomes, h.defaultBiome, h.range⟩

theorem validate_eq_ok {s t : Settings} : s.validate = .ok t ↔ s.Valid ∧ t = s := by
  rw [validate, ← problem?_eq_none]
  cases h : s.problem? with
  | none => simp [eq_comm]
  | some p => simp

theorem validate_eq_error {s : Settings} {e : StoreError} :
    s.validate = .error e ↔ ∃ p, s.problem? = some p ∧ e = .invalidConfig p := by
  rw [validate]
  cases h : s.problem? with
  | none => simp
  | some p => simp [eq_comm]

/-! ## JSON -/

/-- `Holds j given`: the JSON value is a record with the given values of the fields, each unless it is missing. An
object names them, and may have other members; an array has them in order, the last ones missing. -/
inductive Holds : Json → (Field → Option Int) → Prop
  | object {members : List (Option String × Json)} {given : Field → Option Int} :
      (∀ m ∈ members, m.1.isSome) → (∀ f n, given f = some n → f.InRange n) →
      (∀ f, Json.valuesOf (Field.key f) members = ((given f).map Json.integer).toList) →
      Holds (.object members) given
  | array {items : List Json} {given : Field → Option Int} :
      items.length ≤ Field.all.length → (∀ f n, given f = some n → f.InRange n) →
      (∀ f, items[Field.index f]? = (given f).map Json.integer) → Holds (.array items) given

theorem fieldOr_eq_some {α : Type} {shape : Json → Option α} {toInt : α → Int} {default a : α}
    {v : Option Json}
    (h : ∀ {j a}, shape j = some a ↔ j = .integer (toInt a)) :
    fieldOr default shape v = some a ↔ v.getD (.integer (toInt default)) = .integer (toInt a) := by
  cases v with
  | none =>
    show some default = some a ↔ _
    rw [← h.2 rfl]
    exact h
  | some j => exact h

/-- Reading settings looks for the fields, and takes the default for each that is missing. -/
theorem ofJson?_eq_some_iff_fields {j : Json} {s : Settings} :
    ofJson? j = some s ↔ ∃ values : Field → Option Json, j.fields? fieldNames = some (Field.all.map values) ∧
      ∀ f, (values f).getD (.integer (get {} f)) = .integer (s.get f) := by
  constructor
  · intro h
    simp only [ofJson?, Option.bind_eq_bind, Option.bind_eq_some_iff] at h
    obtain ⟨l, hl, h⟩ := h
    split at h
    · next a b c d e f =>
      simp only [Option.bind_eq_some_iff, Option.pure_def, Option.some.injEq] at h
      obtain ⟨poolSize, h₁, blockStates, h₂, biomes, h₃, defaultBiome, h₄, bottom, h₅, top, h₆, rfl⟩ := h
      let values : Field → Option Json
        | .poolSize => a
        | .blockStates => b
        | .biomes => c
        | .defaultBiome => d
        | .bottom => e
        | .top => f
      refine ⟨values, hl, Field.forall_iff.2 ⟨?_, ?_, ?_, ?_, ?_, ?_⟩⟩
      · exact (fieldOr_eq_some Json.uint64?_eq_some).1 h₁
      · exact (fieldOr_eq_some Json.uint32?_eq_some).1 h₂
      · exact (fieldOr_eq_some Json.uint32?_eq_some).1 h₃
      · exact (fieldOr_eq_some Json.uint16?_eq_some).1 h₄
      · exact (fieldOr_eq_some Json.int32?_eq_some).1 h₅
      · exact (fieldOr_eq_some Json.int32?_eq_some).1 h₆
    · cases h
  · rintro ⟨values, hfields, hvalues⟩
    obtain ⟨h₁, h₂, h₃, h₄, h₅, h₆⟩ := Field.forall_iff.1 hvalues
    simp only [ofJson?, hfields, Field.all, List.map_cons, List.map_nil, Option.bind_eq_bind,
      Option.bind_eq_some_iff]
    refine ⟨_, rfl, ?_⟩
    simp only [Option.bind_eq_some_iff]
    exact ⟨_, (fieldOr_eq_some Json.uint64?_eq_some).2 h₁, _, (fieldOr_eq_some Json.uint32?_eq_some).2 h₂,
      _, (fieldOr_eq_some Json.uint32?_eq_some).2 h₃, _, (fieldOr_eq_some Json.uint16?_eq_some).2 h₄,
      _, (fieldOr_eq_some Json.int32?_eq_some).2 h₅, _, (fieldOr_eq_some Json.int32?_eq_some).2 h₆, rfl⟩

/-- The values of the fields in an array, as far as it goes. -/
theorem fields?_array {items : List Json} {values : Field → Option Json} :
    (Json.array items).fields? fieldNames = some (Field.all.map values) ↔
      items.length ≤ Field.all.length ∧ ∀ f, items[Field.index f]? = values f := by
  have hlength : fieldNames.length = Field.all.length := rfl
  simp only [Json.fields?, hlength, Option.ite_none_right_eq_some, Option.some.injEq]
  refine and_congr_right fun hle => ?_
  have hrange : (List.range Field.all.length).map (items[·]?) = Field.all.map fun f => items[Field.index f]? := rfl
  rw [map_some_append_replicate hle, hrange, List.map_inj_left]
  exact ⟨fun h f => h f f.mem_all, fun h f _ => h f⟩

/-- A JSON value gives settings if it holds them, with the defaults for what is missing. -/
theorem ofJson?_eq_some {j : Json} {s : Settings} :
    ofJson? j = some s ↔ ∃ given, Holds j given ∧ ∀ f, s.get f = (given f).getD (get {} f) := by
  rw [ofJson?_eq_some_iff_fields]
  constructor
  · rintro ⟨values, hfields, hvalues⟩
    -- a field that is not missing is the one of the settings
    have hgiven : ∀ f, values f = ((values f).map fun _ => s.get f).map Json.integer := by
      intro f
      have hvalue := hvalues f
      cases h : values f with
      | none => rfl
      | some v =>
        rw [h] at hvalue
        exact congrArg some hvalue
    have hrange : ∀ f n, (values f).map (fun _ => s.get f) = some n → f.InRange n := by
      intro f n hn
      obtain ⟨-, -, rfl⟩ := Option.map_eq_some_iff.1 hn
      exact s.inRange_get f
    refine ⟨fun f => (values f).map fun _ => s.get f, ?_, fun f => ?_⟩
    · cases j with
      | object members =>
        rw [← Field.map_key_all, Json.fields?_object] at hfields
        exact .object hfields.1 hrange fun f => by rw [← hgiven]; exact hfields.2 f f.mem_all
      | array items =>
        rw [fields?_array] at hfields
        exact .array hfields.1 hrange fun f => by rw [← hgiven]; exact hfields.2 f
      | _ => cases hfields
    · have hvalue := hvalues f
      dsimp only
      cases h : values f with
      | some v => rfl
      | none =>
        rw [h] at hvalue
        exact (Json.integer.inj hvalue).symm
  · rintro ⟨given, hholds, hget⟩
    refine ⟨fun f => (given f).map Json.integer, ?_, fun f => ?_⟩
    · cases hholds with
      | object hkeys _ hvalues =>
        rw [← Field.map_key_all, Json.fields?_object]
        exact ⟨hkeys, fun f _ => hvalues f⟩
      | array hle _ hitems => exact fields?_array.2 ⟨hle, hitems⟩
    · dsimp only
      rw [hget]
      cases given f <;> rfl

theorem Holds.inRange {j : Json} {given : Field → Option Int} (h : Holds j given) {f : Field} {n : Int}
    (hn : given f = some n) : f.InRange n := by
  cases h with
  | object _ hrange _ => exact hrange f n hn
  | array _ hrange _ => exact hrange f n hn

theorem Holds.exists_ofJson? {j : Json} {given : Field → Option Int} (h : Holds j given) :
    ∃ s, ofJson? j = some s ∧ ∀ f, s.get f = (given f).getD (get {} f) := by
  have hget : ∀ f, (overlayAll {} given).get f = (given f).getD (get {} f) :=
    get_overlayAll (fun _ _ hn => h.inRange hn) {}
  exact ⟨_, ofJson?_eq_some.2 ⟨given, h, hget⟩, hget⟩

theorem ofJson?_eq_none {j : Json} : ofJson? j = none ↔ ∀ given, ¬Holds j given := by
  constructor
  · intro h given hholds
    obtain ⟨s, hs, -⟩ := hholds.exists_ofJson?
    rw [h] at hs
    cases hs
  · intro h
    cases hs : ofJson? j with
    | none => rfl
    | some s =>
      obtain ⟨given, hholds, -⟩ := ofJson?_eq_some.1 hs
      exact absurd hholds (h given)

end Settings

end VoxelStore
