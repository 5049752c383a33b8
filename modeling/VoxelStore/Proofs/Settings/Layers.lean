import VoxelStore.Proofs.Run
import VoxelStore.Proofs.Settings.Fields
import VoxelStore.Settings.Environment
/-!
# Layered settings

Settings from the environment are read in stages: the file, then the variable of each field, then the validation of what
has come of it. `Merged` says what the sources give together, field by field, and `Fails` how a source can fail. The
settings are the merged ones if all sources can be read and the merged settings are valid, and otherwise the error is
that of the first stage that fails (`ofEnvironment_iff`).
-/

namespace VoxelStore

theorem except_foldlM_of_ok {ε σ α : Type} {step : σ → α → Except ε σ} {f : σ → α → σ} {l : List α}
    (h : ∀ x ∈ l, ∀ s, step s x = .ok (f s x)) (s : σ) : l.foldlM step s = .ok (l.foldl f s) := by
  induction l generalizing s with
  | nil => rfl
  | cons x l ih =>
    rw [List.foldlM_cons, h x List.mem_cons_self]
    exact ih (fun y hy => h y (List.mem_cons_of_mem x hy)) (f s x)

theorem except_foldlM_eq_error {ε σ α : Type} {step : σ → α → Except ε σ} {Fails : α → ε → Prop}
    (h : ∀ s x e, step s x = .error e ↔ Fails x e) {l : List α} {s : σ} {e : ε} :
    l.foldlM step s = .error e ↔
      ∃ before x after, l = before ++ x :: after ∧ (∀ y ∈ before, ∀ e', ¬Fails y e') ∧ Fails x e := by
  induction l generalizing s with
  | nil => simp [pure, Except.pure]
  | cons x l ih =>
    rw [List.foldlM_cons, except_bind_eq_error]
    constructor
    · rintro (hx | ⟨s₁, hx, hl⟩)
      · exact ⟨[], x, l, rfl, by simp, (h s x e).1 hx⟩
      · obtain ⟨before, y, after, rfl, hbefore, hy⟩ := ih.1 hl
        refine ⟨x :: before, y, after, rfl, ?_, hy⟩
        rintro z (_ | ⟨_, hz⟩)
        · intro e' he'
          rw [(h s x e').2 he'] at hx
          cases hx
        · exact hbefore z hz
    · rintro ⟨before, y, after, hsplit, hbefore, hy⟩
      rcases List.cons_eq_append_iff.1 hsplit with ⟨rfl, hsplit⟩ | ⟨rest, rfl, rfl⟩
      · cases hsplit
        exact .inl ((h s x e).2 hy)
      · cases hx : step s x with
        | error e' => exact absurd ((h s x e').1 hx) (hbefore x List.mem_cons_self e')
        | ok s₁ =>
          exact .inr ⟨s₁, rfl, ih.2 ⟨rest, y, after, rfl, fun z hz => hbefore z (List.mem_cons_of_mem x hz), hy⟩⟩

theorem except_foldlM_eq_ok {ε σ α : Type} {step : σ → α → Except ε σ} {Fails : α → ε → Prop}
    (h : ∀ s x e, step s x = .error e ↔ Fails x e) {l : List α} {s t : σ} (hl : l.foldlM step s = .ok t) :
    ∀ x ∈ l, ∀ e, ¬Fails x e := by
  induction l generalizing s with
  | nil => simp
  | cons x l ih =>
    obtain ⟨s₁, hx, hl⟩ := except_bind_eq_ok.1 hl
    rintro y (_ | ⟨_, hy⟩) e he
    · rw [(h s x e).2 he] at hx
      cases hx
    · exact ih hl y hy e he

namespace Settings

variable {env : Environment} {readFile : List Char → Except ReadProblem (List UInt8)} {f : Field} {e : StoreError}
  {s c : Settings}

/-! ## What the sources give -/

/-- What the variable of a field says, if it is set and can be read. -/
def Field.value? (env : Environment) (f : Field) : Option Int :=
  match env.lookup f.variableName.toList with
  | .text raw => f.parse? (Text.trim raw)
  | .unset | .notText _ => none

/-- The variable of the field is unset, or text that is a number of the type of the field with blanks around it. -/
def Field.Readable (env : Environment) (f : Field) : Prop :=
  env.lookup f.variableName.toList = .unset ∨
    ∃ raw n, env.lookup f.variableName.toList = .text raw ∧ f.parse? (Text.trim raw) = some n

/-- What the file gives that the environment names, or nothing if it names none. -/
inductive FileGives (env : Environment) (readFile : List Char → Except ReadProblem (List UInt8)) :
    (Field → Option Int) → Prop
  | unset : env.lookup fileVariable.toList = .unset → FileGives env readFile fun _ => none
  | json {path text : List Char} {bytes : List UInt8} {j : Json} {given : Field → Option Int} :
      env.lookup fileVariable.toList = .text path → readFile path = .ok bytes →
      Text.Utf8.decode? bytes = some text → Json.read? text = some j → Holds j given →
      FileGives env readFile given

/-- The settings are merged from sources that can all be read: each field is what its variable says, or else what the
file gives, or else the default. -/
def Merged (env : Environment) (readFile : List Char → Except ReadProblem (List UInt8)) (c : Settings) : Prop :=
  ∃ given, FileGives env readFile given ∧ (∀ f : Field, f.Readable env) ∧
    ∀ f : Field, c.get f = (f.value? env <|> given f).getD (get {} f)

/-- The sources of settings. -/
inductive Source where
  | file
  | field (f : Field)
  deriving DecidableEq, Repr

/-- The sources in the order in which they are read. -/
def Source.all : List Source := .file :: Field.all.map .field

/-- How a source fails. -/
inductive Fails (env : Environment) (readFile : List Char → Except ReadProblem (List UInt8)) :
    Source → StoreError → Prop
  | pathNotText {raw : List UInt8} : env.lookup fileVariable.toList = .notText raw →
      Fails env readFile .file (.invalidConfig (.notUnicode fileVariable raw))
  | unreadable {path : List Char} {problem : ReadProblem} : env.lookup fileVariable.toList = .text path →
      readFile path = .error problem → Fails env readFile .file (.io problem)
  | fileNotText {path : List Char} {bytes : List UInt8} : env.lookup fileVariable.toList = .text path →
      readFile path = .ok bytes → Text.Utf8.decode? bytes = none → Fails env readFile .file (.io .notText)
  | malformed {path text : List Char} {bytes : List UInt8} : env.lookup fileVariable.toList = .text path →
      readFile path = .ok bytes → Text.Utf8.decode? bytes = some text → Json.read? text = none →
      Fails env readFile .file (.json .malformed)
  | mismatched {path text : List Char} {bytes : List UInt8} {j : Json} :
      env.lookup fileVariable.toList = .text path → readFile path = .ok bytes →
      Text.Utf8.decode? bytes = some text → Json.read? text = some j → (∀ given, ¬Holds j given) →
      Fails env readFile .file (.json .mismatched)
  | notText {f : Field} {raw : List UInt8} : env.lookup f.variableName.toList = .notText raw →
      Fails env readFile (.field f) (.invalidConfig (.notUnicode f.variableName raw))
  | noNumber {f : Field} {raw : List Char} : env.lookup f.variableName.toList = .text raw →
      f.parse? (Text.trim raw) = none →
      Fails env readFile (.field f) (.invalidConfig (.unreadable f.variableName raw))

/-! ## The file -/

theorem base_of_text {path : List Char} (h : env.lookup fileVariable.toList = .text path) :
    base env readFile = fileText readFile path >>= Json.readAs ofJson? := by
  rw [base, h]

theorem fileText_of_ok {path text : List Char} {bytes : List UInt8} (h : readFile path = .ok bytes)
    (htext : Text.Utf8.decode? bytes = some text) : fileText readFile path = .ok (String.ofList text) := by
  simp only [fileText, h, htext]

theorem base_of_gives {given : Field → Option Int} (h : FileGives env readFile given) :
    ∃ s, base env readFile = .ok s ∧ ∀ f, s.get f = (given f).getD (get {} f) := by
  cases h with
  | unset hunset =>
    refine ⟨{}, ?_, fun f => rfl⟩
    rw [base, hunset]
  | json hpath hbytes htext hread hholds =>
    obtain ⟨s, hs, hget⟩ := hholds.exists_ofJson?
    refine ⟨s, ?_, hget⟩
    rw [base_of_text hpath, fileText_of_ok hbytes htext]
    exact Json.readAs_ofList hread hs

theorem base_of_fails (h : Fails env readFile .file e) : base env readFile = .error e := by
  cases h with
  | pathNotText hraw => rw [base, hraw]
  | unreadable hpath hproblem =>
    rw [base_of_text hpath]
    simp only [fileText, hproblem, bind, Except.bind]
  | fileNotText hpath hbytes htext =>
    rw [base_of_text hpath]
    simp only [fileText, hbytes, htext, bind, Except.bind]
  | malformed hpath hbytes htext hread =>
    rw [base_of_text hpath, fileText_of_ok hbytes htext]
    show Json.readAs ofJson? _ = _
    simp only [Json.readAs, Json.read, String.toList_ofList, hread, bind, Except.bind]
  | mismatched hpath hbytes htext hread hholds =>
    rw [base_of_text hpath, fileText_of_ok hbytes htext]
    show Json.readAs ofJson? _ = _
    simp only [Json.readAs, Json.read, String.toList_ofList, hread, bind, Except.bind, ofJson?_eq_none.2 hholds]

/-- The file gives something or fails, and there is no third. -/
theorem gives_or_fails (env : Environment) (readFile : List Char → Except ReadProblem (List UInt8)) :
    (∃ given, FileGives env readFile given) ∨ ∃ e, Fails env readFile .file e := by
  cases hpath : env.lookup fileVariable.toList with
  | unset => exact .inl ⟨_, .unset hpath⟩
  | notText raw => exact .inr ⟨_, .pathNotText hpath⟩
  | text path =>
    cases hbytes : readFile path with
    | error problem => exact .inr ⟨_, .unreadable hpath hbytes⟩
    | ok bytes =>
      cases htext : Text.Utf8.decode? bytes with
      | none => exact .inr ⟨_, .fileNotText hpath hbytes htext⟩
      | some text =>
        cases hread : Json.read? text with
        | none => exact .inr ⟨_, .malformed hpath hbytes htext hread⟩
        | some j =>
          by_cases hholds : ∃ given, Holds j given
          · obtain ⟨given, hholds⟩ := hholds
            exact .inl ⟨given, .json hpath hbytes htext hread hholds⟩
          · exact .inr ⟨_, .mismatched hpath hbytes htext hread fun given h => hholds ⟨given, h⟩⟩

theorem FileGives.inRange {given : Field → Option Int} (h : FileGives env readFile given) {n : Int}
    (hn : given f = some n) : f.InRange n := by
  cases h with
  | unset _ => cases hn
  | json _ _ _ _ hholds => exact hholds.inRange hn

/-! ## The variables -/

/-- The number in the variable of a field. -/
def Field.read (env : Environment) (f : Field) : Except StoreError (Option Int) :=
  numberIn env f.variableName f.parse?

theorem Field.read_of_readable (h : f.Readable env) : f.read env = .ok (f.value? env) := by
  rcases h with hunset | ⟨raw, n, hraw, hn⟩
  · simp only [Field.read, numberIn, Field.value?, hunset]
  · simp only [Field.read, numberIn, Field.value?, hraw, hn]

theorem Field.read_of_fails (h : Fails env readFile (.field f) e) : f.read env = .error e := by
  cases h with
  | notText hraw => simp only [Field.read, numberIn, hraw]
  | noNumber hraw hn => simp only [Field.read, numberIn, hraw, hn]

theorem Field.readable_or_fails (env : Environment) (readFile : List Char → Except ReadProblem (List UInt8))
    (f : Field) : f.Readable env ∨ ∃ e, Fails env readFile (.field f) e := by
  cases hraw : env.lookup f.variableName.toList with
  | unset => exact .inl (.inl hraw)
  | notText raw => exact .inr ⟨_, .notText hraw⟩
  | text raw =>
    cases hn : f.parse? (Text.trim raw) with
    | none => exact .inr ⟨_, .noNumber hraw hn⟩
    | some n => exact .inl (.inr ⟨raw, n, hraw, hn⟩)

theorem Field.inRange_parse? {cs : List Char} {n : Int} (h : f.parse? cs = some n) : f.InRange n := by
  have hnat : ∀ {bound : Nat}, Int.ofNat <$> Text.natBelow? bound cs = some n → 0 ≤ n ∧ n < bound := by
    intro bound h
    obtain ⟨m, hm, rfl⟩ := Option.map_eq_some_iff.1 h
    simp only [Text.natBelow?, Option.bind_eq_bind, Option.bind_eq_some_iff, Option.ite_none_right_eq_some] at hm
    obtain ⟨k, -, hlt, hk⟩ := hm
    cases hk
    exact ⟨Int.natCast_nonneg m, Int.ofNat_lt.2 hlt⟩
  have hint : Text.int? (-0x80000000) 0x7FFFFFFF cs = some n → -0x80000000 ≤ n ∧ n ≤ 0x7FFFFFFF := by
    intro h
    unfold Text.int? at h
    split at h
    all_goals
      simp only [Option.bind_eq_bind, Option.bind_eq_some_iff, Option.ite_none_right_eq_some] at h
      obtain ⟨k, -, hrange, hk⟩ := h
      cases hk
      exact hrange
  cases f with
  | bottom => exact hint h
  | top => exact hint h
  | _ =>
    obtain ⟨hlow, hhigh⟩ := hnat h
    exact ⟨hlow, Int.le_of_lt_add_one hhigh⟩

theorem Field.inRange_value? {n : Int} (h : f.value? env = some n) : f.InRange n := by
  unfold Field.value? at h
  split at h
  · exact Field.inRange_parse? h
  · cases h
  · cases h

/-! ## All stages -/

/-- What a source makes of the settings so far. -/
def Source.run (env : Environment) (readFile : List Char → Except ReadProblem (List UInt8)) (s : Settings) :
    Source → Except StoreError Settings
  | .file => base env readFile
  | .field f => s.overlay f <$> f.read env

/-- The settings before they are validated come of the sources one after the other. -/
theorem merged_eq : merged env readFile = Source.all.foldlM (Source.run env readFile) {} := by
  -- the variables of four fields are read as naturals
  have hnat : ∀ key bound, numberIn env key (fun cs => Int.ofNat <$> Text.natBelow? bound cs) =
      Option.map Int.ofNat <$> numberIn env key (Text.natBelow? bound) := by
    intro key bound
    unfold numberIn
    cases env.lookup key.toList with
    | unset => rfl
    | notText raw => rfl
    | text raw =>
      dsimp only
      cases Text.natBelow? bound (Text.trim raw) <;> rfl
  have h₁ : Field.read env .poolSize = _ := hnat "CHUNKSTORE_POOL_SIZE" UInt64.size
  have h₂ : Field.read env .blockStates = _ := hnat "CHUNKSTORE_BLOCK_STATES" UInt32.size
  have h₃ : Field.read env .biomes = _ := hnat "CHUNKSTORE_BIOMES" UInt32.size
  have h₄ : Field.read env .defaultBiome = _ := hnat "CHUNKSTORE_DEFAULT_BIOME" UInt16.size
  simp only [merged, Source.all, Field.all, List.map_cons, List.map_nil, List.foldlM_cons, List.foldlM_nil,
    Source.run, h₁, h₂, h₃, h₄, bind_map_left]
  simp only [overlay, Option.map_map]
  rfl

theorem Source.run_eq_error (s : Settings) (source : Source) (e : StoreError) :
    source.run env readFile s = .error e ↔ Fails env readFile source e := by
  constructor
  · intro h
    cases source with
    | file =>
      rcases gives_or_fails env readFile with ⟨given, hgives⟩ | ⟨e', hfails⟩
      · obtain ⟨s₁, hs, -⟩ := base_of_gives hgives
        rw [run, hs] at h
        cases h
      · rw [run, base_of_fails hfails] at h
        cases h
        exact hfails
    | field f =>
      rcases f.readable_or_fails env readFile with hreadable | ⟨e', hfails⟩
      · rw [run, Field.read_of_readable hreadable] at h
        cases h
      · rw [run, Field.read_of_fails hfails] at h
        cases h
        exact hfails
  · intro h
    cases source with
    | file => exact base_of_fails h
    | field f =>
      rw [run, Field.read_of_fails h]
      rfl

theorem merged_eq_error : merged env readFile = .error e ↔ ∃ before source after,
    Source.all = before ++ source :: after ∧ (∀ x ∈ before, ∀ e', ¬Fails env readFile x e') ∧
      Fails env readFile source e := by
  rw [merged_eq]
  exact except_foldlM_eq_error Source.run_eq_error

theorem Merged.eq_ok (h : Merged env readFile c) : merged env readFile = .ok c := by
  obtain ⟨given, hgives, hreadable, hget⟩ := h
  obtain ⟨s, hs, hbase⟩ := base_of_gives hgives
  have hfields : ∀ f ∈ Field.all, ∀ s,
      Source.run env readFile s (.field f) = .ok (s.overlay f (f.value? env)) := by
    intro f _ s
    rw [Source.run, Field.read_of_readable (hreadable f)]
    rfl
  have hc : s.overlayAll (Field.value? env) = c := by
    apply ext_get
    intro f
    rw [get_overlayAll (fun _ _ => Field.inRange_value?), hbase, hget]
    cases f.value? env <;> rfl
  have hfile : Source.run env readFile {} .file = .ok s := hs
  rw [merged_eq, Source.all, List.foldlM_cons, hfile]
  show (Field.all.map Source.field).foldlM (Source.run env readFile) s = .ok c
  rw [List.foldlM_map, except_foldlM_of_ok hfields, ← hc]
  rfl

theorem exists_merged (h : ∀ source ∈ Source.all, ∀ e, ¬Fails env readFile source e) :
    ∃ c, Merged env readFile c := by
  have hfile : ∀ e, ¬Fails env readFile .file e := h .file List.mem_cons_self
  have hfield : ∀ f e, ¬Fails env readFile (.field f) e := fun f =>
    h (.field f) (List.mem_cons_of_mem _ (List.mem_map_of_mem f.mem_all))
  obtain ⟨given, hgives⟩ := (gives_or_fails env readFile).resolve_right fun ⟨e, he⟩ => hfile e he
  have hreadable : ∀ f : Field, f.Readable env := fun f =>
    (f.readable_or_fails env readFile).resolve_right fun ⟨e, he⟩ => hfield f e he
  have hrange : ∀ (f : Field) n, (f.value? env <|> given f) = some n → f.InRange n := by
    intro f n hn
    rcases (Option.orElse_eq_some ..).1 hn with hn | ⟨-, hn⟩
    · exact Field.inRange_value? hn
    · exact hgives.inRange hn
  exact ⟨overlayAll {} fun f => f.value? env <|> given f, given, hgives, hreadable, get_overlayAll hrange {}⟩

theorem merged_eq_ok : merged env readFile = .ok c ↔ Merged env readFile c := by
  constructor
  · intro h
    -- a source that fails would end the reading with an error, its own or an earlier one
    have hnone : ∀ source ∈ Source.all, ∀ e, ¬Fails env readFile source e := by
      rw [merged_eq] at h
      exact except_foldlM_eq_ok Source.run_eq_error h
    obtain ⟨c', hc'⟩ := exists_merged hnone
    cases hc'.eq_ok.symm.trans h
    exact hc'
  · exact Merged.eq_ok

/-- Settings from the environment are those of all layers together. They are given exactly if the file, if one is named,
can be read and holds settings, the variable of each field is unset or a number of its type, and what comes of them is
valid: for each field the value of its variable, or else of the file, or else the default. So it does not matter what a
file says of a field that a variable gives. Otherwise the error is that of the first source that fails, in the order of
the file and the fields, or else the problem of the merged settings. All settings that come from an environment or from
a text are valid. -/
theorem ofEnvironment_iff (env : Environment) (readFile : List Char → Except ReadProblem (List UInt8)) :
    (∀ c, ofEnvironment env readFile = .ok c ↔ Merged env readFile c ∧ c.Valid) ∧
      (∀ e, ofEnvironment env readFile = .error e ↔
        (∃ before source after, Source.all = before ++ source :: after ∧
          (∀ x ∈ before, ∀ e', ¬Fails env readFile x e') ∧ Fails env readFile source e) ∨
        ∃ c problem, Merged env readFile c ∧ c.problem? = some problem ∧ e = .invalidConfig problem) ∧
      (∀ c, Merged env readFile c → ∀ c', Merged env readFile c' → c = c') ∧
      (∀ c : Settings, c.problem? = none ↔ c.Valid) ∧
      (∀ c, ofEnvironment env readFile = .ok c → c.Valid) ∧ ∀ text c, ofText text = .ok c → c.Valid := by
  have hok : ∀ c, ofEnvironment env readFile = .ok c ↔ Merged env readFile c ∧ c.Valid := by
    intro c
    simp only [ofEnvironment, except_bind_eq_ok, merged_eq_ok, validate_eq_ok]
    constructor
    · rintro ⟨s, hs, hvalid, rfl⟩
      exact ⟨hs, hvalid⟩
    · rintro ⟨hc, hvalid⟩
      exact ⟨c, hc, hvalid, rfl⟩
  refine ⟨hok, fun e => ?_, fun c hc c' hc' => ?_, fun c => problem?_eq_none, fun c hc => ((hok c).1 hc).2, ?_⟩
  · simp only [ofEnvironment, except_bind_eq_error, merged_eq_error, merged_eq_ok, validate_eq_error]
    refine or_congr_right ⟨?_, ?_⟩
    · rintro ⟨s, hs, problem, hproblem, he⟩
      exact ⟨s, problem, hs, hproblem, he⟩
    · rintro ⟨s, problem, hs, hproblem, he⟩
      exact ⟨s, hs, problem, hproblem, he⟩
  · cases hc.eq_ok.symm.trans hc'.eq_ok
    rfl
  · intro text c hc
    obtain ⟨s, -, hs⟩ := except_bind_eq_ok.1 hc
    obtain ⟨hvalid, rfl⟩ := validate_eq_ok.1 hs
    exact hvalid

/-- A file whose pool would keep nothing and whose range is inverted, with variables that put both right. -/
theorem ofEnvironment_iff_overridden :
    let env : Environment := ⟨["CHUNKSTORE_CONFIG=store.json", "CHUNKSTORE_POOL_SIZE= 8 ",
      "CHUNKSTORE_MAX_SECTION=3"].map fun s => Text.Utf8.encode s.toList⟩
    let readFile : List Char → Except ReadProblem (List UInt8) := fun _ =>
      .ok (Text.Utf8.encode
        "\x7b\"pool_size\":0,\"initial_min_section\":-4,\"initial_max_section\":-9\x7d".toList)
    Merged env readFile { poolSize := 8, bottom := -4, top := 3 } ∧
      Valid { poolSize := 8, bottom := -4, top := 3 } := by
  intro env readFile
  have hok : ofEnvironment env readFile = .ok { poolSize := 8, bottom := -4, top := 3 } := by decide +kernel
  exact ((ofEnvironment_iff env readFile).1 _).1 hok

end Settings

end VoxelStore
