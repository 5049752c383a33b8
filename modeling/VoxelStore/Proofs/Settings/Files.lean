import VoxelStore.Directory
import VoxelStore.Proofs.Settings.Layers
/-!
# Settings from the files of a directory

The path of the file that the environment names is looked up in a directory. A file is read by the names on the way to
it (`read_of_hasFile`), and a path that climbs out of the directory is one from the root (`read_climb`). So the settings
are those of the text in the file, wherever in the directory it is (`fileGives_directory`), and a file that cannot be
read has one of four problems (`read_eq_error`).
-/

namespace VoxelStore

namespace Directory

variable {d : Directory} {path rest : List (List Char)} {content : List UInt8} {place : Place} {problem : ReadProblem}

/-- A name that a file can have. It stays in no directory and climbs out of none. -/
structure IsName (name : List Char) : Prop where
  ne_nil : name ≠ []
  ne_here : name ≠ ['.']
  ne_up : name ≠ ['.', '.']
  no_slash : '/' ∉ name
  short : byteCount name ≤ maxName

/-- There is a file at the path, and none on the way to it. -/
structure HasFile (d : Directory) (path : List (List Char)) (content : List UInt8) : Prop where
  ne_nil : path ≠ []
  isName : ∀ name ∈ path, IsName name
  short : byteCount (joined path) ≤ maxPath
  file : d.file? path = some content
  free : ∀ before, before <+: path → before ≠ path → d.file? before = none

theorem components_joined (h : ∀ name ∈ path, '/' ∉ name) (hne : path ≠ []) : components (joined path) = path :=
  List.splitOn_intercalate '/' h hne

/-! ## Files of the tree -/

theorem isDirectory_of_hasFile {before : List (List Char)} (h : d.HasFile path content) (hbefore : before <+: path)
    (hne : before ≠ path) : d.isDirectory before = true := by
  obtain ⟨f, hf, -⟩ := Option.map_eq_some_iff.1 h.file
  have hpath : f.1 = path := by simpa using List.find?_some hf
  have hlength : before.length < path.length :=
    lt_of_le_of_ne hbefore.length_le fun hlength => hne (hbefore.eq_of_length hlength)
  simp only [isDirectory, Bool.or_eq_true, List.any_eq_true, Bool.and_eq_true, decide_eq_true_eq]
  refine .inr ⟨f, List.mem_of_find?_eq_some hf, ?_, ?_⟩
  · rw [hpath, List.isPrefixOf_iff_prefix]
    exact hbefore
  · rwa [hpath]

theorem follow_of_hasFile {before : List (List Char)} (h : d.HasFile (before ++ rest) content) (hrest : rest ≠ []) :
    d.follow (.inside before) rest = .ok content := by
  induction rest generalizing before with
  | nil => exact absurd rfl hrest
  | cons name rest ih =>
    have hname : IsName name := h.isName name (by simp)
    have hhere : ¬(name = [] ∨ name = ['.']) := not_or.2 ⟨hname.ne_nil, hname.ne_here⟩
    rw [List.append_cons] at h
    rw [follow, if_neg hhere, if_neg hname.ne_up, if_neg (Nat.not_lt.2 hname.short)]
    simp only [child?, contentAt?, hasDirectoryAt]
    by_cases hlast : rest = []
    · subst hlast
      rw [List.append_nil] at h
      simp [h.file]
    · have hbefore : before ++ [name] <+: before ++ [name] ++ rest := List.prefix_append ..
      have hne : before ++ [name] ≠ before ++ [name] ++ rest := by simpa using Ne.symm hlast
      simp only [h.free _ hbefore hne, isDirectory_of_hasFile h hbefore hne, if_true]
      exact ih h hlast

/-- A file is read by its path. -/
theorem read_of_hasFile (h : d.HasFile path content) : d.read (joined path) = .ok content := by
  have hcomponents : components (joined path) = path :=
    components_joined (fun name hname => (h.isName name hname).no_slash) h.ne_nil
  obtain ⟨name, rest, rfl⟩ := List.exists_cons_of_ne_nil h.ne_nil
  obtain ⟨c, cs, rfl⟩ := List.exists_cons_of_ne_nil (h.isName name List.mem_cons_self).ne_nil
  have hc : c ≠ '/' := fun hc => (h.isName _ List.mem_cons_self).no_slash (hc ▸ List.mem_cons_self)
  have hhead : (joined ((c :: cs) :: rest)).head? = some c := by
    cases rest <;> simp [joined]
  have hne : joined ((c :: cs) :: rest) ≠ [] := by
    intro hnil
    rw [hnil] at hhead
    cases hhead
  have hroot : ¬(joined ((c :: cs) :: rest)).head? = some '/' := by simpa [hhead] using hc
  rw [read, if_neg hne, if_neg (Nat.not_lt.2 h.short), if_neg hroot, hcomponents]
  exact follow_of_hasFile h h.ne_nil

/-! ## Paths out of the tree -/

/-- Climbing from a directory as often as there are directories above it ends in the root, and further
climbing stays there. -/
theorem follow_climb (height : Nat) {n : Nat} (h : height ≤ n) :
    d.follow (.below height) (List.replicate n ['.', '.'] ++ rest) = d.follow (.system []) rest := by
  induction n generalizing height with
  | zero =>
    obtain rfl : height = 0 := Nat.le_zero.1 h
    rfl
  | succ n ih =>
    have hparent : d.parent (.below height) = .below (height - 1) := by
      cases height <;> rfl
    have hstep : d.follow (.below height) (['.', '.'] :: (List.replicate n ['.', '.'] ++ rest)) =
        d.follow (.below (height - 1)) (List.replicate n ['.', '.'] ++ rest) := by
      rw [follow, if_neg (by decide), if_pos rfl, hparent]
    rw [List.replicate_succ, List.cons_append, hstep, ih (height - 1) (by omega)]

theorem byteCount_append (cs ds : List Char) : byteCount (cs ++ ds) = byteCount cs + byteCount ds := by
  simp only [byteCount, Text.Utf8.encode, List.flatMap_append, List.length_append]

theorem joined_cons {name : List Char} (h : path ≠ []) : joined (name :: path) = name ++ (['/'] ++ joined path) := by
  obtain ⟨next, rest, rfl⟩ := List.exists_cons_of_ne_nil h
  simp [joined]

theorem byteCount_le_climb (h : path ≠ []) (n : Nat) :
    byteCount (joined path) ≤ byteCount (joined (List.replicate n ['.', '.'] ++ path)) := by
  induction n with
  | zero => exact le_rfl
  | succ n ih =>
    rw [List.replicate_succ, List.cons_append, joined_cons (by simp [h]), byteCount_append, byteCount_append]
    omega

/-- A path that climbs to the root and goes on from there reads what the path from the root reads. -/
theorem read_climb {n : Nat} (hn : d.depth ≤ n) (hne : path ≠ []) (hslash : ∀ name ∈ path, '/' ∉ name)
    (hshort : byteCount (joined (List.replicate (n + 1) ['.', '.'] ++ path)) ≤ maxPath) :
    d.read (joined (List.replicate (n + 1) ['.', '.'] ++ path)) = d.read ('/' :: joined path) := by
  have hup : joined (List.replicate (n + 1) ['.', '.'] ++ path) =
      ['.', '.'] ++ (['/'] ++ joined (List.replicate n ['.', '.'] ++ path)) := by
    rw [List.replicate_succ, List.cons_append, joined_cons (by simp [hne])]
  have hroot : joined ([] :: path) = '/' :: joined path := joined_cons hne
  have hlength : byteCount ('/' :: joined path) ≤ maxPath := by
    have hle : byteCount (joined path) ≤ byteCount (joined (List.replicate n ['.', '.'] ++ path)) :=
      byteCount_le_climb hne n
    rw [hup, byteCount_append, byteCount_append] at hshort
    rw [← hroot, joined_cons hne, List.nil_append, byteCount_append]
    omega
  have hclimb : components (joined (List.replicate (n + 1) ['.', '.'] ++ path)) =
      ['.', '.'] :: (List.replicate n ['.', '.'] ++ path) := by
    refine components_joined ?_ (by simp)
    intro name hname
    rcases List.mem_append.1 hname with hname | hname
    · rw [List.eq_of_mem_replicate hname]
      decide
    · exact hslash name hname
  have hstart : components ('/' :: joined path) = [] :: path := by
    rw [← hroot]
    exact components_joined (by simpa using hslash) (by simp)
  have hhere : d.read ('/' :: joined path) = d.follow (.system []) path := by
    rw [read, if_neg (by simp), if_neg (Nat.not_lt.2 hlength), hstart, if_pos List.head?_cons, follow,
      if_pos (.inl rfl)]
  rw [hhere, read, if_neg (by simp [hup]), if_neg (Nat.not_lt.2 hshort), hclimb, if_neg (by simp [hup]), follow,
    if_neg (by decide), if_pos rfl]
  exact follow_climb d.depth hn

/-! ## Problems -/

theorem follow_eq_error (h : d.follow place path = .error problem) :
    problem = .notFound ∨ problem = .isDirectory ∨ problem = .notADirectory ∨ problem = .nameTooLong := by
  fun_induction follow d place path with
  | case2 _ _ _ _ ih => exact ih h
  | case3 _ _ _ ih => exact ih h
  | case8 _ _ _ _ _ _ _ _ _ _ ih => exact ih h
  | _ => cases h <;> simp

/-- Whatever the path, reading fails for one of four reasons. -/
theorem read_eq_error {path : List Char} (h : d.read path = .error problem) :
    problem = .notFound ∨ problem = .isDirectory ∨ problem = .notADirectory ∨ problem = .nameTooLong := by
  unfold read at h
  split_ifs at h
  · cases h
    simp
  · cases h
    simp
  all_goals exact follow_eq_error h

end Directory

namespace Settings

variable {env : Environment} {d : Directory} {path : List (List Char)} {bytes : List UInt8}

/-- What a file of a directory gives is what its text says, wherever the file is. -/
theorem fileGives_directory (hvariable : env.lookup fileVariable.toList = .text (Directory.joined path))
    (hfile : d.HasFile path bytes) (given : Field → Option Int) :
    FileGives env d.read given ↔
      ∃ text j, Text.Utf8.decode? bytes = some text ∧ Json.read? text = some j ∧ Holds j given := by
  constructor
  · intro h
    cases h with
    | unset hunset =>
      rw [hvariable] at hunset
      cases hunset
    | json hpath hbytes htext hread hholds =>
      cases hvariable.symm.trans hpath
      cases (Directory.read_of_hasFile hfile).symm.trans hbytes
      exact ⟨_, _, htext, hread, hholds⟩
  · rintro ⟨text, j, htext, hread, hholds⟩
    exact .json hvariable (Directory.read_of_hasFile hfile) htext hread hholds

/-- Reading from a directory leaves nothing to the operating system: a file that cannot be read has a problem that is
named. -/
theorem not_fails_other (text : String) : ¬Fails env d.read .file (.io (.other text)) := by
  intro h
  cases h with
  | unreadable _ hproblem => simpa using Directory.read_eq_error hproblem

end Settings

end VoxelStore
