import VoxelStore.Proofs.SectionArray.Attempts
import VoxelStore.Proofs.SectionArray.Widths
/-!
# The arrays of one session

A session tells the width of its cells and makes arrays of this width. What it is asked first decides the width: a
registry by its size, and any other request for wide cells. From then on every answer is the one that
`ArrayRequest.answer` gives for the decided width, whatever was asked before (`serveAll_eq`). So all arrays that a session
makes have one width, and can be copied into each other whatever was written to them since; if a registry
came first, they take all of its ordinals (`SectionArray.history_vector`).
-/

namespace VoxelStore

/-- What a session can be asked about its arrays: their width, or a new one. -/
inductive ArrayRequest where
  | settle (states : UInt32)
  | current
  | create
  | filled (v : BlockState)
  | copyOf (source : SectionArray)

/-- What a session gives in answer. -/
inductive ArrayAnswer where
  | width (w : ArrayWidth)
  | array (a : SectionArray)

namespace ArrayRequest

variable {r : ArrayRequest} {s : Session} {w : ArrayWidth} {a b : SectionArray}

def serve : ArrayRequest → Run ArrayAnswer
  | settle states => ArrayAnswer.width <$> ArrayWidth.settle states
  | current => ArrayAnswer.width <$> ArrayWidth.current
  | create => ArrayAnswer.array <$> SectionArray.create
  | filled v => ArrayAnswer.array <$> SectionArray.filled v
  | copyOf source => ArrayAnswer.array <$> SectionArray.copyOf source

/-- Serves one request after the other. A fault answers its request only. -/
def serveAll : List ArrayRequest → Session → List (Except Fault ArrayAnswer)
  | [], _ => []
  | r :: rest, s =>
    match r.serve s with
    | .ok x t => .ok x :: serveAll rest t
    | .error f t => .error f :: serveAll rest t

/-- The width that a session has from a request on if it had none before. -/
def decides : ArrayRequest → ArrayWidth
  | settle states => .forStateCount states
  | _ => .wide

/-- The answer of a session with cells of width `w`. -/
def answer (w : ArrayWidth) : ArrayRequest → Except Fault ArrayAnswer
  | settle _ | current => .ok (.width w)
  | create => .ok (.array (.blank w))
  | filled v => if h : w.Holds v then .ok (.array (.constant w v h)) else .error (.ordinalTooWide v)
  | copyOf source => if source.width = w then .ok (.array source) else .error (.widthMismatch source.width w)

/-! ## Requests in a session -/

/-- An array is made by filling a blank one. -/
theorem answer_filled (w : ArrayWidth) (v : BlockState) :
    (filled v).answer w = ArrayAnswer.array <$> (SectionArray.blank w).setAll v := by
  rw [SectionArray.setAll_eq]
  show (if h : w.Holds v then _ else _) = ArrayAnswer.array <$> if h : w.Holds v then _ else _
  split <;> rfl

/-- A copy is made in a blank array. -/
theorem answer_copyOf (w : ArrayWidth) (source : SectionArray) :
    (copyOf source).answer w = ArrayAnswer.array <$> source.copyInto (.blank w) := by
  rw [SectionArray.copyInto_eq]
  show (if source.width = w then _ else _) = ArrayAnswer.array <$> if source.width = w then _ else _
  split <;> rfl

/-- A request decides the width if nothing else has, and is answered for the decided one. -/
theorem serve_eq (r : ArrayRequest) (s : Session) :
    ∃ t, t.width = some (s.width.getD r.decides) ∧
      r.serve s = (liftM (r.answer (s.width.getD r.decides)) : Run ArrayAnswer) t := by
  cases r with
  | settle states => exact ⟨_, rfl, rfl⟩
  | current =>
    obtain ⟨t, hrun, hwidth⟩ := ArrayWidth.current_ok s
    exact ⟨t, hwidth, Run.map_of_ok hrun _⟩
  | create =>
    obtain ⟨t, hrun, hwidth⟩ := SectionArray.create_ok s
    exact ⟨t, hwidth, Run.map_of_ok hrun _⟩
  | filled v =>
    obtain ⟨t, hcreate, hwidth⟩ := SectionArray.create_ok s
    rw [answer_filled]
    exact ⟨t, hwidth, Run.map_of_lift (Run.bind_of_ok hcreate _) _⟩
  | copyOf source =>
    obtain ⟨t, hcreate, hwidth⟩ := SectionArray.create_ok s
    rw [answer_copyOf]
    exact ⟨t, hwidth, Run.map_of_lift (Run.bind_of_ok hcreate _) _⟩

theorem serveAll_cons {t : Session} (rest : List ArrayRequest)
    (h : r.serve s = (liftM (r.answer w) : Run ArrayAnswer) t) :
    serveAll (r :: rest) s = r.answer w :: serveAll rest t := by
  rw [serveAll, h]
  cases r.answer w <;> rfl

/-- Once the width is decided it stays, so every request is answered for it. -/
theorem serveAll_of_width (requests : List ArrayRequest) (h : s.width = some w) :
    serveAll requests s = requests.map (answer w) := by
  induction requests generalizing s with
  | nil => rfl
  | cons r rest ih =>
    obtain ⟨t, hwidth, hserve⟩ := serve_eq r s
    rw [h, Option.getD_some] at hwidth hserve
    rw [serveAll_cons rest hserve, ih hwidth, List.map_cons]

/-- All requests are answered for the width that the first of them finds or decides. -/
theorem serveAll_eq (r : ArrayRequest) (rest : List ArrayRequest) (s : Session) :
    serveAll (r :: rest) s = (r :: rest).map (answer (s.width.getD r.decides)) := by
  obtain ⟨t, hwidth, hserve⟩ := serve_eq r s
  rw [serveAll_cons rest hserve, serveAll_of_width rest hwidth, List.map_cons]

/-! ## Arrays of a session -/

/-- The array was made in answer to one of the requests, and perhaps written to since. -/
def Yields (requests : List ArrayRequest) (s : Session) (b : SectionArray) : Prop :=
  ∃ (a : SectionArray) (writes : List ArrayWrite), .ok (.array a) ∈ serveAll requests s ∧
    (∀ x ∈ writes, x.InPlace) ∧ ArrayWrite.attemptAll writes a = b

theorem width_of_answer (h : r.answer w = .ok (.array a)) : a.width = w := by
  cases r with
  | settle states => cases h
  | current => cases h
  | create =>
    cases h
    rfl
  | filled v =>
    simp only [answer] at h
    split at h
    · cases h
      rfl
    · cases h
  | copyOf source =>
    simp only [answer] at h
    split at h
    · next hw =>
      cases h
      exact hw
    · cases h

/-- All arrays of a session have the width that its first request finds or decides. -/
theorem Yields.width {rest : List ArrayRequest} (h : Yields (r :: rest) s b) :
    b.width = s.width.getD r.decides := by
  obtain ⟨a, writes, hmade, hplace, rfl⟩ := h
  rw [serveAll_eq] at hmade
  obtain ⟨r', -, hanswer⟩ := List.mem_map.1 hmade
  rw [(ArrayWrite.attemptAll_width_cells hplace).1, width_of_answer hanswer]

end ArrayRequest

/-- An array is a vector of 4096 values. Whatever was tried on it before, all reads tell of the last values that were
put in their places; one more write faults exactly if it is refused, and then changes nothing, or else changes the
entries that it addresses. All requests of a session are answered for the width that the first of them finds or
decides, so its arrays can be copied into each other whatever was written to them, and take all ordinals of the
registry that decided the width. -/
theorem SectionArray.history_vector :
    (∀ (a : SectionArray) (writes : List ArrayWrite), (∀ x ∈ writes, x.InPlace) →
      (ArrayWrite.attemptAll writes a).width = a.width ∧
        (ArrayWrite.attemptAll writes a).Shows (ArrayWrite.valuesAfter writes a) ∧
        ∀ x : ArrayWrite, x.InPlace →
          ArrayWrite.Attempted (ArrayWrite.attemptAll writes a) x (ArrayWrite.attemptAll (writes ++ [x]) a)) ∧
      ∀ (r : ArrayRequest) (rest : List ArrayRequest) (s : Session),
        ArrayRequest.serveAll (r :: rest) s = (r :: rest).map (ArrayRequest.answer (s.width.getD r.decides)) ∧
          (∀ a b, ArrayRequest.Yields (r :: rest) s a → ArrayRequest.Yields (r :: rest) s b →
            a.copyInto b = .ok a) ∧
          ∀ n, s.width = none → r = .settle n →
            (∀ v, v < n → ∃ a, (ArrayRequest.filled v).answer (s.width.getD r.decides) = .ok (.array a)) ∧
              ∀ a, ArrayRequest.Yields (r :: rest) s a → ∀ x : ArrayWrite, x.Legal n → ∃ b, x.run a = .ok b := by
  refine ⟨fun a writes hplace => ?_, fun r rest s => ⟨ArrayRequest.serveAll_eq r rest s, ?_, ?_⟩⟩
  · refine ⟨(ArrayWrite.attemptAll_width_cells hplace).1, ArrayWrite.attemptAll_shows hplace, fun x hx => ?_⟩
    rw [ArrayWrite.attemptAll_concat]
    exact ArrayWrite.attempted_attempt hx
  · intro a b ha hb
    rw [SectionArray.copyInto_eq, if_pos (ha.width.trans hb.width.symm)]
  · rintro n hnone rfl
    have hdecided : s.width.getD (ArrayRequest.settle n).decides = .forStateCount n := by rw [hnone]; rfl
    refine ⟨fun v hv => ⟨_, dif_pos (hdecided ▸ ArrayWidth.holds_of_lt_stateCount hv)⟩, fun a ha x hx => ?_⟩
    refine ArrayWrite.run_of_not_refused ?_
    rw [ha.width, hdecided]
    exact ArrayWrite.not_refused_of_legal hx

/-- A narrow array to which three writes are refused on the way, and a session that is told of two registries. The
smaller one came first, so an ordinal above 65535 finds no room. -/
theorem SectionArray.history_vector_narrow :
    let writes : List ArrayWrite := [.setRange 16 32 4, .set 20 65535, .set 4096 1, .setRange 30 30 70000,
      .copyFrom (.blank .wide), .setRange 31 4096 7]
    let a := ArrayWrite.attemptAll writes (.blank .narrow)
    a.width = .narrow ∧ a.get 15 = .ok 0 ∧ a.get 16 = .ok 4 ∧ a.get 20 = .ok 65535 ∧ a.get 4095 = .ok 7 ∧
      a.isEmpty = false ∧ a.uniform? = none ∧ (∃ f, (ArrayWrite.setAll 70000).run a = .error f) ∧
      ArrayRequest.serveAll [.settle 300, .settle 100000, .current, .create, .filled 70000] {} =
        [.ok (.width .narrow), .ok (.width .narrow), .ok (.width .narrow), .ok (.array (.blank .narrow)),
          .error (.ordinalTooWide 70000)] ∧
      (blank .narrow).copyInto (blank .narrow) = .ok (blank .narrow) ∧
      ∃ b, (ArrayWrite.set 4095 299).run (blank .narrow) = .ok b := by
  intro writes a
  obtain ⟨harrays, hsessions⟩ := history_vector
  obtain ⟨hwidth, hshows, hattempt⟩ := harrays (.blank .narrow) writes
    (by simp [writes, ArrayWrite.InPlace, ArrayWrite.placed])
  have hvalue : ∀ i v, i < sectionBlocks → (ArrayWrite.lastEntry .narrow writes i).getD 0 = v →
      a.get i = .ok v := by
    intro i v hi hv
    rw [hshows.get i hi, ArrayWrite.getElem_valuesAfter]
    simp only [blank, constant, Vector.getElem_replicate]
    rw [hv]
  have h15 : a.get 15 = .ok 0 := hvalue 15 0 (by decide) (by decide)
  have h16 : a.get 16 = .ok 4 := hvalue 16 4 (by decide) (by decide)
  have hdiffer : ∀ v, ¬∀ i (h : i < sectionBlocks), (ArrayWrite.valuesAfter writes (.blank .narrow))[i] = v := by
    intro v hv
    rw [hshows.get 15 (by decide), hv] at h15
    rw [hshows.get 16 (by decide), hv] at h16
    cases h15.symm.trans h16
  have hempty : a.isEmpty = false := Bool.eq_false_iff.2 fun h => hdiffer 0 (hshows.isEmpty_iff.1 h)
  have huniform : a.uniform? = none :=
    Option.eq_none_iff_forall_ne_some.2 fun v h => hdiffer v ((hshows.uniform?_iff v).1 h)
  have hrefused : ∃ f, (ArrayWrite.setAll 70000).run a = .error f :=
    (hattempt (.setAll 70000) rfl).faults_iff.2 ⟨hwidth, by decide⟩
  obtain ⟨hserve, hcopy, hregistry⟩ :=
    hsessions (.settle 300) [.settle 100000, .current, .create, .filled 70000] {}
  have hmade : ArrayRequest.Yields [.settle 300, .settle 100000, .current, .create, .filled 70000] {}
      (blank .narrow) := by
    refine ⟨blank .narrow, [], ?_, fun x hx => absurd hx List.not_mem_nil, rfl⟩
    rw [hserve]
    exact List.mem_map.2 ⟨.create, by simp, rfl⟩
  exact ⟨hwidth, h15, h16, hvalue 20 65535 (by decide) (by decide), hvalue 4095 7 (by decide) (by decide), hempty,
    huniform, hrefused, hserve, hcopy _ _ hmade hmade,
    (hregistry 300 rfl rfl).2 _ hmade (.set 4095 299) ⟨by decide, by decide⟩⟩

end VoxelStore
