import VoxelStore.Proofs.Palette.Alike
import VoxelStore.Proofs.Palette.Ready
/-!
# One encoder for many sections

An encoder serves one call after the other, and nothing of a call is seen by the next. `Served` describes
an encoder by the calls that it has served; `served_as_clean` says that all slots of the tables of the first pass are
unset, and that each of its answers is the one that a new encoder of the same sizes gives.

That a call cleans up does not depend on what it encodes (`encode_leaves_clean`). The entries and the words are not
cleaned; what they hold is not read before it is written (`encode_same`).
-/

namespace VoxelStore

namespace Encoder

variable {e e' : Encoder} {blocks base : SectionArray} {g : GlobalPalette} {s t : Session}
variable {states words : Nat} {encoded : PalettedSection}

/-! ## Calls -/

/-- The three ways to use an encoder. -/
inductive Call where
  | encode (blocks : SectionArray) (g : GlobalPalette)
  | encodeMerged (blocks base : SectionArray) (g : GlobalPalette)
  | encodeLayer (c : Column) (layer : Int) (g : GlobalPalette)

/-- The section, if there is one, and the blocks that merging wrote back. -/
structure Answer where
  encoded : Option PalettedSection
  blocks : Option SectionArray := none

def Call.serve (e : Encoder) : Call → Run (Answer × Encoder)
  | encode blocks g => do
    let (encoded, e) ← e.encode blocks g
    return (⟨some encoded, none⟩, e)
  | encodeMerged blocks base g => do
    let (encoded, blocks, e) ← e.encodeMerged blocks base g
    return (⟨some encoded, some blocks⟩, e)
  | encodeLayer c layer g => do
    let (encoded, e) ← e.encodeLayer c layer g
    return (⟨encoded, none⟩, e)

theorem Call.serve_leaves_clean {call : Call} {answer : Answer} (hclean : e.IsClean)
    (h : call.serve e s = .ok (answer, e') t) : e'.IsClean ∧ AsLarge e e' := by
  cases call with
  | encode blocks g =>
    obtain ⟨p, s₁, hrun, h⟩ := Run.bind_eq_ok.1 h
    cases h
    exact encode_leaves_clean hclean hrun
  | encodeMerged blocks base g =>
    obtain ⟨p, s₁, hrun, h⟩ := Run.bind_eq_ok.1 h
    cases h
    -- merging itself uses no table
    obtain ⟨merged, s₂, -, hrun⟩ := Run.bind_eq_ok.1 hrun
    obtain ⟨q, s₃, hrun, hq⟩ := Run.bind_eq_ok.1 hrun
    cases hq
    exact encode_leaves_clean hclean hrun
  | encodeLayer c layer g =>
    obtain ⟨p, s₁, hrun, h⟩ := Run.bind_eq_ok.1 h
    cases h
    unfold Encoder.encodeLayer at hrun
    cases hlayer : c.layer layer with
    | empty spare =>
      rw [hlayer] at hrun
      cases hrun
      exact ⟨hclean, rfl, rfl⟩
    | uniform value spare =>
      rw [hlayer] at hrun
      cases hrun
      exact ⟨hclean, rfl, rfl⟩
    | present blocks =>
      rw [hlayer] at hrun
      obtain ⟨q, s₂, hrun, hq⟩ := Run.bind_eq_ok.1 hrun
      cases hq
      exact encode_leaves_clean hclean hrun

/-- Alike encoders answer a call alike in any two sessions. -/
theorem Call.serve_alike {w : ArrayWidth} {f : Encoder} (h : e.Alike (.equal w) f) (call : Call) :
    Run.Alike (fun _ _ => True) (fun p q => q.1 = p.1 ∧ p.2.Alike (.equal w) q.2) (call.serve e)
      (call.serve f) := by
  have hlog := Run.Alike.logFree_true
  cases call with
  | encode blocks g =>
    refine (encode_alike hlog h blocks.alike_refl g).bind fun p q hpq => .pure ⟨?_, hpq.2⟩
    rw [hpq.1.eq]
  | encodeMerged blocks base g =>
    refine (encodeMerged_alike hlog h blocks.alike_refl base.alike_refl g).bind fun p q hpq =>
      .pure ⟨?_, hpq.2.2⟩
    rw [hpq.1.eq, hpq.2.1.eq]
  | encodeLayer c layer g =>
    refine (encodeLayer_alike hlog h c.alike_refl layer g).bind fun p q hpq => .pure ⟨?_, hpq.2⟩
    rw [PalettedSection.eq_of_alike hpq.1]

/-! ## Any number of calls -/

/-- `Served states words log e`: an encoder that was made for so many states and words has answered the
calls of `log`, each in a session of its own, and is `e` now. -/
inductive Served (states words : Nat) : List (Call × Answer) → Encoder → Prop
  | clean : Served states words [] (clean states words)
  | step {log : List (Call × Answer)} {call : Call} {answer : Answer} {e e' : Encoder} {s t : Session} :
      Served states words log e → call.serve e s = .ok (answer, e') t →
      Served states words (log ++ [(call, answer)]) e'

theorem IsClean.alike (h : e.IsClean) (hlarge : AsLarge (Encoder.clean states words) e) :
    e.Alike (.equal .wide) (Encoder.clean states words) :=
  ⟨h.sameTables (isClean_clean states words) ⟨hlarge.indexOf.symm, hlarge.words.symm⟩, .inl h⟩

theorem Served.isClean {log : List (Call × Answer)} (h : Served states words log e) :
    e.IsClean ∧ AsLarge (Encoder.clean states words) e := by
  induction h with
  | clean => exact ⟨isClean_clean states words, rfl, rfl⟩
  | step _ hrun ih =>
    obtain ⟨hclean, hlarge⟩ := Call.serve_leaves_clean ih.1 hrun
    exact ⟨hclean, ih.2.trans hlarge⟩

/-- After any number of calls, of any kind and for anything that can be encoded, every slot of the index table and of
the palette is unset, both have the sizes that they were made with, and the encoder has given each of its answers as a
new encoder of its sizes gives it in any session. What its entries and words hold may be left from any of the calls. -/
theorem served_as_clean {log : List (Call × Answer)} (h : Served states words log e) :
    (e.indexOf = Array.replicate states unset ∧ e.palette = Vector.replicate sectionBlocks unset ∧
        e.words.size = words) ∧
      ∀ x ∈ log, ∀ s, ∃ e' t, x.1.serve (clean states words) s = .ok (x.2, e') t := by
  obtain ⟨hclean, hlarge⟩ := h.isClean
  have htables := (hclean.alike hlarge).tables
  refine ⟨⟨htables.indexOf.symm, htables.palette.symm, hlarge.words.trans Array.size_replicate⟩, ?_⟩
  clear hclean hlarge htables
  induction h with
  | clean => exact fun _ => nofun
  | @step log call answer e₁ e₂ s₁ t₁ hserved hrun ih =>
    intro x hx s'
    rcases List.mem_append.1 hx with hx | hx
    · exact ih x hx s'
    · obtain rfl := List.mem_singleton.1 hx
      obtain ⟨hclean, hlarge⟩ := hserved.isClean
      obtain ⟨p, t', hfresh, ⟨hanswer, -⟩, -⟩ :=
        (Call.serve_alike (hclean.alike hlarge) _).ok_right trivial hrun
      have hp : p.1 = answer := hanswer
      rw [← hp]
      exact ⟨p.2, t', hfresh⟩

/-- Sections of a registry are encoded by its encoder. -/
theorem Ready.serves_encode {n : UInt32} (he : e.Ready n) (hblocks : blocks.InRegistry n) (hn : 1 < n)
    (s : Session) :
    ∃ answer e' t, (Call.encode blocks (.identity n)).serve e s = .ok (answer, e') t ∧ e'.Ready n := by
  obtain ⟨encoded, e', t, hrun, -, he', -⟩ := he.encode_stores hblocks hn s
  exact ⟨_, e', t, Run.bind_of_ok hrun _, he'⟩

/-- An encoder that has stored 300 ordinals by their global ids answers the next call, for a section of one
value, as if it were new. -/
theorem served_as_clean_manyStates :
    ∃ first second e, Served 300 maxWords [(.encode manyStates (.identity 300), first),
        (.encode (.constant .narrow 7 (by decide)) (.identity 300), second)] e ∧
      e.indexOf = Array.replicate 300 unset ∧ e.palette = Vector.replicate sectionBlocks unset ∧
      ∃ e' t, (Call.encode (.constant .narrow 7 (by decide)) (.identity 300)).serve (clean 300 maxWords) {} =
        .ok (second, e') t := by
  have hconstant : (SectionArray.constant .narrow 7 (by decide)).InRegistry 300 := by
    refine ⟨rfl, fun i hi => ?_⟩
    simp only [SectionArray.constant, Vector.getElem_replicate]
    decide
  obtain ⟨first, e₁, t₁, hfirst, he₁⟩ := (ready_create 300).serves_encode manyStates_inRegistry (by decide) {}
  obtain ⟨second, e₂, t₂, hsecond, -⟩ := he₁.serves_encode hconstant (by decide) {}
  have hserved := (Served.clean.step hfirst).step hsecond
  obtain ⟨⟨hindex, hpalette, -⟩, hall⟩ := served_as_clean hserved
  exact ⟨first, second, e₂, hserved, hindex, hpalette, hall _ (List.mem_append_right _ List.mem_cons_self) {}⟩

end Encoder

end VoxelStore
