import Mathlib.Data.List.Forall2
import VoxelStore.Proofs.Run
/-!
# Two runs side by side

`Run.Alike S R x y` says that in sessions related by `S` the runs `x` and `y` end alike: in values related
by `R` and sessions related by `S`, or in the same fault. The rules below follow the way in which a run is
composed, so that two runs of one operation are compared part by part. `Run.transcript` is all that whoever
sends requests to an object gets to see, and `transcript_alike` compares two of them request by request.
-/

namespace VoxelStore

variable {α β γ δ : Type}

/-- Both computations end in values related by `R`, or both in the same fault. -/
inductive ExceptAlike (R : α → β → Prop) : Except Fault α → Except Fault β → Prop
  | ok {a b} : R a b → ExceptAlike R (.ok a) (.ok b)
  | error (f) : ExceptAlike R (.error f) (.error f)

namespace ExceptAlike

variable {R : α → β → Prop} {Q : γ → δ → Prop}

theorem bind {x : Except Fault α} {y : Except Fault β} {f : α → Except Fault γ} {g : β → Except Fault δ}
    (h : ExceptAlike R x y) (hf : ∀ a b, R a b → ExceptAlike Q (f a) (g b)) :
    ExceptAlike Q (x >>= f) (y >>= g) := by
  cases h with
  | ok hab => exact hf _ _ hab
  | error e => exact .error e

theorem refl {x : Except Fault α} : ExceptAlike Eq x x := by
  cases x with
  | ok a => exact .ok rfl
  | error f => exact .error f

end ExceptAlike

namespace Run

/-- Two results with related values and sessions, or with the same fault. -/
inductive EndAlike (S : Session → Session → Prop) (R : α → β → Prop) :
    EStateM.Result Fault Session α → EStateM.Result Fault Session β → Prop
  | ok {a b s t} : R a b → S s t → EndAlike S R (.ok a s) (.ok b t)
  | error {f s t} : EndAlike S R (.error f s) (.error f t)

/-- In related sessions both runs end alike. -/
def Alike (S : Session → Session → Prop) (R : α → β → Prop) (x : Run α) (y : Run β) : Prop :=
  ∀ s t, S s t → EndAlike S R (x s) (y t)

variable {S : Session → Session → Prop} {R : α → β → Prop} {Q : γ → δ → Prop}

namespace Alike

theorem pure {a : α} {b : β} (h : R a b) : Alike S R (pure a) (pure b) := fun _ _ hs => .ok h hs

theorem throw (f : Fault) : Alike S R (throw f) (throw f) := fun _ _ _ => .error

theorem bind {x : Run α} {y : Run β} {f : α → Run γ} {g : β → Run δ} (h : Alike S R x y)
    (hf : ∀ a b, R a b → Alike S Q (f a) (g b)) : Alike S Q (x >>= f) (y >>= g) := by
  intro s t hs
  have hxy := h s t hs
  simp only [Bind.bind, EStateM.bind]
  cases hx : x s with
  | ok a s' =>
    cases hy : y t with
    | ok b t' =>
      rw [hx, hy] at hxy
      cases hxy with
      | ok hab hs' => exact hf a b hab s' t' hs'
    | error e t' =>
      rw [hx, hy] at hxy
      cases hxy
  | error e s' =>
    cases hy : y t with
    | ok b t' =>
      rw [hx, hy] at hxy
      cases hxy
    | error e' t' =>
      rw [hx, hy] at hxy
      cases hxy
      exact .error

theorem map {x : Run α} {y : Run β} {f : α → γ} {g : β → δ} (h : Alike S R x y)
    (hf : ∀ a b, R a b → Q (f a) (g b)) : Alike S Q (f <$> x) (g <$> y) := by
  rw [map_eq_pure_bind, map_eq_pure_bind]
  exact h.bind fun a b hab => .pure (hf a b hab)

theorem mono {P : α → β → Prop} {x : Run α} {y : Run β} (h : Alike S R x y)
    (hRP : ∀ a b, R a b → P a b) : Alike S P x y := by
  intro s t hs
  have hxy := h s t hs
  generalize x s = r, y t = r' at hxy ⊢
  cases hxy with
  | ok hab hs' => exact .ok (hRP _ _ hab) hs'
  | error => exact .error

theorem lift {x : Except Fault α} {y : Except Fault β} (h : ExceptAlike R x y) :
    Alike S R (liftM x : Run α) (liftM y : Run β) := by
  cases h with
  | ok hab => exact .pure hab
  | error f => exact .throw f

/-- Runs that end in values in every session are alike when the values and the sessions are. -/
theorem of_ok {x : Run α} {y : Run β}
    (h : ∀ s t, S s t → ∃ a s' b t', x s = .ok a s' ∧ y t = .ok b t' ∧ R a b ∧ S s' t') : Alike S R x y := by
  intro s t hs
  obtain ⟨a, s', b, t', hx, hy, hab, hs'⟩ := h s t hs
  rw [hx, hy]
  exact .ok hab hs'

/-- What holds of two sessions holds whatever is logged in them. -/
def LogFree (S : Session → Session → Prop) : Prop :=
  ∀ s t events events', S s t → S { s with events } { t with events := events' }

theorem logFree_true : LogFree fun _ _ => True := fun _ _ _ _ _ => trivial

theorem emit (hS : LogFree S) (e : Event) : Alike S Eq (emit e) (emit e) :=
  fun s t hs => .ok rfl (hS s t _ _ hs)

/-- What the first of two alike runs ends in, the second ends in as well. -/
theorem ok_right {x : Run α} {y : Run β} {s t s' : Session} {a : α} (h : Alike S R x y) (hs : S s t)
    (hx : x s = .ok a s') : ∃ b t', y t = .ok b t' ∧ R a b ∧ S s' t' := by
  have hxy := h s t hs
  rw [hx] at hxy
  generalize hy : y t = r at hxy
  cases hxy with
  | ok hab hs' => exact ⟨_, _, rfl, hab, hs'⟩

end Alike

/-! ## Transcripts -/

variable {σ τ ρ : Type}

/-- The replies to the requests, one after the other, and the fault that ended them early, if any. -/
def transcript (serve : σ → ρ → Run (α × σ)) : List ρ → σ → Session → List α × Option Fault
  | [], _, _ => ([], none)
  | r :: rest, x, s =>
    match serve x r s with
    | .ok (a, x) s => (a :: (transcript serve rest x s).1, (transcript serve rest x s).2)
    | .error f _ => ([], some f)

/-- Objects that serve every request alike have transcripts of pairwise related replies, which end in the
same fault if in any. -/
theorem transcript_alike {serve : σ → ρ → Run (α × σ)} {serve' : τ → ρ → Run (β × τ)} {Rel : σ → τ → Prop}
    (requests : List ρ)
    (hserve : ∀ r ∈ requests, ∀ x y, Rel x y →
      Alike S (fun p q => R p.1 q.1 ∧ Rel p.2 q.2) (serve x r) (serve' y r))
    {x : σ} {y : τ} {s t : Session} (h : Rel x y) (hs : S s t) :
    List.Forall₂ R (transcript serve requests x s).1 (transcript serve' requests y t).1 ∧
      (transcript serve requests x s).2 = (transcript serve' requests y t).2 := by
  induction requests generalizing x y s t with
  | nil => exact ⟨.nil, rfl⟩
  | cons r requests ih =>
    have hend := hserve r List.mem_cons_self x y h s t hs
    unfold transcript
    generalize serve x r s = e, serve' y r t = e' at hend
    cases hend with
    | error => exact ⟨.nil, rfl⟩
    | ok hab hs' =>
      obtain ⟨hreplies, hfault⟩ := ih (fun r' hr' => hserve r' (List.mem_cons_of_mem r hr')) hab.2 hs'
      exact ⟨.cons hab.1 hreplies, hfault⟩

/-- Objects that serve every request alike, with the same replies, have the same transcript. -/
theorem transcript_congr {serve : σ → ρ → Run (α × σ)} {serve' : τ → ρ → Run (α × τ)} {Rel : σ → τ → Prop}
    (requests : List ρ)
    (hserve : ∀ r x y, Rel x y → Alike S (fun p q => p.1 = q.1 ∧ Rel p.2 q.2) (serve x r) (serve' y r))
    {x : σ} {y : τ} {s t : Session} (h : Rel x y) (hs : S s t) :
    transcript serve requests x s = transcript serve' requests y t := by
  obtain ⟨hreplies, hfault⟩ := transcript_alike (R := Eq) requests (fun r _ x y hxy => hserve r x y hxy) h hs
  exact Prod.ext (List.forall₂_eq_eq_eq ▸ hreplies) hfault

end Run

end VoxelStore
