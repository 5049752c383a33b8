import VoxelStore.Proofs.Column.Spares
import VoxelStore.Proofs.Edit.Alike
/-!
# A recycled edit is as good as a new one

Resetting an edit keeps the arrays of its column as spares, so it is another value than a new edit is. Nobody
can tell: a spare is filled anew before it serves, and where all spares have the width of the session they
cannot be told from no spares. `reset_as_new` says so for everything that can be asked of the two edits from
then on.
-/

namespace VoxelStore

namespace Edit

variable {e e' : Edit} {w : ArrayWidth} {bottom top : Int} {ops : List Op} {s t : Session}

/-- The arrays that an operation brings to stand in the column. -/
def Op.placed (op : Op) : List SectionArray := op.columnOps.flatMap Column.Op.placed

/-- `HistoryIn w bottom top ops e`: the operations `ops` lead from an edit without changes to `e`, and all
arrays that they bring have width `w`. So have those that the session makes: at no step it has decided for
another width, if for any. -/
inductive HistoryIn (w : ArrayWidth) (bottom top : Int) : List Op → Edit → Prop
  | create {e : Edit} {s t : Session} : create bottom top s = .ok e t → HistoryIn w bottom top [] e
  | step {ops : List Op} {op : Op} {e e' : Edit} {s t : Session} :
      HistoryIn w bottom top ops e → op.run e s = .ok e' t → (∀ a ∈ op.placed, a.width = w) →
      (∀ v, t.width = some v → v = w) → HistoryIn w bottom top (ops ++ [op]) e'

theorem HistoryIn.history (h : HistoryIn w bottom top ops e) : History bottom top ops e := by
  induction h with
  | create h => exact .create h
  | step _ hrun _ _ ih => exact ih.step hrun

/-- The range of such an edit has layers, and all of its arrays and spares are of one width. -/
theorem HistoryIn.ofWidth (h : HistoryIn w bottom top ops e) :
    e.column.bottom ≤ e.column.top ∧ e.column.background = .reserved ∧
      ∀ k, (e.column.layer k).OfWidth w := by
  induction h with
  | create h =>
    obtain ⟨c, s, hc, h⟩ := Run.bind_eq_ok.1 h
    cases h
    obtain ⟨hb, ht, hback, hlayer, -⟩ := Column.create_eq_ok hc
    refine ⟨?_, hback, fun k => ?_⟩
    · rw [hb, ht]
      exact Column.le_of_create hc
    · rw [hlayer]
      rintro a ⟨⟩
  | @step ops op e e' s t _ hrun hplaced hwidth ih =>
    obtain ⟨hrange, hback, hlayer⟩ := ih
    have hcolumn := Op.column_of_ok hrun
    obtain ⟨hb, ht, -⟩ := Column.runAll_grows hcolumn
    refine ⟨by omega, ?_⟩
    rw [← hback]
    refine Column.runAll_each hcolumn (fun x hx t₁ hkeep l l' hl hbecomes => ?_) hlayer
    refine hl.becomes (fun a ha => hplaced a (List.mem_flatMap.2 ⟨x, hx, ha⟩)) (fun v hv => ?_) hbecomes
    exact hwidth v (hkeep v hv)

/-- Where all arrays have the width of the session, no spare makes a difference. -/
theorem reset_alike_create {fresh : Edit} (hback : e.column.background = .reserved)
    (hlayer : ∀ k, (e.column.layer k).OfWidth w)
    (h : create e.column.bottom e.column.top s = .ok fresh t) : e.reset.Alike (.equal w) fresh := by
  obtain ⟨c, s₁, hc, h⟩ := Run.bind_eq_ok.1 h
  cases h
  obtain ⟨hb, ht, hback', hlayer', -⟩ := Column.create_eq_ok hc
  have hreset := Column.maps_reset e.column
  refine .intro ⟨hb.trans hreset.bottom.symm, ht.trans hreset.top.symm, ?_,
    WidthPairing.shared_equal w _, fun k => ?_⟩
  · exact hback'.trans (hback.symm.trans hreset.background.symm)
  · rw [hlayer']
    show (e.column.reset.layer k).Alike (.equal w) (.empty none)
    rw [hreset.layer]
    refine .empty ?_
    exact Layer.spareWidth_of_forall (hlayer k)

/-- An edit that is reset after any history in a session of one width keeps its range, and a new edit of this
range can be made. From then on the two answer every sequence of requests alike: the same replies, one
after the other, and the same fault where one ends in a fault. -/
theorem reset_as_new (h : HistoryIn w bottom top ops e) :
    e.reset.column.bottom = e.column.bottom ∧ e.reset.column.top = e.column.top ∧
      ∀ s : Session, ∃ fresh t, create e.column.bottom e.column.top s = .ok fresh t ∧
        ∀ (requests : List Request) (s₁ s₂ : Session), s₁.arrayWidth = w → s₂.arrayWidth = w →
          Run.transcript Request.serve requests e.reset s₁ = Run.transcript Request.serve requests fresh s₂ := by
  obtain ⟨hrange, hback, hlayer⟩ := h.ofWidth
  refine ⟨(Column.maps_reset e.column).bottom, (Column.maps_reset e.column).top, fun s => ?_⟩
  obtain ⟨c, t, hc⟩ := Column.create_ok .reserved hrange s
  have hcreate : create e.column.bottom e.column.top s = .ok { column := c } t := Run.bind_of_ok hc _
  refine ⟨_, t, hcreate, fun requests s₁ s₂ hs₁ hs₂ => ?_⟩
  have halike := reset_alike_create hback hlayer hcreate
  obtain ⟨hreplies, hfault⟩ := Run.transcript_alike (R := Eq) requests
    (fun r _ _ _ h => Request.serve_alike r h) halike ⟨hs₁, hs₂⟩
  exact Prod.ext (List.forall₂_eq_eq_eq ▸ hreplies) hfault

/-! ## Histories in a registry -/

theorem Op.Legal.placed {n : UInt32} {op : Op} (h : op.Legal n) :
    ∀ a ∈ op.placed, a.width = ArrayWidth.forStateCount n := by
  intro a ha
  obtain ⟨x, hx, ha⟩ := List.mem_flatMap.1 ha
  have hlegal := h.2 x hx
  cases x with
  | setBlocks layer data => exact (hlegal a (Option.mem_toList.1 ha)).width
  | replaceBlocks layer data => exact (hlegal a (Option.mem_toList.1 ha)).width
  | write layer writes =>
    obtain ⟨x, hx, ha⟩ := List.mem_flatMap.1 ha
    cases x with
    | assign source =>
      cases List.mem_singleton.1 ha
      exact SectionArray.InRegistry.width (hlegal _ hx)
    | _ => cases ha
  | _ => cases ha

theorem HistoryIn.goOn {n : UInt32} {before : List Op}
    (h : HistoryIn (.forStateCount n) bottom top before e) (he : e.column.InRegistry n) (ops : List Op)
    (hops : ∀ op ∈ ops, op.Legal n) :
    ∃ e', HistoryIn (.forStateCount n) bottom top (before ++ ops) e' ∧ e'.column.InRegistry n := by
  induction ops generalizing before e with
  | nil => exact ⟨e, by rwa [List.append_nil], he⟩
  | cons op ops ih =>
    have hs : Session.Serves n { width := some (ArrayWidth.forStateCount n) } := rfl
    have hop := hops op List.mem_cons_self
    obtain ⟨e₁, t, hrun, he₁, ht⟩ := Op.run_inRegistry hop he hs
    rw [List.append_cons]
    refine ih (h.step hrun hop.placed fun v hv => ?_) he₁ fun x hx => hops x (List.mem_cons_of_mem op hx)
    exact (Option.some.inj (ht.symm.trans hv)).symm

/-- Spares of one layer that was written and of one that was trimmed are behind the reset edit. The last
request is refused by both edits. -/
theorem reset_as_new_spares :
    ∃ e, HistoryIn .narrow 0 3 [.setBlock ⟨1, 20, 3⟩ 7, .setBlocks (-1) (some (.constant .narrow 9 (by decide))),
        .trimAll, .setTile ⟨0, 20, 0⟩ ⟨[]⟩] e ∧
      ∃ fresh t, create e.column.bottom e.column.top {} = .ok fresh t ∧
        ∀ s₁ s₂ : Session, s₁.arrayWidth = .narrow → s₂.arrayWidth = .narrow →
          let requests := [.read (.column (.getBlock ⟨1, 20, 3⟩)), .change (.write 1 [.set 5 4]),
            .change (.replaceBlocks (-1) none), .change (.setBlock ⟨1, 20, 3⟩ 70000)]
          Run.transcript Request.serve requests e.reset s₁ = Run.transcript Request.serve requests fresh s₂ := by
  obtain ⟨e₀, t₀, hcreate, he₀, -⟩ := create_inRegistry (n := 16) (show (0 : Int) ≤ 3 by decide) (by decide) {}
  have hconstant : (SectionArray.constant .narrow 9 (by decide)).InRegistry 16 := by
    refine ⟨rfl, fun i hi => ?_⟩
    simp only [SectionArray.constant, Vector.getElem_replicate]
    decide
  obtain ⟨e, he, -⟩ := (HistoryIn.create hcreate).goOn he₀ [.setBlock ⟨1, 20, 3⟩ 7,
    .setBlocks (-1) (some (.constant .narrow 9 (by decide))), .trimAll, .setTile ⟨0, 20, 0⟩ ⟨[]⟩]
    (by simp [Op.Legal, Op.Lit, Op.columnOps, Column.Op.Legal, hconstant])
  obtain ⟨-, -, hfresh⟩ := reset_as_new he
  obtain ⟨fresh, t, hrun, hsame⟩ := hfresh {}
  exact ⟨e, he, fresh, t, hrun, fun s₁ s₂ hs₁ hs₂ => hsame _ s₁ s₂ hs₁ hs₂⟩

end Edit

end VoxelStore
