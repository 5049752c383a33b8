import Mathlib
import VoxelStore.Json.Token
/-!
# Lexing JSON

`Lexer.run` takes the lexer through a text. A text that ends where its last token ends gives the same tokens in front of
a comma, a colon or a closing bracket (`run_then`), although a number ends only there. The texts of all values without
parts are read back: integers of any size, and strings with whatever characters.
-/

namespace VoxelStore.Json

namespace Lexer

/-- The state after a text, and the tokens that the text completes. -/
def run : Lexer → List Char → Option (Lexer × List Token)
  | s, [] => some (s, [])
  | s, c :: cs => do
    let (s, tokens) ← s.step c
    let (s, rest) ← s.run cs
    return (s, tokens ++ rest)

variable {s t u : Lexer} {tokens rest : List Token} {c : Char} {cs ds : List Char}

theorem run_cons (h : s.step c = some (t, tokens)) (ht : t.run cs = some (u, rest)) :
    s.run (c :: cs) = some (u, tokens ++ rest) := by
  simp [run, h, ht]

theorem run_singleton (h : s.step c = some (t, tokens)) : s.run [c] = some (t, tokens) := by
  simp [run, h]

theorem run_append (h : s.run cs = some (t, tokens)) (ht : t.run ds = some (u, rest)) :
    s.run (cs ++ ds) = some (u, tokens ++ rest) := by
  induction cs generalizing s tokens with
  | nil =>
    cases h
    exact ht
  | cons c cs ih =>
    simp only [run, Option.bind_eq_bind, Option.bind_eq_some_iff, Option.pure_def, Option.some.injEq,
      Prod.mk.injEq, Prod.exists] at h
    obtain ⟨s₁, first, hc, s₂, second, hcs, rfl, rfl⟩ := h
    rw [List.append_assoc]
    exact run_cons hc (ih hcs)

end Lexer

/-- The tokens of a whole text. -/
def tokens? (cs : List Char) : Option (List Token) := do
  let (s, tokens) ← Lexer.run .between cs
  return tokens ++ (← s.finish)

theorem tokens?_of_run {s : Lexer} {tokens rest : List Token} {cs : List Char}
    (h : Lexer.run .between cs = some (s, tokens)) (hs : s.finish = some rest) :
    tokens? cs = some (tokens ++ rest) := by
  simp [tokens?, h, hs]

/-! ## The end of a token -/

/-- A character that ends any token before it, and the token that it is. -/
inductive Ends : Char → Token → Prop
  | comma : Ends ',' .comma
  | colon : Ends ':' .colon
  | closeArray : Ends ']' .closeArray
  | closeObject : Ends '}' .closeObject

theorem Lexer.step_of_finish {s : Lexer} {tokens : List Token} {c : Char} {t : Token}
    (h : s.finish = some tokens) (hc : Ends c t) : s.step c = some (.between, tokens ++ [t]) := by
  cases s with
  | between =>
    cases h
    cases hc <;> rfl
  | word missing value =>
    cases missing with
    | nil =>
      cases h
      cases hc <;> rfl
    | cons _ _ => cases h
  | number negative value part =>
    obtain ⟨v, hv, rfl⟩ : ∃ v, ended negative value part = some v ∧ [Token.scalar v] = tokens := by
      simpa [finish, Option.bind_eq_some_iff] using h
    have hnone : number? negative value c part = none := by
      cases part <;> first | cases hv; done | cases hc <;> rfl
    rw [step, hnone, hv]
    cases hc <;> rfl
  | _ => cases h

theorem run_then {cs : List Char} {tokens : List Token} {c : Char} {t : Token}
    (h : tokens? cs = some tokens) (hc : Ends c t) :
    Lexer.run .between (cs ++ [c]) = some (.between, tokens ++ [t]) := by
  simp only [tokens?, Option.bind_eq_bind, Option.bind_eq_some_iff, Option.pure_def, Option.some.injEq,
    Prod.exists] at h
  obtain ⟨s, first, hrun, rest, hs, rfl⟩ := h
  rw [List.append_assoc]
  exact Lexer.run_append hrun (Lexer.run_singleton (Lexer.step_of_finish hs hc))

/-! ## Numbers -/

/-- The character of a digit. -/
def digitChar (d : Nat) : Char := Char.ofNat (48 + d)

theorem digit?_digitChar {d : Nat} (h : d < 10) : digit? (digitChar d) = some d := by
  have hall : ∀ d : Fin 10, digit? (digitChar d) = some d.val := by decide
  exact hall ⟨d, h⟩

theorem Lexer.step_digit (negative : Bool) (value : Nat) {d : Nat} (h : d < 10) :
    (number negative value .whole).step (digitChar d) = some (.number negative (value * 10 + d) .whole, []) := by
  simp [step, number?, digit?_digitChar h]

/-- The digits of a number take the lexer to its value, from any state in which a number may start. -/
theorem Lexer.run_digits {s : Lexer} {negative : Bool}
    (hs : ∀ d, 0 < d → d < 10 → s.step (digitChar d) = some (.number negative d .whole, [])) {n : Nat}
    (hn : 0 < n) : s.run (digits n) = some (.number negative n .whole, []) := by
  induction n using Nat.strong_induction_on with
  | h n ih =>
    rw [digits]
    split
    · next hlt => exact run_singleton (hs n hn hlt)
    · next hge =>
      have hfront := ih (n / 10) (by omega) (by omega)
      have hlast := step_digit negative (n / 10) (Nat.mod_lt n (show 10 > 0 by decide))
      have hvalue : n / 10 * 10 + n % 10 = n := by omega
      rw [hvalue] at hlast
      exact run_append hfront (run_singleton hlast)

theorem tokens?_integer (n : Int) : tokens? (integer n).text = some [.scalar (.integer n)] := by
  have hstart : ∀ d : Fin 10, 0 < d.val → Lexer.between.step (digitChar d) = some (.number false d .whole, []) := by
    intro d hd
    fin_cases d <;> first | rfl | exact absurd hd (by decide)
  have hsign : ∀ d : Fin 10, 0 < d.val →
      (Lexer.number true 0 .sign).step (digitChar d) = some (.number true d .whole, []) := by
    intro d hd
    fin_cases d <;> first | rfl | exact absurd hd (by decide)
  cases n with
  | ofNat n =>
    rcases Nat.eq_zero_or_pos n with rfl | hn
    · rw [text, digits]
      rfl
    · rw [text]
      exact tokens?_of_run (Lexer.run_digits (fun d hpos hlt => hstart ⟨d, hlt⟩ hpos) hn) rfl
  | negSucc n =>
    have hdigits := Lexer.run_digits (fun d hpos hlt => hsign ⟨d, hlt⟩ hpos) n.succ_pos
    have hminus : Lexer.between.step '-' = some (.number true 0 .sign, []) := rfl
    rw [text]
    exact tokens?_of_run (Lexer.run_cons hminus hdigits) rfl

/-! ## Strings -/

theorem hexDigit?_hexDigit {n : Nat} (h : n < 16) : hexDigit? (hexDigit n) = some n := by
  have hall : ∀ n : Fin 16, hexDigit? (hexDigit n) = some n.val := by decide
  exact hall ⟨n, h⟩

/-- Whatever a literal holds for a character is read as its code unit. -/
theorem Lexer.run_escape (units : List Nat) (c : Char) :
    (Lexer.string units).run (Json.escape c) = some (.string (c.toNat :: units), []) := by
  by_cases hquote : c = '"'
  · subst hquote
    rfl
  by_cases hback : c = '\\'
  · subst hback
    rfl
  by_cases hcontrol : c.toNat < 32
  · have hhigh := hexDigit?_hexDigit (n := c.toNat / 16) (by omega)
    have hlow := hexDigit?_hexDigit (n := c.toNat % 16) (by omega)
    have hzero : hexDigit? '0' = some 0 := rfl
    have hvalue : c.toNat / 16 * 16 + c.toNat % 16 = c.toNat := by omega
    simp [Json.escape, hquote, hback, hcontrol, run, step, hhigh, hlow, hzero, hvalue]
  · rw [Json.escape, if_neg hquote, if_neg hback, if_neg hcontrol]
    apply run_singleton
    rw [step, if_neg hquote, if_neg hback, if_neg hcontrol]

theorem Lexer.run_escapes (units : List Nat) (cs : List Char) :
    (Lexer.string units).run (cs.flatMap Json.escape) =
      some (.string ((cs.map Char.toNat).reverse ++ units), []) := by
  induction cs generalizing units with
  | nil => rfl
  | cons c cs ih =>
    rw [List.flatMap_cons, List.map_cons, List.reverse_cons, List.append_assoc]
    exact run_append (run_escape units c) (ih (c.toNat :: units))

/-- No character is half of a surrogate pair. -/
theorem not_surrogate (c : Char) : ¬(0xD800 ≤ c.toNat ∧ c.toNat < 0xE000) := by
  have hvalid : c.toNat < 0xD800 ∨ 0xDFFF < c.toNat ∧ c.toNat < 0x110000 := c.valid
  omega

theorem ofUnits_map_toNat (cs : List Char) : ofUnits (cs.map Char.toNat) = some cs := by
  induction cs with
  | nil => rfl
  | cons c cs ih =>
    have hnot := not_surrogate c
    cases cs with
    | nil =>
      rw [List.map_singleton, ofUnits, if_neg hnot, Char.ofNat_toNat]
    | cons d cs =>
      have hhigh : ¬(0xD800 ≤ c.toNat ∧ c.toNat < 0xDC00) := by omega
      have hlow : ¬(0xDC00 ≤ c.toNat ∧ c.toNat < 0xE000) := by omega
      rw [List.map_cons, List.map_cons, ofUnits, if_neg hhigh, if_neg hlow, ← List.map_cons, ih, Char.ofNat_toNat]
      rfl

theorem tokens?_literal (s : Option String) : tokens? (literal s) = some [.scalar (.string s)] := by
  cases s with
  | none => rfl
  | some s =>
    have hopen : Lexer.between.step '"' = some (.string [], []) := rfl
    have hclose : (Lexer.string ((s.toList.map Char.toNat).reverse ++ [])).step '"' =
        some (.between, [.scalar (.string (some s))]) := by
      simp [Lexer.step, ofUnits_map_toNat]
    have hbody := Lexer.run_append (Lexer.run_escapes [] s.toList) (Lexer.run_singleton hclose)
    exact tokens?_of_run (Lexer.run_cons hopen hbody) rfl

end VoxelStore.Json
