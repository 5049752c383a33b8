import VoxelStore.Json.Reader
import VoxelStore.Proofs.Json.Lexing
/-!
# Reading JSON

What is read inside of a container is what is read alone: a text of a value leads a reader with open containers to that
value, and leaves the containers as they are (`value_then`). So an object is read from any texts of its keys and values
(`read?_objectText`), and the compact text of every value is read back (`read?_text`).
-/

namespace VoxelStore.Json

namespace Reader

variable {r r' q : Reader} {outer : List Frame} {t : Token} {tokens : List Token}

/-! ## Tokens first -/

theorem take_lexer (r : Reader) (lexer : Lexer) (t : Token) :
    ({ r with lexer } : Reader).take t = (r.take t).map fun r => { r with lexer } := by
  obtain ⟨l, expected, frames⟩ := r
  cases expected with
  | value => cases t <;> rfl
  | item =>
    rcases frames with _ | ⟨f, frames⟩
    · cases t <;> rfl
    · cases t <;> cases f <;> rfl
  | member =>
    rcases frames with _ | ⟨f, frames⟩
    · cases t <;> first | rfl | next v => cases v <;> rfl
    · cases t <;> cases f <;> first | rfl | next v _ => cases v <;> rfl
  | key => cases t <;> first | rfl | next v => cases v <;> rfl
  | colon k => cases t <;> rfl
  | done v =>
    rcases frames with _ | ⟨f, _ | ⟨g, frames⟩⟩
    · rfl
    · cases t <;> cases f <;> rfl
    · cases t <;> cases f <;> cases g <;> rfl

theorem foldlM_take_lexer (r : Reader) (lexer : Lexer) (tokens : List Token) :
    tokens.foldlM take { r with lexer } = (tokens.foldlM take r).map fun r => { r with lexer } := by
  induction tokens generalizing r with
  | nil => rfl
  | cons t tokens ih =>
    rw [List.foldlM_cons, List.foldlM_cons, take_lexer]
    cases r.take t with
    | none => rfl
    | some r' => exact ih r'

/-- Reading a text is taking its tokens. -/
theorem foldlM_step (r : Reader) (cs : List Char) :
    cs.foldlM step r = (r.lexer.run cs).bind fun p => (p.2.foldlM take r).map fun r => { r with lexer := p.1 } := by
  induction cs generalizing r with
  | nil => rfl
  | cons c cs ih =>
    rw [List.foldlM_cons, step, Lexer.run]
    cases r.lexer.step c with
    | none => rfl
    | some p =>
      obtain ⟨lexer, tokens⟩ := p
      show (tokens.foldlM take { r with lexer }).bind (fun r => cs.foldlM step r) =
        ((lexer.run cs).bind fun p => some (p.1, tokens ++ p.2)).bind _
      rw [foldlM_take_lexer]
      simp only [Option.bind_assoc, Option.bind_some, List.foldlM_append]
      cases tokens.foldlM take r with
      | none => cases lexer.run cs <;> rfl
      | some r' =>
        show cs.foldlM step { r' with lexer } = _
        rw [ih]
        refine Option.bind_congr fun p _ => ?_
        rw [foldlM_take_lexer, Option.map_map]
        rfl

/-- A text without an unfinished token is read as its tokens are taken. -/
theorem foldlM_step_of_run {cs : List Char} (hr : r.lexer = .between)
    (h : Lexer.run .between cs = some (.between, tokens)) : cs.foldlM step r = tokens.foldlM take r := by
  rw [foldlM_step, hr, h, Option.bind_some, ← foldlM_take_lexer, ← hr]

theorem lexer_of_foldlM_take (h : tokens.foldlM take r = some r') : r'.lexer = r.lexer := by
  have hsame := foldlM_take_lexer r r.lexer tokens
  rw [h] at hsame
  have hr : r' = { r' with lexer := r.lexer } := Option.some.inj hsame
  rw [hr]

theorem finish_eq_some {v : Json} : r.finish = some v ↔
    ∃ tokens, r.lexer.finish = some tokens ∧ tokens.foldlM take r = some ⟨r.lexer, .done v, []⟩ := by
  simp only [finish, Option.bind_eq_bind, Option.bind_eq_some_iff]
  refine exists_congr fun tokens => and_congr_right fun _ => ⟨?_, ?_⟩
  · rintro ⟨r', hr', hv⟩
    have hlexer := lexer_of_foldlM_take hr'
    obtain ⟨lexer, expected, frames⟩ := r'
    obtain rfl : lexer = r.lexer := hlexer
    rw [hr']
    cases expected with
    | done v' =>
      cases frames with
      | nil =>
        cases hv
        rfl
      | cons f frames => cases hv
    | _ => cases hv
  · intro h
    exact ⟨_, h, rfl⟩

/-- A text has a value if its tokens lead from the beginning to the value. -/
theorem read?_eq_some {cs : List Char} {v : Json} :
    read? cs = some v ↔ ∃ tokens, tokens? cs = some tokens ∧ tokens.foldlM take {} = some { expected := .done v } := by
  simp only [read?, foldlM_step, tokens?, Option.bind_eq_bind, Option.bind_eq_some_iff, Option.map_eq_some_iff,
    finish_eq_some, Option.pure_def, Option.some.injEq, Prod.exists]
  constructor
  · rintro ⟨_, ⟨lexer, first, hrun, r, hfirst, rfl⟩, rest, hrest, hdone⟩
    rw [foldlM_take_lexer] at hdone
    obtain ⟨r', hr', hdone⟩ := Option.map_eq_some_iff.1 hdone
    have hlexer := (lexer_of_foldlM_take hr').trans (lexer_of_foldlM_take hfirst)
    refine ⟨_, ⟨lexer, first, hrun, rest, hrest, rfl⟩, ?_⟩
    rw [List.foldlM_append, hfirst]
    refine hr'.trans (congrArg some ?_)
    obtain ⟨_, expected, frames⟩ := r'
    cases hdone
    cases hlexer
    rfl
  · rintro ⟨_, ⟨lexer, first, hrun, rest, hrest, rfl⟩, hdone⟩
    rw [List.foldlM_append] at hdone
    obtain ⟨r, hfirst, hdone⟩ := Option.bind_eq_some_iff.1 hdone
    refine ⟨_, ⟨lexer, first, hrun, r, hfirst, rfl⟩, rest, hrest, ?_⟩
    rw [foldlM_take_lexer, hdone]
    rfl

/-! ## Inside of containers -/

/-- `Within outer r q`: the reader `q` is `r` inside of more containers. Where `r` waits for a value, `q` may wait for
the first item of an array. -/
inductive Within (outer : List Frame) : Reader → Reader → Prop
  | same {lexer : Lexer} {expected : Expected} {frames : List Frame} :
      Within outer ⟨lexer, expected, frames⟩ ⟨lexer, expected, frames ++ outer⟩
  | item {lexer : Lexer} {frames : List Frame} :
      Within outer ⟨lexer, .value, frames⟩ ⟨lexer, .item, frames ++ outer⟩

theorem take_within (h : Within outer r q) (hr : r.take t = some r') :
    ∃ q', q.take t = some q' ∧ Within outer r' q' := by
  cases h with
  | item => cases t <;> cases hr <;> exact ⟨_, rfl, .same⟩
  | @same lexer expected frames =>
    cases expected with
    | value => cases t <;> cases hr <;> exact ⟨_, rfl, .same⟩
    | item =>
      cases t with
      | closeArray =>
        rcases frames with _ | ⟨f, frames⟩
        · cases hr
        · cases f <;> cases hr
          exact ⟨_, rfl, .same⟩
      | _ => cases hr <;> exact ⟨_, rfl, .same⟩
    | member =>
      cases t with
      | closeObject =>
        rcases frames with _ | ⟨f, frames⟩
        · cases hr
        · cases f <;> cases hr
          exact ⟨_, rfl, .same⟩
      | scalar v =>
        cases v <;> cases hr
        exact ⟨_, rfl, .same⟩
      | _ => cases hr
    | key =>
      cases t with
      | scalar v =>
        cases v <;> cases hr
        exact ⟨_, rfl, .same⟩
      | _ => cases hr
    | colon k =>
      cases t <;> cases hr
      exact ⟨_, rfl, .same⟩
    | done v =>
      -- the container that the value is in is one of the inner ones, since the token is taken
      rcases frames with _ | ⟨f, frames⟩
      · cases hr
      · cases f with
        | array before => cases t <;> cases hr <;> exact ⟨_, rfl, .same⟩
        | object before => cases t <;> cases hr
        | key k =>
          rcases frames with _ | ⟨g, frames⟩
          · cases hr
          · cases g <;> cases t <;> cases hr <;> exact ⟨_, rfl, .same⟩

theorem foldlM_within (h : Within outer r q) (hr : tokens.foldlM take r = some r') :
    ∃ q', tokens.foldlM take q = some q' ∧ Within outer r' q' := by
  induction tokens generalizing r q with
  | nil =>
    cases hr
    exact ⟨q, rfl, h⟩
  | cons t tokens ih =>
    rw [List.foldlM_cons] at hr
    obtain ⟨r₁, ht, hr⟩ := Option.bind_eq_some_iff.1 hr
    obtain ⟨q₁, hq, h₁⟩ := take_within h ht
    obtain ⟨q', hq', h'⟩ := ih h₁ hr
    refine ⟨q', ?_, h'⟩
    rw [List.foldlM_cons, hq]
    exact hq'

/-- A reader that waits for a value, or for the first item of an array. -/
def AtValue (expected : Expected) : Prop := expected = .value ∨ expected = .item

theorem foldlM_take_value {expected : Expected} {v : Json}
    (h : tokens.foldlM take {} = some { expected := .done v }) (he : AtValue expected) (frames : List Frame) :
    tokens.foldlM take { expected, frames } = some { expected := .done v, frames } := by
  have hwithin : Within frames {} { expected, frames } := by
    rcases he with rfl | rfl
    · exact .same
    · exact .item
  obtain ⟨q, hq, hend⟩ := foldlM_within hwithin h
  cases hend
  exact hq

/-- A text of a value and the character behind it, inside of any containers. -/
theorem value_then {cs : List Char} {v : Json} {expected : Expected} {c : Char} (h : read? cs = some v)
    (he : AtValue expected) (hc : Ends c t) (frames : List Frame) :
    (cs ++ [c]).foldlM step { expected, frames } = ({ expected := .done v, frames } : Reader).take t := by
  obtain ⟨tokens, htokens, hdone⟩ := read?_eq_some.1 h
  rw [foldlM_step_of_run rfl (run_then htokens hc), List.foldlM_append, foldlM_take_value hdone he frames]
  simp

/-! ## Keys -/

/-- A reader that waits for a key, maybe for the first of an object. -/
def AtKey (expected : Expected) : Prop := expected = .member ∨ expected = .key

/-- A reader without open containers waits for its value or has it. -/
def Rooted (r : Reader) : Prop := r.frames = [] → r.expected = .value ∨ ∃ v, r.expected = .done v

/-- A reader has its value after a token that is a value by itself, or after one that closes the outermost container. -/
theorem take_rooted (h : Rooted r) (hr : r.take t = some r') (hf : r'.frames = []) :
    (r.frames = [] ∧ r.expected = .value ∧ ∃ v, t = .scalar v ∧ r'.expected = .done v) ∨
      (∃ items, r'.expected = .done (.array items)) ∨ ∃ members, r'.expected = .done (.object members) := by
  obtain ⟨lexer, expected, frames⟩ := r
  cases frames with
  | nil =>
    rcases h rfl with hvalue | ⟨v, hdone⟩
    · cases hvalue
      cases t <;> cases hr <;> first | cases hf; done | exact .inl ⟨rfl, rfl, _, rfl, rfl⟩
    · cases hdone
      cases hr
  | cons f frames =>
    -- the token closes the container, since none is left
    cases expected with
    | value => cases t <;> cases hr <;> cases hf
    | item => cases t <;> cases f <;> cases hr <;> first | cases hf; done | exact .inr (.inl ⟨_, rfl⟩)
    | member =>
      cases t with
      | closeObject =>
        cases f <;> cases hr
        exact .inr (.inr ⟨_, rfl⟩)
      | scalar v =>
        cases v <;> cases hr
        cases hf
      | _ => cases hr
    | key =>
      cases t with
      | scalar v =>
        cases v <;> cases hr
        cases hf
      | _ => cases hr
    | colon k =>
      cases t <;> cases hr
      cases hf
    | done v =>
      cases f with
      | array before => cases t <;> cases hr <;> first | cases hf; done | exact .inr (.inl ⟨_, rfl⟩)
      | object before => cases t <;> cases hr
      | key k =>
        rcases frames with _ | ⟨g, frames⟩
        · cases hr
        · cases g <;> cases t <;> cases hr <;> first | cases hf; done | exact .inr (.inr ⟨_, rfl⟩)

theorem rooted_of_foldlM (h : tokens.foldlM take {} = some r) :
    Rooted r ∧ (tokens ≠ [] → r.frames = [] → ∃ v, r.expected = .done v) := by
  induction tokens using List.reverseRecOn generalizing r with
  | nil =>
    cases h
    exact ⟨fun _ => .inl rfl, fun hne => absurd rfl hne⟩
  | append_singleton tokens t ih =>
    rw [List.foldlM_append] at h
    obtain ⟨r₀, hr₀, ht⟩ := Option.bind_eq_some_iff.1 h
    have htake : r₀.take t = some r := by simpa using ht
    have hdone : r.frames = [] → ∃ v, r.expected = .done v := by
      intro hf
      rcases take_rooted (ih hr₀).1 htake hf with ⟨-, -, v, -, hv⟩ | ⟨items, hv⟩ | ⟨members, hv⟩
      · exact ⟨v, hv⟩
      · exact ⟨_, hv⟩
      · exact ⟨_, hv⟩
    exact ⟨fun hf => .inr (hdone hf), fun _ => hdone⟩

/-- A string is the only token of its text. -/
theorem tokens_of_string {s : Option String} (h : tokens.foldlM take {} = some { expected := .done (.string s) }) :
    tokens = [.scalar (.string s)] := by
  rcases tokens.eq_nil_or_concat with rfl | ⟨before, t, rfl⟩
  · cases h
  · rw [List.concat_eq_append, List.foldlM_append] at h
    obtain ⟨r, hr, ht⟩ := Option.bind_eq_some_iff.1 h
    obtain ⟨hrooted, hdone⟩ := rooted_of_foldlM hr
    have htake : r.take t = some { expected := .done (.string s) } := by simpa using ht
    rcases take_rooted hrooted htake rfl with ⟨hf, he, v, rfl, hv⟩ | ⟨items, hv⟩ | ⟨members, hv⟩
    · -- with a token before the string the reader would have had a value already
      have hbefore : before = [] := by
        by_contra hne
        obtain ⟨w, hw⟩ := hdone hne hf
        rw [he] at hw
        cases hw
      cases hv
      rw [hbefore]
      rfl
    · cases hv
    · cases hv

/-- A text of a key and the colon behind it, inside of an object. -/
theorem key_then {cs : List Char} {k : Option String} {expected : Expected} (h : read? cs = some (.string k))
    (he : AtKey expected) (frames : List Frame) :
    (cs ++ [':']).foldlM step { expected, frames } = some { expected := .value, frames := .key k :: frames } := by
  obtain ⟨tokens, htokens, hdone⟩ := read?_eq_some.1 h
  rw [foldlM_step_of_run rfl (run_then htokens .colon), tokens_of_string hdone]
  rcases he with rfl | rfl <;> rfl

end Reader

/-! ## Arrays and objects -/

/-- Texts with commas between them. -/
def separated : List (List Char) → List Char
  | [] => []
  | [cs] => cs
  | cs :: rest => cs ++ ',' :: separated rest

theorem separated_cons {cs : List Char} {rest : List (List Char)} (h : rest ≠ []) (tail : List Char) :
    separated (cs :: rest) ++ tail = (cs ++ [',']) ++ (separated rest ++ tail) := by
  cases rest with
  | nil => exact absurd rfl h
  | cons d rest => simp [separated]

open Reader

theorem items_then {texts : List (List Char)} {values : List Json}
    (h : List.Forall₂ (fun cs v => read? cs = some v) texts values) (hne : texts ≠ []) {expected : Expected}
    (he : AtValue expected) (before : List Json) (frames : List Frame) :
    (separated texts ++ [']']).foldlM Reader.step { expected, frames := .array before :: frames } =
      some { expected := .done (.array (before.reverse ++ values)), frames } := by
  induction h generalizing expected before with
  | nil => exact absurd rfl hne
  | @cons cs v texts values hcs htexts ih =>
    cases htexts with
    | nil =>
      rw [separated, value_then hcs he .closeArray]
      simp [Reader.take, Reader.after]
    | @cons d w texts values hd hrest =>
      have hrest := ih (List.cons_ne_nil _ _) (.inl rfl) (v :: before)
      rw [separated_cons (List.cons_ne_nil _ _), List.foldlM_append, value_then hcs he .comma]
      simpa [Reader.take, Reader.after] using hrest

/-- An array is read from any texts of its items. -/
theorem read?_array {texts : List (List Char)} {values : List Json}
    (h : List.Forall₂ (fun cs v => read? cs = some v) texts values) :
    read? ('[' :: separated texts ++ [']']) = some (.array values) := by
  cases h with
  | nil => rfl
  | cons hcs hrest =>
    have hitems := items_then (.cons hcs hrest) (List.cons_ne_nil _ _) (.inr rfl) [] []
    rw [read?, List.cons_append, List.foldlM_cons]
    show (List.foldlM step { expected := .item, frames := [.array []] } _).bind finish = _
    rw [hitems]
    rfl

/-- A member of an object, in any text of its key and its value. -/
structure MemberText where
  keyText : List Char
  valueText : List Char
  key : Option String
  value : Json
  key_reads : read? keyText = some (.string key)
  value_reads : read? valueText = some value

namespace MemberText

def text (m : MemberText) : List Char := m.keyText ++ ':' :: m.valueText

def member (m : MemberText) : Option String × Json := (m.key, m.value)

end MemberText

theorem member_then (m : MemberText) {expected : Expected} (he : AtKey expected) {c : Char}
    {t : Token} (hc : Ends c t) (frames : List Frame) :
    (m.text ++ [c]).foldlM step { expected, frames } =
      ({ expected := .done m.value, frames := .key m.key :: frames } : Reader).take t := by
  have hsplit : m.text ++ [c] = (m.keyText ++ [':']) ++ (m.valueText ++ [c]) := by simp [MemberText.text]
  rw [hsplit, List.foldlM_append, key_then m.key_reads he, ← value_then m.value_reads (.inl rfl) hc]
  rfl

theorem members_then {members : List MemberText} (hne : members ≠ []) {expected : Expected}
    (he : AtKey expected) (before : List (Option String × Json)) (frames : List Frame) :
    (separated (members.map MemberText.text) ++ ['}']).foldlM step { expected, frames := .object before :: frames } =
      some { expected := .done (.object (before.reverse ++ members.map MemberText.member)), frames } := by
  induction members generalizing expected before with
  | nil => exact absurd rfl hne
  | cons m members ih =>
    cases members with
    | nil =>
      rw [List.map_singleton, separated, member_then m he .closeObject]
      simp [Reader.take, Reader.after, MemberText.member]
    | cons n members =>
      have hrest := ih (List.cons_ne_nil _ _) (.inr rfl) (m.member :: before)
      rw [List.map_cons, separated_cons (by simp), List.foldlM_append, member_then m he .comma]
      simpa [Reader.take, Reader.after, MemberText.member] using hrest

/-- The text of an object with members in the given texts. -/
def objectText (members : List MemberText) : List Char := '{' :: separated (members.map MemberText.text) ++ ['}']

/-- An object is read from any texts of its keys and values. -/
theorem read?_objectText (members : List MemberText) :
    read? (objectText members) = some (.object (members.map MemberText.member)) := by
  cases members with
  | nil => rfl
  | cons m members =>
    have hmembers := members_then (List.cons_ne_nil m members) (.inl rfl) [] []
    rw [read?, objectText, List.cons_append, List.foldlM_cons]
    show (List.foldlM step { expected := .member, frames := [.object []] } _).bind finish = _
    rw [hmembers]
    rfl

/-! ## Every value -/

theorem read?_of_token {cs : List Char} {v : Json} (h : tokens? cs = some [.scalar v]) : read? cs = some v :=
  read?_eq_some.2 ⟨_, h, rfl⟩

theorem read?_literal (s : Option String) : read? (literal s) = some (.string s) := read?_of_token (tokens?_literal s)

theorem itemTexts_eq (items : List Json) : itemTexts items = separated (items.map text) := by
  induction items with
  | nil => rw [itemTexts, List.map_nil, separated]
  | cons item items ih =>
    cases items with
    | nil => rw [itemTexts, List.map_singleton, separated]
    | cons next items =>
      rw [itemTexts, ih]
      · rfl
      · simp

theorem memberTexts_eq (members : List (Option String × Json)) :
    memberTexts members = separated (members.map fun m => literal m.1 ++ ':' :: m.2.text) := by
  induction members with
  | nil => rw [memberTexts, List.map_nil, separated]
  | cons m members ih =>
    obtain ⟨k, v⟩ := m
    cases members with
    | nil => rw [memberTexts, List.map_singleton, separated]
    | cons next members =>
      rw [memberTexts, ih]
      · simp [separated]
      · simp

mutual

/-- The compact text of a value is read back. -/
theorem read?_text : ∀ j : Json, read? j.text = some j
  | .null => rfl
  | .bool true => rfl
  | .bool false => rfl
  | .integer n => read?_of_token (tokens?_integer n)
  | .real => rfl
  | .string s => by
    rw [text]
    exact read?_literal s
  | .array items => by
    rw [text, itemTexts_eq]
    exact read?_array (read?_texts items)
  | .object members => by
    obtain ⟨texts, htexts, hmembers⟩ := exists_memberTexts members
    have hread := read?_objectText texts
    rw [objectText, htexts, hmembers] at hread
    rw [text, memberTexts_eq]
    exact hread

theorem read?_texts : ∀ items : List Json, List.Forall₂ (fun cs v => read? cs = some v) (items.map text) items
  | [] => .nil
  | item :: items => .cons (read?_text item) (read?_texts items)

/-- Members in their compact texts. -/
theorem exists_memberTexts : ∀ members : List (Option String × Json), ∃ texts : List MemberText,
    texts.map MemberText.text = members.map (fun m => literal m.1 ++ ':' :: m.2.text) ∧
      texts.map MemberText.member = members
  | [] => ⟨[], rfl, rfl⟩
  | (k, v) :: members => by
    obtain ⟨texts, htexts, hmembers⟩ := exists_memberTexts members
    refine ⟨⟨literal k, v.text, k, v, read?_literal k, read?_text v⟩ :: texts, ?_, ?_⟩
    · rw [List.map_cons, htexts]
      rfl
    · rw [List.map_cons, hmembers]
      rfl

end

end VoxelStore.Json
