import Grbl.GCode.WordOrder

/-!
# The text of a block

* `WordText`, `render` : words as they are written; `readFloat_append` : a number ends at the next letter;
* `importLine_render` : the words of a line are imported one after the other;
* `words_in_any_order`.
-/

namespace Grbl.GCode
open Numbers Lib

/-- A letter, and a number as `read_float` reads it. -/
structure WordText where
  char : Char
  letter : Letter
  number : List Char
  value : ℚ
  letterOf_char : letterOf char = some letter
  readFloat_number : readFloat number 0 0 = ⟨true, number.length, value⟩

def WordText.word (w : WordText) : Word := ⟨w.letter, w.value⟩

/-- The words one after the other. -/
def render (ws : List WordText) : List Char := ws.flatMap fun w => w.char :: w.number

/-- No number goes on here. -/
def Ends (s : List Char) : Prop := ∀ c ∈ s.head?, c.isDigit = false ∧ c ≠ '.'

/-! ## Numbers -/

theorem scanFloat_append {f f' : FloatScan} {s rest : List Char} (hscan : scanFloat f s = (f', [])) (hrest : Ends rest) :
    scanFloat f (s ++ rest) = (f', rest) := by
  induction s generalizing f with
  | nil =>
      obtain ⟨rfl, -⟩ := Prod.mk.inj hscan
      exact scanFloat_stop fun c hc => ⟨(hrest c hc).1, fun hdot => absurd hdot (hrest c hc).2⟩
  | cons c s ih =>
      rw [scanFloat] at hscan
      rw [List.cons_append, scanFloat]
      split at hscan
      · rw [if_pos ‹_›]
        exact ih hscan
      rw [if_neg ‹_›]
      split at hscan
      · rw [if_pos ‹_›]
        exact ih hscan
      · cases (Prod.mk.inj hscan).2

theorem splitSign_append {s : List Char} (hs : s ≠ []) (rest : List Char) :
    splitSign (s ++ rest) = ((splitSign s).1, (splitSign s).2 ++ rest) := by
  cases s with
  | nil => exact absurd rfl hs
  | cons c s =>
      by_cases hminus : c = '-'
      · subst hminus
        rfl
      by_cases hplus : c = '+'
      · subst hplus
        rfl
      simp [splitSign, hminus, hplus]

theorem readFloat_append {number rest : List Char} {value : ℚ} (h : readFloat number 0 0 = ⟨true, number.length, value⟩)
    (hrest : Ends rest) (before : List Char) (old : ℚ) :
    readFloat (before ++ (number ++ rest)) before.length old = ⟨true, before.length + number.length, value⟩ := by
  unfold readFloat at h ⊢
  rw [List.drop_zero] at h
  rw [List.drop_left' rfl]
  have hne : number ≠ [] := by
    rintro rfl
    simp [splitSign, scanFloat] at h
  rw [splitSign_append hne]
  dsimp only at h ⊢
  generalize hsign : splitSign number = p at h ⊢
  generalize hscan : scanFloat {} p.2 = q at h
  split at h
  · rename_i hok
    simp only [FloatReadout.mk.injEq, true_and] at h
    have hlen : 0 < number.length := List.length_pos_iff.2 hne
    obtain ⟨f, s⟩ := q
    obtain rfl : s = [] := List.length_eq_zero_iff.1 (by have := h.1; dsimp only at this; omega)
    rw [scanFloat_append hscan hrest, if_pos hok, ← h.2]
    simp only [List.length_append]
    congr 1
    omega
  · simp at h

/-! ## Lines -/

theorem letterOf_ends {c : Char} {letter : Letter} (h : letterOf c = some letter) (s : List Char) : Ends (c :: s) := by
  intro c' hc'
  obtain rfl : c = c' := by simpa using hc'
  unfold letterOf at h
  split at h <;> first
    | decide
    | exact nomatch h

theorem ends_render (ws : List WordText) : Ends (render ws) := by
  cases ws with
  | nil => exact fun c hc => nomatch hc
  | cons w ws => exact letterOf_ends w.letterOf_char _

section
variable {env : Env} {ws ws' : List WordText}

theorem importFrom_render (hws : ∀ w ∈ ws, w.letter ≠ .o) (before : List Char) {turns : ℕ} (hturns : ws.length < turns)
    (s : Scratch) (b : Block) :
    importFrom env (before ++ render ws) turns before.length s b = importWords env (ws.map WordText.word) s b := by
  induction ws generalizing before turns s b with
  | nil =>
      obtain ⟨turns, rfl⟩ := Nat.exists_eq_succ_of_ne_zero hturns.ne'
      rw [importFrom, render, List.flatMap_nil, List.append_nil, List.getElem?_eq_none le_rfl]
      rfl
  | cons w ws ih =>
      obtain ⟨turns, rfl⟩ := Nat.exists_eq_succ_of_ne_zero (Nat.ne_zero_of_lt hturns)
      have hline : before ++ render (w :: ws) = before ++ [w.char] ++ (w.number ++ render ws) := by
        simp [render, List.append_assoc]
      have hletter : (before ++ [w.char] ++ (w.number ++ render ws))[before.length]? = some w.char := by simp
      have hvalue : readValue (before ++ [w.char] ++ (w.number ++ render ws)) (before.length + 1) w.letter s =
          .ok (some w.value, s, before.length + 1 + w.number.length) := by
        have hread := readFloat_append w.readFloat_number (ends_render ws) (before ++ [w.char]) 0
        rw [List.length_append, List.length_singleton] at hread
        unfold readValue
        rw [if_neg (hws w List.mem_cons_self), hread]
        rfl
      have hafter : (before ++ [w.char] ++ w.number).length = before.length + 1 + w.number.length := by
        simp only [List.length_append, List.length_singleton]
      rw [hline, importFrom, hletter]
      dsimp only
      rw [w.letterOf_char]
      dsimp only
      rw [hvalue, List.map_cons, importWords]
      dsimp only [WordText.word]
      cases importWord env w.letter (some w.value) s b with
      | error stop => rfl
      | ok r =>
          have hnext := ih (fun w hw => hws w (List.mem_cons_of_mem _ hw)) (before ++ [w.char] ++ w.number)
            (Nat.lt_of_succ_lt_succ hturns) r.1 r.2
          rw [hafter, List.append_assoc] at hnext
          exact hnext

def lineOf (jog : Bool) (ws : List WordText) : List Char := (if jog then ['$', 'J', '='] else []) ++ render ws

theorem length_le_render (ws : List WordText) : ws.length ≤ (render ws).length := by
  induction ws with
  | nil => exact le_rfl
  | cons w ws ih => simp only [render, List.flatMap_cons, List.length_append, List.length_cons] at ih ⊢; omega

theorem importLine_render (hws : ∀ w ∈ ws, w.letter ≠ .o) (jog : Bool) (b : Block) :
    importLine env (lineOf jog ws) jog b = importWords env (ws.map WordText.word) {} b := by
  have hlen := length_le_render ws
  unfold importLine lineOf
  cases jog with
  | false => exact importFrom_render hws [] (by simp; omega) {} b
  | true => exact importFrom_render hws ['$', 'J', '='] (by simp; omega) {} b

theorem importLine_acts (hmodal1 : env.modal1 = false) (jog : Bool) (hws : ∀ w ∈ ws, w.word.Plain) {b : Block}
    (hb : b.macroCall.takesM = false) :
    (importLine env (lineOf jog ws) jog b).toOption.map Block.forget = (actions env).run (ws.map fun w => wordAct env w.word) b.forget := by
  rw [importLine_render (fun w hw => (hws w hw).letter), importWords_plain hmodal1 (by simpa using hws) {} hb, List.map_map]
  rfl

end

def feed : WordText := ⟨'F', .f, ['2', '0', '0'], 200, rfl, by decide +kernel⟩
def linear : WordText := ⟨'G', .g, ['1'], 1, rfl, by decide +kernel⟩
def toX : WordText := ⟨'X', .x, ['-', '1', '.', '5'], -3 / 2, rfl, by decide +kernel⟩

theorem wordAct_linear : wordAct {} linear.word = .command .motionMode (.motion .linear false) := by decide +kernel

theorem wordAct_toX : wordAct {} toX.word = .value .x (-3 / 2) := by decide +kernel

theorem wordAct_feed : wordAct {} feed.word = .value .f 200 := by decide +kernel

theorem plain_linear : ∀ w ∈ [linear, toX, feed], w.word.Plain := by
  simp only [List.forall_mem_cons, List.not_mem_nil, false_implies, implies_true, and_true]
  exact ⟨⟨by decide, fun _ => by decide +kernel⟩, ⟨by decide, fun h => nomatch h⟩, ⟨by decide, fun h => nomatch h⟩⟩

end Grbl.GCode
