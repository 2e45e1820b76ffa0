import Mathlib
import Grbl.Protocol.Responses

/-!
# Editing a line

* `editStep`, `edited` : the text that the characters of a line leave; `SameAsRetyped` : the loop is where the text leads when it is
  typed at once;
* `AtStart`, `Holds` : the loop at the start of a line, and when it holds a text; `Kept` : a text that is left;
* `recheckLine_concat` : a character after a rescan; `readCharacter_holds`, `readCharacter_back` : one character;
* `edited_same_iff` : all along a line; `deleted_after_overflow` : a line that is not the same.
-/

namespace Grbl.Protocol
open Lib

/-- Neither end of a line. -/
def InLine (c : Char8) : Prop := c ≠ asciiLF ∧ c ≠ asciiCR

instance (c : Char8) : Decidable (InLine c) := by
  unfold InLine
  infer_instance

/-! ## The text -/

/-- What a character does to the text of the line: leading blanks and control characters are left out. -/
def editStep (text : List Char8) (c : Char8) : List Char8 :=
  if c = asciiCAN then []
  else if c = asciiEOF then text
  else if c = asciiBS ∨ c = asciiDEL then text.dropLast
  else if c ≤ (if text = [] then blank else blank - 1) then text
  else text ++ [c]

def edited (cs : List Char8) : List Char8 := cs.foldl editStep []

/-- A text that is left: each of its characters is kept where it stands. -/
def Kept (text : List Char8) : Prop := ∀ p c, p ++ [c] <+: text → InLine c ∧ editStep p c = p ++ [c] ∧ c ≠ asciiBS ∧ c ≠ asciiDEL

section
variable {σ : Type*} (h : Host σ)

structure AtStart (m : MainLoop σ) : Prop where
  line : m.line = []
  flags : m.flags = {}
  keepRtCommands : m.keepRtCommands = false

/-- What a line end goes by. -/
structure SameLine (m m' : MainLoop σ) : Prop where
  line : m.line = m'.line
  flags : m.flags = m'.flags
  keepRtCommands : m.keepRtCommands = m'.keepRtCommands

/-- After these characters the loop is where it is after the text that they leave. -/
def SameAsRetyped (m : MainLoop σ) (cs : List Char8) : Prop :=
  ∃ m₁ m₂, run (readCharacter h) m cs = some m₁ ∧ run (readCharacter h) m (edited cs) = some m₂ ∧ SameLine m₁ m₂

structure Holds (text : List Char8) (m : MainLoop σ) : Prop where
  line : m.line = text.take (lineBufferSize - 1)
  flags : m.flags = { (recheckLine h text).1 with overflow := decide (lineBufferSize ≤ text.length) }
  keepRtCommands : m.keepRtCommands = (recheckLine h text).2

variable {h}

/-! ## Texts -/

theorem edited_concat (cs : List Char8) (c : Char8) : edited (cs ++ [c]) = editStep (edited cs) c := by
  rw [edited, List.foldl_concat]
  rfl

theorem Kept.shorter {p text : List Char8} (hkept : Kept text) (hp : p <+: text) : Kept p := fun q c hq => hkept q c (hq.trans hp)

theorem Kept.nil : Kept [] := fun p c hp => absurd (List.prefix_nil.1 hp) (List.append_ne_nil_of_right_ne_nil _ (List.cons_ne_nil _ _))

theorem Kept.concat {text : List Char8} {c : Char8} (hkept : Kept text) (hc : InLine c) (hstep : editStep text c = text ++ [c])
    (hbs : c ≠ asciiBS) (hdel : c ≠ asciiDEL) : Kept (text ++ [c]) := by
  intro p d hp
  rcases List.prefix_concat_iff.1 hp with heq | hp
  · obtain ⟨rfl, hd⟩ := List.append_inj' heq rfl
    cases hd
    exact ⟨hc, hstep, hbs, hdel⟩
  · exact hkept p d hp

theorem Kept.editStep {text : List Char8} (hkept : Kept text) {c : Char8} (hc : InLine c) : Kept (editStep text c) := by
  unfold Protocol.editStep
  split
  · exact Kept.nil
  · split
    · exact hkept
    · split
      · exact hkept.shorter (List.dropLast_prefix text)
      · rename_i hcan heof hback
        by_cases hskip : c ≤ if text = [] then blank else blank - 1
        · rw [if_pos hskip]
          exact hkept
        · rw [if_neg hskip]
          obtain ⟨hbs, hdel⟩ := not_or.1 hback
          refine hkept.concat hc ?_ hbs hdel
          rw [Protocol.editStep, if_neg hcan, if_neg heof, if_neg hback, if_neg hskip]

theorem kept_edited {cs : List Char8} (hcs : ∀ c ∈ cs, InLine c) : Kept (edited cs) := by
  induction cs using List.reverseRecOn with
  | nil => exact Kept.nil
  | append_singleton cs c ih =>
      rw [edited_concat]
      exact (ih fun d hd => hcs d (List.mem_append_left _ hd)).editStep (hcs c (List.mem_append_right _ (List.mem_singleton_self c)))

/-! ## Flags -/

theorem recheckFrom_concat (cs : List Char8) (c : Char8) (first : Bool) (flags : LineFlags) (keep : Bool) :
    recheckFrom h (cs ++ [c]) first flags keep =
      commentCharacter h c (decide (cs = []) && first) (recheckFrom h cs first flags keep).1 (recheckFrom h cs first flags keep).2 := by
  induction cs generalizing first flags keep with
  | nil => rfl
  | cons d cs ih =>
      rw [List.cons_append, recheckFrom, ih, Bool.and_false, decide_eq_false (List.cons_ne_nil _ _), Bool.false_and]
      rfl

theorem recheckLine_concat (cs : List Char8) (c : Char8) :
    recheckLine h (cs ++ [c]) = commentCharacter h c (decide (cs = [])) (recheckLine h cs).1 (recheckLine h cs).2 := by
  rw [recheckLine, recheckFrom_concat, Bool.and_true]
  rfl

theorem commentCharacter_setOverflow (c : Char8) (first : Bool) (flags : LineFlags) (keep : Bool) (o o' : Bool) :
    { (commentCharacter h c first { flags with overflow := o } keep).1 with overflow := o' } =
      { (commentCharacter h c first flags keep).1 with overflow := o' } ∧
    (commentCharacter h c first { flags with overflow := o } keep).2 = (commentCharacter h c first flags keep).2 := by
  unfold commentCharacter
  split_ifs <;> exact ⟨rfl, rfl⟩

theorem recheckFrom_overflow (cs : List Char8) (first : Bool) (flags : LineFlags) (keep : Bool) :
    (recheckFrom h cs first flags keep).1.overflow = flags.overflow := by
  induction cs generalizing first flags keep with
  | nil => rfl
  | cons c cs ih =>
      rw [recheckFrom, ih]
      exact commentCharacter_overflow c first flags keep

theorem setOverflow_eq {flags : LineFlags} {o : Bool} (h : flags.overflow = o) : { flags with overflow := o } = flags := by
  cases flags
  cases h
  rfl

/-! ## One character -/

theorem Holds.line_nil_iff {text : List Char8} {m : MainLoop σ} (hm : Holds h text m) : m.line = [] ↔ text = [] := by
  rw [hm.line, List.take_eq_nil_iff]
  exact or_iff_right (by decide)

theorem Holds.length_line {text : List Char8} {m : MainLoop σ} (hm : Holds h text m) : m.line.length = min 256 text.length := by
  rw [hm.line, List.length_take]
  rfl

theorem not_le_of_delete {c : Char8} (hback : c = asciiBS ∨ c = asciiDEL) (line : List Char8) :
    ¬ (c ≠ asciiBS ∧ c ≤ if line = [] then blank else blank - 1) := by
  rintro ⟨hbs, hle⟩
  rcases hback with rfl | rfl
  · exact hbs rfl
  · split at hle
    · exact absurd hle (by decide)
    · exact absurd hle (by decide)

theorem readCharacter_delete {c : Char8} (hback : c = asciiBS ∨ c = asciiDEL) (m : MainLoop σ) :
    readCharacter h m c = some (otherCharacter h c { m with env := h.between m.env }) := by
  have hcontrol : c ≠ asciiCAN ∧ c ≠ asciiEOF ∧ ¬ (c = asciiLF ∨ c = asciiCR) := by
    rcases hback with rfl | rfl <;> decide
  unfold readCharacter
  dsimp only
  rw [if_neg hcontrol.1, if_neg hcontrol.2.1, if_neg hcontrol.2.2, if_neg (not_le_of_delete hback m.line)]

theorem Holds.delete {text : List Char8} {m : MainLoop σ} (hm : Holds h text m) (hfits : text.length ≤ lineBufferSize - 1) {c : Char8}
    (hback : c = asciiBS ∨ c = asciiDEL) : Holds h text.dropLast (otherCharacter h c m) := by
  have hline : m.line = text := by rw [hm.line, List.take_of_length_le hfits]
  unfold otherCharacter
  rw [if_pos hback]
  split
  · rename_i hnil
    have htext := hm.line_nil_iff.1 hnil
    rw [htext, List.dropLast_nil, ← htext]
    exact hm
  · have hshort : text.dropLast.length ≤ lineBufferSize - 1 := by
      rw [List.length_dropLast]
      omega
    have hfalse : decide (lineBufferSize ≤ text.dropLast.length) = false := by
      rw [decide_eq_false_iff_not]
      exact Nat.not_le.2 (Nat.lt_of_le_of_lt hshort (by decide))
    dsimp only
    rw [hline]
    refine ⟨(List.take_of_length_le hshort).symm, ?_, rfl⟩
    rw [hfalse]
    exact (setOverflow_eq (recheckFrom_overflow _ _ _ _)).symm

theorem Holds.append {text : List Char8} {m : MainLoop σ} (hm : Holds h text m) {c : Char8} (hback : ¬ (c = asciiBS ∨ c = asciiDEL)) :
    Holds h (text ++ [c]) (otherCharacter h c m) := by
  have hfirst : decide (m.line = []) = decide (text = []) := decide_eq_decide.2 hm.line_nil_iff
  have hlen := hm.length_line
  have hsize : lineBufferSize = 257 := rfl
  unfold otherCharacter
  rw [if_neg hback, hfirst, hm.flags, hm.keepRtCommands]
  dsimp only
  obtain ⟨htrue, hkeep⟩ := commentCharacter_setOverflow (h := h) c (decide (text = [])) (recheckLine h text).1 (recheckLine h text).2
    (decide (lineBufferSize ≤ text.length)) true
  have hfalse := (commentCharacter_setOverflow (h := h) c (decide (text = [])) (recheckLine h text).1 (recheckLine h text).2
    (decide (lineBufferSize ≤ text.length)) false).1
  split
  · rename_i hfull
    refine ⟨?_, ?_, ?_⟩
    · dsimp only
      rw [hm.line, List.take_append_of_le_length (by omega)]
    · dsimp only
      rw [htrue, recheckLine_concat, List.length_append, List.length_singleton,
        show decide (lineBufferSize ≤ text.length + 1) = true from decide_eq_true (by omega)]
    · dsimp only
      rw [hkeep, recheckLine_concat]
  · rename_i hroom
    have hline : m.line = text := by rw [hm.line, List.take_of_length_le (by omega)]
    refine ⟨?_, ?_, ?_⟩
    · dsimp only
      rw [hline, List.take_of_length_le (by rw [List.length_append, List.length_singleton]; omega)]
    · dsimp only
      rw [hfalse, recheckLine_concat, List.length_append, List.length_singleton,
        show decide (lineBufferSize ≤ text.length + 1) = false from decide_eq_false (by omega)]
    · dsimp only
      rw [hkeep, recheckLine_concat]

theorem readCharacter_holds {text : List Char8} {m : MainLoop σ} (hm : Holds h text m) {c : Char8} (hc : InLine c)
    (hfits : c = asciiBS ∨ c = asciiDEL → text.length ≤ lineBufferSize - 1) :
    ∃ m', readCharacter h m c = some m' ∧ Holds h (editStep text c) m' := by
  have hm' : Holds h text { m with env := h.between m.env } := ⟨hm.line, hm.flags, hm.keepRtCommands⟩
  unfold editStep
  by_cases hback : c = asciiBS ∨ c = asciiDEL
  · have hcontrol : c ≠ asciiCAN ∧ c ≠ asciiEOF := by
      rcases hback with rfl | rfl <;> decide
    rw [if_neg hcontrol.1, if_neg hcontrol.2, if_pos hback]
    exact ⟨_, readCharacter_delete hback m, hm'.delete (hfits hback) hback⟩
  · unfold readCharacter
    dsimp only
    by_cases hcan : c = asciiCAN
    · rw [if_pos hcan, if_pos hcan]
      exact ⟨_, rfl, rfl, rfl, rfl⟩
    rw [if_neg hcan, if_neg hcan]
    by_cases heof : c = asciiEOF
    · rw [if_pos heof, if_pos heof]
      exact ⟨_, rfl, hm.line, hm.flags, hm.keepRtCommands⟩
    rw [if_neg heof, if_neg heof, if_neg hback, if_neg (not_or.2 hc)]
    have hlimit : (if m.line = [] then blank else blank - 1) = if text = [] then blank else blank - 1 := by
      by_cases hnil : text = []
      · rw [if_pos hnil, if_pos (hm.line_nil_iff.2 hnil)]
      · rw [if_neg hnil, if_neg fun hline => hnil (hm.line_nil_iff.1 hline)]
    rw [hlimit]
    by_cases hskip : c ≤ if text = [] then blank else blank - 1
    · rw [if_pos hskip, if_pos ⟨fun hbs => hback (.inl hbs), hskip⟩]
      exact ⟨_, rfl, hm'⟩
    · rw [if_neg hskip, if_neg fun hle => hskip hle.2]
      exact ⟨_, rfl, hm'.append hback⟩

theorem readCharacter_back {text : List Char8} {m : MainLoop σ} (hm : Holds h text m) (hlong : lineBufferSize ≤ text.length)
    {c : Char8} (hback : c = asciiBS ∨ c = asciiDEL) : ∃ m', readCharacter h m c = some m' ∧ m'.line.length = 255 := by
  have hsize : lineBufferSize = 257 := rfl
  have hlen := hm.length_line
  have hne : m.line ≠ [] := fun hnil => by
    rw [hnil, List.length_nil] at hlen
    omega
  refine ⟨_, readCharacter_delete hback m, ?_⟩
  unfold otherCharacter
  rw [if_pos hback, if_neg hne]
  dsimp only
  rw [List.length_dropLast, hlen]
  omega

/-! ## Lines -/

theorem AtStart.holds {m : MainLoop σ} (hm : AtStart m) : Holds h [] m := ⟨hm.line, hm.flags, hm.keepRtCommands⟩

theorem run_kept {m : MainLoop σ} (hm : AtStart m) {text : List Char8} (hkept : Kept text) :
    ∃ m', run (readCharacter h) m text = some m' ∧ Holds h text m' := by
  induction text using List.reverseRecOn with
  | nil => exact ⟨m, rfl, hm.holds⟩
  | append_singleton text c ih =>
      obtain ⟨m₁, hrun, hholds⟩ := ih (hkept.shorter (List.prefix_append _ _))
      obtain ⟨hc, hstep, hbs, hdel⟩ := hkept text c List.prefix_rfl
      obtain ⟨m₂, hread, hholds'⟩ := readCharacter_holds hholds hc fun hback => absurd hback (not_or.2 ⟨hbs, hdel⟩)
      exact ⟨m₂, run_concat_eq_some.2 ⟨m₁, hrun, hread⟩, hstep ▸ hholds'⟩

theorem sameAsRetyped_iff {m m' : MainLoop σ} (hm : AtStart m) {cs : List Char8} (hcs : ∀ c ∈ cs, InLine c)
    (hrun : run (readCharacter h) m cs = some m') : SameAsRetyped h m cs ↔ Holds h (edited cs) m' := by
  obtain ⟨m₂, hretyped, hholds⟩ := run_kept (h := h) hm (kept_edited hcs)
  constructor
  · rintro ⟨m₁, m₂', hrun', hretyped', hsame⟩
    rw [hrun] at hrun'
    rw [hretyped] at hretyped'
    cases hrun'
    cases hretyped'
    exact ⟨hsame.line.trans hholds.line, hsame.flags.trans hholds.flags, hsame.keepRtCommands.trans hholds.keepRtCommands⟩
  · intro hholds'
    exact ⟨m', m₂, hrun, hretyped, hholds'.line.trans hholds.line.symm, hholds'.flags.trans hholds.flags.symm,
      hholds'.keepRtCommands.trans hholds.keepRtCommands.symm⟩

theorem run_holds {m : MainLoop σ} (hm : AtStart m) {cs : List Char8} (hcs : ∀ c ∈ cs, InLine c)
    (hfits : ∀ p c, p ++ [c] <+: cs → c = asciiBS ∨ c = asciiDEL → (edited p).length ≤ lineBufferSize - 1) :
    ∃ m', run (readCharacter h) m cs = some m' ∧ Holds h (edited cs) m' := by
  induction cs using List.reverseRecOn with
  | nil => exact ⟨m, rfl, hm.holds⟩
  | append_singleton cs c ih =>
      obtain ⟨m₁, hrun, hholds⟩ := ih (fun d hd => hcs d (List.mem_append_left _ hd))
        fun p d hp => hfits p d (hp.trans (List.prefix_append _ _))
      obtain ⟨m₂, hread, hholds'⟩ := readCharacter_holds hholds (hcs c (List.mem_append_right _ (List.mem_singleton_self c)))
        (hfits cs c List.prefix_rfl)
      exact ⟨m₂, run_concat_eq_some.2 ⟨m₁, hrun, hread⟩, edited_concat cs c ▸ hholds'⟩

theorem readCharacter_fresh {m m' : MainLoop σ} {c : Char8} (hm : m.line = [] → AtStart m) (hread : readCharacter h m c = some m') :
    m'.line = [] → AtStart m' := by
  unfold readCharacter at hread
  dsimp only at hread
  split at hread
  · cases hread
    exact fun _ => ⟨rfl, rfl, rfl⟩
  split at hread
  · cases hread
    exact fun hline => ⟨hline, (hm hline).flags, (hm hline).keepRtCommands⟩
  split at hread
  · unfold endOfLine at hread
    split at hread
    · cases hread
      exact fun hline => ⟨hline, (hm hline).flags, (hm hline).keepRtCommands⟩
    · obtain ⟨e, -, hread⟩ := Option.bind_eq_some_iff.1 hread
      dsimp only at hread
      split at hread
      · cases hread
      · cases hread
        exact fun _ => ⟨rfl, rfl, rfl⟩
  by_cases hskip : c ≠ asciiBS ∧ c ≤ if m.line = [] then blank else blank - 1
  · rw [if_pos hskip] at hread
    cases hread
    exact fun hline => ⟨hline, (hm hline).flags, (hm hline).keepRtCommands⟩
  · rw [if_neg hskip] at hread
    cases hread
    unfold otherCharacter
    split
    · split
      · exact fun hline => ⟨hline, (hm hline).flags, (hm hline).keepRtCommands⟩
      · intro hline
        dsimp only at hline ⊢
        rw [hline]
        exact ⟨rfl, rfl, rfl⟩
    · dsimp only
      split
      · rename_i hfull
        intro hline
        dsimp only at hline
        rw [hline] at hfull
        exact absurd hfull (by decide)
      · exact fun hline => absurd hline (List.append_ne_nil_of_right_ne_nil _ (List.cons_ne_nil _ _))

end

end Grbl.Protocol
