import Mathlib
import Grbl.Protocol.MainLoop

/-!
# One response per line

* `LineEnd` : the four ways to end a line; `strip` : a line without leading blanks and control characters;
* `Reading` : the loop inside a line, as the characters of the line so far determine it;
* `serve` : what one response per line is, `Responds` : a stream is answered like that;
* `respond_line`, `respond_lines` : a line, and a stream, whose blocks do not fail;
* `responds_iff` : exactly the streams that are answered like that.
-/

namespace Grbl.Protocol
open Lib

inductive LineEnd
  | cr | lf | crlf | lfcr
  deriving DecidableEq, Repr

namespace LineEnd

def first : LineEnd → Char8
  | cr | crlf => asciiCR
  | lf | lfcr => asciiLF

def second : LineEnd → Option Char8
  | cr | lf => none
  | crlf => some asciiLF
  | lfcr => some asciiCR

def chars (t : LineEnd) : List Char8 := t.first :: t.second.toList

theorem first_eol (t : LineEnd) : t.first = asciiLF ∨ t.first = asciiCR := by
  cases t <;> decide

theorem second_eol {t : LineEnd} {b : Char8} (h : t.second = some b) :
    (b = asciiLF ∨ b = asciiCR) ∧ b ≠ t.first := by
  cases t <;> cases h <;> decide

end LineEnd

/-- A character that neither ends a line nor cancels, deletes or ends the stream. -/
def Plain (c : Char8) : Prop :=
  c ≠ asciiLF ∧ c ≠ asciiCR ∧ c ≠ asciiCAN ∧ c ≠ asciiEOF ∧ c ≠ asciiBS ∧ c ≠ asciiDEL

instance (c : Char8) : Decidable (Plain c) := by
  unfold Plain
  infer_instance

/-- A line with leading blanks and control characters removed. -/
def strip (line : List Char8) : List Char8 :=
  (line.filter fun c => decide (blank ≤ c)).dropWhile fun c => decide (c = blank)

/-! ## Inside a line -/

theorem strip_append_control {line : List Char8} {c : Char8} (hc : c < blank) : strip (line ++ [c]) = strip line := by
  rw [strip, List.filter_append]
  simp [strip, UInt8.not_le.2 hc]

theorem strip_append_blank {line : List Char8} (hl : strip line = []) : strip (line ++ [blank]) = [] := by
  have hall : ∀ c ∈ line.filter fun c => decide (blank ≤ c), decide (c = blank) = true := List.dropWhile_eq_nil_iff.1 hl
  rw [strip, List.filter_append, List.dropWhile_eq_nil_iff]
  intro c hc
  rcases List.mem_append.1 hc with hc | hc
  · exact hall c hc
  · simpa using (List.mem_filter.1 hc).1

theorem strip_append_other {line : List Char8} {c : Char8} (hc : blank ≤ c) (hb : c = blank → strip line ≠ []) :
    strip (line ++ [c]) = strip line ++ [c] := by
  rw [strip, List.filter_append, List.filter_cons_of_pos (by simpa using hc), List.filter_nil, List.dropWhile_append]
  split
  case isFalse => rfl
  case isTrue hnil =>
    have hl : strip line = [] := List.isEmpty_iff.1 hnil
    rw [hl, List.nil_append, List.dropWhile_cons_of_neg]
    simpa using fun h => hb h hl

section
variable {σ : Type*} {h : Host σ}

/-- The loop when the characters `line` of an unfinished line have been read. -/
structure Reading (cs : List Char8) (m : MainLoop σ) : Prop where
  line : m.line = (strip cs).take (lineBufferSize - 1)
  overflow : m.flags.overflow = decide (lineBufferSize ≤ (strip cs).length)

theorem commentCharacter_overflow (c : Char8) (first : Bool) (flags : LineFlags) (keep : Bool) :
    (commentCharacter h c first flags keep).1.overflow = flags.overflow := by
  unfold commentCharacter
  split_ifs <;> rfl

theorem Reading.line_nil {line : List Char8} {m : MainLoop σ} (hr : Reading line m) : m.line = [] ↔ strip line = [] := by
  rw [hr.line, List.take_eq_nil_iff]
  simp [lineBufferSize]

theorem Reading.control {cs : List Char8} {m : MainLoop σ} {c : Char8} (hr : Reading cs m)
    (hc : c ≤ if m.line = [] then blank else blank - 1) : Reading (cs ++ [c]) m := by
  have hsame : strip (cs ++ [c]) = strip cs := by
    by_cases hlt : c < blank
    · exact strip_append_control hlt
    · by_cases hnil : m.line = []
      · rw [if_pos hnil] at hc
        have hcb : c = blank := UInt8.le_antisymm hc (UInt8.not_lt.1 hlt)
        have hl := hr.line_nil.1 hnil
        rw [hcb, strip_append_blank hl, hl]
      · rw [if_neg hnil] at hc
        exact absurd (UInt8.lt_of_le_of_lt hc (by decide)) hlt
  exact ⟨by rw [hsame]; exact hr.line, by rw [hsame]; exact hr.overflow⟩

/-- A character that is kept: the buffer takes it as long as there is room. -/
theorem Reading.other {cs : List Char8} {m : MainLoop σ} {c : Char8} (hr : Reading cs m)
    (hc : ¬ c ≤ if m.line = [] then blank else blank - 1) (hbs : c ≠ asciiBS) (hdel : c ≠ asciiDEL) :
    Reading (cs ++ [c]) (otherCharacter h c m) := by
  have hkeep : strip (cs ++ [c]) = strip cs ++ [c] := by
    apply strip_append_other
    · split at hc
      case isTrue => exact UInt8.le_of_lt (UInt8.not_le.1 hc)
      case isFalse =>
        rw [UInt8.le_iff_toNat_le]
        rw [UInt8.not_le, UInt8.lt_iff_toNat_lt] at hc
        exact hc
    · rintro rfl hnil
      rw [if_pos (hr.line_nil.2 hnil)] at hc
      exact hc UInt8.le_rfl
  have hlen : m.line.length = min (lineBufferSize - 1) (strip cs).length := by rw [hr.line, List.length_take]
  have hsize : lineBufferSize = 257 := rfl
  unfold otherCharacter
  rw [if_neg (by simp [hbs, hdel])]
  by_cases hfull : lineBufferSize - 1 ≤ m.line.length
  · rw [if_pos hfull]
    refine ⟨?_, ?_⟩
    · rw [hkeep, List.take_append_of_le_length (by omega)]
      exact hr.line
    · rw [hkeep, List.length_append, List.length_singleton, eq_comm, decide_eq_true_iff]
      omega
  · rw [if_neg hfull]
    have hline : m.line = strip cs := by
      rw [hr.line, List.take_of_length_le]
      omega
    refine ⟨?_, ?_⟩
    · rw [hkeep, List.take_of_length_le (by rw [List.length_append, List.length_singleton]; omega), hline]
    · rw [hkeep, List.length_append, List.length_singleton, eq_comm, decide_eq_false_iff_not]
      omega

theorem otherCharacter_frame (c : Char8) (m : MainLoop σ) : (otherCharacter h c m).eol = m.eol ∧
    (otherCharacter h c m).trace = m.trace ∧ (otherCharacter h c m).env = m.env := by
  unfold otherCharacter
  split_ifs <;> exact ⟨rfl, rfl, rfl⟩

/-- A character inside a line: it is collected, or left out, and nothing is answered. -/
theorem readCharacter_plain {cs : List Char8} {m : MainLoop σ} {c : Char8} (hc : Plain c) (hr : Reading cs m) :
    ∃ m', readCharacter h m c = some m' ∧ Reading (cs ++ [c]) m' ∧ m'.eol = m.eol ∧ m'.trace = m.trace ∧
      m'.env = h.between m.env := by
  obtain ⟨hlf, hcr, hcan, heof, hbs, hdel⟩ := hc
  have hr' : Reading cs { m with env := h.between m.env } := ⟨hr.line, hr.overflow⟩
  unfold readCharacter
  simp only [hcan, heof, hlf, hcr, or_self, if_false]
  by_cases hctl : c ≤ if m.line = [] then blank else blank - 1
  · rw [if_pos ⟨hbs, hctl⟩]
    exact ⟨_, rfl, hr'.control hctl, rfl, rfl, rfl⟩
  · rw [if_neg fun hle => hctl hle.2]
    obtain ⟨heol, htrace, henv⟩ := otherCharacter_frame (h := h) c { m with env := h.between m.env }
    exact ⟨_, rfl, hr'.other hctl hbs hdel, heol, htrace, henv⟩

theorem run_plain {cs : List Char8} {l : List Char8} {m : MainLoop σ} (hl : ∀ c ∈ l, Plain c) (hr : Reading cs m) :
    ∃ m', run (readCharacter h) m l = some m' ∧ Reading (cs ++ l) m' ∧ m'.eol = m.eol ∧ m'.trace = m.trace ∧
      m'.env = h.between^[l.length] m.env := by
  induction l generalizing cs m with
  | nil => exact ⟨m, rfl, by rwa [List.append_nil], rfl, rfl, rfl⟩
  | cons c l ih =>
      obtain ⟨m₁, hstep, hr₁, heol₁, htrace₁, henv₁⟩ := readCharacter_plain (h := h) (hl c List.mem_cons_self) hr
      obtain ⟨m₂, hrun, hr₂, heol₂, htrace₂, henv₂⟩ := ih (fun d hd => hl d (List.mem_cons_of_mem _ hd)) hr₁
      refine ⟨m₂, ?_, ?_, heol₂.trans heol₁, htrace₂.trans htrace₁, ?_⟩
      · rw [run_cons, hstep, Option.bind_some, hrun]
      · rwa [List.append_assoc] at hr₂
      · rw [henv₂, henv₁]
        rfl

/-! ## The end of a line -/

/-- No realtime command and no line aborts the loop. -/
structure Host.NeverAborts (h : Host σ) : Prop where
  realtime : ∀ e, (h.protocolExecuteRealtime e).isSome
  aborted : ∀ e, h.aborted e = false

/-- The environment a line is executed in. -/
def Host.checkpoint (h : Host σ) (e : Env σ) : Env σ := (h.protocolExecuteRealtime e).getD e

theorem readCharacter_eol {c : Char8} (hc : c = asciiLF ∨ c = asciiCR) (m : MainLoop σ) :
    readCharacter h m c = endOfLine h c { m with env := h.between m.env } := by
  unfold readCharacter
  rcases hc with rfl | rfl <;> rfl

theorem endOfLine_suppressed {c : Char8} {m : MainLoop σ} (hl : m.line = []) (he : m.eol.isSome) (hne : m.eol ≠ some c) :
    endOfLine h c m = some { m with eol := none } := by
  rw [endOfLine, if_pos ⟨hl, he, hne⟩]

theorem endOfLine_executed (ha : h.NeverAborts) {c : Char8} {m : MainLoop σ}
    (hm : m.line ≠ [] ∨ m.eol = none ∨ m.eol = some c) :
    endOfLine h c m = some
      { eol := if (executeLine h m.flags.overflow m.line (h.checkpoint m.env)).2 then none else some c
        env := (executeLine h m.flags.overflow m.line (h.checkpoint m.env)).1
        trace := m.trace ++ [.executed m.flags.overflow m.line] ++
          [.statusMessage (executeLine h m.flags.overflow m.line (h.checkpoint m.env)).1.lastError] } := by
  obtain ⟨e, he⟩ := Option.isSome_iff_exists.1 (ha.realtime m.env)
  have hcheck : h.checkpoint m.env = e := by rw [Host.checkpoint, he, Option.getD_some]
  rw [endOfLine, if_neg, he, Option.bind_some, hcheck]
  · simp only [ha.aborted]
    rfl
  · rintro ⟨hl, hsome, hne⟩
    rcases hm with hm | hm | hm
    · exact hm hl
    · rw [hm] at hsome
      cases hsome
    · exact hne hm

/-! ## One line -/

variable (h) in
/-- A line as it should be answered: executed once, with what `strip` leaves of it, and its status
reported once. The environment goes past the rest of the line end; the flag says that the line is
a block that returned an error. -/
def serveLine (t : LineEnd) (l : List Char8) (e : Env σ) : Env σ × List Response × Bool :=
  let overflow := decide (lineBufferSize ≤ (strip l).length)
  let line := (strip l).take (lineBufferSize - 1)
  let r := executeLine h overflow line (h.checkpoint (h.between^[l.length + 1] e))
  (h.between^[t.second.toList.length] r.1, [.executed overflow line, .statusMessage r.1.lastError], r.2)

theorem Reading.nil {m : MainLoop σ} (hl : m.line = []) (hf : m.flags.overflow = false) : Reading [] m :=
  ⟨hl, hf⟩

/-- A line up to the first character of its end, when that is not taken for the second one of another. -/
theorem run_first (ha : h.NeverAborts) (t : LineEnd) {l : List Char8} {m : MainLoop σ} (hl : ∀ c ∈ l, Plain c)
    (hr : Reading [] m) (he : strip l ≠ [] ∨ m.eol = none ∨ m.eol = some t.first) :
    ∃ m', run (readCharacter h) m (l ++ [t.first]) = some m' ∧ Reading [] m' ∧
      m'.eol = (if (serveLine h t l m.env).2.2 then none else some t.first) ∧
      m'.trace = m.trace ++ (serveLine h t l m.env).2.1 ∧
      h.between^[t.second.toList.length] m'.env = (serveLine h t l m.env).1 := by
  obtain ⟨m₁, hrun, hr₁, heol, htrace, henv⟩ := run_plain (h := h) hl hr
  rw [List.nil_append] at hr₁
  have hbetween : h.between m₁.env = h.between^[l.length + 1] m.env := by
    rw [henv, Function.iterate_succ_apply']
  have hexec := endOfLine_executed (m := { m₁ with env := h.between m₁.env }) (c := t.first) ha (by
    rcases he with he | he
    · exact Or.inl fun hnil => he (hr₁.line_nil.1 hnil)
    · exact Or.inr (by rwa [← heol] at he))
  have hrun' : run (readCharacter h) m (l ++ [t.first]) = _ := run_append m l [t.first]
  rw [hrun, Option.bind_some, run_cons, readCharacter_eol t.first_eol, hexec, Option.bind_some, run_nil] at hrun'
  refine ⟨_, hrun', Reading.nil rfl rfl, ?_, ?_, ?_⟩
  · simp only [hr₁.line, hr₁.overflow, hbetween]
    rfl
  · simp only [hr₁.line, hr₁.overflow, hbetween, htrace, List.append_assoc]
    rfl
  · simp only [hr₁.line, hr₁.overflow, hbetween]
    rfl

theorem Reading.line_eq {m : MainLoop σ} (hr : Reading [] m) : m.line = [] := hr.line

theorem run_second {t : LineEnd} {b : Char8} (hb : t.second = some b) {m : MainLoop σ} (hr : Reading [] m)
    (he : m.eol = some t.first) :
    run (readCharacter h) m [b] = some { m with eol := none, env := h.between m.env } := by
  obtain ⟨heol, hne⟩ := LineEnd.second_eol hb
  have hsome : m.eol.isSome := by rw [he]; rfl
  have hother : m.eol ≠ some b := by rw [he]; exact fun h => hne (Option.some.inj h).symm
  have hsup := endOfLine_suppressed (h := h) (m := { m with env := h.between m.env }) hr.line_eq hsome hother
  rw [run_cons, readCharacter_eol heol, hsup]
  rfl

structure Ready (t : LineEnd) (m : MainLoop σ) : Prop where
  reading : Reading [] m
  eol : m.eol = none ∨ t.second = none ∧ m.eol = some t.first

/-- A line whose status does not clear `eol`, or whose end has one character. -/
theorem respond_line (ha : h.NeverAborts) {t : LineEnd} {l : List Char8} {m : MainLoop σ} (hl : ∀ c ∈ l, Plain c)
    (hm : Ready t m) (hclean : t.second = none ∨ (serveLine h t l m.env).2.2 = false) :
    ∃ m', run (readCharacter h) m (l ++ t.chars) = some m' ∧ Ready t m' ∧
      m'.trace = m.trace ++ (serveLine h t l m.env).2.1 ∧ m'.env = (serveLine h t l m.env).1 := by
  obtain ⟨m₁, hrun, hr, heol, htrace, henv⟩ :=
    run_first ha t hl hm.reading (Or.inr (hm.eol.imp_right And.right))
  rw [LineEnd.chars]
  cases hb : t.second with
  | none =>
      rw [hb] at henv
      refine ⟨m₁, hrun, ⟨hr, ?_⟩, htrace, henv⟩
      rw [heol]
      split
      · exact Or.inl rfl
      · exact Or.inr ⟨hb, rfl⟩
  | some b =>
      have hpass : (serveLine h t l m.env).2.2 = false := by
        rcases hclean with hnone | hpass
        · rw [hb] at hnone
          cases hnone
        · exact hpass
      rw [hpass] at heol
      rw [hb] at henv
      refine ⟨{ m₁ with eol := none, env := h.between m₁.env }, ?_, ⟨⟨hr.line, hr.overflow⟩, Or.inl rfl⟩, htrace, henv⟩
      rw [Option.toList_some, List.append_cons, run_append, hrun, Option.bind_some, run_second hb hr heol]

/-! ## A stream -/

/-- The characters of a stream: lines with the same line end and the beginning of a further one. -/
def stream (t : LineEnd) (lines : List (List Char8)) (rest : List Char8) : List Char8 :=
  (lines.flatMap fun l => l ++ t.chars) ++ rest

variable (h) in
def serve (t : LineEnd) : List (List Char8) → Env σ → List Response
  | [], _ => []
  | l :: lines, e => (serveLine h t l e).2.1 ++ serve t lines (serveLine h t l e).1

variable (h) in
/-- No line of the stream is a g-code block that returns an error. -/
def BlocksPass (t : LineEnd) : List (List Char8) → Env σ → Prop
  | [], _ => True
  | l :: lines, e => (serveLine h t l e).2.2 = false ∧ BlocksPass t lines (serveLine h t l e).1

variable (h) in
/-- The loop answers the stream with one response for each line. -/
def Responds (t : LineEnd) (lines : List (List Char8)) (rest : List Char8) (e : Env σ) : Prop :=
  ∃ m, protocolMainLoop h e (stream t lines rest) = some m ∧ m.trace = serve h t lines e

theorem stream_cons (t : LineEnd) (l : List Char8) (lines : List (List Char8)) (rest : List Char8) :
    stream t (l :: lines) rest = (l ++ t.chars) ++ stream t lines rest := by
  rw [stream, List.flatMap_cons, List.append_assoc]
  rfl

theorem respond_lines (ha : h.NeverAborts) {t : LineEnd} {rest : List Char8} (hrest : ∀ c ∈ rest, Plain c) :
    ∀ {lines : List (List Char8)} {m : MainLoop σ}, (∀ l ∈ lines, ∀ c ∈ l, Plain c) → Ready t m →
      t.second = none ∨ BlocksPass h t lines m.env →
      ∃ m', run (readCharacter h) m (stream t lines rest) = some m' ∧ m'.trace = m.trace ++ serve h t lines m.env := by
  intro lines
  induction lines with
  | nil =>
      intro m _ hm _
      obtain ⟨m', hrun, -, -, htrace, -⟩ := run_plain (h := h) hrest hm.reading
      exact ⟨m', hrun, by rw [htrace, serve, List.append_nil]⟩
  | cons l lines ih =>
      intro m hlines hm hclean
      obtain ⟨m₁, hrun, hm₁, htrace, henv⟩ :=
        respond_line ha (hlines l List.mem_cons_self) hm (hclean.imp_right And.left)
      obtain ⟨m₂, hrun₂, htrace₂⟩ :=
        ih (fun l' hl' => hlines l' (List.mem_cons_of_mem _ hl')) hm₁ (by rw [henv]; exact hclean.imp_right And.right)
      refine ⟨m₂, ?_, ?_⟩
      · rw [stream_cons, run_append, hrun, Option.bind_some, hrun₂]
      · rw [htrace₂, htrace, henv, List.append_assoc, serve]

/-! ## Line ends that have gone out of step -/

theorem serveLine_length (t : LineEnd) (l : List Char8) (e : Env σ) : (serveLine h t l e).2.1.length = 2 := rfl

theorem serve_length (t : LineEnd) (lines : List (List Char8)) (e : Env σ) : (serve h t lines e).length = 2 * lines.length := by
  induction lines generalizing e with
  | nil => rfl
  | cons l lines ih =>
      rw [serve, List.length_append, serveLine_length, ih, List.length_cons]
      omega

theorem run_stray (ha : h.NeverAborts) {b : Char8} (hb : b = asciiLF ∨ b = asciiCR) {m : MainLoop σ} (hr : Reading [] m)
    (he : m.eol = none) :
    ∃ m', run (readCharacter h) m [b] = some m' ∧ Reading [] m' ∧ (m'.eol = none ∨ m'.eol = some b) ∧
      m'.trace.length = m.trace.length + 2 := by
  obtain ⟨t, rfl⟩ : ∃ t : LineEnd, t.first = b := by
    rcases hb with rfl | rfl
    · exact ⟨.lf, rfl⟩
    · exact ⟨.cr, rfl⟩
  obtain ⟨m', hrun, hr', heol, htrace, -⟩ :=
    run_first ha t (l := []) (fun c hc => absurd hc List.not_mem_nil) hr (Or.inr (Or.inl he))
  refine ⟨m', hrun, hr', ?_, ?_⟩
  · rw [heol]
    split
    · exact Or.inl rfl
    · exact Or.inr rfl
  · rw [htrace, List.length_append, serveLine_length]

theorem run_after_first (ha : h.NeverAborts) {t : LineEnd} {b : Char8} (hb : t.second = some b) {m : MainLoop σ}
    (hr : Reading [] m) (he : m.eol = none ∨ m.eol = some t.first) :
    ∃ m', run (readCharacter h) m [b] = some m' ∧ Reading [] m' ∧ (m'.eol = none ∨ m'.eol = some b) ∧
      m.trace.length ≤ m'.trace.length := by
  rcases he with he | he
  · obtain ⟨m', hrun, hr', he', hlen⟩ := run_stray ha (LineEnd.second_eol hb).1 hr he
    exact ⟨m', hrun, hr', he', by omega⟩
  · exact ⟨_, run_second hb hr he, ⟨hr.line, hr.overflow⟩, Or.inl rfl, le_rfl⟩

theorem run_line_grows (ha : h.NeverAborts) {t : LineEnd} {b : Char8} (hb : t.second = some b) {l : List Char8}
    {m : MainLoop σ} (hl : ∀ c ∈ l, Plain c) (hr : Reading [] m) (he : m.eol = none ∨ m.eol = some b) :
    ∃ m', run (readCharacter h) m (l ++ t.chars) = some m' ∧ Reading [] m' ∧ (m'.eol = none ∨ m'.eol = some b) ∧
      m.trace.length + 2 ≤ m'.trace.length := by
  obtain ⟨hbeol, hne⟩ := LineEnd.second_eol hb
  have hchars : l ++ t.chars = l ++ [t.first] ++ [b] := by rw [LineEnd.chars, hb]; simp
  rw [hchars]
  by_cases hswallow : strip l = [] ∧ m.eol = some b
  · obtain ⟨m₁, hrun₁, hr₁, heol₁, htrace₁, -⟩ := run_plain (h := h) hl hr
    have hline : m₁.line = [] := hr₁.line_nil.2 hswallow.1
    have heol : m₁.eol = some b := heol₁.trans hswallow.2
    have hsup := endOfLine_suppressed (h := h) (c := t.first) (m := { m₁ with env := h.between m₁.env }) hline
      (by rw [heol]; rfl) (by rw [heol]; exact fun h => hne (Option.some.inj h))
    obtain ⟨m₂, hrun₂, hr₂, heol₂, hlen₂⟩ :=
      run_stray (m := { m₁ with env := h.between m₁.env, eol := none }) ha hbeol
        (Reading.nil hline (by rw [hr₁.overflow, List.nil_append, hswallow.1]; rfl)) rfl
    refine ⟨m₂, ?_, hr₂, heol₂, ?_⟩
    · rw [List.append_assoc, run_append, hrun₁, Option.bind_some, List.singleton_append, run_cons,
        readCharacter_eol t.first_eol, hsup, Option.bind_some, hrun₂]
    · rw [hlen₂, ← htrace₁]
  · have hfirst : strip l ≠ [] ∨ m.eol = none ∨ m.eol = some t.first := by
      rcases he with he | he
      · exact Or.inr (Or.inl he)
      · exact Or.inl fun hnil => hswallow ⟨hnil, he⟩
    obtain ⟨m₁, hrun₁, hr₁, heol₁, htrace₁, -⟩ := run_first ha t hl hr hfirst
    obtain ⟨m₂, hrun₂, hr₂, heol₂, hlen₂⟩ := run_after_first ha hb hr₁ (by
      rw [heol₁]
      split
      · exact Or.inl rfl
      · exact Or.inr rfl)
    refine ⟨m₂, ?_, hr₂, heol₂, ?_⟩
    · rw [run_append, hrun₁, Option.bind_some, hrun₂]
    · rw [htrace₁, List.length_append, serveLine_length] at hlen₂
      exact hlen₂

theorem run_lines_grow (ha : h.NeverAborts) {t : LineEnd} {b : Char8} (hb : t.second = some b) {rest : List Char8}
    (hrest : ∀ c ∈ rest, Plain c) :
    ∀ {lines : List (List Char8)} {m : MainLoop σ}, (∀ l ∈ lines, ∀ c ∈ l, Plain c) → Reading [] m →
      m.eol = none ∨ m.eol = some b →
      ∃ m', run (readCharacter h) m (stream t lines rest) = some m' ∧
        m.trace.length + 2 * lines.length ≤ m'.trace.length := by
  intro lines
  induction lines with
  | nil =>
      intro m _ hr _
      obtain ⟨m', hrun, -, -, htrace, -⟩ := run_plain (h := h) hrest hr
      exact ⟨m', hrun, by rw [htrace]; exact le_rfl⟩
  | cons l lines ih =>
      intro m hlines hr he
      obtain ⟨m₁, hrun₁, hr₁, he₁, hlen₁⟩ := run_line_grows ha hb (hlines l List.mem_cons_self) hr he
      obtain ⟨m₂, hrun₂, hlen₂⟩ := ih (fun l' hl' => hlines l' (List.mem_cons_of_mem _ hl')) hr₁ he₁
      refine ⟨m₂, ?_, ?_⟩
      · rw [stream_cons, run_append, hrun₁, Option.bind_some, hrun₂]
      · rw [List.length_cons]
        omega

theorem run_failing (ha : h.NeverAborts) {t : LineEnd} {b : Char8} (hb : t.second = some b) {rest : List Char8}
    (hrest : ∀ c ∈ rest, Plain c) :
    ∀ {lines : List (List Char8)} {m : MainLoop σ}, (∀ l ∈ lines, ∀ c ∈ l, Plain c) → Reading [] m → m.eol = none →
      ¬ BlocksPass h t lines m.env →
      ∃ m', run (readCharacter h) m (stream t lines rest) = some m' ∧
        m.trace.length + 2 * lines.length < m'.trace.length := by
  intro lines
  induction lines with
  | nil => intro m _ _ _ hfail; exact absurd trivial hfail
  | cons l lines ih =>
      intro m hlines hr he hfail
      have hl := hlines l List.mem_cons_self
      have hlines' : ∀ l' ∈ lines, ∀ c ∈ l', Plain c := fun l' hl' => hlines l' (List.mem_cons_of_mem _ hl')
      by_cases hpass : (serveLine h t l m.env).2.2 = false
      · obtain ⟨m₁, hrun₁, hm₁, htrace₁, henv₁⟩ := respond_line ha hl ⟨hr, Or.inl he⟩ (Or.inr hpass)
        have he₁ : m₁.eol = none := by
          refine hm₁.eol.resolve_right fun hnone => ?_
          rw [hb] at hnone
          cases hnone.1
        obtain ⟨m₂, hrun₂, hlen₂⟩ := ih hlines' hm₁.reading he₁ (by
          rw [henv₁]
          exact fun hall => hfail ⟨hpass, hall⟩)
        refine ⟨m₂, ?_, ?_⟩
        · rw [stream_cons, run_append, hrun₁, Option.bind_some, hrun₂]
        · rw [htrace₁, List.length_append, serveLine_length] at hlen₂
          rw [List.length_cons]
          omega
      · obtain ⟨m₁, hrun₁, hr₁, heol₁, htrace₁, -⟩ := run_first ha t hl hr (Or.inr (Or.inl he))
        rw [Bool.not_eq_false] at hpass
        rw [hpass, if_pos rfl] at heol₁
        obtain ⟨m₂, hrun₂, hr₂, heol₂, hlen₂⟩ := run_stray ha (LineEnd.second_eol hb).1 hr₁ heol₁
        obtain ⟨m₃, hrun₃, hlen₃⟩ := run_lines_grow ha hb hrest hlines' hr₂ heol₂
        refine ⟨m₃, ?_, ?_⟩
        · rw [stream_cons, LineEnd.chars, hb, Option.toList_some, List.append_cons l, run_append, run_append, hrun₁,
            Option.bind_some, hrun₂, Option.bind_some, hrun₃]
        · rw [htrace₁, List.length_append, serveLine_length] at hlen₂
          rw [List.length_cons]
          omega

/-! ## The streams that are answered once a line -/

/-- A stream is answered with one response for each line exactly when its lines end in one character
or no line is a g-code block that returns an error. -/
theorem responds_iff (ha : h.NeverAborts) {t : LineEnd} {lines : List (List Char8)} {rest : List Char8}
    (hlines : ∀ l ∈ lines, ∀ c ∈ l, Plain c) (hrest : ∀ c ∈ rest, Plain c) (e : Env σ) :
    Responds h t lines rest e ↔ t.second = none ∨ BlocksPass h t lines e := by
  have hr : Reading [] ({ env := e } : MainLoop σ) := Reading.nil rfl rfl
  constructor
  · rintro ⟨m, hrun, htrace⟩
    by_contra hclean
    obtain ⟨htwo, hfail⟩ := not_or.1 hclean
    obtain ⟨b, hb⟩ := Option.ne_none_iff_exists'.1 htwo
    obtain ⟨m', hrun', hlen⟩ := run_failing ha hb hrest hlines hr rfl hfail
    rw [protocolMainLoop, hrun'] at hrun
    rw [Option.some.inj hrun, htrace, serve_length, List.length_nil] at hlen
    omega
  · intro hclean
    exact respond_lines ha hrest hlines ⟨hr, Or.inl rfl⟩ hclean

end

/-! ## A block that fails -/

namespace Example

/-- A system in which every g-code block returns `Status_GcodeUnsupportedCommand`. -/
def host : Host Unit where
  stateGet _ := .idle
  aborted _ := false
  protocolExecuteRealtime e := some e
  systemExecuteLine _ e := (.ok, e)
  systemRaiseAlarm e := e
  onUserCommand := none
  gcExecuteBlock _ e := (.code 20, e)
  onFileDemarcate := none
  onFileEnd := none
  motionCancel e := e
  noGcodeMessageHandling := true
  between e := e

def start : Env Unit := ⟨.ok, false, ()⟩

/-- `G999` -/
def line : List Char8 := [0x47, 0x39, 0x39, 0x39]

theorem neverAborts : host.NeverAborts := ⟨fun _ => rfl, fun _ => rfl⟩

end Example

theorem Example.plain : ∀ l ∈ [Example.line, []], ∀ c ∈ l, Plain c := by decide +kernel

theorem responds_iff_example : ¬ Responds Example.host .lfcr [Example.line, []] [] Example.start := fun hresp =>
  ((responds_iff Example.neverAborts Example.plain (fun _ h => absurd h List.not_mem_nil) Example.start).1 hresp).elim
    (by decide) fun h => absurd h.1 (by decide)

/-- `G999` with a CRLF line end: `error:20`, and `ok` for its LF. -/
theorem failing_block_answered_twice : Example.host.NeverAborts ∧ (∀ c ∈ Example.line, Plain c) ∧
    (protocolMainLoop Example.host Example.start (stream .crlf [Example.line] [])).map MainLoop.trace =
      some [.executed false Example.line, .statusMessage (.code 20), .executed false [], .statusMessage .ok] ∧
    ¬ Responds Example.host .crlf [Example.line] [] Example.start := by
  have htrace : (protocolMainLoop Example.host Example.start (stream .crlf [Example.line] [])).map MainLoop.trace =
      some [.executed false Example.line, .statusMessage (.code 20), .executed false [], .statusMessage .ok] := by
    decide +kernel
  refine ⟨Example.neverAborts, Example.plain _ List.mem_cons_self, htrace, ?_⟩
  rintro ⟨m, hrun, hm⟩
  rw [hrun, Option.map_some, hm] at htrace
  exact absurd (congrArg (Option.map List.length) htrace) (by decide)

end Grbl.Protocol
