import Grbl.Lib.Json
import Grbl.Numbers.Ftoa

/-!
# The JSON writer

* `JsonOut` : the handle; `jsonStart`, `addTag`, `jsonStartObject`, .., `jsonAddInt` : the functions, with the text they write;
* `Content`, `Objects` : what is between the braces of an object and between the brackets of an array; `calls` : how it is written;
* `Written` : the document is written; `Supported` : when it is;
* `At`, `Agree` : the level that is written at, and what a container keeps; `Content.written`, `Content.supported` : the two directions;
* `written_iff`.
-/

namespace Grbl.Stream.JsonWriter
open Grbl.Lib.Json
open Grbl.Numbers hiding Denotes

/-- A string: its characters up to the terminator. -/
structure CString where
  chars : List Char
  terminated : nul ∉ chars

structure JsonOut where
  level : ℕ
  maxLevel : ℕ
  elements : List ℕ

/-- The entries of `elements` that `calloc(1, sizeof(json_out_t) + sizeof(uint32_t) * max_levels)` makes, at offset 12; `size_t` has 32 bits. -/
def allocated (maxLevels : ℕ) : ℕ := ((16 + 4 * maxLevels) % 2 ^ 32 - 12) / 4

def jsonStart (maxLevels : ℕ) : JsonOut × List Char := (⟨0, maxLevels, List.replicate (allocated maxLevels) 0⟩, ['{'])

def jsonEnd : List Char := ['}']

/-- `if(json->elements[json->level]) vfs_write(",", ..)` and `json->elements[json->level]++`, where there is that element. -/
def JsonOut.count (json : JsonOut) : Option (JsonOut × List Char) :=
  json.elements[json.level]?.map fun n =>
    ({ json with elements := json.elements.set json.level ((n + 1) % 2 ^ 32) }, if n ≠ 0 then [','] else [])

/-- `json->elements[++json->level] = 0`, where there is that element. -/
def JsonOut.nest (json : JsonOut) : Option JsonOut :=
  let level := (json.level + 1) % 2 ^ 32
  if level < json.elements.length then some { json with level, elements := json.elements.set level 0 } else none

/-- `json->level--` -/
def JsonOut.leave (json : JsonOut) : JsonOut := { json with level := (json.level + (2 ^ 32 - 1)) % 2 ^ 32 }

def addTag (json : JsonOut) (tag : CString) : Option (Bool × JsonOut × List Char) :=
  if json.level < json.maxLevel then
    json.count.map fun (json, comma) => (true, json, comma ++ '"' :: (tag.chars ++ ['"', ':']))
  else some (false, json, [])

def jsonStartObject (json : JsonOut) : Option (JsonOut × List Char) :=
  if json.level < json.maxLevel then do
    let (json, comma) ← json.count
    let json ← json.nest
    some (json, comma ++ ['{'])
  else some (json, [])

def jsonStartTaggedObject (json : JsonOut) (tag : CString) : Option (JsonOut × List Char) :=
  if json.level < json.maxLevel then do
    let (_, json, text) ← addTag json tag
    let json ← json.nest
    some (json, text ++ ['{'])
  else some (json, [])

def jsonEndObject (json : JsonOut) : JsonOut × List Char :=
  if json.level < json.maxLevel then (json.leave, ['}']) else (json, [])

def jsonStartArray (json : JsonOut) (tag : CString) : Option (JsonOut × List Char) :=
  if json.level < json.maxLevel then do
    let (_, json, text) ← addTag json tag
    let json ← json.nest
    some (json, text ++ ['['])
  else some (json, [])

def jsonEndArray (json : JsonOut) : JsonOut × List Char :=
  if json.level ≠ 0 then (json.leave, [']']) else (json, [])

/-- `esc[1]` for a character that is escaped. -/
def escapeOf : Char → Option Char
  | '"' => some '"'
  | '\\' => some '\\'
  | '\x08' => some 'b'
  | '\x0c' => some 'f'
  | '\n' => some 'n'
  | '\r' => some 'r'
  | '\t' => some 't'
  | _ => none

structure EscapeScan where
  s2 : Option ℕ
  /-- `esc[1]` -/
  esc : Char

/-- One round of `while((c = *s++))`, with the position of `s1`. -/
def EscapeScan.step (s1 : ℕ) (scan : EscapeScan) (c : Char) : EscapeScan :=
  match escapeOf c with
  | some e => { s2 := some s1, esc := e }
  | none => { scan with esc := nul }

/-- What is written between the quotes. -/
def escapedText (s : List Char) : List Char :=
  if s.all fun c => (escapeOf c).isNone then s
  else
    let s1 := 0
    let scan := s.foldl (EscapeScan.step s1) ⟨none, nul⟩
    match scan.s2 with
    | some s2 => (s.drop s2).take (s2 - s1) ++ ['\\', scan.esc]
    | none => s.drop s1

def jsonAddString (json : JsonOut) (tag s : CString) : Option (JsonOut × List Char) := do
  let (ok, json, text) ← addTag json tag
  some (json, if ok then text ++ '"' :: (escapedText s.chars ++ ['"']) else text)

def uitoa (n : ℕ) : List Char := if n = 0 then ['0'] else putWhole n []

/-- The text of a value; `-value` wraps. -/
def intText (value : BitVec 32) : List Char :=
  (if value.slt 0 then ['-'] else []) ++ uitoa (if value.slt 0 then -value else value).toNat

def jsonAddInt (json : JsonOut) (tag : CString) (value : BitVec 32) : Option (JsonOut × List Char) := do
  let (ok, json, text) ← addTag json tag
  some (json, if ok then text ++ intText value else text)

/-! ## Documents -/

inductive Call
  | startObject
  | startTaggedObject (tag : CString)
  | endObject
  | startArray (tag : CString)
  | endArray
  | addString (tag s : CString)
  | addInt (tag : CString) (value : BitVec 32)

def JsonOut.perform (json : JsonOut) : Call → Option (JsonOut × List Char)
  | .startObject => jsonStartObject json
  | .startTaggedObject tag => jsonStartTaggedObject json tag
  | .endObject => some (jsonEndObject json)
  | .startArray tag => jsonStartArray json tag
  | .endArray => some (jsonEndArray json)
  | .addString tag s => jsonAddString json tag s
  | .addInt tag value => jsonAddInt json tag value

def runCalls : JsonOut → List Call → Option (JsonOut × List Char)
  | json, [] => some (json, [])
  | json, call :: calls => do
      let (json, text) ← json.perform call
      let (json, more) ← runCalls json calls
      some (json, text ++ more)

mutual

/-- The members of an object, in order. -/
inductive Content
  | nil
  | string (tag s : CString) (rest : Content)
  | int (tag : CString) (value : BitVec 32) (rest : Content)
  | object (tag : CString) (body : Content) (rest : Content)
  | array (tag : CString) (items : Objects) (rest : Content)

/-- The objects of an array, in order. -/
inductive Objects
  | nil
  | cons (body : Content) (rest : Objects)

end

mutual

def Content.calls : Content → List Call
  | .nil => []
  | .string tag s rest => .addString tag s :: rest.calls
  | .int tag value rest => .addInt tag value :: rest.calls
  | .object tag body rest => .startTaggedObject tag :: (body.calls ++ .endObject :: rest.calls)
  | .array tag items rest => .startArray tag :: (items.calls ++ .endArray :: rest.calls)

def Objects.calls : Objects → List Call
  | .nil => []
  | .cons body rest => .startObject :: (body.calls ++ .endObject :: rest.calls)

end

mutual

def Content.json : Content → Members
  | .nil => .nil
  | .string tag s rest => .cons tag.chars (.string s.chars) rest.json
  | .int tag value rest => .cons tag.chars (.number value.toInt) rest.json
  | .object tag body rest => .cons tag.chars (.object body.json) rest.json
  | .array tag items rest => .cons tag.chars (.array items.json) rest.json

def Objects.json : Objects → Items
  | .nil => .nil
  | .cons body rest => .cons (.object body.json) rest.json

end

mutual

/-- The levels that are open at a time. -/
def Content.depth : Content → ℕ
  | .nil => 0
  | .string _ _ rest => rest.depth
  | .int _ _ rest => rest.depth
  | .object _ body rest => max (body.depth + 1) rest.depth
  | .array _ items rest => max (items.depth + 1) rest.depth

def Objects.depth : Objects → ℕ
  | .nil => 0
  | .cons body rest => max (body.depth + 1) rest.depth

end

/-- Every access is inside `elements`, the level is 0 again at the end, and the text is a text of the document. -/
def Written (maxLevels : ℕ) (doc : Content) : Prop :=
  ∃ json text, runCalls (jsonStart maxLevels).1 doc.calls = some (json, text) ∧ json.level = 0 ∧
    Denotes ((jsonStart maxLevels).2 ++ (text ++ jsonEnd)) (.object doc.json)

/-! ## Which documents are written -/

/-- A value without quotes, backslashes and control characters, or a single character that is escaped. -/
def Writable (s : List Char) : Prop := Plain s ∨ ∃ c, s = [c] ∧ escapeOf c ≠ none

/-- The elements of a container are counted in 32 bits, and its counter is there. -/
def Counted (maxLevels l k : ℕ) : Prop := l < allocated maxLevels ∧ k < 2 ^ 32

mutual

/-- At level `l`, from the member `k` on: the tags stand for themselves, the values are written, and no object is opened as the last level. -/
def Content.Supported (maxLevels : ℕ) : ℕ → ℕ → Content → Prop
  | _, _, .nil => True
  | l, k, .string tag s rest => Counted maxLevels l k ∧ Plain tag.chars ∧ Writable s.chars ∧ rest.Supported maxLevels l (k + 1)
  | l, k, .int tag _ rest => Counted maxLevels l k ∧ Plain tag.chars ∧ rest.Supported maxLevels l (k + 1)
  | l, k, .object tag body rest => Counted maxLevels l k ∧ Plain tag.chars ∧ (l + 1 < allocated maxLevels ∧ l + 1 < maxLevels) ∧
      body.Supported maxLevels (l + 1) 0 ∧ rest.Supported maxLevels l (k + 1)
  | l, k, .array tag items rest => Counted maxLevels l k ∧ Plain tag.chars ∧ l + 1 < allocated maxLevels ∧
      items.Supported maxLevels (l + 1) 0 ∧ rest.Supported maxLevels l (k + 1)

def Objects.Supported (maxLevels : ℕ) : ℕ → ℕ → Objects → Prop
  | _, _, .nil => True
  | l, k, .cons body rest => Counted maxLevels l k ∧ (l + 1 < allocated maxLevels ∧ l + 1 < maxLevels) ∧
      body.Supported maxLevels (l + 1) 0 ∧ rest.Supported maxLevels l (k + 1)

end

/-! ## The text of an element -/

def comma (k : ℕ) : List Char := if k % 2 ^ 32 ≠ 0 then [','] else []

section
variable {text : List Char} {ts : List Token} {k : ℕ} {t : Token}

theorem EndsNumber.cons {c : Char} (hc : numberChar c = false) (text : List Char) : EndsNumber (c :: text) := by
  rintro d ⟨rfl⟩
  exact hc

/-- Up to `2 ^ 32` elements, the comma is where it belongs. -/
theorem lexes_comma_iff (hk : k ≤ 2 ^ 32) (htext : ∀ ts, ¬ Lexes text (.comma :: ts)) :
    Lexes (comma k ++ text) (separator (k = 0) ++ t :: ts) ↔ k < 2 ^ 32 ∧ Lexes text (t :: ts) := by
  rcases Nat.eq_zero_or_pos k with rfl | hpos
  · exact ⟨fun h => ⟨by decide, h⟩, fun h => h.2⟩
  · have hsep : separator (decide (k = 0)) = [.comma] := by
      rw [decide_eq_false hpos.ne']
      rfl
    rw [hsep]
    rcases hk.lt_or_eq with hlt | heq
    · have hcomma : comma k = [','] := by
        rw [comma, Nat.mod_eq_of_lt hlt, if_pos hpos.ne']
      rw [hcomma, List.singleton_append, List.singleton_append, lexes_punct_iff (by rfl : punctuation ',' = some .comma)]
      exact ⟨fun h => ⟨hlt, h.2⟩, fun h => ⟨rfl, h.2⟩⟩
    · have hcomma : comma k = [] := by
        rw [comma, heq, Nat.mod_self, if_neg (not_not.2 rfl)]
      rw [hcomma]
      exact ⟨fun h => absurd h (htext _), fun h => absurd h.1 (heq ▸ lt_irrefl _)⟩

theorem lexes_tag_iff {tag : List Char} (hk : k ≤ 2 ^ 32) :
    Lexes (comma k ++ '"' :: (tag ++ '"' :: ':' :: text)) (separator (k = 0) ++ .string tag :: .colon :: ts) ↔
      k < 2 ^ 32 ∧ Plain tag ∧ Lexes text ts := by
  rw [lexes_comma_iff hk fun ts h => ?_, lexes_string_iff]
  · constructor
    · rintro ⟨hlt, s, rest, heq, hs, h⟩
      obtain rfl := Token.string.inj heq
      obtain ⟨hplain, rfl⟩ := unescapes_plain_iff.1 hs
      exact ⟨hlt, hplain, ((lexes_punct_iff (by rfl : punctuation ':' = some .colon)).1 h).2⟩
    · rintro ⟨hlt, hplain, h⟩
      exact ⟨hlt, tag, ':' :: text, rfl, unescapes_plain hplain _, .punct rfl h⟩
  · obtain ⟨_, _, heq, -⟩ := lexes_string_iff.1 h
    cases heq

theorem lexes_brace_iff (hk : k ≤ 2 ^ 32) :
    Lexes (comma k ++ '{' :: text) (separator (k = 0) ++ .lbrace :: ts) ↔ k < 2 ^ 32 ∧ Lexes text ts := by
  have hbrace : punctuation '{' = some .lbrace := rfl
  rw [lexes_comma_iff hk fun ts h => ?_, lexes_punct_iff hbrace]
  · exact ⟨fun h => ⟨h.1, h.2.2⟩, fun h => ⟨h.1, rfl, h.2⟩⟩
  · cases ((lexes_punct_iff hbrace).1 h).1

/-! ## The text of a value -/

/-- What `esc[1]` stands for. -/
theorem simpleEscape_escapeOf {c e : Char} (h : escapeOf c = some e) : simpleEscape e = some c ∧ e ≠ 'u' := by
  rw [escapeOf.eq_def] at h
  split at h
  all_goals first
    | (obtain rfl := Option.some.inj h; exact ⟨rfl, by decide⟩)
    | cases h

theorem escapeOf_none {c : Char} (hc : c ≠ '"' ∧ c ≠ '\\' ∧ ' ' ≤ c) : escapeOf c = none := by
  rw [escapeOf.eq_def]
  obtain ⟨hquote, hslash, hcontrol⟩ := hc
  split
  all_goals first
    | rfl
    | exact absurd rfl hquote
    | exact absurd rfl hslash
    | exact absurd hcontrol (by decide)

theorem escapedText_eq {s : List Char} {c : Char} (h : ∃ d ∈ s ++ [c], escapeOf d ≠ none) :
    escapedText (s ++ [c]) = ['\\', (escapeOf c).getD nul] := by
  have hall : ((s ++ [c]).all fun c => (escapeOf c).isNone) = false := by
    obtain ⟨d, hd, hne⟩ := h
    exact List.all_eq_false.2 ⟨d, hd, by simpa using hne⟩
  have hscan : ∀ l : List Char, ∀ scan : EscapeScan, (scan.s2 = some 0 ∨ scan.s2 = none ∧ ∃ d ∈ l, escapeOf d ≠ none) →
      (l.foldl (EscapeScan.step 0) scan).s2 = some 0 := by
    intro l
    induction l with
    | nil =>
        rintro scan (hs | ⟨-, d, hd, -⟩)
        · exact hs
        · exact absurd hd List.not_mem_nil
    | cons d l ih =>
        intro scan hs
        refine ih _ ?_
        cases hd : escapeOf d with
        | some e => exact .inl (by rw [EscapeScan.step, hd])
        | none =>
            rw [EscapeScan.step, hd]
            refine hs.imp_right fun ⟨hnone, d', hd', hne⟩ => ⟨hnone, d', ?_, hne⟩
            exact (List.mem_cons.1 hd').resolve_left fun h0 => hne (h0 ▸ hd)
  rw [escapedText, hall, if_neg Bool.false_ne_true]
  have hs2 := hscan (s ++ [c]) ⟨none, nul⟩ (.inr ⟨rfl, h⟩)
  have hesc : ((s ++ [c]).foldl (EscapeScan.step 0) ⟨none, nul⟩).esc = (escapeOf c).getD nul := by
    rw [List.foldl_append, List.foldl_cons, List.foldl_nil, EscapeScan.step.eq_def]
    cases escapeOf c <;> rfl
  simp only [hs2, hesc, Nat.sub_self, List.take_zero, List.nil_append]

theorem unescapes_escape_iff {e : Char} {s rest : List Char} (he : e ≠ 'u') :
    Unescapes ('\\' :: e :: '"' :: text) s rest ↔ ∃ c, simpleEscape e = some c ∧ s = [c] ∧ rest = text := by
  constructor
  · intro h
    generalize hall : '\\' :: e :: '"' :: text = all at h
    cases h with
    | close => exact absurd (List.cons.inj hall).1 (by decide)
    | char _ hslash => exact absurd (List.cons.inj hall).1.symm hslash
    | escape hc h =>
        obtain ⟨rfl, rfl⟩ := List.cons.inj (List.cons.inj hall).2
        obtain ⟨rfl, rfl⟩ := unescapes_close_iff.1 h
        exact ⟨_, hc, rfl, rfl⟩
    | unicode | pair => exact absurd (List.cons.inj (List.cons.inj hall).2).1 he
  · rintro ⟨c, hc, rfl, rfl⟩
    exact .escape hc (.close rest)

theorem lexes_value_iff {s : List Char} :
    Lexes ('"' :: (escapedText s ++ '"' :: text)) (.string s :: ts) ↔ Writable s ∧ Lexes text ts := by
  rw [lexes_string_iff]
  by_cases hesc : ∃ c ∈ s, escapeOf c ≠ none
  · have hnot : ¬ Plain s := fun hplain => hesc.elim fun c hc => hc.2 (escapeOf_none (hplain c hc.1))
    rcases List.eq_nil_or_concat s with rfl | ⟨s', c, rfl⟩
    · exact absurd hesc (by simp)
    · rw [List.concat_eq_append] at hesc hnot ⊢
      rw [escapedText_eq hesc]
      cases he : escapeOf c with
      | none =>
          constructor
          · rintro ⟨_, _, -, hs, -⟩
            obtain ⟨_, hnul, -⟩ := (unescapes_escape_iff (by decide)).1 hs
            cases hnul
          · rintro ⟨hplain | ⟨d, hd, hne⟩, -⟩
            · exact absurd hplain hnot
            · have hcd : c = d := by simpa using congrArg List.getLast? hd
              exact absurd he (hcd ▸ hne)
      | some e =>
          obtain ⟨hsimple, hu⟩ := simpleEscape_escapeOf he
          constructor
          · rintro ⟨_, _, heq, hs, h⟩
            obtain ⟨d, -, rfl, rfl⟩ := (unescapes_escape_iff hu).1 hs
            have hcd : c = d := by simpa using congrArg List.getLast? (Token.string.inj heq)
            exact ⟨.inr ⟨d, Token.string.inj heq, by rw [← hcd, he]; exact Option.some_ne_none e⟩, h⟩
          · rintro ⟨hplain | ⟨d, hd, -⟩, h⟩
            · exact absurd hplain hnot
            · have hcd : c = d := by simpa using congrArg List.getLast? hd
              exact ⟨_, text, rfl, (unescapes_escape_iff hu).2 ⟨c, hsimple, by rw [hd, hcd], rfl⟩, h⟩
  · have hraw : escapedText s = s := by
      rw [escapedText, if_pos]
      exact List.all_eq_true.2 fun c hc => by simpa using not_not.1 fun hne => hesc ⟨c, hc, hne⟩
    have hwritable : Writable s ↔ Plain s :=
      ⟨fun h => h.resolve_right fun ⟨c, hs, hne⟩ => hesc ⟨c, by rw [hs]; exact List.mem_singleton_self c, hne⟩, .inl⟩
    rw [hraw, hwritable]
    constructor
    · rintro ⟨_, _, heq, hs, h⟩
      obtain rfl := Token.string.inj heq
      obtain ⟨hplain, rfl⟩ := unescapes_plain_iff.1 hs
      exact ⟨hplain, h⟩
    · rintro ⟨hplain, h⟩
      exact ⟨s, text, rfl, unescapes_plain hplain text, h⟩

theorem uitoa_eq (n : ℕ) : AllDigits (uitoa n) ∧ ((uitoa n).head? = some '0' → uitoa n = ['0']) ∧ digitsValue (uitoa n) = n := by
  rcases Nat.eq_zero_or_pos n with rfl | hpos
  · exact ⟨⟨List.cons_ne_nil _ _, List.forall_mem_singleton.2 rfl⟩, fun _ => rfl, rfl⟩
  · obtain ⟨ds, heq, hlen, hdigits, hnum⟩ := putWhole_eq n []
    have hds : uitoa n = ds := by rw [uitoa, if_neg hpos.ne', heq, List.append_nil]
    rw [hds]
    have hpow : 10 ^ ds.length ≤ 10 * n := hlen ▸ Nat.base_pow_length_digits_le 10 n (by decide) hpos.ne'
    refine ⟨⟨fun hnil => ?_, hdigits⟩, fun hhead => ?_, hnum⟩
    · rw [hnil] at hnum
      exact hpos.ne hnum
    · cases ds with
      | nil => cases hhead
      | cons c ds =>
          obtain rfl := Option.some.inj hhead
          have hrest : numeral ('0' :: ds) = numeral ds := rfl
          have hlt := numeral_lt fun d hd => hdigits d (List.mem_cons_of_mem _ hd)
          rw [List.length_cons, Nat.pow_succ, ← hnum, hrest] at hpow
          omega

theorem numberText_intText (value : BitVec 32) : NumberText (intText value) value.toInt := by
  obtain ⟨hdigits, hzero, hvalue⟩ := uitoa_eq (if value.slt 0 then -value else value).toNat
  refine ⟨value.slt 0, _, [], [], [], [], false, by rw [intText, List.append_nil, List.append_nil], hdigits, hzero, .inl ⟨rfl, rfl⟩,
    .inl ⟨rfl, rfl⟩, ?_⟩
  have hslt : value.slt 0 = decide (value.toInt < 0) := by simp [BitVec.slt]
  have hint := BitVec.toInt_eq_toNat_cond value
  have hlt := value.isLt
  rw [List.append_nil, hvalue, hslt]
  by_cases hneg : value.toInt < 0
  · have habs : (value.toInt : ℚ) = -((-value).toNat : ℚ) := by
      have : value.toInt = -((-value).toNat : ℤ) := by
        rw [BitVec.toNat_neg]
        split at hint <;> omega
      rw [this]
      push_cast
      rfl
    rw [if_pos (decide_eq_true hneg), if_pos (decide_eq_true hneg), habs]
    simp [digitsValue]
  · have habs : (value.toInt : ℚ) = (value.toNat : ℚ) := by
      have : value.toInt = (value.toNat : ℤ) := by
        split at hint <;> omega
      rw [this]
      rfl
    rw [if_neg (by simpa using hneg), if_neg (by simpa using hneg), habs]
    simp [digitsValue]

theorem numberChar_intText (value : BitVec 32) : ∀ c ∈ intText value, numberChar c = true := by
  intro c hc
  rcases List.mem_append.1 hc with hc | hc
  · split at hc
    · rw [List.mem_singleton.1 hc]
      rfl
    · exact absurd hc List.not_mem_nil
  · rw [numberChar, (uitoa_eq _).1.2 c hc]
    rfl

theorem lexes_int_iff {value : BitVec 32} (hend : EndsNumber text) :
    Lexes (intText value ++ text) (.number value.toInt :: ts) ↔ Lexes text ts :=
  lexes_number_iff (numberText_intText value) (numberChar_intText value) hend

end

/-! ## Levels -/

/-- The member `k` is next, at level `l`. -/
structure At (maxLevels l k : ℕ) (json : JsonOut) : Prop where
  level : json.level = l
  maxLevel : json.maxLevel = maxLevels
  length : json.elements.length = allocated maxLevels
  count : l < allocated maxLevels → json.elements[l]? = some (k % 2 ^ 32)

/-- What is kept while level `l` is written. -/
structure Agree (l : ℕ) (json json' : JsonOut) : Prop where
  maxLevel : json'.maxLevel = json.maxLevel
  length : json'.elements.length = json.elements.length
  below : ∀ i < l, json'.elements[i]? = json.elements[i]?

/-- The calls are made without an access outside `elements`. -/
def Ran (json : JsonOut) (calls : List Call) (json' : JsonOut) (text : List Char) : Prop := runCalls json calls = some (json', text)

section
variable {json json₁ json₂ json' : JsonOut} {calls more : List Call} {call : Call} {text text₁ text₂ rest : List Char}
  {maxLevels l k : ℕ} {tag : CString}

theorem Agree.refl : Agree l json json := ⟨rfl, rfl, fun _ _ => rfl⟩

theorem Agree.trans (h₁ : Agree l json json₁) (h₂ : Agree l json₁ json₂) : Agree l json json₂ :=
  ⟨h₂.maxLevel.trans h₁.maxLevel, h₂.length.trans h₁.length, fun i hi => (h₂.below i hi).trans (h₁.below i hi)⟩

theorem ran_nil_iff : Ran json [] json' text ↔ json' = json ∧ text = [] := by
  rw [Ran, runCalls, Option.some.injEq, Prod.mk.injEq, eq_comm, @eq_comm _ text]

theorem ran_cons_iff : Ran json (call :: calls) json' text ↔
    ∃ json₁ text₁ text₂, json.perform call = some (json₁, text₁) ∧ Ran json₁ calls json' text₂ ∧ text = text₁ ++ text₂ := by
  simp only [Ran, runCalls, Option.bind_eq_bind, Option.bind_eq_some_iff, Option.some.injEq, Prod.exists, Prod.mk.injEq]
  constructor
  · rintro ⟨json₁, text₁, hperform, json₂, text₂, hrun, rfl, rfl⟩
    exact ⟨json₁, text₁, text₂, hperform, hrun, rfl⟩
  · rintro ⟨json₁, text₁, text₂, hperform, hrun, rfl⟩
    exact ⟨json₁, text₁, hperform, json', text₂, hrun, rfl, rfl⟩

theorem ran_append_iff : Ran json (calls ++ more) json' text ↔
    ∃ json₁ text₁ text₂, Ran json calls json₁ text₁ ∧ Ran json₁ more json' text₂ ∧ text = text₁ ++ text₂ := by
  induction calls generalizing json text with
  | nil =>
      constructor
      · intro h
        exact ⟨json, [], text, ran_nil_iff.2 ⟨rfl, rfl⟩, h, rfl⟩
      · rintro ⟨json₁, text₁, text₂, h₁, h₂, rfl⟩
        obtain ⟨rfl, rfl⟩ := ran_nil_iff.1 h₁
        exact h₂
  | cons call calls ih =>
      rw [List.cons_append, ran_cons_iff]
      constructor
      · rintro ⟨json₁, text₁, text₂, hperform, hrun, rfl⟩
        obtain ⟨json₂, text₃, text₄, h₃, h₄, rfl⟩ := ih.1 hrun
        exact ⟨json₂, text₁ ++ text₃, text₄, ran_cons_iff.2 ⟨json₁, text₁, text₃, hperform, h₃, rfl⟩, h₄, by rw [List.append_assoc]⟩
      · rintro ⟨json₂, text₁₂, text₄, h, h₄, rfl⟩
        obtain ⟨json₁, text₁, text₃, hperform, h₃, rfl⟩ := ran_cons_iff.1 h
        exact ⟨json₁, text₁, text₃ ++ text₄, hperform, ih.2 ⟨json₂, text₃, text₄, h₃, h₄, rfl⟩, by rw [List.append_assoc]⟩

theorem Ran.unique {text' : List Char} (h₁ : Ran json calls json₁ text) (h₂ : Ran json calls json₂ text') : json₁ = json₂ ∧ text = text' :=
  Prod.mk.injEq _ _ _ _ ▸ Option.some.inj (h₁.symm.trans h₂)

/-! ## One call -/

theorem At.count_eq (h : At maxLevels l k json) (hl : l < allocated maxLevels) : ∃ json₁, json.count = some (json₁, comma k) ∧
    At maxLevels l (k + 1) json₁ ∧ Agree l json json₁ := by
  obtain rfl := h.level
  have hlen : json.level < json.elements.length := h.length ▸ hl
  refine ⟨{ json with elements := json.elements.set json.level ((k % 2 ^ 32 + 1) % 2 ^ 32) },
    by rw [JsonOut.count, h.count hl, Option.map_some, comma], ⟨rfl, h.maxLevel, ?_, fun _ => ?_⟩, rfl, ?_, fun i hi => ?_⟩
  · rw [List.length_set, h.length]
  · rw [List.getElem?_set_self hlen, Nat.mod_add_mod]
  · rw [List.length_set]
  · rw [List.getElem?_set_ne hi.ne']

theorem count_none (hl : ¬ json.level < json.elements.length) : json.count = none := by
  rw [JsonOut.count, List.getElem?_eq_none (not_lt.1 hl), Option.map_none]

theorem leave_maxLevel : json.leave.maxLevel = json.maxLevel := by rw [JsonOut.leave]

theorem leave_elements : json.leave.elements = json.elements := by rw [JsonOut.leave]

theorem leave_level (h : json.level = l + 1) (h32 : l + 1 < 2 ^ 32) : json.leave.level = l := by
  have hleave : json.leave.level = (json.level + (2 ^ 32 - 1)) % 2 ^ 32 := by rw [JsonOut.leave]
  rw [hleave, h]
  omega

theorem At.nest_eq (h : At maxLevels l k json) (h32 : l + 1 < 2 ^ 32) (hl : l + 1 < allocated maxLevels) :
    ∃ json₁, json.nest = some json₁ ∧ At maxLevels (l + 1) 0 json₁ ∧
      ∀ json₂, json₂.level = l + 1 → Agree (l + 1) json₁ json₂ → At maxLevels l k json₂.leave ∧ Agree l json json₂.leave := by
  have hlen : l + 1 < json.elements.length := h.length ▸ hl
  refine ⟨{ json with level := l + 1, elements := json.elements.set (l + 1) 0 }, ?_, ⟨rfl, h.maxLevel, ?_, fun _ => ?_⟩, ?_⟩
  · rw [JsonOut.nest, h.level, Nat.mod_eq_of_lt h32]
    exact if_pos hlen
  · rw [List.length_set, h.length]
  · exact List.getElem?_set_self hlen
  · intro json₂ hlevel hagree
    have hbelow : ∀ i < l + 1, json₂.elements[i]? = json.elements[i]? := fun i hi => by
      rw [hagree.below i hi, List.getElem?_set_ne hi.ne']
    have hlength : json₂.elements.length = json.elements.length := by rw [hagree.length, List.length_set]
    refine ⟨⟨leave_level hlevel h32, ?_, ?_, fun hl' => ?_⟩, ?_, ?_, fun i hi => ?_⟩
    · rw [leave_maxLevel, hagree.maxLevel, h.maxLevel]
    · rw [leave_elements, hlength, h.length]
    · rw [leave_elements, hbelow l (Nat.lt_succ_self l), h.count hl']
    · rw [leave_maxLevel, hagree.maxLevel]
    · rw [leave_elements, hlength]
    · rw [leave_elements, hbelow i (Nat.lt_succ_of_lt hi)]

theorem nest_none (h32 : json.level + 1 < 2 ^ 32) (hl : ¬ json.level + 1 < json.elements.length) : json.nest = none := by
  rw [JsonOut.nest, Nat.mod_eq_of_lt h32]
  exact if_neg hl

def Adds (maxLevels l k : ℕ) (json : JsonOut) (call : Call) (text : List Char) : Prop :=
  (∀ r, json.perform call = some r → l < allocated maxLevels) ∧
    (l < allocated maxLevels → ∃ json₁, json.perform call = some (json₁, text) ∧ At maxLevels l (k + 1) json₁ ∧ Agree l json json₁)

/-- The container is opened, and the next element follows when it is closed. -/
def Opens (maxLevels l k : ℕ) (json : JsonOut) (call : Call) (text : List Char) : Prop :=
  (∀ r, json.perform call = some r → l + 1 < allocated maxLevels) ∧
    (l + 1 < allocated maxLevels → ∃ json₁, json.perform call = some (json₁, text) ∧ At maxLevels (l + 1) 0 json₁ ∧
      ∀ json₂, json₂.level = l + 1 → Agree (l + 1) json₁ json₂ → At maxLevels l (k + 1) json₂.leave ∧ Agree l json json₂.leave)

/-- `comma`, tag and colon. -/
def tagText (k : ℕ) (tag : CString) : List Char := comma k ++ '"' :: (tag.chars ++ ['"', ':'])

theorem At.addTag_eq (h : At maxLevels l k json) (hlt : l < maxLevels) (hl : l < allocated maxLevels) :
    ∃ json₁, addTag json tag = some (true, json₁, tagText k tag) ∧ At maxLevels l (k + 1) json₁ ∧ Agree l json json₁ := by
  obtain ⟨json₁, hcount, hat, hagree⟩ := h.count_eq hl
  refine ⟨json₁, ?_, hat, hagree⟩
  rw [addTag, if_pos (by rwa [h.level, h.maxLevel]), hcount]
  rfl

theorem At.addTag_none (h : At maxLevels l k json) (hlt : l < maxLevels) (hl : ¬ l < allocated maxLevels) : addTag json tag = none := by
  rw [addTag, if_pos (by rwa [h.level, h.maxLevel]), count_none (by rwa [h.level, h.length])]
  rfl

theorem At.addString (h : At maxLevels l k json) (hlt : l < maxLevels) (tag s : CString) :
    Adds maxLevels l k json (.addString tag s) (tagText k tag ++ '"' :: (escapedText s.chars ++ ['"'])) := by
  refine ⟨fun r hr => by_contra fun hl => ?_, fun hl => ?_⟩
  · rw [JsonOut.perform, jsonAddString, h.addTag_none hlt hl] at hr
    cases hr
  · obtain ⟨json₁, hadd, hat⟩ := h.addTag_eq hlt hl
    refine ⟨json₁, ?_, hat⟩
    rw [JsonOut.perform, jsonAddString, hadd]
    rfl

theorem At.addInt (h : At maxLevels l k json) (hlt : l < maxLevels) (tag : CString) (value : BitVec 32) :
    Adds maxLevels l k json (.addInt tag value) (tagText k tag ++ intText value) := by
  refine ⟨fun r hr => by_contra fun hl => ?_, fun hl => ?_⟩
  · rw [JsonOut.perform, jsonAddInt, h.addTag_none hlt hl] at hr
    cases hr
  · obtain ⟨json₁, hadd, hat⟩ := h.addTag_eq hlt hl
    refine ⟨json₁, ?_, hat⟩
    rw [JsonOut.perform, jsonAddInt, hadd]
    rfl

theorem Opens.intro (first : Option (JsonOut × List Char)) {bracket : List Char} (h32 : l + 1 < 2 ^ 32)
    (hperform : json.perform call = first.bind fun r => r.1.nest.bind fun json => some (json, r.2 ++ bracket))
    (hsome : l < allocated maxLevels → ∃ json₁, first = some (json₁, text) ∧ At maxLevels l (k + 1) json₁ ∧ Agree l json json₁)
    (hnone : ¬ l < allocated maxLevels → first = none) : Opens maxLevels l k json call (text ++ bracket) := by
  constructor
  · intro r hr
    by_contra hl
    by_cases hl₀ : l < allocated maxLevels
    · obtain ⟨json₁, hfirst, hat, -⟩ := hsome hl₀
      have hnest : json₁.nest = none := nest_none (by rwa [hat.level]) (by rwa [hat.level, hat.length])
      rw [hperform, hfirst, Option.bind_some, hnest] at hr
      cases hr
    · rw [hperform, hnone hl₀] at hr
      cases hr
  · intro hl
    obtain ⟨json₁, hfirst, hat, hagree⟩ := hsome (Nat.lt_of_succ_lt hl)
    obtain ⟨json₂, hnest, hat₂, hback⟩ := hat.nest_eq h32 hl
    refine ⟨json₂, ?_, hat₂, fun json₃ hlevel h₃ => ?_⟩
    · rw [hperform, hfirst, Option.bind_some, hnest]
      rfl
    · obtain ⟨hat₃, hagree₃⟩ := hback json₃ hlevel h₃
      exact ⟨hat₃, hagree.trans hagree₃⟩

theorem At.startObject (h : At maxLevels l k json) (hlt : l < maxLevels) (h32 : maxLevels < 2 ^ 32) :
    Opens maxLevels l k json .startObject (comma k ++ ['{']) := by
  refine Opens.intro json.count (Nat.lt_of_le_of_lt hlt h32) ?_ h.count_eq fun hl => count_none (by rwa [h.level, h.length])
  rw [JsonOut.perform, jsonStartObject, if_pos (by rwa [h.level, h.maxLevel])]
  rfl

theorem At.opens_tagged {bracket : List Char} (h : At maxLevels l k json) (hlt : l < maxLevels) (h32 : maxLevels < 2 ^ 32)
    (hperform : json.perform call = (addTag json tag).bind fun r => r.2.1.nest.bind fun json => some (json, r.2.2 ++ bracket)) :
    Opens maxLevels l k json call (tagText k tag ++ bracket) := by
  refine Opens.intro ((addTag json tag).map Prod.snd) (Nat.lt_of_le_of_lt hlt h32) ?_ (fun hl => ?_) fun hl => ?_
  · rw [hperform]
    cases addTag json tag <;> rfl
  · obtain ⟨json₁, hadd, hat⟩ := h.addTag_eq hlt hl
    exact ⟨json₁, by rw [hadd]; rfl, hat⟩
  · rw [h.addTag_none hlt hl]
    rfl

theorem At.startTaggedObject (h : At maxLevels l k json) (hlt : l < maxLevels) (h32 : maxLevels < 2 ^ 32) (tag : CString) :
    Opens maxLevels l k json (.startTaggedObject tag) (tagText k tag ++ ['{']) := by
  refine h.opens_tagged hlt h32 ?_
  rw [JsonOut.perform, jsonStartTaggedObject, if_pos (by rwa [h.level, h.maxLevel])]
  rfl

theorem At.startArray (h : At maxLevels l k json) (hlt : l < maxLevels) (h32 : maxLevels < 2 ^ 32) (tag : CString) :
    Opens maxLevels l k json (.startArray tag) (tagText k tag ++ ['[']) := by
  refine h.opens_tagged hlt h32 ?_
  rw [JsonOut.perform, jsonStartArray, if_pos (by rwa [h.level, h.maxLevel])]
  rfl

theorem perform_endObject (hlt : json.level < json.maxLevel) : json.perform .endObject = some (json.leave, ['}']) := by
  rw [JsonOut.perform, jsonEndObject, if_pos hlt]

theorem perform_endArray (hne : json.level ≠ 0) : json.perform .endArray = some (json.leave, [']']) := by
  rw [JsonOut.perform, jsonEndArray, if_pos hne]

/-! ## Runs -/

/-- A text that is not taken for a part of a number before it. -/
def NoNumber (text : List Char) : Prop := text = [] ∨ ∃ c t, text = c :: t ∧ numberChar c = false

theorem NoNumber.append (h : NoNumber text) (more : NoNumber rest) : NoNumber (text ++ rest) := by
  rcases h with rfl | ⟨c, t, rfl, hc⟩
  · exact more
  · exact .inr ⟨c, t ++ rest, rfl, hc⟩

theorem count_noNumber (h : json.count = some (json₁, text)) : NoNumber text := by
  obtain ⟨n, -, hn⟩ := Option.map_eq_some_iff.1 h
  obtain ⟨-, rfl⟩ := Prod.mk.inj hn
  split
  · exact .inr ⟨',', [], rfl, rfl⟩
  · exact .inl rfl

theorem addTag_noNumber {ok : Bool} (h : addTag json tag = some (ok, json₁, text)) :
    ok = true ∧ (∃ c t, text = c :: t ∧ numberChar c = false) ∨ ok = false ∧ text = [] := by
  rw [addTag] at h
  split at h
  · obtain ⟨⟨json₂, t⟩, hcount, heq⟩ := Option.map_eq_some_iff.1 h
    obtain ⟨rfl, hrest⟩ := Prod.mk.inj heq
    obtain ⟨-, rfl⟩ := Prod.mk.inj hrest
    refine .inl ⟨rfl, ?_⟩
    rcases count_noNumber hcount with rfl | ⟨c, t, rfl, hc⟩
    · exact ⟨'"', _, rfl, rfl⟩
    · exact ⟨c, _, rfl, hc⟩
  · obtain ⟨rfl, hrest⟩ := Prod.mk.inj (Option.some.inj h)
    exact .inr ⟨rfl, (Prod.mk.inj hrest).2.symm⟩

theorem addTag_value_noNumber {value : List Char}
    (h : (addTag json tag).bind (fun r => some (r.2.1, if r.1 then r.2.2 ++ value else r.2.2)) = some (json₁, text)) : NoNumber text := by
  obtain ⟨⟨ok, json₂, t⟩, hadd, hsome⟩ := Option.bind_eq_some_iff.1 h
  obtain ⟨-, rfl⟩ := Prod.mk.inj (Option.some.inj hsome)
  rcases addTag_noNumber hadd with ⟨rfl, c, t', rfl, hc⟩ | ⟨rfl, rfl⟩
  · exact .inr ⟨c, t' ++ value, rfl, hc⟩
  · exact .inl rfl

theorem addTag_open_noNumber {bracket : Char} (hb : numberChar bracket = false)
    (h : (addTag json tag).bind (fun r => r.2.1.nest.bind fun json => some (json, r.2.2 ++ [bracket])) = some (json₁, text)) :
    NoNumber text := by
  obtain ⟨⟨ok, json₂, t⟩, hadd, hnest⟩ := Option.bind_eq_some_iff.1 h
  obtain ⟨json₃, -, hsome⟩ := Option.bind_eq_some_iff.1 hnest
  obtain ⟨-, rfl⟩ := Prod.mk.inj (Option.some.inj hsome)
  rcases addTag_noNumber hadd with ⟨-, ht⟩ | ⟨-, rfl⟩
  · exact NoNumber.append (.inr ht) (.inr ⟨bracket, [], rfl, hb⟩)
  · exact .inr ⟨bracket, [], rfl, hb⟩

theorem perform_noNumber (h : json.perform call = some (json₁, text)) : NoNumber text := by
  have hnone : ∀ {json₂ : JsonOut}, some (json₂, []) = some (json₁, text) → NoNumber text := fun hsome =>
    .inl (Prod.mk.inj (Option.some.inj hsome)).2.symm
  cases call with
  | startObject =>
      rw [JsonOut.perform, jsonStartObject] at h
      split at h
      · obtain ⟨⟨json₂, t⟩, hcount, h⟩ := Option.bind_eq_some_iff.1 h
        obtain ⟨json₃, -, h⟩ := Option.bind_eq_some_iff.1 h
        obtain ⟨-, rfl⟩ := Prod.mk.inj (Option.some.inj h)
        exact (count_noNumber hcount).append (.inr ⟨'{', [], rfl, rfl⟩)
      · exact hnone h
  | startTaggedObject tag =>
      rw [JsonOut.perform, jsonStartTaggedObject] at h
      split at h
      · exact addTag_open_noNumber (by rfl) h
      · exact hnone h
  | endObject =>
      rw [JsonOut.perform, jsonEndObject] at h
      split at h
      · exact .inr ⟨'}', [], (Prod.mk.inj (Option.some.inj h)).2.symm, rfl⟩
      · exact hnone h
  | startArray tag =>
      rw [JsonOut.perform, jsonStartArray] at h
      split at h
      · exact addTag_open_noNumber (by rfl) h
      · exact hnone h
  | endArray =>
      rw [JsonOut.perform, jsonEndArray] at h
      split at h
      · exact .inr ⟨']', [], (Prod.mk.inj (Option.some.inj h)).2.symm, rfl⟩
      · exact hnone h
  | addString tag s => exact addTag_value_noNumber h
  | addInt tag value => exact addTag_value_noNumber h

theorem Ran.endsNumber (h : Ran json calls json' text) (hrest : EndsNumber rest) : EndsNumber (text ++ rest) := by
  induction calls generalizing json text with
  | nil =>
      obtain ⟨-, rfl⟩ := ran_nil_iff.1 h
      exact hrest
  | cons call calls ih =>
      obtain ⟨json₁, text₁, text₂, hperform, hrun, rfl⟩ := ran_cons_iff.1 h
      rcases perform_noNumber hperform with rfl | ⟨c, t, rfl, hc⟩
      · exact ih hrun
      · exact EndsNumber.cons hc _

theorem Ran.stuck (h : Ran json calls json' text) (hlevel : json.level = json.maxLevel) (hpos : 0 < json.maxLevel) :
    text = [] ∧ json'.level = json.level ∨ ∃ t, text = ']' :: t := by
  have hnot : ¬ json.level < json.maxLevel := hlevel ▸ lt_irrefl _
  induction calls generalizing text with
  | nil =>
      obtain ⟨rfl, rfl⟩ := ran_nil_iff.1 h
      exact .inl ⟨rfl, rfl⟩
  | cons call calls ih =>
      obtain ⟨json₁, text₁, text₂, hperform, hrun, rfl⟩ := ran_cons_iff.1 h
      cases call with
      | endArray =>
          rw [perform_endArray (hlevel ▸ hpos.ne')] at hperform
          obtain ⟨rfl, rfl⟩ := Prod.mk.inj (Option.some.inj hperform)
          exact .inr ⟨text₂, rfl⟩
      | _ =>
          have hnothing : (json, []) = (json₁, text₁) := by
            simpa [JsonOut.perform, jsonStartObject, jsonStartTaggedObject, jsonEndObject, jsonStartArray, jsonAddString, jsonAddInt,
              addTag, hnot] using hperform
          obtain ⟨rfl, rfl⟩ := Prod.mk.inj hnothing
          exact ih hrun

/-! ## Documents that are written -/

theorem lexes_tagText_iff {ts : List Token} (hk : k ≤ 2 ^ 32) :
    Lexes (tagText k tag ++ text) (separator (k = 0) ++ .string tag.chars :: .colon :: ts) ↔
      k < 2 ^ 32 ∧ Plain tag.chars ∧ Lexes text ts := by
  rw [tagText, List.append_assoc, List.cons_append, List.append_assoc]
  exact lexes_tag_iff hk

theorem first_zero : decide (0 = 0) = true := rfl

theorem first_succ (k : ℕ) : decide (k + 1 = 0) = false := decide_eq_false (Nat.succ_ne_zero k)

mutual

theorem Content.written (h32 : maxLevels < 2 ^ 32) : ∀ (m : Content) {l k : ℕ} {json : JsonOut}, l < maxLevels → At maxLevels l k json →
    m.Supported maxLevels l k → ∃ json' text, Ran json m.calls json' text ∧ json'.level = l ∧ Agree l json json' ∧
      ∀ rest ts, EndsNumber rest → (Lexes (text ++ rest) (m.json.tokens (k = 0) ++ ts) ↔ Lexes rest ts)
  | .nil, l, k, json, _, hat, _ => ⟨json, [], ran_nil_iff.2 ⟨rfl, rfl⟩, hat.level, .refl, fun _ _ _ => Iff.rfl⟩
  | .string tag s rest, l, k, json, hlt, hat, ⟨⟨hl, hk⟩, htag, hs, hrest⟩ => by
      obtain ⟨json₁, hperform, hat₁, hagree₁⟩ := (hat.addString hlt tag s).2 hl
      obtain ⟨json', text, hrun, hlevel, hagree, hlexes⟩ := rest.written h32 hlt hat₁ hrest
      refine ⟨json', _, ran_cons_iff.2 ⟨json₁, _, text, hperform, hrun, rfl⟩, hlevel, hagree₁.trans hagree, fun more ts hmore => ?_⟩
      rw [first_succ] at hlexes
      simp only [Content.json, Members.tokens, Json.tokens, List.append_assoc, List.cons_append, List.nil_append]
      rw [lexes_tagText_iff hk.le, lexes_value_iff, hlexes more ts hmore]
      exact ⟨fun h => h.2.2.2, fun h => ⟨hk, htag, hs, h⟩⟩
  | .int tag value rest, l, k, json, hlt, hat, ⟨⟨hl, hk⟩, htag, hrest⟩ => by
      obtain ⟨json₁, hperform, hat₁, hagree₁⟩ := (hat.addInt hlt tag value).2 hl
      obtain ⟨json', text, hrun, hlevel, hagree, hlexes⟩ := rest.written h32 hlt hat₁ hrest
      refine ⟨json', _, ran_cons_iff.2 ⟨json₁, _, text, hperform, hrun, rfl⟩, hlevel, hagree₁.trans hagree, fun more ts hmore => ?_⟩
      rw [first_succ] at hlexes
      simp only [Content.json, Members.tokens, Json.tokens, List.append_assoc, List.cons_append, List.nil_append]
      rw [lexes_tagText_iff hk.le, lexes_int_iff (hrun.endsNumber hmore), hlexes more ts hmore]
      exact ⟨fun h => h.2.2, fun h => ⟨hk, htag, h⟩⟩
  | .object tag body rest, l, k, json, hlt, hat, ⟨⟨_, hk⟩, htag, ⟨hl, hlt'⟩, hbody, hrest⟩ => by
      obtain ⟨json₁, hperform, hat₁, hback⟩ := (hat.startTaggedObject hlt h32 tag).2 hl
      obtain ⟨json₂, text₂, hrun₂, hlevel₂, hagree₂, hlexes₂⟩ := body.written h32 hlt' hat₁ hbody
      obtain ⟨hat₃, hagree₃⟩ := hback json₂ hlevel₂ hagree₂
      obtain ⟨json', text, hrun, hlevel, hagree, hlexes⟩ := rest.written h32 hlt hat₃ hrest
      have hend : json₂.perform .endObject = some (json₂.leave, ['}']) :=
        perform_endObject (by rwa [hlevel₂, hagree₂.maxLevel, hat₁.maxLevel])
      refine ⟨json', _, ran_cons_iff.2 ⟨json₁, _, _, hperform, ran_append_iff.2 ⟨json₂, text₂, _, hrun₂,
        ran_cons_iff.2 ⟨_, _, text, hend, hrun, rfl⟩, rfl⟩, rfl⟩, hlevel, hagree₃.trans hagree, fun more ts hmore => ?_⟩
      rw [first_zero] at hlexes₂
      rw [first_succ] at hlexes
      simp only [Content.json, Members.tokens, Json.tokens, List.append_assoc, List.cons_append, List.nil_append]
      rw [lexes_tagText_iff hk.le, lexes_punct_iff (by rfl : punctuation '{' = some .lbrace),
        hlexes₂ _ _ (EndsNumber.cons (by rfl) _), lexes_punct_iff (by rfl : punctuation '}' = some .rbrace), hlexes more ts hmore]
      exact ⟨fun h => h.2.2.2.2, fun h => ⟨hk, htag, rfl, rfl, h⟩⟩
  | .array tag items rest, l, k, json, hlt, hat, ⟨⟨_, hk⟩, htag, hl, hitems, hrest⟩ => by
      obtain ⟨json₁, hperform, hat₁, hback⟩ := (hat.startArray hlt h32 tag).2 hl
      obtain ⟨json₂, text₂, hrun₂, hlevel₂, hagree₂, hlexes₂⟩ := items.written h32 hat₁ hitems
      obtain ⟨hat₃, hagree₃⟩ := hback json₂ hlevel₂ hagree₂
      obtain ⟨json', text, hrun, hlevel, hagree, hlexes⟩ := rest.written h32 hlt hat₃ hrest
      have hend : json₂.perform .endArray = some (json₂.leave, [']']) := perform_endArray (by rw [hlevel₂]; exact Nat.succ_ne_zero l)
      refine ⟨json', _, ran_cons_iff.2 ⟨json₁, _, _, hperform, ran_append_iff.2 ⟨json₂, text₂, _, hrun₂,
        ran_cons_iff.2 ⟨_, _, text, hend, hrun, rfl⟩, rfl⟩, rfl⟩, hlevel, hagree₃.trans hagree, fun more ts hmore => ?_⟩
      rw [first_zero] at hlexes₂
      rw [first_succ] at hlexes
      simp only [Content.json, Members.tokens, Json.tokens, List.append_assoc, List.cons_append, List.nil_append]
      rw [lexes_tagText_iff hk.le, lexes_punct_iff (by rfl : punctuation '[' = some .lbracket),
        hlexes₂ _ _ (EndsNumber.cons (by rfl) _), lexes_punct_iff (by rfl : punctuation ']' = some .rbracket), hlexes more ts hmore]
      exact ⟨fun h => h.2.2.2.2, fun h => ⟨hk, htag, rfl, rfl, h⟩⟩

theorem Objects.written (h32 : maxLevels < 2 ^ 32) : ∀ (os : Objects) {l k : ℕ} {json : JsonOut}, At maxLevels l k json →
    os.Supported maxLevels l k → ∃ json' text, Ran json os.calls json' text ∧ json'.level = l ∧ Agree l json json' ∧
      ∀ rest ts, EndsNumber rest → (Lexes (text ++ rest) (os.json.tokens (k = 0) ++ ts) ↔ Lexes rest ts)
  | .nil, l, k, json, hat, _ => ⟨json, [], ran_nil_iff.2 ⟨rfl, rfl⟩, hat.level, .refl, fun _ _ _ => Iff.rfl⟩
  | .cons body rest, l, k, json, hat, ⟨⟨_, hk⟩, ⟨hl, hlt'⟩, hbody, hrest⟩ => by
      obtain ⟨json₁, hperform, hat₁, hback⟩ := (hat.startObject (Nat.lt_of_succ_lt hlt') h32).2 hl
      obtain ⟨json₂, text₂, hrun₂, hlevel₂, hagree₂, hlexes₂⟩ := body.written h32 hlt' hat₁ hbody
      obtain ⟨hat₃, hagree₃⟩ := hback json₂ hlevel₂ hagree₂
      obtain ⟨json', text, hrun, hlevel, hagree, hlexes⟩ := rest.written h32 hat₃ hrest
      have hend : json₂.perform .endObject = some (json₂.leave, ['}']) :=
        perform_endObject (by rwa [hlevel₂, hagree₂.maxLevel, hat₁.maxLevel])
      refine ⟨json', _, ran_cons_iff.2 ⟨json₁, _, _, hperform, ran_append_iff.2 ⟨json₂, text₂, _, hrun₂,
        ran_cons_iff.2 ⟨_, _, text, hend, hrun, rfl⟩, rfl⟩, rfl⟩, hlevel, hagree₃.trans hagree, fun more ts hmore => ?_⟩
      rw [first_zero] at hlexes₂
      rw [first_succ] at hlexes
      simp only [Objects.json, Items.tokens, Json.tokens, List.append_assoc, List.cons_append, List.nil_append]
      rw [lexes_brace_iff hk.le, hlexes₂ _ _ (EndsNumber.cons (by rfl) _), lexes_punct_iff (by rfl : punctuation '}' = some .rbrace),
        hlexes more ts hmore]
      exact ⟨fun h => h.2.2, fun h => ⟨hk, rfl, h⟩⟩

end

/-! ## Only these -/

theorem not_lexes_bracket (m : Members) {ts : List Token} : ¬ Lexes (']' :: text) (m.tokens true ++ .rbrace :: ts) := by
  intro h
  have hbracket : punctuation ']' = some .rbracket := rfl
  cases m with
  | nil => cases ((lexes_punct_iff hbracket).1 h).1
  | cons tag value rest => cases ((lexes_punct_iff hbracket).1 h).1

theorem Ran.not_closed {m : Members} {ts : List Token} (h : Ran json calls json' text) (hlevel : json.level = json.maxLevel)
    (hpos : 0 < json.maxLevel) (hend : json'.level = 0) : ¬ Lexes (text ++ jsonEnd) (m.tokens true ++ .rbrace :: ts) := by
  rcases h.stuck hlevel hpos with ⟨-, hsame⟩ | ⟨t, rfl⟩
  · rw [hend, hlevel] at hsame
    exact absurd hsame hpos.ne
  · exact not_lexes_bracket m

theorem Ran.behind {bracket : Char} (h : Ran json (calls ++ call :: more) json' text) (hrun : Ran json calls json₁ text₁)
    (hend : json₁.perform call = some (json₂, [bracket])) : ∃ text₂, text = text₁ ++ bracket :: text₂ ∧ Ran json₂ more json' text₂ := by
  obtain ⟨json₃, text₃, text₄, h₃, h₄, rfl⟩ := ran_append_iff.1 h
  obtain ⟨rfl, rfl⟩ := h₃.unique hrun
  obtain ⟨json₅, text₅, text₆, hperform, hmore, rfl⟩ := ran_cons_iff.1 h₄
  obtain ⟨rfl, rfl⟩ := Prod.mk.inj (Option.some.inj (hperform.symm.trans hend))
  exact ⟨text₆, rfl, hmore⟩

theorem endsNumber_jsonEnd : EndsNumber jsonEnd := EndsNumber.cons (by rfl) []

mutual

theorem Content.supported (h32 : maxLevels < 2 ^ 32) : ∀ (m : Content) {l k : ℕ} {json : JsonOut} {more : List Call} {json' : JsonOut}
    {text : List Char} {ts : List Token}, l < maxLevels → l + m.depth ≤ maxLevels → k ≤ 2 ^ 32 → At maxLevels l k json →
      Ran json (m.calls ++ more) json' text → json'.level = 0 → Lexes (text ++ jsonEnd) (m.json.tokens (k = 0) ++ ts) →
        m.Supported maxLevels l k
  | .nil, l, k, json, more, json', text, ts, _, _, _, _, _, _, _ => trivial
  | .string tag s rest, l, k, json, more, json', text, ts, hlt, hdepth, hk, hat, hran, hend, hlexes => by
      obtain ⟨json₁, text₁, text₂, hperform, hrun, rfl⟩ := ran_cons_iff.1 hran
      have hl := (hat.addString hlt tag s).1 _ hperform
      obtain ⟨json₂, hperform₂, hat₂, -⟩ := (hat.addString hlt tag s).2 hl
      obtain ⟨rfl, rfl⟩ := Prod.mk.inj (Option.some.inj (hperform.symm.trans hperform₂))
      simp only [Content.json, Members.tokens, Json.tokens, List.append_assoc, List.cons_append, List.nil_append] at hlexes
      rw [lexes_tagText_iff hk, lexes_value_iff] at hlexes
      obtain ⟨hk, htag, hs, hlexes⟩ := hlexes
      rw [← first_succ k] at hlexes
      exact ⟨⟨hl, hk⟩, htag, hs, rest.supported h32 hlt hdepth hk hat₂ hrun hend hlexes⟩
  | .int tag value rest, l, k, json, more, json', text, ts, hlt, hdepth, hk, hat, hran, hend, hlexes => by
      obtain ⟨json₁, text₁, text₂, hperform, hrun, rfl⟩ := ran_cons_iff.1 hran
      have hl := (hat.addInt hlt tag value).1 _ hperform
      obtain ⟨json₂, hperform₂, hat₂, -⟩ := (hat.addInt hlt tag value).2 hl
      obtain ⟨rfl, rfl⟩ := Prod.mk.inj (Option.some.inj (hperform.symm.trans hperform₂))
      simp only [Content.json, Members.tokens, Json.tokens, List.append_assoc, List.cons_append, List.nil_append] at hlexes
      rw [lexes_tagText_iff hk, lexes_int_iff (hrun.endsNumber endsNumber_jsonEnd)] at hlexes
      obtain ⟨hk, htag, hlexes⟩ := hlexes
      rw [← first_succ k] at hlexes
      exact ⟨⟨hl, hk⟩, htag, rest.supported h32 hlt hdepth hk hat₂ hrun hend hlexes⟩
  | .object tag body rest, l, k, json, more, json', text, ts, hlt, hdepth, hk, hat, hran, hend, hlexes => by
      obtain ⟨json₁, text₁, text₂, hperform, hrun, rfl⟩ := ran_cons_iff.1 hran
      have hl := (hat.startTaggedObject hlt h32 tag).1 _ hperform
      obtain ⟨json₂, hperform₂, hat₂, hback⟩ := (hat.startTaggedObject hlt h32 tag).2 hl
      obtain ⟨rfl, rfl⟩ := Prod.mk.inj (Option.some.inj (hperform.symm.trans hperform₂))
      simp only [Content.json, Members.tokens, Json.tokens, List.append_assoc, List.cons_append, List.nil_append] at hlexes
      rw [lexes_tagText_iff hk, lexes_punct_iff (by rfl : punctuation '{' = some .lbrace)] at hlexes
      obtain ⟨hk, htag, -, hlexes⟩ := hlexes
      have hlt' : l + 1 < maxLevels := by
        refine lt_of_le_of_ne hlt fun heq => hrun.not_closed ?_ ?_ hend hlexes
        · rw [hat₂.level, hat₂.maxLevel, heq]
        · rw [hat₂.maxLevel]
          exact Nat.zero_lt_of_lt hlt
      have hbodydepth : l + 1 + body.depth ≤ maxLevels := by
        have := (Nat.add_le_add_left (le_max_left (body.depth + 1) rest.depth) l).trans hdepth
        omega
      have hrun : Ran json₁ (body.calls ++ .endObject :: (rest.calls ++ more)) json' text₂ := by simpa using hrun
      have hbody := body.supported h32 hlt' hbodydepth (Nat.zero_le _) hat₂ hrun hend hlexes
      obtain ⟨json₄, text₄, hrun₄, hlevel₄, hagree₄, hlexes₄⟩ := body.written h32 hlt' hat₂ hbody
      obtain ⟨text₅, rfl, hrun₅⟩ := hrun.behind hrun₄ (perform_endObject (by rwa [hlevel₄, hagree₄.maxLevel, hat₂.maxLevel]))
      rw [List.append_assoc, List.cons_append, ← first_zero, hlexes₄ _ _ (EndsNumber.cons (by rfl) _),
        lexes_punct_iff (by rfl : punctuation '}' = some .rbrace), ← first_succ k] at hlexes
      exact ⟨⟨Nat.lt_of_succ_lt hl, hk⟩, htag, ⟨hl, hlt'⟩, hbody, rest.supported h32 hlt
        ((Nat.add_le_add_left (le_max_right (body.depth + 1) rest.depth) l).trans hdepth) hk (hback json₄ hlevel₄ hagree₄).1 hrun₅ hend hlexes.2⟩
  | .array tag items rest, l, k, json, more, json', text, ts, hlt, hdepth, hk, hat, hran, hend, hlexes => by
      obtain ⟨json₁, text₁, text₂, hperform, hrun, rfl⟩ := ran_cons_iff.1 hran
      have hl := (hat.startArray hlt h32 tag).1 _ hperform
      obtain ⟨json₂, hperform₂, hat₂, hback⟩ := (hat.startArray hlt h32 tag).2 hl
      obtain ⟨rfl, rfl⟩ := Prod.mk.inj (Option.some.inj (hperform.symm.trans hperform₂))
      simp only [Content.json, Members.tokens, Json.tokens, List.append_assoc, List.cons_append, List.nil_append] at hlexes
      rw [lexes_tagText_iff hk, lexes_punct_iff (by rfl : punctuation '[' = some .lbracket)] at hlexes
      obtain ⟨hk, htag, -, hlexes⟩ := hlexes
      have hitemsdepth : l + 1 + items.depth ≤ maxLevels := by
        have := (Nat.add_le_add_left (le_max_left (items.depth + 1) rest.depth) l).trans hdepth
        omega
      have hrun : Ran json₁ (items.calls ++ .endArray :: (rest.calls ++ more)) json' text₂ := by simpa using hrun
      have hitems := items.supported h32 hitemsdepth (Nat.zero_le _) hat₂ hrun hend hlexes
      obtain ⟨json₄, text₄, hrun₄, hlevel₄, hagree₄, hlexes₄⟩ := items.written h32 hat₂ hitems
      obtain ⟨text₅, rfl, hrun₅⟩ := hrun.behind hrun₄ (perform_endArray (by rw [hlevel₄]; exact Nat.succ_ne_zero l))
      rw [List.append_assoc, List.cons_append, ← first_zero, hlexes₄ _ _ (EndsNumber.cons (by rfl) _),
        lexes_punct_iff (by rfl : punctuation ']' = some .rbracket), ← first_succ k] at hlexes
      exact ⟨⟨Nat.lt_of_succ_lt hl, hk⟩, htag, hl, hitems, rest.supported h32 hlt
        ((Nat.add_le_add_left (le_max_right (items.depth + 1) rest.depth) l).trans hdepth) hk (hback json₄ hlevel₄ hagree₄).1 hrun₅ hend hlexes.2⟩

theorem Objects.supported (h32 : maxLevels < 2 ^ 32) : ∀ (os : Objects) {l k : ℕ} {json : JsonOut} {more : List Call} {json' : JsonOut}
    {text : List Char} {ts : List Token}, l + os.depth ≤ maxLevels → k ≤ 2 ^ 32 → At maxLevels l k json →
      Ran json (os.calls ++ more) json' text → json'.level = 0 → Lexes (text ++ jsonEnd) (os.json.tokens (k = 0) ++ ts) →
        os.Supported maxLevels l k
  | .nil, l, k, json, more, json', text, ts, _, _, _, _, _, _ => trivial
  | .cons body rest, l, k, json, more, json', text, ts, hdepth, hk, hat, hran, hend, hlexes => by
      have hdepths : l + 1 + body.depth ≤ maxLevels ∧ l + rest.depth ≤ maxLevels := by
        have h₁ := (Nat.add_le_add_left (le_max_left (body.depth + 1) rest.depth) l).trans hdepth
        have h₂ := (Nat.add_le_add_left (le_max_right (body.depth + 1) rest.depth) l).trans hdepth
        omega
      have hlt : l < maxLevels := by omega
      obtain ⟨json₁, text₁, text₂, hperform, hrun, rfl⟩ := ran_cons_iff.1 hran
      have hl := (hat.startObject hlt h32).1 _ hperform
      obtain ⟨json₂, hperform₂, hat₂, hback⟩ := (hat.startObject hlt h32).2 hl
      obtain ⟨rfl, rfl⟩ := Prod.mk.inj (Option.some.inj (hperform.symm.trans hperform₂))
      simp only [Objects.json, Items.tokens, Json.tokens, List.append_assoc, List.cons_append, List.nil_append] at hlexes
      rw [lexes_brace_iff hk] at hlexes
      obtain ⟨hk, hlexes⟩ := hlexes
      have hlt' : l + 1 < maxLevels := by
        refine lt_of_le_of_ne hlt fun heq => hrun.not_closed ?_ ?_ hend hlexes
        · rw [hat₂.level, hat₂.maxLevel, heq]
        · rw [hat₂.maxLevel]
          exact Nat.zero_lt_of_lt hlt
      have hrun : Ran json₁ (body.calls ++ .endObject :: (rest.calls ++ more)) json' text₂ := by simpa using hrun
      have hbody := body.supported h32 hlt' hdepths.1 (Nat.zero_le _) hat₂ hrun hend hlexes
      obtain ⟨json₄, text₄, hrun₄, hlevel₄, hagree₄, hlexes₄⟩ := body.written h32 hlt' hat₂ hbody
      obtain ⟨text₅, rfl, hrun₅⟩ := hrun.behind hrun₄ (perform_endObject (by rwa [hlevel₄, hagree₄.maxLevel, hat₂.maxLevel]))
      rw [List.append_assoc, List.cons_append, ← first_zero, hlexes₄ _ _ (EndsNumber.cons (by rfl) _),
        lexes_punct_iff (by rfl : punctuation '}' = some .rbrace), ← first_succ k] at hlexes
      exact ⟨⟨Nat.lt_of_succ_lt hl, hk⟩, ⟨hl, hlt'⟩, hbody,
        rest.supported h32 hdepths.2 hk (hback json₄ hlevel₄ hagree₄).1 hrun₅ hend hlexes.2⟩

end

end

/-! ## The document -/

theorem allocated_eq {maxLevels : ℕ} (h : maxLevels < 2 ^ 30 - 4) : allocated maxLevels = maxLevels + 1 := by
  rw [allocated]
  omega

/-- `max_levels` is a `uint32_t`. The document is written exactly when it is supported. -/
theorem written_iff (maxLevels : ℕ) (hmax : 1 ≤ maxLevels) (h32 : maxLevels < 2 ^ 32) (doc : Content) (hdepth : doc.depth ≤ maxLevels) :
    Written maxLevels doc ↔ doc.Supported maxLevels 0 0 := by
  have hat : At maxLevels 0 0 (jsonStart maxLevels).1 :=
    ⟨rfl, rfl, List.length_replicate, fun hl => by rw [jsonStart, List.getElem?_replicate, if_pos hl]; rfl⟩
  have hdenotes : ∀ text, Denotes ((jsonStart maxLevels).2 ++ (text ++ jsonEnd)) (.object doc.json) ↔
      Lexes (text ++ jsonEnd) (doc.json.tokens (0 = 0) ++ [.rbrace]) := fun text => by
    rw [Denotes, jsonStart, List.singleton_append, Json.tokens, lexes_punct_iff (by rfl : punctuation '{' = some .lbrace)]
    exact ⟨fun h => h.2, fun h => ⟨rfl, h⟩⟩
  constructor
  · rintro ⟨json, text, hrun, hlevel, hdoc⟩
    have hrun : Ran (jsonStart maxLevels).1 (doc.calls ++ []) json text := by rwa [List.append_nil]
    exact doc.supported h32 hmax (by rwa [Nat.zero_add]) (Nat.zero_le _) hat hrun hlevel ((hdenotes text).1 hdoc)
  · intro h
    obtain ⟨json, text, hrun, hlevel, -, hlexes⟩ := doc.written h32 hmax hat h
    exact ⟨json, text, hrun, hlevel, (hdenotes text).2 ((hlexes jsonEnd [.rbrace] endsNumber_jsonEnd).2 (.punct rfl .nil))⟩

/-- `{"a":-2147483648,"b":[{},{"c":"\\""}]}` -/
theorem written_iff_three_levels : Written 3 (.int ⟨['a'], by decide⟩ 0x80000000#32
    (.array ⟨['b'], by decide⟩ (.cons .nil (.cons (.string ⟨['c'], by decide⟩ ⟨['"'], by decide⟩ .nil) .nil)) .nil)) := by
  have hplain : ∀ c : Char, c ≠ '"' ∧ c ≠ '\\' ∧ ' ' ≤ c → Plain [c] := fun c hc =>
    Plain.cons hc fun _ hd => absurd hd List.not_mem_nil
  have hcounted : ∀ l < 3, ∀ k < 2, Counted 3 l k := by
    intro l hl k hk
    refine ⟨?_, hk.trans (by decide)⟩
    rw [allocated_eq (by decide)]
    omega
  refine (written_iff 3 (by decide) (by decide) _ (by decide)).2 ?_
  simp only [Content.Supported, Objects.Supported, allocated_eq (show 3 < 2 ^ 30 - 4 by decide)]
  have hquote : Writable ['"'] := .inr ⟨'"', rfl, by decide⟩
  exact ⟨hcounted 0 (by decide) 0 (by decide), hplain _ (by decide), hcounted 0 (by decide) 1 (by decide), hplain _ (by decide),
    by decide, ⟨hcounted 1 (by decide) 0 (by decide), by decide, trivial, hcounted 1 (by decide) 1 (by decide), by decide,
      ⟨hcounted 2 (by decide) 0 (by decide), hplain _ (by decide), hquote, trivial⟩, trivial⟩, trivial⟩

/-- The line end is written, the character before it is not. -/
theorem line_end_loses_text :
    ¬ ∀ maxLevels doc, 1 ≤ maxLevels → maxLevels < 2 ^ 32 → Content.depth doc ≤ maxLevels → Written maxLevels doc := by
  intro h
  obtain ⟨json, text, hrun, -, hdoc⟩ := h 1 (.string ⟨['t'], by decide⟩ ⟨['a', '\n'], by decide⟩ .nil) (by decide) (by decide) (by decide)
  obtain ⟨rfl, rfl⟩ : json = ⟨0, 1, [1, 0]⟩ ∧ text = ['"', 't', '"', ':', '"', '\\', 'n', '"'] := by
    have heq : runCalls (jsonStart 1).1 [.addString ⟨['t'], by decide⟩ ⟨['a', '\n'], by decide⟩] =
        some (⟨0, 1, [1, 0]⟩, ['"', 't', '"', ':', '"', '\\', 'n', '"']) := by rfl
    exact Prod.mk.inj (Option.some.inj (hrun.symm.trans heq))
  have hlexes : Lexes (tagText 0 ⟨['t'], by decide⟩ ++ '"' :: (escapedText ['a', '\n'] ++ '"' :: ['}']))
      (separator (0 = 0) ++ .string ['t'] :: .colon :: .string ['a', '\n'] :: [.rbrace]) :=
    ((lexes_punct_iff (by rfl : punctuation '{' = some .lbrace)).1 hdoc).2
  obtain ⟨-, -, hvalue⟩ := (lexes_tagText_iff (Nat.zero_le _)).1 hlexes
  rcases (lexes_value_iff.1 hvalue).1 with hplain | ⟨c, hc, -⟩
  · exact absurd (hplain '\n' (by decide)).2.2 (by decide)
  · simp at hc

end Grbl.Stream.JsonWriter
