import Mathlib

/-!
# JSON texts

A text is a list of characters. It is cut into tokens, and the tokens of a value are what the grammar makes of it.

* `Token`, `Json` : tokens and values; `Json.tokens` : the tokens of a value;
* `Unescapes` : the text of a string up to its closing quote; `NumberText` : the text of a number;
* `Lexes` : the tokens of a text; `Denotes` : a text of a value;
* `Plain`, `unescapes_plain_iff` : which strings stand for themselves;
* `lexes_*` : the first token of a text.
-/

namespace Grbl.Lib.Json

inductive Token
  | lbrace | rbrace | lbracket | rbracket | comma | colon | null
  | bool (b : Bool)
  | number (q : ℚ)
  | string (s : List Char)

mutual

/-- A value. -/
inductive Json
  | null
  | bool (b : Bool)
  | number (q : ℚ)
  | string (s : List Char)
  | array (items : Items)
  | object (members : Members)

/-- The values of an array. -/
inductive Items
  | nil
  | cons (value : Json) (rest : Items)

inductive Members
  | nil
  | cons (tag : List Char) (value : Json) (rest : Members)

end

/-- What stands in front of a value in an array, or of a member. -/
def separator (first : Bool) : List Token := if first then [] else [.comma]

mutual

def Json.tokens : Json → List Token
  | .null => [.null]
  | .bool b => [.bool b]
  | .number q => [.number q]
  | .string s => [.string s]
  | .array items => .lbracket :: (items.tokens true ++ [.rbracket])
  | .object members => .lbrace :: (members.tokens true ++ [.rbrace])

def Items.tokens : Bool → Items → List Token
  | _, .nil => []
  | first, .cons value rest => separator first ++ (value.tokens ++ rest.tokens false)

def Members.tokens : Bool → Members → List Token
  | _, .nil => []
  | first, .cons tag value rest => separator first ++ (.string tag :: .colon :: (value.tokens ++ rest.tokens false))

end

/-! ## Strings and numbers -/

/-- The character that an escape of two characters stands for. -/
def simpleEscape : Char → Option Char
  | '"' => some '"'
  | '\\' => some '\\'
  | '/' => some '/'
  | 'b' => some '\x08'
  | 'f' => some '\x0c'
  | 'n' => some '\n'
  | 'r' => some '\r'
  | 't' => some '\t'
  | _ => none

def hexDigit (c : Char) : Option ℕ :=
  if c.isDigit then some (c.toNat - 48)
  else if 'a' ≤ c ∧ c ≤ 'f' then some (c.toNat - 87)
  else if 'A' ≤ c ∧ c ≤ 'F' then some (c.toNat - 55)
  else none

/-- The number that four hexadecimal digits denote. -/
def hexNumber : List Char → Option ℕ
  | [a, b, c, d] =>
      match hexDigit a, hexDigit b, hexDigit c, hexDigit d with
      | some a, some b, some c, some d => some (((a * 16 + b) * 16 + c) * 16 + d)
      | _, _, _, _ => none
  | _ => none

/-- The text of a string behind its quote, the string, and what follows the closing quote. -/
inductive Unescapes : List Char → List Char → List Char → Prop
  | close (rest : List Char) : Unescapes ('"' :: rest) [] rest
  | char {c : Char} {text s rest : List Char} (hquote : c ≠ '"') (hslash : c ≠ '\\') (hcontrol : ' ' ≤ c)
      (h : Unescapes text s rest) : Unescapes (c :: text) (c :: s) rest
  | escape {e c : Char} {text s rest : List Char} (he : simpleEscape e = some c) (h : Unescapes text s rest) :
      Unescapes ('\\' :: e :: text) (c :: s) rest
  | unicode {ds text s rest : List Char} {n : ℕ} (hds : hexNumber ds = some n) (hn : n < 0xD800 ∨ 0xDFFF < n)
      (h : Unescapes text s rest) : Unescapes ('\\' :: 'u' :: (ds ++ text)) (Char.ofNat n :: s) rest
  | pair {ds es text s rest : List Char} {n m : ℕ} (hds : hexNumber ds = some n) (hes : hexNumber es = some m)
      (hn : 0xD800 ≤ n ∧ n ≤ 0xDBFF) (hm : 0xDC00 ≤ m ∧ m ≤ 0xDFFF) (h : Unescapes text s rest) :
      Unescapes ('\\' :: 'u' :: (ds ++ ('\\' :: 'u' :: (es ++ text))))
        (Char.ofNat (0x10000 + (n - 0xD800) * 0x400 + (m - 0xDC00)) :: s) rest

/-- The number that is written with these digits. -/
def digitsValue (ds : List Char) : ℕ := ds.foldl (fun n c => n * 10 + (c.toNat - 48)) 0

def AllDigits (ds : List Char) : Prop := ds ≠ [] ∧ ∀ c ∈ ds, c.isDigit = true

/-- `[-]int[.frac][e[+-]exp]`, and the number. -/
def NumberText (text : List Char) (q : ℚ) : Prop :=
  ∃ (neg : Bool) (int fracText frac expText exp : List Char) (expNeg : Bool),
    text = (if neg then ['-'] else []) ++ int ++ fracText ++ expText ∧
      AllDigits int ∧ (int.head? = some '0' → int = ['0']) ∧
        (fracText = [] ∧ frac = [] ∨ fracText = '.' :: frac ∧ AllDigits frac) ∧
          (expText = [] ∧ exp = [] ∨
            ∃ e sgn, expText = e :: (sgn ++ exp) ∧ (e = 'e' ∨ e = 'E') ∧ AllDigits exp ∧
              (sgn = ['-'] ∧ expNeg = true ∨ (sgn = [] ∨ sgn = ['+']) ∧ expNeg = false)) ∧
            q = (if neg then -1 else 1) * (digitsValue (int ++ frac) / 10 ^ frac.length) *
              (if expNeg then 1 / 10 ^ digitsValue exp else 10 ^ digitsValue exp)

def numberChar (c : Char) : Bool := c.isDigit || c = '-' || c = '+' || c = '.' || c = 'e' || c = 'E'

/-! ## Texts -/

def punctuation : Char → Option Token
  | '{' => some .lbrace
  | '}' => some .rbrace
  | '[' => some .lbracket
  | ']' => some .rbracket
  | ',' => some .comma
  | ':' => some .colon
  | _ => none

/-- The tokens of a text; a number ends where no longer one can. -/
inductive Lexes : List Char → List Token → Prop
  | nil : Lexes [] []
  | space {c : Char} {text : List Char} {ts : List Token} (hc : c = ' ' ∨ c = '\t' ∨ c = '\n' ∨ c = '\r') (h : Lexes text ts) :
      Lexes (c :: text) ts
  | punct {c : Char} {t : Token} {text : List Char} {ts : List Token} (hc : punctuation c = some t) (h : Lexes text ts) :
      Lexes (c :: text) (t :: ts)
  | null {text : List Char} {ts : List Token} (h : Lexes text ts) : Lexes ('n' :: 'u' :: 'l' :: 'l' :: text) (.null :: ts)
  | true {text : List Char} {ts : List Token} (h : Lexes text ts) : Lexes ('t' :: 'r' :: 'u' :: 'e' :: text) (.bool true :: ts)
  | false {text : List Char} {ts : List Token} (h : Lexes text ts) :
      Lexes ('f' :: 'a' :: 'l' :: 's' :: 'e' :: text) (.bool false :: ts)
  | string {text s rest : List Char} {ts : List Token} (hs : Unescapes text s rest) (h : Lexes rest ts) :
      Lexes ('"' :: text) (.string s :: ts)
  | number {lit rest : List Char} {q : ℚ} {ts : List Token} (hq : NumberText lit q) (hlit : ∀ c ∈ lit, numberChar c = true)
      (hrest : ∀ c ∈ rest.head?, numberChar c = false) (h : Lexes rest ts) : Lexes (lit ++ rest) (.number q :: ts)

def Denotes (text : List Char) (j : Json) : Prop := Lexes text j.tokens

/-! ## Strings that stand for themselves -/

/-- A string without quotes, backslashes and control characters. -/
def Plain (s : List Char) : Prop := ∀ c ∈ s, c ≠ '"' ∧ c ≠ '\\' ∧ ' ' ≤ c

section
variable {text s rest ds : List Char} {n : ℕ}

theorem Plain.cons {c : Char} (hc : c ≠ '"' ∧ c ≠ '\\' ∧ ' ' ≤ c) (h : Plain s) : Plain (c :: s) := by
  intro d hd
  rcases List.mem_cons.1 hd with rfl | hd
  · exact hc
  · exact h d hd

theorem unescapes_plain (h : Plain s) (rest : List Char) : Unescapes (s ++ '"' :: rest) s rest := by
  induction s with
  | nil => exact .close rest
  | cons c s ih =>
      obtain ⟨hquote, hslash, hcontrol⟩ := h c List.mem_cons_self
      exact .char hquote hslash hcontrol (ih fun d hd => h d (List.mem_cons_of_mem c hd))

theorem quote_notMem_hex (h : hexNumber ds = some n) : '"' ∉ ds := by
  have hnone : hexDigit '"' = none := by decide
  rw [hexNumber.eq_def] at h
  split at h
  · rename_i a b c d
    split at h
    · rename_i ha hb hc hd
      intro hmem
      simp only [List.mem_cons, List.not_mem_nil, or_false] at hmem
      rcases hmem with rfl | rfl | rfl | rfl
      · exact absurd (hnone.symm.trans ha) (by simp)
      · exact absurd (hnone.symm.trans hb) (by simp)
      · exact absurd (hnone.symm.trans hc) (by simp)
      · exact absurd (hnone.symm.trans hd) (by simp)
    · cases h
  · cases h

theorem Unescapes.body (h : Unescapes text s rest) : ∃ body, text = body ++ '"' :: rest ∧ ('"' ∈ body → '"' ∈ s) ∧
    (Plain body ∧ s = body ∨ s.length < body.length) := by
  induction h with
  | close rest => exact ⟨[], rfl, fun hmem => absurd hmem List.not_mem_nil, .inl ⟨fun _ hc => absurd hc List.not_mem_nil, rfl⟩⟩
  | @char c text s rest hquote hslash hcontrol _ ih =>
      obtain ⟨body, rfl, hmem, hbody⟩ := ih
      refine ⟨c :: body, rfl, fun h => ?_, ?_⟩
      · exact List.mem_cons_of_mem c (hmem ((List.mem_cons.1 h).resolve_left fun h0 => hquote h0.symm))
      · rcases hbody with ⟨hplain, rfl⟩ | hlt
        · exact .inl ⟨hplain.cons ⟨hquote, hslash, hcontrol⟩, rfl⟩
        · exact .inr (Nat.succ_lt_succ hlt)
  | @escape e c text s rest he _ ih =>
      obtain ⟨body, rfl, hmem, hbody⟩ := ih
      refine ⟨'\\' :: e :: body, rfl, fun h => ?_, .inr ?_⟩
      · simp only [List.mem_cons] at h ⊢
        rcases h with h | rfl | h
        · exact absurd h (by decide)
        · exact .inl (Option.some.inj he)
        · exact .inr (hmem h)
      · have hle : s.length ≤ body.length := hbody.elim (fun h => by rw [h.2]) Nat.le_of_lt
        simp only [List.length_cons]
        omega
  | @unicode ds text s rest n hds hn _ ih =>
      obtain ⟨body, rfl, hmem, hbody⟩ := ih
      refine ⟨'\\' :: 'u' :: (ds ++ body), by simp, fun h => ?_, .inr ?_⟩
      · simp only [List.mem_cons, List.mem_append] at h ⊢
        rcases h with h | h | h | h
        · exact absurd h (by decide)
        · exact absurd h (by decide)
        · exact absurd h (quote_notMem_hex hds)
        · exact .inr (hmem h)
      · have hle : s.length ≤ body.length := hbody.elim (fun h => by rw [h.2]) Nat.le_of_lt
        simp only [List.length_cons, List.length_append]
        omega
  | @pair ds es text s rest n m hds hes hn hm _ ih =>
      obtain ⟨body, rfl, hmem, hbody⟩ := ih
      refine ⟨'\\' :: 'u' :: (ds ++ ('\\' :: 'u' :: (es ++ body))), by simp, fun h => ?_, .inr ?_⟩
      · simp only [List.mem_cons, List.mem_append] at h ⊢
        rcases h with h | h | h | h | h | h | h
        · exact absurd h (by decide)
        · exact absurd h (by decide)
        · exact absurd h (quote_notMem_hex hds)
        · exact absurd h (by decide)
        · exact absurd h (by decide)
        · exact absurd h (quote_notMem_hex hes)
        · exact .inr (hmem h)
      · have hle : s.length ≤ body.length := hbody.elim (fun h => by rw [h.2]) Nat.le_of_lt
        simp only [List.length_cons, List.length_append]
        omega

theorem append_quote (front : List Char) {pre more : List Char} (hfront : '"' ∉ front) (hpre : '"' ∉ pre)
    (h : front ++ text = pre ++ '"' :: more) : ∃ pre', pre = front ++ pre' ∧ text = pre' ++ '"' :: more := by
  rcases List.append_eq_append_iff.1 h with ⟨as, has, htail⟩ | ⟨bs, hbs, htail⟩
  · exact ⟨as, has, htail⟩
  · cases bs with
    | nil =>
        rw [List.append_nil] at hbs
        exact ⟨[], by rw [hbs, List.append_nil], htail.symm⟩
    | cons b bs =>
        obtain ⟨rfl, -⟩ := List.cons.inj htail
        exact absurd (hbs ▸ List.mem_append_right pre List.mem_cons_self) hfront

/-- The first quote of a text closes the string, or it is escaped and then stands in the string before its own place. -/
theorem Unescapes.first_quote (h : Unescapes text s rest) : ∀ {pre more : List Char}, text = pre ++ '"' :: more → '"' ∉ pre →
    s.length ≤ pre.length ∨ ∃ s₁ s₂, s = s₁ ++ '"' :: s₂ ∧ s₁.length < pre.length := by
  induction h with
  | close rest => exact fun _ _ => .inl (Nat.zero_le _)
  | @char c text s rest hquote _ _ _ ih =>
      intro pre more htext hpre
      obtain ⟨pre', rfl, htail⟩ := append_quote [c] (by simpa using hquote.symm) hpre htext
      rcases ih htail (fun hmem => hpre (List.mem_append_right _ hmem)) with hle | ⟨s₁, s₂, rfl, hlt⟩
      · exact .inl (by simpa using hle)
      · exact .inr ⟨c :: s₁, s₂, rfl, by simpa using hlt⟩
  | @escape e c text s rest he _ ih =>
      intro pre more htext hpre
      obtain ⟨pre₁, rfl, hrest⟩ : ∃ pre₁, pre = ['\\'] ++ pre₁ ∧ [e] ++ text = pre₁ ++ '"' :: more :=
        append_quote ['\\'] (by decide) hpre htext
      by_cases hequote : e = '"'
      · refine .inr ⟨[], s, ?_, by simp⟩
        rw [hequote] at he
        rw [← Option.some.inj he]
        rfl
      · obtain ⟨pre', rfl, htail⟩ := append_quote [e] (by simpa using Ne.symm hequote)
          (fun hmem => hpre (List.mem_append_right _ hmem)) hrest
        rcases ih htail (fun hmem => hpre (List.mem_append_right _ (List.mem_append_right _ hmem))) with hle | ⟨s₁, s₂, rfl, hlt⟩
        · refine .inl ?_
          simp only [List.length_append, List.length_cons, List.length_nil]
          omega
        · refine .inr ⟨c :: s₁, s₂, rfl, ?_⟩
          simp only [List.length_append, List.length_cons, List.length_nil]
          omega
  | @unicode ds text s rest n hds _ _ ih =>
      intro pre more htext hpre
      have hfront : '"' ∉ '\\' :: 'u' :: ds := by
        have := quote_notMem_hex hds
        simp only [List.mem_cons, not_or]
        exact ⟨by decide, by decide, this⟩
      obtain ⟨pre', rfl, htail⟩ := append_quote ('\\' :: 'u' :: ds) hfront hpre htext
      rcases ih htail (fun hmem => hpre (List.mem_append_right _ hmem)) with hle | ⟨s₁, s₂, rfl, hlt⟩
      · refine .inl ?_
        simp only [List.length_append, List.length_cons]
        omega
      · refine .inr ⟨_ :: s₁, s₂, rfl, ?_⟩
        simp only [List.length_append, List.length_cons]
        omega
  | @pair ds es text s rest n m hds hes _ _ _ ih =>
      intro pre more htext hpre
      have hfront : '"' ∉ '\\' :: 'u' :: (ds ++ ('\\' :: 'u' :: es)) := by
        have h₁ := quote_notMem_hex hds
        have h₂ := quote_notMem_hex hes
        simp only [List.mem_cons, List.mem_append, not_or]
        exact ⟨by decide, by decide, h₁, by decide, by decide, h₂⟩
      obtain ⟨pre', rfl, htail⟩ := append_quote ('\\' :: 'u' :: (ds ++ ('\\' :: 'u' :: es))) hfront hpre
        (by simpa using htext)
      rcases ih htail (fun hmem => hpre (List.mem_append_right _ hmem)) with hle | ⟨s₁, s₂, rfl, hlt⟩
      · refine .inl ?_
        simp only [List.length_append, List.length_cons]
        omega
      · refine .inr ⟨_ :: s₁, s₂, rfl, ?_⟩
        simp only [List.length_append, List.length_cons]
        omega

theorem unescapes_close_iff {more : List Char} : Unescapes ('"' :: more) s rest ↔ s = [] ∧ rest = more := by
  constructor
  · intro h
    generalize hall : '"' :: more = all at h
    cases h with
    | close => exact ⟨rfl, (List.cons.inj hall).2.symm⟩
    | char hquote => exact absurd (List.cons.inj hall).1.symm hquote
    | escape | unicode | pair => exact absurd (List.cons.inj hall).1 (by decide)
  · rintro ⟨rfl, rfl⟩
    exact .close rest

theorem unescapes_plain_iff {more : List Char} : Unescapes (s ++ '"' :: more) s rest ↔ Plain s ∧ rest = more := by
  constructor
  · intro h
    obtain ⟨body, htext, hmem, hbody⟩ := h.body
    have hnot : '"' ∉ s := by
      intro hquote
      obtain ⟨pre, q, hs, hpre⟩ := List.eq_append_cons_of_mem hquote
      have htext' : s ++ '"' :: more = pre ++ '"' :: (q ++ '"' :: more) := by
        rw [hs, List.append_assoc, List.cons_append]
      rcases h.first_quote htext' hpre with hle | ⟨s₁, s₂, hs', hlt⟩
      · rw [hs, List.length_append, List.length_cons] at hle
        omega
      · rw [hs] at hs'
        rcases List.append_eq_append_iff.1 hs' with ⟨as, has, -⟩ | ⟨bs, hbs, htail⟩
        · rw [has, List.length_append] at hlt
          omega
        · cases bs with
          | nil =>
              rw [hbs, List.append_nil] at hlt
              exact lt_irrefl _ hlt
          | cons b bs =>
              obtain ⟨rfl, -⟩ := List.cons.inj htail
              exact hpre (hbs ▸ List.mem_append_right s₁ List.mem_cons_self)
    obtain ⟨pre', hbody', htail⟩ := append_quote s hnot (fun h0 => hnot (hmem h0)) htext
    cases pre' with
    | nil =>
        rw [List.append_nil] at hbody'
        obtain ⟨-, rfl⟩ := List.cons.inj htail
        rcases hbody with ⟨hplain, -⟩ | hlt
        · exact ⟨hbody' ▸ hplain, rfl⟩
        · rw [hbody'] at hlt
          exact absurd hlt (lt_irrefl _)
    | cons c pre' =>
        obtain ⟨rfl, -⟩ := List.cons.inj htail
        exact absurd (hmem (hbody' ▸ List.mem_append_right s List.mem_cons_self)) hnot
  · rintro ⟨hs, rfl⟩
    exact unescapes_plain hs rest

/-! ## The first token of a text -/

def EndsNumber (text : List Char) : Prop := ∀ c ∈ text.head?, numberChar c = false

theorem NumberText.ne_nil {lit : List Char} {q : ℚ} (h : NumberText lit q) : lit ≠ [] := by
  obtain ⟨neg, int, fracText, frac, expText, exp, expNeg, rfl, hint, -⟩ := h
  intro hnil
  simp only [List.append_eq_nil_iff] at hnil
  exact hint.1 hnil.1.1.2

theorem punctuation_eq_none {c : Char} (h : numberChar c = true) : punctuation c = none := by
  rw [punctuation.eq_def]
  split
  all_goals first
    | rfl
    | exact absurd h (by decide)

theorem NumberText.head {lit : List Char} {q : ℚ} (hq : NumberText lit q) (hlit : ∀ c ∈ lit, numberChar c = true)
    {c : Char} {rest : List Char} (h : c :: text = lit ++ rest) : numberChar c = true := by
  cases lit with
  | nil => exact absurd rfl hq.ne_nil
  | cons d lit =>
      obtain ⟨rfl, -⟩ := List.cons.inj h
      exact hlit c List.mem_cons_self

theorem lexes_punct_iff {c : Char} {t t' : Token} {ts : List Token} (hc : punctuation c = some t) :
    Lexes (c :: text) (t' :: ts) ↔ t' = t ∧ Lexes text ts := by
  constructor
  · intro h
    generalize hall : c :: text = all at h
    cases h with
    | space hs =>
        obtain ⟨rfl, -⟩ := List.cons.inj hall
        rcases hs with rfl | rfl | rfl | rfl <;> exact absurd hc (by simp [punctuation])
    | punct hc' h =>
        obtain ⟨rfl, rfl⟩ := List.cons.inj hall
        exact ⟨Option.some.inj (hc'.symm.trans hc), h⟩
    | null | true | false | string => exact absurd ((List.cons.inj hall).1 ▸ hc) (by simp [punctuation])
    | number hq hlit =>
        rw [punctuation_eq_none (hq.head hlit hall)] at hc
        cases hc
  · rintro ⟨rfl, h⟩
    exact .punct hc h

theorem lexes_string_iff {t : Token} {ts : List Token} :
    Lexes ('"' :: text) (t :: ts) ↔ ∃ s rest, t = .string s ∧ Unescapes text s rest ∧ Lexes rest ts := by
  constructor
  · intro h
    generalize hall : '"' :: text = all at h
    cases h with
    | space hs =>
        obtain ⟨rfl, -⟩ := List.cons.inj hall
        exact absurd hs (by decide)
    | punct hc =>
        obtain ⟨rfl, -⟩ := List.cons.inj hall
        exact absurd hc (by simp [punctuation])
    | null | true | false => exact absurd (List.cons.inj hall).1 (by decide)
    | string hs h =>
        obtain ⟨-, rfl⟩ := List.cons.inj hall
        exact ⟨_, _, rfl, hs, h⟩
    | number hq hlit => exact absurd (hq.head hlit hall) (by decide)
  · rintro ⟨s, rest, rfl, hs, h⟩
    exact .string hs h

theorem maximal_munch {lit lit' rest rest' : List Char} (h : lit ++ rest = lit' ++ rest')
    (hlit : ∀ c ∈ lit, numberChar c = true) (hlit' : ∀ c ∈ lit', numberChar c = true) (hrest : EndsNumber rest)
    (hrest' : EndsNumber rest') : rest = rest' := by
  rcases List.append_eq_append_iff.1 h with ⟨as, rfl, htail⟩ | ⟨bs, rfl, htail⟩
  · cases as with
    | nil => exact htail
    | cons a as =>
        have ha := hlit' a (List.mem_append_right _ List.mem_cons_self)
        rw [hrest a (by rw [htail]; rfl)] at ha
        cases ha
  · cases bs with
    | nil => exact htail.symm
    | cons b bs =>
        have hb := hlit b (List.mem_append_right _ List.mem_cons_self)
        rw [hrest' b (by rw [htail]; rfl)] at hb
        cases hb

theorem lexes_number_iff {lit : List Char} {q : ℚ} {ts : List Token} (hq : NumberText lit q)
    (hlit : ∀ c ∈ lit, numberChar c = true) (hend : EndsNumber rest) :
    Lexes (lit ++ rest) (.number q :: ts) ↔ Lexes rest ts := by
  constructor
  · intro h
    generalize hall : lit ++ rest = all at h
    cases h with
    | space hs =>
        have hhead := hq.head hlit hall.symm
        rcases hs with rfl | rfl | rfl | rfl <;> exact absurd hhead (by decide)
    | punct hc =>
        rw [punctuation_eq_none (hq.head hlit hall.symm)] at hc
        cases hc
    | number hq' hlit' hend' h =>
        rw [maximal_munch hall hlit hlit' hend hend']
        exact h
  · exact .number hq hlit hend

end

end Grbl.Lib.Json
