import Grbl.Lib.Paths
import Grbl.Lib.Run
import Grbl.Vfs.Mounts

/-!
# The buffer of a parsed path

`parse_path` of the virtual file system and `get_path` of the littlefs driver are the same function, each with a buffer and a
current directory of its own.

* `elementStores`, `parseStores` : where `parse_path` stores in its buffer; `bufferLen` : how long that is;
* `Caller`, `Call`, `pathStep` : calls of `parse_path`, of `vfs_chdir` and of the `fs_chdir` and `fs_chmod` of the driver;
* `Parses` : what is to hold after every call; `Call.Fits` : the condition;
* `parsePath_eq` : paths are resolved; `inside_iff` : which stores are in the buffer; `parse_iff`, `exec_iff` : one call;
* `parses_iff` : every run; `separator_is_not_counted` : a run that stores behind the buffer.
-/

namespace Grbl.Vfs
open Lib

/-! ## Stores -/

/-- The stores of a string and its terminator from `i` on. -/
def stores (i : ℕ) (s : Path) : List ℕ := (List.range (s.length + 1)).map (i + ·)

def elementStores (abspath el : Path) : List ℕ :=
  if el = ['.', '.'] then
    match (abspath.reverse.dropWhile (· ≠ '/')).length with
    | 0 => []
    | p + 1 => [p + if p = 0 then 1 else 0]
  else if el = ['.'] then []
  else if abspath.length = 1 then stores abspath.length el
  else stores abspath.length ['/'] ++ stores (abspath.length + 1) el

def loopStores : Path → List Path → List ℕ
  | _, [] => []
  | abspath, el :: els => elementStores abspath el ++ loopStores (parseElement abspath el) els

/-- The stores of `parse_path`. -/
def parseStores (cwd path : Path) : List ℕ :=
  let start := if path.head? = some '/' then ['/'] else cwd
  stores 0 start ++ loopStores start ((path.splitOn '/').filter (· ≠ []))

/-- `abspath.len` for a call. -/
def bufferLen (cwd path : Path) (len : ℕ) : ℕ :=
  if cwd.length + path.length + 1 > len then max 50 cwd.length + path.length + 1 else len

/-! ## Calls -/

/-- A directory, by the names that lead to it. -/
abbrev Dir := { names : List (List Char) // ∀ n ∈ names, IsName n }

/-- Whether there is memory for the buffer when it grows, if that is elsewhere, and whether there is some for the copy of the path. -/
structure Memory where
  realloc : Bool
  moves : Bool
  malloc : Bool

/-- The current directory and the argument of the last call, and what it returned. -/
structure Returned where
  cwd : Path
  path : Path
  result : Path

/-- `_cwd` has `own + 1` characters; `cwd` and its length, `abspath.len`, and if all accesses so far were in memory that is allocated. -/
structure Caller where
  own : ℕ
  cwdLen : ℕ := own
  cwd : Path := ['/']
  len : ℕ := 0
  returned : Option Returned := none
  inside : Bool := true

namespace Caller

def Grows (m : Caller) (path : Path) : Prop := m.cwd.length + path.length + 1 > m.len

instance (m : Caller) (path : Path) : Decidable (m.Grows path) := by
  unfold Grows
  infer_instance

def NoBuffer (m : Caller) (path : Path) (mem : Memory) : Prop := m.Grows path ∧ mem.realloc = false

instance (m : Caller) (path : Path) (mem : Memory) : Decidable (m.NoBuffer path mem) := by
  unfold NoBuffer
  infer_instance

/-- What `parse_path` returns; without memory it is the argument. -/
def result (m : Caller) (path : Path) (mem : Memory) : Path :=
  if m.NoBuffer path mem ∨ mem.malloc = false then path else parsePath m.cwd path

/-- `parse_path` -/
def parse (m : Caller) (path : Path) (mem : Memory) : Caller :=
  let len := if m.NoBuffer path mem then 0 else bufferLen m.cwd path m.len
  let stored := if m.NoBuffer path mem then [] else if mem.malloc then parseStores m.cwd path else stores 0 path
  { m with
    len := len
    returned := some ⟨m.cwd, path, m.result path mem⟩
    inside := m.inside && stored.all (· < len) }

/-- Its argument is in a buffer that is allocated elsewhere before the argument is read. -/
def Dangles (m : Caller) (path : Path) (mem : Memory) : Prop := 0 < m.len ∧ m.Grows path ∧ mem.realloc ∧ mem.moves

instance (m : Caller) (path : Path) (mem : Memory) : Decidable (m.Dangles path mem) := by
  unfold Dangles
  infer_instance

/-- The current directory is copied; without memory for it, it is the root. -/
def setCwd (m : Caller) (path : Path) (realloc : Bool) : Caller :=
  if path.length > m.cwdLen then
    if realloc then { m with cwd := path, cwdLen := path.length } else { m with cwd := ['/'], cwdLen := m.own }
  else { m with cwd := path }

end Caller

/-- A call of `parse_path`; one with what it has returned (in `fs_chmod`); `vfs_chdir` with the answer of the file system; `fs_chdir`,
which is given the rest of a directory behind its mount, or nothing; `vfs_unmount` or `fs_format`. -/
inductive Call
  | parse (path : Path) (mem : Memory)
  | again (mem : Memory)
  | chdir (path : Path) (mem : Memory) (ok realloc : Bool)
  | fsChdir (dir : Option Dir) (mem : Memory) (ok realloc : Bool)
  | root

/-- The argument of `fs_chdir`. -/
def dirName (dir : Option Dir) : Path := dir.elim [] fun d => render d.1

/-- `*path ? path : "/"` -/
def orRoot (path : Path) : Path := if path = [] then ['/'] else path

def Call.exec (m : Caller) : Call → Caller
  | .parse path mem => m.parse path mem
  | .again mem =>
      match m.returned with
      | none => m
      | some r => { m.parse r.result mem with inside := (m.parse r.result mem).inside && !m.Dangles r.result mem }
  | .chdir path mem ok realloc => if ok then (m.parse path mem).setCwd (m.result path mem) realloc else m.parse path mem
  | .fsChdir dir mem ok realloc =>
      let path := orRoot (dirName dir)
      if ok then (m.parse path mem).setCwd path realloc else m.parse path mem
  | .root => { m with cwd := ['/'] }

def pathStep (m : Caller) (c : Call) : Option Caller := some (c.exec m)

/-! ## What is to hold -/

/-- `path` has been resolved against the directory, the result is well formed, and resolves to itself from everywhere. -/
structure Resolved (cwd path result : Path) : Prop where
  wellFormed : WellFormed result
  resolves : ∀ d : Dir, cwd = render d.1 → result = render (resolve d.1 path)
  idempotent : ∀ cwd', parsePath cwd' result = result

/-- All accesses have been inside, and the path was resolved. -/
structure Parses (m : Caller) : Prop where
  inside : m.inside = true
  directory : ∃ d : Dir, m.cwd = render d.1
  returned : ∀ r ∈ m.returned, Resolved r.cwd r.path r.result

/-- A relative path without empty components, `.` and `..`. -/
def Plain (path : Path) : Prop := path.head? ≠ some '/' ∧ ∀ c ∈ path.splitOn '/', c ≠ [] ∧ c ≠ ['.'] ∧ c ≠ ['.', '.']

instance (path : Path) : Decidable (Plain path) := by
  unfold Plain
  infer_instance

/-- The buffer has room for the path and its terminator: a plain path below another directory than the root needs one more character
than the call asks for. -/
def Fits (m : Caller) (path : Path) : Prop :=
  m.cwd ≠ ['/'] → Plain path →
    m.len ≠ m.cwd.length + path.length + 1 ∧ (m.len < m.cwd.length + path.length + 1 → m.cwd.length < 50)

instance (m : Caller) (path : Path) : Decidable (Fits m path) := by
  unfold Fits
  infer_instance

def Call.Fits (m : Caller) : Call → Prop
  | .parse path mem | .chdir path mem _ _ =>
      if m.NoBuffer path mem ∨ mem.malloc = false then parsePath m.cwd path = path else Vfs.Fits m path
  | .again mem => ∀ r ∈ m.returned, ¬ m.Dangles r.result mem
  | .fsChdir _ _ _ _ | .root => True

/-! ## Resolving -/

theorem dropWhile_reverse_append {a b : Path} (hb : '/' ∉ b) :
    (a ++ '/' :: b).reverse.dropWhile (· ≠ '/') = '/' :: a.reverse := by
  rw [List.reverse_append, List.reverse_cons, List.append_assoc, List.dropWhile_append_of_pos, List.singleton_append,
    List.dropWhile_cons_of_neg (by simp)]
  intro c hc
  rw [List.mem_reverse] at hc
  exact decide_eq_true fun h => hb (h ▸ hc)

theorem parseElement_render {names : List Path} (hnames : ∀ n ∈ names, IsName n) {el : Path} (hel : el ≠ []) :
    parseElement (render names) el = render (walkElement names el) := by
  unfold parseElement walkElement
  by_cases hup : el = ['.', '.']
  · rw [if_pos hup, if_pos hup]
    rcases List.eq_nil_or_concat' names with rfl | ⟨ns, n, rfl⟩
    · rfl
    · rw [List.dropLast_concat, render_concat, dropWhile_reverse_append (hnames n (by simp)).2.1, List.reverse_cons, List.reverse_reverse]
      split
      · rename_i h
        cases List.append_ne_nil_of_right_ne_nil _ (List.cons_ne_nil _ _) h
      · rename_i c h
        by_cases hns : ns = []
        · subst hns
          exact h.symm
        · rw [if_neg hns] at h
          have hlen := congrArg List.length h
          rw [List.length_append, List.length_singleton, List.length_singleton] at hlen
          have := List.length_pos_iff.2 (show render ns ≠ [] from fun h0 => by have := render_head ns; rw [h0] at this; cases this)
          omega
      · rename_i c d l h
        by_cases hns : ns = []
        · subst hns
          cases h
        · rw [if_neg hns] at h
          rw [← h, List.dropLast_concat]
  rw [if_neg hup, if_neg hup]
  by_cases hdot : el = ['.']
  · rw [if_pos hdot, if_pos (.inr hdot)]
  rw [if_neg hdot, if_neg (not_or.2 ⟨hel, hdot⟩), render_concat]
  by_cases hroot : names = []
  · rw [hroot]
    rfl
  · have hlen : (render names).length ≠ 1 := by
      intro hone
      obtain ⟨c, hc⟩ := List.length_eq_one_iff.1 hone
      have hhead := render_head names
      rw [hc] at hhead
      cases hhead
      exact render_ne_root hroot hnames hc
    rw [if_neg hlen, if_neg hroot]

theorem foldl_parseElement {els : List Path} (hels : ∀ el ∈ els, '/' ∉ el) (names : List Path) (hnames : ∀ n ∈ names, IsName n) :
    (els.filter (· ≠ [])).foldl parseElement (render names) = render (els.foldl walkElement names) := by
  induction els generalizing names with
  | nil => rfl
  | cons el els ih =>
      have hrest : ∀ e ∈ els, '/' ∉ e := fun e he => hels e (List.mem_cons_of_mem _ he)
      have hwalk := isName_walkElement hnames (hels el List.mem_cons_self)
      by_cases hel : el = []
      · have hkeep : walkElement names [] = names := by
          rw [walkElement, if_neg (by decide), if_pos (.inl rfl)]
        rw [hel, List.filter_cons_of_neg (by simp), List.foldl_cons, hkeep]
        exact ih hrest names hnames
      · rw [List.filter_cons_of_pos (by simpa using hel), List.foldl_cons, List.foldl_cons, parseElement_render hnames hel]
        exact ih hrest _ hwalk

/-- `parse_path` resolves the path. -/
theorem parsePath_eq {names : List Path} (hnames : ∀ n ∈ names, IsName n) (path : Path) :
    parsePath (render names) path = render (resolve names path) := by
  rw [parsePath, resolve]
  split
  · exact foldl_parseElement (not_mem_of_mem_splitOn path) [] fun n hn => absurd hn List.not_mem_nil
  · exact foldl_parseElement (not_mem_of_mem_splitOn path) names hnames

theorem parsePath_absolute {path : Path} (h : path.head? = some '/') (cwd cwd' : Path) : parsePath cwd path = parsePath cwd' path := by
  rw [parsePath, parsePath, if_pos h, if_pos h]

theorem parsePath_render (d : Dir) (cwd : Path) : parsePath cwd (render d.1) = render d.1 := by
  rw [parsePath_absolute (render_head _) cwd (render []), parsePath_eq (show ∀ n ∈ ([] : List Path), IsName n from fun n hn => absurd hn List.not_mem_nil),
    resolve_render d.2]

theorem resolved (d : Dir) (path : Path) : Resolved (render d.1) path (parsePath (render d.1) path) := by
  have hpath := parsePath_eq d.2 path
  have hnames := isName_resolve d.2 path
  refine ⟨hpath ▸ render_wellFormed hnames, fun d' hd' => hd' ▸ parsePath_eq d'.2 path, fun cwd' => ?_⟩
  rw [hpath]
  exact parsePath_render ⟨_, hnames⟩ cwd'

theorem Resolved.eq {cwd path result : Path} (h : Resolved cwd path result) (d : Dir) (hcwd : cwd = render d.1) :
    result = parsePath cwd path := by
  rw [h.resolves d hcwd, hcwd, parsePath_eq d.2]

theorem resolved_iff {cwd path result : Path} (d : Dir) (hcwd : cwd = render d.1) : Resolved cwd path result ↔ parsePath cwd path = result := by
  constructor
  · exact fun h => (h.eq d hcwd).symm
  · rintro rfl
    rw [hcwd]
    exact resolved d path

/-! ## Lengths -/

/-- What an element adds to the path. -/
def grow (el : Path) : ℕ := if el = [] ∨ el = ['.'] ∨ el = ['.', '.'] then 0 else el.length + 1

theorem mem_stores {i k : ℕ} {s : Path} : k ∈ stores i s ↔ i ≤ k ∧ k ≤ i + s.length := by
  rw [stores, List.mem_map]
  constructor
  · rintro ⟨j, hj, rfl⟩
    rw [List.mem_range] at hj
    omega
  · intro h
    exact ⟨k - i, List.mem_range.2 (by omega), by omega⟩

theorem length_parseElement_up (abspath : Path) (h : abspath ≠ []) :
    1 ≤ (parseElement abspath ['.', '.']).length ∧ (parseElement abspath ['.', '.']).length ≤ abspath.length := by
  have hsub : (abspath.reverse.dropWhile (· ≠ '/')).reverse.length ≤ abspath.length := by
    rw [List.length_reverse, ← @List.length_reverse _ abspath]
    exact (List.dropWhile_suffix _).length_le
  unfold parseElement
  rw [if_pos rfl]
  split
  · exact ⟨List.length_pos_iff.2 h, Nat.le_refl _⟩
  · rename_i c hc
    rw [hc] at hsub
    exact ⟨Nat.le_refl _, hsub⟩
  · rename_i c d l hc
    rw [hc] at hsub
    rw [List.length_dropLast]
    simp only [List.length_cons] at hsub ⊢
    omega

theorem length_parseElement {abspath el : Path} (h : abspath ≠ []) (hel : el ≠ []) :
    1 ≤ (parseElement abspath el).length ∧
      (parseElement abspath el).length ≤ if abspath.length = 1 then max 1 (grow el) else abspath.length + grow el := by
  have hpos := List.length_pos_iff.2 h
  by_cases hup : el = ['.', '.']
  · obtain ⟨hone, hle⟩ := length_parseElement_up abspath h
    rw [hup]
    refine ⟨hone, ?_⟩
    split <;> omega
  by_cases hdot : el = ['.']
  · have heq : parseElement abspath el = abspath := by
      rw [parseElement, if_neg hup, if_pos hdot]
    rw [heq]
    refine ⟨hpos, ?_⟩
    split <;> omega
  have hgrow : grow el = el.length + 1 := by
    rw [grow, if_neg]
    rintro (h | h | h)
    · exact hel h
    · exact hdot h
    · exact hup h
  rw [parseElement, if_neg hup, if_neg hdot, hgrow]
  by_cases hone : abspath.length = 1
  · rw [if_pos hone, if_pos hone, List.length_append]
    omega
  · rw [if_neg hone, if_neg hone, List.length_append, List.length_cons]
    omega

theorem le_of_mem_elementStores {abspath el : Path} (h : abspath ≠ []) {i : ℕ} (hi : i ∈ elementStores abspath el) :
    i ≤ max abspath.length (parseElement abspath el).length := by
  have hpos := List.length_pos_iff.2 h
  unfold elementStores at hi
  split at hi
  · have hsub : (abspath.reverse.dropWhile (· ≠ '/')).length ≤ abspath.length := by
      rw [← @List.length_reverse _ abspath]
      exact (List.dropWhile_suffix _).length_le
    split at hi
    · cases hi
    · rename_i p hp
      rw [List.mem_singleton] at hi
      split at hi <;> omega
  · rename_i hup
    split at hi
    · cases hi
    · rename_i hdot
      rw [parseElement, if_neg hup, if_neg hdot]
      split at hi
      · rename_i hone
        rw [if_pos hone, List.length_append]
        rw [mem_stores] at hi
        omega
      · rename_i hone
        rw [if_neg hone, List.length_append, List.length_cons]
        rcases List.mem_append.1 hi with hi | hi
        · rw [mem_stores, List.length_singleton] at hi
          omega
        · rw [mem_stores] at hi
          omega

theorem ne_nil_of_length {l : Path} (h : 1 ≤ l.length) : l ≠ [] := List.length_pos_iff.1 h

theorem le_of_mem_loopStores {els : List Path} (hels : ∀ el ∈ els, el ≠ []) {abspath : Path} (h : abspath ≠ []) {i : ℕ}
    (hi : i ∈ loopStores abspath els) : i ≤ abspath.length + (els.map grow).sum := by
  induction els generalizing abspath with
  | nil => cases hi
  | cons el els ih =>
      have hpos := List.length_pos_iff.2 h
      obtain ⟨hone, hle⟩ := length_parseElement h (hels el List.mem_cons_self)
      have hle' : (parseElement abspath el).length ≤ abspath.length + grow el := by
        split at hle <;> omega
      rw [List.map_cons, List.sum_cons]
      rcases List.mem_append.1 hi with hi | hi
      · have := le_of_mem_elementStores h hi
        omega
      · have := ih (fun e he => hels e (List.mem_cons_of_mem _ he)) (ne_nil_of_length hone) hi
        omega

theorem le_of_mem_loopStores_root {els : List Path} (hels : ∀ el ∈ els, el ≠ []) {abspath : Path} (h : abspath ≠ []) {n i : ℕ}
    (hn : abspath.length ≤ max 1 n) (hi : i ∈ loopStores abspath els) : i ≤ max 1 (n + (els.map grow).sum) := by
  induction els generalizing abspath n with
  | nil => cases hi
  | cons el els ih =>
      have hpos := List.length_pos_iff.2 h
      obtain ⟨hone, hle⟩ := length_parseElement h (hels el List.mem_cons_self)
      have hle' : (parseElement abspath el).length ≤ max 1 (n + grow el) := by
        split at hle <;> omega
      rw [List.map_cons, List.sum_cons]
      rcases List.mem_append.1 hi with hi | hi
      · have := le_of_mem_elementStores h hi
        omega
      · have := ih (fun e he => hels e (List.mem_cons_of_mem _ he)) (ne_nil_of_length hone) hle' hi
        omega

/-! ## Paths -/

theorem grow_le (el : Path) : grow el ≤ el.length + 1 := by
  unfold grow
  split <;> omega

theorem sum_grow_filter (els : List Path) : ((els.filter (· ≠ [])).map grow).sum = (els.map grow).sum := by
  induction els with
  | nil => rfl
  | cons el els ih =>
      by_cases hel : el = []
      · rw [hel, List.filter_cons_of_neg (by simp), ih, List.map_cons, List.sum_cons, show grow [] = 0 from rfl, Nat.zero_add]
      · rw [List.filter_cons_of_pos (by simpa using hel), List.map_cons, List.map_cons, List.sum_cons, List.sum_cons, ih]

theorem sum_grow_le (els : List Path) :
    (els.map grow).sum ≤ (els.map fun el => el.length + 1).sum ∧
      ((∃ c ∈ els, ¬ (c ≠ [] ∧ c ≠ ['.'] ∧ c ≠ ['.', '.'])) → (els.map grow).sum < (els.map fun el => el.length + 1).sum) := by
  induction els with
  | nil => exact ⟨Nat.le_refl _, fun ⟨_, hc, _⟩ => absurd hc List.not_mem_nil⟩
  | cons el els ih =>
      have hel := grow_le el
      rw [List.map_cons, List.map_cons, List.sum_cons, List.sum_cons]
      refine ⟨by omega, ?_⟩
      rintro ⟨c, hc, hspecial⟩
      rcases List.mem_cons.1 hc with rfl | hc
      · have hzero : grow c = 0 := by
          rw [grow, if_pos]
          by_contra hnot
          rw [not_or, not_or] at hnot
          exact hspecial hnot
        omega
      · have := ih.2 ⟨c, hc, hspecial⟩
        omega

theorem mem_loopStores_plain {els : List Path} (hels : ∀ c ∈ els, c ≠ [] ∧ c ≠ ['.'] ∧ c ≠ ['.', '.']) (hne : els ≠ [])
    {abspath : Path} (h : 2 ≤ abspath.length) : abspath.length + (els.map fun el => el.length + 1).sum ∈ loopStores abspath els := by
  induction els generalizing abspath with
  | nil => exact absurd rfl hne
  | cons el els ih =>
      obtain ⟨hel, hdot, hup⟩ := hels el List.mem_cons_self
      have hone : abspath.length ≠ 1 := by omega
      have helement : parseElement abspath el = abspath ++ '/' :: el := by
        rw [parseElement, if_neg hup, if_neg hdot, if_neg hone]
      have hlength : (parseElement abspath el).length = abspath.length + (el.length + 1) := by
        rw [helement, List.length_append, List.length_cons]
      rw [loopStores, List.map_cons, List.sum_cons, ← Nat.add_assoc, ← hlength]
      by_cases hlast : els = []
      · subst hlast
        refine List.mem_append_left _ ?_
        rw [elementStores, if_neg hup, if_neg hdot, if_neg hone, hlength]
        refine List.mem_append_right _ (mem_stores.2 ?_)
        simp only [List.map_nil, List.sum_nil]
        omega
      · exact List.mem_append_right _ (ih (fun c hc => hels c (List.mem_cons_of_mem _ hc)) hlast (by omega))

theorem lt_bufferLen (cwd path : Path) (len : ℕ) : cwd.length + path.length < bufferLen cwd path len := by
  unfold bufferLen
  split <;> omega

theorem lt_bufferLen_iff (cwd path : Path) (len : ℕ) :
    cwd.length + path.length + 1 < bufferLen cwd path len ↔
      len ≠ cwd.length + path.length + 1 ∧ (len < cwd.length + path.length + 1 → cwd.length < 50) := by
  unfold bufferLen
  split <;> omega

def added (path : Path) : ℕ := (((path.splitOn '/').filter (· ≠ [])).map grow).sum

theorem added_le (path : Path) : added path ≤ path.length + 1 := by
  rw [added, sum_grow_filter, ← sum_splitOn path]
  exact (sum_grow_le _).1

theorem added_lt (path : Path) (h : ∃ c ∈ path.splitOn '/', ¬ (c ≠ [] ∧ c ≠ ['.'] ∧ c ≠ ['.', '.'])) : added path ≤ path.length :=
  Nat.lt_succ_iff.1 (by
    rw [added, sum_grow_filter, Nat.succ_eq_add_one, ← sum_splitOn path]
    exact (sum_grow_le _).2 h)

theorem forall_mem_elements (path : Path) : ∀ el ∈ (path.splitOn '/').filter (· ≠ []), el ≠ [] :=
  fun el hel => by simpa using (List.mem_filter.1 hel).2

theorem length_root : (['/'] : Path).length = 1 := rfl

theorem lt_of_mem_root {path : Path} {n b : ℕ} (hb : 1 + n < b) (hadd : added path ≤ n + 1) {i : ℕ}
    (hi : i ∈ stores 0 ['/'] ++ loopStores ['/'] ((path.splitOn '/').filter (· ≠ []))) : i < b := by
  rcases List.mem_append.1 hi with hi | hi
  · rw [mem_stores, length_root] at hi
    omega
  · have := le_of_mem_loopStores_root (n := 0) (forall_mem_elements path) (List.cons_ne_nil _ _) (by decide) hi
    rw [Nat.zero_add, ← added] at this
    omega

theorem le_of_mem_cwd {cwd path : Path} (h : cwd ≠ []) {i : ℕ}
    (hi : i ∈ stores 0 cwd ++ loopStores cwd ((path.splitOn '/').filter (· ≠ []))) : i ≤ cwd.length + added path := by
  rcases List.mem_append.1 hi with hi | hi
  · rw [mem_stores] at hi
    omega
  · exact le_of_mem_loopStores (forall_mem_elements path) h hi

theorem mem_cwd_plain {cwd path : Path} (hcwd : 2 ≤ cwd.length) (hplain : ∀ c ∈ path.splitOn '/', c ≠ [] ∧ c ≠ ['.'] ∧ c ≠ ['.', '.']) :
    cwd.length + path.length + 1 ∈ stores 0 cwd ++ loopStores cwd ((path.splitOn '/').filter (· ≠ [])) := by
  have hlast := mem_loopStores_plain hplain (List.splitOn_ne_nil _ _) hcwd
  rw [sum_splitOn, ← Nat.add_assoc] at hlast
  rw [List.filter_eq_self.2 fun c hc => decide_eq_true (hplain c hc).1]
  exact List.mem_append_right _ hlast

theorem two_le_length_render {names : List Path} (h : render names ≠ ['/']) : 2 ≤ (render names).length := by
  by_contra hlt
  have hhead := render_head names
  match hr : render names, hlt with
  | [], _ => rw [hr] at hhead; cases hhead
  | [c], _ =>
      rw [hr] at hhead h
      cases hhead
      exact h rfl
  | _ :: _ :: _, hlt => exact hlt (by simp)

theorem inside_iff (d : Dir) (path : Path) (len : ℕ) :
    (parseStores (render d.1) path).all (· < bufferLen (render d.1) path len) = true ↔
      (render d.1 ≠ ['/'] → Plain path →
        len ≠ (render d.1).length + path.length + 1 ∧ (len < (render d.1).length + path.length + 1 → (render d.1).length < 50)) := by
  rw [List.all_eq_true]
  have hlen := lt_bufferLen (render d.1) path len
  by_cases habs : path.head? = some '/'
  · refine iff_of_true (fun i hi => ?_) fun _ hplain => absurd habs hplain.1
    rw [parseStores, if_pos habs] at hi
    have hne : render d.1 ≠ [] := fun h => by
      have hhead := render_head d.1
      rw [h] at hhead
      cases hhead
    have hpos := List.length_pos_iff.2 hne
    exact decide_eq_true (lt_of_mem_root (by omega) (added_le path) hi)
  rw [parseStores, if_neg habs]
  by_cases hcwd : render d.1 = ['/']
  · refine iff_of_true (fun i hi => ?_) fun hne => absurd hcwd hne
    rw [hcwd] at hlen hi ⊢
    exact decide_eq_true (lt_of_mem_root hlen (added_le path) hi)
  have htwo := two_le_length_render hcwd
  have hne : render d.1 ≠ [] := List.length_pos_iff.1 (by omega)
  rw [← lt_bufferLen_iff]
  by_cases hplain : ∀ c ∈ path.splitOn '/', c ≠ [] ∧ c ≠ ['.'] ∧ c ≠ ['.', '.']
  · constructor
    · exact fun h _ _ => of_decide_eq_true (h _ (mem_cwd_plain htwo hplain))
    · intro h i hi
      have hroom := h hcwd ⟨habs, hplain⟩
      have hle := le_of_mem_cwd hne hi
      have hadd := added_le path
      exact decide_eq_true (by omega)
  · refine iff_of_true (fun i hi => ?_) fun _ h => absurd h.2 hplain
    have hle := le_of_mem_cwd hne hi
    have hadd := added_lt path (by simpa only [not_forall, exists_prop] using hplain)
    exact decide_eq_true (by omega)

/-! ## Calls -/

theorem length_lt_bufferLen (cwd path : Path) (len : ℕ) : path.length < bufferLen cwd path len := by
  have := lt_bufferLen cwd path len
  omega

/-- One call of `parse_path`. -/
theorem parse_iff {m : Caller} (hm : Parses m) (path : Path) (mem : Memory) :
    Parses (m.parse path mem) ↔
      if m.NoBuffer path mem ∨ mem.malloc = false then parsePath m.cwd path = path else Fits m path := by
  obtain ⟨d, hd⟩ := hm.directory
  have hparses : Parses (m.parse path mem) ↔
      (m.parse path mem).inside = true ∧ parsePath m.cwd path = m.result path mem := by
    constructor
    · exact fun h => ⟨h.inside, ((h.returned _ rfl).eq d hd).symm⟩
    · rintro ⟨hinside, hresult⟩
      refine ⟨hinside, ⟨d, hd⟩, fun r hr => ?_⟩
      cases hr
      exact (resolved_iff d hd).2 hresult
  rw [hparses]
  unfold Caller.parse Caller.result
  by_cases hno : m.NoBuffer path mem
  · simp [hno, hm.inside]
  by_cases hmalloc : mem.malloc = false
  · have hall : (stores 0 path).all (· < bufferLen m.cwd path m.len) = true := by
      rw [List.all_eq_true]
      intro i hi
      rw [mem_stores] at hi
      have := length_lt_bufferLen m.cwd path m.len
      exact decide_eq_true (by omega)
    simp only [hno, hmalloc, if_false, or_true, if_true, Bool.false_eq_true, hm.inside, Bool.true_and]
    exact and_iff_right hall
  · have hinside := inside_iff d path m.len
    rw [← hd] at hinside
    rw [Bool.not_eq_false] at hmalloc
    simp only [hno, hmalloc, if_false, or_self, if_true, Bool.true_eq_false, hm.inside, Bool.true_and, and_true]
    exact hinside

theorem Caller.setCwd_inside (m : Caller) (path : Path) (realloc : Bool) : (m.setCwd path realloc).inside = m.inside := by
  unfold Caller.setCwd
  split
  · split <;> rfl
  · rfl

theorem Caller.setCwd_returned (m : Caller) (path : Path) (realloc : Bool) : (m.setCwd path realloc).returned = m.returned := by
  unfold Caller.setCwd
  split
  · split <;> rfl
  · rfl

theorem Caller.setCwd_cwd (m : Caller) (path : Path) (realloc : Bool) :
    (m.setCwd path realloc).cwd = ['/'] ∨ (m.setCwd path realloc).cwd = path := by
  unfold Caller.setCwd
  split
  · split
    · exact .inr rfl
    · exact .inl rfl
  · exact .inr rfl

theorem exists_root : ∃ d : Dir, (['/'] : Path) = render d.1 := ⟨⟨[], fun _ hn => absurd hn List.not_mem_nil⟩, rfl⟩

theorem Parses.setCwd {m : Caller} (h : Parses m) {path : Path} (hpath : ∃ d : Dir, path = render d.1) (realloc : Bool) :
    Parses (m.setCwd path realloc) := by
  refine ⟨m.setCwd_inside path realloc ▸ h.inside, ?_, m.setCwd_returned path realloc ▸ h.returned⟩
  rcases m.setCwd_cwd path realloc with hcwd | hcwd
  · rw [hcwd]
    exact exists_root
  · rw [hcwd]
    exact hpath

theorem orRoot_dirName (dir : Option Dir) : ∃ d : Dir, orRoot (dirName dir) = render d.1 := by
  cases dir with
  | none => exact ⟨⟨[], fun n hn => absurd hn List.not_mem_nil⟩, rfl⟩
  | some d =>
      refine ⟨d, if_neg fun h => ?_⟩
      have hhead := render_head d.1
      rw [show render d.1 = [] from h] at hhead
      cases hhead

theorem parse_render {m : Caller} (hm : Parses m) (d : Dir) (mem : Memory) : Parses (m.parse (render d.1) mem) := by
  rw [parse_iff hm]
  split
  · exact parsePath_render d m.cwd
  · exact fun _ hplain => absurd (render_head d.1) hplain.1

theorem exec_iff {m : Caller} (hm : Parses m) (c : Call) : Parses (c.exec m) ↔ c.Fits m := by
  cases c with
  | parse path mem => exact parse_iff hm path mem
  | again mem =>
      unfold Call.exec Call.Fits
      dsimp only
      split
      · rename_i hnone
        rw [hnone]
        exact iff_of_true hm fun r hr => nomatch hr
      · rename_i r hr
        have hresolved := hm.returned r hr
        obtain ⟨d, hd⟩ : ∃ d : Dir, r.result = render d.1 := by
          obtain ⟨names, hnames⟩ := hm.directory
          refine ⟨⟨resolve [] r.result, isName_resolve (fun n hn => absurd hn List.not_mem_nil) _⟩, ?_⟩
          rw [← parsePath_eq (fun n hn => absurd hn List.not_mem_nil), hresolved.idempotent]
        have hparse : Parses (m.parse r.result mem) := hd ▸ parse_render hm d mem
        constructor
        · intro h r' hr' hdangles
          rw [hr] at hr'
          cases hr'
          have hinside := h.inside
          rw [decide_eq_true hdangles, Bool.not_true, Bool.and_false] at hinside
          cases hinside
        · intro h
          refine ⟨?_, hparse.directory, hparse.returned⟩
          rw [decide_eq_false (h r hr), hparse.inside]
          rfl
  | chdir path mem ok realloc =>
      unfold Call.exec
      cases ok with
      | false => exact parse_iff hm path mem
      | true =>
          change Parses ((m.parse path mem).setCwd (m.result path mem) realloc) ↔ _
          rw [Call.Fits, ← parse_iff hm path mem]
          constructor
          · intro h
            refine ⟨Caller.setCwd_inside .. ▸ h.inside, hm.directory, Caller.setCwd_returned .. ▸ h.returned⟩
          · intro h
            obtain ⟨d, hd⟩ := hm.directory
            exact h.setCwd ⟨⟨_, isName_resolve d.2 path⟩, (h.returned _ rfl).resolves d hd⟩ realloc
  | fsChdir dir mem ok realloc =>
      obtain ⟨d, hd⟩ := orRoot_dirName dir
      have hparse : Parses (m.parse (orRoot (dirName dir)) mem) := hd ▸ parse_render hm d mem
      refine iff_of_true ?_ trivial
      cases ok with
      | false => exact hparse
      | true => exact hparse.setCwd ⟨d, hd⟩ realloc
  | root => exact iff_of_true ⟨hm.inside, exists_root, hm.returned⟩ trivial

/-- All along a run the stores are inside and the paths are resolved exactly if every call fits. -/
theorem parses_iff (own : ℕ) (cs : List Call) :
    (∀ p m, p <+: cs → run pathStep { own := own } p = some m → Parses m) ↔ Along pathStep (fun m c => c.Fits m) { own := own } cs :=
  always_iff_along (fun m c => ⟨c.exec m, rfl⟩) (fun _ h => h)
    (fun m c m' hm hfits hstep => by
      cases hstep
      exact (exec_iff hm c).2 hfits)
    (fun m c m' hm hstep hm' => by
      cases hstep
      exact (exec_iff hm c).1 hm')
    cs _ ⟨rfl, exists_root, fun _ hr => nomatch hr⟩

/-- The buffer is 61 characters long, the directory has 31 and the path 29: the separator between them is not counted. -/
theorem separator_is_not_counted :
    ¬ ∀ (own : ℕ) (cs : List Call) (m : Caller), run pathStep { own := own } cs = some m → Parses m := by
  intro h
  have hrun : (run pathStep { own := 100 } [.parse (List.replicate 10 'a') ⟨true, true, true⟩,
      .chdir (List.replicate 30 'b') ⟨true, true, true⟩ true true,
      .parse (List.replicate 29 'c') ⟨true, true, true⟩]).map Caller.inside = some false := by
    decide +kernel
  obtain ⟨m, hm, hinside⟩ := Option.map_eq_some_iff.1 hrun
  have := (h _ _ m hm).inside
  rw [hinside] at this
  cases this

end Grbl.Vfs
