import Mathlib

/-!
# Absolute paths

A directory is the list of the names that lead to it.

* `IsName`, `render` : names, and the path of a directory; `WellFormed` : what such a path is like;
* `walkElement`, `resolve` : where an element of a path, and a path, lead from a directory;
* `render_wellFormed`, `isName_resolve`, `resolve_render` : the paths of directories are well formed, resolving leads to
  directories, and the path of one leads there from everywhere;
* `climbs`, `resolve_relative` : a relative path takes names from the directory it starts in, and adds what it leads to from the root.
-/

namespace Grbl.Lib

/-- A name of a directory or a file. -/
def IsName (n : List Char) : Prop := n ≠ [] ∧ '/' ∉ n ∧ n ≠ ['.'] ∧ n ≠ ['.', '.']

/-- The path of a directory. -/
def render (names : List (List Char)) : List Char := if names = [] then ['/'] else names.flatMap ('/' :: ·)

def walkElement (names : List (List Char)) (el : List Char) : List (List Char) :=
  if el = ['.', '.'] then names.dropLast else if el = [] ∨ el = ['.'] then names else names ++ [el]

def resolve (cwd : List (List Char)) (path : List Char) : List (List Char) :=
  (path.splitOn '/').foldl walkElement (if path.head? = some '/' then [] else cwd)

/-- It starts with a separator; if it is not the root, no component is empty, `.` or `..`, and it does not end with one. -/
structure WellFormed (path : List Char) : Prop where
  absolute : path.head? = some '/'
  components : path ≠ ['/'] → ∀ c ∈ path.tail.splitOn '/', c ≠ [] ∧ c ≠ ['.'] ∧ c ≠ ['.', '.']
  trailing : path ≠ ['/'] → path.getLast? ≠ some '/'

variable {names cwd : List (List Char)} {n el path : List Char}

/-! ## Paths of directories -/

theorem render_nil : render [] = ['/'] := rfl

theorem render_of_ne_nil (h : names ≠ []) : render names = names.flatMap ('/' :: ·) := if_neg h

theorem render_concat (names : List (List Char)) (n : List Char) :
    render (names ++ [n]) = (if names = [] then [] else render names) ++ '/' :: n := by
  rw [render_of_ne_nil (List.append_ne_nil_of_right_ne_nil _ (List.cons_ne_nil _ _)), List.flatMap_append, List.flatMap_singleton]
  split
  · rename_i h
    rw [h]
    rfl
  · rename_i h
    rw [render_of_ne_nil h]

theorem render_cons (n : List Char) (names : List (List Char)) : render (n :: names) = '/' :: ['/'].intercalate (n :: names) := by
  rw [render_of_ne_nil (List.cons_ne_nil _ _)]
  induction names generalizing n with
  | nil => rw [List.flatMap_singleton, List.intercalate_singleton]
  | cons n' names ih =>
      rw [List.flatMap_cons, ih, List.intercalate_cons_cons, List.cons_append, List.append_assoc, List.singleton_append]

theorem render_head (names : List (List Char)) : (render names).head? = some '/' := by
  cases names with
  | nil => rfl
  | cons n names =>
      rw [render_cons]
      rfl

theorem tail_render (hne : names ≠ []) : (render names).tail = ['/'].intercalate names := by
  cases names with
  | nil => exact absurd rfl hne
  | cons n names =>
      rw [render_cons]
      rfl

theorem splitOn_tail_render (hne : names ≠ []) (h : ∀ n ∈ names, IsName n) : (render names).tail.splitOn '/' = names := by
  rw [tail_render hne]
  exact List.splitOn_intercalate '/' (fun n hn => (h n hn).2.1) hne

theorem render_ne_root (hne : names ≠ []) (h : ∀ n ∈ names, IsName n) : render names ≠ ['/'] := by
  intro heq
  have hsplit := splitOn_tail_render hne h
  rw [heq, List.tail_cons, List.splitOn_nil] at hsplit
  exact (h [] (hsplit ▸ List.mem_singleton_self _)).1 rfl

theorem render_wellFormed (h : ∀ n ∈ names, IsName n) : WellFormed (render names) := by
  refine ⟨render_head names, fun hroot c hc => ?_, fun hroot hlast => ?_⟩
  · have hne : names ≠ [] := fun hnil => hroot (by rw [hnil, render_nil])
    rw [splitOn_tail_render hne h] at hc
    exact ⟨(h c hc).1, (h c hc).2.2⟩
  · have hne : names ≠ [] := fun hnil => hroot (by rw [hnil, render_nil])
    obtain ⟨ns, n, rfl⟩ := List.eq_nil_or_concat' names |>.resolve_left hne
    have hn := h n (List.mem_append_right _ (List.mem_singleton_self _))
    rw [render_concat, List.getLast?_append_of_ne_nil _ (List.cons_ne_nil _ _), List.getLast?_cons_of_ne_nil hn.1] at hlast
    exact hn.2.1 (List.mem_of_getLast? hlast)

/-! ## Resolving -/

theorem isName_walkElement (hnames : ∀ n ∈ names, IsName n) (hel : '/' ∉ el) : ∀ n ∈ walkElement names el, IsName n := by
  intro n hn
  unfold walkElement at hn
  split at hn
  · exact hnames n ((List.dropLast_prefix names).subset hn)
  · rename_i hup
    split at hn
    · exact hnames n hn
    · rename_i hkeep
      rw [not_or] at hkeep
      rcases List.mem_append.1 hn with hn | hn
      · exact hnames n hn
      · rw [List.mem_singleton.1 hn]
        exact ⟨hkeep.1, hel, hkeep.2, hup⟩

theorem isName_foldl_walkElement {els : List (List Char)} (hels : ∀ el ∈ els, '/' ∉ el) (hnames : ∀ n ∈ names, IsName n) :
    ∀ n ∈ els.foldl walkElement names, IsName n := by
  induction els generalizing names with
  | nil => exact hnames
  | cons el els ih =>
      exact ih (fun e he => hels e (List.mem_cons_of_mem _ he)) (isName_walkElement hnames (hels el List.mem_cons_self))

theorem walkElement_isName (hn : IsName n) : walkElement names n = names ++ [n] := by
  rw [walkElement, if_neg hn.2.2.2, if_neg (not_or.2 ⟨hn.1, hn.2.2.1⟩)]

theorem foldl_walkElement_isName (h : ∀ n ∈ names, IsName n) (start : List (List Char)) : names.foldl walkElement start = start ++ names := by
  induction names generalizing start with
  | nil => exact (List.append_nil _).symm
  | cons n names ih =>
      rw [List.foldl_cons, walkElement_isName (h n List.mem_cons_self), ih fun n hn => h n (List.mem_cons_of_mem _ hn),
        List.append_assoc, List.singleton_append]

/-! ## Elements -/

theorem not_mem_of_mem_splitOn (path : List Char) : ∀ el ∈ path.splitOn '/', '/' ∉ el := by
  induction path with
  | nil =>
      intro el hel
      rw [List.splitOn_nil, List.mem_singleton] at hel
      rw [hel]
      exact List.not_mem_nil
  | cons c path ih =>
      intro el hel
      rw [List.splitOn_cons_eq_if_modifyHead] at hel
      split at hel
      · rcases List.mem_cons.1 hel with rfl | hel
        · exact List.not_mem_nil
        · exact ih el hel
      · rename_i hc
        cases hsplit : path.splitOn '/' with
        | nil => exact absurd hsplit (List.splitOn_ne_nil _ _)
        | cons e els =>
            rw [hsplit] at hel ih
            rcases List.mem_cons.1 hel with rfl | hel
            · rintro hmem
              rcases List.mem_cons.1 hmem with rfl | hmem
              · exact hc (beq_self_eq_true _)
              · exact ih e List.mem_cons_self hmem
            · exact ih el (List.mem_cons_of_mem _ hel)

theorem sum_splitOn (path : List Char) : ((path.splitOn '/').map fun el => el.length + 1).sum = path.length + 1 := by
  induction path with
  | nil => rfl
  | cons c path ih =>
      rw [List.splitOn_cons_eq_if_modifyHead, List.length_cons]
      split
      · rw [List.map_cons, List.sum_cons, ih, List.length_nil]
        omega
      · cases hsplit : path.splitOn '/' with
        | nil => exact absurd hsplit (List.splitOn_ne_nil _ _)
        | cons e els =>
            rw [hsplit, List.map_cons, List.sum_cons] at ih
            rw [List.modifyHead_cons, List.map_cons, List.sum_cons, List.length_cons]
            omega

theorem isName_resolve (hcwd : ∀ n ∈ cwd, IsName n) (path : List Char) : ∀ n ∈ resolve cwd path, IsName n := by
  refine isName_foldl_walkElement (not_mem_of_mem_splitOn path) ?_
  split
  · exact fun n hn => absurd hn List.not_mem_nil
  · exact hcwd

theorem resolve_render (h : ∀ n ∈ names, IsName n) (cwd : List (List Char)) : resolve cwd (render names) = names := by
  rw [resolve, if_pos (render_head names)]
  cases names with
  | nil => rfl
  | cons n names =>
      have hsplit := splitOn_tail_render (List.cons_ne_nil n names) h
      rw [render_cons, List.tail_cons] at hsplit
      rw [render_cons, List.splitOn_cons_eq_if_modifyHead, if_pos (beq_self_eq_true _), hsplit, List.foldl_cons,
        show walkElement [] [] = [] from rfl, foldl_walkElement_isName h, List.nil_append]

/-! ## Climbing -/

/-- How far elements climb above a directory, when they start `depth` below it. -/
def climb : ℕ → List (List Char) → ℕ
  | _, [] => 0
  | depth, el :: els =>
      if el = ['.', '.'] then
        match depth with
        | 0 => climb 0 els + 1
        | depth + 1 => climb depth els
      else if el = [] ∨ el = ['.'] then climb depth els
      else climb (depth + 1) els

/-- How far a relative path climbs above the directory it starts in. -/
def climbs (path : List Char) : ℕ := climb 0 (path.splitOn '/')

theorem climb_up (els : List (List Char)) : climb 0 (['.', '.'] :: els) = climb 0 els + 1 := by
  rw [climb.eq_def]
  rfl

theorem climb_back (depth : ℕ) (els : List (List Char)) : climb (depth + 1) (['.', '.'] :: els) = climb depth els := by
  rw [climb.eq_def]
  rfl

theorem climb_keep (hup : el ≠ ['.', '.']) (h : el = [] ∨ el = ['.']) (depth : ℕ) (els : List (List Char)) :
    climb depth (el :: els) = climb depth els := by
  rw [climb.eq_def]
  dsimp only
  rw [if_neg hup, if_pos h]

theorem climb_down (hup : el ≠ ['.', '.']) (h : ¬ (el = [] ∨ el = ['.'])) (depth : ℕ) (els : List (List Char)) :
    climb depth (el :: els) = climb (depth + 1) els := by
  rw [climb.eq_def]
  dsimp only
  rw [if_neg hup, if_neg h]

theorem foldl_walkElement_append (els start below : List (List Char)) :
    els.foldl walkElement (start ++ below) = start.take (start.length - climb below.length els) ++ els.foldl walkElement below := by
  induction els generalizing start below with
  | nil => rw [climb, Nat.sub_zero, List.take_length, List.foldl_nil, List.foldl_nil]
  | cons el els ih =>
      rw [List.foldl_cons, List.foldl_cons]
      by_cases hup : el = ['.', '.']
      · have hwalk : ∀ names, walkElement names el = names.dropLast := fun names => if_pos hup
        rw [hwalk, hwalk, hup]
        rcases List.eq_nil_or_concat' below with rfl | ⟨bs, b, rfl⟩
        · have hup := ih start.dropLast []
          rw [List.append_nil] at hup
          rw [List.append_nil, hup, List.dropLast_nil, List.length_nil, List.length_dropLast, List.dropLast_eq_take,
            List.take_take, climb_up, Nat.sub_sub, Nat.add_comm 1, Nat.min_eq_left (by omega)]
        · rw [← List.append_assoc, List.dropLast_concat, List.dropLast_concat, List.length_append, List.length_singleton, climb_back]
          exact ih start bs
      · by_cases hkeep : el = [] ∨ el = ['.']
        · have hwalk : ∀ names, walkElement names el = names := fun names => by rw [walkElement, if_neg hup, if_pos hkeep]
          rw [hwalk, hwalk, climb_keep hup hkeep]
          exact ih start below
        · have hwalk : ∀ names, walkElement names el = names ++ [el] := fun names => by rw [walkElement, if_neg hup, if_neg hkeep]
          have hdown := ih start (below ++ [el])
          rw [List.length_append, List.length_singleton] at hdown
          rw [hwalk, hwalk, climb_down hup hkeep, List.append_assoc]
          exact hdown

theorem resolve_relative (h : path.head? ≠ some '/') (cwd : List (List Char)) :
    resolve cwd path = cwd.take (cwd.length - climbs path) ++ resolve [] path := by
  have happend := foldl_walkElement_append (path.splitOn '/') cwd []
  rw [List.append_nil] at happend
  rw [resolve, resolve, if_neg h, ite_self, happend]
  rfl

end Grbl.Lib
