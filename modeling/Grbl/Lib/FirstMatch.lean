import Mathlib

/-!
# The longest prefix in a table

* `Longest key table q a` : of the entries whose key is a prefix of `q`, `a` has the longest key;
* `DeepestFirst key table` : no entry stands in front of one whose key extends its own;
* `DeepestFirst.longest` : then the first match is the longest one;
* `DeepestFirst.concat`, `DeepestFirst.sublist` : an entry is added or removed.
-/

namespace Grbl.Lib

variable {α β : Type*} {key : α → List β} {table : List α} {q : List β} {a : α}

structure Longest (key : α → List β) (table : List α) (q : List β) (a : α) : Prop where
  mem : a ∈ table
  covers : key a <+: q
  longest : ∀ b ∈ table, key b <+: q → (key b).length ≤ (key a).length

def DeepestFirst (key : α → List β) (table : List α) : Prop := table.Pairwise fun a b => ¬ key a <+: key b

theorem DeepestFirst.longest [DecidableEq β] (h : DeepestFirst key table)
    (hfind : table.find? (fun a => key a <+: q) = some a) : Longest key table q a := by
  induction table with
  | nil => cases hfind
  | cons c table ih =>
      obtain ⟨hc, htable⟩ := List.pairwise_cons.1 h
      by_cases hq : key c <+: q
      · rw [List.find?_cons_of_pos (by simpa using hq)] at hfind
        cases hfind
        refine ⟨List.mem_cons_self .., hq, fun b hb hbq => ?_⟩
        rcases List.mem_cons.1 hb with rfl | hb
        · exact Nat.le_refl _
        · rcases List.prefix_or_prefix_of_prefix hq hbq with hcb | hbc
          · exact absurd hcb (hc b hb)
          · exact hbc.length_le
      · rw [List.find?_cons_of_neg (by simpa using hq)] at hfind
        obtain ⟨hmem, hcovers, hlongest⟩ := ih htable hfind
        refine ⟨List.mem_cons_of_mem _ hmem, hcovers, fun b hb hbq => ?_⟩
        rcases List.mem_cons.1 hb with rfl | hb
        · exact absurd hbq hq
        · exact hlongest b hb hbq

theorem DeepestFirst.sublist {table' : List α} (h : DeepestFirst key table) (hsub : List.Sublist table' table) :
    DeepestFirst key table' := List.Pairwise.sublist hsub h

theorem DeepestFirst.concat (h : DeepestFirst key table) (ha : ∀ b ∈ table, ¬ key b <+: key a) :
    DeepestFirst key (table ++ [a]) := by
  refine List.pairwise_append.2 ⟨h, List.pairwise_singleton _ _, fun b hb c hc => ?_⟩
  rw [List.mem_singleton.1 hc]
  exact ha b hb

theorem DeepestFirst.unique (h : DeepestFirst key table) {b : α} (ha : a ∈ table) (hb : b ∈ table) (hkey : key a = key b) :
    a = b := by
  induction table with
  | nil => cases ha
  | cons c table ih =>
      obtain ⟨hc, htable⟩ := List.pairwise_cons.1 h
      rcases List.mem_cons.1 ha with rfl | ha <;> rcases List.mem_cons.1 hb with rfl | hb
      · rfl
      · exact absurd (hkey ▸ List.prefix_rfl) (hc b hb)
      · exact absurd (hkey ▸ List.prefix_rfl) (hc a ‹a ∈ table›)
      · exact ih htable ha hb

end Grbl.Lib
