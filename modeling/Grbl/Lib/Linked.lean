import Mathlib

/-!
# Singly linked lists

The nodes of a list are the addresses `next` visits; the loops over them are bounded by a number of
steps that is at least the length of the list.

* `Segment`, `Linked` : what `next` visits from a pointer; `Linked.unique`, `Linked.nodup`,
  `Linked.length_le`;
* `Linked.insert`, `Linked.unlink` : one node is linked in or out after another;
* `scan`, `scan_linked` : the loop that looks for a node and keeps the one before it;
* `seek`, `seek_linked` : the loop that looks ahead and stops at the node before;
* `walk`, `walk_linked` : all nodes;
* `purge`, `purge_linked` : the loop that takes nodes out in place.
-/

namespace Grbl.Lib

variable {α : Type*}

/-- From `p`, `next` visits `l` and arrives at `q`. -/
def Segment (next : α → Option α) : Option α → List α → Option α → Prop
  | p, [], q => p = q
  | p, a :: l, q => p = some a ∧ Segment next (next a) l q

/-- The list that starts at `p` consists of the nodes `l`. -/
def Linked (next : α → Option α) (p : Option α) (l : List α) : Prop := Segment next p l none

section
variable {next next' : α → Option α} {p q : Option α} {l m : List α} {a b : α}

@[simp] theorem segment_nil : Segment next p [] q ↔ p = q := Iff.rfl

@[simp] theorem segment_cons : Segment next p (a :: l) q ↔ p = some a ∧ Segment next (next a) l q := Iff.rfl

theorem segment_append : Segment next p (l ++ m) q ↔ ∃ r, Segment next p l r ∧ Segment next r m q := by
  induction l generalizing p with
  | nil => simp
  | cons a l ih => simp [ih, and_assoc]

theorem Segment.congr (h : ∀ a ∈ l, next' a = next a) (hl : Segment next p l q) : Segment next' p l q := by
  induction l generalizing p with
  | nil => exact hl
  | cons a l ih =>
      obtain ⟨rfl, hl⟩ := hl
      refine ⟨rfl, ?_⟩
      rw [h a List.mem_cons_self]
      exact ih (fun x hx => h x (List.mem_cons_of_mem _ hx)) hl

@[simp] theorem linked_nil : Linked next p [] ↔ p = none := Iff.rfl

@[simp] theorem linked_cons : Linked next p (a :: l) ↔ p = some a ∧ Linked next (next a) l := Iff.rfl

theorem Linked.congr (h : ∀ a ∈ l, next' a = next a) (hl : Linked next p l) : Linked next' p l :=
  Segment.congr h hl

theorem linked_append : Linked next p (l ++ m) ↔ ∃ r, Segment next p l r ∧ Linked next r m :=
  segment_append

theorem Linked.head (hl : Linked next p l) : p = l.head? := by
  cases l with
  | nil => exact hl
  | cons a l => exact hl.1

theorem Linked.unique {l' : List α} (hl : Linked next p l) (hl' : Linked next p l') : l = l' := by
  induction l generalizing p l' with
  | nil =>
      cases hl
      cases l' with
      | nil => rfl
      | cons a l' => exact absurd hl'.1 (by simp)
  | cons a l ih =>
      obtain ⟨rfl, hl⟩ := hl
      cases l' with
      | nil => exact absurd hl' (by simp)
      | cons a' l' =>
          obtain ⟨heq, hl'⟩ := hl'
          cases heq
          rw [ih hl hl']

theorem Linked.tail (hl : Linked next p (l ++ a :: m)) : Linked next (next a) m := by
  obtain ⟨r, -, hr⟩ := linked_append.1 hl
  exact hr.2

theorem Linked.nodup : ∀ {p : Option α} {l : List α}, Linked next p l → l.Nodup
  | _, [], _ => List.nodup_nil
  | _, a :: l, ⟨_, hl⟩ => by
      have hlinked : Linked next (next a) l := hl
      refine List.nodup_cons.2 ⟨fun hmem => ?_, Linked.nodup hlinked⟩
      obtain ⟨l₁, l₂, rfl⟩ := List.append_of_mem hmem
      have hlen := congrArg List.length (hlinked.tail.unique hlinked)
      simp at hlen
      omega

/-- A list of addresses below `n` has at most `n` nodes. -/
theorem Linked.length_le {next : ℕ → Option ℕ} {p : Option ℕ} {l : List ℕ} {n : ℕ}
    (hl : Linked next p l) (h : ∀ a ∈ l, a < n) : l.length ≤ n := by
  have hsub : List.Subperm l (List.range n) :=
    List.subperm_of_subset hl.nodup fun a ha => List.mem_range.2 (h a ha)
  simpa using hsub.length_le

section
variable [DecidableEq α]

/-- The node `b` is linked in after `a`. -/
theorem Linked.insert (hl : Linked next p (l ++ a :: m)) (hb : b ∉ l ++ a :: m) :
    Linked (Function.update (Function.update next b (next a)) a (some b)) p (l ++ a :: b :: m) := by
  have hnd := hl.nodup
  rw [List.nodup_append] at hnd
  obtain ⟨-, hnd, hdisj⟩ := hnd
  have ham : a ∉ m := (List.nodup_cons.1 hnd).1
  have hba : b ≠ a := fun h => hb (by simp [h])
  obtain ⟨r, hr, rfl, hm⟩ := linked_append.1 hl
  refine linked_append.2 ⟨some a, hr.congr fun x hx => ?_, rfl, ?_⟩
  · have hxa : x ≠ a := fun h => hdisj x hx a List.mem_cons_self h
    have hxb : x ≠ b := fun h => hb (h ▸ List.mem_append_left _ hx)
    rw [Function.update_of_ne hxa, Function.update_of_ne hxb]
  · rw [Function.update_self]
    refine ⟨rfl, ?_⟩
    rw [Function.update_of_ne hba, Function.update_self]
    refine hm.congr fun x hx => ?_
    have hxa : x ≠ a := by
      rintro rfl
      exact ham hx
    have hxb : x ≠ b := by
      rintro rfl
      exact hb (by simp [hx])
    rw [Function.update_of_ne hxa, Function.update_of_ne hxb]

/-- The node after `a` is linked out. -/
theorem Linked.unlink (hl : Linked next p (l ++ a :: b :: m)) :
    Linked (Function.update next a (next b)) p (l ++ a :: m) := by
  have hnd := hl.nodup
  rw [List.nodup_append] at hnd
  obtain ⟨-, hnd, hdisj⟩ := hnd
  have ham : a ∉ m := fun h => (List.nodup_cons.1 hnd).1 (List.mem_cons_of_mem _ h)
  obtain ⟨r, hr, rfl, -, hm⟩ := linked_append.1 hl
  refine linked_append.2 ⟨some a, hr.congr fun x hx => ?_, rfl, ?_⟩
  · exact Function.update_of_ne (fun h => hdisj x hx a List.mem_cons_self h) _ _
  · rw [Function.update_self]
    refine hm.congr fun x hx => Function.update_of_ne ?_ _ _
    rintro rfl
    exact ham hx

end

/-! ## Looking for a node -/

/-- `while(node) { if(stop) break; last = node; node = node->next }` : the last `node` and `last`. -/
def scan (next : α → Option α) (stop : α → Bool) : ℕ → Option α → Option α → Option α × Option α
  | 0, node, last => (node, last)
  | _ + 1, none, last => (none, last)
  | n + 1, some a, last => if stop a then (some a, last) else scan next stop n (next a) (some a)

theorem scan_linked {stop : α → Bool} {n : ℕ} {last : Option α} (hl : Linked next p l)
    (hn : l.length ≤ n) :
    scan next stop n p last =
      (l.find? stop, ((l.takeWhile fun a => !stop a).getLast?).or last) := by
  induction l generalizing p n last with
  | nil =>
      cases hl
      cases n <;> rfl
  | cons a l ih =>
      obtain ⟨rfl, hl⟩ := hl
      obtain ⟨n, rfl⟩ : ∃ k, n = k + 1 := ⟨n - 1, by simp at hn; omega⟩
      rw [scan]
      by_cases hs : stop a
      · simp [hs]
      · rw [if_neg hs, ih hl (by simpa using hn)]
        simp [hs, List.getLast?_cons, Option.or]
        cases (l.takeWhile fun a => !stop a).getLast? <;> rfl

/-- `while(a->next && !stop(a->next)) a = a->next` : the last `a`. -/
def seek (next : α → Option α) (stop : α → Bool) : ℕ → α → α
  | 0, a => a
  | n + 1, a =>
      match next a with
      | none => a
      | some b => if stop b then a else seek next stop n b

theorem seek_linked (stop : α → Bool) {n : ℕ} (hl : Linked next p (a :: l)) (hn : l.length ≤ n) :
    ∃ l₁ l₂, a :: l = l₁ ++ seek next stop n a :: l₂ ∧ l₂ = l.dropWhile fun b => !stop b := by
  induction l generalizing p a n with
  | nil =>
      have hnext : next a = none := hl.2
      refine ⟨[], [], ?_, rfl⟩
      cases n <;> simp [seek, hnext]
  | cons b l ih =>
      have hnext : next a = some b := hl.2.1
      obtain ⟨n, rfl⟩ : ∃ k, n = k + 1 := ⟨n - 1, by simp at hn; omega⟩
      simp only [seek, hnext]
      by_cases hs : stop b
      · exact ⟨[], b :: l, by simp [hs], by simp [hs]⟩
      · obtain ⟨l₁, l₂, heq, hl₂⟩ := ih hl.2 (by simpa using hn)
        exact ⟨a :: l₁, l₂, by simp [hs, heq], by simp [hs, hl₂]⟩

/-- The nodes of the list that starts at `p`. -/
def walk (next : α → Option α) : ℕ → Option α → List α
  | 0, _ => []
  | _ + 1, none => []
  | n + 1, some a => a :: walk next n (next a)

theorem walk_linked {n : ℕ} (hl : Linked next p l) (hn : l.length ≤ n) : walk next n p = l := by
  induction l generalizing p n with
  | nil =>
      cases hl
      cases n <;> rfl
  | cons a l ih =>
      obtain ⟨rfl, hl⟩ := hl
      obtain ⟨n, rfl⟩ : ∃ k, n = k + 1 := ⟨n - 1, by simp at hn; omega⟩
      rw [walk, ih hl (by simpa using hn)]

end

/-! ## Taking nodes out -/

section
variable [DecidableEq α]

/-- `last->next = q` -/
def relink (next : α → Option α) (last q : Option α) : α → Option α :=
  match last with
  | some a => Function.update next a q
  | none => next

/-- The loop over `node` that takes out the nodes `drop` selects: the links and the head it leaves. -/
def purge (drop : α → Bool) :
    ℕ → (α → Option α) → Option α → Option α → Option α → (α → Option α) × Option α
  | 0, next, head, _, _ => (next, head)
  | _ + 1, next, head, none, _ => (next, head)
  | n + 1, next, head, some a, last =>
      if drop a then
        if head = some a then purge drop n next (next a) (next a) (next a)
        else purge drop n (relink next last (next a)) head (next a) last
      else purge drop n next head (next a) (some a)

/-- The nodes `kept` have been passed, `l` is to come. -/
theorem purge_linked {drop : α → Bool} : ∀ {l kept : List α} {n : ℕ} {next : α → Option α}
    {head last : Option α}, Linked next head (kept ++ l) → (∀ a ∈ kept, drop a = false) →
    (kept ≠ [] → last = kept.getLast?) → l.length ≤ n →
    Linked (purge drop n next head l.head? last).1 (purge drop n next head l.head? last).2
      (kept ++ l.filter fun a => !drop a)
  | [], kept, n, next, head, last, hl, _, _, _ => by
      cases n <;> simpa [purge] using hl
  | a :: l, kept, 0, _, _, _, _, _, _, hn => absurd hn (by simp)
  | a :: l, kept, n + 1, next, head, last, hl, hkept, hlast, hn => by
      have hn' : l.length ≤ n := by simpa using hn
      have hnext : next a = l.head? := hl.tail.head
      rw [List.head?_cons, purge]
      by_cases hd : drop a
      · rw [if_pos hd, List.filter_cons_of_neg (by simp [hd])]
        cases kept with
        | nil =>
            -- the first node of the list goes
            have hhead : head = some a := hl.head
            rw [if_pos hhead, hnext]
            have hl' : Linked next l.head? ([] ++ l) := by
              rw [← hnext]
              exact hl.tail
            exact purge_linked hl' (by simp) (fun h => absurd rfl h) hn'
        | cons c kept =>
            have hhead : head ≠ some a := by
              intro h
              have hc : head = some c := hl.head
              have hnd := hl.nodup
              rw [h] at hc
              cases hc
              simp at hnd
            rw [if_neg hhead, hlast (by simp), hnext]
            obtain ⟨kept', b, hkb⟩ : ∃ kept' b, c :: kept = kept' ++ [b] :=
              ⟨_, _, (List.dropLast_append_getLast (by simp)).symm⟩
            rw [hkb] at hl hkept ⊢
            have hl' : Linked (relink next (some b) l.head?) head ((kept' ++ [b]) ++ l) := by
              rw [List.append_assoc, List.singleton_append] at hl ⊢
              rw [relink, ← hnext]
              exact hl.unlink
            have hb : (kept' ++ [b]).getLast? = some b := by simp
            rw [hb]
            exact purge_linked hl' hkept (fun _ => hb.symm) hn'
      · rw [if_neg hd, List.filter_cons_of_pos (by simpa using hd), hnext]
        have hl' : Linked next head ((kept ++ [a]) ++ l) := by
          rwa [List.append_assoc, List.singleton_append]
        have hkept' : ∀ x ∈ kept ++ [a], drop x = false := by
          intro x hx
          rcases List.mem_append.1 hx with hx | hx
          · exact hkept x hx
          · rw [List.mem_singleton.1 hx]
            exact Bool.eq_false_iff.2 hd
        have ha : kept ++ [a] ≠ [] → some a = (kept ++ [a]).getLast? := fun _ => by simp
        have h := purge_linked hl' hkept' ha hn'
        rwa [List.append_assoc, List.singleton_append] at h

end

end Grbl.Lib
