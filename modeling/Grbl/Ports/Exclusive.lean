import Mathlib
import Grbl.Ports.Machine

/-!
# Exclusive ports

* `Cfg.Inv`, `Inv` : the invariant of a map, and of the list of drivers;
* `getPinInfo_of_match`, `portOut_of_match` : a number leads to the driver of its physical port;
* `Cfg.Inv.claim`, `Cfg.Inv.remap`, `Cfg.Inv.add` : the maps, `Inv.exec` : every call;
* `Exclusive`, `exclusive_of_safe` : every run.
-/

namespace Grbl.Ports
open Lib

theorem nMax_le (k : Kind) : nMax k ≤ maxPorts := by cases k <;> decide

theorem nMax_lt (k : Kind) : nMax k < unassigned := by cases k <;> decide

/-! ## A map and its claims -/

structure Cfg.Inv (k : Kind) (c : Cfg) : Prop where
  nPorts_le : c.nPorts ≤ nMax k
  placed : c.pnum = true → Placed unassigned (nMax k) {p | p < c.nPorts} c.map
  fresh : c.pnum = false → c.nPorts = 0
  last : c.lastClaimed = (nMax k + 255 - c.granted.length) % 256
  granted : ∀ x ∈ c.granted, x.1.port < c.nPorts ∧ c.map x.2 = x.1.port
  claimed : ∀ p, c.claimed p = true ↔ ∃ x ∈ c.granted, x.1.port = p
  nodup : (c.granted.map fun x => x.1.port).Nodup
  numbers : c.granted.map Prod.snd = (List.range c.granted.length).map fun j => nMax k - 1 - j

section
variable {k : Kind} {c : Cfg} {p i : ℕ}

theorem Cfg.Inv.pnum (h : c.Inv k) (hp : p < c.nPorts) : c.pnum = true := by
  by_contra hpnum
  rw [h.fresh (Bool.eq_false_iff.2 hpnum)] at hp
  exact Nat.not_lt_zero p hp

theorem Cfg.Inv.length_le (h : c.Inv k) : c.granted.length ≤ c.nPorts := by
  have hsub : (c.granted.map fun x => x.1.port) ⊆ List.range c.nPorts := by
    intro q hq
    obtain ⟨x, hx, rfl⟩ := List.mem_map.1 hq
    exact List.mem_range.2 (h.granted x hx).1
  have hle := (h.nodup.subperm hsub).length_le
  rwa [List.length_map, List.length_range] at hle

theorem Cfg.Inv.length_lt (h : c.Inv k) (hp : p < c.nPorts) (hfree : c.claimed p = false) : c.granted.length < c.nPorts := by
  have hnot : p ∉ c.granted.map fun x => x.1.port := by
    intro hmem
    obtain ⟨x, hx, hxp⟩ := List.mem_map.1 hmem
    rw [(h.claimed p).2 ⟨x, hx, hxp⟩] at hfree
    cases hfree
  have hsub : (p :: c.granted.map fun x => x.1.port) ⊆ List.range c.nPorts := by
    intro q hq
    rw [List.mem_range]
    obtain rfl | hq := List.mem_cons.1 hq
    · exact hp
    · obtain ⟨x, hx, rfl⟩ := List.mem_map.1 hq
      exact (h.granted x hx).1
  have hle := ((List.nodup_cons.2 ⟨hnot, h.nodup⟩).subperm hsub).length_le
  rw [List.length_cons, List.length_map, List.length_range] at hle
  exact hle

theorem Cfg.Inv.last_eq (h : c.Inv k) (hlen : c.granted.length < nMax k) : c.lastClaimed = nMax k - 1 - c.granted.length := by
  rw [h.last]
  have := nMax_lt k
  rw [unassigned] at this
  omega

theorem Cfg.Inv.number_mem (h : c.Inv k) {x : Pin × ℕ} (hx : x ∈ c.granted) :
    ∃ j < c.granted.length, x.2 = nMax k - 1 - j := by
  have hmem : x.2 ∈ c.granted.map Prod.snd := List.mem_map_of_mem hx
  rw [h.numbers] at hmem
  obtain ⟨j, hj, hx⟩ := List.mem_map.1 hmem
  exact ⟨j, List.mem_range.1 hj, hx.symm⟩

/-- The slots above `last_claimed` are those of the granted numbers. -/
theorem Cfg.Inv.slot_le (h : c.Inv k) (hp : p < c.nPorts) (hfree : c.claimed p = false) (hi : c.map i = p) (hlt : i < nMax k) :
    i ≤ c.lastClaimed := by
  have hlen := (h.length_lt hp hfree).trans_le h.nPorts_le
  rw [h.last_eq hlen]
  by_contra hgt
  have hmem : i ∈ c.granted.map Prod.snd := by
    rw [h.numbers]
    exact List.mem_map.2 ⟨nMax k - 1 - i, List.mem_range.2 (by omega), by omega⟩
  obtain ⟨x, hx, rfl⟩ := List.mem_map.1 hmem
  rw [(h.claimed p).2 ⟨x, hx, (h.granted x hx).2.symm.trans hi⟩] at hfree
  cases hfree

theorem slotOf_eq {map : ℕ → ℕ} (hi : i < maxPorts) (hmap : map i = p) (hinj : ∀ j < i, map j ≠ p) :
    Machine.slotOf map p = i := by
  have hfind : (List.range maxPorts).find? (fun idx => map idx = p) = some i := by
    rw [List.find?_range_eq_some]
    exact ⟨by simpa using hmap, List.mem_range.2 hi, fun j hj => by simpa using hinj j hj⟩
  rw [Machine.slotOf, hfind]
  rfl

theorem Cfg.Inv.slotOf (h : c.Inv k) (hp : p < c.nPorts) (hi : c.map i = p) : Machine.slotOf c.map p = i := by
  have hplaced := h.placed (h.pnum hp)
  have hne : c.map i ≠ unassigned := hi ▸ hplaced.ne_empty hp
  refine slotOf_eq ((hplaced.lt i hne).trans_le (nMax_le k)) hi fun j hj hmap => ?_
  have := hplaced.injective i j hne (hi.trans hmap.symm)
  omega

theorem Cfg.Inv.mapReverse (h : c.Inv k) (hp : p < c.nPorts) (hi : c.map i = p) : mapReverse k c.map p = i := by
  have hplaced := h.placed (h.pnum hp)
  have hne : c.map i ≠ unassigned := hi ▸ hplaced.ne_empty hp
  have hlt := hplaced.lt i hne
  rw [Ports.mapReverse]
  cases hfind : (List.range (nMax k)).reverse.find? fun idx => c.map idx = p with
  | none =>
      have hnot := List.find?_eq_none.1 hfind i (List.mem_reverse.2 (List.mem_range.2 hlt))
      exact absurd (decide_eq_true hi) hnot
  | some j =>
      have hj : c.map j = p := by simpa using List.find?_some hfind
      exact (hplaced.injective i j hne (hi.trans hj.symm)).symm

theorem shiftDown_apply (map : ℕ → ℕ) (idx left j : ℕ) :
    Machine.shiftDown map idx left j = if idx ≤ j ∧ j < idx + left then map (j + 1) else map j := by
  induction left generalizing map idx with
  | zero => rw [Machine.shiftDown, if_neg (by omega)]
  | succ left ih =>
      rw [Machine.shiftDown, ih]
      by_cases hj : j = idx
      · subst hj
        rw [if_neg (by omega), if_pos (by omega), Function.update_self]
      · rw [Function.update_of_ne hj]
        by_cases hin : idx ≤ j ∧ j < idx + (left + 1)
        · rw [if_pos (by omega), if_pos hin, Function.update_of_ne (by omega)]
        · rw [if_neg (by omega), if_neg hin]

/-- The loop of `io_claim` takes the port behind the others. -/
theorem update_shiftDown (map : ℕ → ℕ) {i j : ℕ} (h : i ≤ j) :
    Function.update (Machine.shiftDown map i (j - i)) j (map i) = rotate map i j := by
  funext l
  by_cases hl : l = j
  · subst hl
    rw [Function.update_self, rotate_last map h]
  · rw [Function.update_of_ne hl, shiftDown_apply, rotate]
    by_cases hout : l < i ∨ j < l
    · rw [if_pos hout, if_neg (by omega)]
    · rw [if_neg hout, if_neg hl, if_pos (by omega)]

theorem Cfg.Inv.claim (h : c.Inv k) {pin : Pin} (hp : pin.port < c.nPorts) (hfree : c.claimed pin.port = false) :
    { Machine.claimSlot c pin.port with granted := c.granted ++ [(pin, c.lastClaimed)] }.Inv k := by
  obtain ⟨i, hi⟩ := (h.placed (h.pnum hp)).somewhere pin.port hp
  have hplaced := h.placed (h.pnum hp)
  have hlt := hplaced.lt i (hi ▸ hplaced.ne_empty hp)
  have hle := h.slot_le hp hfree hi hlt
  have hlen := (h.length_lt hp hfree).trans_le h.nPorts_le
  have hlast := h.last_eq hlen
  have hmap : Function.update (Machine.shiftDown c.map i (c.lastClaimed - i)) c.lastClaimed pin.port =
      rotate c.map i c.lastClaimed := by
    rw [← update_shiftDown c.map hle, hi]
  have hbelow : ∀ x ∈ c.granted, c.lastClaimed < x.2 := by
    intro x hx
    obtain ⟨j, hj, hx⟩ := h.number_mem hx
    omega
  exact
    { nPorts_le := h.nPorts_le
      placed := by
        intro hpnum
        dsimp only [Machine.claimSlot]
        rw [h.slotOf hp hi, hmap]
        exact hplaced.rotate hle (by omega)
      fresh := h.fresh
      last := by
        dsimp only [Machine.claimSlot]
        rw [h.last, List.length_append, List.length_singleton]
        omega
      granted := by
        dsimp only [Machine.claimSlot]
        rw [h.slotOf hp hi, hmap]
        intro x hx
        obtain hx | hx := List.mem_append.1 hx
        · rw [rotate_of_lt _ (hbelow x hx)]
          exact h.granted x hx
        · rw [List.mem_singleton.1 hx, rotate_last _ hle]
          exact ⟨hp, hi⟩
      claimed := by
        intro q
        dsimp only [Machine.claimSlot]
        by_cases hq : q = pin.port
        · subst hq
          rw [Function.update_self]
          exact iff_of_true rfl ⟨_, List.mem_append_right _ (List.mem_singleton_self _), rfl⟩
        · rw [Function.update_of_ne hq, h.claimed q]
          refine ⟨fun ⟨x, hx, hxq⟩ => ⟨x, List.mem_append_left _ hx, hxq⟩, ?_⟩
          rintro ⟨x, hx, rfl⟩
          obtain hx | hx := List.mem_append.1 hx
          · exact ⟨x, hx, rfl⟩
          · rw [List.mem_singleton.1 hx] at hq
            exact absurd rfl hq
      nodup := by
        rw [List.map_append, List.nodup_append]
        refine ⟨h.nodup, List.nodup_cons.2 ⟨List.not_mem_nil, List.nodup_nil⟩, ?_⟩
        rintro q hq q' hq' rfl
        obtain ⟨x, hx, hxq⟩ := List.mem_map.1 hq
        rw [List.mem_singleton.1 hq'] at hxq
        rw [(h.claimed pin.port).2 ⟨x, hx, hxq⟩] at hfree
        cases hfree
      numbers := by
        rw [List.map_append, h.numbers, List.length_append, List.length_singleton, List.range_succ, List.map_append, hlast]
        rfl }

theorem Cfg.Inv.remap (h : c.Inv k) {portFrom portTo : ℕ} (hp : portFrom < c.nPorts) (hfrom : c.claimed portFrom = false)
    (hto : c.claimed (c.map portTo) = false) (hi : c.map i = portFrom) (hlt : portTo < nMax k) :
    { c with map := Function.update (Function.update c.map i (c.map portTo)) portTo portFrom }.Inv k := by
  have hplaced := h.placed (h.pnum hp)
  have hne : c.map i ≠ unassigned := hi ▸ hplaced.ne_empty hp
  have hout : ∀ x ∈ c.granted, x.2 ≠ i ∧ x.2 ≠ portTo := by
    intro x hx
    have hclaimed := (h.claimed _).2 ⟨x, hx, (h.granted x hx).2.symm⟩
    constructor
    · rintro rfl
      rw [hi, hfrom] at hclaimed
      cases hclaimed
    · rintro rfl
      rw [hto] at hclaimed
      cases hclaimed
  exact
    { nPorts_le := h.nPorts_le
      placed := fun _ => hi ▸ hplaced.swap (hplaced.lt i hne) hlt
      fresh := h.fresh
      last := h.last
      granted := by
        intro x hx
        dsimp only
        rw [Function.update_of_ne (hout x hx).2, Function.update_of_ne (hout x hx).1]
        exact h.granted x hx
      claimed := h.claimed
      nodup := h.nodup
      numbers := h.numbers }

/-! ## Ports are added -/

theorem foldl_fillTurn (dt : Detail) (hn : dt.nPorts ≠ 0) (hlast : dt.idxLast = dt.nStart + dt.nPorts - 1) (map : ℕ → ℕ) (i N : ℕ) :
    (List.range N).foldl (Machine.fillTurn dt) (map, i) =
      (fill map (fun j => dt.nStart + j) i (min (N - dt.nStart) dt.nPorts), i + min (N - dt.nStart) dt.nPorts) := by
  induction N with
  | zero =>
      rw [Nat.zero_sub, Nat.zero_min, fill_zero]
      rfl
  | succ N ih =>
      rw [List.range_succ, List.foldl_append, ih, List.foldl_cons, List.foldl_nil, Machine.fillTurn]
      by_cases hin : dt.nStart ≤ N ∧ N ≤ dt.idxLast
      · have hmin : min (N - dt.nStart) dt.nPorts = N - dt.nStart := by omega
        have hmin' : min (N + 1 - dt.nStart) dt.nPorts = N - dt.nStart + 1 := by omega
        rw [if_pos ⟨hn, hin⟩, hmin, hmin', fill_succ, Nat.add_sub_cancel' hin.1, Nat.add_assoc]
      · have hmin : min (N + 1 - dt.nStart) dt.nPorts = min (N - dt.nStart) dt.nPorts := by omega
        rw [if_neg (fun h => hin h.2), hmin]

theorem foldl_fillTurn_zero (dt : Detail) (hn : dt.nPorts = 0) (s : (ℕ → ℕ) × ℕ) (l : List ℕ) :
    l.foldl (Machine.fillTurn dt) s = s := by
  induction l with
  | nil => rfl
  | cons a l ih => rw [List.foldl_cons, Machine.fillTurn, if_neg (fun h => h.1 hn), ih]

def Detail.Ok (dt : Detail) (start n : ℕ) : Prop :=
  dt.nPorts = n ∧ if n = 0 then dt.nStart = 255 ∧ dt.idxLast = 0 else dt.nStart = start ∧ dt.idxLast = start + n - 1

theorem addPorts_eq {n : ℕ} (hle : c.nPorts + n ≤ nMax k) :
    (Machine.addPorts k c n).1.Ok c.nPorts n ∧
      (Machine.addPorts k c n).2 = { c with ports := c.ports || n ≠ 0, nPorts := c.nPorts + n } := by
  rw [Machine.addPorts]
  by_cases hn : n = 0
  · subst hn
    rw [if_pos rfl]
    exact ⟨⟨rfl, rfl, rfl⟩, by simp⟩
  · rw [if_neg hn, if_neg (by omega)]
    refine ⟨⟨rfl, ?_⟩, by simp [hn]⟩
    rw [if_neg hn]
    exact ⟨rfl, rfl⟩

theorem Cfg.Inv.add (h : c.Inv k) {n total : ℕ} (hfits : c.Fits k n) (htotal : c.nPorts + n ≤ total) :
    (Machine.mapPorts (Machine.addPorts k c n).2 (Machine.addPorts k c n).1 total).Inv k := by
  obtain ⟨⟨hports, hdetail⟩, heq⟩ := addPorts_eq hfits.1
  have hbase : Placed unassigned (nMax k) {p | p < c.nPorts} (if c.pnum then c.map else fun _ => unassigned) := by
    cases hpnum : c.pnum with
    | true => exact h.placed hpnum
    | false =>
        rw [h.fresh hpnum]
        exact ⟨fun i hi => absurd rfl hi, fun i hi => absurd rfl hi, fun x hx => absurd hx (Nat.not_lt_zero x),
          fun i j hi => absurd rfl hi, Nat.not_lt_zero _⟩
  have hmap : ∃ i, (Machine.mapPorts (Machine.addPorts k c n).2 (Machine.addPorts k c n).1 total).map =
      fill (if c.pnum then c.map else fun _ => unassigned) (fun j => c.nPorts + j) i n ∧
      ∀ j < n, i + j < nMax k ∧ (if c.pnum then c.map else fun _ => unassigned) (i + j) = unassigned := by
    refine ⟨if c.pnum then Machine.firstFree c.map else 0, ?_, ?_⟩
    · rw [Machine.mapPorts, heq]
      dsimp only
      have hstart : (if c.pnum = true then (c.map, Machine.firstFree c.map) else (fun _ => unassigned, 0)) =
          ((if c.pnum then c.map else fun _ => unassigned), if c.pnum then Machine.firstFree c.map else 0) := by
        split <;> rfl
      rw [hstart]
      by_cases hn : n = 0
      · rw [foldl_fillTurn_zero _ (hports.trans hn), hn, fill_zero]
      · rw [if_neg hn] at hdetail
        rw [foldl_fillTurn _ (by rwa [hports]) (by rw [hdetail.1, hdetail.2, hports]), hports, hdetail.1]
        have hmin : min (total + 1 - c.nPorts) n = n := by omega
        rw [hmin]
    · intro j hj
      cases hpnum : c.pnum with
      | true => exact hfits.2 hpnum j hj
      | false =>
          rw [if_neg Bool.false_ne_true, if_neg Bool.false_ne_true]
          refine ⟨?_, rfl⟩
          have := hfits.1
          omega
  obtain ⟨i, hmap, hempty⟩ := hmap
  have hplaced := hbase.fill hempty (fun j hj => ⟨Nat.not_lt.2 (Nat.le_add_right _ j), by
    have := nMax_lt k
    have := hfits.1
    omega⟩) (fun j _ j' _ heq => Nat.add_left_cancel heq)
  have hset : {p | p ∈ {p | p < c.nPorts} ∨ ∃ j < n, c.nPorts + j = p} = {p | p < c.nPorts + n} := by
    ext p
    simp only [Set.mem_ofPred_eq]
    refine ⟨by rintro (hp | ⟨j, hj, rfl⟩) <;> omega, fun hp => ?_⟩
    by_cases hlt : p < c.nPorts
    · exact .inl hlt
    · exact .inr ⟨p - c.nPorts, by omega, by omega⟩
  rw [hset, ← hmap] at hplaced
  have hkept : ∀ x ∈ c.granted, c.pnum = true ∧ ¬ (i ≤ x.2 ∧ x.2 < i + n) := by
    intro x hx
    have hpnum := h.pnum (h.granted x hx).1
    refine ⟨hpnum, fun hin => ?_⟩
    have hslot := (hempty (x.2 - i) (by omega)).2
    rw [Nat.add_sub_cancel' hin.1, if_pos hpnum, (h.granted x hx).2] at hslot
    exact (h.placed hpnum).ne_empty (h.granted x hx).1 hslot
  have hmapPorts : Machine.mapPorts (Machine.addPorts k c n).2 (Machine.addPorts k c n).1 total =
      { c with
        map := (Machine.mapPorts (Machine.addPorts k c n).2 (Machine.addPorts k c n).1 total).map
        ports := c.ports || n ≠ 0
        nPorts := c.nPorts + n
        pnum := true } := by
    rw [Machine.mapPorts, heq]
  rw [hmapPorts]
  exact
    { nPorts_le := hfits.1
      placed := fun _ => hplaced
      fresh := nofun
      last := h.last
      granted := by
        intro x hx
        obtain ⟨hpnum, hnot⟩ := hkept x hx
        refine ⟨(h.granted x hx).1.trans_le (Nat.le_add_right _ n), ?_⟩
        dsimp only
        rw [hmap, fill, if_neg hnot, if_pos hpnum]
        exact (h.granted x hx).2
      claimed := h.claimed
      nodup := h.nodup
      numbers := h.numbers }

end

/-! ## The drivers -/

theorem findSome?_of_unique {α β : Type*} {f : α → Option β} {l : List α} {a : α} (ha : a ∈ l) (h : ∀ b ∈ l, b ≠ a → f b = none) :
    l.findSome? f = f a := by
  induction l with
  | nil => cases ha
  | cons b l ih =>
      rw [List.findSome?_cons]
      by_cases hb : b = a
      · subst hb
        cases hf : f b with
        | some x => rfl
        | none =>
            refine List.findSome?_eq_none_iff.2 fun c hc => ?_
            by_cases hcb : c = b
            · rw [hcb, hf]
            · exact h c (List.mem_cons_of_mem _ hc) hcb
      · rw [h b (List.mem_cons_self ..) hb]
        exact ih ((List.mem_cons.1 ha).resolve_left (Ne.symm hb)) fun c hc => h c (List.mem_cons_of_mem _ hc)

theorem find?_of_unique {α : Type*} {p : α → Bool} {l : List α} {a : α} (ha : a ∈ l) (h : ∀ b ∈ l, b ≠ a → p b = false) :
    l.find? p = if p a then some a else none := by
  rw [← List.findSome?_guard, findSome?_of_unique ha]
  · cases hp : p a <;> simp [Option.guard, hp]
  · intro b hb hne
    simp [Option.guard, h b hb hne]

/-- The driver of a physical port, and the port of the driver. -/
structure Owns (m : Machine) (k : Kind) (d : Direction) (p : ℕ) (dv : Driver) (j : ℕ) : Prop where
  mem : dv ∈ m.drivers
  isMatch : dv.isMatch k d p = true
  port : p = (dv.cfg d).nStart + j

structure Inv (m : Machine) : Prop where
  cfg : ∀ k d, (m.cfg k d).Inv k
  ids : m.drivers.map Driver.portsId = List.range m.drivers.length
  owned : ∀ k d p, p < (m.cfg k d).nPorts → ∃ dv j, Owns m k d p dv j
  ports : ∀ dv ∈ m.drivers, ∀ d p, dv.isMatch dv.kind d p = true ↔ ∃ j < (dv.cfg d).nPorts, p = (dv.cfg d).nStart + j
  lt : ∀ dv ∈ m.drivers, ∀ d p, dv.isMatch dv.kind d p = true → p < (m.cfg dv.kind d).nPorts
  unique : ∀ k d p, ∀ dv ∈ m.drivers, ∀ dv' ∈ m.drivers, dv.isMatch k d p = true → dv'.isMatch k d p = true → dv' = dv
  granted : ∀ k d, ∀ x ∈ (m.cfg k d).granted, ∃ dv, Owns m k d x.1.port dv x.1.id ∧ dv.portsId = x.1.portsId
  fault : m.fault = false

def reaches (m : Machine) (k : Kind) (d : Direction) (port : ℕ) : Option (ℕ × ℕ) :=
  (m.drivers.find? fun dv => dv.isMatch k d ((m.cfg k d).map port)).map fun dv =>
    (dv.portsId, (m.cfg k d).map port - (dv.cfg d).nStart)

section
variable {m : Machine} {k : Kind} {d : Direction} {port i j : ℕ} {dv : Driver}

theorem isMatch_kind {p : ℕ} (h : dv.isMatch k d p = true) : dv.kind = k := by
  rw [Driver.isMatch, decide_eq_true_iff] at h
  exact h.1

theorem Inv.reaches_of_owns (h : Inv m) (ho : Owns m k d ((m.cfg k d).map i) dv j) : reaches m k d i = some (dv.portsId, j) := by
  have hunique := find?_of_unique (p := fun dv => dv.isMatch k d ((m.cfg k d).map i)) ho.mem fun dv' hdv' hne =>
    Bool.eq_false_iff.2 fun hmatch => hne (h.unique k d _ dv ho.mem dv' hdv' ho.isMatch hmatch)
  rw [reaches, hunique, if_pos ho.isMatch, Option.map_some, ho.port, Nat.add_sub_cancel_left]

theorem Inv.owns_of_reaches (h : Inv m) {pid : ℕ} (hr : reaches m k d i = some (pid, j)) :
    ∃ dv, Owns m k d ((m.cfg k d).map i) dv j ∧ dv.portsId = pid := by
  obtain ⟨dv, hfind, heq⟩ := Option.map_eq_some_iff.1 hr
  have hmem := List.mem_of_find?_eq_some hfind
  have hmatch := List.find?_some hfind
  change dv.isMatch k d ((m.cfg k d).map i) = true at hmatch
  obtain ⟨rfl, rfl⟩ := Prod.mk.inj heq
  obtain rfl := isMatch_kind hmatch
  obtain ⟨j, -, hj⟩ := (h.ports dv hmem d _).1 hmatch
  exact ⟨dv, ⟨hmem, hmatch, by omega⟩, rfl⟩

theorem Inv.eq_of_portsId (h : Inv m) {dv' : Driver} (hdv : dv ∈ m.drivers) (hdv' : dv' ∈ m.drivers) (hid : dv.portsId = dv'.portsId) :
    dv = dv' := by
  have hnodup : (m.drivers.map Driver.portsId).Nodup := h.ids ▸ List.nodup_range
  exact List.inj_on_of_nodup_map hnodup hdv hdv' hid

theorem Owns.lt {p : ℕ} (ho : Owns m k d p dv j) (h : Inv m) : p < (m.cfg k d).nPorts := by
  obtain rfl := isMatch_kind ho.isMatch
  exact h.lt dv ho.mem d p ho.isMatch

/-- `io_get_pin_info` shows the pin of the physical port. -/
theorem Inv.getPinInfo_of_owns (h : Inv m) (ho : Owns m k d ((m.cfg k d).map i) dv j) :
    m.getPinInfo k d i = (dv.pin d j).map fun f =>
      { portsId := dv.portsId, start := (dv.cfg d).nStart, id := j, function := f, claimable := isAux k f
        claimed := (m.cfg k d).claimed (j + (dv.cfg d).nStart) && j + (dv.cfg d).nStart = 0 } := by
  have hj : (m.cfg k d).map i - (dv.cfg d).nStart = j := by
    rw [ho.port, Nat.add_sub_cancel_left]
  rw [Machine.getPinInfo]
  dsimp only
  rw [findSome?_of_unique ho.mem]
  · rw [if_pos ho.isMatch, hj]
  · intro dv' hdv' hne
    rw [if_neg fun hmatch => hne (h.unique k d _ dv ho.mem dv' hdv' ho.isMatch hmatch)]

/-- `io_digital_out` and `io_analog_out` set it. -/
theorem Inv.portOut_of_owns (h : Inv m) (ho : Owns m k .output ((m.cfg k .output).map i) dv j) :
    m.portOut k i = if dv.hasOut then some (dv.portsId, j) else none := by
  have hunique := find?_of_unique (p := fun dv => dv.hasOut && dv.isMatch k .output ((m.cfg k .output).map i)) ho.mem
    fun dv' hdv' hne => Bool.eq_false_iff.2 fun hmatch => by
      rw [Bool.and_eq_true] at hmatch
      exact hne (h.unique k .output _ dv ho.mem dv' hdv' ho.isMatch hmatch.2)
  rw [Machine.portOut, hunique, ho.isMatch, Bool.and_true]
  split
  · rw [Option.map_some, ho.port, Nat.add_sub_cancel_left]
  · rfl

/-- `io_wait_on_input` reads it. -/
theorem Inv.waitOnInput_of_owns (h : Inv m) (ho : Owns m k .input ((m.cfg k .input).map i) dv j) :
    m.waitOnInput k i = if dv.hasWait then some (dv.portsId, j) else none := by
  have hunique := find?_of_unique (p := fun dv => dv.hasWait && dv.isMatch k .input ((m.cfg k .input).map i)) ho.mem
    fun dv' hdv' hne => Bool.eq_false_iff.2 fun hmatch => by
      rw [Bool.and_eq_true] at hmatch
      exact hne (h.unique k .input _ dv ho.mem dv' hdv' ho.isMatch hmatch.2)
  rw [Machine.waitOnInput, hunique, ho.isMatch, Bool.and_true]
  split
  · rw [Option.map_some, ho.port, Nat.add_sub_cancel_left]
  · rfl

theorem owns_of_getPinInfo (h : Inv m) {pin : Pin} (hpin : m.getPinInfo k d i = some pin) :
    (m.cfg k d).map i = pin.port ∧ ∃ dv, Owns m k d pin.port dv pin.id ∧ dv.portsId = pin.portsId ∧
      (dv.pin d pin.id).isSome = true := by
  obtain ⟨dv, hmem, hdv⟩ := List.exists_of_findSome?_eq_some hpin
  split at hdv
  · next hmatch =>
      obtain rfl := isMatch_kind hmatch
      obtain ⟨j, -, hj⟩ := (h.ports dv hmem d _).1 hmatch
      obtain ⟨f, hf, rfl⟩ := Option.map_eq_some_iff.1 hdv
      have hport : (m.cfg dv.kind d).map i = (dv.cfg d).nStart + ((m.cfg dv.kind d).map i - (dv.cfg d).nStart) := by omega
      refine ⟨hport, dv, ⟨hmem, ?_, rfl⟩, rfl, ?_⟩
      · rw [Pin.port, ← hport]
        exact hmatch
      · rw [hf]
        rfl
  · cases hdv

/-! ## Every call -/

theorem Inv.setCfg (h : Inv m) {c : Cfg} (hc : c.Inv k) (hports : c.nPorts = (m.cfg k d).nPorts)
    (hgranted : ∀ x ∈ c.granted, ∃ dv, Owns m k d x.1.port dv x.1.id ∧ dv.portsId = x.1.portsId) : Inv (m.setCfg k d c) := by
  have hcases : ∀ k' d', (k' = k ∧ d' = d ∧ (m.setCfg k d c).cfg k' d' = c) ∨ (m.setCfg k d c).cfg k' d' = m.cfg k' d' := by
    intro k' d'
    by_cases hk : k' = k ∧ d' = d
    · obtain ⟨rfl, rfl⟩ := hk
      exact .inl ⟨rfl, rfl, m.setCfg_self k' d' c⟩
    · exact .inr (m.setCfg_of_ne c hk)
  have hsame : ∀ k' d', ((m.setCfg k d c).cfg k' d').nPorts = (m.cfg k' d').nPorts := by
    intro k' d'
    obtain ⟨rfl, rfl, heq⟩ | heq := hcases k' d'
    · rw [heq, hports]
    · rw [heq]
  exact
    { cfg := by
        intro k' d'
        obtain ⟨rfl, rfl, heq⟩ | heq := hcases k' d'
        · rwa [heq]
        · rw [heq]
          exact h.cfg k' d'
      ids := h.ids
      owned := by
        intro k' d' p hp
        obtain ⟨dv, j, ho⟩ := h.owned k' d' p (hsame k' d' ▸ hp)
        exact ⟨dv, j, ho.mem, ho.isMatch, ho.port⟩
      ports := h.ports
      lt := fun dv hdv d' p hp => hsame dv.kind d' ▸ h.lt dv hdv d' p hp
      unique := h.unique
      granted := by
        intro k' d' x hx
        have howned : ∃ dv, Owns m k' d' x.1.port dv x.1.id ∧ dv.portsId = x.1.portsId := by
          obtain ⟨rfl, rfl, heq⟩ | heq := hcases k' d'
          · exact hgranted x (heq ▸ hx)
          · exact h.granted k' d' x (heq ▸ hx)
        obtain ⟨dv, ho, hid⟩ := howned
        exact ⟨dv, ⟨ho.mem, ho.isMatch, ho.port⟩, hid⟩
      fault := h.fault }

theorem claimLoop_of_unique {p : ℕ} : ∀ (drivers : List Driver) (ok : Bool),
    (∃ dv ∈ drivers, dv.isMatch k d p = true) →
    (∀ dv ∈ drivers, dv.isMatch k d p = true → (dv.pin d (p - (dv.cfg d).nStart)).isSome = true) →
    Machine.claimLoop k d p true drivers ok = (true, true) := by
  intro drivers
  induction drivers with
  | nil =>
      rintro ok ⟨dv, hdv, -⟩
      cases hdv
  | cons dv drivers ih =>
      intro ok hex hall
      rw [Machine.claimLoop]
      by_cases hmatch : dv.isMatch k d p = true
      · rw [if_pos hmatch]
        dsimp only
        rw [hall dv (List.mem_cons_self ..) hmatch]
        rfl
      · rw [if_neg hmatch]
        refine ih ok ?_ fun dv' hdv' => hall dv' (List.mem_cons_of_mem _ hdv')
        obtain ⟨dv', hdv', hmatch'⟩ := hex
        obtain rfl | hdv' := List.mem_cons.1 hdv'
        · exact absurd hmatch' hmatch
        · exact ⟨dv', hdv', hmatch'⟩

theorem getPinInfo_of_getInfo {pin : Pin} (hpin : m.getInfo k d port = some pin) : ∃ i, m.getPinInfo k d i = some pin := by
  rw [Machine.getInfo] at hpin
  split at hpin
  · obtain ⟨i, -, hi⟩ := List.exists_of_findSome?_eq_some hpin
    exact ⟨i, (Option.filter_eq_some_iff.1 hi).1⟩
  · cases hpin

theorem Inv.claim_eq (h : Inv m) {pin : Pin} (hhal : m.hal = true) (hpin : m.getInfo k d pin.port = some pin) :
    pin.port < (m.cfg k d).nPorts ∧ (∃ dv, Owns m k d pin.port dv pin.id ∧ dv.portsId = pin.portsId) ∧
      (m.claim k d pin.port true).1 =
        if (m.cfg k d).claimed pin.port then m
        else m.setCfg k d { Machine.claimSlot (m.cfg k d) pin.port with
          granted := (m.cfg k d).granted ++ [(pin, (m.cfg k d).lastClaimed)] } := by
  obtain ⟨i, hi⟩ := getPinInfo_of_getInfo hpin
  obtain ⟨hmap, dv, ho, hid, hsome⟩ := owns_of_getPinInfo h hi
  have hlt := ho.lt h
  refine ⟨hlt, ⟨dv, ho, hid⟩, ?_⟩
  have hloop : Machine.claimLoop k d pin.port true m.drivers false = (true, true) := by
    refine claimLoop_of_unique m.drivers false ⟨dv, ho.mem, ho.isMatch⟩ fun dv' hdv' hmatch' => ?_
    rw [h.unique k d _ dv ho.mem dv' hdv' ho.isMatch hmatch', ho.port, Nat.add_sub_cancel_left]
    exact hsome
  have hslot : Machine.slotOf (m.cfg k d).map pin.port = i := (h.cfg k d).slotOf hlt hmap
  have hplaced := (h.cfg k d).placed ((h.cfg k d).pnum hlt)
  have hin : i < maxPorts := (hplaced.lt i (hmap ▸ hplaced.ne_empty hlt)).trans_le (nMax_le k)
  have hfault : ({ m with fault := m.fault || maxPorts ≤ i } : Machine) = m := by
    rw [decide_eq_false (Nat.not_le.2 hin), Bool.or_false]
  have hio : m.ioClaim k d pin.port true =
      if (m.cfg k d).claimed pin.port then (m, false, pin.port)
      else (m.setCfg k d (Machine.claimSlot (m.cfg k d) pin.port), true, (m.cfg k d).lastClaimed) := by
    simp only [Machine.ioClaim, hloop, hslot, hfault]
  rw [Machine.claim, if_pos hhal, hpin]
  dsimp only
  rw [hio]
  cases (m.cfg k d).claimed pin.port with
  | true => rfl
  | false =>
      rw [if_neg Bool.false_ne_true, if_neg Bool.false_ne_true]
      dsimp only
      rw [Machine.setCfg_self, Machine.setCfg_setCfg]
      rfl

theorem Inv.claim (h : Inv m) {claimable : Bool} (hsafe : (Action.claim k d port claimable).Safe m) :
    Inv (m.claim k d port claimable).1 := by
  cases hhal : m.hal with
  | false =>
      rw [Machine.claim, if_neg (by rw [hhal]; exact Bool.false_ne_true)]
      exact h
  | true =>
      cases hpin : m.getInfo k d port with
      | none =>
          rw [Machine.claim, if_pos hhal, hpin]
          exact h
      | some pin =>
          obtain ⟨rfl, rfl⟩ := hsafe pin hpin
          obtain ⟨hlt, howned, heq⟩ := h.claim_eq hhal hpin
          rw [heq]
          split
          · exact h
          · next hfree =>
              refine h.setCfg ((h.cfg k d).claim hlt (Bool.eq_false_iff.2 hfree)) rfl fun x hx => ?_
              obtain hx | hx := List.mem_append.1 hx
              · exact h.granted k d x hx
              · rw [List.mem_singleton.1 hx]
                exact howned

theorem Inv.remap (h : Inv m) {portFrom portTo : ℕ} (hsafe : (Action.remap k d portFrom portTo).Safe m) :
    Inv (m.remap k d portFrom portTo).1 := by
  rw [Machine.remap]
  dsimp only
  split
  · exact h
  · next hto =>
      obtain hclaimed | ⟨hlt, hfrom, hslot⟩ := hsafe
      · exact absurd hclaimed hto
      · have hcfg := h.cfg k d
        have hplaced := hcfg.placed (hcfg.pnum hlt)
        obtain ⟨i, hi⟩ := hplaced.somewhere portFrom hlt
        have hin := hplaced.lt i (hi ▸ hplaced.ne_empty hlt)
        have hmaps : (if i ≠ portTo then Function.update (m.cfg k d).map i ((m.cfg k d).map portTo) else (m.cfg k d).map) =
            Function.update (m.cfg k d).map i ((m.cfg k d).map portTo) := by
          split
          · rfl
          · next hne => rw [← Decidable.not_not.1 hne, Function.update_eq_self]
        have hfault : ({ m with fault := m.fault || maxPorts ≤ portTo || (i ≠ portTo && maxPorts ≤ i) } : Machine) = m := by
          have := nMax_le k
          rw [decide_eq_false (by omega : ¬ maxPorts ≤ portTo), decide_eq_false (by omega : ¬ maxPorts ≤ i), Bool.and_false,
            Bool.or_false, Bool.or_false]
        rw [hcfg.mapReverse hlt hi, hfault, hmaps]
        exact h.setCfg (hcfg.remap hlt hfrom (Bool.eq_false_iff.2 hto) hi hslot) rfl (h.granted k d)

theorem Inv.mapDrivers (h : Inv m) {f : Driver → Driver} (hid : ∀ dv, (f dv).portsId = dv.portsId)
    (hkind : ∀ dv, (f dv).kind = dv.kind) (hcfg : ∀ dv, (f dv).cfg = dv.cfg) : Inv { m with drivers := m.drivers.map f } := by
  have hmatch : ∀ dv k d p, (f dv).isMatch k d p = dv.isMatch k d p := fun dv k d p => by
    rw [Driver.isMatch, Driver.isMatch, hkind, hcfg]
  have howns : ∀ {k d p dv j}, Owns m k d p dv j → Owns { m with drivers := m.drivers.map f } k d p (f dv) j := fun {k d p dv j} ho =>
    ⟨List.mem_map_of_mem ho.mem, (hmatch dv k d p).trans ho.isMatch, by rw [hcfg]; exact ho.port⟩
  exact
    { cfg := h.cfg
      ids := by
        rw [List.map_map, List.length_map, ← h.ids]
        exact List.map_congr_left fun dv _ => hid dv
      owned := by
        intro k d p hp
        obtain ⟨dv, j, ho⟩ := h.owned k d p hp
        exact ⟨f dv, j, howns ho⟩
      ports := by
        intro dv' hdv' d p
        obtain ⟨dv, hdv, rfl⟩ := List.mem_map.1 hdv'
        rw [hmatch, hkind, hcfg]
        exact h.ports dv hdv d p
      lt := by
        intro dv' hdv' d p hp
        obtain ⟨dv, hdv, rfl⟩ := List.mem_map.1 hdv'
        rw [hmatch, hkind] at hp
        rw [hkind]
        exact h.lt dv hdv d p hp
      unique := by
        intro k d p dv₁ h₁ dv₂ h₂ hp₁ hp₂
        obtain ⟨dv, hdv, rfl⟩ := List.mem_map.1 h₁
        obtain ⟨dv', hdv', rfl⟩ := List.mem_map.1 h₂
        rw [hmatch] at hp₁ hp₂
        rw [h.unique k d p dv hdv dv' hdv' hp₁ hp₂]
      granted := by
        intro k d x hx
        obtain ⟨dv, ho, hx⟩ := h.granted k d x hx
        exact ⟨f dv, howns ho, (hid dv).trans hx⟩
      fault := h.fault }

theorem Inv.setFunction (h : Inv m) (portsId : ℕ) (d : Direction) (id : ℕ) (function : PinFunction) (ok : Bool) :
    Inv (m.setFunction portsId d id function ok) := by
  rw [Machine.setFunction]
  refine h.mapDrivers ?_ ?_ ?_ <;> intro dv <;> split <;> rfl

theorem Detail.Ok.match_iff {dt : Detail} {start n p : ℕ} (h : dt.Ok start n) :
    dt.nStart ≤ p ∧ p ≤ dt.idxLast ↔ ∃ j < dt.nPorts, p = dt.nStart + j := by
  obtain ⟨hports, hdetail⟩ := h
  split at hdetail
  · rw [hdetail.1, hdetail.2]
    refine ⟨fun hp => by omega, ?_⟩
    rintro ⟨j, hj, -⟩
    omega
  · rw [hdetail.1, hdetail.2]
    exact ⟨fun hp => ⟨p - start, by omega, by omega⟩, fun ⟨j, hj, hp⟩ => by omega⟩

theorem Detail.Ok.start_of_pos {dt : Detail} {start n : ℕ} (h : dt.Ok start n) (hn : 0 < n) : dt.nStart = start := by
  obtain ⟨-, hdetail⟩ := h
  rw [if_neg (by omega)] at hdetail
  exact hdetail.1

theorem Inv.add (h : Inv m) {n : Direction → ℕ} (pin : Direction → ℕ → Option PinFunction) (hasOut hasWait : Bool)
    (hfits : ∀ d, (m.cfg k d).Fits k (n d)) : Inv (m.add k n pin hasOut hasWait) := by
  rw [Machine.add]
  dsimp only
  split
  · exact h
  · next hn =>
      have hadded := fun d => addPorts_eq (hfits d).1
      have hports : ∀ d, (Machine.addPorts k (m.cfg k d) (n d)).2.nPorts = (m.cfg k d).nPorts + n d := fun d =>
        congrArg Cfg.nPorts (hadded d).2
      have htotal : ∀ d, (m.cfg k d).nPorts + n d ≤ max (Machine.addPorts k (m.cfg k .input) (n .input)).2.nPorts
          (Machine.addPorts k (m.cfg k .output) (n .output)).2.nPorts := by
        intro d
        rw [hports, hports]
        cases d <;> omega
      rw [if_neg (by have := htotal .input; have := htotal .output; omega)]
      generalize max (Machine.addPorts k (m.cfg k .input) (n .input)).2.nPorts
        (Machine.addPorts k (m.cfg k .output) (n .output)).2.nPorts = total at htotal
      let dv : Driver :=
        { portsId := m.drivers.length, kind := k, cfg := fun d => (Machine.addPorts k (m.cfg k d) (n d)).1, pin := pin
          hasOut := hasOut && n .output ≠ 0, hasWait := hasWait && n .input ≠ 0 }
      let cfg : Kind → Direction → Cfg := fun k' d =>
        if k' = k then Machine.mapPorts (Machine.addPorts k (m.cfg k d) (n d)).2 (Machine.addPorts k (m.cfg k d) (n d)).1 total
        else m.cfg k' d
      change Inv { m with hal := true, cfg := cfg, drivers := m.drivers ++ [dv] }
      have hself : ∀ d, cfg k d = Machine.mapPorts (Machine.addPorts k (m.cfg k d) (n d)).2
          (Machine.addPorts k (m.cfg k d) (n d)).1 total := fun d => if_pos rfl
      have hother : ∀ k' d, k' ≠ k → cfg k' d = m.cfg k' d := fun k' d hk => if_neg hk
      have hnPorts : ∀ d, (cfg k d).nPorts = (m.cfg k d).nPorts + n d := fun d => by
        rw [hself]
        exact hports d
      have hmono : ∀ k' d, (m.cfg k' d).nPorts ≤ (cfg k' d).nPorts := by
        intro k' d
        by_cases hk : k' = k
        · subst hk
          rw [hnPorts]
          exact Nat.le_add_right _ _
        · rw [hother k' d hk]
      have hmatch : ∀ d p, dv.isMatch k d p = true ↔ ∃ j < (dv.cfg d).nPorts, p = (dv.cfg d).nStart + j := by
        intro d p
        rw [Driver.isMatch, decide_eq_true_iff, and_iff_right rfl]
        exact (hadded d).1.match_iff
      have hstart : ∀ d, 0 < n d → (dv.cfg d).nStart = (m.cfg k d).nPorts := fun d => (hadded d).1.start_of_pos
      have hnew : ∀ d p, dv.isMatch k d p = true → (m.cfg k d).nPorts ≤ p ∧ p < (cfg k d).nPorts := by
        intro d p hp
        obtain ⟨j, hj, hp⟩ := (hmatch d p).1 hp
        have hj : j < n d := (hadded d).1.1 ▸ hj
        have := hstart d (by omega)
        have := hnPorts d
        omega
      have hold : ∀ dv' ∈ m.drivers, ∀ k' d p, dv'.isMatch k' d p = true → p < (m.cfg k' d).nPorts := by
        rintro dv' hdv' k' d p hp
        obtain rfl := isMatch_kind hp
        exact h.lt dv' hdv' d p hp
      exact
        { cfg := by
            intro k' d
            by_cases hk : k' = k
            · subst hk
              rw [show ({ m with hal := true, cfg := cfg, drivers := m.drivers ++ [dv] } : Machine).cfg k' d = _ from hself d]
              exact (h.cfg k' d).add (hfits d) (htotal d)
            · rw [show ({ m with hal := true, cfg := cfg, drivers := m.drivers ++ [dv] } : Machine).cfg k' d = _ from hother k' d hk]
              exact h.cfg k' d
          ids := by
            rw [List.map_append, h.ids, List.length_append, List.length_singleton, List.range_succ]
            rfl
          owned := by
            intro k' d p hp
            by_cases hlt : p < (m.cfg k' d).nPorts
            · obtain ⟨dv', j, ho⟩ := h.owned k' d p hlt
              exact ⟨dv', j, List.mem_append_left _ ho.mem, ho.isMatch, ho.port⟩
            · change p < (cfg k' d).nPorts at hp
              by_cases hk : k' = k
              · subst hk
                rw [hnPorts] at hp
                have hpos := hstart d (by omega)
                have hport : p = (dv.cfg d).nStart + (p - (m.cfg k' d).nPorts) := by omega
                have hin : p - (m.cfg k' d).nPorts < (dv.cfg d).nPorts := by
                  rw [show (dv.cfg d).nPorts = n d from (hadded d).1.1]
                  omega
                exact ⟨dv, p - (m.cfg k' d).nPorts, List.mem_append_right _ (List.mem_singleton_self _),
                  (hmatch d p).2 ⟨_, hin, hport⟩, hport⟩
              · rw [hother k' d hk] at hp
                exact absurd hp hlt
          ports := by
            intro dv' hdv' d p
            obtain hdv' | hdv' := List.mem_append.1 hdv'
            · exact h.ports dv' hdv' d p
            · rw [List.mem_singleton.1 hdv']
              exact hmatch d p
          lt := by
            intro dv' hdv' d p hp
            obtain hdv' | hdv' := List.mem_append.1 hdv'
            · exact (hold dv' hdv' _ d p hp).trans_le (hmono _ d)
            · rw [List.mem_singleton.1 hdv'] at hp ⊢
              exact (hnew d p hp).2
          unique := by
            intro k' d p dv₁ h₁ dv₂ h₂ hp₁ hp₂
            obtain h₁ | h₁ := List.mem_append.1 h₁ <;> obtain h₂ | h₂ := List.mem_append.1 h₂
            · exact h.unique k' d p dv₁ h₁ dv₂ h₂ hp₁ hp₂
            · rw [List.mem_singleton.1 h₂] at hp₂
              obtain rfl : k = k' := isMatch_kind hp₂
              exact absurd (hold dv₁ h₁ _ d p hp₁) (Nat.not_lt.2 (hnew d p hp₂).1)
            · rw [List.mem_singleton.1 h₁] at hp₁
              obtain rfl : k = k' := isMatch_kind hp₁
              exact absurd (hold dv₂ h₂ _ d p hp₂) (Nat.not_lt.2 (hnew d p hp₁).1)
            · rw [List.mem_singleton.1 h₁, List.mem_singleton.1 h₂]
          granted := by
            intro k' d x hx
            have hx : x ∈ (m.cfg k' d).granted := by
              change x ∈ (cfg k' d).granted at hx
              by_cases hk : k' = k
              · subst hk
                rw [hself, Machine.mapPorts, (hadded d).2] at hx
                exact hx
              · rwa [hother k' d hk] at hx
            obtain ⟨dv', ho, hid⟩ := h.granted k' d x hx
            exact ⟨dv', ⟨List.mem_append_left _ ho.mem, ho.isMatch, ho.port⟩, hid⟩
          fault := h.fault }

theorem Inv.exec (h : Inv m) {a : Action} (hsafe : a.Safe m) : Inv (m.exec a) := by
  cases a with
  | add k n pin hasOut hasWait =>
      refine h.add pin hasOut hasWait fun d => ?_
      cases d with
      | input => exact hsafe.1
      | output => exact hsafe.2
  | claim k d port claimable => exact h.claim hsafe
  | remap k d portFrom portTo => exact h.remap hsafe
  | setFunction portsId d id function ok => exact h.setFunction portsId d id function ok
  | enumerate k d => exact h

theorem inv_init : Inv {} where
  cfg k d :=
    { nPorts_le := Nat.zero_le _
      placed := nofun
      fresh := fun _ => rfl
      last := by
        change nMax k - 1 = (nMax k + 255 - 0) % 256
        cases k <;> rfl
      granted := nofun
      claimed := fun p => by simp
      nodup := List.nodup_nil
      numbers := rfl }
  ids := rfl
  owned k d p hp := absurd hp (Nat.not_lt_zero p)
  ports := nofun
  lt := nofun
  unique := nofun
  granted := nofun
  fault := rfl

/-! ## Every run -/

structure Exclusive (m : Machine) : Prop where
  slot : ∀ k d p, p < (m.cfg k d).nPorts → ∃! i, i < maxPorts ∧ (m.cfg k d).map i = p
  reached : ∀ dv ∈ m.drivers, ∀ d, ∀ j < (dv.cfg d).nPorts,
    ∃! i, i < maxPorts ∧ reaches m dv.kind d i = some (dv.portsId, j)
  granted : ∀ k d, ∀ x ∈ (m.cfg k d).granted,
    (m.cfg k d).claimed x.1.port = true ∧ reaches m k d x.2 = some (x.1.portsId, x.1.id)
  once : ∀ k d, ((m.cfg k d).granted.map fun x => (x.1.portsId, x.1.id)).Nodup ∧ ((m.cfg k d).granted.map Prod.snd).Nodup
  pin : ∀ dv ∈ m.drivers, ∀ d i j, reaches m dv.kind d i = some (dv.portsId, j) →
    (m.getPinInfo dv.kind d i).map (fun pin => (pin.portsId, pin.id)) = (dv.pin d j).map fun _ => (dv.portsId, j)
  out : ∀ dv ∈ m.drivers, ∀ i j, reaches m dv.kind .output i = some (dv.portsId, j) →
    m.portOut dv.kind i = if dv.hasOut then some (dv.portsId, j) else none
  wait : ∀ dv ∈ m.drivers, ∀ i j, reaches m dv.kind .input i = some (dv.portsId, j) →
    m.waitOnInput dv.kind i = if dv.hasWait then some (dv.portsId, j) else none
  fault : m.fault = false

theorem Inv.owns (h : Inv m) (hdv : dv ∈ m.drivers) {i j : ℕ} (hr : reaches m dv.kind d i = some (dv.portsId, j)) :
    Owns m dv.kind d ((m.cfg dv.kind d).map i) dv j := by
  obtain ⟨dv', ho, hid⟩ := h.owns_of_reaches hr
  obtain rfl := h.eq_of_portsId ho.mem hdv hid
  exact ho

theorem Inv.granted_nodup (h : Inv m) (k : Kind) (d : Direction) :
    ((m.cfg k d).granted.map fun x => (x.1.portsId, x.1.id)).Nodup := by
  have hnodup := (h.cfg k d).nodup
  rw [List.Nodup, List.pairwise_map] at hnodup ⊢
  refine hnodup.imp_of_mem fun {x y} hx hy hne heq => hne ?_
  obtain ⟨dv, hox, hidx⟩ := h.granted k d x hx
  obtain ⟨dv', hoy, hidy⟩ := h.granted k d y hy
  obtain ⟨hid, hj⟩ := Prod.mk.inj heq
  obtain rfl := h.eq_of_portsId hox.mem hoy.mem (hidx.trans (hid.trans hidy.symm))
  rw [hox.port, hoy.port, hj]

theorem Cfg.Inv.numbers_nodup {c : Cfg} (h : c.Inv k) : (c.granted.map Prod.snd).Nodup := by
  rw [h.numbers]
  refine List.Nodup.map_on (fun j hj j' hj' heq => ?_) List.nodup_range
  have hle := h.length_le.trans h.nPorts_le
  rw [List.mem_range] at hj hj'
  omega

theorem Inv.exclusive (h : Inv m) : Exclusive m where
  slot k d p hp := by
    have hplaced := (h.cfg k d).placed ((h.cfg k d).pnum hp)
    obtain ⟨i, ⟨hlt, hi⟩, hunique⟩ := hplaced.existsUnique hp
    exact ⟨i, ⟨hlt.trans_le (nMax_le k), hi⟩, fun j hj => hunique j ⟨hplaced.lt j (hj.2 ▸ hplaced.ne_empty hp), hj.2⟩⟩
  reached dv hdv d j hj := by
    have hmatch := (h.ports dv hdv d _).2 ⟨j, hj, rfl⟩
    have hp := h.lt dv hdv d _ hmatch
    have hplaced := (h.cfg dv.kind d).placed ((h.cfg dv.kind d).pnum hp)
    obtain ⟨i, ⟨hlt, hi⟩, hunique⟩ := hplaced.existsUnique hp
    refine ⟨i, ⟨hlt.trans_le (nMax_le dv.kind), h.reaches_of_owns ?_⟩, fun i' hi' => ?_⟩
    · rw [hi]
      exact ⟨hdv, hmatch, rfl⟩
    · have hport := (h.owns hdv hi'.2).port
      exact hunique i' ⟨hplaced.lt i' (hport ▸ hplaced.ne_empty hp), hport⟩
  granted k d x hx := by
    obtain ⟨dv, ho, hid⟩ := h.granted k d x hx
    have hmap := ((h.cfg k d).granted x hx).2
    refine ⟨((h.cfg k d).claimed _).2 ⟨x, hx, rfl⟩, ?_⟩
    rw [← hid]
    exact h.reaches_of_owns (hmap ▸ ho)
  once k d := ⟨h.granted_nodup k d, (h.cfg k d).numbers_nodup⟩
  pin dv hdv d i j hr := by
    rw [h.getPinInfo_of_owns (h.owns hdv hr), Option.map_map]
    rfl
  out dv hdv i j hr := h.portOut_of_owns (h.owns hdv hr)
  wait dv hdv i j hr := h.waitOnInput_of_owns (h.owns hdv hr)
  fault := h.fault

/-- In every run in which claims find the physical port of their number, and remaps do not touch claimed ports, claims are
exclusive. -/
theorem exclusive_of_safe {as : List Action} (hsafe : Along step (fun m a => a.Safe m) {} as) (hrun : run step {} as = some m) :
    Exclusive m := by
  refine Inv.exclusive (run_invariant_along ?_ as {} m inv_init hsafe hrun)
  rintro s a s' hs hsafe hstep
  cases hstep
  exact hs.exec hsafe

end

/-! ## Two runs -/

/-- A driver of three outputs, and a further one of two. -/
def Example.add (n : ℕ) (start : ℕ) : Action :=
  .add .digital (fun d => if d = .output then n else 0) (fun d j => if d = .output ∧ j < n then some (.aux (start + j)) else none)
    true false

/-- Port 0 is claimed, port 1 is remapped, a driver is added and a port of it claimed. -/
def Example.claims : List Action :=
  [Example.add 3 0, .claim .digital .output 0 true, .remap .digital .output 2 0, Example.add 2 3, .claim .digital .output 3 true]

theorem exclusive_of_safe_claims : ∃ m, run step {} Example.claims = some m ∧ Exclusive m := by
  have hsafe : Along step (fun m a => a.Safe m) {} Example.claims := by decide +kernel
  exact ⟨_, rfl, exclusive_of_safe hsafe rfl⟩

/-- The claimed port 0 is remapped: the number it was given leads to port 2. -/
theorem remapped_claim_is_lost : ∃ m, run step {}
    [Example.add 3 0, .claim .digital .output 0 true, .remap .digital .output 0 1] = some m ∧ ¬ Exclusive m := by
  have hrun : ((run step {} [Example.add 3 0, .claim .digital .output 0 true, .remap .digital .output 0 1]).map fun m =>
      decide (∀ x ∈ (m.cfg .digital .output).granted, reaches m .digital .output x.2 = some (x.1.portsId, x.1.id))) =
      some false := by decide +kernel
  obtain ⟨m, hm, hbad⟩ := Option.map_eq_some_iff.1 hrun
  exact ⟨m, hm, fun h => of_decide_eq_false hbad fun x hx => (h.granted _ _ x hx).2⟩

/-- Port 1 has no auxiliary function, and its driver does not let it be claimed: it is granted twice all the same. -/
theorem unclaimable_is_granted_twice : ∃ m, run step {}
    [Example.add 3 0, .setFunction 0 .output 1 (.other 0) true, .claim .digital .output 1 false,
      .claim .digital .output 1 false] = some m ∧ ¬ Exclusive m := by
  have hrun : ((run step {} [Example.add 3 0, .setFunction 0 .output 1 (.other 0) true, .claim .digital .output 1 false,
      .claim .digital .output 1 false]).map fun m =>
        decide ((m.cfg .digital .output).granted.map Prod.snd).Nodup) = some false := by decide +kernel
  obtain ⟨m, hm, hbad⟩ := Option.map_eq_some_iff.1 hrun
  exact ⟨m, hm, fun h => of_decide_eq_false hbad (h.once _ _).2⟩

end Grbl.Ports
