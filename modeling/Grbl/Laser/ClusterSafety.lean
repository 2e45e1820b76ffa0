import Grbl.Laser.Clusters

/-!
# The buffers of the cluster decoders

* `Outcome.Ok` : what a decoded line leaves behind fits where its moves are put together;
* `fields`, `ClusterOk` : the lines with a cluster that the buffers have room for;
* `split_spec`, `finish_ok_iff`, `decode_ok_iff` : which lines are decoded inside the buffers;
* `Action.Safe` : what may come next; `FileInv`, `StreamInv` : the states that are reached;
* `accesses_ok_of_safe` : every safe run.
-/

namespace Grbl.Laser.Clusters
open Lib

/-- Inside the buffer, and not behind the line or through NULL. -/
def Access.Ok : Access → Prop
  | .store b i => i < b.size
  | .past | .null => False

instance (a : Access) : Decidable a.Ok := by
  cases a <;> unfold Access.Ok <;> infer_instance

/-- The moves of a line can be put together in `cluster.block`, the longest of them is the first. -/
def Outcome.Ok : Outcome → Prop
  | .fault => False
  | .full => True
  | .cluster _ stem param values =>
      stem.length ≤ 20 ∧ values ≠ [] ∧ (∀ v ∈ values, v.length ≤ 9) ∧ stem.length + (values.headD []).length + param.length < 30

/-! ## Lines with a cluster -/

/-- The values of a line, each with the line end in place of its colon; and whether a colon ends the line. The character
behind a colon is part of the next value, whatever it is. -/
def fields (eol : Char) : List Char → List Char → List (List Char) × Bool
  | v, [] => ([v], false)
  | v, [c] => if c = ':' then ([v ++ eolString eol], true) else ([v ++ [c]], false)
  | v, c :: d :: s =>
      if c = ':' then ((v ++ eolString eol) :: (fields eol [d] s).1, (fields eol [d] s).2) else fields eol (v ++ [c]) (d :: s)

def colons (p : List (List Char) × Bool) : ℕ := if p.2 then p.1.length else p.1.length - 1

/-- What follows the number, if there is more than the `S`: it has to fit in `cluster.param` and behind the first move, and
the first value has a line end. -/
def ParamOk (convert : List Char → ℕ → Number) (eol : Char) (h : List Char) (values : List (List Char)) : Prop :=
  let s := h.drop 3
  let tail := s.drop (consumed s)
  let stem := trimZeros (ftoa (convert s values.length))
  let v := values.headD []
  tail.length = 1 ∨ 4 ≤ h.length ∧ tail.length ≤ 23 ∧ (eol = '\x00' ∨ eol ∈ v) ∧
    stem.length + (v.takeWhile (· ≠ eol)).length + (tail.takeWhile (· ≠ 'S') ++ eolString eol).length < 30

/-- The lines the buffers have room for: there is an `S`, what comes before it has at most 33 characters without blanks (23
in the stream decoder), no value is longer than 9, and with less than 16 colons none ends the line and the rest fits. -/
def ClusterOk (convert : List Char → ℕ → Number) (early : Bool) (eol : Char) (line : List Char) : Prop :=
  match (head line).2 with
  | none => False
  | some rest =>
      ((head line).1.length ≤ 33 ∧ (early = true → (head line).1.length ≤ 23)) ∧
        (∀ v ∈ (fields eol [] rest).1.take clusterSize, v.length ≤ 9) ∧
          (colons (fields eol [] rest) < clusterSize → (fields eol [] rest).2 = false ∧
            ParamOk convert eol (head line).1 (fields eol [] rest).1)

instance (convert : List Char → ℕ → Number) (eol : Char) (h : List Char) (values : List (List Char)) :
    Decidable (ParamOk convert eol h values) := by
  unfold ParamOk
  infer_instance

instance (convert : List Char → ℕ → Number) (early : Bool) (eol : Char) (line : List Char) :
    Decidable (ClusterOk convert early eol line) := by
  unfold ClusterOk
  split <;> infer_instance

/-! ## Copies -/

section
variable {b : Buffer} {i : ℕ} {s : List Char}

theorem copy_ok_iff : (∀ a ∈ copy b i s, a.Ok) ↔ i + s.length < b.size := by
  constructor
  · intro h
    exact h (.store b (i + s.length)) (List.mem_map.2 ⟨s.length, List.mem_range.2 (Nat.lt_succ_self _), rfl⟩)
  · intro h a ha
    obtain ⟨k, hk, rfl⟩ := List.mem_map.1 ha
    rw [List.mem_range] at hk
    show i + k < b.size
    omega

theorem forall_mem_append_iff {as as' : List Access} :
    (∀ a ∈ as ++ as', a.Ok) ↔ (∀ a ∈ as, a.Ok) ∧ ∀ a ∈ as', a.Ok := List.forall_mem_append

end

/-! ## The values -/

theorem storeValue_ok_iff {count pos : ℕ} {v : List Char} (hcount : count < clusterSize) (hpos : pos + 1 < lineBufferSize) :
    (∀ a ∈ storeValue count pos v, a.Ok) ↔ v.length ≤ 9 := by
  have hsize : (Buffer.sval count).size = 10 := if_pos hcount
  rw [storeValue, List.forall_mem_cons, List.forall_mem_cons, forall_mem_append_iff, copy_ok_iff, hsize]
  constructor
  · rintro ⟨-, -, hcopy, -⟩
    omega
  · intro hv
    refine ⟨show pos < lineBufferSize by omega, hpos, by omega, ?_⟩
    rw [List.forall_mem_singleton]
    exact hpos

theorem fields_ne_nil (eol : Char) (v s : List Char) : (fields eol v s).1 ≠ [] := by
  fun_induction fields eol v s <;> simp_all

theorem length_pos_fields (eol : Char) (v s : List Char) : 0 < (fields eol v s).1.length :=
  List.length_pos_iff.2 (fields_ne_nil eol v s)

theorem lastValue_ok_iff {count pos : ℕ} {v : List Char} (hcount : count < clusterSize) (hpos : pos < lineBufferSize) :
    (∀ a ∈ Access.store .input pos :: copy (.sval count) 0 v, a.Ok) ↔ v.length ≤ 9 := by
  have hsize : (Buffer.sval count).size = 10 := if_pos hcount
  rw [List.forall_mem_cons, copy_ok_iff, hsize, and_iff_right (show (Access.store Buffer.input pos).Ok from hpos)]
  omega

theorem split_spec (eol : Char) (count pos : ℕ) (v s : List Char) (hcount : count < clusterSize)
    (hpos : pos + s.length < lineBufferSize) :
    (split eol count pos v s).values = (fields eol v s).1.take (clusterSize - count) ∧
      (split eol count pos v s).ending =
          (if clusterSize ≤ count + colons (fields eol v s) then .full else if (fields eol v s).2 then .past else .done) ∧
        ((∀ a ∈ (split eol count pos v s).accesses, a.Ok) ↔ ∀ w ∈ (split eol count pos v s).values, w.length ≤ 9) := by
  have htake : ∀ l : List (List Char), (l.take (clusterSize - count)) = (l.take (clusterSize - (count + 1) + 1)) := by
    intro l
    rw [show clusterSize - (count + 1) + 1 = clusterSize - count by omega]
  fun_induction split eol count pos v s with
  | case1 count pos v =>
      rw [fields, htake, colons]
      refine ⟨(List.take_succ_cons.trans (congrArg _ List.take_nil)).symm, (if_neg (by simpa using hcount)).symm, ?_⟩
      rw [List.forall_mem_singleton]
      exact lastValue_ok_iff hcount hpos
  | case2 count pos v =>
      have hfields : fields eol v [':'] = ([v ++ eolString eol], true) := rfl
      rw [hfields, htake, colons]
      refine ⟨(List.take_succ_cons.trans (congrArg _ List.take_nil)).symm, ?_, ?_⟩
      · show (if count + 1 = clusterSize then Ending.full else .past) = if clusterSize ≤ count + 1 then .full else .past
        by_cases h : count + 1 = clusterSize
        · rw [if_pos h, if_pos h.ge]
        · rw [if_neg h, if_neg (by omega)]
      · rw [List.forall_mem_singleton]
        exact storeValue_ok_iff hcount hpos
  | case3 count pos v c hc =>
      rw [fields, if_neg hc, htake, colons]
      refine ⟨(List.take_succ_cons.trans (congrArg _ List.take_nil)).symm, (if_neg (by simpa using hcount)).symm, ?_⟩
      rw [List.forall_mem_singleton]
      exact lastValue_ok_iff hcount hpos
  | case4 count pos v d s hfull =>
      have hpos' : pos + 1 < lineBufferSize := by
        rw [List.length_cons, List.length_cons] at hpos
        omega
      have hlen := length_pos_fields eol [d] s
      rw [fields, if_pos rfl, htake]
      refine ⟨?_, ?_, ?_⟩
      · rw [List.take_succ_cons, hfull, Nat.sub_self, List.take_zero]
      · rw [if_pos]
        rw [colons]
        split
        · rw [List.length_cons]
          omega
        · rw [List.length_cons, Nat.add_sub_cancel]
          omega
      · rw [List.forall_mem_singleton]
        exact storeValue_ok_iff hcount hpos'
  | case5 count pos v d s hfull r ih =>
      have hpos' : pos + 1 < lineBufferSize := by
        rw [List.length_cons, List.length_cons] at hpos
        omega
      have hlen := length_pos_fields eol [d] s
      obtain ⟨hvalues, hending, hok⟩ := ih (by omega) (by rw [List.length_cons, List.length_cons] at hpos; omega) (by
        intro l
        rw [show clusterSize - (count + 1 + 1) + 1 = clusterSize - (count + 1) by omega])
      have hcolons : colons ((v ++ eolString eol) :: (fields eol [d] s).1, (fields eol [d] s).2) = colons (fields eol [d] s) + 1 := by
        rw [colons, colons]
        split
        · rw [List.length_cons]
        · rw [List.length_cons]
          omega
      rw [fields, if_pos rfl, htake, hcolons]
      refine ⟨?_, ?_, ?_⟩
      · rw [List.take_succ_cons]
        exact congrArg _ hvalues
      · show r.ending = _
        rw [hending, Nat.add_assoc count 1, Nat.add_comm 1]
      · rw [forall_mem_append_iff, storeValue_ok_iff hcount hpos', List.forall_mem_cons]
        exact and_congr_right fun _ => hok
  | case6 count pos v c d s hc ih =>
      rw [fields, if_neg hc]
      exact ih hcount (by rw [List.length_cons] at hpos; omega) htake

/-! ## The number -/

theorem length_ftoa_le (n : Number) : (ftoa n).length ≤ 20 := by
  have hwhole : (Nat.toDigits 10 n.whole.toNat).length ≤ 10 :=
    (Nat.length_toDigits_le_iff (by decide) (by decide)).2 (lt_trans n.whole.toNat_lt (by decide))
  have hsign : (if n.negative then ['-'] else []).length ≤ 1 := by split <;> decide
  rw [ftoa, List.length_append, List.length_append, List.length_cons, List.length_map, List.length_reverse, List.length_range]
  omega

theorem length_trimZeros_le (s : List Char) : (trimZeros s).length ≤ s.length := (List.rdropWhile_prefix _ s).length_le

theorem storeNumber_ok (n : Number) : ∀ a ∈ storeNumber (ftoa n), a.Ok := by
  have hlen := length_ftoa_le n
  have htrim := length_trimZeros_le (ftoa n)
  rw [storeNumber, forall_mem_append_iff, forall_mem_append_iff, copy_ok_iff, copy_ok_iff]
  refine ⟨⟨show 3 + (ftoa n).length < 34 by omega, fun a ha => ?_⟩, show 3 + (trimZeros (ftoa n)).length + 1 < 34 by omega⟩
  obtain ⟨k, hk, rfl⟩ := List.mem_map.1 ha
  rw [List.mem_range] at hk
  show 3 + (trimZeros (ftoa n)).length + k < 34
  omega

theorem scanFloat_suffix (s : List Char) : ∀ f : Ngc.FloatScan, (Ngc.scanFloat f s).2 <:+ s := by
  induction s with
  | nil => exact fun f => List.suffix_rfl
  | cons c s ih =>
      intro f
      rw [Ngc.scanFloat]
      cases f.next c with
      | none => exact List.suffix_rfl
      | some f' => exact (ih f').trans (List.suffix_cons c s)

/-- A number ends in front of an `S`. -/
theorem mem_scanFloat {s : List Char} (h : 'S' ∈ s) : ∀ f : Ngc.FloatScan, 'S' ∈ (Ngc.scanFloat f s).2 := by
  induction s with
  | nil => cases h
  | cons c s ih =>
      intro f
      rw [Ngc.scanFloat]
      cases hnext : f.next c with
      | none => exact h
      | some f' =>
          rcases List.mem_cons.1 h with rfl | h
          · cases hnext
          · exact ih h f'

theorem readSign_suffix (s : List Char) : (Ngc.readSign s).2 <:+ s := by
  unfold Ngc.readSign
  split
  · exact List.suffix_cons _ _
  · exact List.suffix_cons _ _
  · exact List.suffix_rfl

theorem mem_readSign {s : List Char} (h : 'S' ∈ s) : 'S' ∈ (Ngc.readSign s).2 := by
  unfold Ngc.readSign
  split
  · exact (List.mem_cons.1 h).resolve_left (by decide)
  · exact (List.mem_cons.1 h).resolve_left (by decide)
  · exact h

theorem drop_of_suffix {s t : List Char} (h : t <:+ s) : s.drop (s.length - t.length) = t := by
  obtain ⟨pre, rfl⟩ := h
  rw [List.length_append, Nat.add_sub_cancel, List.drop_left]

/-- What follows a number has the `S`. -/
theorem mem_drop_consumed {s : List Char} (h : 'S' ∈ s) : 'S' ∈ s.drop (consumed s) := by
  rw [consumed]
  dsimp only
  split
  · rw [drop_of_suffix ((scanFloat_suffix _ _).trans (readSign_suffix s))]
    exact mem_scanFloat (mem_readSign h) _
  · exact h

/-! ## The head -/

/-- The head of a line that has an `S` ends with it. -/
theorem head_eq {line rest : List Char} (h : (head line).2 = some rest) :
    ∃ pre, (head line).1 = pre ++ ['S'] ∧ rest.length < line.length := by
  induction line with
  | nil => cases h
  | cons c line ih =>
      rw [head] at h ⊢
      by_cases hc : c = 'S'
      · rw [if_pos hc] at h
        rw [if_pos hc]
        cases h
        exact ⟨[], by rw [hc]; rfl, Nat.lt_succ_self _⟩
      · rw [if_neg hc] at h
        rw [if_neg hc]
        obtain ⟨pre, hpre, hlen⟩ := ih h
        dsimp only
        split
        · exact ⟨pre, hpre, Nat.lt_succ_of_lt hlen⟩
        · exact ⟨c :: pre, by rw [hpre, List.cons_append], Nat.lt_succ_of_lt hlen⟩

theorem mem_drop_iff {pre : List Char} : 'S' ∈ (pre ++ ['S']).drop 3 ↔ 4 ≤ (pre ++ ['S']).length := by
  rw [List.length_append, List.length_singleton]
  constructor
  · intro h
    have hlen := List.length_pos_of_mem h
    rw [List.length_drop, List.length_append, List.length_singleton] at hlen
    omega
  · intro h
    rw [List.drop_append_of_le_length (by omega)]
    exact List.mem_append_right _ (List.mem_singleton_self _)

/-! ## Decoding -/

section
variable {convert : List Char → ℕ → Number} {early : Bool} {eol : Char} {line pre h : List Char} {values : List (List Char)}

theorem finish_ok_iff (hh : h = pre ++ ['S']) (hne : values ≠ []) (hlen : ∀ v ∈ values, v.length ≤ 9) :
    ((∀ a ∈ (finish convert eol h values).accesses, a.Ok) ∧ (finish convert eol h values).outcome.Ok) ↔
      ParamOk convert eol h values := by
  have hstem : (trimZeros (ftoa (convert (h.drop 3) values.length))).length ≤ 20 :=
    (length_trimZeros_le _).trans (length_ftoa_le _)
  have hnumber := storeNumber_ok (convert (h.drop 3) values.length)
  have hv : values.headD [] ∈ values := by
    cases values with
    | nil => exact absurd rfl hne
    | cons v vs => exact List.mem_cons_self
  have hv9 := hlen _ hv
  rw [finish, ParamOk]
  by_cases hone : ((h.drop 3).drop (consumed (h.drop 3))).length = 1
  · rw [if_pos hone]
    refine iff_of_true ⟨hnumber, hstem, hne, hlen, ?_⟩ (.inl hone)
    rw [List.length_nil]
    omega
  rw [if_neg hone]
  by_cases hS : 'S' ∈ (h.drop 3).drop (consumed (h.drop 3))
  · rw [if_neg (not_not.2 hS)]
    by_cases heol : eol ≠ '\x00' ∧ eol ∉ values.headD []
    · rw [if_pos heol]
      refine iff_of_false (fun hok => ?_) (fun hok => ?_)
      · exact hok.1 .null (List.mem_append_right _ (List.mem_cons_of_mem _ (List.mem_singleton_self _)))
      · obtain ⟨-, -, h0 | hmem, -⟩ := hok.resolve_left hone
        · exact heol.1 h0
        · exact heol.2 hmem
    · rw [if_neg heol]
      have hidx := List.idxOf_lt_length_of_mem hS
      have htake : ((values.headD []).takeWhile (· ≠ eol)).length ≤ 9 :=
        (List.takeWhile_prefix _).length_le.trans hv9
      have h4 : 4 ≤ h.length := by
        rw [hh, ← mem_drop_iff, ← hh]
        exact List.mem_of_mem_drop hS
      have heol' : eol = '\x00' ∨ eol ∈ values.headD [] := by
        by_contra hnot
        rw [not_or] at hnot
        exact heol hnot
      rw [forall_mem_append_iff, forall_mem_append_iff, copy_ok_iff, List.forall_mem_cons, List.forall_mem_singleton]
      constructor
      · rintro ⟨⟨⟨hcopy, -⟩, -⟩, -, -, -, hfit⟩
        have hcopy' : 0 + ((h.drop 3).drop (consumed (h.drop 3))).length < 24 := hcopy
        exact .inr ⟨h4, by omega, heol', hfit⟩
      · intro hok
        obtain ⟨-, htail, -, hfit⟩ := hok.resolve_left hone
        refine ⟨⟨⟨show 0 + _ < 24 by omega, show _ < 24 by omega, show _ < 10 by omega⟩, hnumber⟩,
          hstem, List.cons_ne_nil _ _, ?_, hfit⟩
        intro w hw
        rcases List.mem_cons.1 hw with rfl | hw
        · exact htake
        · exact hlen w (List.mem_of_mem_tail hw)
  · rw [if_pos hS]
    refine iff_of_false (fun hok => ?_) (fun hok => ?_)
    · exact hok.1 .null (List.mem_append_right _ (List.mem_singleton_self _))
    · obtain ⟨h4, -⟩ := hok.resolve_left hone
      rw [hh, ← mem_drop_iff, ← hh] at h4
      exact hS (mem_drop_consumed h4)

theorem heads_ok_iff :
    (∀ a ∈ copy .block 0 h ++ (if early then copy .param 0 h else []), a.Ok) ↔
      h.length ≤ 33 ∧ (early = true → h.length ≤ 23) := by
  have hblock : 0 + h.length < Buffer.block.size ↔ h.length ≤ 33 := by
    rw [show Buffer.block.size = 34 from rfl]
    omega
  have hparam : 0 + h.length < Buffer.param.size ↔ h.length ≤ 23 := by
    rw [show Buffer.param.size = 24 from rfl]
    omega
  rw [forall_mem_append_iff, copy_ok_iff, hblock]
  cases early with
  | true =>
      rw [if_pos rfl, copy_ok_iff, hparam]
      exact and_congr_right fun _ => ⟨fun h _ => h, fun h => h rfl⟩
  | false => exact and_congr_right fun _ => iff_of_true (fun a ha => by cases ha) nofun

theorem decode_ok_iff (hline : line.length < lineBufferSize) :
    ((∀ a ∈ (decode convert early eol line).accesses, a.Ok) ∧ (decode convert early eol line).outcome.Ok) ↔
      ClusterOk convert early eol line := by
  rw [decode, ClusterOk]
  have hheq := @head_eq line
  generalize head line = p at hheq ⊢
  obtain ⟨h, rest⟩ := p
  cases rest with
  | none => exact iff_of_false (fun hok => hok.2) id
  | some rest =>
      obtain ⟨pre, hpre, hlt⟩ := hheq rfl
      obtain ⟨hvalues, hending, hsplit⟩ := split_spec eol 0 (line.length - rest.length) [] rest (by decide) (by omega)
      rw [Nat.zero_add] at hending
      rw [Nat.sub_zero] at hvalues
      rw [hvalues] at hsplit
      dsimp only at hpre ⊢
      rw [hending]
      by_cases hfull : clusterSize ≤ colons (fields eol [] rest)
      · rw [if_pos hfull]
        dsimp only
        rw [forall_mem_append_iff, heads_ok_iff, hsplit, and_iff_left (show Outcome.Ok .full from trivial),
          and_iff_left (fun h => absurd h (not_lt.2 hfull))]
      rw [if_neg hfull]
      cases hpast : (fields eol [] rest).2 with
      | true =>
          rw [if_pos rfl]
          refine iff_of_false (fun hok => hok.2) ?_
          rintro ⟨-, -, h⟩
          cases (h (not_le.1 hfull)).1
      | false =>
          rw [if_neg Bool.false_ne_true]
          dsimp only
          have hcolons : colons (fields eol [] rest) = (fields eol [] rest).1.length - 1 := by
            rw [colons, hpast, if_neg Bool.false_ne_true]
          have htake : (fields eol [] rest).1.take clusterSize = (fields eol [] rest).1 :=
            List.take_of_length_le (by omega)
          rw [htake] at hsplit ⊢
          rw [hvalues, htake, forall_mem_append_iff, forall_mem_append_iff, heads_ok_iff, hsplit]
          constructor
          · rintro ⟨⟨⟨hheads, hlen⟩, hfinish⟩, hout⟩
            exact ⟨hheads, hlen, fun _ => ⟨rfl, (finish_ok_iff hpre (fields_ne_nil eol [] rest) hlen).1 ⟨hfinish, hout⟩⟩⟩
          · rintro ⟨hheads, hlen, hrest⟩
            obtain ⟨hfinish, hout⟩ := (finish_ok_iff hpre (fields_ne_nil eol [] rest) hlen).2 (hrest (not_le.1 hfull)).2
            exact ⟨⟨⟨hheads, hlen⟩, hfinish⟩, hout⟩

end

/-! ## Safe runs -/

namespace Decoder

/-- There is no line in progress for `stream_fill_buffer`. -/
def Fresh (m : Decoder) : Prop := m.s = none ∨ m.source = .null

instance (m : Decoder) : Decidable m.Fresh := by
  unfold Fresh
  infer_instance

/-- The decoder in front of the next character of a line. -/
def begun (m : Decoder) : Decoder :=
  if m.s = none ∨ m.source = .null then
    { m with source := .input 0, s := some (.input, 0), block := [], count := 0, length := 0 }
  else m

/-- What the buffer holds in front of the static pointer. -/
def taken (m : Decoder) : List Char :=
  match m.s with
  | none => []
  | some (_, k) => m.block.take k

def eolOf (m : Decoder) (line : List Char) : Char :=
  match line.getLast? with
  | none => m.eol
  | some c => if isEol c then c else m.eol

/-- There is room for a character of a line, and for its cluster when it ends the line. -/
def CharOk (convert : List Char → ℕ → Number) (m : Decoder) (c : Char) : Prop :=
  m.length + 1 < lineBufferSize - 1 →
    m.taken.length < lineBufferSize ∧
      (isEol c = true → ¬ (m.length = 0 ∧ m.eol ≠ '\x00' ∧ m.eol ≠ c) →
        m.taken.length + 1 < lineBufferSize ∧
          (isCluster (m.length + 1) (string (m.taken ++ [c])) = true → ClusterOk convert true c (string (m.taken ++ [c]))))

/-- There is room for a line of a file and its cluster. -/
def LineOk (convert : List Char → ℕ → Number) (m : Decoder) (line : List Char) : Prop :=
  line.length < lineBufferSize ∧ (isCluster line.length (string line) = true → ClusterOk convert false (m.eolOf line) (string line))

end Decoder

/-- Every line and its cluster fit, and a reset or a change of the stream leaves no pointer behind: not in the middle of a
cluster, and for a file not in the middle of a line. -/
def Action.Safe (convert : List Char → ℕ → Number) (m : Decoder) : Action → Prop
  | .file bytes => m.length = 0 → m.count = 0 → m.LineOk convert (readLine bytes)
  | .stream none _ => True
  | .stream (some c) _ => m.buffering = true → m.begun.count = 0 → c ≠ Decoder.can → m.begun.CharOk convert c
  | .failed => True
  | .changed true => m.s = none ∨ m.s = some (.input, 0)
  | .changed false | .reset => m.fromFile = true ∨ m.begun.count = 0

instance (convert : List Char → ℕ → Number) (m : Decoder) (c : Char) : Decidable (m.CharOk convert c) := by
  unfold Decoder.CharOk
  infer_instance

instance (convert : List Char → ℕ → Number) (m : Decoder) (line : List Char) : Decidable (m.LineOk convert line) := by
  unfold Decoder.LineOk
  infer_instance

instance (convert : List Char → ℕ → Number) (m : Decoder) (a : Action) : Decidable (a.Safe convert m) := by
  unfold Action.Safe
  split <;> infer_instance

/-! ## The moves of a cluster -/

namespace Decoder

/-- The moves of the cluster that are left fit; the next one is the longest. -/
structure Pending (m : Decoder) : Prop where
  count_eq : m.count = m.values.length
  next_lt : m.next < m.count
  stem_le : m.stem.length ≤ 20
  values_le : ∀ v ∈ m.values, v.length ≤ 9
  first : m.stem.length + (m.values.getD m.next []).length + m.param.length < 30

section
variable {m : Decoder} {convert : List Char → ℕ → Number} {c : Char}

theorem access_ok {as : List Access} (hok : ∀ a ∈ m.accesses, a.Ok) (has : ∀ a ∈ as, a.Ok) :
    ∀ a ∈ (m.access as).accesses, a.Ok := forall_mem_append_iff.2 ⟨hok, has⟩

theorem Pending.count_ne_zero (h : m.Pending) : m.count ≠ 0 := (Nat.zero_lt_of_lt h.next_lt).ne'

/-- The next move is put together inside `cluster.block`. -/
theorem emit_ok (h : m.Pending) (hok : ∀ a ∈ m.accesses, a.Ok) : ∀ a ∈ m.emit.accesses, a.Ok := by
  have hfirst := h.first
  refine access_ok hok (forall_mem_append_iff.2 ⟨copy_ok_iff.2 ?_, ?_⟩)
  · show 3 + m.stem.length + 1 + (m.values.getD m.next []).length < 34
    omega
  · split
    · refine copy_ok_iff.2 ?_
      show 3 + m.stem.length + 1 + (m.values.getD m.next []).length + m.param.length < 34
      omega
    · intro a ha
      cases ha

theorem emit_count : m.emit.count = if m.next + 1 = m.count then 0 else m.count := rfl

theorem Pending.emit (h : m.Pending) (hne : m.next + 1 ≠ m.count) : m.emit.Pending := by
  have hcount : m.emit.count = m.count := if_neg hne
  have hlt := h.next_lt
  have hlt' : m.next + 1 < m.values.length := h.count_eq ▸ (by omega)
  refine ⟨hcount.trans h.count_eq, ?_, h.stem_le, h.values_le, ?_⟩
  · rw [hcount]
    show m.next + 1 < m.count
    omega
  · have hvalue := h.values_le _ (List.getElem_mem hlt')
    have hstem := h.stem_le
    show m.stem.length + (m.values.getD (m.next + 1) []).length + 0 < 30
    rw [List.getD_eq_getElem?_getD, List.getElem?_eq_getElem hlt', Option.getD_some]
    omega

theorem start_ok {d : Decoded} (hok : ∀ a ∈ m.accesses, a.Ok) (hd : ∀ a ∈ d.accesses, a.Ok) :
    ∀ a ∈ (m.start d).accesses, a.Ok := by
  have h := access_ok hok hd
  unfold start
  dsimp only
  cases d.outcome <;> exact h

theorem start_fromFile {d : Decoded} : (m.start d).fromFile = m.fromFile := by
  unfold start
  dsimp only
  cases d.outcome <;> rfl

theorem start_s {d : Decoded} : (m.start d).s = m.s := by
  unfold start
  dsimp only
  cases d.outcome <;> rfl

theorem start_pending {d : Decoded} (hd : d.outcome.Ok) (hfull : d.outcome ≠ .full) : (m.start d).Pending := by
  unfold start
  dsimp only
  cases hout : d.outcome with
  | fault =>
      rw [hout] at hd
      exact hd.elim
  | full => exact absurd hout hfull
  | cluster front stem param values =>
      rw [hout] at hd
      obtain ⟨hstem, hne, hlen, hfirst⟩ := hd
      refine ⟨rfl, List.length_pos_iff.2 hne, hstem, hlen, ?_⟩
      cases values with
      | nil => exact absurd rfl hne
      | cons v vs => exact hfirst

end

/-! ## What the runs preserve -/

structure FileInv (m : Decoder) : Prop where
  fromFile : m.fromFile = true
  ok : ∀ a ∈ m.accesses, a.Ok
  pending : m.count ≠ 0 → m.Pending
  pointer : m.s = none ∨ m.s = some (.input, 0)

/-- The stream decoder between its calls: without a line, in a line, or in a cluster. -/
structure StreamInv (m : Decoder) : Prop where
  fromFile : m.fromFile = false
  ok : ∀ a ∈ m.accesses, a.Ok
  pointer : m.Fresh ∨ (∃ k, m.s = some (.input, k) ∧ k ≤ m.block.length ∧ m.count = 0) ∨
    (∃ k, m.s = some (.block, k)) ∧ m.Pending

section
variable {m : Decoder} {convert : List Char → ℕ → Number} {c : Char}

theorem FileInv.deliver (h : m.FileInv) : m.deliver.1.FileInv := by
  unfold Decoder.deliver
  split
  · exact h
  · exact ⟨h.fromFile, h.ok, fun hc => have hp := h.pending hc; ⟨hp.1, hp.2, hp.3, hp.4, hp.5⟩, h.pointer⟩
  · exact ⟨h.fromFile, h.ok, fun hc => have hp := h.pending hc; ⟨hp.1, hp.2, hp.3, hp.4, hp.5⟩, h.pointer⟩

theorem StreamInv.deliver (h : m.StreamInv) : m.deliver.1.StreamInv := by
  have hpointer : ∀ source, m.source ≠ .null → ∀ n, { m with source := source, length := n : Decoder }.StreamInv :=
    fun source hsource n => ⟨h.fromFile, h.ok, by
      rcases h.pointer with (hs | hnull) | hline | ⟨hs, hp⟩
      · exact .inl (.inl hs)
      · exact absurd hnull hsource
      · exact .inr (.inl hline)
      · exact .inr (.inr ⟨hs, ⟨hp.1, hp.2, hp.3, hp.4, hp.5⟩⟩)⟩
  unfold Decoder.deliver
  split
  · exact h
  · rename_i hsource
    exact hpointer _ (by rw [hsource]; nofun) _
  · rename_i hsource
    exact hpointer _ (by rw [hsource]; nofun) _

theorem FileInv.decoded (h : m.FileInv) (hlen : (string m.block).length < lineBufferSize)
    (hfits : ClusterOk convert false m.eol (string m.block)) :
    FileInv (if (decode convert false m.eol (string m.block)).outcome = .full then
      { m.start (decode convert false m.eol (string m.block)) with count := 0, length := 0 }
    else m.start (decode convert false m.eol (string m.block))) := by
  obtain ⟨hdecoded, hout⟩ := (decode_ok_iff hlen).2 hfits
  have hstart := start_ok h.ok hdecoded
  have hpointer := h.pointer
  rw [← start_s] at hpointer
  split
  · exact ⟨start_fromFile.trans h.fromFile, hstart, fun hc => absurd rfl hc, hpointer⟩
  · rename_i hfull
    exact ⟨start_fromFile.trans h.fromFile, hstart, fun _ => start_pending hout hfull, hpointer⟩

theorem fileLine_inv (h : m.FileInv) (hcount : m.count = 0) {bytes : List Char} (hline : m.LineOk convert (readLine bytes)) :
    (m.fileLine convert bytes).FileInv := by
  obtain ⟨hlen, hcluster⟩ := hline
  let m₀ : Decoder :=
    { m.access (copy .input 0 (readLine bytes)) with
      block := readLine bytes, source := .input 0, length := (readLine bytes).length }
  have hok : ∀ a ∈ m₀.accesses, a.Ok := access_ok h.ok (copy_ok_iff.2 (by
    show 0 + (readLine bytes).length < lineBufferSize
    omega))
  have h₀ : m₀.FileInv := ⟨h.fromFile, hok, fun hc => absurd hcount hc, h.pointer⟩
  -- once the line has ended, the state is `m₀` but for the length and the end of the line
  have hdecode : ∀ m₁ : Decoder, m₁.FileInv → m₁.eol = m.eolOf (readLine bytes) → m₁.block = readLine bytes →
      (m₁.length = (readLine bytes).length ∨ m₁.length = 0) →
      FileInv (if isCluster m₁.length (string m₁.block) then
        if (decode convert false m₁.eol (string m₁.block)).outcome = .full then
          { m₁.start (decode convert false m₁.eol (string m₁.block)) with count := 0, length := 0 }
        else m₁.start (decode convert false m₁.eol (string m₁.block))
      else m₁) := by
    intro m₁ h₁ heol hblock hlength
    by_cases hcl : isCluster m₁.length (string m₁.block) = true
    · rw [if_pos hcl]
      have hlength' : m₁.length = (readLine bytes).length := by
        refine hlength.resolve_right fun h0 => ?_
        rw [h0] at hcl
        cases hcl
      rw [hlength', hblock] at hcl
      have hstring : (string m₁.block).length < lineBufferSize := by
        rw [hblock]
        exact (List.takeWhile_prefix _).length_le.trans_lt hlen
      have hfits : ClusterOk convert false m₁.eol (string m₁.block) := by
        rw [hblock, heol]
        exact hcluster hcl
      exact h₁.decoded hstring hfits
    · rw [if_neg hcl]
      exact h₁
  dsimp only [fileLine]
  rw [eolOf] at hdecode
  cases hlast : (readLine bytes).getLast? with
  | none =>
      rw [hlast] at hdecode
      exact hdecode m₀ h₀ rfl rfl (.inl rfl)
  | some c =>
      rw [hlast] at hdecode
      dsimp only at hdecode ⊢
      split
      · next heol =>
          rw [if_pos heol] at hdecode
          rw [endLine]
          split
          · exact hdecode _ ⟨h.fromFile, hok, fun hc => absurd hcount hc, h.pointer⟩ rfl rfl (.inr rfl)
          · exact hdecode _ ⟨h.fromFile, hok, fun hc => absurd hcount hc, h.pointer⟩ rfl rfl (.inl rfl)
      · next heol =>
          rw [if_neg heol] at hdecode
          exact hdecode m₀ h₀ rfl rfl (.inl rfl)

theorem FileInv.emit (h : m.FileInv) (hcount : m.count ≠ 0) : m.emit.FileInv := by
  have hp := h.pending hcount
  refine ⟨h.fromFile, emit_ok hp h.ok, fun hc => hp.emit fun hlast => hc ?_, h.pointer⟩
  rw [emit_count, if_pos hlast]

theorem FileInv.fileDecoder (h : m.FileInv) {bytes : List Char}
    (hsafe : m.length = 0 → m.count = 0 → m.LineOk convert (readLine bytes)) : (m.fileDecoder convert bytes).1.FileInv := by
  have hfill : m.length = 0 → (m.fileFillBuffer convert bytes).FileInv := by
    intro hlength
    have hline : (if m.count = 0 then m.fileLine convert bytes else m).FileInv := by
      split
      · rename_i hcount
        exact fileLine_inv h hcount (hsafe hlength hcount)
      · exact h
    rw [fileFillBuffer]
    generalize (if m.count = 0 then m.fileLine convert bytes else m) = m' at hline ⊢
    split
    · rename_i hcount
      exact hline.emit hcount
    · exact hline
  have hm : (if m.length = 0 then m.fileFillBuffer convert bytes else m).FileInv := by
    split
    · rename_i hlength
      exact hfill hlength
    · exact h
  rw [Decoder.fileDecoder]
  generalize (if m.length = 0 then m.fileFillBuffer convert bytes else m) = m' at hm ⊢
  split
  · exact hm.deliver
  · exact hm

theorem StreamInv.streamEmit (hfile : m.fromFile = false) (hok : ∀ a ∈ m.accesses, a.Ok) (hs : ∃ k, m.s = some (.block, k))
    (hp : m.Pending) : m.streamEmit.StreamInv := by
  refine ⟨hfile, emit_ok hp hok, ?_⟩
  by_cases hlast : m.next + 1 = m.count
  · exact .inl (.inl (if_pos hlast))
  · have hemit := hp.emit hlast
    obtain ⟨k, hk⟩ := hs
    exact .inr (.inr ⟨⟨k, (if_neg hlast).trans hk⟩, ⟨hemit.1, hemit.2, hemit.3, hemit.4, hemit.5⟩⟩)

theorem streamLine_inv (hfile : m.fromFile = false) (hok : ∀ a ∈ m.accesses, a.Ok) {k : ℕ} (hs : m.s = some (.input, k))
    (hk : k < lineBufferSize) (hlen : m.block.length < lineBufferSize)
    (hcluster : isCluster m.length (string m.block) = true → ClusterOk convert true m.eol (string m.block)) :
    (m.streamLine convert).1.StreamInv := by
  have hterminate : m.terminate = m.access [.store .input k] := by
    rw [terminate, hs]
  have hok' : ∀ a ∈ m.terminate.accesses, a.Ok := by
    rw [hterminate]
    exact access_ok hok (List.forall_mem_singleton.2 hk)
  have hfile' : m.terminate.fromFile = false := by
    rw [hterminate]
    exact hfile
  have hkeep : m.terminate.length = m.length ∧ m.terminate.block = m.block ∧ m.terminate.eol = m.eol := by
    rw [hterminate]
    exact ⟨rfl, rfl, rfl⟩
  rw [streamLine]
  dsimp only
  rw [hkeep.1, hkeep.2.1, hkeep.2.2]
  by_cases hcl : isCluster m.length (string m.block) = true
  · rw [if_pos hcl]
    have hstring : (string m.block).length < lineBufferSize := (List.takeWhile_prefix _).length_le.trans_lt hlen
    obtain ⟨hdecoded, hout⟩ := (decode_ok_iff hstring).2 (hcluster hcl)
    have hstart := start_ok hok' hdecoded
    split
    · exact ⟨start_fromFile.trans hfile', hstart, .inl (.inl rfl)⟩
    · rename_i hfull
      have hp := start_pending (m := m.terminate) hout hfull
      have hcount := hp.count_ne_zero
      dsimp only
      rw [if_pos hcount]
      exact StreamInv.streamEmit (start_fromFile.trans hfile') hstart ⟨3, rfl⟩ ⟨hp.1, hp.2, hp.3, hp.4, hp.5⟩
  · rw [if_neg hcl]
    exact ⟨hfile', hok', .inl (.inl rfl)⟩

theorem length_taken {k : ℕ} (hs : m.s = some (.input, k)) (hk : k ≤ m.block.length) : m.taken.length = k := by
  rw [taken, hs]
  exact List.length_take_of_le hk

theorem streamChar_inv (hfile : m.fromFile = false) (hok : ∀ a ∈ m.accesses, a.Ok) {k : ℕ} (hs : m.s = some (.input, k))
    (hk : k ≤ m.block.length) (hcount : m.count = 0) (hsafe : m.CharOk convert c) :
    (m.streamChar convert c).1.StreamInv := by
  have htaken : m.taken = m.block.take k := by
    rw [taken, hs]
  have hlen : (m.block.take k ++ [c]).length = k + 1 := by
    rw [List.length_append, List.length_take_of_le hk, List.length_singleton]
  have hput : ({ m with length := m.length + 1 } : Decoder).put c =
      { { m with length := m.length + 1 }.access [.store .input k] with
        s := some (.input, k + 1), block := m.block.take k ++ [c] } := by
    rw [put]
    dsimp only
    rw [hs]
    rfl
  rw [streamChar]
  dsimp only
  by_cases hfull : lineBufferSize - 1 ≤ m.length + 1
  · rw [if_pos hfull]
    exact ⟨hfile, hok, .inl (.inl rfl)⟩
  rw [if_neg hfull, hput]
  obtain ⟨hroom, hend⟩ := hsafe (not_le.1 hfull)
  rw [length_taken hs hk] at hroom hend
  have hok' : ∀ a ∈ m.accesses ++ [Access.store .input k], a.Ok := access_ok hok (List.forall_mem_singleton.2 hroom)
  split
  · rename_i heol
    split
    · exact ⟨hfile, hok', .inr (.inl ⟨k, rfl, (Nat.le_succ k).trans hlen.ge, hcount⟩)⟩
    · rename_i hsecond
      obtain ⟨hroom', hcluster⟩ := hend heol fun h => hsecond ⟨by
        show m.length + 1 = 1
        omega, h.2⟩
      rw [htaken] at hcluster
      exact streamLine_inv hfile hok' rfl hroom' (hlen.trans_lt hroom') hcluster
  · exact ⟨hfile, hok', .inr (.inl ⟨k + 1, rfl, hlen.ge, hcount⟩)⟩

theorem StreamInv.begun (h : m.StreamInv) : m.begun.StreamInv ∧ ¬ m.begun.Fresh := by
  rw [Decoder.begun]
  split
  · refine ⟨⟨h.fromFile, h.ok, .inr (.inl ⟨0, rfl, Nat.le_refl _, rfl⟩)⟩, ?_⟩
    rintro (h | h) <;> cases h
  · rename_i hfresh
    exact ⟨h, hfresh⟩

theorem StreamInv.streamFillBuffer (h : m.StreamInv) {c : Option Char} (aborted : Bool)
    (hsafe : m.buffering = true → ∀ d, c = some d → m.begun.count = 0 → d ≠ can → m.begun.CharOk convert d)
    (hbuffering : m.buffering = true) : (m.streamFillBuffer convert c aborted).1.StreamInv := by
  obtain ⟨hbegun, hfresh⟩ := h.begun
  show (if m.begun.count = 0 then _ else _ : Decoder × Fill).1.StreamInv
  rcases hbegun.pointer with hf | ⟨k, hs, hk, hcount⟩ | ⟨hs, hp⟩
  · exact absurd hf hfresh
  · rw [if_pos hcount]
    split
    · split
      · exact ⟨hbegun.fromFile, hbegun.ok, .inl (.inl rfl)⟩
      · exact hbegun
    · rename_i hc
      rw [not_or] at hc
      obtain ⟨d, rfl⟩ := Option.ne_none_iff_exists'.1 hc.1
      refine streamChar_inv hbegun.fromFile hbegun.ok hs hk hcount (hsafe hbuffering d rfl hcount fun hd => hc.2 ?_)
      rw [hd]
  · rw [if_neg hp.count_ne_zero]
    exact StreamInv.streamEmit hbegun.fromFile hbegun.ok hs hp

theorem StreamInv.buffering (h : m.StreamInv) (b : Bool) : { m with buffering := b : Decoder }.StreamInv :=
  ⟨h.fromFile, h.ok, h.pointer.imp id (Or.imp id (And.imp_right fun hp => ⟨hp.1, hp.2, hp.3, hp.4, hp.5⟩))⟩

theorem StreamInv.hand (h : m.StreamInv) : m.hand.1.StreamInv := by
  rw [Decoder.hand]
  split
  · exact h.deliver
  · exact h.buffering true

theorem StreamInv.streamDecoder (h : m.StreamInv) {c : Option Char} {aborted : Bool}
    (hsafe : m.buffering = true → ∀ d, c = some d → m.begun.count = 0 → d ≠ can → m.begun.CharOk convert d) :
    (m.streamDecoder convert c aborted).1.StreamInv := by
  rw [Decoder.streamDecoder]
  split
  · rename_i hbuffering
    have hfill := h.streamFillBuffer aborted hsafe hbuffering
    split
    · rename_i m' heq
      rw [heq] at hfill
      exact (hfill.buffering false).hand
    · rename_i m' d heq
      rw [heq] at hfill
      split
      · exact (hfill.buffering false).hand
      · exact hfill
  · exact h.hand

theorem StreamInv.clear (h : m.StreamInv) (hcount : m.begun.count = 0) : m.clear.StreamInv := by
  refine ⟨h.fromFile, h.ok, ?_⟩
  rcases h.pointer with hfresh | ⟨k, hs, hk, -⟩ | ⟨⟨k, hs⟩, hp⟩
  · exact .inl hfresh
  · exact .inr (.inl ⟨k, hs, hk, rfl⟩)
  · by_cases hfresh : m.Fresh
    · exact .inl hfresh
    · rw [show m.begun = m from if_neg hfresh] at hcount
      exact absurd hcount hp.count_ne_zero

end

end Decoder

/-- One of the two decoders is in use. -/
def Inv (m : Decoder) : Prop := m.FileInv ∨ m.StreamInv

theorem Inv.ok {m : Decoder} : Inv m → ∀ a ∈ m.accesses, a.Ok
  | .inl h => h.ok
  | .inr h => h.ok

theorem Inv.step {convert : List Char → ℕ → Number} {m m' : Decoder} {a : Action} (h : Inv m) (hsafe : a.Safe convert m)
    (hstep : step convert m a = some m') : Inv m' := by
  cases a with
  | file bytes =>
      rcases h with h | h
      · cases (if_pos h.fromFile).symm.trans hstep
        exact .inl (h.fileDecoder hsafe)
      · cases (if_neg (by rw [h.fromFile]; exact Bool.false_ne_true)).symm.trans hstep
  | stream c aborted =>
      rcases h with h | h
      · cases (if_pos h.fromFile).symm.trans hstep
      · cases (if_neg (by rw [h.fromFile]; exact Bool.false_ne_true)).symm.trans hstep
        refine .inr (h.streamDecoder fun hbuffering d hd => ?_)
        subst hd
        exact hsafe hbuffering
  | failed =>
      cases hstep
      rw [Decoder.failed]
      split
      · rcases h with h | h
        · exact .inl ⟨h.fromFile, h.ok, fun hc => absurd rfl hc, h.pointer⟩
        · exact .inr ⟨h.fromFile, h.ok, .inl (.inr rfl)⟩
      · exact h
  | changed file =>
      cases hstep
      cases file with
      | true => exact .inl ⟨rfl, h.ok, fun hc => absurd rfl hc, hsafe⟩
      | false =>
          rcases h with h | h
          · refine .inr ⟨rfl, h.ok, ?_⟩
            rcases h.pointer with hs | hs
            · exact .inl (.inl hs)
            · exact .inr (.inl ⟨0, hs, Nat.zero_le _, rfl⟩)
          · have hclear := h.clear (hsafe.resolve_left (by rw [h.fromFile]; exact Bool.false_ne_true))
            exact .inr ⟨rfl, hclear.ok, hclear.pointer.imp id (Or.imp id (And.imp_right fun hp => ⟨hp.1, hp.2, hp.3, hp.4, hp.5⟩))⟩
  | reset =>
      cases hstep
      rcases h with h | h
      · exact .inl ⟨h.fromFile, h.ok, fun hc => absurd rfl hc, h.pointer⟩
      · exact .inr (h.clear (hsafe.resolve_left (by rw [h.fromFile]; exact Bool.false_ne_true)))

/-- In a run of safe steps the decoders stay in their buffers and in the line. -/
theorem accesses_ok_of_safe (convert : List Char → ℕ → Number) (as : List Action) (m : Decoder)
    (hsafe : Along (step convert) (fun m a => a.Safe convert m) {} as) (hrun : run (step convert) {} as = some m) :
    ∀ a ∈ m.accesses, a.Ok :=
  (run_invariant_along (fun _ _ _ hI hs hstep => Inv.step hI hs hstep) as {} m
    (.inr ⟨rfl, fun a ha => (List.not_mem_nil ha).elim, .inl (.inl rfl)⟩) hsafe hrun).ok

/-- The characters of a line from the stream, and the calls that follow it. -/
def lineOf (s : String) (n : ℕ) : List Action :=
  s.toList.map (fun c => .stream (some c) false) ++ List.replicate n (.stream none false)

/-- What `ftoa` makes of 5. -/
def five : List Char → ℕ → Number := fun _ _ => ⟨false, 5, 0⟩

theorem accesses_ok_of_two_moves : ∃ m, run (step five) {} (lineOf "G1X10S1:2\n" 30) = some m ∧ ∀ a ∈ m.accesses, a.Ok := by
  have hsome : (run (step five) {} (lineOf "G1X10S1:2\n" 30)).isSome := by decide +kernel
  obtain ⟨m, hm⟩ := Option.isSome_iff_exists.1 hsome
  exact ⟨m, hm, accesses_ok_of_safe five _ m (by decide +kernel) hm⟩

/-- The scan for the `S` of a line that has none runs over its end. -/
theorem scan_runs_over_the_end :
    ¬ ∀ (convert : List Char → ℕ → Number) (as : List Action) (m : Decoder),
      run (step convert) {} as = some m → ∀ a ∈ m.accesses, a.Ok := by
  intro h
  have hpast : (run (step five) {} (lineOf "G1X1Y1:2\n" 0)).map (fun m => m.accesses.contains .past) = some true := by
    decide +kernel
  obtain ⟨m, hm, hmem⟩ := Option.map_eq_some_iff.1 hpast
  exact h five _ m hm .past (List.contains_iff_mem.1 hmem)

end Grbl.Laser.Clusters
