import Grbl.Stream.UsbTransmit

/-!
# Transmissions that are given up

While the endpoint is busy, `hal.stream_blocking_callback` may tell `usb_write` to give up.

* `Machine.giveUp`, `Event`, `stepGiving` : the transmit side with such callbacks;
* `Usable` : what a call is to leave of the buffer;
* `Place` : where the foreground is, and `txbuf.s` and `txbuf.length` there; `Place.statement`, `Place.call`, `Place.step`;
* `give_up_leaves_unusable` : no transmission can be given up; `given_up_block_is_sent_again` : what is sent afterwards.
-/

namespace Grbl.Stream.Usb
open Lib

variable {m m' : Machine}

/-- `if(!hal.stream_blocking_callback()) return false;` in `usb_write`. Its callers return then, or are at their end. -/
def Machine.giveUp (m : Machine) : Option Machine :=
  match m.todo with
  | .transmit :: _ | .transmitDummy :: _ => if m.txDone then none else some { m with todo := [] }
  | _ => none

inductive Event
  | act (a : Action)
  /-- the callback returns false -/
  | giveUp
  deriving DecidableEq, Repr

def stepGiving (m : Machine) : Event → Option Machine
  | .act a => step m a
  | .giveUp => m.giveUp

/-- Between calls, `txbuf.s` is behind what is buffered, and the buffer is not overfull. -/
structure Buffer (m : Machine) : Prop where
  start : m.s = (m.half, m.length)
  length : m.length ≤ m.maxLength

/-- The buffer is in order, and whatever is written from now on, what is handed to the endpoint are bytes that have been written,
each at most once. -/
structure Usable (m : Machine) : Prop where
  buffer : Buffer m
  later : ∀ es m', run stepGiving m es = some m' → m'.handed.Sublist m'.written

/-! ## Where the foreground is -/

/-- What follows a block. -/
inductive Behind : List Statement → Prop
  | done : Behind []
  | more (d : List Byte) (always : Bool) : Behind [.split d always]

/-- Where the foreground is, and `txbuf.s` and `txbuf.length` there. -/
inductive Place (m : Machine) : Prop
  | idle (todo : m.todo = []) (start : m.s = (m.half, m.length))
  | storeChar (c : Byte) (todo : m.todo = [Statement.storeChar c, .transmitChar]) (start : m.s = (m.half, m.length))
  | transmitChar (todo : m.todo = [Statement.transmitChar]) (start : m.s = (m.half, m.length))
  | testRoom (d : List Byte) (always : Bool) (todo : m.todo = [Statement.testRoom d.length, .split d always])
      (start : m.s = (m.half, m.length))
  | split (d : List Byte) (always : Bool) (todo : m.todo = [Statement.split d always]) (start : m.s = (m.half, m.length))
      (room : m.length = 0 ∨ m.length + d.length ≤ m.maxLength)
  | setLength (d : List Byte) (rest : List Statement) (hrest : Behind rest)
      (todo : m.todo = Statement.setLength :: Statement.copyBlock d :: (usbWriteBlock ++ rest))
  | copyBlock (d : List Byte) (rest : List Statement) (hrest : Behind rest) (todo : m.todo = Statement.copyBlock d :: (usbWriteBlock ++ rest))
      (pos : 0 < m.length)
  | append (d : List Byte) (rest : List Statement) (hrest : rest = [] ∨ rest = usbWriteBlock) (todo : m.todo = Statement.append d :: rest)
      (start : m.s = (m.half, m.length)) (hd : d ≠ []) (room : m.length + d.length ≤ m.maxLength)
  | block (rest : List Statement) (hrest : Behind rest) (todo : m.todo = usbWriteBlock ++ rest) (pos : 0 < m.length)
  | sending (s : Statement) (rest : List Statement) (hrest : Behind rest)
      (hs : s = .transmit ∨ s = .testLength ∨ s = .transmitDummy)
      (todo : m.todo = s :: ((if s = .transmit then [Statement.testLength] else []) ++ [Statement.toggle, .setStart, .clearLength] ++ rest))
      (start : m.s = (m.half, 0)) (pos : 0 < m.length)
  | toggle (rest : List Statement) (hrest : Behind rest) (todo : m.todo = [Statement.toggle, .setStart, .clearLength] ++ rest)
  | toggled (rest : List Statement) (hrest : Behind rest) (todo : m.todo = [Statement.setStart, .clearLength] ++ rest)
  | clearLength (rest : List Statement) (hrest : Behind rest) (todo : m.todo = Statement.clearLength :: rest) (start : m.s = (m.half, 0))

theorem transmit_cases (rest : List Statement) (p : Area × ℕ) (n : ℕ) :
    m.transmit rest p n = m ∨ ((m.transmit rest p n).todo = rest ∧ (m.transmit rest p n).s = m.s ∧
      (m.transmit rest p n).half = m.half ∧ (m.transmit rest p n).length = m.length ∧
      (m.transmit rest p n).maxLength = m.maxLength) := by
  unfold Machine.transmit
  split
  · exact .inr ⟨rfl, rfl, rfl, rfl, rfl⟩
  · exact .inl rfl

namespace Place

theorem statement (h : Place m) (hlen : m.length ≤ m.maxLength) (hmax : 0 < m.maxLength) (hstep : Usb.step m .statement = some m') :
    Place m' ∧ m'.length ≤ m'.maxLength ∧ m'.maxLength = m.maxLength := by
  have hexec : ∀ {s rest}, m.todo = s :: rest → m' = m.execute rest s := by
    intro s rest htodo
    simp only [Usb.step, htodo] at hstep
    exact (Option.some.inj hstep).symm
  cases h with
  | idle todo =>
      simp only [Usb.step, todo] at hstep
      cases hstep
  | storeChar c todo start =>
      rw [hexec todo]
      exact ⟨.transmitChar rfl start, hlen, rfl⟩
  | transmitChar todo start =>
      have heq := hexec todo
      rw [Machine.execute] at heq
      rcases transmit_cases (m := m) [] (.buf, 0) 1 with hbusy | ⟨htodo, hs, hhalf, hlength, hmaxLength⟩
      · rw [heq, hbusy]
        exact ⟨.transmitChar todo start, hlen, rfl⟩
      · rw [heq]
        exact ⟨.idle htodo (by rw [hs, hhalf, hlength, start]), by rwa [hlength, hmaxLength], hmaxLength⟩
  | testRoom d always todo start =>
      rw [hexec todo]
      unfold Machine.execute
      dsimp only
      split
      case isTrue hfull => exact ⟨.block _ (.more d always) rfl (Nat.pos_of_ne_zero hfull.1), hlen, rfl⟩
      case isFalse hroom => exact ⟨.split d always rfl start (by dsimp only; omega), hlen, rfl⟩
  | split d always todo start room =>
      rw [hexec todo]
      unfold Machine.execute
      dsimp only
      split
      case isTrue => exact ⟨.setLength d _ (.more _ always) rfl, hlen, rfl⟩
      case isFalse hshort =>
        split
        case isTrue hne =>
          have hd : d ≠ [] := fun hnil => hne (by rw [hnil]; rfl)
          refine ⟨.append d _ ?_ rfl start hd (by dsimp only; omega), hlen, rfl⟩
          split
          · exact .inr (List.append_nil _)
          · exact .inl rfl
        case isFalse => exact ⟨.idle rfl start, hlen, rfl⟩
  | setLength d rest hrest todo =>
      rw [hexec todo]
      exact ⟨.copyBlock d rest hrest rfl hmax, le_rfl, rfl⟩
  | copyBlock d rest hrest todo pos =>
      rw [hexec todo]
      exact ⟨.block rest hrest rfl pos, hlen, rfl⟩
  | append d rest hrest todo start hd room =>
      rw [hexec todo]
      have hpos : 0 < d.length := List.length_pos_iff.2 hd
      obtain rfl | rfl := hrest
      · refine ⟨.idle rfl ?_, room, rfl⟩
        dsimp only [Machine.execute]
        rw [start]
        rfl
      · exact ⟨.block [] .done rfl (Nat.add_pos_right _ hpos), room, rfl⟩
  | block rest hrest todo pos =>
      rw [hexec todo]
      exact ⟨.sending .transmit rest hrest (.inl rfl) rfl rfl pos, hlen, rfl⟩
  | sending s rest hrest hs todo start pos =>
      have heq := hexec todo
      obtain rfl | rfl | rfl := hs
      · rw [Machine.execute] at heq
        rcases transmit_cases (m := m) ([Statement.testLength] ++ [Statement.toggle, .setStart, .clearLength] ++ rest) m.s m.length with
          hbusy | ⟨htodo, hs, hhalf, hlength, hmaxLength⟩
        · rw [if_pos rfl, hbusy] at heq
          rw [heq]
          exact ⟨.sending .transmit rest hrest (.inl rfl) todo start pos, hlen, rfl⟩
        · rw [if_pos rfl] at heq
          rw [heq]
          exact ⟨.sending .testLength rest hrest (.inr (.inl rfl)) htodo (by rw [hs, hhalf, start]) (by rwa [hlength]),
            by rwa [hlength, hmaxLength], hmaxLength⟩
      · rw [heq]
        unfold Machine.execute
        dsimp only
        split
        · exact ⟨.sending .transmitDummy rest hrest (.inr (.inr rfl)) rfl start pos, hlen, rfl⟩
        · exact ⟨.toggle rest hrest rfl, hlen, rfl⟩
      · rw [Machine.execute] at heq
        rcases transmit_cases (m := m) ([] ++ [Statement.toggle, .setStart, .clearLength] ++ rest) (.dummy, 0) 0 with
          hbusy | ⟨htodo, hs, hhalf, hlength, hmaxLength⟩
        · rw [if_neg (by rintro ⟨⟩), hbusy] at heq
          rw [heq]
          exact ⟨.sending .transmitDummy rest hrest (.inr (.inr rfl)) todo start pos, hlen, rfl⟩
        · rw [if_neg (by rintro ⟨⟩)] at heq
          rw [heq]
          exact ⟨.toggle rest hrest htodo, by rwa [hlength, hmaxLength], hmaxLength⟩
  | toggle rest hrest todo =>
      rw [hexec todo]
      exact ⟨.toggled rest hrest rfl, hlen, rfl⟩
  | toggled rest hrest todo =>
      rw [hexec todo]
      exact ⟨.clearLength rest hrest rfl rfl, hlen, rfl⟩
  | clearLength rest hrest todo start =>
      rw [hexec todo]
      cases hrest with
      | done => exact ⟨.idle rfl start, Nat.zero_le _, rfl⟩
      | more d always => exact ⟨.split d always rfl start (.inl rfl), Nat.zero_le _, rfl⟩

theorem endpoint (h : Place m) (b : Bool) (n : ℕ) (l : List Byte) : Place { m with txDone := b, xferCount := n, sent := l } := by
  cases h with
  | idle todo start => exact .idle todo start
  | storeChar c todo start => exact .storeChar c todo start
  | transmitChar todo start => exact .transmitChar todo start
  | testRoom d always todo start => exact .testRoom d always todo start
  | split d always todo start room => exact .split d always todo start room
  | setLength d rest hrest todo => exact .setLength d rest hrest todo
  | copyBlock d rest hrest todo pos => exact .copyBlock d rest hrest todo pos
  | append d rest hrest todo start hd room => exact .append d rest hrest todo start hd room
  | block rest hrest todo pos => exact .block rest hrest todo pos
  | sending s rest hrest hs todo start pos => exact .sending s rest hrest hs todo start pos
  | toggle rest hrest todo => exact .toggle rest hrest todo
  | toggled rest hrest todo => exact .toggled rest hrest todo
  | clearLength rest hrest todo start => exact .clearLength rest hrest todo start

theorem start_of_idle (h : Place m) (htodo : m.todo = []) : m.s = (m.half, m.length) := by
  cases h with
  | idle _ start => exact start
  | sending _ _ _ _ todo => exact absurd (htodo.symm.trans todo) (List.cons_ne_nil _ _).symm
  | storeChar _ todo | transmitChar todo | testRoom _ _ todo | split _ _ todo | setLength _ _ _ todo | copyBlock _ _ _ todo
  | append _ _ _ todo | block _ _ todo | toggle _ _ todo | toggled _ _ todo | clearLength _ _ todo =>
      exact absurd (htodo.symm.trans todo) (List.cons_ne_nil _ _).symm

theorem call (h : Place m) (htodo : m.todo = []) (f : Call) : Place (m.call f) := by
  have hstart := h.start_of_idle htodo
  cases f with
  | usbPutC c => exact .storeChar c rfl hstart
  | usbWriteS d =>
      by_cases hd : d.length = 0
      · exact .idle (if_pos hd) hstart
      · exact .testRoom d false (if_neg hd) hstart
  | usbWrite d =>
      by_cases hd : d.length = 0
      · exact .idle (if_pos hd) hstart
      · exact .testRoom d true (if_neg hd) hstart

theorem step {a : Action} (h : Place m) (hlen : m.length ≤ m.maxLength) (hmax : 0 < m.maxLength) (hstep : Usb.step m a = some m') :
    Place m' ∧ m'.length ≤ m'.maxLength ∧ m'.maxLength = m.maxLength := by
  cases a with
  | call f =>
      simp only [Usb.step] at hstep
      split at hstep
      case isTrue htodo =>
        cases hstep
        exact ⟨h.call htodo f, hlen, rfl⟩
      case isFalse => cases hstep
  | statement => exact h.statement hlen hmax hstep
  | fetch =>
      simp only [Usb.step] at hstep
      split at hstep
      · cases hstep
        exact ⟨h.endpoint _ _ _, hlen, rfl⟩
      · cases hstep
  | complete =>
      simp only [Usb.step] at hstep
      split at hstep
      · cases hstep
        exact ⟨h.endpoint _ _ _, hlen, rfl⟩
      · cases hstep

/-- `usb_write` is given up when it has set `txbuf.s` back, and before it has cleared `txbuf.length`. -/
theorem giveUp (h : Place m) (hgive : m.giveUp = some m') : m'.s = (m'.half, 0) ∧ 0 < m'.length := by
  have hcase : ∃ s rest, m.todo = s :: rest ∧ (s = .transmit ∨ s = .transmitDummy) ∧ m' = { m with todo := [] } := by
    rw [Machine.giveUp] at hgive
    split at hgive
    · rename_i rest htodo
      split at hgive <;> cases hgive
      exact ⟨_, rest, htodo, .inl rfl, rfl⟩
    · rename_i rest htodo
      split at hgive <;> cases hgive
      exact ⟨_, rest, htodo, .inr rfl, rfl⟩
    · cases hgive
  obtain ⟨s, rest, htodo, hs, rfl⟩ := hcase
  cases h with
  | sending _ _ _ _ _ start pos => exact ⟨start, pos⟩
  | idle todo => exact absurd (htodo.symm.trans todo) (List.cons_ne_nil _ _)
  | storeChar _ todo | transmitChar todo | testRoom _ _ todo | split _ _ todo | setLength _ _ _ todo | copyBlock _ _ _ todo
  | append _ _ _ todo | block _ _ todo | toggle _ _ todo | toggled _ _ todo | clearLength _ _ todo =>
      obtain ⟨rfl, -⟩ := List.cons.inj (htodo.symm.trans todo)
      obtain hs | hs := hs <;> cases hs

end Place

/-- In every state of the buffer that is in order, and in every call, `usb_write` leaves the buffer unusable when it is told to give
up, whether at the packet or at the packet of length zero. -/
theorem give_up_leaves_unusable {m m₁ m' : Machine} {as : List Action} (hidle : m.todo = []) (hbuffer : Buffer m)
    (hmax : 0 < m.maxLength) (hrun : run step m as = some m₁) (hgive : m₁.giveUp = some m') : ¬ Usable m' := by
  obtain ⟨hplace, -, -⟩ := run_invariant (I := fun m => Place m ∧ m.length ≤ m.maxLength ∧ 0 < m.maxLength)
    (fun m a m' ⟨h, hlen, hmax⟩ hstep => by
      obtain ⟨h', hlen', hmax'⟩ := h.step hlen hmax hstep
      exact ⟨h', hlen', hmax' ▸ hmax⟩)
    as m m₁ ⟨.idle hidle hbuffer.start, hbuffer.length, hmax⟩ hrun
  obtain ⟨hstart, hpos⟩ := hplace.giveUp hgive
  intro h
  have hzero : 0 = m'.length := congrArg Prod.snd (hstart.symm.trans h.buffer.start)
  omega

def Example.busy : Machine := { txDone := false, xferLen := 1 }

/-- Two bytes are written, up to where the packet is to be taken. -/
def Example.twoBytes : List Action := .call (.usbWrite [1, 2]) :: List.replicate 4 .statement

theorem give_up_leaves_unusable_twoBytes : ∃ m₁ m', run step Example.busy Example.twoBytes = some m₁ ∧ m₁.giveUp = some m' ∧
    ¬ Usable m' := by
  refine ⟨_, _, rfl, rfl, ?_⟩
  have hrun : run step Example.busy Example.twoBytes = some _ := rfl
  exact give_up_leaves_unusable rfl ⟨rfl, by decide⟩ (by decide) hrun rfl

/-- The endpoint is free again, and a further byte is written. -/
def Example.nextByte : List Event :=
  [Event.act .fetch, .act .complete, .act (.call (.usbWrite [3]))] ++ List.replicate 5 (Event.act .statement)

/-- 64 bytes are written; they are taken, and the packet of length zero is given up; then a further byte is written. -/
def Example.fullPacket : List Event :=
  [Event.act (.call (.usbWrite (List.replicate 64 1)))] ++ List.replicate 6 (Event.act .statement) ++ [Event.giveUp] ++
    List.replicate 64 (Event.act .fetch) ++ [Event.act .complete, .act (.call (.usbWrite [3]))] ++ List.replicate 5 (Event.act .statement)

/-- The byte is written over the first one, and a byte that has never been written is sent behind the second one; all but the first
of the 64 bytes are sent twice. -/
theorem given_up_block_is_sent_again :
    (∃ m₁ m₂ m', run step Example.busy Example.twoBytes = some m₁ ∧ m₁.giveUp = some m₂ ∧
      run stepGiving m₂ Example.nextByte = some m' ∧ m'.written = [1, 2, 3] ∧ m'.handed = [3, 2, 0] ∧ ¬ Buffer m₂ ∧ ¬ Usable m₂) ∧
    ∃ m', run stepGiving {} Example.fullPacket = some m' ∧ m'.written = List.replicate 64 1 ++ [3] ∧
      m'.handed = List.replicate 64 1 ++ 3 :: List.replicate 63 1 ++ [0] := by
  refine ⟨⟨_, _, _, rfl, rfl, rfl, rfl, by decide +kernel, fun h => ?_, fun h => ?_⟩, _, rfl, by decide +kernel, by decide +kernel⟩
  · exact absurd h.start (by decide +kernel)
  · exact absurd h.buffer.start (by decide +kernel)

end Grbl.Stream.Usb
