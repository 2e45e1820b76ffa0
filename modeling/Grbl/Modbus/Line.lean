import Mathlib
import Grbl.Modbus.Machine

/-!
# Messages on the Modbus line

* `Line` : the line as the requests should see it, `Line.next` : what may follow;
* `Message.WellFormed`, `Entry.Queued`, `Entry.Sync` : the entries of a run;
* `Stage`, `Inv` : the state of the machine and the line;
* `Action.Safe` : no request is put into the slot of the message whose reply is awaited;
* `intact_of_safe` : every safe run; `flushed_slot_is_overwritten` : a run with a flush.
-/

namespace Grbl.Modbus
open Lib

/-! ## The line -/

/-- The requests accepted, the message whose reply is awaited, and the last one that has got it. -/
structure Line where
  pending : List Entry := []
  outstanding : Option Entry := none
  ended : Option Entry := none

namespace Line

/-- A message is put on the line when no other one is there, the oldest request first; it ends as it was sent; and its
callbacks are called, one each time it ends. -/
def next (l : Line) : Event → Option Line
  | .queued e => if e.async then some { l with pending := l.pending ++ [e] } else none
  | .transmitted e =>
      if l.outstanding = none then
        if e.async then
          if l.pending.head? = some e then some ⟨l.pending.tail, some e, none⟩ else none
        else some { l with outstanding := some e, ended := none }
      else none
  | .ended e _ => if l.outstanding = some e then some { l with outstanding := none, ended := some e } else none
  | .called k f _ msg =>
      match l.ended with
      | none => none
      | some e =>
          if e.callbacks.hook k = some (.user f) ∧ e.msg.id = msg.id ∧ e.msg.context = msg.context then
            some { l with ended := none }
          else none
  | .flushed => some { l with pending := [] }
  | .blocked _ _ | .returned _ _ | .illegal _ _ => some l

/-- The last message to end has the callbacks of the entry. -/
def Ended (l : Line) (e : Entry) : Prop :=
  ∃ e', l.ended = some e' ∧ e'.callbacks = e.callbacks ∧ e'.msg.id = e.msg.id ∧ e'.msg.context = e.msg.context

end Line

/-- The requests accepted into the queue. -/
def accepted (log : List Event) : List Entry :=
  log.filterMap fun
    | .queued e => some e
    | _ => none

/-- The requests from the queue that have been transmitted. -/
def transmitted (log : List Event) : List Entry :=
  log.filterMap fun
    | .transmitted e => if e.async then some e else none
    | _ => none

section
variable {log : List Event} {l l' : Line} {e : Event}

theorem run_next_concat (h : run Line.next {} log = some l) (hn : l.next e = some l') :
    run Line.next {} (log ++ [e]) = some l' := run_concat_eq_some.2 ⟨l, h, hn⟩

theorem sublist_accepted (log : List Event) (l : Line) (h : run Line.next {} log = some l) :
    (transmitted log ++ l.pending).Sublist (accepted log) := by
  induction log using List.reverseRecOn generalizing l with
  | nil =>
      cases h
      exact List.Sublist.refl _
  | append_singleton log e ih =>
      obtain ⟨l₀, h₀, hn⟩ := run_concat_eq_some.1 h
      have hsub := ih l₀ h₀
      have htransmitted : transmitted (log ++ [e]) = transmitted log ++ transmitted [e] := List.filterMap_append
      have haccepted : accepted (log ++ [e]) = accepted log ++ accepted [e] := List.filterMap_append
      rw [htransmitted, haccepted]
      cases e with
      | queued e =>
          simp only [Line.next, Option.ite_none_right_eq_some, Option.some.injEq] at hn
          obtain ⟨_, rfl⟩ := hn
          simpa [transmitted, accepted] using hsub.append_right [e]
      | transmitted e =>
          simp only [Line.next, Option.ite_none_right_eq_some] at hn
          obtain ⟨_, hn⟩ := hn
          cases hasync : e.async with
          | true =>
              simp only [hasync, if_true, Option.ite_none_right_eq_some, Option.some.injEq] at hn
              obtain ⟨hhead, rfl⟩ := hn
              have hcons : l₀.pending = e :: l₀.pending.tail := (List.cons_head?_tail hhead).symm
              rw [hcons] at hsub
              simpa [transmitted, accepted, hasync] using hsub
          | false =>
              simp only [hasync, Bool.false_eq_true, if_false, Option.some.injEq] at hn
              subst hn
              simpa [transmitted, accepted, hasync] using hsub
      | ended e good =>
          simp only [Line.next, Option.ite_none_right_eq_some, Option.some.injEq] at hn
          obtain ⟨_, rfl⟩ := hn
          simpa [transmitted, accepted] using hsub
      | called k f code msg =>
          have hpending : l.pending = l₀.pending := by
            simp only [Line.next] at hn
            split at hn
            · cases hn
            · simp only [Option.ite_none_right_eq_some, Option.some.injEq] at hn
              exact hn.2 ▸ rfl
          simpa [transmitted, accepted, hpending] using hsub
      | flushed =>
          cases hn
          simpa [transmitted, accepted] using (List.sublist_append_left _ _).trans hsub
      | blocked id retries =>
          cases hn
          simpa [transmitted, accepted] using hsub
      | returned id result =>
          cases hn
          simpa [transmitted, accepted] using hsub
      | illegal f msg =>
          cases hn
          simpa [transmitted, accepted] using hsub

end

/-! ## Entries -/

/-- There is room for the CRC, and a reply is expected, with a CRC when it is to be checked. -/
def Message.WellFormed (msg : Message) : Prop :=
  2 ≤ msg.txLength ∧ 1 ≤ msg.rxLength ∧ (msg.crcCheck = true → 2 ≤ msg.rxLength)

instance (msg : Message) : Decidable msg.WellFormed := inferInstanceAs (Decidable (_ ∧ _ ∧ _))

/-- The entry of a request without `block`. -/
def Entry.Queued (e : Entry) : Prop := e.async = true ∧ e.msg.WellFormed ∧ ∀ k, e.callbacks.hook k ≠ some .retry

/-- The entry of a blocking request: as long as there are retries, errors lead to one. -/
def Entry.Sync (e : Entry) : Prop :=
  e.async = false ∧ e.callbacks.onRxPacket ≠ some .retry ∧ (e.callbacks.retries ≠ 0 →
    e.callbacks.onRxException = some .retry ∧ e.callbacks.onRxTimeout = some .retry)

theorem Callbacks.hook_ofUser (c : Callbacks ℕ) (k : Kind) : c.ofUser.hook k = (c.hook k).map .user := by
  cases k <;> rfl

theorem queued_addMessage {msg : Message} (hmsg : msg.WellFormed) (callbacks : Option (Callbacks ℕ)) :
    (addMessage msg true (callbacks.map Callbacks.ofUser)).Queued := by
  cases callbacks with
  | none =>
      refine ⟨rfl, hmsg, fun k => ?_⟩
      cases k <;> simp [addMessage, Callbacks.hook]
  | some c =>
      refine ⟨rfl, hmsg, fun k => ?_⟩
      cases k with
      | packet => cases hc : c.onRxPacket <;> simp [addMessage, Callbacks.hook, Callbacks.ofUser, hc]
      | exception => cases hc : c.onRxException <;> simp [addMessage, Callbacks.hook, Callbacks.ofUser, hc]
      | timeout =>
          cases hc : c.onRxTimeout <;> cases hc' : c.onRxException <;>
            simp [addMessage, Callbacks.hook, Callbacks.ofUser, hc, hc']

theorem sync_addMessage (msg : Message) {callbacks : Option (Callbacks Hook)}
    (hpacket : ∀ c, callbacks = some c → c.onRxPacket ≠ some .retry) : (addMessage msg false callbacks).Sync := by
  cases callbacks with
  | none => exact ⟨rfl, nofun, fun h => absurd rfl h⟩
  | some c =>
      have hc := hpacket c rfl
      by_cases hr : c.retries = 0
      · refine ⟨rfl, ?_, fun h => absurd ?_ h⟩ <;> simp [addMessage, hr, hc]
      · refine ⟨rfl, ?_, fun _ => ?_⟩ <;> simp [addMessage, hr, hc]

@[simp] theorem addMessage_msg (msg : Message) (async : Bool) (callbacks : Option (Callbacks Hook)) :
    (addMessage msg async callbacks).msg = msg := by
  cases callbacks <;> rfl

/-! ## The invariant -/

namespace Machine

/-- A blocking call waits for a reply. -/
def InLoop (m : Machine) : Prop := ∃ c, m.caller = some c ∧ c.waiting = false

/-- No call does. -/
def NotInLoop (m : Machine) : Prop := ∀ c, m.caller = some c → c.waiting = true

/-- The message that has been put on the line. -/
def Holds (m : Machine) : Ref → Prop
  | .slot i => (m.queue i).Queued ∧ Free top m.tail m.head i ∧ m.NotInLoop
  | .sync => m.syncMsg.Sync ∧ m.syncMsg.msg.WellFormed ∧ m.InLoop

end Machine

/-- What `packet` points to in a state. -/
@[reducible] def Stage (m : Machine) (l : Line) : State → Prop
  | .idle | .silent => m.packet = none ∧ l.outstanding = none ∧ m.NotInLoop
  | .tx | .awaitReply => ∃ r, m.packet = some r ∧ l.outstanding = some (m.entry r) ∧ m.Holds r
  | .timeoutException | .gotReply | .exception =>
      m.packet = some .sync ∧ l.outstanding = none ∧ m.InLoop ∧ m.syncMsg.Sync ∧ l.Ended m.syncMsg
  | .retry => m.packet = some .sync ∧ l.outstanding = none ∧ m.InLoop ∧ m.syncMsg.Sync

/-- The invariant, less the state. -/
structure Base (m : Machine) (l : Line) : Prop where
  log : run Line.next {} m.log = some l
  tail_lt : m.tail < top + 1
  head_lt : m.head < top + 1
  pending : l.pending = m.pending
  queued : ∀ e ∈ m.pending, e.Queued
  blocking : m.isBlocking = m.caller.isSome
  caller : ∀ c, m.caller = some c → c.msg.WellFormed
  fault : m.fault = false

structure Inv (m : Machine) (l : Line) : Prop extends Base m l where
  stage : Stage m l m.state

section
variable {cfg : Config} {m m' : Machine} {l l' : Line} {r : Ref} {k : Kind} {code : ℕ} {c : Caller} {e : Entry}

theorem Base.congr (h : Base m l) (hlog : m'.log = m.log) (hqueue : m'.queue = m.queue) (htail : m'.tail = m.tail)
    (hhead : m'.head = m.head) (hblocking : m'.isBlocking = m.isBlocking) (hcaller : m'.caller = m.caller)
    (hfault : m'.fault = m.fault) : Base m' l := by
  have hpending : m'.pending = m.pending := by rw [Machine.pending, hqueue, htail, hhead, Machine.pending]
  exact
    { log := hlog ▸ h.log
      tail_lt := htail ▸ h.tail_lt
      head_lt := hhead ▸ h.head_lt
      pending := h.pending.trans hpending.symm
      queued := hpending ▸ h.queued
      blocking := by rw [hblocking, hcaller, h.blocking]
      caller := hcaller ▸ h.caller
      fault := hfault.trans h.fault }

theorem Base.emit {ev : Event} (h : Base m l) (hn : l.next ev = some l') (hpending : l'.pending = l.pending) :
    Base (m.emit ev) l' :=
  { h with log := run_next_concat h.log hn, pending := hpending.trans h.pending }

theorem Inv.emit {ev : Event} (h : Inv m l) (hn : l.next ev = some l) : Inv (m.emit ev) l :=
  ⟨h.toBase.emit hn rfl, h.stage⟩

/-! ## Callbacks -/

theorem next_called {f : ℕ} (hended : l.Ended e) (hk : e.callbacks.hook k = some (.user f)) :
    l.next (.called k f code e.msg) = some { l with ended := none } := by
  obtain ⟨e', he', hcallbacks, hid, hcontext⟩ := hended
  simp [Line.next, he', hcallbacks, hk, hid, hcontext]

theorem retryException_eq (h : ∀ r', m.packet = some r' → (m.entry r').callbacks.retries = 0) :
    m.retryException cfg = m := by
  rw [Machine.retryException]
  split
  · rfl
  · next r' hp => rw [if_neg (not_not_intro (h r' hp))]

theorem Base.call (cfg : Config) (code : ℕ) (h : Base m l) (hended : l.Ended (m.entry r))
    (hk : (m.entry r).callbacks.hook k = some .retry → ∀ r', m.packet = some r' → (m.entry r').callbacks.retries = 0) :
    ∃ log l', m.call cfg r k code = { m with log := log } ∧ Base { m with log := log } l' ∧
      l'.outstanding = l.outstanding := by
  cases hhook : (m.entry r).callbacks.hook k with
  | none => exact ⟨m.log, l, by simp only [Machine.call, hhook], h, rfl⟩
  | some hook =>
      cases hook with
      | user f =>
          have hnext : l.next (.called k f code (m.entry r).msg) = some { l with ended := none } :=
            next_called hended hhook
          refine ⟨_, { l with ended := none }, ?_, h.emit hnext rfl, rfl⟩
          simp only [Machine.call, hhook]
          rfl
      | retry =>
          refine ⟨m.log, l, ?_, h, rfl⟩
          simp only [Machine.call, hhook]
          exact retryException_eq (hk hhook)

theorem call_retry (hp : m.packet = some r) (hretries : (m.entry r).callbacks.retries ≠ 0)
    (hk : (m.entry r).callbacks.hook k = some .retry) :
    m.call cfg r k code = { m.keepSilence cfg (m.entry r).callbacks.retryDelay with state := .retry } := by
  simp [Machine.call, hk, Machine.retryException, hp, hretries]

/-! ## `modbus_poll` -/

theorem Base.transmitNext (h : Base m l) (hstage : Stage m l .idle) (hne : m.tail ≠ m.head) :
    Inv { m.txMessage cfg (.slot m.tail) with tail := ringNext top m.tail }
      ⟨contents top m.queue (ringNext top m.tail) m.head, some (m.queue m.tail), none⟩ := by
  obtain ⟨-, hout, hnot⟩ := hstage
  have hpop : m.pending = m.queue m.tail :: contents top m.queue (ringNext top m.tail) m.head :=
    contents_pop h.tail_lt h.head_lt hne
  have hqueued : (m.queue m.tail).Queued := h.queued _ (hpop ▸ List.mem_cons_self)
  have hnext : l.next (.transmitted (m.queue m.tail)) =
      some ⟨contents top m.queue (ringNext top m.tail) m.head, some (m.queue m.tail), none⟩ := by
    simp [Line.next, hout, hqueued.1, h.pending, hpop]
  exact
    { log := run_next_concat h.log hnext
      tail_lt := ringNext_lt h.tail_lt
      head_lt := h.head_lt
      pending := rfl
      queued := fun e he => h.queued e (hpop ▸ List.mem_cons_of_mem _ he)
      blocking := h.blocking
      caller := h.caller
      fault := h.fault
      stage := ⟨.slot m.tail, rfl, rfl, hqueued, free_pop h.tail_lt h.head_lt hne, hnot⟩ }

@[simp] theorem entry_setMsg (m : Machine) (r : Ref) (msg : Message) :
    (m.setMsg r msg).entry r = { m.entry r with msg := msg } := by
  cases r <;> simp [Machine.setMsg, Machine.entry]

theorem Base.setMsg (h : Base m l) (hr : ∀ i, r = .slot i → Free top m.tail m.head i) (msg : Message) :
    Base (m.setMsg r msg) l := by
  cases r with
  | sync => exact h.congr rfl rfl rfl rfl rfl rfl rfl
  | slot i =>
      have hpending : (m.setMsg (.slot i) msg).pending = m.pending := contents_update_of_free (hr i rfl) _
      exact { h with pending := h.pending.trans hpending.symm, queued := hpending ▸ h.queued }

theorem Machine.Holds.free (h : m.Holds r) : ∀ i, r = .slot i → Free top m.tail m.head i := by
  rintro i rfl
  exact h.2.1

theorem Machine.Holds.wellFormed (h : m.Holds r) : (m.entry r).msg.WellFormed := by
  cases r with
  | slot i => exact h.1.2.1
  | sync => exact h.2.1

theorem Base.ended (h : Base m l) (hout : l.outstanding = some e) (good : Bool) :
    Base (m.emit (.ended e good)) { l with outstanding := none, ended := some e } :=
  h.emit (by simp [Line.next, hout]) rfl

theorem Base.endAsync (h : Base m l) (hout : l.outstanding = none) (hnot : m.NotInLoop) (hended : l.Ended (m.entry r))
    (hk : (m.entry r).callbacks.hook k ≠ some .retry) : ∃ l', Inv (m.endAsync cfg r k code) l' := by
  have hbase : Base { m with state := .silent } l := h.congr rfl rfl rfl rfl rfl rfl rfl
  obtain ⟨log, l', hcall, hbase', hout'⟩ := hbase.call cfg code hended fun hretry => absurd hretry hk
  rw [Machine.endAsync, hcall]
  exact ⟨l', hbase'.congr rfl rfl rfl rfl rfl rfl rfl, rfl, hout'.trans hout, hnot⟩

theorem Base.endSync {state : State} (h : Base m l) (hp : m.packet = some .sync) (hout : l.outstanding = none)
    (hloop : m.InLoop) (hsync : m.syncMsg.Sync) (hended : l.Ended m.syncMsg)
    (hstate : state = .timeoutException ∨ state = .gotReply ∨ state = .exception) : Inv (m.endSync cfg state) l := by
  refine ⟨h.congr rfl rfl rfl rfl rfl rfl rfl, ?_⟩
  obtain rfl | rfl | rfl := hstate <;> exact ⟨hp, hout, hloop, hsync, hended⟩

theorem Base.timedOut (h : Base m l) (hp : m.packet = some r) (hout : l.outstanding = some (m.entry r))
    (hr : m.Holds r) : ∃ l', Inv (m.timedOut cfg r) l' := by
  have hbase : Base ({ m with rxTimeout := 0 }.emit (.ended (m.entry r) false))
      { l with outstanding := none, ended := some (m.entry r) } :=
    Base.ended (m := { m with rxTimeout := 0 }) (h.congr rfl rfl rfl rfl rfl rfl rfl) hout false
  have hended : Line.Ended { l with outstanding := none, ended := some (m.entry r) } (m.entry r) := ⟨_, rfl, rfl, rfl, rfl⟩
  cases r with
  | slot i =>
      obtain ⟨hqueued, -, hnot⟩ := hr
      rw [Machine.timedOut]
      split
      · exact hbase.endAsync rfl hnot hended (hqueued.2.2 .timeout)
      · next hasync => exact absurd hqueued.1 hasync
  | sync =>
      obtain ⟨hsync, -, hloop⟩ := hr
      rw [Machine.timedOut]
      split
      · next hasync => exact absurd hasync (Bool.eq_false_iff.1 hsync.1)
      · split
        · exact ⟨_, Base.endSync (hbase.congr rfl rfl rfl rfl rfl rfl rfl) hp rfl hloop hsync hended (by simp)⟩
        · exact ⟨_, Base.endSync (hbase.congr rfl rfl rfl rfl rfl rfl rfl) hp rfl hloop hsync hended (by simp)⟩

theorem Base.readReply (h : Base m l) (hr : m.Holds r) : Base (m.readReply r) l := by
  obtain ⟨-, hlen, hcrc⟩ := hr.wellFormed
  have hfault : (m.fault || decide ((m.entry r).msg.rxLength = 0) ||
      ((m.entry r).msg.crcCheck && decide ((m.entry r).msg.rxLength < 2))) = m.fault := by
    have hpos : ¬ (m.entry r).msg.rxLength = 0 := by omega
    have hcheck : ((m.entry r).msg.crcCheck && decide ((m.entry r).msg.rxLength < 2)) = false := by
      cases hc : (m.entry r).msg.crcCheck with
      | false => rfl
      | true =>
          have hrx := hcrc hc
          simp only [Bool.true_and, decide_eq_false_iff_not]
          omega
    rw [hcheck, decide_eq_false hpos, Bool.or_false, Bool.or_false]
  have hbase : Base { m with
      rx := m.rx.drop (m.entry r).msg.rxLength
      fault := m.fault || (m.entry r).msg.rxLength = 0 || ((m.entry r).msg.crcCheck && (m.entry r).msg.rxLength < 2) } l :=
    h.congr rfl rfl rfl rfl rfl rfl hfault
  exact hbase.setMsg hr.free _

@[simp] theorem entry_readReply (m : Machine) (r : Ref) :
    (m.readReply r).entry r = { m.entry r with msg := (m.entry r).msg.withReply (m.rx.take (m.entry r).msg.rxLength) } := by
  rw [Machine.readReply, entry_setMsg]
  cases r <;> rfl

theorem Base.gotBytes (h : Base m l) (hp : m.packet = some r) (hout : l.outstanding = some (m.entry r))
    (hr : m.Holds r) : ∃ l', Inv (m.gotBytes cfg r) l' := by
  have hbase := fun good => (h.readReply hr).ended hout good
  have hentry := entry_readReply m r
  have hended : ∀ msg : Message, msg.id = (m.entry r).msg.id → msg.context = (m.entry r).msg.context →
      Line.Ended { l with outstanding := none, ended := some (m.entry r) } { m.entry r with msg := msg } :=
    fun msg hid hcontext => ⟨_, rfl, rfl, hid.symm, hcontext.symm⟩
  rw [Machine.gotBytes]
  generalize (!(m.entry r).msg.crcCheck || ((m.readReply r).entry r).msg.crcOk (m.entry r).msg.rxLength) = good
  split
  · next hasync =>
      cases r with
      | sync => exact absurd hasync (Bool.eq_false_iff.1 hr.1.1)
      | slot i =>
          obtain ⟨hqueued, hfree, hnot⟩ := hr
          have hread : ((m.readReply (.slot i)).emit (.ended (m.entry (.slot i)) good)).entry (.slot i) =
              { m.entry (.slot i) with msg := (m.queue i).msg.withReply (m.rx.take (m.queue i).msg.rxLength) } :=
            entry_readReply m (.slot i)
          split
          · refine ((hbase good).setMsg ?_ _).endAsync rfl hnot ?_ ?_
            · rintro j hj
              cases hj
              exact hfree
            · rw [entry_setMsg, hread]
              exact hended _ rfl rfl
            · rw [entry_setMsg, hread]
              exact hqueued.2.2 .packet
          · refine (hbase good).endAsync rfl hnot ?_ ?_
            · rw [hread]
              exact hended _ rfl rfl
            · rw [hread]
              exact hqueued.2.2 .exception
  · next hasync =>
      cases r with
      | slot i => exact absurd hr.1.1 hasync
      | sync =>
          obtain ⟨hsync, -, hloop⟩ := hr
          exact ⟨_, (hbase good).endSync hp rfl hloop hsync (hended _ rfl rfl) (by cases good <;> simp)⟩

theorem Inv.awaitReply (h : Inv m l) (hs : m.state = .awaitReply) (hp : m.packet = some r) :
    ∃ l', Inv (m.awaitReply cfg r) l' := by
  have hstage := h.stage
  rw [hs] at hstage
  obtain ⟨r', hp', hout, hr⟩ := hstage
  cases hp.symm.trans hp'
  have hbase : Base { m with rxTimeout := m.rxTimeout - 1 } l := h.toBase.congr rfl rfl rfl rfl rfl rfl rfl
  rw [Machine.awaitReply]
  split
  · exact h.toBase.timedOut hp hout hr
  · dsimp only
    split
    · exact hbase.gotBytes hp hout hr
    · exact ⟨l, hbase, h.stage⟩

/-- `modbus_poll` -/
theorem Inv.poll (h : Inv m l) (sent : Bool) : ∃ l', Inv (m.poll cfg sent) l' := by
  have hstage := h.stage
  rw [Machine.poll]
  split
  · next hs =>
      rw [hs] at hstage
      split
      · next hcond => exact ⟨_, h.toBase.transmitNext hstage hcond.1⟩
      · exact ⟨l, h⟩
  · next hs =>
      rw [hs] at hstage
      split
      · exact ⟨l, h.toBase.congr rfl rfl rfl rfl rfl rfl rfl, hstage⟩
      · exact ⟨l, h⟩
  · next hs =>
      rw [hs] at hstage
      split
      · exact ⟨l, h.toBase.congr rfl rfl rfl rfl rfl rfl rfl, hstage⟩
      · exact ⟨l, h⟩
  · next hs =>
      cases hp : m.packet with
      | some r => exact h.awaitReply hs hp
      | none =>
          rw [hs] at hstage
          obtain ⟨r, hp', -⟩ := hstage
          cases hp.symm.trans hp'
  · next hs =>
      rw [hs] at hstage
      obtain ⟨hp, hout, hloop, hsync, hended⟩ := hstage
      simp only [hp]
      refine ⟨l, h.toBase.congr rfl rfl rfl rfl rfl rfl rfl, ?_⟩
      change Stage _ l (if m.syncMsg.async then .silent else .timeoutException)
      rw [hsync.1]
      exact ⟨rfl, hout, hloop, hsync, hended⟩
  · exact ⟨l, h⟩

/-! ## `modbus_send_rtu` -/

theorem Base.finish (h : Base m l) (hout : l.outstanding = none) (c : Caller) (result : Bool) :
    Inv (m.finish c result) l := by
  refine ⟨{ h with log := run_next_concat h.log rfl, blocking := rfl, caller := nofun }, ?_⟩
  change Stage _ l (if m.silenceUntil > 0 then .silent else .idle)
  split <;> exact ⟨rfl, hout, nofun⟩

theorem Base.transmitSync (h : Base m l) (hout : l.outstanding = none) (hsync : e.Sync) (hmsg : e.msg.WellFormed)
    (hloop : m.InLoop) : ∃ l', Inv (m.transmitSync cfg e) l' := by
  have hnext : l.next (.transmitted e) = some { l with outstanding := some e, ended := none } := by
    simp [Line.next, hout, hsync.1]
  exact ⟨_, { h with log := run_next_concat h.log hnext }, .sync, rfl, rfl, hsync, hmsg, hloop⟩

theorem Base.attendError (h : Base m l) (hp : m.packet = some .sync) (hout : l.outstanding = none) (hloop : m.InLoop)
    (hsync : m.syncMsg.Sync) (hended : l.Ended m.syncMsg)
    (hk : m.syncMsg.callbacks.retries ≠ 0 → m.syncMsg.callbacks.hook k = some .retry) :
    ∃ l', Inv ((m.call cfg .sync k code).finishUnlessRetry c .sync) l' := by
  by_cases hretries : m.syncMsg.callbacks.retries = 0
  · have hlast : ∀ r', m.packet = some r' → (m.entry r').callbacks.retries = 0 := by
      intro r' hr'
      cases hp.symm.trans hr'
      exact hretries
    obtain ⟨log, l', hcall, hbase, hout'⟩ := h.call (r := .sync) cfg code hended fun _ => hlast
    rw [hcall, Machine.finishUnlessRetry]
    split
    · exact ⟨l', hbase.finish (hout'.trans hout) c false⟩
    · next hne => exact absurd hretries hne
  · rw [call_retry hp hretries (hk hretries), Machine.finishUnlessRetry]
    split
    · next heq => exact absurd heq hretries
    · exact ⟨l, h.congr rfl rfl rfl rfl rfl rfl rfl, hp, hout, hloop, hsync⟩

theorem Inv.retransmit (h : Inv m l) (hs : m.state = .retry) (hc : m.caller = some c) :
    ∃ l', Inv (m.retransmit cfg c .sync) l' := by
  have hstage := h.stage
  rw [hs] at hstage
  obtain ⟨-, hout, hloop, hsync⟩ := hstage
  have hbase : Base { m with silenceUntil := 0 } l := h.toBase.congr rfl rfl rfl rfl rfl rfl rfl
  refine hbase.transmitSync hout (sync_addMessage _ ?_) ?_ hloop
  · intro cb hcb
    cases hcb
    split <;> exact hsync.2.1
  · rw [addMessage_msg]
    exact h.caller c hc

theorem Inv.attend (h : Inv m l) (hp : m.packet = some r) (hc : m.caller = some c) :
    ∃ l', Inv (m.attend cfg c r) l' := by
  have hstage := h.stage
  rw [Machine.attend]
  split
  · next hs =>
      rw [hs] at hstage
      obtain ⟨hp', hout, hloop, hsync, hended⟩ := hstage
      cases hp.symm.trans hp'
      exact h.toBase.attendError hp hout hloop hsync hended fun hretries => (hsync.2.2 hretries).2
  · next hs =>
      rw [hs] at hstage
      obtain ⟨hp', hout, hloop, hsync, hended⟩ := hstage
      cases hp.symm.trans hp'
      exact h.toBase.attendError hp hout hloop hsync hended fun hretries => (hsync.2.2 hretries).1
  · next hs =>
      rw [hs] at hstage
      obtain ⟨hp', hout, hloop, hsync, hended⟩ := hstage
      cases hp.symm.trans hp'
      obtain ⟨log, l', hcall, hbase, hout'⟩ := h.toBase.call (r := .sync) (k := .packet) cfg 0 hended
        fun hretry => absurd hretry hsync.2.1
      rw [hcall]
      exact ⟨l', hbase.finish (hout'.trans hout) c true⟩
  · next hs =>
      rw [hs] at hstage
      cases hp.symm.trans hstage.1
      split
      · exact h.retransmit hs hc
      · exact ⟨l, h⟩
  · exact ⟨l, h⟩

theorem Inv.awaitIdle (h : Inv m l) (hc : m.caller = some c) : ∃ l', Inv (m.awaitIdle cfg c) l' := by
  rw [Machine.awaitIdle]
  split
  · next hs =>
      have hstage := h.stage
      rw [hs] at hstage
      have hmsg := h.caller c hc
      have hbase : Base { m with caller := some { c with waiting := false } } l :=
        { h.toBase with
          blocking := by rw [h.blocking, hc]; rfl
          caller := by
            intro c' hc'
            cases hc'
            exact hmsg }
      refine hbase.transmitSync hstage.2.1 (sync_addMessage _ ?_) (by rw [addMessage_msg]; exact hmsg) ⟨_, rfl, rfl⟩
      intro cb hcb
      obtain ⟨cb', -, rfl⟩ := Option.map_eq_some_iff.1 hcb
      cases hpacket : cb'.onRxPacket <;> simp [Callbacks.ofUser, hpacket]
  · exact ⟨l, h⟩

theorem Inv.resume (h : Inv m l) : ∃ l', Inv (m.resume cfg) l' := by
  rw [Machine.resume]
  cases hc : m.caller with
  | none => exact ⟨l, h⟩
  | some c =>
      simp only
      split
      · exact h.awaitIdle hc
      · next hwait =>
          -- In the loop the message has been sent, so that `packet` is not null.
          cases hp : m.packet with
          | some r => exact h.attend hp hc
          | none =>
              have hstage := h.stage
              exfalso
              cases hs : m.state with
              | idle | silent =>
                  rw [hs] at hstage
                  exact hwait (hstage.2.2 c hc)
              | tx | awaitReply =>
                  rw [hs] at hstage
                  obtain ⟨r, hr, -⟩ := hstage
                  cases hp.symm.trans hr
              | timeoutException | gotReply | exception | retry =>
                  rw [hs] at hstage
                  cases hp.symm.trans hstage.1

theorem Stage.congr {state : State} (h : Stage m l state) (hpacket : m'.packet = m.packet)
    (hsync : m'.syncMsg = m.syncMsg) (hcaller : m'.caller = m.caller) (hout : l'.outstanding = l.outstanding)
    (hended : l'.ended = l.ended)
    (hholds : ∀ r, m.packet = some r → m.Holds r → m'.entry r = m.entry r ∧ m'.Holds r) : Stage m' l' state := by
  cases state with
  | idle | silent =>
      obtain ⟨hp, ho, hnot⟩ := h
      refine ⟨hpacket.trans hp, hout.trans ho, ?_⟩
      rw [Machine.NotInLoop, hcaller]
      exact hnot
  | tx | awaitReply =>
      obtain ⟨r, hp, ho, hr⟩ := h
      obtain ⟨hentry, hr'⟩ := hholds r hp hr
      exact ⟨r, hpacket.trans hp, by rw [hout, ho, hentry], hr'⟩
  | timeoutException | gotReply | exception =>
      obtain ⟨hp, ho, hloop, hs, he⟩ := h
      refine ⟨hpacket.trans hp, hout.trans ho, ?_, hsync ▸ hs, ?_⟩
      · rw [Machine.InLoop, hcaller]
        exact hloop
      · rw [Line.Ended, hended, hsync]
        exact he
  | retry =>
      obtain ⟨hp, ho, hloop, hs⟩ := h
      refine ⟨hpacket.trans hp, hout.trans ho, ?_, hsync ▸ hs⟩
      rw [Machine.InLoop, hcaller]
      exact hloop

theorem Inv.sendAsync {msg : Message} (h : Inv m l) (hmsg : msg.WellFormed) (callbacks : Option (Callbacks ℕ))
    (hsafe : m.passes = true → ringNext top m.head ≠ m.tail → m.packet ≠ some (.slot m.head)) :
    ∃ l', Inv (m.sendAsync msg callbacks) l' := by
  rw [Machine.sendAsync]
  split
  · next haccepts =>
      obtain ⟨hpasses, hfree⟩ := haccepts
      have hqueued := queued_addMessage hmsg callbacks
      generalize addMessage msg true (callbacks.map Callbacks.ofUser) = e at hqueued ⊢
      have hpush : contents top (Function.update m.queue m.head e) m.tail (ringNext top m.head) = m.pending ++ [e] :=
        contents_push h.tail_lt h.head_lt hfree e
      have hnext : l.next (.queued e) = some { l with pending := l.pending ++ [e] } := by simp [Line.next, hqueued.1]
      refine ⟨{ l with pending := l.pending ++ [e] }, Inv.emit ⟨?_, ?_⟩ rfl⟩
      · exact
          { h.toBase with
            log := run_next_concat h.log hnext
            head_lt := ringNext_lt h.head_lt
            pending := (congrArg (· ++ [e]) h.pending).trans hpush.symm
            queued := by
              intro x hx
              rw [Machine.pending, Machine.emit, hpush] at hx
              obtain hx | hx := List.mem_append.1 hx
              · exact h.queued x hx
              · exact List.mem_singleton.1 hx ▸ hqueued }
      · refine h.stage.congr rfl rfl rfl rfl rfl fun r hp hr => ?_
        cases r with
        | sync => exact ⟨rfl, hr⟩
        | slot i =>
            have hne : i ≠ m.head := fun he => hsafe hpasses hfree (he ▸ hp)
            have hentry : Function.update m.queue m.head e i = m.queue i := Function.update_of_ne hne _ _
            obtain ⟨hold, hnotQueued, hnot⟩ := hr
            refine ⟨hentry, ?_, hnotQueued.push h.tail_lt h.head_lt hfree hne, hnot⟩
            change (Function.update m.queue m.head e i).Queued
            rw [hentry]
            exact hold
  · exact ⟨l, h.emit rfl⟩

theorem Inv.block {msg : Message} (h : Inv m l) (hnone : m.caller = none) (hmsg : msg.WellFormed)
    (callbacks : Option (Callbacks ℕ)) (retries : ℕ) :
    Inv ({ m with isBlocking := true, caller := some ⟨msg, callbacks, true⟩ }.emit (.blocked msg.id retries)) l := by
  have hloop : ¬ m.InLoop := by
    rintro ⟨c, hc, -⟩
    cases hnone.symm.trans hc
  have hwaiting : ∀ c : Caller, some (⟨msg, callbacks, true⟩ : Caller) = some c → c.waiting = true := by
    intro c hc
    cases hc
    rfl
  refine ⟨{ h.toBase with log := run_next_concat h.log rfl, blocking := rfl, caller := ?_ }, ?_⟩
  · intro c hc
    cases hc
    exact hmsg
  · have hstage := h.stage
    change Stage _ l m.state
    cases hs : m.state with
    | idle | silent =>
        rw [hs] at hstage
        exact ⟨hstage.1, hstage.2.1, hwaiting⟩
    | tx | awaitReply =>
        rw [hs] at hstage
        obtain ⟨r, hp, hout, hr⟩ := hstage
        cases r with
        | sync => exact absurd hr.2.2 hloop
        | slot i => exact ⟨.slot i, hp, hout, hr.1, hr.2.1, hwaiting⟩
    | timeoutException | gotReply | exception =>
        rw [hs] at hstage
        exact absurd hstage.2.2.1 hloop
    | retry =>
        rw [hs] at hstage
        exact absurd hstage.2.2.1 hloop

theorem Base.caller_eq_none (h : Base m l) (hblocking : ¬ m.isBlocking = true) : m.caller = none := by
  rw [← Option.not_isSome_iff_eq_none, ← h.blocking]
  exact hblocking

theorem Inv.sendBlocking {msg : Message} (h : Inv m l) (hmsg : msg.WellFormed) (callbacks : Option (Callbacks ℕ)) :
    ∃ l', Inv (m.sendBlocking cfg msg callbacks) l' := by
  rw [Machine.sendBlocking]
  split
  · exact ⟨l, h.emit rfl⟩
  · next hblocking => exact (h.block (h.caller_eq_none hblocking) hmsg callbacks _).awaitIdle rfl

theorem Inv.sendIllegal (h : Inv m l) (msg : Message) {callbacks : Option (Callbacks ℕ)} (hcallbacks : callbacks ≠ none) :
    Inv (m.sendIllegal msg callbacks) l := by
  obtain ⟨cb, rfl⟩ := Option.ne_none_iff_exists'.1 hcallbacks
  simp only [Machine.sendIllegal]
  split
  · exact (h.emit rfl).emit rfl
  · exact h.emit rfl

end

/-! ## Safe runs -/

/-- The request is put into the queue. -/
def Machine.Accepts (m : Machine) (msg : Message) (block blockingEvent : Bool) : Prop :=
  (msg.txLength ≤ maxAduSize ∧ msg.rxLength ≤ maxAduSize) ∧ (block && !blockingEvent) = false ∧
    m.passes = true ∧ ringNext top m.head ≠ m.tail

/-- A request is well formed, has callbacks when it is too long, and is not put into the slot of the message whose reply
is awaited. -/
def Action.Safe (m : Machine) : Action → Prop
  | .send msg callbacks block blockingEvent =>
      msg.WellFormed ∧ (maxAduSize < msg.txLength ∨ maxAduSize < msg.rxLength → callbacks ≠ none) ∧
        (m.Accepts msg block blockingEvent → m.packet ≠ some (.slot m.head))
  | .poll _ _ | .resume _ | .flush | .receive _ => True

instance (m : Machine) (msg : Message) (block blockingEvent : Bool) : Decidable (m.Accepts msg block blockingEvent) :=
  inferInstanceAs (Decidable (_ ∧ _ ∧ _ ∧ _))

instance (m : Machine) (a : Action) : Decidable (a.Safe m) :=
  match a with
  | .send msg callbacks block blockingEvent =>
      inferInstanceAs (Decidable (msg.WellFormed ∧ (_ → callbacks ≠ none) ∧ (_ → _)))
  | .poll _ _ | .resume _ | .flush | .receive _ => isTrue trivial

section
variable {cfg : Config} {m : Machine} {l : Line}

theorem Inv.sendRtu {msg : Message} {callbacks : Option (Callbacks ℕ)} {block blockingEvent : Bool} (h : Inv m l)
    (hsafe : (Action.send msg callbacks block blockingEvent).Safe m) :
    ∃ l', Inv (m.sendRtu cfg msg callbacks block blockingEvent) l' := by
  obtain ⟨hmsg, hcallbacks, hslot⟩ := hsafe
  have hcalls : Inv { m with calls := m.calls + 1 } l := ⟨h.toBase.congr rfl rfl rfl rfl rfl rfl rfl, h.stage⟩
  simp only [Machine.sendRtu]
  split
  · next hlong => exact ⟨l, hcalls.sendIllegal _ (hcallbacks hlong)⟩
  · next hshort =>
      have hlengths : msg.txLength ≤ maxAduSize ∧ msg.rxLength ≤ maxAduSize := by omega
      have hfault : (m.fault || decide (msg.txLength < 2)) = m.fault := by
        have := hmsg.1
        simp; omega
      have hbase : Inv { m with calls := m.calls + 1, fault := m.fault || msg.txLength < 2 } l :=
        ⟨hcalls.toBase.congr rfl rfl rfl rfl rfl rfl hfault, h.stage⟩
      have hcrc : ({ msg with id := m.calls } : Message).withCrc.WellFormed := hmsg
      split
      · exact hbase.sendBlocking hcrc callbacks
      · next hblock =>
          exact hbase.sendAsync hcrc callbacks fun hpasses hfree =>
            hslot ⟨hlengths, Bool.eq_false_iff.2 hblock, hpasses, hfree⟩

theorem Inv.flushQueue (h : Inv m l) : Inv m.flushQueue { l with pending := [] } := by
  refine ⟨{ h.toBase with log := run_next_concat h.log rfl, tail_lt := h.head_lt, pending := contents_self.symm, queued := ?_ }, ?_⟩
  · intro e he
    rw [Machine.pending, Machine.flushQueue, Machine.emit, contents_self] at he
    cases he
  · refine h.stage.congr rfl rfl rfl rfl rfl fun r _ hr => ?_
    cases r with
    | sync => exact ⟨rfl, hr⟩
    | slot i => exact ⟨rfl, hr.1, free_self h.head_lt i, hr.2.2⟩

theorem Inv.exec (h : Inv m l) {a : Action} (hsafe : a.Safe m) : ∃ l', Inv (m.exec cfg a) l' := by
  have hquiet : ∀ ms, Inv (m.elapse ms) l := fun ms => ⟨h.toBase.congr rfl rfl rfl rfl rfl rfl rfl, h.stage⟩
  cases a with
  | poll ms sent => exact (hquiet ms).poll sent
  | resume ms => exact (hquiet ms).resume
  | send msg callbacks block blockingEvent => exact h.sendRtu hsafe
  | flush => exact ⟨_, h.flushQueue⟩
  | receive bytes => exact ⟨l, h.toBase.congr rfl rfl rfl rfl rfl rfl rfl, h.stage⟩

theorem inv_init : Inv {} {} :=
  { log := rfl
    tail_lt := by decide
    head_lt := by decide
    pending := rfl
    queued := nofun
    blocking := rfl
    caller := nofun
    fault := rfl
    stage := ⟨rfl, rfl, nofun⟩ }

/-- The messages of a run: the line has seen nothing but what it should, and the message whose reply is awaited is what has
been put on it. -/
structure Intact (m : Machine) : Prop where
  in_order : (transmitted m.log).Sublist (accepted m.log)
  line : ∃ l, run Line.next {} m.log = some l ∧ l.pending = m.pending ∧
    if m.state = .tx ∨ m.state = .awaitReply then ∃ r, m.packet = some r ∧ l.outstanding = some (m.entry r)
    else l.outstanding = none
  fault : m.fault = false

theorem Inv.intact (h : Inv m l) : Intact m where
  in_order := (List.sublist_append_left _ _).trans (sublist_accepted m.log l h.log)
  line := by
    refine ⟨l, h.log, h.pending, ?_⟩
    have hstage := h.stage
    cases hs : m.state with
    | tx | awaitReply =>
        rw [hs] at hstage
        obtain ⟨r, hp, hout, -⟩ := hstage
        simp [hp, hout]
    | idle | silent | timeoutException | gotReply | exception | retry =>
        rw [hs] at hstage
        simpa using hstage.2.1
  fault := h.fault

/-- In every run in which no request is put into the slot of the message whose reply is awaited, the messages are intact. -/
theorem intact_of_safe {as : List Action} (hsafe : Along (step cfg) (fun m a => a.Safe m) {} as)
    (hrun : run (step cfg) {} as = some m) : Intact m := by
  have hinv : ∃ l, Inv m l := run_invariant_along (I := fun m => ∃ l, Inv m l)
    (by
      rintro s a s' ⟨l, h⟩ hs hstep
      cases hstep
      exact h.exec hs)
    as {} m ⟨_, inv_init⟩ hsafe hrun
  obtain ⟨l, h⟩ := hinv
  exact h.intact

end

/-! ## Two runs -/

def Example.config : Config := ⟨50, 2, by decide⟩

def Example.request (context : ℕ) : Message :=
  { context := context, crcCheck := true, txLength := 8, rxLength := 8, adu := ![1, 3, 0, 0, 0, 2, 0, 0, 0, 0, 0, 0] }

def Example.callbacks : Callbacks ℕ :=
  { onRxPacket := some 1, onRxException := some 2, onRxTimeout := some 3 }

/-- A request is sent and seven more are accepted. -/
def Example.full : List Action :=
  .send (Example.request 0) (some Example.callbacks) false false :: .poll 1 true ::
    (List.range 7).map fun k => .send (Example.request (k + 1)) (some Example.callbacks) false false

/-- The first of them is answered. -/
theorem intact_of_safe_full : ∃ m, run (step Example.config) {} (Example.full ++ [Action.poll 1 true, .receive (List.replicate 8 0), .poll 1 true]) = some m ∧
    Intact m := by
  have hsafe : Along (step Example.config) (fun m a => a.Safe m) {}
      (Example.full ++ [Action.poll 1 true, .receive (List.replicate 8 0), .poll 1 true]) := by decide +kernel
  exact ⟨_, rfl, intact_of_safe hsafe rfl⟩

/-- The queue is flushed while the reply to the first is awaited: the next request takes its place. -/
theorem flushed_slot_is_overwritten : ∃ m, run (step Example.config) {}
    (Example.full ++ [Action.flush, .send (Example.request 8) (some Example.callbacks) false false]) = some m ∧ ¬ Intact m := by
  have hrun : ((run (step Example.config) {}
      (Example.full ++ [Action.flush, .send (Example.request 8) (some Example.callbacks) false false])).map fun m =>
        (m.state, m.packet, (m.queue 0).msg.context, (run Line.next {} m.log).map fun l => l.outstanding.map (·.msg.context))) =
      some (.tx, some (.slot 0), 8, some (some 0)) := by decide +kernel
  obtain ⟨m, hm, hvalues⟩ := Option.map_eq_some_iff.1 hrun
  simp only [Prod.mk.injEq] at hvalues
  obtain ⟨hstate, hpacket, hcontext, hline⟩ := hvalues
  refine ⟨m, hm, fun h => ?_⟩
  obtain ⟨l, hl, -, hout⟩ := h.line
  rw [if_pos (.inl hstate)] at hout
  obtain ⟨r, hr, hout⟩ := hout
  cases hpacket.symm.trans hr
  simp [hl, hout, Machine.entry, hcontext] at hline

end Grbl.Modbus
