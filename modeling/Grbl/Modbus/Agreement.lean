import Grbl.Modbus.Line

/-!
# Blocking and asynchronous requests

* `answer` : the wait for a reply, as the bytes of it come in;
* `Given` : what a callback of the caller is given;
* `wait`, `Outcome` : how a wait ends; `asyncGiven`, `blockingGiven` : what the two paths make of it;
* `Awaits`, `awaits_async`, `awaits_blocking` : a request whose message has been transmitted;
* `given_async`, `given_blocking` : the machine gives what it should;
* `Agree`, `agree_iff` : for which answers the callbacks are the same.
-/

namespace Grbl.Modbus
open Lib

local instance twelve_ne_zero : NeZero 12 := ⟨by decide⟩

/-- Bytes come in and `modbus_poll` looks at them, until the wait for the reply is over. -/
def answer (cfg : Config) (m : Machine) : List (ℕ × List Byte) → Machine
  | [] => m
  | (ms, bytes) :: rest =>
      let m := (m.exec cfg (.receive bytes)).exec cfg (.poll ms true)
      if m.state = .awaitReply then answer cfg m rest else m

/-- The function that is called, and its arguments: a reply, or a code and the context of the request. -/
inductive Given
  | packet (f : ℕ) (msg : Message)
  | code (f code context : ℕ)
  deriving DecidableEq

def Event.given : Event → Option Given
  | .called .packet f _ msg => some (.packet f msg)
  | .called _ f code msg => some (.code f code msg.context)
  | _ => none

/-- What the callbacks are given between two states. -/
def given (m m' : Machine) : List Given := (m'.log.drop m.log.length).filterMap Event.given

theorem given_of_log {m m' : Machine} {es : List Event} (h : m'.log = m.log ++ es) : given m m' = es.filterMap Event.given := by
  rw [given, h, List.drop_left]

/-! ## What is to be given -/

/-- How the wait for a reply of a given length ends. -/
inductive Outcome
  | replied (bytes : List Byte)
  | timedOut (rx : List Byte)
  deriving DecidableEq

/-- The wait with this much of the timeout left and these bytes received. -/
def wait (rxLength : ℕ) : ℕ → List Byte → List (ℕ × List Byte) → Option Outcome
  | _, _, [] => none
  | timeout, rx, (_, bytes) :: rest =>
      if timeout = 1 then some (.timedOut (rx ++ bytes))
      else if rxLength ≤ (rx ++ bytes).length then some (.replied ((rx ++ bytes).take rxLength))
      else wait rxLength (timeout - 1) (rx ++ bytes) rest

/-- A reply whose CRC is right, or is not looked at. -/
def Message.good (msg : Message) (bytes : List Byte) : Bool := !msg.crcCheck || (msg.withReply bytes).crcOk msg.rxLength

/-- The callbacks as they are copied to the entry. -/
def Callbacks.fallback (c : Callbacks ℕ) : Callbacks ℕ := { c with onRxTimeout := c.onRxTimeout <|> c.onRxException }

def asyncGiven (msg : Message) (c : Callbacks ℕ) : Outcome → Option Given
  | .replied bytes =>
      if msg.good bytes then c.onRxPacket.map fun f => .packet f { msg.withReply bytes with rxLength := msg.rxLength }
      else c.onRxException.map fun f => .code f crcError msg.context
  | .timedOut _ => c.fallback.onRxTimeout.map fun f => .code f 0 msg.context

/-- `code` is what is in `exception_code` before. -/
def blockingGiven (msg : Message) (c : Callbacks ℕ) (code : ℕ) : Outcome → Option Given
  | .replied bytes =>
      if msg.good bytes then c.onRxPacket.map fun f => .packet f (msg.withReply bytes)
      else c.onRxException.map fun f => .code f code msg.context
  | .timedOut rx =>
      match (Machine.exceptionReply (msg.adu 0) rx).1 with
      | some code => c.onRxException.map fun f => .code f code msg.context
      | none => c.fallback.onRxTimeout.map fun f => .code f timeoutCode msg.context

/-! ## A wait -/

/-- The message of an entry has been transmitted, and its reply is awaited. -/
structure Awaits (m : Machine) (r : Ref) (e : Entry) : Prop where
  state : m.state = .awaitReply
  packet : m.packet = some r
  entry : m.entry r = e

/-- The wait is over, and a blocking call is to look at how. -/
structure Over (m m' : Machine) (e : Entry) (state : State) (code : ℕ) : Prop where
  state : m'.state = state
  packet : m'.packet = some .sync
  entry : m'.syncMsg = e
  code : m'.exceptionCode = code
  caller : m'.caller = m.caller
  log : ∃ e good, m'.log = m.log ++ [Event.ended e good]

section
variable {m m' : Machine} {r : Ref} {e : Entry} {msg : Message} {c : Callbacks ℕ} {i : ℕ}

theorem addMessage_ofUser {a : Bool} (h : a = true ∨ c.retries = 0) :
    addMessage msg a (some c.ofUser) = { async := a, msg := msg, callbacks := c.fallback.ofUser } := by
  have hcond : ¬ ((!a) = true ∧ c.retries ≠ 0) := by
    rintro ⟨ha, hr⟩
    rcases h with rfl | h
    · cases ha
    · exact hr h
  have hfallback : { c.ofUser with onRxTimeout := c.ofUser.onRxTimeout <|> c.ofUser.onRxException } = c.fallback.ofUser := by
    obtain ⟨retries, delay, packet, exception, timeout⟩ := c
    cases timeout <;> rfl
  rw [addMessage, ← hfallback]
  exact congrArg (fun cb => ({ async := a, msg := msg, callbacks := cb } : Entry)) (if_neg hcond)

variable (cfg : Config)

theorem log_call (k : Kind) (code : ℕ) (h : (m.entry r).callbacks = c.ofUser) :
    (m.call cfg r k code).log = m.log ++ ((c.hook k).map fun f => Event.called k f code (m.entry r).msg).toList := by
  rw [Machine.call, h, Callbacks.hook_ofUser]
  cases c.hook k with
  | none => exact (List.append_nil _).symm
  | some f => rfl

theorem log_endAsync (k : Kind) (code : ℕ) (h : (m.entry r).callbacks = c.ofUser) :
    (m.endAsync cfg r k code).log = m.log ++ ((c.hook k).map fun f => Event.called k f code (m.entry r).msg).toList := by
  have hentry : ({ m with state := .silent } : Machine).entry r = m.entry r := by cases r <;> rfl
  have hcall := log_call cfg (m := { m with state := .silent }) k code (hentry ▸ h)
  rw [hentry] at hcall
  exact hcall

/-- One poll of a wait: it goes on, or ends one way or the other. -/
theorem Awaits.poll (h : Awaits m r e) (ms : ℕ) (bytes : List Byte) :
    let m' := (m.exec cfg (.receive bytes)).exec cfg (.poll ms true)
    let w : Machine := { m with rx := m.rx ++ bytes, now := m.now + ms }
    (m.rxTimeout = 1 ∧ m' = w.timedOut cfg r) ∨
      (m.rxTimeout ≠ 1 ∧ e.msg.rxLength ≤ (m.rx ++ bytes).length ∧ m' = ({ w with rxTimeout := m.rxTimeout - 1 } : Machine).gotBytes cfg r) ∨
        (m.rxTimeout ≠ 1 ∧ ¬ e.msg.rxLength ≤ (m.rx ++ bytes).length ∧ m' = { w with rxTimeout := m.rxTimeout - 1 }) := by
  intro m' w
  have hpoll : m' = w.awaitReply cfg r := by
    show Machine.poll cfg w true = _
    have hstate : w.state = .awaitReply := h.state
    have hpacket : w.packet = some r := h.packet
    rw [Machine.poll, hstate, hpacket]
  have hentry : ({ w with rxTimeout := m.rxTimeout - 1 } : Machine).entry r = e := by
    rw [← h.entry]
    cases r <;> rfl
  rw [hpoll, Machine.awaitReply]
  by_cases h1 : m.rxTimeout = 1
  · exact .inl ⟨h1, if_pos h1⟩
  · rw [if_neg h1]
    by_cases hlen : e.msg.rxLength ≤ (m.rx ++ bytes).length
    · exact .inr (.inl ⟨h1, hlen, if_pos (hentry ▸ hlen)⟩)
    · exact .inr (.inr ⟨h1, hlen, if_neg (hentry ▸ hlen)⟩)

theorem state_call (k : Kind) (code : ℕ) (h : (m.entry r).callbacks = c.ofUser) : (m.call cfg r k code).state = m.state := by
  rw [Machine.call, h, Callbacks.hook_ofUser]
  cases c.hook k <;> rfl

theorem state_endAsync (k : Kind) (code : ℕ) (h : (m.entry r).callbacks = c.ofUser) : (m.endAsync cfg r k code).state = .silent := by
  have hentry : ({ m with state := .silent } : Machine).entry r = m.entry r := by cases r <;> rfl
  exact state_call cfg (m := { m with state := .silent }) k code (hentry ▸ h)

/-! ## Requests of the queue -/

theorem timedOut_async (he : m.entry r = addMessage msg true (some c.ofUser)) :
    (m.timedOut cfg r).state = .silent ∧ given m (m.timedOut cfg r) = (asyncGiven msg c (.timedOut m.rx)).toList := by
  rw [addMessage_ofUser (.inl rfl)] at he
  have hmsg : (m.entry r).msg = msg := by rw [he]
  let w : Machine := { m with rxTimeout := 0 }.emit (.ended (m.entry r) false)
  have hentry : w.entry r = m.entry r := by cases r <;> rfl
  have hw : m.timedOut cfg r = w.endAsync cfg r .timeout 0 := by
    rw [Machine.timedOut]
    exact if_pos (by rw [hentry, he])
  have hcb : (w.entry r).callbacks = c.fallback.ofUser := by rw [hentry, he]
  have hlog : (m.timedOut cfg r).log = m.log ++ (.ended (m.entry r) false :: (c.fallback.onRxTimeout.map
      fun f => Event.called .timeout f 0 msg).toList) := by
    rw [hw, log_endAsync cfg _ _ hcb, hentry, hmsg]
    exact List.append_assoc _ _ _
  refine ⟨hw ▸ state_endAsync cfg _ _ hcb, ?_⟩
  rw [given_of_log hlog, asyncGiven]
  cases c.fallback.onRxTimeout <;> rfl

theorem log_readReply (m : Machine) (r : Ref) : (m.readReply r).log = m.log := by cases r <;> rfl

theorem gotBytes_async (he : m.entry r = addMessage msg true (some c.ofUser)) :
    (m.gotBytes cfg r).state = .silent ∧
      given m (m.gotBytes cfg r) = (asyncGiven msg c (.replied (m.rx.take msg.rxLength))).toList := by
  rw [addMessage_ofUser (.inl rfl)] at he
  have hmsg : (m.entry r).msg = msg := by rw [he]
  have hasync : (m.entry r).async = true := by rw [he]
  have hcbs : (m.entry r).callbacks = c.fallback.ofUser := by rw [he]
  let bytes := m.rx.take msg.rxLength
  let w : Machine := (m.readReply r).emit (.ended (m.entry r) (msg.good bytes))
  have hentry : w.entry r = { m.entry r with msg := msg.withReply bytes } := by
    have hread := entry_readReply m r
    rw [hmsg] at hread
    rw [← hread]
    cases r <;> rfl
  have hgood : (!(m.entry r).msg.crcCheck || ((m.readReply r).entry r).msg.crcOk (m.entry r).msg.rxLength) = msg.good bytes := by
    rw [entry_readReply, hmsg]
    rfl
  let reply : Message := { msg.withReply bytes with rxLength := if c.onRxPacket = none then 0 else msg.rxLength }
  have hreply : ((w.setMsg r reply).entry r).callbacks = c.fallback.ofUser := by rw [entry_setMsg, hentry, hcbs]
  have hw : m.gotBytes cfg r =
      if msg.good bytes then (w.setMsg r reply).endAsync cfg r .packet 0 else w.endAsync cfg r .exception crcError := by
    rw [Machine.gotBytes, hgood]
    refine (if_pos hasync).trans ?_
    have hnone : (m.entry r).callbacks.onRxPacket = none ↔ c.onRxPacket = none := by
      rw [hcbs]
      exact Option.map_eq_none_iff
    simp only [hnone, hmsg]
    have hmsg' : (w.entry r).msg = msg.withReply bytes := by rw [hentry]
    rw [show ((m.readReply r).emit (.ended (m.entry r) (msg.good bytes))) = w from rfl, hmsg']
  have hlogw : w.log = m.log ++ [.ended (m.entry r) (msg.good bytes)] := by
    show (m.readReply r).log ++ _ = _
    rw [log_readReply]
  rw [asyncGiven]
  cases hbytes : msg.good bytes with
  | true =>
      rw [hbytes, if_pos rfl] at hw
      refine ⟨hw ▸ state_endAsync cfg _ _ hreply, ?_⟩
      have hlog : (m.gotBytes cfg r).log = m.log ++ (.ended (m.entry r) (msg.good bytes) :: (c.onRxPacket.map
          fun f => Event.called .packet f 0 reply).toList) := by
        have hset : (w.setMsg r reply).log = w.log := by cases r <;> rfl
        rw [hw, log_endAsync cfg _ _ hreply, hset, hlogw, entry_setMsg]
        exact List.append_assoc _ _ _
      rw [given_of_log hlog, if_pos rfl]
      cases hp : c.onRxPacket with
      | none => rfl
      | some f =>
          have hlen : reply = { msg.withReply bytes with rxLength := msg.rxLength } := by
            show { msg.withReply bytes with rxLength := if c.onRxPacket = none then 0 else msg.rxLength } = _
            rw [hp, if_neg (Option.some_ne_none f)]
          rw [hlen]
          rfl
  | false =>
      rw [hbytes, if_neg Bool.false_ne_true] at hw
      have hcb : (w.entry r).callbacks = c.fallback.ofUser := by rw [hentry, hcbs]
      refine ⟨hw ▸ state_endAsync cfg _ _ hcb, ?_⟩
      have hlog : (m.gotBytes cfg r).log = m.log ++ (.ended (m.entry r) (msg.good bytes) :: (c.onRxException.map
          fun f => Event.called .exception f crcError (msg.withReply bytes)).toList) := by
        rw [hw, log_endAsync cfg _ _ hcb, hlogw, hentry]
        exact List.append_assoc _ _ _
      rw [given_of_log hlog, if_neg Bool.false_ne_true]
      cases c.onRxException <;> rfl

theorem given_async (chunks : List (ℕ × List Byte)) : ∀ {m : Machine},
    Awaits m r (addMessage msg true (some c.ofUser)) →
    given m (answer cfg m chunks) = ((wait msg.rxLength m.rxTimeout m.rx chunks).bind (asyncGiven msg c)).toList := by
  induction chunks with
  | nil =>
      intro m _
      exact given_of_log (List.append_nil _).symm
  | cons chunk rest ih =>
      obtain ⟨ms, bytes⟩ := chunk
      intro m h
      have hrx : (addMessage msg true (some c.ofUser)).msg.rxLength = msg.rxLength := by rw [addMessage_msg]
      let w : Machine := { m with rx := m.rx ++ bytes, now := m.now + ms }
      have hw : w.entry r = addMessage msg true (some c.ofUser) := by
        rw [← h.entry]
        cases r <;> rfl
      have hw' : ({ w with rxTimeout := m.rxTimeout - 1 } : Machine).entry r = addMessage msg true (some c.ofUser) := by
        rw [← hw]
        cases r <;> rfl
      rw [answer, wait]
      obtain ⟨h1, hpoll⟩ | ⟨h1, hle, hpoll⟩ | ⟨h1, hle, hpoll⟩ := h.poll cfg ms bytes
      · obtain ⟨hs, hgiven⟩ := timedOut_async cfg hw
        rw [hpoll, if_neg (by rw [hs]; decide), if_pos h1]
        exact hgiven
      · rw [hrx] at hle
        obtain ⟨hs, hgiven⟩ := gotBytes_async cfg hw'
        rw [hpoll, if_neg (by rw [hs]; decide), if_neg h1, if_pos hle]
        exact hgiven
      · rw [hrx] at hle
        have hstate : ({ w with rxTimeout := m.rxTimeout - 1 } : Machine).state = .awaitReply := h.state
        rw [hpoll, if_pos hstate, if_neg h1, if_neg hle]
        exact ih (m := { w with rxTimeout := m.rxTimeout - 1 }) ⟨h.state, h.packet, hw'⟩

/-! ## Blocking requests -/

theorem timedOut_sync (he : m.syncMsg = addMessage msg false (some c.ofUser)) (hp : m.packet = some .sync) :
    match (Machine.exceptionReply (msg.adu 0) m.rx).1 with
    | some code => Over m (m.timedOut cfg .sync) m.syncMsg .exception code
    | none => Over m (m.timedOut cfg .sync) m.syncMsg .timeoutException m.exceptionCode := by
  have hasync : m.syncMsg.async = false := by
    rw [he]
    rfl
  have hmsg : m.syncMsg.msg = msg := by rw [he, addMessage_msg]
  have hnot : ¬ (({ m with rxTimeout := 0 } : Machine).emit (.ended (m.entry .sync) false)).syncMsg.async = true := by
    rw [show (({ m with rxTimeout := 0 } : Machine).emit (.ended (m.entry .sync) false)).syncMsg = m.syncMsg from rfl, hasync]
    exact Bool.false_ne_true
  have htimed : m.timedOut cfg .sync = _ := if_neg hnot
  rw [htimed]
  have hadu : (({ m with rxTimeout := 0 } : Machine).emit (.ended (m.entry .sync) false)).entry .sync = m.syncMsg := rfl
  rw [hadu, hmsg]
  show match (Machine.exceptionReply (msg.adu 0) m.rx).1 with
    | some code => Over m _ m.syncMsg .exception code
    | none => Over m _ m.syncMsg .timeoutException m.exceptionCode
  rw [show (({ m with rxTimeout := 0 } : Machine).emit (.ended (m.entry .sync) false)).rx = m.rx from rfl]
  obtain ⟨code, rx⟩ := Machine.exceptionReply (msg.adu 0) m.rx
  cases code with
  | some code => exact ⟨rfl, hp, rfl, rfl, rfl, _, _, rfl⟩
  | none => exact ⟨rfl, hp, rfl, rfl, rfl, _, _, rfl⟩

theorem gotBytes_sync (he : m.syncMsg = addMessage msg false (some c.ofUser)) (hp : m.packet = some .sync) :
    Over m (m.gotBytes cfg .sync) { m.syncMsg with msg := msg.withReply (m.rx.take msg.rxLength) }
      (if msg.good (m.rx.take msg.rxLength) then .gotReply else .exception) m.exceptionCode := by
  have hasync : (m.entry .sync).async = false := by
    show m.syncMsg.async = false
    rw [he]
    rfl
  have hmsg : (m.entry .sync).msg = msg := by
    show m.syncMsg.msg = msg
    rw [he, addMessage_msg]
  have hread := entry_readReply m .sync
  rw [hmsg] at hread
  have hgood : (!(m.entry .sync).msg.crcCheck || ((m.readReply .sync).entry .sync).msg.crcOk (m.entry .sync).msg.rxLength) =
      msg.good (m.rx.take msg.rxLength) := by
    rw [entry_readReply, hmsg]
    rfl
  have hgot : m.gotBytes cfg .sync = ((m.readReply .sync).emit (.ended (m.entry .sync) (msg.good (m.rx.take msg.rxLength)))).endSync cfg
      (if msg.good (m.rx.take msg.rxLength) then .gotReply else .exception) := by
    rw [Machine.gotBytes, hgood]
    exact if_neg (by rw [hasync]; exact Bool.false_ne_true)
  rw [hgot]
  exact ⟨rfl, hp, hread, rfl, rfl, _, _, rfl⟩

theorem Over.log_finish {state : State} {code : ℕ} (h : Over m m' e state code) (hcb : e.callbacks = c.ofUser)
    (caller : Caller) (k : Kind) (given : ℕ) (result : Bool) (ms : ℕ) :
    ∃ e' good, (((m'.elapse ms).call cfg .sync k given).finish caller result).log = m.log ++ ([Event.ended e' good] ++
      ((c.hook k).map fun f => Event.called k f given e.msg).toList ++ [.returned caller.msg.id result]) := by
  obtain ⟨e', good, hlog⟩ := h.log
  have hentry : (m'.elapse ms).entry .sync = e := h.entry
  have hcall := log_call cfg (m := m'.elapse ms) (r := .sync) k given (by rw [hentry]; exact hcb)
  rw [hentry] at hcall
  refine ⟨e', good, ?_⟩
  show ((m'.elapse ms).call cfg .sync k given).log ++ [_] = _
  rw [hcall, show (m'.elapse ms).log = m'.log from rfl, hlog, List.append_assoc, List.append_assoc, List.append_assoc]

theorem entry_call (k : Kind) (code : ℕ) (h : (m.entry r).callbacks = c.ofUser) : (m.call cfg r k code).entry r = m.entry r := by
  rw [Machine.call, h, Callbacks.hook_ofUser]
  cases c.hook k with
  | none => rfl
  | some f => cases r <;> rfl

theorem Over.finishUnlessRetry {state : State} {code : ℕ} (h : Over m m' e state code) (hcb : e.callbacks = c.ofUser)
    (hretries : c.retries = 0) (caller : Caller) (k : Kind) (given ms : ℕ) :
    ((m'.elapse ms).call cfg .sync k given).finishUnlessRetry caller .sync =
      ((m'.elapse ms).call cfg .sync k given).finish caller false := by
  have hentry : (m'.elapse ms).entry .sync = e := h.entry
  have hzero : (((m'.elapse ms).call cfg .sync k given).entry .sync).callbacks.retries = 0 := by
    rw [entry_call cfg k given (c := c) (by rw [hentry]; exact hcb), hentry, hcb]
    exact hretries
  exact if_pos hzero

theorem Over.given {state : State} {code : ℕ} (h : Over m m' e state code) (hcb : e.callbacks = c.ofUser)
    (hretries : c.retries = 0) (hcaller : ∃ caller, m.caller = some caller ∧ caller.waiting = false) (ms : ℕ) :
    (state = .timeoutException → given m (m'.exec cfg (.resume ms)) =
        (c.onRxTimeout.map fun f => Given.code f timeoutCode e.msg.context).toList) ∧
      (state = .exception → given m (m'.exec cfg (.resume ms)) =
        (c.onRxException.map fun f => Given.code f code e.msg.context).toList) ∧
      (state = .gotReply → given m (m'.exec cfg (.resume ms)) = (c.onRxPacket.map fun f => Given.packet f e.msg).toList) := by
  obtain ⟨caller, hc, hwaiting⟩ := hcaller
  have hresume : m'.exec cfg (.resume ms) = (m'.elapse ms).attend cfg caller .sync := by
    have hc' : (m'.elapse ms).caller = some caller := h.caller.trans hc
    have hp : (m'.elapse ms).packet = some .sync := h.packet
    show Machine.resume cfg (m'.elapse ms) = _
    rw [Machine.resume, hc']
    refine (if_neg (by rw [hwaiting]; exact Bool.false_ne_true)).trans ?_
    rw [hp]
  have hstate : (m'.elapse ms).state = state := h.state
  have hcode : (m'.elapse ms).exceptionCode = code := h.code
  rw [hresume]
  refine ⟨?_, ?_, ?_⟩
  · rintro rfl
    obtain ⟨e', good, hlog⟩ := h.log_finish cfg hcb caller .timeout timeoutCode false ms
    rw [Machine.attend, hstate]
    dsimp only
    rw [h.finishUnlessRetry cfg hcb hretries, given_of_log hlog, show c.hook .timeout = c.onRxTimeout from rfl]
    cases c.onRxTimeout <;> rfl
  · rintro rfl
    obtain ⟨e', good, hlog⟩ := h.log_finish cfg hcb caller .exception code false ms
    rw [Machine.attend, hstate]
    dsimp only
    rw [hcode, h.finishUnlessRetry cfg hcb hretries, given_of_log hlog, show c.hook .exception = c.onRxException from rfl]
    cases c.onRxException <;> rfl
  · rintro rfl
    obtain ⟨e', good, hlog⟩ := h.log_finish cfg hcb caller .packet 0 true ms
    rw [Machine.attend, hstate]
    dsimp only
    rw [given_of_log hlog, show c.hook .packet = c.onRxPacket from rfl]
    cases c.onRxPacket <;> rfl

theorem given_blocking (hretries : c.retries = 0) (ms : ℕ) (chunks : List (ℕ × List Byte)) : ∀ {m : Machine},
    Awaits m .sync (addMessage msg false (some c.ofUser)) → (∃ caller, m.caller = some caller ∧ caller.waiting = false) →
    given m ((answer cfg m chunks).exec cfg (.resume ms)) =
      ((wait msg.rxLength m.rxTimeout m.rx chunks).bind (blockingGiven msg c m.exceptionCode)).toList := by
  have hadd : addMessage msg false (some c.ofUser) = _ := addMessage_ofUser (.inr hretries)
  induction chunks with
  | nil =>
      rintro m h ⟨caller, hc, hwaiting⟩
      have hresume : (answer cfg m []).exec cfg (.resume ms) = m.elapse ms := by
        have hc' : (m.elapse ms).caller = some caller := hc
        have hp : (m.elapse ms).packet = some .sync := h.packet
        have hstate : (m.elapse ms).state = .awaitReply := h.state
        show Machine.resume cfg (m.elapse ms) = _
        rw [Machine.resume, hc']
        refine (if_neg (by rw [hwaiting]; exact Bool.false_ne_true)).trans ?_
        rw [hp]
        dsimp only
        rw [Machine.attend, hstate]
      rw [hresume]
      exact given_of_log (List.append_nil _).symm
  | cons chunk rest ih =>
      obtain ⟨ms', bytes⟩ := chunk
      intro m h hcaller
      have hrx : (addMessage msg false (some c.ofUser)).msg.rxLength = msg.rxLength := by rw [addMessage_msg]
      let w : Machine := { m with rx := m.rx ++ bytes, now := m.now + ms' }
      have hw : w.syncMsg = addMessage msg false (some c.ofUser) := h.entry
      have hp : w.packet = some .sync := h.packet
      have hcb : w.syncMsg.callbacks = c.fallback.ofUser := by rw [hw, hadd]
      have hmsg : w.syncMsg.msg = msg := by rw [hw, hadd]
      rw [answer, wait]
      obtain ⟨h1, hpoll⟩ | ⟨h1, hle, hpoll⟩ | ⟨h1, hle, hpoll⟩ := h.poll cfg ms' bytes
      · have htimed := timedOut_sync cfg hw hp
        rw [if_pos h1, hpoll, Option.bind_some, blockingGiven]
        rw [show w.rx = m.rx ++ bytes from rfl] at htimed
        cases hreply : (Machine.exceptionReply (msg.adu 0) (m.rx ++ bytes)).1 with
        | some code =>
            rw [hreply] at htimed
            rw [if_neg (by rw [htimed.state]; decide), ← hmsg]
            exact (htimed.given cfg hcb hretries hcaller ms).2.1 rfl
        | none =>
            rw [hreply] at htimed
            rw [if_neg (by rw [htimed.state]; decide), ← hmsg]
            exact (htimed.given cfg hcb hretries hcaller ms).1 rfl
      · rw [hrx] at hle
        have hgot := gotBytes_sync cfg (m := { w with rxTimeout := m.rxTimeout - 1 }) hw hp
        rw [hpoll, if_neg h1, if_pos hle, Option.bind_some, blockingGiven]
        rw [show ({ w with rxTimeout := m.rxTimeout - 1 } : Machine).rx = m.rx ++ bytes from rfl] at hgot
        cases hgood : msg.good ((m.rx ++ bytes).take msg.rxLength) with
        | true =>
            rw [hgood, if_pos rfl] at hgot
            rw [if_neg (by rw [hgot.state]; decide), if_pos rfl]
            exact (hgot.given cfg hcb hretries hcaller ms).2.2 rfl
        | false =>
            rw [hgood, if_neg Bool.false_ne_true] at hgot
            rw [if_neg (by rw [hgot.state]; decide), if_neg Bool.false_ne_true]
            exact (hgot.given cfg hcb hretries hcaller ms).2.1 rfl
      · rw [hrx] at hle
        have hstate : ({ w with rxTimeout := m.rxTimeout - 1 } : Machine).state = .awaitReply := h.state
        rw [hpoll, if_pos hstate, if_neg h1, if_neg hle]
        exact ih (m := { w with rxTimeout := m.rxTimeout - 1 }) ⟨h.state, h.packet, hw⟩ hcaller

end

/-! ## Both paths -/

/-- The two paths call the same function with the same arguments, and a reply leads to the call it should. -/
structure Agree (msg : Message) (c : Callbacks ℕ) (o : Option Outcome) (blocking async : List Given) : Prop where
  same : blocking = async
  replied : ∀ bytes, o = some (.replied bytes) → msg.good bytes = true → blocking =
    (c.onRxPacket.map fun f => Given.packet f { msg.withReply bytes with rxLength := msg.rxLength }).toList
  mismatch : ∀ bytes, o = some (.replied bytes) → msg.good bytes = false → blocking =
    (c.onRxException.map fun f => Given.code f crcError msg.context).toList

/-- The answers that lead to the same call: a good reply nobody is told of, a wrong CRC when the last exception code was that
of a wrong CRC, and a timeout nobody is told of, or with an exception of code 0. -/
def SameAnswer (msg : Message) (c : Callbacks ℕ) (code : ℕ) : Outcome → Prop
  | .replied bytes => if msg.good bytes then c.onRxPacket = none else c.onRxException = none ∨ code = crcError
  | .timedOut rx =>
      match (Machine.exceptionReply (msg.adu 0) rx).1 with
      | some code => c.onRxException = c.fallback.onRxTimeout ∧ (c.onRxException = none ∨ code = 0)
      | none => c.fallback.onRxTimeout = none

section
variable {msg : Message}

theorem map_code_eq_iff {x : Option ℕ} {code code' context : ℕ} :
    (x.map fun f => Given.code f code context) = (x.map fun f => Given.code f code' context) ↔ x = none ∨ code = code' := by
  cases x <;> simp

theorem map_code_eq_iff' {x y : Option ℕ} {code code' context : ℕ} :
    (x.map fun f => Given.code f code context) = (y.map fun f => Given.code f code' context) ↔ x = y ∧ (x = none ∨ code = code') := by
  cases x <;> cases y <;> simp

theorem blockingGiven_eq_iff (c : Callbacks ℕ) (code : ℕ) (o : Outcome) (hmsg : 1 ≤ msg.rxLength) :
    blockingGiven msg c code o = asyncGiven msg c o ↔ SameAnswer msg c code o := by
  cases o with
  | replied bytes =>
      rw [blockingGiven, asyncGiven, SameAnswer]
      cases msg.good bytes with
      | true =>
          rw [if_pos rfl, if_pos rfl, if_pos rfl]
          cases c.onRxPacket with
          | none => exact iff_of_true rfl rfl
          | some f =>
              refine iff_of_false (fun h => ?_) (Option.some_ne_none f)
              rw [Option.map_some, Option.map_some, Option.some.injEq, Given.packet.injEq] at h
              have hzero : (msg.withReply bytes).rxLength = ({ msg.withReply bytes with rxLength := msg.rxLength } : Message).rxLength :=
                congrArg Message.rxLength h.2
              exact absurd (hmsg.trans_eq hzero.symm) (Nat.not_succ_le_zero 0)
      | false =>
          rw [if_neg Bool.false_ne_true, if_neg Bool.false_ne_true, if_neg Bool.false_ne_true]
          exact map_code_eq_iff
  | timedOut rx =>
      rw [blockingGiven, asyncGiven, SameAnswer]
      cases (Machine.exceptionReply (msg.adu 0) rx).1 with
      | some code => exact map_code_eq_iff'
      | none =>
          refine map_code_eq_iff.trans (or_iff_left ?_)
          decide

end

/-- For which answers the callbacks of a blocking call without retries and of a request of the queue are the same. -/
theorem agree_iff (cfg : Config) {mb ma : Machine} {msg : Message} {c : Callbacks ℕ} {i : ℕ} (hmsg : msg.WellFormed)
    (hb : Awaits mb .sync (addMessage msg false (some ({ c with retries := 0 } : Callbacks ℕ).ofUser)))
    (hcaller : ∃ caller, mb.caller = some caller ∧ caller.waiting = false)
    (ha : Awaits ma (.slot i) (addMessage msg true (some c.ofUser))) (htimeout : ma.rxTimeout = mb.rxTimeout)
    (hrx : ma.rx = mb.rx) (chunks : List (ℕ × List Byte)) (ms : ℕ) :
    Agree msg c (wait msg.rxLength mb.rxTimeout mb.rx chunks) (given mb ((answer cfg mb chunks).exec cfg (.resume ms)))
        (given ma (answer cfg ma chunks)) ↔
      ∀ o, wait msg.rxLength mb.rxTimeout mb.rx chunks = some o → SameAnswer msg c mb.exceptionCode o := by
  have hblocking := given_blocking cfg (c := { c with retries := 0 }) rfl ms chunks hb hcaller
  have hasync := given_async cfg chunks ha
  rw [htimeout, hrx] at hasync
  rw [hblocking, hasync]
  cases hwait : wait msg.rxLength mb.rxTimeout mb.rx chunks with
  | none => exact iff_of_true ⟨rfl, nofun, nofun⟩ nofun
  | some o =>
      rw [Option.bind_some, Option.bind_some]
      have hiff := blockingGiven_eq_iff c mb.exceptionCode o hmsg.2.1
      constructor
      · intro h o' ho'
        cases ho'
        have hhead := congrArg List.head? h.same
        rw [Option.head?_toList, Option.head?_toList] at hhead
        exact hiff.1 hhead
      · intro h
        have hsame := hiff.2 (h o rfl)
        refine ⟨congrArg Option.toList hsame, ?_, ?_⟩
        · intro bytes hbytes hgood
          cases hbytes
          refine (congrArg Option.toList hsame).trans ?_
          rw [asyncGiven, if_pos hgood]
        · intro bytes hbytes hgood
          cases hbytes
          refine (congrArg Option.toList hsame).trans ?_
          rw [asyncGiven, hgood, if_neg Bool.false_ne_true]

section
variable {cfg : Config} {m : Machine} {msg : Message} {c : Callbacks ℕ}

theorem awaits_blocking (cfg : Config) (hstate : m.state = .idle) (hnot : m.isBlocking = false)
    (htx : msg.txLength ≤ maxAduSize) (hrx : msg.rxLength ≤ maxAduSize) (ms : ℕ) :
    let m' := (m.exec cfg (.send msg (some c) true false)).exec cfg (.poll ms true)
    Awaits m' .sync (addMessage { msg with id := m.calls }.withCrc false (some c.ofUser)) ∧
      (∃ caller, m'.caller = some caller ∧ caller.waiting = false) ∧ m'.rxTimeout = cfg.rxTimeout ∧ m'.rx = [] ∧
        m'.exceptionCode = m.exceptionCode := by
  intro m'
  let w : Machine := { m with calls := m.calls + 1, fault := m.fault || msg.txLength < 2 }
  have hsend : m.exec cfg (.send msg (some c) true false) = w.sendBlocking cfg { msg with id := m.calls }.withCrc (some c) := by
    show m.sendRtu cfg msg (some c) true false = _
    rw [Machine.sendRtu]
    refine (if_neg (by rw [not_or, not_lt, not_lt]; exact ⟨htx, hrx⟩)).trans ?_
    exact if_pos rfl
  have hblocking : w.isBlocking ≠ true := by
    rw [show w.isBlocking = m.isBlocking from rfl, hnot]
    exact Bool.false_ne_true
  have hidle : w.sendBlocking cfg { msg with id := m.calls }.withCrc (some c) = _ := (if_neg hblocking).trans (if_pos hstate)
  have hm' : m' = _ := (congrArg (fun m => Machine.exec cfg m (.poll ms true)) (hsend.trans hidle))
  rw [hm']
  exact ⟨⟨rfl, rfl, rfl⟩, ⟨_, rfl, rfl⟩, rfl, rfl, rfl⟩

theorem awaits_async (cfg : Config) (hstate : m.state = .idle) (hnot : m.isBlocking = false) (hpacket : m.packet = none)
    (hempty : m.tail = m.head) (htop : m.head ≤ top) (htx : msg.txLength ≤ maxAduSize) (hrx : msg.rxLength ≤ maxAduSize)
    (ms ms' : ℕ) :
    let m' := ((m.exec cfg (.send msg (some c) false false)).exec cfg (.poll ms true)).exec cfg (.poll ms' true)
    Awaits m' (.slot m.head) (addMessage { msg with id := m.calls }.withCrc true (some c.ofUser)) ∧
      m'.rxTimeout = cfg.rxTimeout ∧ m'.rx = [] := by
  intro m'
  let e := addMessage { msg with id := m.calls }.withCrc true (some c.ofUser)
  let w : Machine := { m with calls := m.calls + 1, fault := m.fault || msg.txLength < 2 }
  let q : Machine := ({ w with queue := Function.update m.queue m.head e, head := ringNext top m.head } : Machine).emit (.queued e)
  have hroom : ringNext top m.head ≠ m.tail := by
    rw [hempty, ringNext]
    split
    · rename_i heq
      rw [heq]
      decide
    · omega
  have hpasses : w.passes = true := by
    rw [Machine.passes, show w.packet = m.packet from rfl, hpacket]
  have hsend : m.exec cfg (.send msg (some c) false false) = q.emit (.returned m.calls true) := by
    show m.sendRtu cfg msg (some c) false false = _
    rw [Machine.sendRtu]
    refine (if_neg (by rw [not_or, not_lt, not_lt]; exact ⟨htx, hrx⟩)).trans ?_
    refine (if_neg (by decide)).trans ?_
    rw [Machine.sendAsync]
    have hcond : w.passes = true ∧ ringNext top w.head ≠ w.tail := ⟨hpasses, hroom⟩
    exact congrArg (fun m => Machine.emit m (.returned _ true)) (if_pos hcond)
  have hcond : ((q.emit (.returned m.calls true)).elapse ms).tail ≠ ((q.emit (.returned m.calls true)).elapse ms).head ∧
      ((q.emit (.returned m.calls true)).elapse ms).packet = none ∧
        ((q.emit (.returned m.calls true)).elapse ms).isBlocking = false := ⟨fun h => hroom h.symm, hpacket, hnot⟩
  have hpoll : (q.emit (.returned m.calls true)).exec cfg (.poll ms true) =
      { ((q.emit (.returned m.calls true)).elapse ms).txMessage cfg (.slot m.tail) with tail := ringNext top m.tail } := by
    show Machine.poll cfg ((q.emit (.returned m.calls true)).elapse ms) true = _
    rw [Machine.poll, show ((q.emit (.returned m.calls true)).elapse ms).state = .idle from hstate]
    exact if_pos hcond
  have hm' : m' = _ := congrArg (fun m => Machine.exec cfg m (.poll ms' true)) ((congrArg (fun m => Machine.exec cfg m (.poll ms true)) hsend).trans hpoll)
  rw [hm', ← hempty]
  refine ⟨⟨rfl, rfl, ?_⟩, rfl, rfl⟩
  show Function.update m.queue m.head e m.tail = e
  rw [hempty, Function.update_self]

end

/-! ## One request on both paths -/

namespace Example

/-- A blocking call on an idle line, whose reply is awaited. -/
def blocking (c : Callbacks ℕ) : Machine :=
  (({} : Machine).exec config (.send (request 0) (some c) true false)).exec config (.poll 1 true)

/-- The same request without `block`. -/
def queued (c : Callbacks ℕ) : Machine :=
  ((({} : Machine).exec config (.send (request 0) (some c) false false)).exec config (.poll 1 true)).exec config (.poll 1 true)

/-- A reply with its CRC, and one whose last byte is wrong. -/
def good : List Byte := [1, 3, 2, 0, 7, 0, 70, 66]
def bad : List Byte := [1, 3, 2, 0, 7, 0, 70, 67]

/-- A caller that does not look at replies. -/
def quiet : Callbacks ℕ := { onRxException := some 2 }

end Example

theorem agree_iff_good : Agree (Example.request 0).withCrc Example.quiet
    (wait 8 50 [] [(1, Example.good)])
    (given (Example.blocking Example.quiet) ((answer Example.config (Example.blocking Example.quiet) [(1, Example.good)]).exec Example.config (.resume 0)))
    (given (Example.queued Example.quiet) (answer Example.config (Example.queued Example.quiet) [(1, Example.good)])) := by
  have hmsg : (Example.request 0).withCrc.WellFormed := by decide
  have hb := awaits_blocking (m := {}) (c := Example.quiet) Example.config rfl rfl
    (show (Example.request 0).txLength ≤ maxAduSize by decide) (by decide) 1
  have ha := awaits_async (m := {}) (c := Example.quiet) Example.config rfl rfl rfl rfl (by decide)
    (show (Example.request 0).txLength ≤ maxAduSize by decide) (by decide) 1 1
  refine (agree_iff Example.config hmsg hb.1 hb.2.1 ha.1 rfl rfl [(1, Example.good)] 0).2 fun o ho => ?_
  have hwait : wait 8 50 [] [(1, Example.good)] = some (.replied Example.good) := by decide
  cases hwait.symm.trans ho
  have hgood : (Example.request 0).withCrc.good Example.good = true := by decide +kernel
  rw [SameAnswer, if_pos hgood]
  rfl

/-- The blocking path hands on a reply of length 0, and for a wrong CRC the last exception code. -/
theorem blocking_loses_length_and_code :
    ¬ Agree (Example.request 0).withCrc Example.callbacks (wait 8 50 [] [(1, Example.good)])
        (given (Example.blocking Example.callbacks)
          ((answer Example.config (Example.blocking Example.callbacks) [(1, Example.good)]).exec Example.config (.resume 0)))
        (given (Example.queued Example.callbacks) (answer Example.config (Example.queued Example.callbacks) [(1, Example.good)])) ∧
      given (Example.blocking Example.callbacks)
          ((answer Example.config (Example.blocking Example.callbacks) [(1, Example.bad)]).exec Example.config (.resume 0)) =
        [Given.code 2 0 0] ∧
      given (Example.queued Example.callbacks) (answer Example.config (Example.queued Example.callbacks) [(1, Example.bad)]) =
        [Given.code 2 crcError 0] := by
  refine ⟨fun h => ?_, by decide +kernel, by decide +kernel⟩
  have hne : given (Example.blocking Example.callbacks)
      ((answer Example.config (Example.blocking Example.callbacks) [(1, Example.good)]).exec Example.config (.resume 0)) ≠
      given (Example.queued Example.callbacks) (answer Example.config (Example.queued Example.callbacks) [(1, Example.good)]) := by
    decide +kernel
  exact hne h.same

end Grbl.Modbus
