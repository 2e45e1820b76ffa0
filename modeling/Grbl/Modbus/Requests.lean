import Grbl.Lib.Ledger
import Grbl.Modbus.Line

/-!
# Requests and their answers

* `Phase`, `Phase.next`, `phases` : what the events of a run say of a request;
* `live` : the requests that are being worked on;
* `Answering` : the invariant;
* `Action.Answerable` : requests without `block` are put into the queue, and no request is flushed;
* `Answering.exec` : every step.
-/

namespace Grbl.Modbus
open Lib

/-! ## Phases -/

/-- What has become of a request; `left` retries are left of a blocking one, and one that is done has had the callback. -/
inductive Phase
  | unknown
  | accepted
  | pending
  | sent
  | ended (good : Bool)
  | blocked (left : ℕ)
  | onLine (left : ℕ)
  | failed (left : ℕ)
  | replied
  | reported (kind : Kind)
  | illegal
  | done (kind : Option Kind)
  | wrong
  deriving DecidableEq

def Event.about : Event → Option ℕ
  | .queued e | .transmitted e | .ended e _ => some e.msg.id
  | .blocked id _ | .returned id _ => some id
  | .called _ _ _ msg | .illegal _ msg => some msg.id
  | .flushed => none

namespace Phase

/-- A request of the queue is sent, ends and has its callback; a blocking one is sent until there is a good reply or no
retry left, has its callback and returns `true` when there was one; and others return `false`. -/
def next : Phase → Event → Phase
  | .unknown, .queued _ => .accepted
  | .unknown, .blocked _ retries => .blocked retries
  | .unknown, .illegal _ _ => .illegal
  | .unknown, .returned _ false => .done none
  | .accepted, .returned _ true => .pending
  | .pending, .transmitted _ => .sent
  | .sent, .ended _ good => .ended good
  | .ended good, .called k _ _ _ => if good = decide (k = .packet) then .done (some k) else .wrong
  | .blocked left, .transmitted _ => .onLine left
  | .onLine left, .ended _ good => if good then .replied else .failed left
  | .failed (left + 1), .transmitted _ => .onLine left
  | .failed 0, .called k _ _ _ => if k = .packet then .wrong else .reported k
  | .replied, .called .packet _ _ _ => .reported .packet
  | .reported k, .returned _ result => if result = decide (k = .packet) then .done (some k) else .wrong
  | .illegal, .returned _ false => .done (some .exception)
  | _, _ => .wrong

def Settled (p : Phase) : Prop := ∃ k, p = .done k

end Phase

def phases (log : List Event) (i : ℕ) : Phase := (log.filter fun e => e.about = some i).foldl Phase.next .unknown

theorem phases_concat {log : List Event} {e : Event} {i : ℕ} (he : e.about = some i) :
    phases (log ++ [e]) = Function.update (phases log) i ((phases log i).next e) := by
  funext j
  by_cases hj : j = i
  · subst hj
    rw [Function.update_self, phases, phases, List.filter_append, List.foldl_append]
    simp [he]
  · have hne : ¬ some i = some j := fun h => hj (Option.some.inj h).symm
    rw [Function.update_of_ne hj, phases, phases, List.filter_append]
    simp [he, hne]

/-! ## Requests that are being worked on -/

def Caller.retries (c : Caller) : ℕ := (c.callbacks.map Callbacks.retries).getD 0

/-- The phase of the request of a blocking call. -/
def callerPhase (m : Machine) (c : Caller) : Phase :=
  if c.waiting then .blocked c.retries
  else
    match m.state with
    | .tx | .awaitReply => .onLine m.syncMsg.callbacks.retries
    | .timeoutException | .exception | .retry => .failed m.syncMsg.callbacks.retries
    | .gotReply => .replied
    | .idle | .silent => .wrong

def callerLive (m : Machine) : List (ℕ × Phase) :=
  match m.caller with
  | none => []
  | some c => [(c.msg.id, callerPhase m c)]

def packetLive (m : Machine) : List (ℕ × Phase) :=
  match m.packet with
  | some (.slot i) => [((m.queue i).msg.id, .sent)]
  | some .sync | none => []

def pendingLive (m : Machine) : List (ℕ × Phase) := m.pending.map fun e => (e.msg.id, .pending)

/-- The requests that are being worked on. -/
def live (m : Machine) : List (ℕ × Phase) := callerLive m ++ packetLive m ++ pendingLive m

/-! ## Callbacks -/

def Callbacks.AllSet (c : Callbacks ℕ) : Prop :=
  c.onRxPacket.isSome = true ∧ c.onRxException.isSome = true ∧ c.onRxTimeout.isSome = true

instance (c : Callbacks ℕ) : Decidable c.AllSet := inferInstanceAs (Decidable (_ ∧ _ ∧ _))

/-- Every outcome leads to a callback of the caller. -/
def Entry.Replies (e : Entry) : Prop := ∀ k, ∃ f, e.callbacks.hook k = some (.user f)

/-- So does a good reply, and every outcome when there is no retry left. -/
def Entry.RepliesLast (e : Entry) : Prop :=
  (∃ f, e.callbacks.onRxPacket = some (.user f)) ∧ (e.callbacks.retries = 0 → e.Replies)

theorem Callbacks.AllSet.ofUser {c : Callbacks ℕ} (h : c.AllSet) (k : Kind) : ∃ f, c.ofUser.hook k = some (.user f) := by
  have hk : (c.hook k).isSome = true := by
    cases k with
    | packet => exact h.1
    | exception => exact h.2.1
    | timeout => exact h.2.2
  obtain ⟨f, hf⟩ := Option.isSome_iff_exists.1 hk
  exact ⟨f, by rw [Callbacks.hook_ofUser, hf, Option.map_some]⟩

/-- With all callbacks set, `add_message` does not replace the timeout by the exception. -/
theorem addMessage_async {msg : Message} {c : Callbacks ℕ} (hc : c.AllSet) :
    addMessage msg true (some c.ofUser) = { async := true, msg := msg, callbacks := c.ofUser } := by
  obtain ⟨f, hf⟩ := hc.ofUser .timeout
  have htimeout : (c.ofUser.onRxTimeout <|> c.ofUser.onRxException) = c.ofUser.onRxTimeout := by
    rw [show c.ofUser.onRxTimeout = some (.user f) from hf]
    rfl
  simp only [addMessage, htimeout]
  rfl

theorem replies_addMessage (msg : Message) {c : Callbacks ℕ} (hc : c.AllSet) :
    (addMessage msg true (some c.ofUser)).Replies := by
  rw [addMessage_async hc]
  exact hc.ofUser

theorem repliesLast_addMessage (msg : Message) {cb : Callbacks Hook} (hpacket : ∃ f, cb.onRxPacket = some (.user f))
    (hlast : cb.retries = 0 → ∀ k, ∃ f, cb.hook k = some (.user f)) :
    (addMessage msg false (some cb)).RepliesLast ∧ (addMessage msg false (some cb)).callbacks.retries = cb.retries := by
  by_cases hr : cb.retries = 0
  · obtain ⟨f, hf⟩ := hlast hr .timeout
    have htimeout : (cb.onRxTimeout <|> cb.onRxException) = cb.onRxTimeout := by
      rw [show cb.onRxTimeout = some (.user f) from hf]
      rfl
    have heq : addMessage msg false (some cb) = { async := false, msg := msg, callbacks := cb } := by
      simp only [addMessage, htimeout]
      rw [if_neg (by simp [hr])]
    rw [heq]
    exact ⟨⟨hpacket, hlast⟩, rfl⟩
  · have hretries : (addMessage msg false (some cb)).callbacks.retries = cb.retries := by simp [addMessage, hr]
    refine ⟨⟨?_, fun h => absurd (hretries.symm.trans h) hr⟩, hretries⟩
    simpa [addMessage, hr] using hpacket

/-! ## Ends of the wait for a reply -/

section
variable {cfg : Config} {m m' : Machine} {r : Ref} {k : Kind} {code i : ℕ} {c : Caller}

/-- A request of the queue has ended, and its callback has been called. -/
structure EndedAsync (m : Machine) (i : ℕ) (m' : Machine) : Prop where
  state : m'.state = .silent
  packet : m'.packet = none
  caller : m'.caller = m.caller
  calls : m'.calls = m.calls
  tail : m'.tail = m.tail
  head : m'.head = m.head
  queue : ∀ j, j ≠ i → m'.queue j = m.queue j
  now : m'.now = m.now
  log : ∃ good k f code msg, m'.log = m.log ++ [Event.ended (m.queue i) good] ++ [Event.called k f code msg] ∧
    msg.id = (m.queue i).msg.id ∧ good = decide (k = .packet)

/-- The message of a blocking call has ended. -/
structure EndedSync (m m' : Machine) : Prop where
  packet : m'.packet = m.packet
  caller : m'.caller = m.caller
  calls : m'.calls = m.calls
  tail : m'.tail = m.tail
  head : m'.head = m.head
  queue : m'.queue = m.queue
  now : m'.now = m.now
  id : m'.syncMsg.msg.id = m.syncMsg.msg.id
  callbacks : m'.syncMsg.callbacks = m.syncMsg.callbacks
  log : ∃ good, m'.log = m.log ++ [Event.ended m.syncMsg good] ∧
    if good then m'.state = .gotReply else m'.state = .exception ∨ m'.state = .timeoutException

theorem endAsync_user {f : ℕ} (h : (m.entry r).callbacks.hook k = some (.user f)) :
    m.endAsync cfg r k code = { m.emit (.called k f code (m.entry r).msg) with
      state := .silent
      packet := none
      silenceUntil := (m.now + cfg.silenceTimeout + 0) % 2 ^ 32 } := by
  have hcall : ({ m with state := .silent } : Machine).call cfg r k code =
      ({ m with state := .silent } : Machine).emit (.called k f code (m.entry r).msg) := by
    have hentry : ({ m with state := .silent } : Machine).entry r = m.entry r := rfl
    simp only [Machine.call, hentry, h]
  rw [Machine.endAsync, hcall]
  rfl

theorem EndedAsync.of {m₀ : Machine} {good : Bool} (hreplies : (m₀.queue i).Replies)
    (hcallbacks : (m.queue i).callbacks = (m₀.queue i).callbacks) (hid : (m.queue i).msg.id = (m₀.queue i).msg.id)
    (hqueue : ∀ j, j ≠ i → m.queue j = m₀.queue j) (hcaller : m.caller = m₀.caller) (hcalls : m.calls = m₀.calls)
    (htail : m.tail = m₀.tail) (hhead : m.head = m₀.head) (hnow : m.now = m₀.now)
    (hlog : m.log = m₀.log ++ [Event.ended (m₀.queue i) good]) (hgood : good = decide (k = .packet)) :
    EndedAsync m₀ i (m.endAsync cfg (.slot i) k code) := by
  obtain ⟨f, hf⟩ := hreplies k
  have hhook : (m.entry (.slot i)).callbacks.hook k = some (.user f) := by
    change (m.queue i).callbacks.hook k = some (.user f)
    rw [hcallbacks, hf]
  rw [endAsync_user hhook]
  exact
    { state := rfl
      packet := rfl
      caller := hcaller
      calls := hcalls
      tail := htail
      head := hhead
      queue := hqueue
      now := hnow
      log := ⟨good, k, f, code, (m.queue i).msg, congrArg (· ++ [_]) hlog, hid, hgood⟩ }

theorem endedAsync_timedOut (hasync : (m.queue i).async = true) (hreplies : (m.queue i).Replies) :
    EndedAsync m i (m.timedOut cfg (.slot i)) := by
  rw [Machine.timedOut]
  split
  · exact EndedAsync.of hreplies rfl rfl (fun _ _ => rfl) rfl rfl rfl rfl rfl rfl rfl
  · next hnot => exact absurd hasync hnot

theorem endedSync_timedOut (hsync : m.syncMsg.async = false) : EndedSync m (m.timedOut cfg .sync) := by
  rw [Machine.timedOut]
  split
  · next hasync => exact absurd hasync (Bool.eq_false_iff.1 hsync)
  · split
    · exact ⟨rfl, rfl, rfl, rfl, rfl, rfl, rfl, rfl, rfl, false, rfl, Or.inl rfl⟩
    · exact ⟨rfl, rfl, rfl, rfl, rfl, rfl, rfl, rfl, rfl, false, rfl, Or.inr rfl⟩

theorem endedAsync_gotBytes (hasync : (m.queue i).async = true) (hreplies : (m.queue i).Replies) :
    EndedAsync m i (m.gotBytes cfg (.slot i)) := by
  rw [Machine.gotBytes]
  generalize (!(m.entry (.slot i)).msg.crcCheck ||
    ((m.readReply (.slot i)).entry (.slot i)).msg.crcOk (m.entry (.slot i)).msg.rxLength) = good
  have hread : (m.readReply (.slot i)).queue i =
      { m.queue i with msg := (m.queue i).msg.withReply (m.rx.take (m.queue i).msg.rxLength) } :=
    entry_readReply m (.slot i)
  have hcallbacks : ((m.readReply (.slot i)).queue i).callbacks = (m.queue i).callbacks := by rw [hread]
  have hid : ((m.readReply (.slot i)).queue i).msg.id = (m.queue i).msg.id := by
    rw [hread]
    rfl
  have hset : ∀ (m' : Machine) (msg : Message), (m'.setMsg (.slot i) msg).queue i = { m'.queue i with msg := msg } :=
    fun m' msg => entry_setMsg m' (.slot i) msg
  have hother : ∀ j, j ≠ i → (m.readReply (.slot i)).queue j = m.queue j := fun _ hj => Function.update_of_ne hj _ _
  split
  · cases good with
    | true =>
        refine EndedAsync.of hreplies ?_ ?_ (fun j hj => ?_) rfl rfl rfl rfl rfl rfl rfl
        · rw [hset]
          exact hcallbacks
        · rw [hset]
          exact hid
        · exact (Function.update_of_ne hj _ _).trans (hother j hj)
    | false =>
        exact EndedAsync.of hreplies hcallbacks hid hother rfl rfl rfl rfl rfl rfl rfl
  · next hnot => exact absurd hasync hnot

theorem endedSync_gotBytes (hsync : m.syncMsg.async = false) : EndedSync m (m.gotBytes cfg .sync) := by
  rw [Machine.gotBytes]
  generalize (!(m.entry .sync).msg.crcCheck ||
    ((m.readReply .sync).entry .sync).msg.crcOk (m.entry .sync).msg.rxLength) = good
  split
  · next hasync => exact absurd hasync (Bool.eq_false_iff.1 hsync)
  · refine ⟨rfl, rfl, rfl, rfl, rfl, rfl, rfl, rfl, rfl, good, rfl, ?_⟩
    cases good with
    | true => exact rfl
    | false => exact Or.inl rfl

end

theorem Config.rxTimeout_pos (cfg : Config) : 0 < cfg.rxTimeout := by
  have := cfg.rxTimeout_bounds
  omega

/-! ## The ledger of a run -/

section
variable {log : List Event} {e : Event} {n i : ℕ} {u v live : List (ℕ × Phase)} {x : Phase}

theorem ledger_advance (h : Ledger Phase.Settled .unknown n (u ++ (i, x) :: v) (phases log))
    (he : e.about = some i) :
    Ledger Phase.Settled .unknown n (u ++ (i, x.next e) :: v) (phases (log ++ [e])) := by
  have hx : phases log i = x := h.phase_eq (i, x) (by simp)
  rw [phases_concat he, hx]
  exact h.advance _

theorem ledger_settle (h : Ledger Phase.Settled .unknown n (u ++ (i, x) :: v) (phases log))
    (he : e.about = some i) (hx : (x.next e).Settled) :
    Ledger Phase.Settled .unknown n (u ++ v) (phases (log ++ [e])) := by
  have hphase : phases log i = x := h.phase_eq (i, x) (by simp)
  rw [phases_concat he, hphase]
  exact h.settle hx

theorem ledger_open (h : Ledger Phase.Settled .unknown n (u ++ v) (phases log)) (he : e.about = some n) :
    Ledger Phase.Settled .unknown (n + 1) (u ++ (n, Phase.unknown.next e) :: v) (phases (log ++ [e])) := by
  rw [phases_concat he, h.unknown_of_le n le_rfl]
  exact h.open _

theorem ledger_reject (h : Ledger Phase.Settled .unknown n live (phases log)) (he : e.about = some n)
    (hx : (Phase.unknown.next e).Settled) : Ledger Phase.Settled .unknown (n + 1) live (phases (log ++ [e])) := by
  rw [phases_concat he, h.unknown_of_le n le_rfl]
  exact h.reject hx

end

/-- Every request is being worked on or has been answered. -/
structure Answers (m : Machine) : Prop where
  ledger : Ledger Phase.Settled .unknown m.calls (live m) (phases m.log)
  replies : ∀ e ∈ m.pending, e.Replies
  slot : ∀ i, m.packet = some (.slot i) → (m.queue i).Replies ∧ ringNext top i = m.tail
  caller : ∀ c, m.caller = some c → (∃ cb, c.callbacks = some cb ∧ cb.AllSet) ∧
    (c.waiting = false → m.syncMsg.msg.id = c.msg.id ∧ m.syncMsg.RepliesLast)
  retries : m.state = .retry → m.syncMsg.callbacks.retries ≠ 0
  timed : m.state = .tx ∨ m.state = .awaitReply → 0 < m.rxTimeout

section
variable {cfg : Config} {m m' : Machine} {l : Line} {r : Ref} {k : Kind} {code i : ℕ} {c : Caller}

theorem callerLive_of_notInLoop (h : m.NotInLoop) (hcaller : m'.caller = m.caller) : callerLive m' = callerLive m := by
  rw [callerLive, callerLive, hcaller]
  cases hc : m.caller with
  | none => rfl
  | some c => simp [callerPhase, h c hc]

theorem live_of_inLoop (hc : m.caller = some c) (hp : m.packet = some .sync) :
    live m = (c.msg.id, callerPhase m c) :: pendingLive m := by
  simp [live, callerLive, packetLive, hc, hp]

theorem live_of_slot (hp : m.packet = some (.slot i)) :
    live m = callerLive m ++ ((m.queue i).msg.id, .sent) :: pendingLive m := by
  simp [live, packetLive, hp]

theorem live_of_none (hp : m.packet = none) : live m = callerLive m ++ pendingLive m := by
  simp [live, packetLive, hp]

theorem callerPhase_of_inLoop (hw : c.waiting = false) : callerPhase m c =
    match m.state with
    | .tx | .awaitReply => .onLine m.syncMsg.callbacks.retries
    | .timeoutException | .exception | .retry => .failed m.syncMsg.callbacks.retries
    | .gotReply => .replied
    | .idle | .silent => .wrong := by
  rw [callerPhase, if_neg (Bool.eq_false_iff.1 hw)]

theorem live_push {e : Entry} (hpacket : m'.packet = m.packet) (hcaller : m'.caller = m.caller) (hstate : m'.state = m.state)
    (hsync : m'.syncMsg = m.syncMsg) (hslot : ∀ i, m.packet = some (.slot i) → (m'.queue i).msg.id = (m.queue i).msg.id)
    (hpending : m'.pending = m.pending ++ [e]) : live m' = live m ++ [(e.msg.id, Phase.pending)] := by
  have hcallerLive : callerLive m' = callerLive m := by
    simp only [callerLive, callerPhase, hcaller, hstate, hsync]
  have hpacketLive : packetLive m' = packetLive m := by
    rw [packetLive, packetLive, hpacket]
    split
    · next i hi => rw [hslot i hi]
    · rfl
    · rfl
  simp only [live, hcallerLive, hpacketLive, pendingLive, hpending, List.map_append, List.append_assoc, List.map_cons,
    List.map_nil]

/-! ## `modbus_poll` -/

theorem Answers.transmitNext (ha : Answers m) (h : Base m l) (hstage : Stage m l .idle) (hne : m.tail ≠ m.head) :
    Answers { m.txMessage cfg (.slot m.tail) with tail := ringNext top m.tail } := by
  obtain ⟨hp, -, hnot⟩ := hstage
  have hpop : m.pending = m.queue m.tail :: contents top m.queue (ringNext top m.tail) m.head :=
    contents_pop h.tail_lt h.head_lt hne
  have hcaller : callerLive { m.txMessage cfg (.slot m.tail) with tail := ringNext top m.tail } = callerLive m :=
    callerLive_of_notInLoop hnot rfl
  have hlive : live m = callerLive m ++ ((m.queue m.tail).msg.id, .pending) ::
      pendingLive { m.txMessage cfg (.slot m.tail) with tail := ringNext top m.tail } := by
    rw [live_of_none hp, pendingLive, hpop]
    rfl
  have hledger := ha.ledger
  rw [hlive] at hledger
  exact
    { ledger := by
        rw [live_of_slot rfl, hcaller]
        exact ledger_advance (e := .transmitted (m.queue m.tail)) hledger rfl
      replies := fun e he => ha.replies e (hpop ▸ List.mem_cons_of_mem _ he)
      slot := by
        intro i hi
        cases hi
        exact ⟨ha.replies _ (hpop ▸ List.mem_cons_self), rfl⟩
      caller := fun c hc => ⟨(ha.caller c hc).1, fun hw => absurd (hnot c hc) (Bool.eq_false_iff.1 hw)⟩
      retries := nofun
      timed := fun _ => cfg.rxTimeout_pos }

/-- Only the state of a machine without a message on the line has changed, or what is not about requests. -/
theorem Answers.congr (ha : Answers m) (hlog : m'.log = m.log) (hcalls : m'.calls = m.calls) (hlive : live m' = live m)
    (hpending : m'.pending = m.pending) (hslot : ∀ i, m'.packet = some (.slot i) → m.packet = some (.slot i))
    (hqueue : m'.queue = m.queue) (htail : m'.tail = m.tail) (hcaller : m'.caller = m.caller)
    (hsync : m'.syncMsg = m.syncMsg) (hretry : m'.state = .retry → m.state = .retry)
    (htimed : m'.state = .tx ∨ m'.state = .awaitReply → 0 < m'.rxTimeout) : Answers m' where
  ledger := by
    rw [hlog, hcalls, hlive]
    exact ha.ledger
  replies := by
    rw [hpending]
    exact ha.replies
  slot i hi := by
    rw [hqueue, htail]
    exact ha.slot i (hslot i hi)
  caller := by
    rw [hcaller, hsync]
    exact ha.caller
  retries hs := hsync ▸ ha.retries (hretry hs)
  timed := htimed

theorem Answers.endAsync (ha : Answers m) (hp : m.packet = some (.slot i)) (hr : m.Holds (.slot i))
    (he : EndedAsync m i m') : Answers m' := by
  obtain ⟨hqueued, hfree, hnot⟩ := hr
  obtain ⟨good, k, f, code, msg, hlog, hid, hgood⟩ := he.log
  have hpending : m'.pending = m.pending := by
    rw [Machine.pending, he.tail, he.head]
    exact contents_congr fun j hj => he.queue _ (hfree j hj)
  have hledger := ha.ledger
  rw [live_of_slot hp] at hledger
  have hended := ledger_advance (e := .ended (m.queue i) good) hledger rfl
  have hcalled : Ledger Phase.Settled .unknown m.calls (callerLive m ++ pendingLive m) (phases m'.log) := by
    rw [hlog]
    refine ledger_settle (e := .called k f code msg) hended (congrArg some hid) ⟨some k, ?_⟩
    simp [Phase.next, hgood]
  exact
    { ledger := by
        rw [he.calls, live_of_none he.packet, callerLive_of_notInLoop hnot he.caller, pendingLive, hpending]
        exact hcalled
      replies := by
        rw [hpending]
        exact ha.replies
      slot := by
        intro j hj
        cases he.packet.symm.trans hj
      caller := by
        intro c hc
        rw [he.caller] at hc
        exact ⟨(ha.caller c hc).1, fun hw => absurd (hnot c hc) (Bool.eq_false_iff.1 hw)⟩
      retries := fun hs => absurd (he.state.symm.trans hs) (by rintro ⟨⟩)
      timed := fun hs => by simp [he.state] at hs }

theorem Answers.endSync (ha : Answers m) (hp : m.packet = some .sync) (hs : m.state = .awaitReply) (hloop : m.InLoop)
    (he : EndedSync m m') : Answers m' := by
  obtain ⟨c, hc, hw⟩ := hloop
  obtain ⟨good, hlog, hstate⟩ := he.log
  have hpending : m'.pending = m.pending := by rw [Machine.pending, he.tail, he.head, he.queue, Machine.pending]
  have hledger := ha.ledger
  rw [live_of_inLoop hc hp, callerPhase_of_inLoop hw, hs] at hledger
  obtain ⟨hid, hreplies⟩ := (ha.caller c hc).2 hw
  have hended := ledger_advance (u := []) (e := .ended m.syncMsg good) hledger (congrArg some hid)
  have hphase : callerPhase m' c = Phase.next (.onLine m.syncMsg.callbacks.retries) (.ended m.syncMsg good) := by
    rw [callerPhase_of_inLoop hw, he.callbacks]
    cases good with
    | true => rw [if_pos rfl] at hstate; rw [hstate]; rfl
    | false =>
        rw [if_neg Bool.false_ne_true] at hstate
        obtain hstate | hstate := hstate <;> rw [hstate] <;> rfl
  exact
    { ledger := by
        rw [he.calls, live_of_inLoop (he.caller.trans hc) (he.packet.trans hp), pendingLive, hpending, hlog, hphase]
        exact hended
      replies := by
        rw [hpending]
        exact ha.replies
      slot := by
        intro j hj
        cases (he.packet.trans hp).symm.trans hj
      caller := by
        intro c' hc'
        cases (he.caller.trans hc).symm.trans hc'
        refine ⟨(ha.caller c hc).1, fun _ => ⟨he.id.trans hid, ?_⟩⟩
        rw [Entry.RepliesLast, Entry.Replies, he.callbacks]
        exact hreplies
      retries := by
        intro hs'
        rw [hs'] at hstate
        cases good <;> simp at hstate
      timed := by
        rintro (hs' | hs') <;> rw [hs'] at hstate <;> cases good <;> simp at hstate }

theorem Answers.awaitReply (ha : Answers m) (h : Inv m l) (hs : m.state = .awaitReply) (hp : m.packet = some r) :
    Answers (m.awaitReply cfg r) := by
  have hstage := h.stage
  rw [hs] at hstage
  obtain ⟨r', hp', -, hr⟩ := hstage
  cases hp.symm.trans hp'
  have hquiet : m.rxTimeout ≠ 1 → Answers { m with rxTimeout := m.rxTimeout - 1 } := by
    intro hne
    refine ha.congr rfl rfl rfl rfl (fun _ hi => hi) rfl rfl rfl rfl (fun hs' => hs') fun _ => ?_
    have hpos := ha.timed (.inr hs)
    change 0 < m.rxTimeout - 1
    omega
  rw [Machine.awaitReply]
  cases r with
  | slot i =>
      have hreplies := (ha.slot i hp).1
      split
      · exact ha.endAsync hp hr (endedAsync_timedOut hr.1.1 hreplies)
      · next hne =>
          dsimp only
          split
          · exact (hquiet hne).endAsync hp hr (endedAsync_gotBytes hr.1.1 hreplies)
          · exact hquiet hne
  | sync =>
      split
      · exact ha.endSync hp hs hr.2.2 (endedSync_timedOut hr.1.1)
      · next hne =>
          dsimp only
          split
          · exact (hquiet hne).endSync hp hs hr.2.2 (endedSync_gotBytes hr.1.1)
          · exact hquiet hne

theorem Answers.poll (ha : Answers m) (h : Inv m l) (sent : Bool) : Answers (m.poll cfg sent) := by
  have hstage := h.stage
  rw [Machine.poll]
  split
  · next hs =>
      rw [hs] at hstage
      split
      · next hcond => exact ha.transmitNext h.toBase hstage hcond.1
      · exact ha
  · next hs =>
      rw [hs] at hstage
      obtain ⟨hp, -, hnot⟩ := hstage
      split
      · have hcaller : callerLive { m with silenceUntil := 0, state := .idle } = callerLive m :=
          callerLive_of_notInLoop hnot rfl
        refine ha.congr rfl rfl ?_ rfl (fun _ hi => hi) rfl rfl rfl rfl (by rintro ⟨⟩)
          (by
            rintro (h | h)
            · have htx : State.idle = .tx := h
              cases htx
            · have hawait : State.idle = .awaitReply := h
              cases hawait)
        rw [live_of_none hp, live_of_none (by exact hp), hcaller]
        rfl
      · exact ha
  · next hs =>
      split
      · refine ha.congr rfl rfl ?_ rfl (fun _ hi => hi) rfl rfl rfl rfl (by rintro ⟨⟩)
          fun _ => ha.timed (.inl hs)
        have hphase : ∀ c, callerPhase { m with rx := [], state := .awaitReply } c = callerPhase m c := by
          intro c
          simp only [callerPhase, hs]
        simp only [live, callerLive, hphase]
        rfl
      · exact ha
  · next hs =>
      cases hp : m.packet with
      | some r => exact ha.awaitReply h hs hp
      | none =>
          rw [hs] at hstage
          obtain ⟨r, hp', -⟩ := hstage
          cases hp.symm.trans hp'
  · next hs =>
      rw [hs] at hstage
      obtain ⟨hp, -, -, hsync, -⟩ := hstage
      have hasync : (m.entry .sync).async = false := hsync.1
      split
      · exact ha.congr rfl rfl rfl rfl (fun _ hi => hi) rfl rfl rfl rfl (fun hs' => hs') ha.timed
      · next r hr =>
          cases hp.symm.trans hr
          have hphase : ∀ c, callerPhase ({ m with
              state := if (m.entry .sync).async = true then .silent else .timeoutException }.keepSilence cfg 0) c =
                callerPhase m c := by
            intro c
            simp only [callerPhase, Machine.keepSilence, hasync, hs, Bool.false_eq_true, if_false]
          refine ha.congr rfl rfl ?_ rfl (fun _ hi => hi) rfl rfl rfl rfl ?_ ?_
          · simp only [live, callerLive, hphase]
            rfl
          · simp [Machine.keepSilence, hasync]
          · simp [Machine.keepSilence, hasync]
  · exact ha

/-! ## `modbus_send_rtu` -/

theorem answers_finish {result : Bool}
    (hledger : Ledger Phase.Settled .unknown m.calls ((c.msg.id, .reported k) :: pendingLive m) (phases m.log))
    (hreplies : ∀ e ∈ m.pending, e.Replies) (hresult : result = decide (k = .packet)) : Answers (m.finish c result) where
  ledger := ledger_settle (u := []) (e := .returned c.msg.id result) hledger rfl
    ⟨some k, by simp [Phase.next, hresult]⟩
  replies := hreplies
  slot := nofun
  caller := nofun
  retries hs := by
    change (if m.silenceUntil > 0 then State.silent else State.idle) = .retry at hs
    split at hs <;> cases hs
  timed hs := by
    change (if m.silenceUntil > 0 then State.silent else State.idle) = .tx ∨
      (if m.silenceUntil > 0 then State.silent else State.idle) = .awaitReply at hs
    split at hs <;> obtain hs | hs := hs <;> cases hs

theorem Answers.attendError (ha : Answers m) (hp : m.packet = some .sync) (hc : m.caller = some c)
    (hw : c.waiting = false) (hs : m.state = .timeoutException ∨ m.state = .exception)
    (hk : k ≠ .packet) (hretry : m.syncMsg.callbacks.retries ≠ 0 → m.syncMsg.callbacks.hook k = some .retry) :
    Answers ((m.call cfg .sync k code).finishUnlessRetry c .sync) := by
  obtain ⟨hid, -, hlast⟩ := (ha.caller c hc).2 hw
  have hphase : callerPhase m c = .failed m.syncMsg.callbacks.retries := by
    rw [callerPhase_of_inLoop hw]
    obtain hs | hs := hs <;> rw [hs]
  have hledger := ha.ledger
  rw [live_of_inLoop hc hp, hphase] at hledger
  by_cases hretries : m.syncMsg.callbacks.retries = 0
  · obtain ⟨f, hf⟩ := hlast hretries k
    have hcall : m.call cfg .sync k code = m.emit (.called k f code m.syncMsg.msg) := by
      simp only [Machine.call, Machine.entry, hf]
    rw [hcall, Machine.finishUnlessRetry]
    split
    · rw [hretries] at hledger
      have hcalled := ledger_advance (u := []) (e := .called k f code m.syncMsg.msg) hledger (congrArg some hid)
      have hreported : Phase.next (.failed 0) (.called k f code m.syncMsg.msg) = .reported k := by simp [Phase.next, hk]
      rw [hreported] at hcalled
      exact answers_finish (m := m.emit _) hcalled ha.replies (by simp [hk])
    · next hne => exact absurd hretries hne
  · rw [call_retry hp hretries (hretry hretries), Machine.finishUnlessRetry]
    split
    · next heq => exact absurd heq hretries
    · refine
        { ledger := ?_
          replies := ha.replies
          slot := ha.slot
          caller := ha.caller
          retries := fun _ => hretries
          timed := (by
            rintro (h | h)
            · have htx : State.retry = .tx := h
              cases htx
            · have hawait : State.retry = .awaitReply := h
              cases hawait) }
      have hlive := live_of_inLoop (m := { m.keepSilence cfg (m.entry .sync).callbacks.retryDelay with state := .retry }) hc hp
      rw [hlive, callerPhase_of_inLoop hw]
      exact hledger

theorem answers_transmitSync {e : Entry} {x : Phase}
    (hledger : Ledger Phase.Settled .unknown m.calls ((c.msg.id, x) :: pendingLive m) (phases m.log))
    (hreplies : ∀ e ∈ m.pending, e.Replies) (hc : m.caller = some c) (hw : c.waiting = false)
    (hset : ∃ cb, c.callbacks = some cb ∧ cb.AllSet) (hid : e.msg.id = c.msg.id) (hlast : e.RepliesLast)
    (hx : x.next (.transmitted e) = .onLine e.callbacks.retries) : Answers (m.transmitSync cfg e) where
  ledger := by
    have hsent := ledger_advance (u := []) (e := .transmitted e) hledger (congrArg some hid)
    rw [hx] at hsent
    have hlive := live_of_inLoop (m := m.transmitSync cfg e) hc rfl
    rw [hlive, callerPhase_of_inLoop hw]
    exact hsent
  replies := hreplies
  slot := nofun
  caller c' hc' := by
    cases hc.symm.trans hc'
    exact ⟨hset, fun _ => ⟨hid, hlast⟩⟩
  retries := nofun
  timed _ := cfg.rxTimeout_pos

/-- The last attempt has the callbacks of the caller, the others those of `retry_exception`. -/
theorem Answers.retransmit_eq (cfg : Config) (ha : Answers m) (hc : m.caller = some c) (hw : c.waiting = false) :
    ∃ e, m.retransmit cfg c .sync = { m with silenceUntil := 0 }.transmitSync cfg e ∧ e.msg = c.msg ∧ e.RepliesLast ∧
      e.callbacks.retries = m.syncMsg.callbacks.retries - 1 := by
  obtain ⟨⟨cb, hcb, hset⟩, hloop⟩ := ha.caller c hc
  obtain ⟨-, hpacket, -⟩ := hloop hw
  have huser : (c.callbacks.map Callbacks.ofUser).getD {} = cb.ofUser := by rw [hcb]; rfl
  simp only [Machine.retransmit, huser]
  generalize hnew : (if (m.entry .sync).callbacks.retries - 1 = 0 then _ else _ : Callbacks Hook) = new
  have hnewRetries : new.retries = m.syncMsg.callbacks.retries - 1 := by
    rw [← hnew]
    split <;> rfl
  have hnewPacket : ∃ f, new.onRxPacket = some (.user f) := by
    rw [← hnew]
    split <;> exact hpacket
  have hnewLast : new.retries = 0 → ∀ k, ∃ f, new.hook k = some (.user f) := by
    intro hzero k
    rw [hnewRetries] at hzero
    have hzero' : (m.entry .sync).callbacks.retries - 1 = 0 := hzero
    rw [← hnew, if_pos hzero']
    cases k with
    | packet => exact hpacket
    | exception => exact hset.ofUser .exception
    | timeout =>
        obtain ⟨f, hf⟩ := hset.ofUser .timeout
        have htimeout : cb.ofUser.onRxTimeout = some (.user f) := hf
        exact ⟨f, by simp [Callbacks.hook, htimeout]⟩
  obtain ⟨hlast, hleft⟩ := repliesLast_addMessage c.msg hnewPacket hnewLast
  exact ⟨_, rfl, addMessage_msg .., hlast, hleft.trans hnewRetries⟩

theorem Answers.retransmit (ha : Answers m) (hs : m.state = .retry) (hp : m.packet = some .sync)
    (hc : m.caller = some c) (hw : c.waiting = false) : Answers (m.retransmit cfg c .sync) := by
  obtain ⟨e, heq, hmsg, hlast, hleft⟩ := ha.retransmit_eq cfg hc hw
  have hledger := ha.ledger
  rw [live_of_inLoop hc hp, callerPhase_of_inLoop hw, hs] at hledger
  rw [heq]
  refine answers_transmitSync (m := { m with silenceUntil := 0 }) hledger ha.replies hc hw (ha.caller c hc).1
    (congrArg Message.id hmsg) hlast ?_
  obtain ⟨left, hpos⟩ := Nat.exists_eq_succ_of_ne_zero (ha.retries hs)
  rw [hleft, hpos]
  rfl

theorem Answers.attend (ha : Answers m) (h : Inv m l) (hp : m.packet = some r) (hc : m.caller = some c)
    (hw : c.waiting = false) : Answers (m.attend cfg c r) := by
  have hstage := h.stage
  rw [Machine.attend]
  split
  · next hs =>
      rw [hs] at hstage
      obtain ⟨hp', -, -, hsync, -⟩ := hstage
      cases hp.symm.trans hp'
      exact ha.attendError hp hc hw (.inl hs) (by rintro ⟨⟩) fun hretries => (hsync.2.2 hretries).2
  · next hs =>
      rw [hs] at hstage
      obtain ⟨hp', -, -, hsync, -⟩ := hstage
      cases hp.symm.trans hp'
      exact ha.attendError hp hc hw (.inr hs) (by rintro ⟨⟩) fun hretries => (hsync.2.2 hretries).1
  · next hs =>
      rw [hs] at hstage
      obtain ⟨hp', -⟩ := hstage
      cases hp.symm.trans hp'
      obtain ⟨hid, ⟨f, hf⟩, -⟩ := (ha.caller c hc).2 hw
      have hcall : m.call cfg .sync .packet 0 = m.emit (.called .packet f 0 m.syncMsg.msg) := by
        have hhook : m.syncMsg.callbacks.hook .packet = some (.user f) := hf
        simp only [Machine.call, Machine.entry, hhook]
      have hledger := ha.ledger
      rw [live_of_inLoop hc hp, callerPhase_of_inLoop hw, hs] at hledger
      have hcalled := ledger_advance (u := []) (e := .called .packet f 0 m.syncMsg.msg) hledger (congrArg some hid)
      rw [hcall]
      exact answers_finish (m := m.emit _) hcalled ha.replies rfl
  · next hs =>
      rw [hs] at hstage
      cases hp.symm.trans hstage.1
      split
      · exact ha.retransmit hs hp hc hw
      · exact ha
  · exact ha

theorem Answers.firstEntry (ha : Answers m) (hc : m.caller = some c) :
    (addMessage c.msg false (c.callbacks.map Callbacks.ofUser)).RepliesLast ∧
      (addMessage c.msg false (c.callbacks.map Callbacks.ofUser)).callbacks.retries = c.retries := by
  obtain ⟨⟨cb, hcb, hset⟩, -⟩ := ha.caller c hc
  rw [Caller.retries, hcb]
  exact repliesLast_addMessage c.msg (hset.ofUser .packet) fun _ => hset.ofUser

theorem Answers.awaitIdle (ha : Answers m) (h : Inv m l) (hc : m.caller = some c) (hw : c.waiting = true) :
    Answers (m.awaitIdle cfg c) := by
  rw [Machine.awaitIdle]
  split
  · next hs =>
      have hstage := h.stage
      rw [hs] at hstage
      obtain ⟨hp, -⟩ := hstage
      have hledger := ha.ledger
      have hlive : live m = (c.msg.id, .blocked c.retries) :: pendingLive m := by
        simp [live_of_none hp, callerLive, hc, callerPhase, hw]
      rw [hlive] at hledger
      obtain ⟨hlast, hleft⟩ := ha.firstEntry hc
      refine answers_transmitSync (m := { m with caller := some { c with waiting := false } })
        (c := { c with waiting := false }) hledger ha.replies rfl rfl (ha.caller c hc).1 (by simp) hlast ?_
      rw [hleft]
      rfl
  · exact ha

theorem Answers.resume (ha : Answers m) (h : Inv m l) : Answers (m.resume cfg) := by
  rw [Machine.resume]
  split
  · exact ha
  · next c hc =>
      split
      · next hw => exact ha.awaitIdle h hc hw
      · next hw =>
          split
          · exact ha.congr rfl rfl rfl rfl (fun _ hi => hi) rfl rfl rfl rfl (fun hs => hs) ha.timed
          · next r hp => exact ha.attend h hp hc (Bool.eq_false_iff.2 hw)

theorem Answers.sendAsync {msg : Message} {cb : Callbacks ℕ} (ha : Answers m) (h : Inv m l) (fault : Bool)
    (hid : msg.id = m.calls) (hset : cb.AllSet) (hpasses : m.passes = true) (hfree : ringNext top m.head ≠ m.tail) :
    Answers ({ m with calls := m.calls + 1, fault := fault }.sendAsync msg (some cb)) := by
  have hcond : ({ m with calls := m.calls + 1, fault := fault } : Machine).passes = true ∧
      ringNext top m.head ≠ m.tail := ⟨hpasses, hfree⟩
  have hreplies := replies_addMessage msg hset
  have hmsg : (addMessage msg true (some cb.ofUser)).msg = msg := addMessage_msg ..
  simp only [Machine.sendAsync]
  rw [if_pos hcond, Option.map_some]
  generalize addMessage msg true (some cb.ofUser) = e at hreplies hmsg ⊢
  have heid : e.msg.id = m.calls := by rw [hmsg, hid]
  have hpush : contents top (Function.update m.queue m.head e) m.tail (ringNext top m.head) = m.pending ++ [e] :=
    contents_push h.tail_lt h.head_lt hfree e
  have hslot : ∀ i, m.packet = some (.slot i) → Function.update m.queue m.head e i = m.queue i := by
    intro i hi
    refine Function.update_of_ne ?_ _ _
    rintro rfl
    exact hfree (ha.slot _ hi).2
  have hqueued := ledger_open (v := []) (e := .queued e) (by rw [List.append_nil]; exact ha.ledger) (congrArg some heid)
  have hreturned := ledger_advance (e := .returned msg.id true) hqueued (congrArg some hid)
  exact
    { ledger := by
        have hlive : live (({ m with
            calls := m.calls + 1
            fault := fault
            queue := Function.update m.queue m.head e
            head := ringNext top m.head }.emit (.queued e)).emit (.returned msg.id true)) = live m ++ [(m.calls, .pending)] := by
          rw [← heid]
          refine live_push rfl rfl rfl rfl (fun i hi => ?_) hpush
          change (Function.update m.queue m.head e i).msg.id = (m.queue i).msg.id
          rw [hslot i hi]
        rw [hlive]
        exact hreturned
      replies := by
        intro x hx
        rw [Machine.pending, Machine.emit, Machine.emit, hpush] at hx
        obtain hx | hx := List.mem_append.1 hx
        · exact ha.replies x hx
        · exact List.mem_singleton.1 hx ▸ hreplies
      slot := by
        intro i hi
        obtain ⟨hold, hnext⟩ := ha.slot i hi
        refine ⟨?_, hnext⟩
        change (Function.update m.queue m.head e i).Replies
        rw [hslot i hi]
        exact hold
      caller := ha.caller
      retries := ha.retries
      timed := ha.timed }

theorem Answers.sendBlocking {msg : Message} {cb : Callbacks ℕ} (ha : Answers m) (h : Inv m l)
    (hmsg : msg.WellFormed) (hid : msg.id = m.calls) (hset : cb.AllSet) :
    Answers ({ m with calls := m.calls + 1 }.sendBlocking cfg msg (some cb)) := by
  rw [Machine.sendBlocking]
  split
  · exact
      { ledger := ledger_reject (e := .returned msg.id false) ha.ledger (congrArg some hid) ⟨none, rfl⟩
        replies := ha.replies
        slot := ha.slot
        caller := ha.caller
        retries := ha.retries
        timed := ha.timed }
  · next hblocking =>
      have hnone := h.caller_eq_none hblocking
      have hblock := h.block hnone hmsg (some cb) cb.retries
      have hblocked : Answers ({ m with calls := m.calls + 1, isBlocking := true, caller := some ⟨msg, some cb, true⟩ }.emit
          (.blocked msg.id cb.retries)) := by
        have hledger := ha.ledger
        have hcallerLive : callerLive m = [] := by rw [callerLive, hnone]
        rw [live, hcallerLive, List.nil_append] at hledger
        exact
          { ledger := by
              have hlive : live ({ m with
                  calls := m.calls + 1
                  isBlocking := true
                  caller := some ⟨msg, some cb, true⟩ }.emit (.blocked msg.id cb.retries)) =
                    (m.calls, .blocked cb.retries) :: (packetLive m ++ pendingLive m) := by
                rw [← hid]
                rfl
              rw [hlive]
              exact ledger_open (u := []) (e := .blocked msg.id cb.retries) hledger (congrArg some hid)
            replies := ha.replies
            slot := ha.slot
            caller := by
              intro c hc
              cases hc
              exact ⟨⟨cb, rfl, hset⟩, (by rintro ⟨⟩)⟩
            retries := ha.retries
            timed := ha.timed }
      have hinv : Inv ({ m with calls := m.calls + 1, isBlocking := true, caller := some ⟨msg, some cb, true⟩ }.emit
          (.blocked msg.id cb.retries)) l :=
        ⟨hblock.toBase.congr rfl rfl rfl rfl rfl rfl rfl, hblock.stage⟩
      exact hblocked.awaitIdle hinv rfl rfl

end

/-! ## Every step -/

/-- A request is well formed, has all callbacks, and when it does not block is put into the queue; no request is flushed. -/
def Action.Answerable (m : Machine) : Action → Prop
  | .send msg callbacks block blockingEvent =>
      msg.WellFormed ∧ (match callbacks with | none => False | some cb => cb.AllSet) ∧
        ((block && !blockingEvent) = false → msg.txLength ≤ maxAduSize ∧ msg.rxLength ≤ maxAduSize →
          m.passes = true ∧ ringNext top m.head ≠ m.tail)
  | .flush => False
  | .poll _ _ | .resume _ | .receive _ => True

instance (m : Machine) (a : Action) : Decidable (a.Answerable m) :=
  match a with
  | .send _ none _ _ => inferInstanceAs (Decidable (_ ∧ False ∧ (_ → _ → _)))
  | .send _ (some cb) _ _ => inferInstanceAs (Decidable (_ ∧ cb.AllSet ∧ (_ → _ → _)))
  | .flush => isFalse id
  | .poll _ _ | .resume _ | .receive _ => isTrue trivial

section
variable {cfg : Config} {m : Machine} {l : Line} {a : Action}

theorem Action.Answerable.safe (ha : Answers m) (hsafe : a.Answerable m) : a.Safe m := by
  cases a with
  | poll _ _ | resume _ | flush | receive _ => trivial
  | send msg callbacks block blockingEvent =>
      obtain ⟨hmsg, hset, haccepts⟩ := hsafe
      refine ⟨hmsg, ?_, ?_⟩
      · rintro - rfl
        exact hset
      · rintro ⟨-, -, -, hfree⟩ hp
        exact hfree (ha.slot _ hp).2

theorem Answers.sendIllegal {msg : Message} {cb : Callbacks ℕ} (ha : Answers m) (hid : msg.id = m.calls) (hset : cb.AllSet) :
    Answers ({ m with calls := m.calls + 1 }.sendIllegal msg (some cb)) := by
  obtain ⟨f, hf⟩ := Option.isSome_iff_exists.1 hset.2.1
  have heq : ({ m with calls := m.calls + 1 } : Machine).sendIllegal msg (some cb) =
      ({ m with calls := m.calls + 1 }.emit (.illegal f msg)).emit (.returned msg.id false) := by
    simp only [Machine.sendIllegal, hf]
  have hillegal := ledger_open (u := []) (e := .illegal f msg) ha.ledger (congrArg some hid)
  rw [heq]
  exact
    { ledger := ledger_settle (u := []) (e := .returned msg.id false) hillegal (congrArg some hid) ⟨some .exception, rfl⟩
      replies := ha.replies
      slot := ha.slot
      caller := ha.caller
      retries := ha.retries
      timed := ha.timed }

theorem Answers.sendRtu {msg : Message} {callbacks : Option (Callbacks ℕ)} {block blockingEvent : Bool} (ha : Answers m)
    (h : Inv m l) (hsafe : (Action.send msg callbacks block blockingEvent).Answerable m) :
    Answers (m.sendRtu cfg msg callbacks block blockingEvent) := by
  obtain ⟨hmsg, hset, haccepts⟩ := hsafe
  cases callbacks with
  | none => exact hset.elim
  | some cb =>
      simp only [Machine.sendRtu]
      split
      · exact ha.sendIllegal rfl hset
      · next hshort =>
          have hlengths : msg.txLength ≤ maxAduSize ∧ msg.rxLength ≤ maxAduSize := by omega
          have hfault : (m.fault || decide (msg.txLength < 2)) = m.fault := by
            have := hmsg.1
            simp; omega
          have hcrc : ({ msg with id := m.calls } : Message).withCrc.WellFormed := hmsg
          split
          · rw [hfault]
            exact ha.sendBlocking h hcrc rfl hset
          · next hblock =>
              obtain ⟨hpasses, hfree⟩ := haccepts (Bool.eq_false_iff.2 hblock) hlengths
              exact ha.sendAsync h _ rfl hset hpasses hfree

theorem Answers.exec (ha : Answers m) (h : Inv m l) (hsafe : a.Answerable m) : Answers (m.exec cfg a) := by
  have hquiet : ∀ ms, Answers (m.elapse ms) := fun _ =>
    ha.congr rfl rfl rfl rfl (fun _ hi => hi) rfl rfl rfl rfl (fun hs => hs) ha.timed
  have hinv : ∀ ms, Inv (m.elapse ms) l := fun _ => ⟨h.toBase.congr rfl rfl rfl rfl rfl rfl rfl, h.stage⟩
  cases a with
  | poll ms sent => exact (hquiet ms).poll (hinv ms) sent
  | resume ms => exact (hquiet ms).resume (hinv ms)
  | send msg callbacks block blockingEvent => exact ha.sendRtu h hsafe
  | flush => exact hsafe.elim
  | receive bytes => exact ha.congr rfl rfl rfl rfl (fun _ hi => hi) rfl rfl rfl rfl (fun hs => hs) ha.timed

theorem answers_init : Answers {} where
  ledger := Ledger.start
  replies := nofun
  slot := nofun
  caller := nofun
  retries := nofun
  timed := by rintro (hs | hs) <;> cases hs

theorem answers_of_answerable {as : List Action} {m₀ : Machine} {l₀ : Line} (h₀ : Inv m₀ l₀) (ha₀ : Answers m₀)
    (hsafe : Along (step cfg) (fun m a => a.Answerable m) m₀ as) (hrun : run (step cfg) m₀ as = some m) :
    Answers m ∧ ∃ l, Inv m l :=
  run_invariant_along (I := fun m => Answers m ∧ ∃ l, Inv m l)
    (by
      rintro s a s' ⟨ha, l, h⟩ hs hstep
      cases hstep
      exact ⟨ha.exec h hs, h.exec (hs.safe ha)⟩)
    as m₀ m ⟨ha₀, l₀, h₀⟩ hsafe hrun

end

end Grbl.Modbus
