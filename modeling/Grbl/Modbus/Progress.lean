import Grbl.Modbus.History

/-!
# Every request is answered

* `log_prefix_exec` : the log only grows; `settled_of_extends` : a request stays settled;
* `Round` : what may happen in a millisecond in which no blocking call is made;
* `rank`, `rank_round` : how many rounds a request may take; it goes down;
* `settled_of_rounds` : after as many rounds a request has been answered;
* `Answered`, `answered_of_answerable` : every run.
-/

namespace Grbl.Modbus
open Lib

/-! ## The log only grows -/

section
variable {cfg : Config} {m : Machine} {r : Ref} {k : Kind} {code : ℕ} {c : Caller}

theorem log_prefix_emit (m : Machine) (e : Event) : m.log <+: (m.emit e).log := List.prefix_append _ _

theorem log_prefix_call (m : Machine) : m.log <+: (m.call cfg r k code).log := by
  rw [Machine.call]
  split
  · exact List.prefix_rfl
  · rw [Machine.retryException]
    split
    · exact List.prefix_rfl
    · split <;> exact List.prefix_rfl
  · exact log_prefix_emit m _

theorem log_prefix_endAsync (m : Machine) : m.log <+: (m.endAsync cfg r k code).log :=
  log_prefix_call { m with state := .silent }

theorem log_prefix_setMsg (m : Machine) (msg : Message) : m.log <+: (m.setMsg r msg).log := by
  cases r <;> exact List.prefix_rfl

theorem log_prefix_timedOut (m : Machine) : m.log <+: (m.timedOut cfg r).log := by
  have hended := log_prefix_emit { m with rxTimeout := 0 } (.ended (m.entry r) false)
  rw [Machine.timedOut]
  split
  · exact hended.trans (log_prefix_endAsync _)
  · split <;> exact hended

theorem log_prefix_gotBytes (m : Machine) : m.log <+: (m.gotBytes cfg r).log := by
  have hread : m.log <+: (m.readReply r).log := by
    rw [Machine.readReply]
    refine List.IsPrefix.trans ?_ (log_prefix_setMsg _ _)
    exact List.prefix_rfl
  rw [Machine.gotBytes]
  generalize (!(m.entry r).msg.crcCheck || ((m.readReply r).entry r).msg.crcOk (m.entry r).msg.rxLength) = good
  have hended := hread.trans (log_prefix_emit (m.readReply r) (.ended (m.entry r) good))
  split
  · split
    · exact hended.trans ((log_prefix_setMsg _ _).trans (log_prefix_endAsync _))
    · exact hended.trans (log_prefix_endAsync _)
  · exact hended

theorem log_prefix_awaitReply (m : Machine) : m.log <+: (m.awaitReply cfg r).log := by
  rw [Machine.awaitReply]
  split
  · exact log_prefix_timedOut m
  · dsimp only
    split
    · refine List.IsPrefix.trans ?_ (log_prefix_gotBytes _)
      exact List.prefix_rfl
    · exact List.prefix_rfl

theorem log_prefix_poll (m : Machine) (sent : Bool) : m.log <+: (m.poll cfg sent).log := by
  rw [Machine.poll]
  split
  · split
    · exact log_prefix_emit m _
    · exact List.prefix_rfl
  · split <;> exact List.prefix_rfl
  · split <;> exact List.prefix_rfl
  · split
    · exact List.prefix_rfl
    · exact log_prefix_awaitReply m
  · split <;> exact List.prefix_rfl
  · exact List.prefix_rfl

theorem log_prefix_finish (m : Machine) (result : Bool) : m.log <+: (m.finish c result).log := log_prefix_emit m _

theorem log_prefix_attend (m : Machine) : m.log <+: (m.attend cfg c r).log := by
  have hunless : ∀ m' : Machine, m.log <+: m'.log → m.log <+: (m'.finishUnlessRetry c r).log := by
    intro m' h
    rw [Machine.finishUnlessRetry]
    split
    · exact h.trans (log_prefix_finish m' false)
    · exact h
  rw [Machine.attend]
  split
  · exact hunless _ (log_prefix_call m)
  · exact hunless _ (log_prefix_call m)
  · exact (log_prefix_call m).trans (log_prefix_finish _ true)
  · split
    · exact log_prefix_emit m _
    · exact List.prefix_rfl
  · exact List.prefix_rfl

theorem log_prefix_awaitIdle (m : Machine) : m.log <+: (m.awaitIdle cfg c).log := by
  rw [Machine.awaitIdle]
  split
  · exact log_prefix_emit m _
  · exact List.prefix_rfl

theorem log_prefix_resume (m : Machine) : m.log <+: (m.resume cfg).log := by
  rw [Machine.resume]
  split
  · exact List.prefix_rfl
  · split
    · exact log_prefix_awaitIdle m
    · split
      · exact List.prefix_rfl
      · exact log_prefix_attend m

theorem log_prefix_sendIllegal (m : Machine) (msg : Message) (callbacks : Option (Callbacks ℕ)) :
    m.log <+: (m.sendIllegal msg callbacks).log := by
  simp only [Machine.sendIllegal]
  refine List.IsPrefix.trans ?_ (log_prefix_emit _ _)
  split
  · exact List.prefix_rfl
  · split
    · exact log_prefix_emit m _
    · exact List.prefix_rfl

theorem log_prefix_sendBlocking (m : Machine) (msg : Message) (callbacks : Option (Callbacks ℕ)) :
    m.log <+: (m.sendBlocking cfg msg callbacks).log := by
  rw [Machine.sendBlocking]
  split
  · exact log_prefix_emit m _
  · refine List.IsPrefix.trans ?_ (log_prefix_awaitIdle _)
    exact log_prefix_emit m _

theorem log_prefix_sendAsync (m : Machine) (msg : Message) (callbacks : Option (Callbacks ℕ)) :
    m.log <+: (m.sendAsync msg callbacks).log := by
  rw [Machine.sendAsync]
  refine List.IsPrefix.trans ?_ (log_prefix_emit _ _)
  split
  · exact log_prefix_emit m _
  · exact List.prefix_rfl

theorem log_prefix_sendRtu (m : Machine) (msg : Message) (callbacks : Option (Callbacks ℕ)) (block blockingEvent : Bool) :
    m.log <+: (m.sendRtu cfg msg callbacks block blockingEvent).log := by
  simp only [Machine.sendRtu]
  split
  · refine List.IsPrefix.trans ?_ (log_prefix_sendIllegal _ _ _)
    exact List.prefix_rfl
  · split
    · refine List.IsPrefix.trans ?_ (log_prefix_sendBlocking _ _ _)
      exact List.prefix_rfl
    · refine List.IsPrefix.trans ?_ (log_prefix_sendAsync _ _ _)
      exact List.prefix_rfl

theorem log_prefix_exec (m : Machine) (a : Action) : m.log <+: (m.exec cfg a).log := by
  cases a with
  | poll ms sent => exact log_prefix_poll (m.elapse ms) sent
  | resume ms => exact log_prefix_resume (m.elapse ms)
  | send msg callbacks block blockingEvent => exact log_prefix_sendRtu m ..
  | flush => exact log_prefix_emit m _
  | receive bytes => exact List.prefix_rfl

theorem log_prefix_run {as : List Action} {m m' : Machine} (h : run (step cfg) m as = some m') : m.log <+: m'.log :=
  run_invariant (I := fun s => m.log <+: s.log)
    (by
      rintro s a s' hs hstep
      cases hstep
      exact hs.trans (log_prefix_exec s a)) as m m' List.prefix_rfl h

end

/-! ## Settled requests -/

section
variable {cfg : Config} {m m' : Machine} {l : Line} {i : ℕ}

theorem callerPhase_ne (h : Inv m l) {c : Caller} (hc : m.caller = some c) :
    callerPhase m c ≠ .wrong ∧ callerPhase m c ≠ .unknown := by
  rw [callerPhase]
  split
  · exact ⟨(by rintro ⟨⟩), (by rintro ⟨⟩)⟩
  · next hw =>
      have hstage := h.stage
      cases hs : m.state with
      | idle | silent =>
          rw [hs] at hstage
          exact absurd (hstage.2.2 c hc) hw
      | _ => exact ⟨(by rintro ⟨⟩), (by rintro ⟨⟩)⟩

theorem phase_ne_of_mem (h : Inv m l) {x : ℕ × Phase} (hx : x ∈ live m) : x.2 ≠ .wrong ∧ x.2 ≠ .unknown := by
  simp only [live, List.mem_append] at hx
  obtain (hx | hx) | hx := hx
  · rw [callerLive] at hx
    split at hx
    · cases hx
    · next c hc =>
        cases List.mem_singleton.1 hx
        exact callerPhase_ne h hc
  · rw [packetLive] at hx
    split at hx
    · cases List.mem_singleton.1 hx
      exact ⟨(by rintro ⟨⟩), (by rintro ⟨⟩)⟩
    · cases hx
    · cases hx
  · obtain ⟨e, -, rfl⟩ := List.mem_map.1 hx
    exact ⟨(by rintro ⟨⟩), (by rintro ⟨⟩)⟩

theorem phases_ne (ha : Answers m) (h : Inv m l) (hi : i < m.calls) :
    phases m.log i ≠ .wrong ∧ phases m.log i ≠ .unknown := by
  by_cases hlive : i ∈ (live m).map Prod.fst
  · obtain ⟨x, hx, rfl⟩ := List.mem_map.1 hlive
    rw [ha.ledger.phase_eq x hx]
    exact phase_ne_of_mem h hx
  · obtain ⟨k, hk⟩ := ha.ledger.settled i hi hlive
    rw [hk]
    exact ⟨nofun, nofun⟩

theorem phases_append (log es : List Event) (i : ℕ) :
    phases (log ++ es) i = (history es i).foldl Phase.next (phases log i) := by
  rw [phases_eq, history, List.filter_append, List.foldl_append, ← history, ← phases_eq]
  rfl

theorem lt_calls_of_extends (ha : Answers m) (h : Inv m l) (ha' : Answers m') (hext : m.log <+: m'.log) (hi : i < m.calls) :
    i < m'.calls := by
  by_contra hle
  have hunknown := ha'.ledger.unknown_of_le i (not_lt.1 hle)
  obtain ⟨es, hes⟩ := hext
  have hknown := (phases_ne ha h hi).2
  rw [← hes, phases_append] at hunknown
  revert hunknown
  induction history es i using List.reverseRecOn with
  | nil => exact hknown
  | append_singleton es e _ =>
      rw [List.foldl_append]
      exact Phase.next_ne_unknown _ e

theorem settled_of_extends {log log' : List Event} (hext : log <+: log') (hsettled : (phases log i).Settled)
    (hne : phases log' i ≠ .wrong) : (phases log' i).Settled := by
  obtain ⟨es, rfl⟩ := hext
  obtain ⟨k, hk⟩ := hsettled
  rw [phases_append, hk] at hne ⊢
  cases hes : history es i with
  | nil => exact ⟨k, rfl⟩
  | cons e es =>
      rw [hes, List.foldl_cons] at hne
      have hwrong : Phase.next (.done k) e = .wrong := by cases e <;> rfl
      rw [hwrong, foldl_next_wrong] at hne
      exact absurd rfl hne

end

/-! ## Ranks -/

def Machine.silenceLeft (m : Machine) : ℕ := (m.silenceUntil + 2 ^ 32 - m.now % 2 ^ 32) % 2 ^ 32

theorem silenceOver_eq (m : Machine) : m.silenceOver = decide (m.silenceLeft = 0 ∨ 2 ^ 31 ≤ m.silenceLeft) := rfl

def ticks : ℕ := 2 ^ 32

theorem silenceLeft_lt (m : Machine) : m.silenceLeft < ticks := Nat.mod_lt _ (by decide)

theorem silenceLeft_elapse (m : Machine) :
    (m.elapse 1).silenceLeft = if m.silenceLeft = 0 then 2 ^ 32 - 1 else m.silenceLeft - 1 := by
  unfold Machine.silenceLeft Machine.elapse
  dsimp only
  split <;> omega

/-- Rounds for an attempt of a blocking call and the retries behind it. -/
def retryRank (cfg : Config) (left : ℕ) : ℕ := left * (cfg.rxTimeout + 4 * ticks)

/-- Rounds until the state is idle again. -/
def stateRank (cfg : Config) (m : Machine) : ℕ :=
  let extra := if m.packet = some .sync then ticks + retryRank cfg m.syncMsg.callbacks.retries else 0
  match m.state with
  | .idle => 0
  | .silent => m.silenceLeft + 1
  | .tx => m.rxTimeout + 3 + ticks + extra
  | .awaitReply => m.rxTimeout + 2 + ticks + extra
  | .timeoutException | .exception | .gotReply => 2 * ticks + retryRank cfg m.syncMsg.callbacks.retries
  | .retry => m.silenceLeft + 1 + (cfg.rxTimeout + 3 + 2 * ticks) + retryRank cfg (m.syncMsg.callbacks.retries - 1)

/-- Rounds for the blocking call that waits. -/
def callerRank (cfg : Config) (m : Machine) : ℕ :=
  match m.caller with
  | none => 0
  | some c => if c.waiting then cfg.rxTimeout + 4 + 2 * ticks + retryRank cfg c.retries else 0

def pendingIds (m : Machine) : List ℕ := m.pending.map fun e => e.msg.id

/-- The requests of the queue that are sent up to this one. -/
def ahead (m : Machine) (i : ℕ) : ℕ := if i ∈ pendingIds m then (pendingIds m).idxOf i + 1 else 0

/-- Rounds until the request has been answered. -/
def rank (cfg : Config) (i : ℕ) (m : Machine) : ℕ :=
  stateRank cfg m + callerRank cfg m + (cfg.rxTimeout + 4 + ticks) * ahead m i

section
variable {cfg : Config} {m m' : Machine} {l : Line} {i : ℕ} {c : Caller}

theorem ahead_pop {a : ℕ} {ids : List ℕ} (hids : pendingIds m = a :: ids) (hids' : pendingIds m' = ids)
    (hnodup : (pendingIds m).Nodup) (hi : i ∈ pendingIds m) : ahead m' i + 1 = ahead m i := by
  rw [ahead, ahead, if_pos hi, hids', hids]
  rw [hids] at hnodup hi
  obtain rfl | hi := List.mem_cons.1 hi
  · rw [if_neg (List.nodup_cons.1 hnodup).1, List.idxOf_cons_self]
  · have hne : a ≠ i := by
      rintro rfl
      exact (List.nodup_cons.1 hnodup).1 hi
    rw [if_pos hi, List.idxOf_cons_ne _ hne]

theorem pendingIds_nodup (ha : Answers m) : (pendingIds m).Nodup := by
  have hnodup := ha.ledger.nodup
  rw [live, List.map_append, List.nodup_append] at hnodup
  have heq : (pendingLive m).map Prod.fst = pendingIds m := by
    rw [pendingLive, List.map_map]
    rfl
  exact heq ▸ hnodup.2.1

theorem mem_pendingIds_of_idle (hp : m.packet = none) (hc : m.caller = none) (hi : i ∈ (live m).map Prod.fst) :
    i ∈ pendingIds m := by
  rw [live_of_none hp, callerLive, hc, List.nil_append, pendingLive, List.map_map] at hi
  exact hi

theorem EndedAsync.pending (he : EndedAsync m i m') (hfree : Free top m.tail m.head i) : m'.pending = m.pending := by
  rw [Machine.pending, he.tail, he.head]
  exact contents_congr fun j hj => he.queue _ (hfree j hj)

theorem EndedSync.pending (he : EndedSync m m') : m'.pending = m.pending := by
  rw [Machine.pending, he.tail, he.head, he.queue, Machine.pending]

theorem callerRank_congr (h : m'.caller = m.caller) : callerRank cfg m' = callerRank cfg m := by
  rw [callerRank, callerRank, h]

theorem ahead_congr (h : m'.pending = m.pending) : ahead m' i = ahead m i := by
  rw [ahead, ahead, pendingIds, pendingIds, h]

theorem rank_awaitReply {r : Ref} (ha : Answers m) (h : Inv m l) (hs : m.state = .awaitReply) (hp : m.packet = some r) :
    rank cfg i (m.awaitReply cfg r) < rank cfg i m := by
  have hstage := h.stage
  rw [hs] at hstage
  obtain ⟨r', hp', -, hr⟩ := hstage
  cases hp.symm.trans hp'
  have hpos := ha.timed (.inr hs)
  have hasync : ∀ (m₀ : Machine) {m' : Machine} {j : ℕ}, EndedAsync m₀ j m' → m₀.caller = m.caller → m₀.pending = m.pending →
      Free top m₀.tail m₀.head j → rank cfg i m' < rank cfg i m := by
    intro m₀ m' j he hcaller hpending hfree
    rw [rank, rank, callerRank_congr (he.caller.trans hcaller), ahead_congr ((he.pending hfree).trans hpending)]
    have hlt := silenceLeft_lt m'
    simp only [stateRank, he.state, hs]
    omega
  have hsync : ∀ (m₀ : Machine) {m' : Machine}, EndedSync m₀ m' → m₀.caller = m.caller → m₀.pending = m.pending →
      m₀.syncMsg = m.syncMsg → m.packet = some .sync → rank cfg i m' < rank cfg i m := by
    intro m₀ m' he hcaller hpending hmsg hsyncPacket
    obtain ⟨good, -, hstate⟩ := he.log
    have hstateRank : stateRank cfg m' = 2 * ticks + retryRank cfg m.syncMsg.callbacks.retries := by
      rw [← hmsg, ← he.callbacks]
      cases good with
      | true =>
          rw [if_pos rfl] at hstate
          simp only [stateRank, hstate]
      | false =>
          rw [if_neg Bool.false_ne_true] at hstate
          obtain hstate | hstate := hstate <;> simp only [stateRank, hstate]
    rw [rank, rank, callerRank_congr (he.caller.trans hcaller), ahead_congr (he.pending.trans hpending), hstateRank]
    simp only [stateRank, hs, hsyncPacket, if_true]
    omega
  have hquiet : m.rxTimeout ≠ 1 → rank cfg i { m with rxTimeout := m.rxTimeout - 1 } < rank cfg i m := by
    intro hne
    have hcaller : callerRank cfg { m with rxTimeout := m.rxTimeout - 1 } = callerRank cfg m := rfl
    have hahead : ahead { m with rxTimeout := m.rxTimeout - 1 } i = ahead m i := rfl
    rw [rank, rank, hcaller, hahead]
    simp only [stateRank, hs]
    omega
  rw [Machine.awaitReply]
  cases r with
  | slot j =>
      have hreplies := (ha.slot j hp).1
      split
      · exact hasync m (endedAsync_timedOut hr.1.1 hreplies) rfl rfl hr.2.1
      · next hne =>
          dsimp only
          split
          · exact hasync { m with rxTimeout := m.rxTimeout - 1 } (endedAsync_gotBytes hr.1.1 hreplies) rfl rfl hr.2.1
          · exact hquiet hne
  | sync =>
      split
      · exact hsync m (endedSync_timedOut hr.1.1) rfl rfl rfl hp
      · next hne =>
          dsimp only
          split
          · exact hsync { m with rxTimeout := m.rxTimeout - 1 } (endedSync_gotBytes hr.1.1) rfl rfl rfl hp
          · exact hquiet hne

theorem Inv.elapse (h : Inv m l) (ms : ℕ) : Inv (m.elapse ms) l := ⟨h.toBase.congr rfl rfl rfl rfl rfl rfl rfl, h.stage⟩

theorem Answers.elapse (ha : Answers m) (ms : ℕ) : Answers (m.elapse ms) :=
  ha.congr rfl rfl rfl rfl (fun _ hi => hi) rfl rfl rfl rfl (fun hs => hs) ha.timed

theorem rank_congr (hstate : stateRank cfg m' = stateRank cfg m) (hcaller : m'.caller = m.caller)
    (hpending : m'.pending = m.pending) : rank cfg i m' = rank cfg i m := by
  rw [rank, rank, hstate, callerRank_congr hcaller, ahead_congr hpending]

/-- `modbus_poll`, a millisecond later: something goes on, or the blocking call has to. -/
theorem rank_poll (cfg : Config) (ha : Answers m) (h : Inv m l) (hi : i ∈ (live m).map Prod.fst) :
    rank cfg i ((m.elapse 1).poll cfg true) < rank cfg i m ∨
      (m.elapse 1).poll cfg true = m.elapse 1 ∧ (m.state = .retry ∨ m.state = .exception ∨ m.state = .gotReply ∨
        m.state = .idle ∧ m.caller ≠ none) ∨
      (m.elapse 1).poll cfg true = (m.elapse 1).keepSilence cfg 0 ∧ m.state = .timeoutException := by
  have hstage := h.stage
  cases hs : m.state with
  | idle =>
      rw [hs] at hstage
      obtain ⟨hp, -, hnot⟩ := hstage
      by_cases hcond : m.tail ≠ m.head ∧ m.packet = none ∧ m.isBlocking = false
      · left
        obtain ⟨hne, -, hblocking⟩ := hcond
        have hcaller : m.caller = none := h.caller_eq_none (by simp [hblocking])
        have hpop : m.pending = m.queue m.tail :: contents top m.queue (ringNext top m.tail) m.head :=
          contents_pop h.tail_lt h.head_lt hne
        have hpoll : (m.elapse 1).poll cfg true =
            { (m.elapse 1).txMessage cfg (.slot m.tail) with tail := ringNext top m.tail } := by
          have hs' : (m.elapse 1).state = .idle := hs
          rw [Machine.poll]
          simp only [hs']
          exact if_pos ⟨hne, hp, hblocking⟩
        have hahead : ahead ((m.elapse 1).poll cfg true) i + 1 = ahead m i := by
          refine ahead_pop (a := (m.queue m.tail).msg.id) ?_ rfl (pendingIds_nodup ha) (mem_pendingIds_of_idle hp hcaller hi)
          rw [pendingIds, hpop, hpoll]
          rfl
        have hcallerRank : callerRank cfg ((m.elapse 1).poll cfg true) = callerRank cfg m := by
          rw [hpoll]
          rfl
        have hstateRank : stateRank cfg ((m.elapse 1).poll cfg true) = cfg.rxTimeout + 3 + ticks := by
          rw [hpoll]
          simp [stateRank, Machine.txMessage, Machine.emit]
        have hidle : stateRank cfg m = 0 := by simp only [stateRank, hs]
        rw [rank, rank, hcallerRank, hstateRank, hidle, ← hahead, Nat.mul_succ]
        omega
      · right; left
        have hpoll : (m.elapse 1).poll cfg true = m.elapse 1 := by
          have hs' : (m.elapse 1).state = .idle := hs
          rw [Machine.poll]
          simp only [hs']
          exact if_neg hcond
        refine ⟨hpoll, .inr (.inr (.inr ⟨rfl, fun hcaller => ?_⟩))⟩
        have hmem := mem_pendingIds_of_idle hp hcaller hi
        have heq : m.tail = m.head := by
          by_contra hne
          refine hcond ⟨hne, hp, ?_⟩
          rw [h.blocking, hcaller]
          rfl
        rw [pendingIds, Machine.pending, heq, contents_self] at hmem
        cases hmem
  | silent =>
      left
      have hs' : (m.elapse 1).state = .silent := hs
      have hleft := silenceLeft_elapse m
      have hsilent : stateRank cfg m = m.silenceLeft + 1 := by simp only [stateRank, hs]
      have hpoll : (m.elapse 1).poll cfg true =
          if (m.elapse 1).silenceOver then { m.elapse 1 with silenceUntil := 0, state := .idle } else m.elapse 1 := by
        rw [Machine.poll]
        simp only [hs']
      rw [hpoll]
      split
      · have hcaller : callerRank cfg { m.elapse 1 with silenceUntil := 0, state := .idle } = callerRank cfg m := rfl
        have hahead : ahead { m.elapse 1 with silenceUntil := 0, state := .idle } i = ahead m i := rfl
        have hidle : stateRank cfg { m.elapse 1 with silenceUntil := 0, state := .idle } = 0 := rfl
        rw [rank, rank, hcaller, hahead, hidle, hsilent]
        omega
      · next hover =>
          have hcaller : callerRank cfg (m.elapse 1) = callerRank cfg m := rfl
          have hahead : ahead (m.elapse 1) i = ahead m i := rfl
          have hwait : stateRank cfg (m.elapse 1) = (m.elapse 1).silenceLeft + 1 := by simp only [stateRank, hs']
          rw [silenceOver_eq, decide_eq_true_iff] at hover
          rw [rank, rank, hcaller, hahead, hwait, hsilent]
          split at hleft <;> omega
  | tx =>
      left
      have hs' : (m.elapse 1).state = .tx := hs
      rw [Machine.poll]
      simp only [hs', if_true]
      have hcaller : callerRank cfg { m.elapse 1 with rx := [], state := .awaitReply } = callerRank cfg m := rfl
      have hahead : ahead { m.elapse 1 with rx := [], state := .awaitReply } i = ahead m i := rfl
      rw [rank, rank, hcaller, hahead]
      simp only [stateRank, hs, Machine.elapse]
      omega
  | awaitReply =>
      left
      rw [hs] at hstage
      obtain ⟨r, hp, -, hr⟩ := hstage
      have hs' : (m.elapse 1).state = .awaitReply := hs
      have hp' : (m.elapse 1).packet = some r := hp
      have hpoll : (m.elapse 1).poll cfg true = (m.elapse 1).awaitReply cfg r := by
        rw [Machine.poll]
        simp only [hs', hp']
      have hrank : rank cfg i (m.elapse 1) = rank cfg i m := by
        refine rank_congr ?_ rfl rfl
        simp only [stateRank, hs, Machine.elapse]
      rw [hpoll, ← hrank]
      exact rank_awaitReply (ha.elapse 1) (h.elapse 1) hs' hp'
  | timeoutException =>
      right; right
      rw [hs] at hstage
      obtain ⟨hp, -, -, hsync, -⟩ := hstage
      have hasync : (m.elapse 1).syncMsg.async = false := hsync.1
      have hs' : (m.elapse 1).state = .timeoutException := hs
      have hp' : (m.elapse 1).packet = some .sync := hp
      refine ⟨?_, rfl⟩
      rw [Machine.poll]
      simp only [hs', hp', Machine.entry, hasync, Bool.false_eq_true, if_false, Machine.keepSilence]
  | gotReply | exception | retry =>
      right; left
      refine ⟨?_, by simp⟩
      have hs' : (m.elapse 1).state = _ := hs
      rw [Machine.poll]
      simp only [hs']

theorem rank_transmitSync (cfg : Config) (i : ℕ) (m : Machine) (e : Entry) (hcaller : callerRank cfg m = 0) :
    rank cfg i (m.transmitSync cfg e) = cfg.rxTimeout + 3 + 2 * ticks + retryRank cfg e.callbacks.retries +
      (cfg.rxTimeout + 4 + ticks) * ahead m i := by
  have hcallerRank : callerRank cfg (m.transmitSync cfg e) = 0 := hcaller
  have hahead : ahead (m.transmitSync cfg e) i = ahead m i := rfl
  have hstate : stateRank cfg (m.transmitSync cfg e) =
      cfg.rxTimeout + 3 + ticks + (ticks + retryRank cfg e.callbacks.retries) := by
    simp [stateRank, Machine.transmitSync, Machine.txMessage, Machine.emit]
  rw [rank, hcallerRank, hahead, hstate]
  omega

theorem retryRank_pred (cfg : Config) {left : ℕ} (h : left ≠ 0) :
    retryRank cfg left = retryRank cfg (left - 1) + (cfg.rxTimeout + 4 * ticks) := by
  obtain ⟨n, rfl⟩ := Nat.exists_eq_succ_of_ne_zero h
  rw [retryRank, retryRank, Nat.succ_mul]
  rfl

/-- A turn of a blocking call: nothing happens, or something goes on. -/
theorem rank_resume (cfg : Config) (i : ℕ) (ha : Answers m) (h : Inv m l) :
    m.resume cfg = m ∧ (m.caller = none ∨ m.state = .silent ∨ m.state = .tx ∨ m.state = .awaitReply ∨
        m.state = .retry ∧ m.silenceOver = false) ∨
      rank cfg i (m.resume cfg) < rank cfg i m ∧
        (m.state = .retry → rank cfg i (m.resume cfg) + m.silenceLeft + 1 ≤ rank cfg i m) := by
  have hstage := h.stage
  have hticks : 4 ≤ ticks := by
    unfold ticks
    omega
  cases hc : m.caller with
  | none =>
      left
      refine ⟨?_, .inl rfl⟩
      rw [Machine.resume, hc]
  | some c =>
      have hfinish : ∀ (m' : Machine) (result : Bool), m'.pending = m.pending → 2 * ticks ≤ stateRank cfg m →
          rank cfg i (m'.finish c result) < rank cfg i m := by
        intro m' result hpending hstate
        have hcallerRank : callerRank cfg (m'.finish c result) = 0 := rfl
        have hahead : ahead (m'.finish c result) i = ahead m i := ahead_congr hpending
        have hstateRank : stateRank cfg (m'.finish c result) ≤ ticks := by
          have hlt := silenceLeft_lt (m'.finish c result)
          by_cases hsilence : m'.silenceUntil > 0
          · have hs' : (m'.finish c result).state = .silent := if_pos hsilence
            simp only [stateRank, hs']
            omega
          · have hs' : (m'.finish c result).state = .idle := if_neg hsilence
            simp only [stateRank, hs']
            omega
        rw [rank, rank, hcallerRank, hahead]
        omega
      have hwaiting : m.NotInLoop → m.resume cfg = m.awaitIdle cfg c := by
        intro hnot
        rw [Machine.resume]
        simp only [hc, hnot c hc, if_true]
      have hattend : ∀ r, m.packet = some r → c.waiting = false → m.resume cfg = m.attend cfg c r := by
        intro r hp hw
        rw [Machine.resume]
        simp only [hc, hw, hp, Bool.false_eq_true, if_false]
      have hloop : m.InLoop → c.waiting = false := by
        rintro ⟨c', hc', hw⟩
        cases hc.symm.trans hc'
        exact hw
      have hbusy : m.state = .tx ∨ m.state = .awaitReply → m.resume cfg = m := by
        intro hs
        rw [Machine.resume]
        simp only [hc]
        split
        · rw [Machine.awaitIdle, if_neg]
          rintro hidle
          rw [hidle] at hs
          simp at hs
        · split
          · next hp =>
              obtain hs | hs := hs <;> rw [hs] at hstage <;> obtain ⟨r, hp', -⟩ := hstage <;> cases hp.symm.trans hp'
          · rw [Machine.attend]
            obtain hs | hs := hs <;> simp only [hs]
      have herror : ∀ (k : Kind) (code : ℕ), m.packet = some .sync → c.waiting = false →
          m.state = .timeoutException ∨ m.state = .exception →
          (m.syncMsg.callbacks.retries ≠ 0 → m.syncMsg.callbacks.hook k = some .retry) →
          rank cfg i ((m.call cfg .sync k code).finishUnlessRetry c .sync) < rank cfg i m := by
        intro k code hp hw hs hretry
        have hstateRank : stateRank cfg m = 2 * ticks + retryRank cfg m.syncMsg.callbacks.retries := by
          obtain hs | hs := hs <;> simp only [stateRank, hs]
        by_cases hretries : m.syncMsg.callbacks.retries = 0
        · obtain ⟨-, -, hlast⟩ := (ha.caller c hc).2 hw
          obtain ⟨f, hf⟩ := hlast hretries k
          have hcall : m.call cfg .sync k code = m.emit (.called k f code m.syncMsg.msg) := by
            simp only [Machine.call, Machine.entry, hf]
          rw [hcall, Machine.finishUnlessRetry]
          split
          · exact hfinish _ false rfl (by omega)
          · next hne => exact absurd hretries hne
        · rw [call_retry hp hretries (hretry hretries), Machine.finishUnlessRetry]
          split
          · next heq => exact absurd heq hretries
          · have hpred := retryRank_pred cfg hretries
            generalize hm : ({ m.keepSilence cfg (m.entry .sync).callbacks.retryDelay with state := .retry } : Machine) = m'
            have hlt := silenceLeft_lt m'
            have hretryRank : stateRank cfg m' = m'.silenceLeft + 1 + (cfg.rxTimeout + 3 + 2 * ticks) +
                retryRank cfg (m.syncMsg.callbacks.retries - 1) := by
              rw [← hm]
              rfl
            have hcallerRank : callerRank cfg m' = callerRank cfg m := by
              rw [← hm]
              rfl
            have hahead : ahead m' i = ahead m i := by
              rw [← hm]
              rfl
            rw [rank, rank, hcallerRank, hahead, hretryRank, hstateRank, hpred]
            omega
      cases hs : m.state with
      | idle =>
          right
          rw [hs] at hstage
          refine ⟨?_, (by rintro ⟨⟩)⟩
          obtain ⟨-, hleft⟩ := ha.firstEntry hc
          rw [hwaiting hstage.2.2, Machine.awaitIdle, if_pos hs]
          generalize addMessage c.msg false (c.callbacks.map Callbacks.ofUser) = e at hleft ⊢
          have hsent := rank_transmitSync cfg i { m with caller := some { c with waiting := false } } e rfl
          have hahead : ahead { m with caller := some { c with waiting := false } } i = ahead m i := rfl
          have hidle : stateRank cfg m = 0 := by simp only [stateRank, hs]
          have hcallerRank : callerRank cfg m = cfg.rxTimeout + 4 + 2 * ticks + retryRank cfg c.retries := by
            simp only [callerRank, hc, hstage.2.2 c hc, if_true]
          rw [hsent, hahead, hleft, rank, hidle, hcallerRank]
          omega
      | silent =>
          left
          rw [hs] at hstage
          rw [hwaiting hstage.2.2, Machine.awaitIdle, if_neg (by rw [hs]; rintro ⟨⟩)]
          exact ⟨rfl, by simp⟩
      | tx => exact .inl ⟨hbusy (.inl hs), by simp⟩
      | awaitReply => exact .inl ⟨hbusy (.inr hs), by simp⟩
      | timeoutException =>
          right
          rw [hs] at hstage
          obtain ⟨hp, -, hl, hsync, -⟩ := hstage
          refine ⟨?_, (by rintro ⟨⟩)⟩
          rw [hattend .sync hp (hloop hl)]
          simp only [Machine.attend, hs]
          exact herror .timeout _ hp (hloop hl) (.inl hs) fun hretries => (hsync.2.2 hretries).2
      | exception =>
          right
          rw [hs] at hstage
          obtain ⟨hp, -, hl, hsync, -⟩ := hstage
          refine ⟨?_, (by rintro ⟨⟩)⟩
          rw [hattend .sync hp (hloop hl)]
          simp only [Machine.attend, hs]
          exact herror .exception _ hp (hloop hl) (.inr hs) fun hretries => (hsync.2.2 hretries).1
      | gotReply =>
          right
          rw [hs] at hstage
          obtain ⟨hp, -, hl, -⟩ := hstage
          obtain ⟨-, ⟨f, hf⟩, -⟩ := (ha.caller c hc).2 (hloop hl)
          have hcall : m.call cfg .sync .packet 0 = m.emit (.called .packet f 0 m.syncMsg.msg) := by
            have hhook : m.syncMsg.callbacks.hook .packet = some (.user f) := hf
            simp only [Machine.call, Machine.entry, hhook]
          refine ⟨?_, (by rintro ⟨⟩)⟩
          rw [hattend .sync hp (hloop hl)]
          simp only [Machine.attend, hs, hcall]
          refine hfinish _ true rfl ?_
          simp only [stateRank, hs]
          omega
      | retry =>
          rw [hs] at hstage
          obtain ⟨hp, -, hl, -⟩ := hstage
          rw [hattend .sync hp (hloop hl)]
          cases hover : m.silenceOver with
          | false =>
              left
              refine ⟨?_, by simp⟩
              rw [Machine.attend]
              simp only [hs, hover, Bool.false_eq_true, if_false]
          | true =>
              right
              obtain ⟨e, heq, -, -, hleft⟩ := ha.retransmit_eq cfg hc (hloop hl)
              have hattend' : m.attend cfg c .sync = { m with silenceUntil := 0 }.transmitSync cfg e := by
                rw [← heq, Machine.attend]
                simp only [hs, hover, if_true]
              have hcallerRank : callerRank cfg { m with silenceUntil := 0 } = 0 := by
                simp only [callerRank, hc, hloop hl, Bool.false_eq_true, if_false]
              have hsent := rank_transmitSync cfg i { m with silenceUntil := 0 } e hcallerRank
              have hahead : ahead { m with silenceUntil := 0 } i = ahead m i := rfl
              have hrank : stateRank cfg m = m.silenceLeft + 1 + (cfg.rxTimeout + 3 + 2 * ticks) +
                  retryRank cfg (m.syncMsg.callbacks.retries - 1) := by simp only [stateRank, hs]
              rw [hattend', hsent, hahead, hleft, rank, hrank]
              exact ⟨by omega, fun _ => by omega⟩

end

/-! ## Rounds -/

/-- Bytes arrive, or a request is made that does not block. -/
def Action.Quiet : Action → Prop
  | .receive _ => True
  | .send _ _ block blockingEvent => (block && !blockingEvent) = false
  | .poll _ _ | .resume _ | .flush => False

/-- What happens in a millisecond besides `modbus_poll` and the turn of a blocking call. -/
structure Round where
  before : List Action
  between : List Action
  quiet_before : ∀ a ∈ before, a.Quiet
  quiet_between : ∀ a ∈ between, a.Quiet

def Round.actions (rd : Round) : List Action := rd.before ++ Action.poll 1 true :: (rd.between ++ [Action.resume 0])

/-- Only requests have been added. -/
structure Kept (m m' : Machine) : Prop where
  state : m'.state = m.state
  caller : m'.caller = m.caller
  packet : m'.packet = m.packet
  syncMsg : m'.syncMsg = m.syncMsg
  rxTimeout : m'.rxTimeout = m.rxTimeout
  silenceUntil : m'.silenceUntil = m.silenceUntil
  now : m'.now = m.now
  pending : ∃ es, m'.pending = m.pending ++ es ∧ ∀ e ∈ es, m.calls ≤ e.msg.id
  calls : m.calls ≤ m'.calls

section
variable {cfg : Config} {m m' m'' : Machine} {l : Line} {i : ℕ} {a : Action}

theorem Kept.refl (m : Machine) : Kept m m := ⟨rfl, rfl, rfl, rfl, rfl, rfl, rfl, ⟨[], (List.append_nil _).symm, nofun⟩, le_rfl⟩

theorem Kept.trans (h : Kept m m') (h' : Kept m' m'') : Kept m m'' := by
  obtain ⟨es, hes, hid⟩ := h.pending
  obtain ⟨es', hes', hid'⟩ := h'.pending
  exact
    { state := h'.state.trans h.state
      caller := h'.caller.trans h.caller
      packet := h'.packet.trans h.packet
      syncMsg := h'.syncMsg.trans h.syncMsg
      rxTimeout := h'.rxTimeout.trans h.rxTimeout
      silenceUntil := h'.silenceUntil.trans h.silenceUntil
      now := h'.now.trans h.now
      pending := ⟨es ++ es', by rw [hes', hes, List.append_assoc], fun e he =>
        (List.mem_append.1 he).elim (hid e) fun he => h.calls.trans (hid' e he)⟩
      calls := h.calls.trans h'.calls }

theorem Kept.silenceLeft (h : Kept m m') : m'.silenceLeft = m.silenceLeft := by
  rw [Machine.silenceLeft, h.silenceUntil, h.now, Machine.silenceLeft]

theorem Kept.rank (h : Kept m m') (hi : i < m.calls) : rank cfg i m' = rank cfg i m := by
  have hstate : stateRank cfg m' = stateRank cfg m := by
    simp only [stateRank, h.state, h.packet, h.syncMsg, h.rxTimeout, h.silenceLeft]
  have hahead : ahead m' i = ahead m i := by
    obtain ⟨es, hes, hid⟩ := h.pending
    have hids : pendingIds m' = pendingIds m ++ es.map fun e => e.msg.id := by
      rw [pendingIds, hes, List.map_append]
      rfl
    have hnot : i ∉ es.map fun e => e.msg.id := by
      intro hmem
      obtain ⟨e, he, rfl⟩ := List.mem_map.1 hmem
      exact absurd (hid e he) (by omega)
    rw [ahead, ahead, hids]
    by_cases hmem : i ∈ pendingIds m
    · rw [if_pos hmem, if_pos (List.mem_append_left _ hmem), List.idxOf_append_of_mem hmem]
    · rw [if_neg hmem, if_neg (by rw [List.mem_append]; tauto)]
  rw [Modbus.rank, Modbus.rank, hstate, callerRank_congr h.caller, hahead]

theorem kept_sendIllegal (m : Machine) (msg : Message) (callbacks : Option (Callbacks ℕ)) :
    Kept m (m.sendIllegal msg callbacks) := by
  have hnone : m.pending = m.pending ++ [] := (List.append_nil _).symm
  simp only [Machine.sendIllegal]
  split
  · exact ⟨rfl, rfl, rfl, rfl, rfl, rfl, rfl, ⟨[], hnone, (by rintro _ ⟨⟩)⟩, le_rfl⟩
  · split <;> exact ⟨rfl, rfl, rfl, rfl, rfl, rfl, rfl, ⟨[], hnone, (by rintro _ ⟨⟩)⟩, le_rfl⟩

theorem kept_sendAsync (h : Inv m l) {msg : Message} (callbacks : Option (Callbacks ℕ)) (fault : Bool)
    (hid : msg.id = m.calls) : Kept m ({ m with calls := m.calls + 1, fault := fault }.sendAsync msg callbacks) := by
  have hnone : m.pending = m.pending ++ [] := (List.append_nil _).symm
  rw [Machine.sendAsync]
  split
  · next hcond =>
      refine ⟨rfl, rfl, rfl, rfl, rfl, rfl, rfl,
        ⟨[addMessage msg true (callbacks.map Callbacks.ofUser)], contents_push h.tail_lt h.head_lt hcond.2 _, ?_⟩,
        Nat.le_succ _⟩
      intro e he
      rw [List.mem_singleton.1 he, addMessage_msg, hid]
  · exact ⟨rfl, rfl, rfl, rfl, rfl, rfl, rfl, ⟨[], hnone, (by rintro _ ⟨⟩)⟩, Nat.le_succ _⟩

theorem kept_exec (h : Inv m l) (hquiet : a.Quiet) : Kept m (m.exec cfg a) := by
  have hnone : m.pending = m.pending ++ [] := (List.append_nil _).symm
  cases a with
  | poll ms sent => exact hquiet.elim
  | resume ms => exact hquiet.elim
  | flush => exact hquiet.elim
  | receive bytes => exact ⟨rfl, rfl, rfl, rfl, rfl, rfl, rfl, ⟨[], hnone, nofun⟩, le_rfl⟩
  | send msg callbacks block blockingEvent =>
      simp only [Machine.exec, Machine.sendRtu]
      split
      · have hkept : Kept m { m with calls := m.calls + 1 } :=
          ⟨rfl, rfl, rfl, rfl, rfl, rfl, rfl, ⟨[], hnone, nofun⟩, Nat.le_succ _⟩
        exact hkept.trans (kept_sendIllegal _ _ _)
      · split
        · next hblock => exact absurd hquiet (by simpa [Action.Quiet] using hblock)
        · exact kept_sendAsync h callbacks _ rfl

theorem kept_run (as : List Action) : ∀ (m m' : Machine) (l : Line), Inv m l → Answers m → (∀ a ∈ as, a.Quiet) →
    Along (step cfg) (fun m a => a.Answerable m) m as → run (step cfg) m as = some m' → Kept m m' := by
  induction as with
  | nil =>
      intro m m' _ _ _ _ _ hrun
      cases hrun
      exact Kept.refl m
  | cons a as ih =>
      intro m m' l h ha hquiet hsafe hrun
      obtain ⟨t, ht, hrun⟩ := run_cons_eq_some.1 hrun
      cases ht
      obtain ⟨l', h'⟩ : ∃ l', Inv (m.exec cfg a) l' := h.exec (hsafe.1.safe ha)
      exact (kept_exec h (hquiet a (List.mem_cons_self ..))).trans
        (ih _ _ l' h' (ha.exec h hsafe.1) (fun b hb => hquiet b (List.mem_cons_of_mem _ hb)) (hsafe.2 _ rfl) hrun)

theorem rank_elapse_retry (cfg : Config) (i : ℕ) (hs : m.state = .retry) :
    rank cfg i (m.elapse 1) + m.silenceLeft = rank cfg i m + (m.elapse 1).silenceLeft := by
  have hcaller : callerRank cfg (m.elapse 1) = callerRank cfg m := rfl
  have hahead : ahead (m.elapse 1) i = ahead m i := rfl
  have hs' : (m.elapse 1).state = .retry := hs
  have hmsg : (m.elapse 1).syncMsg = m.syncMsg := rfl
  rw [rank, rank, hcaller, hahead]
  simp only [stateRank, hs, hs', hmsg]
  omega

theorem caller_ne_none (h : Inv m l) (hs : m.state = .exception ∨ m.state = .gotReply ∨ m.state = .timeoutException) :
    m.caller ≠ none := by
  have hstage := h.stage
  obtain hs | hs | hs := hs <;> rw [hs] at hstage <;> obtain ⟨-, -, ⟨c, hc, -⟩, -⟩ := hstage <;> rw [hc] <;> exact nofun

theorem over_false_of_retry (h : Inv m l) (hs : m.state = .retry)
    (hwhy : m.caller = none ∨ m.state = .silent ∨ m.state = .tx ∨ m.state = .awaitReply ∨
      m.state = .retry ∧ m.silenceOver = false) : m.silenceOver = false := by
  have hstage := h.stage
  rw [hs] at hstage
  obtain ⟨-, -, ⟨c, hc, -⟩, -⟩ := hstage
  simpa [hs, hc] using hwhy

theorem rank_round {rd : Round} (h : Inv m l) (ha : Answers m)
    (hsafe : Along (step cfg) (fun m a => a.Answerable m) m rd.actions) (hrun : run (step cfg) m rd.actions = some m')
    (hi : i < m.calls) (hnot : ¬ (phases m'.log i).Settled) : rank cfg i m' < rank cfg i m := by
  rw [Round.actions, along_append] at hsafe
  rw [Round.actions, run_append, Option.bind_eq_some_iff] at hrun
  obtain ⟨m₁, hbefore, hrun⟩ := hrun
  obtain ⟨hsafeBefore, hsafe⟩ := hsafe
  obtain ⟨-, hsafe⟩ := hsafe m₁ hbefore
  obtain ⟨m₂, hpoll, hrun⟩ := run_cons_eq_some.1 hrun
  have hsafe := hsafe m₂ hpoll
  cases hpoll
  obtain ⟨m₃, hbetween, hresume⟩ := run_concat_eq_some.1 hrun
  cases hresume
  rw [along_append] at hsafe
  obtain ⟨hsafeBetween, -⟩ := hsafe
  -- The machine before and after `modbus_poll`, and before the turn of the blocking call.
  obtain ⟨ha₁, l₁, h₁⟩ := answers_of_answerable h ha hsafeBefore hbefore
  have hkept₁ := kept_run rd.before m m₁ l h ha rd.quiet_before hsafeBefore hbefore
  have hi₁ : i < m₁.calls := hi.trans_le hkept₁.calls
  have ha₂ : Answers (m₁.exec cfg (.poll 1 true)) := ha₁.exec h₁ trivial
  obtain ⟨l₂, h₂⟩ : ∃ l₂, Inv (m₁.exec cfg (.poll 1 true)) l₂ := h₁.exec trivial
  obtain ⟨ha₃, l₃, h₃⟩ := answers_of_answerable h₂ ha₂ hsafeBetween hbetween
  have hkept₃ := kept_run rd.between _ m₃ l₂ h₂ ha₂ rd.quiet_between hsafeBetween hbetween
  have ha₄ : Answers (m₃.exec cfg (.resume 0)) := ha₃.exec h₃ trivial
  obtain ⟨l₄, h₄⟩ : ∃ l₄, Inv (m₃.exec cfg (.resume 0)) l₄ := h₃.exec trivial
  have hext : m₁.log <+: (m₃.exec cfg (.resume 0)).log :=
    ((log_prefix_exec m₁ _).trans (log_prefix_run hbetween)).trans (log_prefix_exec m₃ _)
  have hi₂ := lt_calls_of_extends ha₁ h₁ ha₂ (log_prefix_exec m₁ _) hi₁
  have hlive : i ∈ (live m₁).map Prod.fst := by
    by_contra hlive
    have hi₄ := lt_calls_of_extends ha₁ h₁ ha₄ hext hi₁
    exact hnot (settled_of_extends hext (ha₁.ledger.settled i hi₁ hlive) (phases_ne ha₄ h₄ hi₄).1)
  have hrank₁ : rank cfg i m₁ = rank cfg i m := hkept₁.rank hi
  have hrank₃ : rank cfg i m₃ = rank cfg i ((m₁.elapse 1).poll cfg true) := hkept₃.rank hi₂
  have hresume := rank_resume cfg i ha₃ h₃
  change rank cfg i (m₃.resume cfg) < rank cfg i m
  obtain hpoll | ⟨hpoll, hstate⟩ | ⟨hpoll, hstate⟩ := rank_poll cfg ha₁ h₁ hlive
  · have hle : rank cfg i (m₃.resume cfg) ≤ rank cfg i m₃ := by
      obtain ⟨hsame, -⟩ | ⟨hlt, -⟩ := hresume
      · rw [hsame]
      · exact hlt.le
    omega
  · have hkept : Kept (m₁.elapse 1) m₃ := hpoll ▸ hkept₃
    have hcaller₃ : m₃.caller = m₁.caller := hkept.caller
    have hstate₃ : m₃.state = m₁.state := hkept.state
    rw [hpoll] at hrank₃
    obtain hs | hs := hstate
    · -- The silence before a retry is shorter by a millisecond.
      have hrank := rank_elapse_retry cfg i hs
      have hleft := silenceLeft_elapse m₁
      have hleft₃ : m₃.silenceLeft = (m₁.elapse 1).silenceLeft := hkept.silenceLeft
      obtain ⟨hsame, hwhy⟩ | ⟨-, hretry⟩ := hresume
      · have hover := over_false_of_retry h₃ (hstate₃.trans hs) hwhy
        rw [silenceOver_eq, decide_eq_false_iff_not, hleft₃] at hover
        rw [hsame]
        split at hleft <;> omega
      · have hnear := hretry (hstate₃.trans hs)
        omega
    · have hrank : rank cfg i (m₁.elapse 1) = rank cfg i m₁ := by
        refine rank_congr ?_ rfl rfl
        obtain hs | hs | ⟨hs, -⟩ := hs <;> simp only [stateRank, hs, Machine.elapse]
      obtain ⟨-, hwhy⟩ | ⟨hlt, -⟩ := hresume
      · rw [hstate₃, hcaller₃] at hwhy
        obtain hs | hs | ⟨hs, hcaller⟩ := hs
        · exact absurd hwhy (by simp [hs, caller_ne_none h₁ (.inl hs)])
        · exact absurd hwhy (by simp [hs, caller_ne_none h₁ (.inr (.inl hs))])
        · exact absurd hwhy (by simp [hs, hcaller])
      · omega
  · have hkept : Kept ((m₁.elapse 1).keepSilence cfg 0) m₃ := hpoll ▸ hkept₃
    have hcaller₃ : m₃.caller = m₁.caller := hkept.caller
    have hstate₃ : m₃.state = m₁.state := hkept.state
    have hrank : rank cfg i ((m₁.elapse 1).keepSilence cfg 0) = rank cfg i m₁ := by
      refine rank_congr ?_ rfl rfl
      simp only [stateRank, hstate, Machine.elapse, Machine.keepSilence]
    rw [hpoll] at hrank₃
    obtain ⟨-, hwhy⟩ | ⟨hlt, -⟩ := hresume
    · rw [hstate₃, hcaller₃] at hwhy
      exact absurd hwhy (by simp [hstate, caller_ne_none h₁ (.inr (.inr hstate))])
    · omega

theorem settled_of_rounds (rds : List Round) : ∀ (m m' : Machine) (l : Line), Inv m l → Answers m →
    Along (step cfg) (fun m a => a.Answerable m) m (rds.flatMap Round.actions) →
    run (step cfg) m (rds.flatMap Round.actions) = some m' → i < m.calls → rank cfg i m < rds.length →
    (phases m'.log i).Settled := by
  induction rds with
  | nil =>
      intro m m' _ _ _ _ _ _ hrank
      exact absurd hrank (Nat.not_lt_zero _)
  | cons rd rds ih =>
      intro m m' l h ha hsafe hrun hi hrank
      rw [List.flatMap_cons, run_append, Option.bind_eq_some_iff] at hrun
      rw [List.flatMap_cons, along_append] at hsafe
      obtain ⟨t, ht, hrun⟩ := hrun
      obtain ⟨ha', l', h'⟩ := answers_of_answerable h ha hsafe.1 ht
      have hi' := lt_calls_of_extends ha h ha' (log_prefix_run ht) hi
      by_cases hsettled : (phases t.log i).Settled
      · obtain ⟨ha'', l'', h''⟩ := answers_of_answerable h' ha' (hsafe.2 t ht) hrun
        have hi'' := lt_calls_of_extends ha' h' ha'' (log_prefix_run hrun) hi'
        exact settled_of_extends (log_prefix_run hrun) hsettled (phases_ne ha'' h'' hi'').1
      · have hnear := rank_round h ha hsafe.1 ht hi hsettled
        rw [List.length_cons] at hrank
        exact ih t m' l' h' ha' (hsafe.2 t ht) hrun hi' (by omega)

end

/-! ## Every run -/

/-- The call has returned `true`, or blocks until the request is done with. -/
def Accepted (h : List Event) : Prop := Returned h true ∨ ∃ id n, .blocked id n ∈ h

/-- An accepted request has had its callback; one that is not is reported by `false` or by a callback. -/
def Reported (h : List Event) : Prop :=
  h.countP Event.isCallback = 1 ∨ ¬ Accepted h ∧ Returned h false

/-- What holds of a request, now and when there have been enough rounds. -/
structure Answered (cfg : Config) (m : Machine) (i : ℕ) : Prop where
  once : (history m.log i).countP Event.isCallback ≤ 1
  attempts : ∀ n, .blocked i n ∈ m.log → (history m.log i).countP Event.isTransmission ≤ n + 1
  last : ∀ front rest e, history m.log i = front ++ Event.ended e true :: rest → ∀ e ∈ rest, e.isTransmission = false
  result : ∀ n b, .blocked i n ∈ m.log → .returned i b ∈ m.log → (b = true ↔ Replied (history m.log i))
  eventually : ∃ n, ∀ rds : List Round, n ≤ rds.length →
    Along (step cfg) (fun m a => a.Answerable m) m (rds.flatMap Round.actions) →
    ∀ m', run (step cfg) m (rds.flatMap Round.actions) = some m' → Reported (history m'.log i)

section
variable {cfg : Config} {m m' : Machine} {l : Line} {i : ℕ}

theorem Phase.next_eq_done_none {p : Phase} {e : Event} (h : p.next e = .done none) :
    p = .unknown ∧ ∃ id, e = .returned id false := by
  cases p with
  | unknown =>
      cases e with
      | returned id result =>
          cases result with
          | false => exact ⟨rfl, id, rfl⟩
          | true => cases h
      | _ => cases h
  | onLine left =>
      cases e with
      | ended e good => cases good <;> cases h
      | _ => cases h
  | failed left =>
      cases left <;> cases e with
      | called k f code msg => cases k <;> cases h
      | _ => cases h
  | ended good =>
      cases e with
      | called k f code msg =>
          rw [Phase.next] at h
          split at h <;> cases h
      | _ => cases h
  | replied =>
      cases e with
      | called k f code msg => cases k <;> cases h
      | _ => cases h
  | reported k =>
      cases e with
      | returned id result =>
          rw [Phase.next] at h
          split at h <;> cases h
      | _ => cases h
  | accepted | illegal =>
      cases e with
      | returned id result => cases result <;> cases h
      | _ => cases h
  | pending | sent | blocked left | done k | wrong => cases e <;> cases h

theorem Phase.callbacks_le_one (p : Phase) : p.callbacks ≤ 1 := by
  unfold Phase.callbacks
  split <;> omega

theorem reported_of_settled {h : List Event} (hs : (h.foldl Phase.next .unknown).Settled) : Reported h := by
  obtain ⟨k, hk⟩ := hs
  cases k with
  | some k =>
      refine .inl ?_
      rw [callbacks_eq h (by rw [hk]; exact nofun), hk]
      rfl
  | none =>
      induction h using List.reverseRecOn with
      | nil => cases hk
      | append_singleton h e _ =>
          rw [foldl_next_concat] at hk
          obtain ⟨hunknown, id, rfl⟩ := Phase.next_eq_done_none hk
          rw [eq_nil_of_unknown h hunknown]
          refine .inr ⟨?_, id, List.mem_singleton_self _⟩
          rintro (⟨id', hmem⟩ | ⟨id', n, hmem⟩) <;> cases List.mem_singleton.1 hmem

theorem mem_history {log : List Event} {e : Event} (he : e.about = some i) : e ∈ history log i ↔ e ∈ log := by
  rw [history, List.mem_filter, decide_eq_true he, and_iff_left rfl]

theorem Answers.answered (ha : Answers m) (h : Inv m l) (hi : i < m.calls) : Answered cfg m i := by
  have hne : (history m.log i).foldl Phase.next .unknown ≠ .wrong := (phases_ne ha h hi).1
  have hcallbacks := callbacks_eq (history m.log i) hne
  have hblocking : ∀ n, .blocked i n ∈ m.log →
      ((history m.log i).foldl Phase.next .unknown).Blocking n (history m.log i) := fun n hmem =>
    blocking_history _ ((mem_history rfl).2 hmem) hne
  refine ⟨?_, ?_, ?_, ?_, rank cfg i m + 1, ?_⟩
  · rw [hcallbacks]
    exact Phase.callbacks_le_one _
  · intro n hmem
    have hphase := hblocking n hmem
    revert hphase
    generalize (history m.log i).foldl Phase.next .unknown = p
    cases p with
    | blocked left => exact fun hphase => by rw [hphase.2.1]; omega
    | onLine left | failed left => exact fun hphase => by have := hphase.1; omega
    | replied | reported k | done k => exact fun hphase => hphase.1
    | _ => exact fun hphase => hphase.elim
  · intro front rest e heq
    rw [heq] at hne
    exact no_transmission_after hne
  · intro n b hmem hreturned
    have hphase := hblocking n hmem
    have hresult : Returned (history m.log i) b := ⟨i, (mem_history rfl).2 hreturned⟩
    revert hphase
    generalize (history m.log i).foldl Phase.next .unknown = p
    cases p with
    | blocked left => exact fun hphase => absurd hresult (hphase.2.2.2 b)
    | onLine left | failed left | replied | reported k => exact fun hphase => absurd hresult (hphase.2.2 b)
    | done k =>
        intro hphase
        rw [hphase.2.2 b hresult, decide_eq_true_iff, hphase.2.1]
    | _ => exact fun hphase => hphase.elim
  · intro rds hle hsafe m' hrun
    exact reported_of_settled (settled_of_rounds rds m m' l h ha hsafe hrun hi hle)

/-- In every run in which requests have all callbacks, and those that do not block are put into the queue, every request is
answered. -/
theorem answered_of_answerable {as : List Action} (hsafe : Along (step cfg) (fun m a => a.Answerable m) {} as)
    (hrun : run (step cfg) {} as = some m) (hi : i < m.calls) : Answered cfg m i := by
  obtain ⟨ha, l, h⟩ := answers_of_answerable inv_init answers_init hsafe hrun
  exact ha.answered h hi

/-- A request waits in the queue while another blocks, which is tried twice. -/
def Example.retried : List Action :=
  [.send (Example.request 0) (some Example.callbacks) false false,
    .send (Example.request 1) (some { Example.callbacks with retries := 1 }) true false]

theorem answered_of_answerable_retried : ∃ m, run (step Example.config) {} Example.retried = some m ∧
    Answered Example.config m 0 ∧ Answered Example.config m 1 := by
  have hsafe : Along (step Example.config) (fun m a => a.Answerable m) {} Example.retried := by decide +kernel
  exact ⟨_, rfl, answered_of_answerable hsafe rfl (by decide), answered_of_answerable hsafe rfl (by decide)⟩

/-- Nothing but `modbus_poll`, or bytes before it. -/
def Example.round (bytes : List Byte) : Round where
  before := [.receive bytes]
  between := []
  quiet_before := by simp [Action.Quiet]
  quiet_between := nofun

theorem along_round (rds : List (List Byte)) : ∀ m : Machine,
    Along (step cfg) (fun m a => a.Answerable m) m ((rds.map Example.round).flatMap Round.actions) := by
  induction rds with
  | nil => exact fun m => trivial
  | cons bytes rds ih =>
      intro m
      rw [List.map_cons, List.flatMap_cons, along_append]
      refine ⟨⟨trivial, fun _ _ => ⟨trivial, fun _ _ => ⟨trivial, fun _ _ => trivial⟩⟩⟩, fun m' _ => ih m'⟩

theorem log_of_idle (cfg : Config) (n : ℕ) : ∀ m : Machine, m.state = .idle → m.tail = m.head → m.caller = none →
    ∃ m', run (step cfg) m (((List.replicate n []).map Example.round).flatMap Round.actions) = some m' ∧ m'.log = m.log := by
  induction n with
  | zero => exact fun m _ _ _ => ⟨m, rfl, rfl⟩
  | succ n ih =>
      intro m hs hq hc
      have hpoll : ({ m with rx := m.rx ++ [] }.elapse 1).poll cfg true = { m with rx := m.rx ++ [] }.elapse 1 := by
        simp [Machine.poll, Machine.elapse, hs, hq]
      have hresume : (({ m with rx := m.rx ++ [] }.elapse 1).elapse 0).resume cfg = ({ m with rx := m.rx ++ [] }.elapse 1).elapse 0 := by
        simp [Machine.resume, Machine.elapse, hc]
      obtain ⟨m', hm', hlog⟩ := ih ((({ m with rx := m.rx ++ [] } : Machine).elapse 1).elapse 0) hs hq hc
      refine ⟨m', ?_, hlog⟩
      rw [List.replicate_succ, List.map_cons, List.flatMap_cons, run_append]
      rw [← hm', ← hresume, ← hpoll]
      rfl

/-- The queue is full: the next request is accepted, and nothing comes of it. -/
theorem full_queue_is_not_answered : ∃ m, run (step Example.config) {}
    (Example.full ++ [Action.send (Example.request 8) (some Example.callbacks) false false]) = some m ∧
      ¬ Answered Example.config m 8 := by
  have hrun : ((run (step Example.config) {}
      (Example.full ++ [Action.send (Example.request 8) (some Example.callbacks) false false] ++
        (((List.replicate 60 (List.replicate 8 0)).map Example.round).flatMap Round.actions))).map fun m =>
          (m.state, m.tail, m.head, m.caller, (history m.log 8))) =
      some (.idle, 0, 0, none, [Event.returned 8 true]) := by decide +kernel
  obtain ⟨m', hm', hvalues⟩ := Option.map_eq_some_iff.1 hrun
  simp only [Prod.mk.injEq] at hvalues
  obtain ⟨hs, htail, hhead, hcaller, hhistory⟩ := hvalues
  rw [run_append, Option.bind_eq_some_iff] at hm'
  obtain ⟨m, hm, hrounds⟩ := hm'
  refine ⟨m, hm, fun h => ?_⟩
  obtain ⟨n, hn⟩ := h.eventually
  obtain ⟨m'', hm'', hlog⟩ := log_of_idle Example.config n m' hs (htail.trans hhead.symm) hcaller
  have hle : n ≤ ((List.replicate 60 (List.replicate 8 (0 : Byte)) ++ List.replicate n []).map Example.round).length := by
    rw [List.length_map, List.length_append, List.length_replicate, List.length_replicate]
    exact Nat.le_add_left n 60
  have hreported := hn ((List.replicate 60 (List.replicate 8 (0 : Byte)) ++ List.replicate n []).map Example.round)
    hle (along_round _ m) m'' (by
      rw [List.map_append, List.flatMap_append, run_append, hrounds]
      exact hm'')
  rw [hlog, hhistory] at hreported
  obtain hcount | ⟨haccepted, -⟩ := hreported
  · cases hcount
  · exact haccepted (.inl ⟨8, List.mem_singleton_self _⟩)

end

end Grbl.Modbus
