import Xtcp.Slots

/-!
# Events

What each step does to the event queues.  A callback queues at most one event; it
carries the index the callback was raised with, and goes to the client that owns that
slot at that moment.  Events without a connection carry a fixed zero or an error code,
which is never positive.

## Main definitions

* `KeepsRx`, `Keeps` — the received data is as before; the queues too.
* `EventsOk` — the queues are sound, and an event without a connection has an id that is
  not positive.
* `Queues` — at most one event has been queued, for one client and one id.

## Main results

* `Reachable.eventsOk` — the queues in every reachable state.
* `queues_stepTcp` — what a TCP callback queues.
-/

namespace Xtcp

open Runs

variable {cfg : Config} {s s' s'' : Server}

/-! ### The functions that leave queues and received data alone -/

/-- The received data is as before. -/
structure KeepsRx (s s' : Server) : Prop where
  /-- The chains start where they did. -/
  head : ∀ k, (s'.connections k).pbuf = (s.connections k).pbuf
  /-- The pbufs are the same. -/
  pbufs : s'.pbufs = s.pbufs
  /-- lwIP keeps the same pbufs. -/
  refused : s'.refused = s.refused

/-- The queues and the received data are as before. -/
structure Keeps (s s' : Server) : Prop extends KeepsRx s s' where
  /-- The queues are the same. -/
  queue : s'.queue = s.queue

theorem KeepsRx.trans (h : KeepsRx s s') (h' : KeepsRx s' s'') : KeepsRx s s'' :=
  ⟨fun k => (h'.head k).trans (h.head k), h'.pbufs.trans h.pbufs, h'.refused.trans h.refused⟩

/-- A state with the same received data. -/
theorem KeepsRx.of_eq (hconn : s'.connections = s.connections) (hpbufs : s'.pbufs = s.pbufs)
    (hrefused : s'.refused = s.refused) : KeepsRx s s' :=
  ⟨fun k => by rw [hconn], hpbufs, hrefused⟩

theorem Keeps.of_eq (hqueue : s'.queue = s.queue) (hconn : s'.connections = s.connections)
    (hpbufs : s'.pbufs = s.pbufs) (hrefused : s'.refused = s.refused) : Keeps s s' :=
  ⟨.of_eq hconn hpbufs hrefused, hqueue⟩

namespace Keeps

theorem refl (s : Server) : Keeps s s := .of_eq rfl rfl rfl rfl

theorem trans (h : Keeps s s') (h' : Keeps s' s'') : Keeps s s'' :=
  ⟨h.toKeepsRx.trans h'.toKeepsRx, h'.queue.trans h.queue⟩

/-- Writing an entry, but not its received data. -/
theorem setEntry {k : ℤ} {e : ConnectionEntry} (h : e.pbuf = (s.connections k).pbuf) :
    Keeps s (s.setEntry k e) := by
  refine ⟨⟨fun j => ?_, rfl, rfl⟩, rfl⟩
  by_cases hj : j = k
  · subst hj; simp [Server.setEntry, h]
  · simp [Server.setEntry, hj]

theorem modifyTcp (s : Server) (p : Ptr) (f : TcpPcb → TcpPcb) : Keeps s (s.modifyTcp p f) :=
  .of_eq rfl rfl rfl rfl

theorem modifyUdp (s : Server) (p : Ptr) (f : UdpPcb → UdpPcb) : Keeps s (s.modifyUdp p f) :=
  .of_eq rfl rfl rfl rfl

theorem tcpFree (s : Server) (p : Ptr) : Keeps s (tcpFree s p) := .of_eq rfl rfl rfl rfl

theorem freeClientConnection (s : Server) (k : ℤ) : Keeps s (freeClientConnection cfg s k) := by
  unfold Xtcp.freeClientConnection
  split
  · exact setEntry rfl
  · exact refl s

theorem assign (s : Server) (c : ℕ) (protocol : Protocol) :
    Keeps s (assignClientConnection cfg s c protocol).1 := by
  unfold assignClientConnection
  split
  · next k _ =>
    have hset : Keeps s (s.setEntry k { s.connections k with
        isActive := true, clientNum := c, protocol := protocol, pcb := .null }) := setEntry rfl
    exact ⟨⟨hset.head, hset.pbufs, hset.refused⟩, hset.queue⟩
  · exact refl s

theorem setTcpPcb (s : Server) (k : ℤ) (p : Option Ptr) : Keeps s (setTcpPcb cfg s k p).1 := by
  unfold Xtcp.setTcpPcb
  split
  · exact setEntry rfl
  · exact refl s

theorem setUdpPcb (s : Server) (k : ℤ) (p : Option Ptr) : Keeps s (setUdpPcb cfg s k p).1 := by
  unfold Xtcp.setUdpPcb
  split
  · exact setEntry rfl
  · exact refl s

theorem tcpClose (s : Server) (p : Ptr) (id : ℤ) (lingers : Bool) :
    Keeps s (tcpClose s p id lingers) := .of_eq rfl rfl rfl rfl

theorem tcpNewIpType (s : Server) (p : Ptr) : Keeps s (tcpNewIpType s p) :=
  .of_eq rfl rfl rfl rfl

theorem udpNewIpType (s : Server) (p : Ptr) : Keeps s (udpNewIpType s p) :=
  .of_eq rfl rfl rfl rfl

theorem udpRemove (s : Server) (p : Ptr) : Keeps s (udpRemove s p) := .of_eq rfl rfl rfl rfl

theorem shimNewSocket (s : Server) (i : ℕ) (protocol : Protocol) (answer : Option Ptr) :
    Keeps s (shimNewSocket cfg s i protocol answer).1 := by
  have hassign : Keeps s (assignClientConnection cfg s i protocol).1 := assign s i protocol
  unfold Xtcp.shimNewSocket
  dsimp only
  split
  · exact hassign
  · split
    · exact hassign
    · split
      · exact ((hassign.trans (udpNewIpType _ _)).trans (setUdpPcb _ _ _)).trans (udpRemove _ _)
      · exact (hassign.trans (udpNewIpType _ _)).trans (setUdpPcb _ _ _)
    · exact hassign
    · split
      · exact ((hassign.trans (tcpNewIpType _ _)).trans (setTcpPcb _ _ _)).trans (tcpClose _ _ _ _)
      · exact (hassign.trans (tcpNewIpType _ _)).trans (setTcpPcb _ _ _)
    · exact hassign

theorem tcpBind (s : Server) (p : Ptr) (host : Host) (answer : Err) :
    Keeps s (tcpBind s p host answer) := by
  unfold Xtcp.tcpBind
  split
  · exact modifyTcp s p _
  · exact refl s

theorem tcpListen (s : Server) (p l : Ptr) : Keeps s (tcpListen s p l) :=
  .of_eq rfl rfl rfl rfl

theorem udpBind (s : Server) (p : Ptr) (host : Host) (answer : Err) :
    Keeps s (udpBind s p host answer) := by
  unfold Xtcp.udpBind
  split
  · exact modifyUdp s p _
  · exact refl s

theorem shimListen (s : Server) (i : ℕ) (k : ℤ) (portNumber : UInt16) (ipaddr : IpAddr)
    (answer : ListenAnswer) : Keeps s (shimListen cfg s i k portNumber ipaddr answer).1 := by
  unfold Xtcp.shimListen
  dsimp only
  split
  · exact refl s
  · split
    · split
      · exact refl s
      · next p _ =>
        have hbind := tcpBind s p ⟨ipaddr, portNumber⟩ answer.bind
        split
        · split
          · exact hbind
          · next l _ =>
            exact ((hbind.trans (tcpListen _ p l)).trans (setTcpPcb _ _ _)).trans (modifyTcp _ l _)
        · split
          · exact hbind
          · exact hbind
    · split
      · exact refl s
      · next p _ =>
        have hbind := udpBind s p ⟨ipaddr, portNumber⟩ answer.bind
        split
        · exact hbind.trans (modifyUdp _ p _)
        · exact hbind
    · exact refl s

theorem tcpConnect (s : Server) (p : Ptr) (host : Host) (answer : Err) :
    Keeps s (tcpConnect s p host answer) := by
  unfold Xtcp.tcpConnect
  split
  · exact modifyTcp s p _
  · exact refl s

theorem udpConnect (s : Server) (p : Ptr) (host : Host) (answer : Err) :
    Keeps s (udpConnect s p host answer) := by
  unfold Xtcp.udpConnect
  split
  · exact modifyUdp s p _
  · exact refl s

theorem shimConnect (s : Server) (i : ℕ) (k : ℤ) (portNumber : UInt16) (ipaddr : IpAddr)
    (answer : Err) : Keeps s (shimConnect cfg s i k portNumber ipaddr answer).1 := by
  unfold Xtcp.shimConnect
  dsimp only
  split
  · exact refl s
  · split
    · split
      · exact refl s
      · next p _ =>
        have hconnect := tcpConnect s p ⟨ipaddr, portNumber⟩ answer
        split
        · exact hconnect
        · exact hconnect
    · split
      · exact refl s
      · next p _ =>
        have hconnect := udpConnect s p ⟨ipaddr, portNumber⟩ answer
        split
        · exact hconnect.trans (modifyUdp _ p _)
        · exact hconnect
    · exact refl s

theorem shimAccept (s : Server) (c : ℕ) (n : Option Ptr) (k : ℤ) :
    Keeps s (shimAccept cfg s c n k).1 := by
  unfold Xtcp.shimAccept
  split
  · exact refl s
  · split
    · exact refl s
    · next n =>
      have hassign : Keeps s (assignClientConnection cfg s c .tcp).1 := assign s c .tcp
      dsimp only
      split
      · exact hassign
      · exact (hassign.trans (setTcpPcb _ _ _)).trans (modifyTcp _ n _)
  · exact refl s

theorem closePcb (s : Server) (k : ℤ) (lingers : Bool) : Keeps s (closePcb cfg s k lingers) := by
  unfold Xtcp.closePcb
  split
  · split
    · exact udpRemove s _
    · exact refl s
  · split
    · exact tcpClose s _ _ _
    · exact refl s
  · exact refl s

theorem setConnectionClientData (s : Server) (k : ℤ) (data : Option Ptr) :
    Keeps s (setConnectionClientData cfg s k data).1 := by
  unfold Xtcp.setConnectionClientData
  split
  · exact setEntry rfl
  · exact refl s

end Keeps

/-! ### The queues -/

/-- The queues are sound, and the id of an event without a connection is not positive. -/
structure EventsOk (cfg : Config) (q : ClientQueue) : Prop where
  /-- Heads and counts are in bounds. -/
  queueOk : QueueOk cfg q
  /-- An event without a connection has an id that is not positive. -/
  id_le : ∀ c, ∀ e ∈ contents cfg q c, e.xtcpEvent.connectionless = true → e.id ≤ 0
  /-- There are no events for a client without a queue. -/
  contents_eq_nil : ∀ c, ¬ c < cfg.maxXtcpClients → contents cfg q c = []

namespace EventsOk

variable {q q' : ClientQueue}

/-- No event has been added. -/
theorem of_subset (h : EventsOk cfg q) (hq : QueueOk cfg q')
    (hsub : ∀ c, ∀ e ∈ contents cfg q' c, e ∈ contents cfg q c) : EventsOk cfg q' := by
  refine ⟨hq, fun c e he => h.id_le c e (hsub c e he), fun c hc => ?_⟩
  refine List.eq_nil_iff_forall_not_mem.mpr fun e he => ?_
  have := hsub c e he
  rw [h.contents_eq_nil c hc] at this
  cases this

theorem enqueue (h : EventsOk cfg q) (c : ℕ) {id : ℤ} {e : EventType}
    (he : e.connectionless = true → id ≤ 0) :
    EventsOk cfg (enqueueEventAndNotify cfg q c id e).1 := by
  by_cases hsucc : (enqueueEventAndNotify cfg q c id e).2 = .success
  · refine ⟨queueOk_enqueue h.queueOk c id e, fun d f hf => ?_, fun d hd => ?_⟩
    · rw [contents_enqueue h.queueOk hsucc] at hf
      split at hf
      · rw [List.mem_append, List.mem_singleton] at hf
        rcases hf with hf | rfl
        · exact h.id_le c f hf
        · exact he
      · exact h.id_le d f hf
    · have hdc : d ≠ c := fun hdc => hd (hdc ▸ ((enqueue_success_iff h.queueOk).mp hsucc).1)
      rw [contents_enqueue h.queueOk hsucc, if_neg hdc]
      exact h.contents_eq_nil d hd
  · rw [enqueue_of_ne_success hsucc]
    exact h

theorem dequeue (h : EventsOk cfg q) (c : ℕ) : EventsOk cfg (dequeueEvent cfg q c).1 := by
  refine h.of_subset (queueOk_dequeue h.queueOk c) fun d e he => ?_
  by_cases hempty : ¬ c < cfg.maxXtcpClients ∨ contents cfg q c = []
  · rwa [dequeue_of_empty h.queueOk hempty] at he
  · push Not at hempty
    obtain ⟨x, l, hxl⟩ := List.exists_cons_of_ne_nil hempty.2
    rw [(contents_dequeue h.queueOk hempty.1 hxl).2] at he
    split at he
    · next hd => subst hd; rw [hxl]; exact List.mem_cons_of_mem x he
    · exact he

theorem free (h : EventsOk cfg q) (c : ℕ) (id : ℤ) :
    EventsOk cfg (freeNotificationsOnQueue cfg q c id).1 := by
  refine h.of_subset (queueOk_free h.queueOk c id) fun d e he => ?_
  by_cases hc : c < cfg.maxXtcpClients
  · rw [contents_free h.queueOk hc] at he
    split at he
    · next hd => subst hd; exact (List.mem_filter.mp he).1
    · exact he
  · simpa [freeNotificationsOnQueue, hc] using he

end EventsOk

theorem ErrorCode.toInt_nonpos (e : ErrorCode) : e.toInt ≤ 0 := by
  cases e <;> decide

/-! ### TCP callbacks -/

/-- At most one event has been queued, about a connection: for client `c`, with `id`. -/
def Queues (cfg : Config) (c : ℕ) (id : ℤ) (q q' : ClientQueue) : Prop :=
  q' = q ∨ ∃ e : EventType, e.connectionless = false ∧
    q' = (enqueueEventAndNotify cfg q c id e).1

/-- The queues after at most one event has been queued. -/
theorem Queues.contents {c : ℕ} {id : ℤ} {q q' : ClientQueue} (h : Queues cfg c id q q')
    (hq : QueueOk cfg q) (d : ℕ) :
    contents cfg q' d = contents cfg q d ∨
      d = c ∧ ∃ e, contents cfg q' d = contents cfg q d ++ [⟨e, id⟩] := by
  obtain rfl | ⟨e, -, rfl⟩ := h
  · exact .inl rfl
  · by_cases hsucc : (enqueueEventAndNotify cfg q c id e).2 = .success
    · rw [contents_enqueue hq hsucc]
      split
      · next hd => subst hd; exact .inr ⟨rfl, e, rfl⟩
      · exact .inl rfl
    · rw [enqueue_of_ne_success hsucc]
      exact .inl rfl

theorem Queues.eventsOk {c : ℕ} {id : ℤ} {q q' : ClientQueue} (h : Queues cfg c id q q')
    (hq : EventsOk cfg q) : EventsOk cfg q' := by
  obtain rfl | ⟨e, he, rfl⟩ := h
  · exact hq
  · exact hq.enqueue c fun hc => absurd hc (by rw [he]; decide)

/-- Queue an event, if there is one. -/
def enqueueSome (cfg : Config) (q : ClientQueue) (c : ℕ) (id : ℤ) : Option EventType → ClientQueue
  | some e => (enqueueEventAndNotify cfg q c id e).1
  | none => q

theorem queues_enqueueSome (q : ClientQueue) (c : ℕ) (id : ℤ) {o : Option EventType}
    (h : ∀ e ∈ o, e.connectionless = false) : Queues cfg c id q (enqueueSome cfg q c id o) := by
  cases o with
  | none => exact .inl rfl
  | some e => exact .inr ⟨e, h e rfl, rfl⟩

/-- The event that `lwip_tcp_event` queues, other than for an accept. -/
def LwipEvent.queued (e : LwipEvent) (p : Option Ptr) (err : Err) : Option EventType :=
  match e with
  | .connected => some .newConnection
  | .recv => some (if p.isSome then .recvData else .closed)
  | .sent => some .sentData
  | .err => errorEvent err
  | .accept | .poll => none

/-- The event that a TCP callback queues, other than an accept. -/
def TcpCallback.queued : TcpCallback → Option EventType
  | .connected => some .newConnection
  | .recv cells => some (if (deliveredHead cells).isSome then .recvData else .closed)
  | .sent => some .sentData
  | .err e => errorEvent e
  | .accept | .acceptFailed | .poll => none

theorem connectionless_of_errorEvent {err : Err} {e : EventType} (h : e ∈ errorEvent err) :
    e.connectionless = false := by
  cases err <;> simp [errorEvent] at h <;> subst h <;> rfl

theorem connectionless_of_queued {callback : TcpCallback} {e : EventType}
    (h : e ∈ callback.queued) : e.connectionless = false := by
  cases callback with
  | err err => exact connectionless_of_errorEvent h
  | recv cells =>
    simp only [TcpCallback.queued, Option.mem_def, Option.some.injEq] at h
    subst h
    split <;> rfl
  | connected | sent => cases h; rfl
  | accept | acceptFailed | poll => cases h

theorem queue_eventRecv {k : ℤ} {c : ℕ} {p : Option Ptr} {r : Err}
    (h : eventRecv cfg s k c p = .ok (s', r)) :
    s'.queue = (enqueueEventAndNotify cfg s.queue c k (if p.isSome then .recvData else
      .closed)).1 := by
  unfold eventRecv at h
  split at h
  · cases h; rfl
  · obtain ⟨⟨t, e⟩, ht, h⟩ := bind_eq_ok.mp h
    rw [← (leaves_setRemote ht).queue]
    dsimp only at h
    split at h
    · obtain ⟨⟨u, e'⟩, hu, h⟩ := bind_eq_ok.mp h
      cases h
      exact (leaves_unlinkRemote hu).queue
    · cases h; rfl

theorem queue_eventErr (s : Server) (k : ℤ) (c : ℕ) (err : Err) :
    (eventErr cfg s k c err).1.queue = enqueueSome cfg s.queue c k (errorEvent err) := by
  unfold eventErr
  dsimp only
  rw [(Keeps.freeClientConnection _ k).queue]
  cases errorEvent err <;> rfl

/-- There is no queue for a slot that is not in the table. -/
theorem enqueue_getClientInfo {k : ℤ} (hk : ¬ cfg.InRange k) (q : ClientQueue) (id : ℤ)
    (e : EventType) : enqueueEventAndNotify cfg q (getClientInfo cfg s k) id e = (q, .einval) := by
  have hle := cfg.clients_le
  refine enqueue_of_not_lt ?_ id e
  rw [getClientInfo, if_neg hk]
  omega

/-- **What a callback queues** carries its index and goes to the owner of that slot. -/
theorem queue_lwipTcpEvent {arg : ℤ} {pcb : Option Ptr} {e : LwipEvent} {p : Option Ptr}
    {err r : Err} (he : e ≠ .accept) (h : lwipTcpEvent cfg s arg pcb e p err = .ok (s', r)) :
    s'.queue = enqueueSome cfg s.queue (getClientInfo cfg s arg) arg (e.queued p err) := by
  unfold lwipTcpEvent at h
  split at h
  · cases e with
    | accept => exact absurd rfl he
    | connected => cases h; rfl
    | recv => exact queue_eventRecv h
    | sent => cases h; rfl
    | err => cases h; exact queue_eventErr s arg _ err
    | poll => cases h; rfl
  · next hk =>
    cases h
    cases hev : e.queued p err with
    | none => rfl
    | some ev => rw [enqueueSome, enqueue_getClientInfo hk]

theorem queues_lwipTcpEvent {arg : ℤ} {pcb : Option Ptr} {e : LwipEvent} {p : Option Ptr}
    {err r : Err} (he : e ≠ .accept) (h : lwipTcpEvent cfg s arg pcb e p err = .ok (s', r)) :
    Queues cfg (getClientInfo cfg s arg) arg s.queue s'.queue := by
  rw [queue_lwipTcpEvent he h]
  refine queues_enqueueSome _ _ _ fun ev hev => ?_
  cases e with
  | err => exact connectionless_of_errorEvent hev
  | recv =>
    simp only [LwipEvent.queued, Option.mem_def, Option.some.injEq] at hev
    subst hev
    split <;> rfl
  | connected | sent => cases hev; rfl
  | accept | poll => cases hev

/-- The queues after a TCP callback other than an accept. -/
theorem queue_stepTcp {p : Ptr} {arg : ℤ} {callback : TcpCallback} {r : Reply}
    (hne : callback ≠ .accept) (h : stepTcp cfg s p arg callback = .ok (s', r)) :
    s'.queue = enqueueSome cfg s.queue (getClientInfo cfg s arg) arg callback.queued := by
  cases callback with
  | accept => exact absurd rfl hne
  | acceptFailed =>
    obtain ⟨⟨t, e⟩, ht, h⟩ := bind_eq_ok.mp h
    cases h
    unfold lwipTcpEvent at ht
    split at ht <;> cases ht <;> rfl
  | recv cells =>
    obtain ⟨⟨t, e⟩, ht, h⟩ := bind_eq_ok.mp h
    have hqueue : s'.queue = t.queue := by
      dsimp only at h
      split at h <;> cases h <;> rfl
    have hqueues := queue_lwipTcpEvent (by decide) ht
    rw [hqueue]
    exact hqueues
  | connected | sent | poll | err =>
    obtain ⟨⟨t, e⟩, ht, h⟩ := bind_eq_ok.mp h
    cases h
    have hqueues := queue_lwipTcpEvent (by decide) ht
    exact hqueues

/-- What a TCP callback other than an accept queues. -/
theorem queues_stepTcp {p : Ptr} {arg : ℤ} {callback : TcpCallback} {r : Reply}
    (hne : callback ≠ .accept) (h : stepTcp cfg s p arg callback = .ok (s', r)) :
    Queues cfg (getClientInfo cfg s arg) arg s.queue s'.queue := by
  rw [queue_stepTcp hne h]
  exact queues_enqueueSome _ _ _ fun e he => connectionless_of_queued he

/-- What `lwip_tcp_event` does to the queues when a connection is accepted. -/
theorem eventsOk_accept {arg : ℤ} {n : Ptr} {r : Err} (hq : EventsOk cfg s.queue)
    (h : lwipTcpEvent cfg s arg n .accept none .ok = .ok (s', r)) : EventsOk cfg s'.queue := by
  unfold lwipTcpEvent at h
  split at h
  · have hs : (eventAccept cfg s arg (getClientInfo cfg s arg) n .ok).1 = s' :=
      congrArg Prod.fst (Except.ok.inj h)
    rw [← hs]
    unfold eventAccept
    dsimp only
    rw [if_neg (by decide)]
    have hkeep : Keeps s (shimAccept cfg (tcpSetprio s n tcpPrioMin) (getClientInfo cfg s arg)
        n arg).1 := (Keeps.modifyTcp s n _).trans (Keeps.shimAccept _ _ _ _)
    split
    · rw [hkeep.queue]; exact hq
    · have : EventsOk cfg (shimAccept cfg (tcpSetprio s n tcpPrioMin) (getClientInfo cfg s arg)
          n arg).1.queue := by rw [hkeep.queue]; exact hq
      exact this.enqueue _ fun h => nomatch h
  · cases h; exact hq

theorem eventsOk_stepTcp {p : Ptr} {arg : ℤ} {callback : TcpCallback} {r : Reply}
    (hq : EventsOk cfg s.queue) (h : stepTcp cfg s p arg callback = .ok (s', r)) :
    EventsOk cfg s'.queue := by
  by_cases hne : callback = .accept
  · subst hne
    obtain ⟨⟨t, e⟩, ht, h⟩ := bind_eq_ok.mp h
    have hactive : EventsOk cfg (s.modifyTcp p fun b => { b with status := .active }).queue := hq
    have htq : EventsOk cfg t.queue := eventsOk_accept hactive ht
    dsimp only at h
    split at h
    · cases h; exact htq
    · obtain ⟨u, hu, h⟩ := bind_eq_ok.mp h
      cases h
      unfold abortAccepted at hu
      split at hu
      · cases hu; exact htq
      · obtain ⟨⟨v, e'⟩, hv, hu⟩ := bind_eq_ok.mp hu
        cases hu
        have hqueues := queues_lwipTcpEvent (by decide) hv
        exact hqueues.eventsOk htq
  · exact (queues_stepTcp hne h).eventsOk hq

/-! ### All steps -/

/-- `enqueue_event_and_notify(i, 0, event)` for every client. -/
def enqueueAll (cfg : Config) (q : ClientQueue) (event : EventType) : ClientQueue :=
  (List.range cfg.nXtcp).foldl (fun q i => (enqueueEventAndNotify cfg q i 0 event).1) q

theorem queue_notifyAll (s : Server) (event : EventType) :
    (notifyAll cfg s event).queue = enqueueAll cfg s.queue event := by
  unfold notifyAll enqueueAll
  induction List.range cfg.nXtcp generalizing s with
  | nil => rfl
  | cons i l ih => exact ih _

/-- An invariant of the queues that every event keeps is kept by a link event. -/
theorem enqueueAll_invariant {I : ClientQueue → Prop} {event : EventType}
    (hstep : ∀ q i, I q → I (enqueueEventAndNotify cfg q i 0 event).1) {q : ClientQueue} (hq : I q)
      :
    I (enqueueAll cfg q event) := by
  unfold enqueueAll
  induction List.range cfg.nXtcp generalizing q with
  | nil => exact hq
  | cons i l ih => exact ih (hstep q i hq)

theorem eventsOk_notifyAll {e : EventType} (hq : EventsOk cfg s.queue) :
    EventsOk cfg (notifyAll cfg s e).queue := by
  rw [queue_notifyAll]
  exact enqueueAll_invariant (fun q i hok => hok.enqueue i fun _ => le_rfl) hq

/-- `set_remote` leaves the UDP control blocks alone. -/
theorem udp_setRemote {k : ℤ} {remote : Option IpAddr} {port : UInt16} {p : Option Ptr}
    {e : ErrorCode} (h : setRemote cfg s k remote port p = .ok (s', e)) : s'.udp = s.udp := by
  unfold setRemote at h
  split at h
  · split at h
    · cases h; rfl
    · obtain ⟨b, -, h⟩ := bind_eq_ok.mp h
      dsimp only at h
      split at h
      · obtain ⟨last, -, h⟩ := bind_eq_ok.mp h
        obtain ⟨lb, -, h⟩ := bind_eq_ok.mp h
        cases h; rfl
      · cases h; rfl
  · cases h; rfl

/-- What a datagram queues carries its index and goes to the owner of that slot. -/
theorem queue_xtcpUdpRecv {k : ℤ} {pcb : Ptr} {p : Option Ptr} {addr : Option IpAddr}
    {port : UInt16} (h : xtcpUdpRecv cfg s k pcb p addr port = .ok s') :
    s'.queue = enqueueSome cfg s.queue (getClientInfo cfg s k) k
      (p.map fun _ => udpRecvEvent s pcb) := by
  unfold xtcpUdpRecv at h
  split at h
  · cases h; rfl
  · split at h
    · next hk =>
      obtain ⟨⟨t, e⟩, ht, h⟩ := bind_eq_ok.mp h
      have hqueue := (leaves_setRemote ht).queue
      have hclient : getClientInfo cfg t k = getClientInfo cfg s k := by
        rw [getClientInfo, getClientInfo, if_pos hk, if_pos hk]
        exact congrArg (fun T => (T.slot k).clientNum) (leaves_setRemote ht).table
      have hevent : udpRecvEvent t pcb = udpRecvEvent s pcb := by
        rw [udpRecvEvent, udpRecvEvent, udp_setRemote ht]
      have hs' : s'.queue = (enqueueEventAndNotify cfg t.queue (getClientInfo cfg t k) k
          (udpRecvEvent t pcb)).1 := by
        dsimp only at h
        split at h
        · obtain ⟨m, -, h⟩ := bind_eq_ok.mp h
          cases h
          rfl
        · cases h
          rfl
      rw [hs', hqueue, hclient, hevent]
      rfl
    · next hk =>
      cases h
      rw [Option.map_some, enqueueSome, enqueue_getClientInfo hk]

theorem connectionless_udpRecvEvent (s : Server) (pcb : Ptr) :
    (udpRecvEvent s pcb).connectionless = false := by
  unfold udpRecvEvent
  split <;> rfl

theorem queues_xtcpUdpRecv {k : ℤ} {pcb : Ptr} {p : Option Ptr} {addr : Option IpAddr}
    {port : UInt16} (h : xtcpUdpRecv cfg s k pcb p addr port = .ok s') :
    Queues cfg (getClientInfo cfg s k) k s.queue s'.queue := by
  rw [queue_xtcpUdpRecv h]
  refine queues_enqueueSome _ _ _ fun e he => ?_
  cases p with
  | none => cases he
  | some p => cases he; exact connectionless_udpRecvEvent s pcb

theorem eventsOk_xtcpUdpRecv {k : ℤ} {pcb : Ptr} {p : Option Ptr} {addr : Option IpAddr}
    {port : UInt16} (hq : EventsOk cfg s.queue)
    (h : xtcpUdpRecv cfg s k pcb p addr port = .ok s') : EventsOk cfg s'.queue :=
  (queues_xtcpUdpRecv h).eventsOk hq

/-- What a client's call can do to the queues: `get_event` takes an event, closing a socket
removes the events with its id, and no other call touches them. -/
inductive CallQueues (cfg : Config) (s : Server) (i : ℕ) : Call → ClientQueue → Prop
  /-- Nothing. -/
  | quiet {call : Call} : call ≠ .getEvent →
      (∀ k lingers, call.closes k lingers → ¬ s.table.OwnedBy cfg i k) →
      CallQueues cfg s i call s.queue
  /-- `get_event` -/
  | getEvent : CallQueues cfg s i .getEvent (getEvent cfg s i).1.queue
  /-- `close` and `abort` of a socket of the client. -/
  | close {call : Call} {k : ℤ} {lingers : Bool} : call.closes k lingers →
      s.table.OwnedBy cfg i k →
      CallQueues cfg s i call (freeNotificationsOnQueue cfg s.queue i k).1

/-- What `shim_close_socket` does to the queues. -/
theorem queue_close {c : ℕ} {id : ℤ} {lingers : Bool} (hown : s.table.OwnedBy cfg c id)
    (h : shimCloseSocket cfg s c id lingers = .ok s') :
    s'.queue = (freeNotificationsOnQueue cfg s.queue c id).1 := by
  have hfind : (findClientConnection cfg s c id).status = .success := find_success_iff.mpr hown
  simp only [shimCloseSocket, hfind, ne_eq, not_true_eq_false, if_false] at h
  obtain ⟨t, ht, h⟩ := bind_eq_ok.mp h
  cases h
  rw [((Keeps.closePcb t id lingers).trans (Keeps.freeClientConnection _ id)).queue]
  exact (leaves_clearPending ht).queue

theorem callQueues_close {i : ℕ} {call : Call} {k : ℤ} {lingers : Bool}
    (hcall : call.closes k lingers) (h : shimCloseSocket cfg s i k lingers = .ok s') :
    CallQueues cfg s i call s'.queue := by
  by_cases hown : s.table.OwnedBy cfg i k
  · rw [queue_close hown h]
    exact .close hcall hown
  · have hfind := hown
    rw [← find_success_iff] at hfind
    rw [shimCloseSocket, if_pos hfind] at h
    cases h
    refine .quiet ?_ ?_
    · rintro rfl
      exact hcall
    · intro j l hj
      cases call with
      | close | abort =>
        obtain ⟨rfl, -⟩ := hcall
        obtain ⟨rfl, -⟩ := hj
        exact hown
      | _ => cases hcall

/-- **What a client's call does to the queues.** -/
theorem callQueues {i : ℕ} {call : Call} {r : Reply} (h : stepCall cfg s i call = .ok (s', r)) :
    CallQueues cfg s i call s'.queue := by
  have hquiet : s'.queue = s.queue → call ≠ .getEvent → (∀ k lingers, ¬ call.closes k lingers) →
      CallQueues cfg s i call s'.queue := by
    intro hqueue hne hcloses
    rw [hqueue]
    exact .quiet hne fun k lingers h => absurd h (hcloses k lingers)
  cases call with
  | getEvent => cases h; exact .getEvent
  | socket protocol answer =>
    cases h
    exact hquiet (Keeps.shimNewSocket s i protocol answer).queue (by simp) fun _ _ h => h
  | close id lingers | abort id lingers =>
    obtain ⟨t, ht, h⟩ := bind_eq_ok.mp h
    cases h
    exact callQueues_close ⟨rfl, rfl⟩ ht
  | listen id portNumber ipaddr answer =>
    cases h
    exact hquiet (Keeps.shimListen s i id portNumber ipaddr answer).queue (by simp) fun _ _ h => h
  | connect id portNumber ipaddr answer =>
    simp only [stepCall] at h
    split at h
    · cases h; exact hquiet rfl (by simp) fun _ _ h => h
    · cases h
      exact hquiet (Keeps.shimConnect s i id portNumber ipaddr answer).queue (by simp)
        fun _ _ h => h
  | send id buffer timed answer =>
    exact hquiet (leaves_sendCommon h).queue (by simp) fun _ _ h => h
  | sendto id buffer timed answer =>
    exact hquiet (leaves_sendtoCommon h).queue (by simp) fun _ _ h => h
  | recv id length timed =>
    exact hquiet (leaves_recvCommon h).queue (by simp) fun _ _ h => h
  | recvfrom id length timed =>
    exact hquiet (leaves_recvfromCommon h).queue (by simp) fun _ _ h => h
  | setConnectionClientData id data =>
    simp only [stepCall] at h
    split at h
    · cases h; exact hquiet rfl (by simp) fun _ _ h => h
    · cases h
      exact hquiet (Keeps.setConnectionClientData s id data).queue (by simp) fun _ _ h => h
  | getConnectionClientData id =>
    simp only [stepCall] at h
    split at h <;> cases h <;> exact hquiet rfl (by simp) fun _ _ h => h
  | joinMulticastGroup addr answer =>
    cases h
    refine hquiet ?_ (by simp) fun _ _ h => h
    simp only [setMacaddrFilter, shimJoinMulticastGroup]
    split <;> split <;> rfl
  | leaveMulticastGroup addr =>
    cases h
    refine hquiet ?_ (by simp) fun _ _ h => h
    simp only [setMacaddrFilter, shimLeaveMulticastGroup]
    split <;> split <;> rfl
  | requestHostByName hasGateway answer ipaddr =>
    refine hquiet ?_ (by simp) fun _ _ h => h
    simp only [stepCall, shimRequestHostByName] at h
    split at h
    · split at h
      · cases h; rfl
      · split at h <;> cases h <;> rfl
    · cases h; rfl
  | getIpconfigRemote id | getIpconfigLocal id =>
    cases h; exact hquiet rfl (by simp) fun _ _ h => h
  | getsockopt id level option length =>
    obtain ⟨⟨status, value⟩, -, h⟩ := bind_eq_ok.mp h
    cases h; exact hquiet rfl (by simp) fun _ _ h => h
  | setsockopt id level option value =>
    obtain ⟨⟨t, e⟩, ht, h⟩ := bind_eq_ok.mp h
    cases h
    exact hquiet (leaves_shimSetsockopt ht).queue (by simp) fun _ _ h => h

/-- The queues after the pending notification of client `i` has been cleared. -/
theorem eventsOk_clear {q : ClientQueue} (hq : EventsOk cfg q) (i : ℕ) :
    EventsOk cfg { q with eventReady := Function.update q.eventReady i false } :=
  hq.of_subset ⟨hq.queueOk.head_nonneg, hq.queueOk.head_lt, hq.queueOk.num_nonneg,
    hq.queueOk.num_le⟩ fun _ _ he => he

/-- **`get_event` returns the first event of its client**, or a dummy event. -/
theorem contents_getEvent (hq : EventsOk cfg s.queue) (i : ℕ) :
    (contents cfg s.queue i = [] ∧ (getEvent cfg s i).2 = .event ⟨.none, -1⟩ ∧
        ∀ d, contents cfg (getEvent cfg s i).1.queue d = contents cfg s.queue d) ∨
      ∃ x l, contents cfg s.queue i = x :: l ∧ (getEvent cfg s i).2 = .event x ∧
        ∀ d, contents cfg (getEvent cfg s i).1.queue d = if d = i then l
          else contents cfg s.queue d := by
  have hready := (eventsOk_clear hq i).queueOk
  simp only [getEvent, contents_renotify]
  cases hc : contents cfg s.queue i with
  | nil =>
    left
    rw [dequeue_of_empty hready (.inr hc)]
    exact ⟨rfl, rfl, fun d => rfl⟩
  | cons x l =>
    right
    have hi : i < cfg.maxXtcpClients := by
      by_contra hi
      rw [hq.contents_eq_nil i hi] at hc
      cases hc
    obtain ⟨hx, hl⟩ := contents_dequeue hready hi hc
    exact ⟨x, l, rfl, congrArg Reply.event hx, hl⟩

/-- The queues after the events of connection `id` have been removed from that of client `c`, who
may have none. -/
theorem contents_free_all {q : ClientQueue} (hq : EventsOk cfg q) (c : ℕ) (id : ℤ) (d : ℕ) :
    contents cfg (freeNotificationsOnQueue cfg q c id).1 d
      = if d = c then (contents cfg q c).filter (ClientEvent.notFor id) else contents cfg q d := by
  by_cases hc : c < cfg.maxXtcpClients
  · exact contents_free hq.queueOk hc id d
  · rw [freeNotificationsOnQueue, if_neg hc]
    split
    · next hd => rw [hd, hq.contents_eq_nil c hc, List.filter_nil]
    · rfl

/-- A call keeps the queues sound. -/
theorem CallQueues.eventsOk {i : ℕ} {call : Call} {q : ClientQueue} (h : CallQueues cfg s i call q)
    (hq : EventsOk cfg s.queue) : EventsOk cfg q := by
  cases h with
  | quiet => exact hq
  | getEvent =>
    have hdeq := (eventsOk_clear hq i).dequeue i
    exact hdeq.of_subset (queueOk_renotify hdeq.queueOk i) fun c e he => by
      simpa only [Xtcp.getEvent, contents_renotify] using he
  | close => exact hq.free i _

/-- Every step keeps the queues sound. -/
theorem eventsOk_step {a : Action} {r : Reply} (hq : EventsOk cfg s.queue)
    (h : step cfg s a = .ok (s', r)) : EventsOk cfg s'.queue := by
  cases a with
  | call i call => exact (callQueues h).eventsOk hq
  | happens happening =>
    have h : stepHappening cfg s happening = .ok (s', r) := h
    cases happening with
    | tcpEvent p arg callback => exact eventsOk_stepTcp hq h
    | udpRecv p arg cells addr port =>
      obtain ⟨t, ht, h⟩ := bind_eq_ok.mp h
      cases h
      have hdelivered : EventsOk cfg { s with pbufs := deliver s.pbufs cells }.queue := hq
      exact eventsOk_xtcpUdpRecv hdelivered ht
    | dnsFound hasName ipaddr arg =>
      cases h
      exact hq.enqueue arg fun _ => ErrorCode.toInt_nonpos _
    | dropRefused p =>
      obtain ⟨m, -, h⟩ := bind_eq_ok.mp h
      cases h; exact hq
    | linkStatus up =>
      simp only [stepHappening] at h
      split at h
      · cases h; exact hq
      · cases h; exact eventsOk_notifyAll hq
    | timeout timer hasIpAddress ifState =>
      simp only [stepHappening] at h
      split at h
      · cases h; exact eventsOk_notifyAll hq
      · cases h; exact hq
    | syn | reap => cases h; exact hq

theorem eventsOk_init : EventsOk cfg (init cfg).queue :=
  ⟨queueOk_init, fun c e he => by simp [init, initClientConnections] at he,
    fun c _ => by simp [init, initClientConnections]⟩

theorem RunsTo.eventsOk {C : Server → Action → Prop} {tr : List (Action × Reply)} {s : Server}
    (hrun : RunsTo cfg C tr s) : EventsOk cfg s.queue :=
  Run.invariant (I := fun s => EventsOk cfg s.queue) hrun eventsOk_init
    fun _ _ _ _ hq _ h => eventsOk_step hq h

/-- **The queues are sound** in every reachable state. -/
theorem Reachable.eventsOk {s : Server} (h : Reachable cfg s) : EventsOk cfg s.queue :=
  h.elim fun _ hrun => RunsTo.eventsOk hrun

end Xtcp
