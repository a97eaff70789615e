import Xtcp.Events

/-!
# Accepting a connection

`LWIP_EVENT_ACCEPT` can fail at two points: there may be no slot for the connection, and
there may be no room in the owner's queue for the event.  Either way the callback returns
an error, lwIP aborts the new control block, and the library is called once more, with the
argument the control block has by then.  That is the new slot in the second case.  In the
first case it is still the one inherited from the listener.

## Main definitions

* `HasRoom` — a client can be sent an event.
* `AcceptAtomic` — an accept has done all of its work, or no slot has changed.

## Main results

* `accept_queues` — what an accept that gets a slot does to the queues.
* `accept_atomic_iff` — **an accept is all-or-nothing exactly when there is a slot for the
  connection**.
-/

namespace Xtcp

open Runs

variable {cfg : Config} {s s' : Server}

/-- Client `c` can be sent an event. -/
def HasRoom (cfg : Config) (q : ClientQueue) (c : ℕ) : Prop :=
  c < cfg.maxXtcpClients ∧ (contents cfg q c).length < cfg.clientQueueSize

instance (q : ClientQueue) (c : ℕ) : Decidable (HasRoom cfg q c) :=
  inferInstanceAs (Decidable (_ ∧ _))

/-- An entry is its slot and its received data. -/
theorem ConnectionEntry.eq_of_slot {e e' : ConnectionEntry} (hslot : e'.slot = e.slot)
    (hpbuf : e'.pbuf = e.pbuf) : e' = e := by
  cases e
  cases e'
  simp_all [ConnectionEntry.slot]

/-! ### Received data -/

theorem keepsRx_enqueue (s : Server) (c : ℕ) (id : ℤ) (e : EventType) :
    KeepsRx s (enqueue cfg s c id e).1 := .of_eq rfl rfl rfl

theorem keepsRx_eventAccept (s : Server) (arg : ℤ) (c : ℕ) (n : Option Ptr) (err : Err) :
    KeepsRx s (eventAccept cfg s arg c n err).1 := by
  unfold eventAccept
  split
  · exact (Keeps.refl s).toKeepsRx
  · next n =>
    have hkeep : Keeps s (shimAccept cfg (tcpSetprio s n tcpPrioMin) c n arg).1 :=
      (Keeps.modifyTcp s n _).trans (Keeps.shimAccept _ _ _ _)
    dsimp only
    split
    · exact (Keeps.refl s).toKeepsRx
    · split
      · exact hkeep.toKeepsRx
      · exact hkeep.toKeepsRx.trans (keepsRx_enqueue _ _ _ _)

theorem keepsRx_eventErr (s : Server) (arg : ℤ) (c : ℕ) (err : Err) :
    KeepsRx s (eventErr cfg s arg c err).1 := by
  unfold eventErr
  dsimp only
  split
  · exact (keepsRx_enqueue _ _ _ _).trans (Keeps.freeClientConnection _ _).toKeepsRx
  · exact (Keeps.freeClientConnection _ _).toKeepsRx

/-- A callback that delivers nothing leaves the received data alone. -/
theorem keepsRx_lwipTcpEvent {arg : ℤ} {pcb : Option Ptr} {e : LwipEvent} {p : Option Ptr}
    {err r : Err} (he : e = .recv → p = none)
    (h : lwipTcpEvent cfg s arg pcb e p err = .ok (s', r)) : KeepsRx s s' := by
  unfold lwipTcpEvent at h
  split at h
  · cases e with
    | accept =>
      have hs : (eventAccept cfg s arg (getClientInfo cfg s arg) pcb err).1 = s' :=
        congrArg Prod.fst (Except.ok.inj h)
      rw [← hs]
      exact keepsRx_eventAccept s arg _ pcb err
    | recv =>
      obtain rfl := he rfl
      cases h
      exact keepsRx_enqueue _ _ _ _
    | err => cases h; exact keepsRx_eventErr s arg _ err
    | connected => cases h; exact keepsRx_enqueue _ _ _ _
    | sent => cases h; exact keepsRx_enqueue _ _ _ _
    | poll => cases h; exact (Keeps.refl s).toKeepsRx
  · cases h; exact (Keeps.refl s).toKeepsRx

theorem keepsRx_abortAccepted {n : Ptr} (h : abortAccepted cfg s n = .ok s') : KeepsRx s s' := by
  unfold abortAccepted at h
  split at h
  · cases h; exact (Keeps.refl s).toKeepsRx
  · obtain ⟨⟨t, e⟩, ht, h⟩ := bind_eq_ok.mp h
    cases h
    have hkeep := keepsRx_lwipTcpEvent (by simp) ht
    exact (Keeps.tcpFree s n).toKeepsRx.trans hkeep

/-- A TCP callback that delivers nothing leaves the received data alone. -/
theorem keepsRx_stepTcp {p : Ptr} {arg : ℤ} {callback : TcpCallback} {r : Reply}
    (hne : ∀ cells, callback = .recv cells → cells = [])
    (h : stepTcp cfg s p arg callback = .ok (s', r)) : KeepsRx s s' := by
  cases callback with
  | accept =>
    obtain ⟨⟨t, e⟩, ht, h⟩ := bind_eq_ok.mp h
    have hkeep := (Keeps.modifyTcp s p _).toKeepsRx.trans (keepsRx_lwipTcpEvent (by simp) ht)
    dsimp only at h
    split at h
    · cases h; exact hkeep
    · obtain ⟨u, hu, h⟩ := bind_eq_ok.mp h
      cases h
      exact hkeep.trans (keepsRx_abortAccepted hu)
  | recv cells =>
    obtain rfl := hne cells rfl
    obtain ⟨⟨t, e⟩, ht, h⟩ := bind_eq_ok.mp h
    cases h
    have hkeep := keepsRx_lwipTcpEvent (fun _ => rfl) ht
    exact hkeep
  | err err =>
    obtain ⟨⟨t, e⟩, ht, h⟩ := bind_eq_ok.mp h
    cases h
    have hkeep := keepsRx_lwipTcpEvent (by simp) ht
    exact (Keeps.tcpFree s p).toKeepsRx.trans hkeep
  | acceptFailed | connected | sent | poll =>
    obtain ⟨⟨t, e⟩, ht, h⟩ := bind_eq_ok.mp h
    cases h
    exact keepsRx_lwipTcpEvent (by simp) ht

/-! ### Callbacks that return -/

/-- A callback that delivers nothing returns. -/
theorem lwipTcpEvent_returns (cfg : Config) (s : Server) (arg : ℤ) (pcb : Option Ptr) {e :
    LwipEvent}
    {p : Option Ptr} (err : Err) (he : e = .recv → p = none) :
    ∃ t r, lwipTcpEvent cfg s arg pcb e p err = .ok (t, r) := by
  unfold lwipTcpEvent
  split
  · cases e with
    | recv => obtain rfl := he rfl; exact ⟨_, _, rfl⟩
    | _ => exact ⟨_, _, rfl⟩
  · exact ⟨s, .mem, rfl⟩

/-- A TCP callback that delivers nothing returns. -/
theorem stepTcp_returns (hcur : s.table.CursorOk cfg) {pcb : Ptr} {arg : ℤ} {callback : TcpCallback}
    (hok : HappeningAllowed s (.tcpEvent pcb arg callback))
    (hcells : ∀ cells, callback = .recv cells → cells = []) :
    ∃ t r, stepTcp cfg s pcb arg callback = .ok (t, r) := by
  cases callback with
  | accept =>
    obtain ⟨-, e, t, -, ht, -⟩ := accept_step hcur hok
    exact ⟨t, .err e, ht⟩
  | recv cells =>
    obtain rfl := hcells cells rfl
    obtain ⟨t, r, ht⟩ := lwipTcpEvent_returns cfg { s with pbufs := deliver s.pbufs [] } arg
      (some pcb) (e := .recv) (p := none) .ok fun _ => rfl
    refine ⟨t, .err r, ?_⟩
    simp only [stepTcp, deliveredHead, List.head?_nil, Option.map_none, ht]
    rfl
  | acceptFailed =>
    obtain ⟨t, r, ht⟩ := lwipTcpEvent_returns cfg s arg none (e := .accept) (p := none) .mem (by
      simp)
    exact ⟨t, .err r, by simp only [stepTcp, ht]; rfl⟩
  | connected =>
    obtain ⟨t, r, ht⟩ := lwipTcpEvent_returns cfg s arg pcb (e := .connected) (p := none) .ok (by
      simp)
    exact ⟨t, .err r, by simp only [stepTcp, ht]; rfl⟩
  | sent =>
    obtain ⟨t, r, ht⟩ := lwipTcpEvent_returns cfg s arg pcb (e := .sent) (p := none) .ok (by simp)
    exact ⟨t, .err r, by simp only [stepTcp, ht]; rfl⟩
  | poll =>
    obtain ⟨t, r, ht⟩ := lwipTcpEvent_returns cfg s arg pcb (e := .poll) (p := none) .ok (by simp)
    exact ⟨t, .err r, by simp only [stepTcp, ht]; rfl⟩
  | err err =>
    obtain ⟨t, r, ht⟩ := lwipTcpEvent_returns cfg (tcpFree s pcb) arg none (e := .err) (p := none)
      err
      (by simp)
    exact ⟨t, .err r, by simp only [stepTcp, ht]; rfl⟩

/-! ### The outcomes -/

/-- What `lwip_tcp_event` queues for a connection that gets slot `k`, and what it returns. -/
theorem accept_enqueue (hcur : s.table.CursorOk cfg) {arg : ℤ} (harg : cfg.InRange arg) {n : Ptr}
    (hproto : (s.connections arg).protocol = .tcp) {k : ℤ} (hfree : s.table.freeSlot cfg = some k)
    {p : Option Ptr} {t : Server} {e : Err}
    (h : lwipTcpEvent cfg s arg n .accept p .ok = .ok (t, e)) :
    t.queue
        = (enqueueEventAndNotify cfg s.queue (s.connections arg).clientNum k .accepted).1 ∧
      e = if (enqueueEventAndNotify cfg s.queue (s.connections arg).clientNum k .accepted).2
        ≠ .success then .inprogress else .ok := by
  have hclient : getClientInfo cfg s arg = (s.connections arg).clientNum := by
    rw [getClientInfo, if_pos harg]
  rw [lwipTcpEvent, if_pos harg] at h
  have hpair : eventAccept cfg s arg (getClientInfo cfg s arg) n .ok = (t, e) := Except.ok.inj h
  rw [hclient] at hpair
  have hprio : (tcpSetprio s n tcpPrioMin).table = s.table := table_tcpSetprio s n _
  have hcases := shimAccept_cases (s := tcpSetprio s n tcpPrioMin) (by rw [hprio]; exact hcur) harg
    (s.connections arg).clientNum n
  rw [hprio] at hcases
  have hqueue : (shimAccept cfg (tcpSetprio s n tcpPrioMin) (s.connections arg).clientNum n
      arg).1.queue = s.queue := ((Keeps.modifyTcp s n _).trans (Keeps.shimAccept _ _ _ _)).queue
  obtain ⟨j, -, hfree', hres, -⟩ | ⟨-, hnone, -⟩ := hcases
  · obtain rfl : j = k := Option.some.inj (hfree'.symm.trans hfree)
    unfold eventAccept at hpair
    dsimp only at hpair
    rw [if_neg (by decide), hres, if_neg (not_not.mpr rfl)] at hpair
    have hfst := congrArg (fun q => q.1.queue) hpair
    have hsnd := congrArg Prod.snd hpair
    simp only [enqueue, hqueue] at hfst hsnd
    exact ⟨hfst.symm, hsnd.symm⟩
  · rw [hnone hproto] at hfree
    cases hfree

/-- An accept gets as far as assigning a slot. -/
def AcceptFindsSlot (cfg : Config) (s : Server) (arg : ℤ) (n : Option Ptr) (err : Err) : Prop :=
  ∃ n', n = some n' ∧ cfg.InRange arg ∧ (s.connections arg).protocol = .tcp ∧ err = .ok ∧
    ∃ k, s.table.freeSlot cfg = some k

/-- Where no slot is assigned, nothing is queued. -/
theorem queue_accept_of_none (hcur : s.table.CursorOk cfg) {arg : ℤ} {n p : Option Ptr}
    {err result : Err} (hslot : ¬ AcceptFindsSlot cfg s arg n err)
    (h : lwipTcpEvent cfg s arg n .accept p err = .ok (s', result)) : s'.queue = s.queue := by
  unfold lwipTcpEvent at h
  split at h
  · next harg =>
    have hs : (eventAccept cfg s arg (getClientInfo cfg s arg) n err).1 = s' :=
      congrArg Prod.fst (Except.ok.inj h)
    rw [← hs]
    unfold eventAccept
    cases n with
    | none => rfl
    | some n' =>
      dsimp only
      split
      · rfl
      · next herr =>
        have hprio : (tcpSetprio s n' tcpPrioMin).table = s.table := table_tcpSetprio s n' _
        have hcases := shimAccept_cases (s := tcpSetprio s n' tcpPrioMin)
          (by rw [hprio]; exact hcur) harg (getClientInfo cfg s arg) n'
        rw [hprio] at hcases
        obtain ⟨k, hproto, hfree, -⟩ | ⟨hres, -, heq⟩ := hcases
        · exact absurd ⟨n', rfl, harg, hproto, not_not.mp herr, k, hfree⟩ hslot
        · rw [if_pos hres, heq]
          rfl
  · cases h; rfl

/-- The queues after an accept that has got a slot: with room for the event it is queued,
and without room the accept fails. -/
theorem accept_queues (hT : TableOk cfg s.table) (hq : QueueOk cfg s.queue) {arg : ℤ} {n : Ptr}
    (hok : HappeningAllowed s (.tcpEvent n arg .accept)) (harg : cfg.InRange arg)
    (hproto : (s.connections arg).protocol = .tcp) {k : ℤ} (hfree : s.table.freeSlot cfg = some k)
    {t : Server} {e : Err}
    (h : lwipTcpEvent cfg (s.modifyTcp n fun b => { b with status := .active }) arg n .accept
      none .ok = .ok (t, e)) :
    (HasRoom cfg s.queue (s.connections arg).clientNum → e = .ok ∧
      ∀ c, contents cfg t.queue c = if c = (s.connections arg).clientNum
        then contents cfg s.queue c ++ [⟨.accepted, k⟩] else contents cfg s.queue c) ∧
      (¬ HasRoom cfg s.queue (s.connections arg).clientNum → e = .inprogress) := by
  obtain ⟨l, hn⟩ := synRcvd_of_accept hok
  have hactive : (s.modifyTcp n fun b => { b with status := .active }).table
      = s.table.setTcp n (some ⟨arg, .active⟩) := by
    rw [table_setStatus s n fun _ => rfl, hn]
    rfl
  rw [← Table.setTcp_freeSlot n (some ⟨arg, .active⟩), ← hactive] at hfree
  have hcur : (s.modifyTcp n fun b => { b with status := .active }).table.CursorOk cfg := by
    rw [hactive]; exact hT.cursor
  obtain ⟨htq, he⟩ := accept_enqueue hcur harg hproto hfree h
  have htq : t.queue
      = (enqueueEventAndNotify cfg s.queue (s.connections arg).clientNum k .accepted).1 := htq
  constructor
  · intro hroom
    have hsucc := enqueue_success hq hroom.1 hroom.2 k .accepted
    refine ⟨he.trans (if_neg (not_not.mpr hsucc)), fun c => ?_⟩
    rw [htq, contents_enqueue hq hsucc]
    split
    · next hc => rw [hc]
    · rfl
  · intro hroom
    exact he.trans (if_pos fun hsucc => hroom ((enqueue_success_iff hq).mp hsucc))

/-- An accept on slot `L` is all-or-nothing.  Either it succeeds, and a slot that was not
active belongs to the owner of `L`, with the new control block, whose argument is that
slot; the owner is told, and no other slot has changed.  Or it fails, and after lwIP has
aborted the control block no slot has changed. -/
def AcceptAtomic (cfg : Config) (s : Server) (n : Ptr) (L : ℤ) : Prop :=
  ∃ s' r, step cfg s (.happens (.tcpEvent n L .accept)) = .ok (s', .err r) ∧
    (r = .ok ∧ (∃ N, cfg.InRange N ∧ (s.connections N).isActive = false ∧
        s'.connections N = { s.connections N with
          isActive := true
          clientNum := (s.connections L).clientNum
          protocol := .tcp
          pcb := .tcp n } ∧
        (s'.tcp n).map TcpPcb.callbackArg = some N ∧
        (∀ j, j ≠ N → s'.connections j = s.connections j) ∧
        ∀ c, contents cfg s'.queue c = if c = (s.connections L).clientNum
          then contents cfg s.queue c ++ [⟨.accepted, N⟩] else contents cfg s.queue c) ∨
      r ≠ .ok ∧ s'.connections = s.connections)

/-- The control block of slot `L` listens. -/
def Listening (cfg : Config) (s : Server) (L : ℤ) : Prop :=
  cfg.InRange L ∧ (s.connections L).isActive = true ∧ (s.connections L).protocol = .tcp ∧
    ((s.connections L).pcb.addr.bind (pcbStatus s)) = some .listen

instance (s : Server) (L : ℤ) : Decidable (Listening cfg s L) :=
  inferInstanceAs (Decidable (_ ∧ _ ∧ _ ∧ _))

/-- An accept that finds a slot is all-or-nothing. -/
theorem acceptAtomic_of_free (hT : TableOk cfg s.table) (hq : QueueOk cfg s.queue) {L : ℤ}
    {n : Ptr} (hL : Listening cfg s L) (hok : HappeningAllowed s (.tcpEvent n L .accept)) {k : ℤ}
    (hfree : s.table.freeSlot cfg = some k) : AcceptAtomic cfg s n L := by
  obtain ⟨hrange, -, hproto, -⟩ := hL
  obtain ⟨hk, hinactive⟩ := Table.freeSlot_some hT.cursor hfree
  obtain ⟨t, e, s', ht, hstep, hcases⟩ := accept_step hT.cursor hok
  have hrx : KeepsRx s s' := keepsRx_stepTcp (by simp) hstep
  obtain ⟨hroom, hfull⟩ := accept_queues hT hq hok hrange hproto hfree ht
  refine ⟨s', e, hstep, ?_⟩
  obtain ⟨j, -, -, hfree', ⟨rfl, rfl, htab⟩ | ⟨rfl, htab⟩⟩ | ⟨-, hnone, -⟩ := hcases
  · -- there was room for the event
    obtain rfl : j = k := Option.some.inj (hfree'.symm.trans hfree)
    have hroom := hroom (by_contra fun h => by cases hfull h)
    refine .inl ⟨rfl, j, hk, hinactive, ?_, ?_, fun i hi => ?_, hroom.2⟩
    · refine ConnectionEntry.eq_of_slot ?_ (hrx.head j)
      have hslot : s'.table.slot j = ⟨true, (s.connections L).clientNum, .tcp, .tcp n,
          (s.connections j).clientData⟩ := by
        rw [htab, Table.setTcp_slot, Table.store_slot, if_pos rfl, Table.assign_slot, if_pos rfl]
        rfl
      exact hslot
    · have hroute : s'.table.tcp n = some ⟨j, .active⟩ := by
        rw [htab, Table.setTcp_tcp, if_pos rfl]
      simp only [Server.table, Option.map_eq_some_iff] at hroute
      obtain ⟨b, hb, hbr⟩ := hroute
      rw [hb]
      exact congrArg (fun r => some (Route.arg r)) hbr
    · refine ConnectionEntry.eq_of_slot ?_ (hrx.head i)
      have hslot : s'.table.slot i = s.table.slot i := by
        rw [htab, Table.setTcp_slot, Table.store_slot, if_neg hi, Table.assign_slot, if_neg hi]
      exact hslot
  · -- the slot has been released again
    obtain rfl : j = k := Option.some.inj (hfree'.symm.trans hfree)
    refine .inr ⟨by decide, funext fun i => ConnectionEntry.eq_of_slot ?_ (hrx.head i)⟩
    have hslot : s'.table.slot i = s.table.slot i := by
      rw [htab, Table.release_slot]
      split
      · next hi => rw [hi.1, (hT.slot j hk).reset hinactive]
      · next hi =>
        have hij : i ≠ j := fun hij => hi ⟨hij, hk⟩
        rw [Table.setTcp_slot, Table.store_slot, if_neg hij, Table.assign_slot, if_neg hij]
    exact hslot
  · rw [hnone hrange hproto] at hfree
    cases hfree

/-- An accept that finds no slot releases the listener. -/
theorem not_acceptAtomic_of_full (hT : TableOk cfg s.table) {L : ℤ} {n : Ptr}
    (hL : Listening cfg s L) (hok : HappeningAllowed s (.tcpEvent n L .accept))
    (hfull : s.table.freeSlot cfg = none) : ¬ AcceptAtomic cfg s n L := by
  obtain ⟨hrange, hact, hproto, -⟩ := hL
  obtain ⟨t, e, s', -, hstep, hcases⟩ := accept_step hT.cursor hok
  rintro ⟨s'', r, hstep', hcase⟩
  obtain ⟨rfl, rfl⟩ : s' = s'' ∧ e = r := by simpa using hstep.symm.trans hstep'
  obtain ⟨k, -, -, hfree, -⟩ | ⟨rfl, -, htab⟩ := hcases
  · rw [hfull] at hfree
    cases hfree
  · obtain ⟨h, -⟩ | ⟨-, hsame⟩ := hcase
    · cases h
    · have hslot : (s'.table.slot L).isActive = (s.connections L).isActive := by
        rw [← hsame]; rfl
      rw [htab, Table.release_slot, if_pos ⟨rfl, hrange⟩, hact] at hslot
      cases hslot

/-- **An accept is all-or-nothing exactly when there is a slot for the connection.** -/
theorem accept_atomic_iff {s : Server} (hs : Reachable cfg s) {L : ℤ} (hL : Listening cfg s L)
    {n : Ptr} (hok : Allowed cfg s (.happens (.tcpEvent n L .accept))) :
    AcceptAtomic cfg s n L ↔ HasFreeSlot cfg s := by
  have hT := hs.tableOk
  rw [hasFreeSlot_iff hT.cursor]
  constructor
  · intro hatomic
    cases hfree : s.table.freeSlot cfg with
    | some k => exact ⟨k, rfl⟩
    | none => exact absurd hatomic (not_acceptAtomic_of_full hT hL hok hfree)
  · rintro ⟨k, hfree⟩
    exact acceptAtomic_of_free hT hs.eventsOk.queueOk hL hok hfree

/-- A connection to the listener in slot 0 is accepted into slot 1. -/
theorem accept_atomic_second_slot : ∃ s, Reachable .small s ∧ Listening .small s 0 ∧
    Allowed .small s (.happens (.tcpEvent 12 0 .accept)) ∧ AcceptAtomic .small s 12 0 := by
  have hrun : ∃ tr s, RunsTo .small (fun _ _ => True) tr s ∧ Listening .small s 0 ∧
      Allowed .small s (.happens (.tcpEvent 12 0 .accept)) ∧
      (s.connections 1).isActive = false := by
    refine Run.exists_of_replay [.call 0 (.socket .tcp (some 10)),
      .call 0 (.listen 0 80 {} ⟨.ok, some 11⟩), .happens (.syn 11 12)] ?_
    decide
  obtain ⟨tr, s, hrun, hL, hok, hfree⟩ := hrun
  exact ⟨s, ⟨tr, hrun⟩, hL, hok, (accept_atomic_iff ⟨tr, hrun⟩ hL hok).mpr ⟨1, by decide, hfree⟩⟩

/-- With both slots taken, a connection to the listener in slot 0 is refused, and the
abort that follows releases the listener. -/
theorem refused_accept_frees_listener : ¬ ∀ s, Reachable .small s → Listening .small s 0 →
    Allowed .small s (.happens (.tcpEvent 12 0 .accept)) → AcceptAtomic .small s 12 0 := by
  intro hatomic
  have hrun : ∃ tr s, RunsTo .small (fun _ _ => True) tr s ∧ Listening .small s 0 ∧
      Allowed .small s (.happens (.tcpEvent 12 0 .accept)) ∧
      (step .small s (.happens (.tcpEvent 12 0 .accept))).toOption.any (fun q => decide
        (q.2 = .err .mem ∧ (s.connections 0).isActive = true ∧
          (q.1.connections 0).isActive = false)) = true := by
    refine Run.exists_of_replay [.call 0 (.socket .tcp (some 10)),
      .call 0 (.listen 0 80 {} ⟨.ok, some 11⟩), .call 1 (.socket .tcp (some 13)),
      .happens (.syn 11 12)] ?_
    decide
  obtain ⟨tr, s, hrun, hL, hok, hany⟩ := hrun
  obtain ⟨s', r, hstep, hcase⟩ := hatomic s ⟨tr, hrun⟩ hL hok
  rw [hstep] at hany
  obtain ⟨hr, hact, hinact⟩ := of_decide_eq_true hany
  have hr : Reply.err r = .err .mem := hr
  obtain ⟨rfl, -⟩ | ⟨-, hsame⟩ := hcase
  · cases hr
  · have hinact : (s'.connections 0).isActive = false := hinact
    rw [hsame, hact] at hinact
    cases hinact

end Xtcp
