import Xtcp.Environment

/-!
# Events and notifications

What any environment does to the event queues: a callback queues one event, with its own index
and for the owner of that slot; an accept queues one with the slot that it assigns; DNS results
and link events have no connection; and the clients take events out.

A slot that has been released has no owner with a queue and no protocol, so no callback that
still comes with its index can queue anything.  And the flag that tells a client about its events
is raised together with every event and, after `get_event` has cleared it, again while events are
left.

## Main definitions

* `FeedQueues` — what one input does to the queues.
* `ClientEvent.concerns` — the events of a connection.
* `ReadyOk` — clients with events have been notified.

## Main results

* `feedQueues` — every input does one of these things.
* `silent_after_close` — **no event of a closed slot is queued** until it is assigned again.
* `event_ready_of_pending` — **no wake-up is lost**.
-/

namespace Xtcp

open Runs

variable {cfg : Config} {s s' : Server} {q : ClientQueue}

/-! ### What is queued -/

/-- What one input can do to the queues. -/
inductive FeedQueues (cfg : Config) (s : Server) : Input → ClientQueue → Prop
  /-- Nothing. -/
  | quiet {x : Input} : FeedQueues cfg s x s.queue
  /-- What a client's call does. -/
  | call {i : ℕ} {call : Call} {q : ClientQueue} : CallQueues cfg s i call q →
      FeedQueues cfg s (.call i call) q
  /-- A callback queues an event with its index, for the owner of that slot. -/
  | event {x : Input} {arg : ℤ} {e : EventType} : e.connectionless = false →
      FeedQueues cfg s x (enqueueEventAndNotify cfg s.queue (getClientInfo cfg s arg) arg e).1
  /-- An accept queues an event with the slot it has assigned. -/
  | accepted {x : Input} {c : ℕ} {k : ℤ} : x.assigns cfg s = some k →
      FeedQueues cfg s x (enqueueEventAndNotify cfg s.queue c k .accepted).1
  /-- The result of a DNS request. -/
  | dns {x : Input} {c : ℕ} {id : ℤ} : id ≤ 0 →
      FeedQueues cfg s x (enqueueEventAndNotify cfg s.queue c id .dnsResult).1
  /-- A link event goes to every client. -/
  | link {x : Input} {e : EventType} : e.connectionless = true →
      FeedQueues cfg s x (enqueueAll cfg s.queue e)

theorem FeedQueues.of_queues {x : Input} {arg : ℤ} {q : ClientQueue}
    (h : Queues cfg (getClientInfo cfg s arg) arg s.queue q) : FeedQueues cfg s x q := by
  obtain rfl | ⟨e, he, rfl⟩ := h
  · exact .quiet
  · exact .event he

/-- What `LWIP_EVENT_ACCEPT` queues. -/
theorem feedQueues_accept (hcur : s.table.CursorOk cfg) {arg : ℤ} {n p : Option Ptr}
    {err result : Err} (h : lwipTcpEvent cfg s arg n .accept p err = .ok (s', result)) :
    FeedQueues cfg s (.tcpEvent arg n .accept p err) s'.queue := by
  by_cases hslot : AcceptFindsSlot cfg s arg n err
  · obtain ⟨n', rfl, harg, hproto, rfl, k, hfree⟩ := hslot
    rw [(accept_enqueue hcur harg hproto hfree h).1]
    have hassigns : Input.assigns cfg s (.tcpEvent arg (some n') .accept p .ok)
        = s.table.freeSlot cfg := if_pos ⟨harg, hproto, rfl⟩
    exact .accepted (hassigns.trans hfree)
  · rw [queue_accept_of_none hcur hslot h]
    exact .quiet

/-- **What an input does to the queues.** -/
theorem feedQueues (hcur : s.table.CursorOk cfg) {x : Input} {r : Reply}
    (h : feed cfg s x = .ok (s', r)) : FeedQueues cfg s x s'.queue := by
  cases x with
  | call i call => exact .call (callQueues h)
  | tcpEvent arg pcb e p err =>
    obtain ⟨⟨t, result⟩, ht, h⟩ := bind_eq_ok.mp h
    cases h
    by_cases he : e = .accept
    · subst he
      exact feedQueues_accept hcur ht
    · exact .of_queues (queues_lwipTcpEvent he ht)
  | udpRecv arg upcb p addr port =>
    obtain ⟨t, ht, h⟩ := bind_eq_ok.mp h
    cases h
    exact .of_queues (queues_xtcpUdpRecv ht)
  | dnsFound hasName ipaddr callbackArg =>
    cases h
    exact .dns (ErrorCode.toInt_nonpos _)
  | linkStatus up =>
    simp only [feed, stepHappening] at h
    split at h
    · cases h; exact .quiet
    · cases h
      rw [queue_notifyAll]
      exact .link rfl
  | timeout timer hasIpAddress ifState =>
    simp only [feed, stepHappening] at h
    split at h
    · cases h
      rw [queue_notifyAll]
      exact .link rfl
    · cases h; exact .quiet
  | lwip l => cases h; exact .quiet

theorem FeedQueues.eventsOk {x : Input} {q : ClientQueue} (h : FeedQueues cfg s x q)
    (hq : EventsOk cfg s.queue) : EventsOk cfg q := by
  cases h with
  | quiet => exact hq
  | call hcall => exact hcall.eventsOk hq
  | event he => exact hq.enqueue _ fun hc => absurd hc (by rw [he]; decide)
  | accepted => exact hq.enqueue _ fun hc => nomatch hc
  | dns hid => exact hq.enqueue _ fun _ => hid
  | link => exact enqueueAll_invariant (fun q i hok => hok.enqueue i fun _ => le_rfl) hq

theorem Fed.eventsOk {tr : List (Input × Reply)} (hrun : Fed cfg tr s) : EventsOk cfg s.queue := by
  have hinv : TableOk cfg s.table ∧ EventsOk cfg s.queue := by
    refine Run.invariant (I := fun s => TableOk cfg s.table ∧ EventsOk cfg s.queue) hrun
      ⟨tableOk_init, eventsOk_init⟩ ?_
    intro s x s' r hI hx h
    exact ⟨(slotStep hI.1 hx h).tableOk hI.1, (feedQueues hI.1.cursor h).eventsOk hI.2⟩
  exact hinv.2

/-! ### After a close -/

/-- An event of connection `k`. -/
def ClientEvent.concerns (k : ℤ) (e : ClientEvent) : Bool :=
  !e.xtcpEvent.connectionless && decide (e.id = k)

/-- A client's call adds no event. -/
theorem CallQueues.sublist {i : ℕ} {call : Call} (h : CallQueues cfg s i call q)
    (hq : EventsOk cfg s.queue) (d : ℕ) : (contents cfg q d).Sublist (contents cfg s.queue d) := by
  cases h with
  | quiet => exact .refl _
  | getEvent =>
    obtain ⟨-, -, hc⟩ | ⟨x, l, hx, -, hc⟩ := contents_getEvent hq i
    · rw [hc]
    · rw [hc]
      split
      · next hd => rw [hd, hx]; exact List.sublist_cons_self x l
      · exact .refl _
  | close =>
    rw [contents_free_all hq]
    split
    · next hd => rw [hd]; exact List.filter_sublist
    · exact .refl _

/-- **A slot that has been released gets no events**: its owner has no queue and its protocol is
none. -/
theorem FeedQueues.silent {x : Input} (h : FeedQueues cfg s x q) (hq : EventsOk cfg s.queue)
    {k : ℤ} (hk : cfg.InRange k) (hrel : s.table.slot k = .released)
    (hx : x.assigns cfg s ≠ some k) (d : ℕ) :
    ((contents cfg q d).filter (ClientEvent.concerns k)).Sublist
      ((contents cfg s.queue d).filter (ClientEvent.concerns k)) := by
  cases h with
  | quiet => exact .refl _
  | call hcall => exact (hcall.sublist hq d).filter _
  | @event _ arg e he =>
    by_cases harg : arg = k
    · subst harg
      have hclient : getClientInfo cfg s arg = deinit := by
        rw [getClientInfo, if_pos hk]
        exact congrArg Slot.clientNum hrel
      have hle := cfg.clients_le
      have hlt : ¬ getClientInfo cfg s arg < cfg.maxXtcpClients := by rw [hclient]; omega
      rw [enqueue_of_not_lt hlt]
    · rw [filter_enqueue hq.queueOk (by simp [ClientEvent.concerns, harg])]
  | @accepted _ c j hassigns =>
    have hj : j ≠ k := by
      rintro rfl
      exact hx hassigns
    rw [filter_enqueue hq.queueOk (by simp [ClientEvent.concerns, hj])]
  | dns => rw [filter_enqueue hq.queueOk rfl]
  | @link _ e he =>
    have hall : QueueOk cfg (enqueueAll cfg s.queue e) ∧
        (contents cfg (enqueueAll cfg s.queue e) d).filter (ClientEvent.concerns k)
          = (contents cfg s.queue d).filter (ClientEvent.concerns k) := by
      refine enqueueAll_invariant (I := fun q => QueueOk cfg q ∧
        (contents cfg q d).filter (ClientEvent.concerns k) = _) ?_ ⟨hq.queueOk, rfl⟩
      intro q i hI
      refine ⟨queueOk_enqueue hI.1 i 0 e, ?_⟩
      rw [filter_enqueue hI.1 (by simp [ClientEvent.concerns, he])]
      exact hI.2
    rw [hall.2]

/-- A released slot stays released until it is assigned. -/
theorem SlotStep.released_of_not_assigned {x : Input} (h : SlotStep cfg s s' x) {k : ℤ}
    (hrel : s.table.slot k = .released) (hx : x.assigns cfg s ≠ some k) :
    s'.table.slot k = .released := by
  cases h with
  | keeps hslot => rw [hslot]; exact hrel
  | @assigned j c protocol pcb hassigns hfree hc hfit hslot =>
    have hkj : k ≠ j := by
      rintro rfl
      exact hx hassigns
    rw [hslot, Table.setSlot_slot, if_neg hkj]
    exact hrel
  | released hslot =>
    rw [hslot, Table.release_slot]
    split
    · rfl
    · exact hrel
  | @stored i j p hi hown hproto hslot =>
    have hkj : k ≠ j := by
      rintro rfl
      rw [hrel] at hproto
      cases hproto
    rw [hslot, Table.store_slot, if_neg hkj]
    exact hrel
  | @clientData i j data hi hown hslot =>
    have hkj : k ≠ j := by
      rintro rfl
      have hc := hown.2
      rw [hrel] at hc
      have hle := cfg.nXtcp_le
      simp only [Slot.released] at hc
      omega
    rw [hslot, Table.setSlot_slot, if_neg hkj]
    exact hrel

/-- What may come while slot `k` is not assigned again. -/
def WhileFree (cfg : Config) (k : ℤ) (s : Server) (x : Input) : Prop :=
  x.FromClients cfg ∧ x.assigns cfg s ≠ some k

instance (k : ℤ) (x : Input) : Decidable (WhileFree cfg k s x) := inferInstanceAs (Decidable (_ ∧
  _))

/-- What a slot that has been released is like in any continuation in which it is not assigned. -/
theorem released_of_run {k : ℤ} {tr : List (Input × Reply)} (hT : TableOk cfg s.table)
    (hq : EventsOk cfg s.queue) (hrel : s.table.slot k = .released)
    (hrun : Run (feed cfg) (WhileFree cfg k) s tr s') :
    TableOk cfg s'.table ∧ EventsOk cfg s'.queue ∧ s'.table.slot k = .released := by
  refine Run.invariant (I := fun t => TableOk cfg t.table ∧ EventsOk cfg t.queue ∧
    t.table.slot k = .released) hrun ⟨hT, hq, hrel⟩ ?_
  rintro t x t' r ⟨hT, hq, hrel⟩ ⟨hclients, hx⟩ h
  have hstep := slotStep hT hclients h
  exact ⟨hstep.tableOk hT, (feedQueues hT.cursor h).eventsOk hq,
    hstep.released_of_not_assigned hrel hx⟩

/-- **Silence after a close.**  Closing a socket leaves no event with its id in the client's
queue; and until the slot is assigned again, whatever the clients and lwIP do, the slot is not
active and no event of that connection is added to any queue. -/
theorem silent_after_close {tr₀ : List (Input × Reply)} {s s' : Server} (hfed : Fed cfg tr₀ s)
    {c : ℕ} {id : ℤ} (hown : s.table.OwnedBy cfg c id) {lingers : Bool}
    (hclose : shimCloseSocket cfg s c id lingers = .ok s') :
    (∀ e ∈ contents cfg s'.queue c, e.id ≠ id) ∧
    ∀ tr t, Run (feed cfg) (WhileFree cfg id) s' tr t →
      (t.connections id).isActive = false ∧
      ∀ x t' r, WhileFree cfg id t x → feed cfg t x = .ok (t', r) → ∀ d,
        ((contents cfg t'.queue d).filter (ClientEvent.concerns id)).Sublist
          ((contents cfg t.queue d).filter (ClientEvent.concerns id)) := by
  have hT := hfed.tableOk
  have hq := hfed.eventsOk
  have hrel : s'.table.slot id = .released := by
    have hfind : (findClientConnection cfg s c id).status = .success := find_success_iff.mpr hown
    simp only [shimCloseSocket, hfind, ne_eq, not_true_eq_false, if_false] at hclose
    obtain ⟨u, -, hclose⟩ := bind_eq_ok.mp hclose
    cases hclose
    rw [table_freeClientConnection, Table.release_slot, if_pos ⟨rfl, hown.1⟩]
  have hT' : TableOk cfg s'.table := (SlotStep.close (x := .linkStatus true) hclose).tableOk hT
  have hq' : EventsOk cfg s'.queue := by
    rw [queue_close hown hclose]
    exact hq.free c id
  refine ⟨fun e he => ?_, fun tr t hrun => ?_⟩
  · rw [contents_close hq hown hclose, if_pos rfl, List.mem_filter] at he
    exact ClientEvent.notFor_eq_true.mp he.2
  · obtain ⟨hTt, hqt, hrelt⟩ := released_of_run hT' hq' hrel hrun
    refine ⟨congrArg Slot.isActive hrelt, fun x t' r hx h d => ?_⟩
    exact (feedQueues hTt.cursor h).silent hqt hown.1 hrelt hx.2 d

/-- Client 0 closes a socket that has an event pending; the connection then still reports data,
and an error. -/
theorem silent_after_close_late_error : ∃ tr₀ s s', Fed .small tr₀ s ∧
    contents .small s.queue 0 = [⟨.newConnection, 0⟩] ∧
    shimCloseSocket .small s 0 0 true = .ok s' ∧ (s'.connections 0).isActive = false ∧
    (∀ e ∈ contents .small s'.queue 0, e.id ≠ 0) ∧
    ∀ e, e ≠ LwipEvent.accept → ∀ err t r,
      feed .small s' (.tcpEvent 0 (some 10) e none err) = .ok (t, r) → ∀ d,
        ((contents .small t.queue d).filter (ClientEvent.concerns 0)).Sublist
          ((contents .small s'.queue d).filter (ClientEvent.concerns 0)) := by
  have hrun : ∃ tr s, Fed .small tr s ∧ contents .small s.queue 0 = [⟨.newConnection, 0⟩] ∧
      (Config.small.InRange 0 ∧ (s.connections 0).clientNum = 0) ∧
      (shimCloseSocket .small s 0 0 true).toOption.isSome = true := by
    refine Run.exists_of_replay
      [.call 0 (.socket .tcp (some 10)), .tcpEvent 0 (some 10) .connected none .ok] ?_
    decide
  obtain ⟨tr, s, hrun, hpending, hown, hsome⟩ := hrun
  cases hclose : shimCloseSocket .small s 0 0 true with
  | error e => rw [hclose] at hsome; cases hsome
  | ok s' =>
    obtain ⟨hnone, hlater⟩ := silent_after_close hrun hown hclose
    obtain ⟨hinactive, hsilent⟩ := hlater [] s' .nil
    refine ⟨tr, s, s', hrun, hpending, hclose, hinactive, hnone, ?_⟩
    intro e he err t r hfeed d
    have hfree : WhileFree .small 0 s' (.tcpEvent 0 (some 10) e none err) := by
      refine ⟨trivial, ?_⟩
      cases e with
      | accept => exact absurd rfl he
      | _ => simp [Input.assigns]
    exact hsilent _ t r hfree hfeed d

/-! ### Wake-ups -/

/-- Every client with events has been notified. -/
def ReadyOk (cfg : Config) (q : ClientQueue) : Prop :=
  ∀ c, c < cfg.nXtcp → contents cfg q c ≠ [] → q.eventReady c = true

namespace ReadyOk

/-- `client_intf_notify` raises one flag. -/
theorem eventReady_notify {c d : ℕ} (hd : d < cfg.nXtcp) :
    (clientIntfNotify cfg q c).eventReady d = if d = c then true else q.eventReady d := by
  unfold clientIntfNotify
  rw [if_pos (by omega)]
  exact Function.update_apply _ _ _ _

theorem enqueue (h : ReadyOk cfg q) (hq : QueueOk cfg q) (c : ℕ) (id : ℤ) (e : EventType) :
    ReadyOk cfg (enqueueEventAndNotify cfg q c id e).1 := by
  by_cases hsucc : (enqueueEventAndNotify cfg q c id e).2 = .success
  · intro d hd hne
    rw [contents_enqueue hq hsucc] at hne
    have hroom := (enqueue_success_iff hq).mp hsucc
    have hnum : q.clientNumEvents c < cfg.clientQueueSize := by
      have hlen := length_contents hq c
      omega
    simp only [enqueueEventAndNotify, hroom.1, hnum, if_true]
    rw [eventReady_notify hd]
    split
    · rfl
    · next hdc =>
      rw [if_neg hdc] at hne
      exact h d hd hne
  · rw [enqueue_of_ne_success hsucc]
    exact h

/-- `get_event` clears the flag of its client, and raises it again while events are left. -/
theorem getEvent (h : ReadyOk cfg s.queue) (hq : EventsOk cfg s.queue) (i : ℕ) :
    ReadyOk cfg (getEvent cfg s i).1.queue := by
  intro d hd hne
  by_cases hdi : d = i
  · subst hdi
    -- the events that are left are what `renotify` asks for
    have hdeq := ((eventsOk_clear hq d).dequeue d)
    simp only [Xtcp.getEvent, contents_renotify] at hne ⊢
    have hd' : d < cfg.maxXtcpClients := by
      by_contra hlt
      exact hne (hdeq.contents_eq_nil d hlt)
    have hlen := length_contents hdeq.queueOk d
    have hpos := List.length_pos_iff.mpr hne
    unfold renotify
    rw [if_pos ⟨hd', by omega⟩, eventReady_notify hd, if_pos rfl]
  · -- the flag and the events of the others are untouched
    have hflag : (Xtcp.getEvent cfg s i).1.queue.eventReady d = s.queue.eventReady d := by
      have hclear : Function.update s.queue.eventReady i false d = s.queue.eventReady d :=
        Function.update_of_ne hdi _ _
      rw [← hclear]
      simp only [Xtcp.getEvent, renotify]
      split
      · rw [eventReady_notify hd, if_neg hdi]
        unfold dequeueEvent
        split <;> rfl
      · unfold dequeueEvent
        split <;> rfl
    have hcont : contents cfg (Xtcp.getEvent cfg s i).1.queue d = contents cfg s.queue d := by
      obtain ⟨-, -, hc⟩ | ⟨x, l, -, -, hc⟩ := contents_getEvent hq i
      · exact hc d
      · rw [hc, if_neg hdi]
    rw [hflag]
    rw [hcont] at hne
    exact h d hd hne

/-- A purge takes events away and lowers no flag. -/
theorem free (h : ReadyOk cfg q) (hq : QueueOk cfg q) (c : ℕ) (id : ℤ) :
    ReadyOk cfg (freeNotificationsOnQueue cfg q c id).1 := by
  by_cases hc : c < cfg.maxXtcpClients
  · intro d hd hne
    obtain ⟨st, heq, hfreed⟩ := freed_free hq hc id
    rw [heq, hfreed.ready]
    refine h d hd fun hnil => hne ?_
    rw [contents_free hq hc]
    split
    · next hdc => subst hdc; rw [hnil, List.filter_nil]
    · exact hnil
  · rw [freeNotificationsOnQueue, if_neg hc]
    exact h

theorem feed (h : ReadyOk cfg s.queue) (hq : EventsOk cfg s.queue) {x : Input}
    (hx : FeedQueues cfg s x q) : ReadyOk cfg q := by
  cases hx with
  | quiet => exact h
  | call hcall =>
    cases hcall with
    | quiet => exact h
    | getEvent => exact h.getEvent hq _
    | close => exact h.free hq.queueOk _ _
  | event => exact h.enqueue hq.queueOk _ _ _
  | accepted => exact h.enqueue hq.queueOk _ _ _
  | dns => exact h.enqueue hq.queueOk _ _ _
  | @link _ e =>
    have hall : QueueOk cfg (enqueueAll cfg s.queue e) ∧
        ReadyOk cfg (enqueueAll cfg s.queue e) := by
      refine enqueueAll_invariant (I := fun q => QueueOk cfg q ∧ ReadyOk cfg q) ?_ ⟨hq.queueOk, h⟩
      exact fun q i hI => ⟨queueOk_enqueue hI.1 i 0 e, hI.2.enqueue hI.1 i 0 e⟩
    exact hall.2

end ReadyOk

/-- **No wake-up is lost**: between two steps of the server, a client with events in its queue
has its notification pending. -/
theorem event_ready_of_pending {tr : List (Input × Reply)} (hfed : Fed cfg tr s) {c : ℕ}
    (hc : c < cfg.nXtcp) (hne : contents cfg s.queue c ≠ []) : s.queue.eventReady c = true := by
  have hinv : (TableOk cfg s.table ∧ EventsOk cfg s.queue) ∧ ReadyOk cfg s.queue := by
    refine Run.invariant (I := fun s => (TableOk cfg s.table ∧ EventsOk cfg s.queue) ∧
      ReadyOk cfg s.queue) hfed ⟨⟨tableOk_init, eventsOk_init⟩, ?_⟩ ?_
    · intro c _ hne
      exact absurd (by simp [init, initClientConnections]) hne
    · rintro s x s' r ⟨⟨hT, hq⟩, hready⟩ hx h
      have hqueues := feedQueues hT.cursor h
      exact ⟨⟨(slotStep hT hx h).tableOk hT, hqueues.eventsOk hq⟩, hready.feed hq hqueues⟩
  exact hinv.2 c hc hne

/-- Client 0 has taken a first event, and a second one is left. -/
theorem event_ready_of_pending_second : ∃ tr s, Fed .roomy tr s ∧
    contents .roomy s.queue 0 = [⟨.ifdown, 0⟩] ∧ s.queue.eventReady 0 = true := by
  have hrun : ∃ tr s, Fed .roomy tr s ∧ contents .roomy s.queue 0 = [⟨.ifdown, 0⟩] := by
    refine Run.exists_of_replay [.linkStatus false, .linkStatus false, .call 0 .getEvent] ?_
    decide
  obtain ⟨tr, s, hrun, hcontents⟩ := hrun
  exact ⟨tr, s, hrun, hcontents,
    event_ready_of_pending hrun (by decide) (by rw [hcontents]; simp)⟩

end Xtcp
