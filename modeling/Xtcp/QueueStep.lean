import Xtcp.Accept

/-!
# What a step does to the queues

The steps that queue events and those that take them away, each with the event, the client and
the id.  An accept is the one step with several outcomes: the event is queued with the slot that
has been assigned; or it cannot be queued, and then the error with which lwIP aborts the
connection finds no room either; or there is no slot, and the error is reported for the slot the
connection was to be accepted on.

## Main definitions

* `QueueStep` — what one step does to the queues.
* `receivedBy`, `heard` — the events a client has been given, and those it will be given.

## Main results

* `queueStep` — **every step does one of these things**.
* `heard_getEvent` — nothing is lost and nothing is made up between a queue and its client.
-/

namespace Xtcp

open Runs

variable {cfg : Config} {s s' : Server}

/-- What happens without a word to any client. -/
def Happening.quiet (s : Server) : Happening → Prop
  | .syn _ _ | .reap _ | .dropRefused _ => True
  | .linkStatus up => up = true
  | .timeout timer hasIpAddress ifState =>
    ¬ (timer = 0 ∧ hasIpAddress ∧ s.netifNotifyState = false ∧ ifState)
  | .tcpEvent _ _ _ | .udpRecv _ _ _ _ _ | .dnsFound _ _ _ => False

/-- What one step can do to the queues. -/
inductive QueueStep (cfg : Config) (s : Server) : Action → Reply → ClientQueue → Prop
  /-- A call that has nothing to do with the queues. -/
  | call {i : ℕ} {call : Call} {r : Reply} : call ≠ .getEvent →
      (∀ k lingers, call.closes k lingers → ¬ s.table.OwnedBy cfg i k) →
      QueueStep cfg s (.call i call) r s.queue
  /-- `get_event` -/
  | getEvent {i : ℕ} :
      QueueStep cfg s (.call i .getEvent) (getEvent cfg s i).2 (getEvent cfg s i).1.queue
  /-- `close` and `abort` of a socket of the client. -/
  | close {i : ℕ} {call : Call} {k : ℤ} {lingers : Bool} {r : Reply} : call.closes k lingers →
      s.table.OwnedBy cfg i k →
      QueueStep cfg s (.call i call) r (freeNotificationsOnQueue cfg s.queue i k).1
  /-- A callback other than an accept. -/
  | callback {p : Ptr} {arg : ℤ} {callback : TcpCallback} {r : Reply} : callback ≠ .accept →
      QueueStep cfg s (.happens (.tcpEvent p arg callback)) r
        (enqueueSome cfg s.queue (getClientInfo cfg s arg) arg callback.queued)
  /-- A connection is accepted. -/
  | accepted {n : Ptr} {arg k : ℤ} : cfg.InRange arg → (s.connections arg).protocol = .tcp →
      s.table.freeSlot cfg = some k → HasRoom cfg s.queue (s.connections arg).clientNum →
      QueueStep cfg s (.happens (.tcpEvent n arg .accept)) (.err .ok)
        (enqueueEventAndNotify cfg s.queue (s.connections arg).clientNum k .accepted).1
  /-- A connection gets a slot, and there is no room for its event. -/
  | acceptAborted {n : Ptr} {arg : ℤ} : ¬ HasRoom cfg s.queue (s.connections arg).clientNum →
      QueueStep cfg s (.happens (.tcpEvent n arg .accept)) (.err .inprogress) s.queue
  /-- A connection gets no slot. -/
  | acceptRefused {n : Ptr} {arg : ℤ} :
      QueueStep cfg s (.happens (.tcpEvent n arg .accept)) (.err .mem)
        (enqueueEventAndNotify cfg s.queue (getClientInfo cfg s arg) arg .aborted).1
  /-- A datagram. -/
  | udpRecv {p : Ptr} {arg : ℤ} {cells : List (Ptr × Pbuf)} {addr : Option IpAddr}
      {port : UInt16} {r : Reply} :
      QueueStep cfg s (.happens (.udpRecv p arg cells addr port)) r
        (enqueueSome cfg s.queue (getClientInfo cfg s arg) arg
          ((deliveredHead cells).map fun _ => udpRecvEvent s p))
  /-- The result of a DNS request. -/
  | dnsFound {hasName : Bool} {ipaddr : Option IpAddr} {arg : ℕ} {r : Reply} :
      QueueStep cfg s (.happens (.dnsFound hasName ipaddr arg)) r
        (enqueueEventAndNotify cfg s.queue arg (dnsResult cfg arg hasName ipaddr).toInt
          .dnsResult).1
  /-- The link is down. -/
  | linkDown {r : Reply} :
      QueueStep cfg s (.happens (.linkStatus false)) r (enqueueAll cfg s.queue .ifdown)
  /-- The interface has come up. -/
  | ifup {timer : ℕ} {hasIpAddress ifState : Bool} {r : Reply} :
      timer = 0 ∧ hasIpAddress ∧ s.netifNotifyState = false ∧ ifState →
      QueueStep cfg s (.happens (.timeout timer hasIpAddress ifState)) r
        (enqueueAll cfg s.queue .ifup)
  /-- Anything else. -/
  | quiet {h : Happening} {r : Reply} : h.quiet s → QueueStep cfg s (.happens h) r s.queue

/-- Without room, nothing is queued. -/
theorem enqueue_of_not_room {q : ClientQueue} (hq : QueueOk cfg q) {c : ℕ}
    (h : ¬ HasRoom cfg q c) (id : ℤ) (e : EventType) :
    (enqueueEventAndNotify cfg q c id e).1 = q := by
  refine enqueue_of_ne_success fun hsucc => h ?_
  exact (enqueue_success_iff hq).mp hsucc

/-- The abort of a connection that was not accepted is an error for the slot whose number its
control block has by now. -/
theorem queue_abortAccepted {n : Ptr} {route : Route} (hn : s.table.tcp n = some route)
    (h : abortAccepted cfg s n = .ok s') :
    s'.queue = (enqueueEventAndNotify cfg s.queue (getClientInfo cfg s route.arg) route.arg
      .aborted).1 := by
  simp only [Server.table, Option.map_eq_some_iff] at hn
  obtain ⟨b, hb, rfl⟩ := hn
  simp only [abortAccepted, hb] at h
  obtain ⟨⟨t, e⟩, ht, h⟩ := bind_eq_ok.mp h
  cases h
  exact queue_lwipTcpEvent (by decide) ht

/-- The outcomes of an accept. -/
theorem queueStep_accept (hT : TableOk cfg s.table) (hq : QueueOk cfg s.queue) {n : Ptr} {arg : ℤ}
    (hok : HappeningAllowed s (.tcpEvent n arg .accept)) {r : Reply}
    (h : stepTcp cfg s n arg .accept = .ok (s', r)) :
    QueueStep cfg s (.happens (.tcpEvent n arg .accept)) r s'.queue := by
  obtain ⟨l, hn⟩ := synRcvd_of_accept hok
  -- the state in which lwIP makes the callback
  obtain ⟨u, hu⟩ : ∃ u, u = s.modifyTcp n fun b => { b with status := .active } := ⟨_, rfl⟩
  have hutab : u.table = s.table.setTcp n (some ⟨arg, .active⟩) := by
    rw [hu, table_setStatus s n fun _ => rfl, hn]
    rfl
  have huqueue : u.queue = s.queue := by rw [hu]; rfl
  have huconn : u.connections = s.connections := by rw [hu]; rfl
  have hucur : u.table.CursorOk cfg := by rw [hutab]; exact hT.cursor
  have hufree : u.table.freeSlot cfg = s.table.freeSlot cfg := by rw [hutab]; rfl
  obtain ⟨⟨t, e⟩, ht, h⟩ := bind_eq_ok.mp h
  rw [← hu] at ht
  obtain ⟨t', e', ht', hcases⟩ := accept_cases hucur arg
    (show u.table.tcp n = some ⟨arg, .active⟩ by rw [hutab]; simp [Table.setTcp])
  obtain ⟨rfl, rfl⟩ : t' = t ∧ e' = e := by simpa using ht'.symm.trans ht
  dsimp only at h
  obtain ⟨k, harg, hproto, hfree, -, htab⟩ | ⟨rfl, hnone, htab⟩ := hcases
  · have hproto : (u.connections arg).protocol = .tcp := hproto
    obtain ⟨hqueue, he⟩ := accept_enqueue hucur harg hproto hfree ht
    rw [huqueue, huconn] at hqueue he
    rw [huconn] at hproto
    by_cases hr : HasRoom cfg s.queue (s.connections arg).clientNum
    · have hsucc := enqueue_success hq hr.1 hr.2 k .accepted
      rw [if_neg (not_not.mpr hsucc)] at he
      rw [he, if_pos (.inl rfl)] at h
      cases h
      rw [hqueue]
      exact .accepted harg hproto (hufree.symm.trans hfree) hr
    · have hfail : (enqueueEventAndNotify cfg s.queue (s.connections arg).clientNum k
          .accepted).2 ≠ .success := fun hsucc => hr ((enqueue_success_iff hq).mp hsucc)
      rw [if_pos hfail] at he
      rw [he, if_neg (by decide)] at h
      obtain ⟨v, hv, h⟩ := bind_eq_ok.mp h
      cases h
      -- the error is for the new slot, whose owner has no room for it either
      have hk := (Table.freeSlot_some hucur hfree).1
      have hroute : t'.table.tcp n = some ⟨k, .active⟩ := by rw [htab]; simp [Table.setTcp]
      have howner : getClientInfo cfg t' k = (s.connections arg).clientNum := by
        rw [getClientInfo, if_pos hk, ← huconn]
        have hslot : (t'.table.slot k).clientNum = (u.connections arg).clientNum := by
          rw [htab, Table.setTcp_slot, Table.store_slot, if_pos rfl, Table.assign_slot, if_pos rfl]
          rfl
        exact hslot
      have hsame : s'.queue = s.queue := by
        rw [queue_abortAccepted hroute hv, howner, hqueue, enqueue_of_not_room hq hr,
          enqueue_of_not_room hq hr]
      rw [hsame]
      exact .acceptAborted hr
  · rw [if_neg (by decide)] at h
    obtain ⟨v, hv, h⟩ := bind_eq_ok.mp h
    cases h
    have hroute : t'.table.tcp n = some ⟨arg, .active⟩ := by
      rw [htab, hutab]
      simp [Table.setTcp]
    have hqueue : t'.queue = s.queue := by
      rw [← huqueue]
      refine queue_accept_of_none hucur ?_ ht
      rintro ⟨n', -, harg, hproto, -, k, hfree⟩
      rw [hnone harg hproto] at hfree
      cases hfree
    have howner : getClientInfo cfg t' arg = getClientInfo cfg s arg := by
      have hslot : (t'.connections arg).clientNum = (s.connections arg).clientNum := by
        rw [← huconn]
        exact congrArg (fun T => (T.slot arg).clientNum) htab
      rw [getClientInfo, getClientInfo, hslot]
    rw [queue_abortAccepted hroute hv, hqueue, howner]
    exact .acceptRefused

/-- **What a step does to the queues.** -/
theorem queueStep (hT : TableOk cfg s.table) (hq : QueueOk cfg s.queue) {a : Action}
    (hok : Allowed cfg s a) {r : Reply} (h : step cfg s a = .ok (s', r)) :
    QueueStep cfg s a r s'.queue := by
  cases a with
  | call i call =>
    by_cases hget : call = .getEvent
    · subst hget
      cases h
      exact .getEvent
    · have hcall := callQueues h
      generalize s'.queue = q at hcall ⊢
      cases hcall with
      | quiet _ hcloses => exact .call hget hcloses
      | getEvent => exact absurd rfl hget
      | close hcloses hown => exact .close hcloses hown
  | happens happening =>
    have h : stepHappening cfg s happening = .ok (s', r) := h
    cases happening with
    | tcpEvent p arg callback =>
      by_cases hacc : callback = .accept
      · subst hacc
        exact queueStep_accept hT hq hok h
      · rw [queue_stepTcp hacc h]
        exact .callback hacc
    | udpRecv p arg cells addr port =>
      obtain ⟨t, ht, h⟩ := bind_eq_ok.mp h
      cases h
      rw [queue_xtcpUdpRecv ht]
      exact .udpRecv
    | dnsFound hasName ipaddr arg => cases h; exact .dnsFound
    | dropRefused p =>
      obtain ⟨m, -, h⟩ := bind_eq_ok.mp h
      cases h; exact .quiet trivial
    | linkStatus up =>
      cases up with
      | true => cases h; exact .quiet rfl
      | false =>
        cases h
        rw [queue_notifyAll]
        exact .linkDown
    | timeout timer hasIpAddress ifState =>
      simp only [stepHappening] at h
      split at h
      · next hcond =>
        cases h
        rw [queue_notifyAll]
        exact .ifup hcond
      · next hcond => cases h; exact .quiet hcond
    | syn | reap => cases h; exact .quiet trivial

/-! ### What happens adds to the queues -/

theorem prefix_enqueue {q : ClientQueue} (hq : QueueOk cfg q) (c : ℕ) (id : ℤ) (e : EventType)
    (d : ℕ) : contents cfg q d <+: contents cfg (enqueueEventAndNotify cfg q c id e).1 d := by
  by_cases hsucc : (enqueueEventAndNotify cfg q c id e).2 = .success
  · rw [contents_enqueue hq hsucc]
    split
    · next hd => subst hd; exact List.prefix_append _ _
    · exact List.prefix_rfl
  · rw [enqueue_of_ne_success hsucc]

theorem prefix_enqueueSome {q : ClientQueue} (hq : QueueOk cfg q) (c : ℕ) (id : ℤ)
    (o : Option EventType) (d : ℕ) : contents cfg q d <+: contents cfg (enqueueSome cfg q c id o)
      d := by
  cases o with
  | none => exact List.prefix_rfl
  | some e => exact prefix_enqueue hq c id e d

theorem prefix_enqueueAll {q : ClientQueue} (hq : QueueOk cfg q) (e : EventType) (d : ℕ) :
    contents cfg q d <+: contents cfg (enqueueAll cfg q e) d := by
  have hall : QueueOk cfg (enqueueAll cfg q e) ∧
      contents cfg q d <+: contents cfg (enqueueAll cfg q e) d := by
    refine enqueueAll_invariant (I := fun q' => QueueOk cfg q' ∧
      contents cfg q d <+: contents cfg q' d) ?_ ⟨hq, List.prefix_rfl⟩
    intro q' i hI
    exact ⟨queueOk_enqueue hI.1 i 0 e, hI.2.trans (prefix_enqueue hI.1 i 0 e d)⟩
  exact hall.2

/-- What happens takes no event away. -/
theorem QueueStep.extends {h : Happening} {r : Reply} {q : ClientQueue}
    (hstep : QueueStep cfg s (.happens h) r q) (hq : QueueOk cfg s.queue) (d : ℕ) :
    contents cfg s.queue d <+: contents cfg q d := by
  cases hstep with
  | callback => exact prefix_enqueueSome hq _ _ _ d
  | accepted => exact prefix_enqueue hq _ _ _ d
  | acceptAborted => exact List.prefix_rfl
  | acceptRefused => exact prefix_enqueue hq _ _ _ d
  | udpRecv => exact prefix_enqueueSome hq _ _ _ d
  | dnsFound => exact prefix_enqueue hq _ _ _ d
  | linkDown => exact prefix_enqueueAll hq _ d
  | ifup => exact prefix_enqueueAll hq _ d
  | quiet => exact List.prefix_rfl

/-- An event that is not of interest may be queued or not. -/
theorem filter_enqueueSome {q : ClientQueue} (hq : QueueOk cfg q) {P : ClientEvent → Bool} {c : ℕ}
    {id : ℤ} {o : Option EventType} (h : ∀ e ∈ o, P ⟨e, id⟩ = false) (d : ℕ) :
    (contents cfg (enqueueSome cfg q c id o) d).filter P = (contents cfg q d).filter P := by
  cases o with
  | none => rfl
  | some e => exact filter_enqueue hq (h e rfl) d

/-- Events that are not of interest are removed. -/
theorem filter_free {q : ClientQueue} (hq : EventsOk cfg q) {P : ClientEvent → Bool} {c i : ℕ}
    {k : ℤ} (h : i = c → ∀ e ∈ contents cfg q c, P e = true → e.id ≠ k) :
    (contents cfg (freeNotificationsOnQueue cfg q i k).1 c).filter P
      = (contents cfg q c).filter P := by
  rw [contents_free_all hq]
  split
  · next hci =>
    subst hci
    rw [List.filter_filter]
    refine List.filter_congr fun e he => ?_
    rw [Bool.and_eq_left_iff_imp, ClientEvent.notFor_eq_true]
    exact h rfl e he
  · rfl

/-! ### What a client hears -/

/-- The events that `get_event` has returned to client `c`, in their order. -/
def receivedBy (c : ℕ) (tr : List (Action × Reply)) : List ClientEvent :=
  tr.filterMap fun x => match x with
    | (.call i .getEvent, .event e) => if i = c then some e else none
    | _ => none

/-- The events that client `c` has received or has pending in its queue, in their order. -/
def heard (cfg : Config) (c : ℕ) (tr : List (Action × Reply)) (s : Server) : List ClientEvent :=
  receivedBy c tr ++ contents cfg s.queue c

/-- Only `get_event` gives events to a client. -/
theorem receivedBy_of_ne {c : ℕ} {a : Action} (h : a ≠ .call c .getEvent)
    (tr : List (Action × Reply)) (r : Reply) : receivedBy c (tr ++ [(a, r)]) = receivedBy c tr := by
  simp only [receivedBy, List.filterMap_append, List.filterMap_cons, List.filterMap_nil]
  split
  · exact List.append_nil _
  · next e he =>
    split at he
    · next i e' hx =>
      obtain ⟨rfl, -⟩ := Prod.mk.inj hx
      have hi : i ≠ c := fun hi => h (by rw [hi])
      rw [if_neg hi] at he
      cases he
    · cases he

theorem receivedBy_getEvent (c i : ℕ) (tr : List (Action × Reply)) (e : ClientEvent) :
    receivedBy c (tr ++ [(.call i .getEvent, .event e)])
      = if i = c then receivedBy c tr ++ [e] else receivedBy c tr := by
  simp only [receivedBy, List.filterMap_append, List.filterMap_cons, List.filterMap_nil]
  by_cases hi : i = c
  · rw [if_pos hi, if_pos hi]
  · rw [if_neg hi, if_neg hi, List.append_nil]

/-- **`get_event` takes an event from the queue to the client**, so that the events of interest
which the client hears of stay the same; the dummy event is none of them. -/
theorem heard_getEvent (hq : EventsOk cfg s.queue) {P : ClientEvent → Bool}
    (hP : P ⟨.none, -1⟩ = false) {i : ℕ} (h : s'.queue = (getEvent cfg s i).1.queue) (c : ℕ)
    (tr : List (Action × Reply)) :
    (heard cfg c (tr ++ [(.call i .getEvent, (getEvent cfg s i).2)]) s').filter P
      = (heard cfg c tr s).filter P := by
  unfold heard
  rw [h]
  obtain ⟨-, hreply, hsame⟩ | ⟨x, l, hx, hreply, htail⟩ := contents_getEvent hq i
  · rw [hreply, receivedBy_getEvent, hsame]
    split
    · simp [hP]
    · rfl
  · rw [hreply, receivedBy_getEvent, htail]
    by_cases hi : i = c
    · subst hi
      rw [if_pos rfl, if_pos rfl, hx, List.append_assoc, List.singleton_append]
    · rw [if_neg hi, if_neg (Ne.symm hi)]

/-- A step that gives client `c` nothing, and leaves the events of interest in its queue. -/
theorem heard_of_filter {c : ℕ} {a : Action} (ha : a ≠ .call c .getEvent) {P : ClientEvent → Bool}
    (h : (contents cfg s'.queue c).filter P = (contents cfg s.queue c).filter P)
    (tr : List (Action × Reply)) (r : Reply) :
    (heard cfg c (tr ++ [(a, r)]) s').filter P = (heard cfg c tr s).filter P := by
  rw [heard, heard, receivedBy_of_ne ha, List.filter_append, List.filter_append, h]

/-- **The events of interest that a client hears of only become more**, unless it closes a socket
under whose number one of them is pending. -/
theorem QueueStep.heard_extends {a : Action} {r : Reply} (hstep : QueueStep cfg s a r s'.queue)
    (hq : EventsOk cfg s.queue) {P : ClientEvent → Bool} (hP : P ⟨.none, -1⟩ = false) {c : ℕ}
    (hkeep : ∀ call k lingers, a = .call c call → call.closes k lingers →
      s.table.OwnedBy cfg c k → ∀ e ∈ contents cfg s.queue c, P e = true → e.id ≠ k)
    (tr : List (Action × Reply)) :
    (heard cfg c tr s).filter P <+: (heard cfg c (tr ++ [(a, r)]) s').filter P := by
  cases a with
  | happens h =>
    have hne : Action.happens h ≠ .call c .getEvent := (nomatch ·)
    rw [heard, heard, receivedBy_of_ne hne, List.filter_append, List.filter_append]
    exact (List.prefix_append_right_inj _).mpr ((hstep.extends hq.queueOk c).filter P)
  | call i call =>
    generalize hq' : s'.queue = q' at hstep
    cases hstep with
    | call hget _ =>
      have hne : Action.call i call ≠ .call c .getEvent := by
        rintro ⟨⟩
        exact hget rfl
      have hsame : (contents cfg s'.queue c).filter P = (contents cfg s.queue c).filter P := by
        rw [hq']
      rw [heard_of_filter hne hsame]
    | getEvent => rw [heard_getEvent hq hP hq']
    | @close _ _ k lingers _ hcloses hown =>
      have hne : Action.call i call ≠ .call c .getEvent := by
        rintro ⟨⟩
        exact hcloses
      have hfree : (contents cfg s'.queue c).filter P = (contents cfg s.queue c).filter P := by
        rw [hq']
        refine filter_free hq fun hi => ?_
        subst hi
        exact hkeep call k lingers rfl hcloses hown
      rw [heard_of_filter hne hfree]

end Xtcp
