import Xtcp.Notifications

/-!
# Whom the server notifies

`client_intf_notify` indexes the array of the client interfaces with the number it is given; the
queue has compared that number with the size of its own array only.  So the numbers must be those
of attached clients: the owners of slots, the callers of `get_event`, and the clients that have
asked for a name.  A slot that has been released has the number of no client, and of no queue.

## Main definitions

* `QueueCall`, `Input.queueCalls` — the calls into `client_queue.c` that an input makes.
* `notified` — the arguments `client_intf_notify` is called with.
* `DnsAnswers` — DNS results come with the number of a client that has made a request.

## Main results

* `queue_feed` — the queues after an input are what these calls make of them.
* `notified_lt` — **every notification goes to an attached client**.
-/

namespace Xtcp

open Runs

variable {cfg : Config} {s s' : Server} {q : ClientQueue}

/-! ### The calls of an input -/

/-- Something that is done to the queues. -/
inductive QueueCall
  /-- One of the functions on the arrays. -/
  | op (op : QueueOp)
  /-- `renotify(client_num)` -/
  | renotify (clientNum : ℕ)
  /-- The notification of a client is cleared. -/
  | clear (clientNum : ℕ)

namespace QueueCall

/-- What is left of the queues. -/
def run (cfg : Config) (q : ClientQueue) : QueueCall → ClientQueue
  | .op o => (o.run cfg q).1
  | .renotify c => Xtcp.renotify cfg q c
  | .clear c => { q with eventReady := Function.update q.eventReady c false }

/-- `enqueue_event_and_notify` of an event. -/
abbrev enqueue (clientNum : ℕ) (id : ℤ) (xtcpEvent : EventType) : QueueCall :=
  .op (.enqueue clientNum id xtcpEvent)

/-- The argument of `client_intf_notify`, where the function comes to call it. -/
def notifies (cfg : Config) (q : ClientQueue) : QueueCall → Option ℕ
  | .op (.enqueue c _ _) =>
    if c < cfg.maxXtcpClients ∧ q.clientNumEvents c < cfg.clientQueueSize then some c else none
  | .renotify c =>
    if c < cfg.maxXtcpClients ∧ q.clientNumEvents c > 0 then some c else none
  | .op _ | .clear _ => none

theorem queueOk_run (hq : QueueOk cfg q) (call : QueueCall) : QueueOk cfg (call.run cfg q) := by
  cases call with
  | op op => exact Xtcp.queueOk_run hq op
  | renotify c => exact queueOk_renotify hq c
  | clear c => exact ⟨hq.head_nonneg, hq.head_lt, hq.num_nonneg, hq.num_le⟩

/-- A notification that is pending after a call was pending before, or the call has raised it. -/
theorem notifies_of_eventReady (hq : QueueOk cfg q) {call : QueueCall} {c : ℕ}
    (h : (call.run cfg q).eventReady c = true) :
    q.eventReady c = true ∨ call.notifies cfg q = some c := by
  -- what `client_intf_notify` raises
  have hraise : ∀ {q' : ClientQueue} {d : ℕ}, (clientIntfNotify cfg q' d).eventReady c = true →
      q'.eventReady c = true ∨ d = c := by
    intro q' d h
    unfold clientIntfNotify at h
    split at h
    · rcases eq_or_ne c d with rfl | hne
      · exact .inr rfl
      · refine .inl ?_
        rw [← Function.update_of_ne hne true q'.eventReady]
        exact h
    · exact .inl h
  cases call with
  | op op =>
    cases op with
    | init => exact .inl h
    | enqueue d id e =>
      simp only [run, QueueOp.run, enqueueEventAndNotify] at h
      split at h
      · next hd =>
        split at h
        · next hroom =>
          refine (hraise h).imp_right fun hc => ?_
          rw [notifies, if_pos ⟨hd, hroom⟩, hc]
        · exact .inl h
      · exact .inl h
    | dequeue d =>
      simp only [run, QueueOp.run, dequeueEvent] at h
      split at h <;> exact .inl h
    | free d id =>
      simp only [run, QueueOp.run] at h
      by_cases hd : d < cfg.maxXtcpClients
      · obtain ⟨st, heq, hfreed⟩ := freed_free hq hd id
        rw [heq, hfreed.ready] at h
        exact .inl h
      · rw [freeNotificationsOnQueue, if_neg hd] at h
        exact .inl h
  | renotify d =>
    simp only [run, Xtcp.renotify] at h
    split at h
    · next hcond =>
      refine (hraise h).imp_right fun hc => ?_
      rw [notifies, if_pos hcond, hc]
    · exact .inl h
  | clear d =>
    simp only [run, Function.update_apply] at h
    split at h
    · cases h
    · exact .inl h

end QueueCall

/-- The queues after a list of calls. -/
def runCalls (cfg : Config) (q : ClientQueue) (calls : List QueueCall) : ClientQueue :=
  calls.foldl (QueueCall.run cfg) q

/-- The arguments `client_intf_notify` is called with in the course of a list of calls. -/
def notified (cfg : Config) : ClientQueue → List QueueCall → List ℕ
  | _, [] => []
  | q, call :: calls => (call.notifies cfg q).toList ++ notified cfg (call.run cfg q) calls

/-- The calls that an input makes, in their order. -/
def Input.queueCalls (cfg : Config) (s : Server) (x : Input) : List QueueCall :=
  match x with
  | .call i .getEvent => [.clear i, .op (.dequeue i), .renotify i]
  | .call i (.close id _) | .call i (.abort id _) =>
    if (findClientConnection cfg s i id).status ≠ .success then [] else [.op (.free i id)]
  | .call _ _ => []
  | .tcpEvent arg _ .accept _ _ =>
    -- the event comes with the slot that has been assigned
    (x.assigns cfg s).toList.map fun k => .enqueue (getClientInfo cfg s arg) k .accepted
  | .tcpEvent arg _ e p err =>
    if cfg.InRange arg then
      (e.queued p err).toList.map fun event => .enqueue (getClientInfo cfg s arg) arg event
    else []
  | .udpRecv arg upcb p _ _ =>
    if cfg.InRange arg then
      p.toList.map fun _ => .enqueue (getClientInfo cfg s arg) arg (udpRecvEvent s upcb)
    else []
  | .dnsFound hasName ipaddr callbackArg =>
    [.enqueue callbackArg (dnsResult cfg callbackArg hasName ipaddr).toInt .dnsResult]
  | .linkStatus up =>
    if up then [] else (List.range cfg.nXtcp).map fun i => .enqueue i 0 .ifdown
  | .timeout timer hasIpAddress ifState =>
    if timer = 0 ∧ hasIpAddress ∧ s.netifNotifyState = false ∧ ifState then
      (List.range cfg.nXtcp).map fun i => .enqueue i 0 .ifup
    else []
  | .lwip _ => []

/-! ### What the calls do -/

theorem runCalls_enqueueSome (q : ClientQueue) (c : ℕ) (id : ℤ) (o : Option EventType) :
    runCalls cfg q (o.toList.map fun e => .enqueue c id e) = enqueueSome cfg q c id o := by
  cases o <;> rfl

theorem runCalls_enqueueAll (q : ClientQueue) (e : EventType) :
    runCalls cfg q ((List.range cfg.nXtcp).map fun i => .enqueue i 0 e) = enqueueAll cfg q e := by
  rw [runCalls, List.foldl_map]
  rfl

/-- An event that is queued for the number of no client gets lost. -/
theorem enqueueSome_of_not_inRange {arg : ℤ} (harg : ¬ cfg.InRange arg) (o : Option EventType) :
    enqueueSome cfg q (getClientInfo cfg s arg) arg o = q := by
  cases o with
  | none => rfl
  | some e =>
    have hle := cfg.clients_le
    have hlt : ¬ getClientInfo cfg s arg < cfg.maxXtcpClients := by
      rw [getClientInfo, if_neg harg]
      omega
    rw [enqueueSome, enqueue_of_not_lt hlt]

theorem queue_feed_close {i : ℕ} {id : ℤ} {lingers : Bool}
    (h : shimCloseSocket cfg s i id lingers = .ok s') :
    s'.queue = runCalls cfg s.queue
      (if (findClientConnection cfg s i id).status ≠ .success then [] else [.op (.free i id)]) := by
  split
  · next hfind =>
    rw [shimCloseSocket, if_pos hfind] at h
    cases h
    rfl
  · next hfind => exact queue_close (find_success_iff.mp (not_not.mp hfind)) h

/-- **The queues after an input** are what its calls make of them. -/
theorem queue_feed (hcur : s.table.CursorOk cfg) {x : Input} {r : Reply}
    (h : feed cfg s x = .ok (s', r)) :
    s'.queue = runCalls cfg s.queue (x.queueCalls cfg s) := by
  cases x with
  | call i call =>
    have hcall : CallQueues cfg s i call s'.queue := callQueues h
    cases call with
    | getEvent => cases h; rfl
    | close id lingers | abort id lingers =>
      obtain ⟨t, ht, h⟩ := bind_eq_ok.mp h
      cases h
      exact queue_feed_close ht
    | _ =>
      generalize s'.queue = q' at hcall ⊢
      cases hcall with
      | quiet => rfl
      | close hcloses _ => exact absurd hcloses id
  | tcpEvent arg pcb e p err =>
    obtain ⟨⟨t, result⟩, ht, h⟩ := bind_eq_ok.mp h
    cases h
    by_cases he : e = .accept
    · subst he
      by_cases hslot : AcceptFindsSlot cfg s arg pcb err
      · obtain ⟨n, rfl, harg, hproto, rfl, k, hfree⟩ := hslot
        have hassigns : Input.assigns cfg s (.tcpEvent arg (some n) .accept p .ok) = some k := by
          rw [← hfree]
          exact if_pos ⟨harg, hproto, rfl⟩
        have hclient : getClientInfo cfg s arg = (s.connections arg).clientNum := by
          rw [getClientInfo, if_pos harg]
        rw [(accept_enqueue hcur harg hproto hfree ht).1]
        simp only [Input.queueCalls, hassigns, hclient]
        rfl
      · have hassigns : Input.assigns cfg s (.tcpEvent arg pcb .accept p err) = none := by
          cases hk : Input.assigns cfg s (.tcpEvent arg pcb .accept p err) with
          | none => rfl
          | some k =>
            cases pcb with
            | none => cases hk
            | some n =>
              simp only [Input.assigns] at hk
              split at hk
              · next hcond => exact absurd ⟨n, rfl, hcond.1, hcond.2.1, hcond.2.2, k, hk⟩ hslot
              · cases hk
        rw [queue_accept_of_none hcur hslot ht]
        simp only [Input.queueCalls, hassigns]
        rfl
    · rw [queue_lwipTcpEvent he ht]
      have hcalls : Input.queueCalls cfg s (.tcpEvent arg pcb e p err)
          = if cfg.InRange arg then (e.queued p err).toList.map fun event =>
              QueueCall.enqueue (getClientInfo cfg s arg) arg event else [] := by
        cases e with
        | accept => exact absurd rfl he
        | _ => rfl
      rw [hcalls]
      split
      · exact (runCalls_enqueueSome _ _ _ _).symm
      · next harg => exact enqueueSome_of_not_inRange harg _
  | udpRecv arg upcb p addr port =>
    obtain ⟨t, ht, h⟩ := bind_eq_ok.mp h
    cases h
    rw [queue_xtcpUdpRecv ht]
    simp only [Input.queueCalls]
    split
    · cases p <;> rfl
    · next harg => exact enqueueSome_of_not_inRange harg _
  | dnsFound hasName ipaddr callbackArg => cases h; rfl
  | linkStatus up =>
    cases up with
    | true => cases h; rfl
    | false =>
      cases h
      rw [queue_notifyAll]
      exact (runCalls_enqueueAll _ _).symm
  | timeout timer hasIpAddress ifState =>
    simp only [feed, stepHappening] at h
    simp only [Input.queueCalls]
    split at h
    · next hcond =>
      cases h
      rw [queue_notifyAll, if_pos hcond]
      exact (runCalls_enqueueAll _ _).symm
    · next hcond =>
      cases h
      rw [if_neg hcond]
      rfl
  | lwip l => cases h; rfl

/-! ### Whom they notify -/

/-- A notification comes from one of the calls. -/
theorem exists_notifies {calls : List QueueCall} {c : ℕ} (h : c ∈ notified cfg q calls) :
    ∃ call ∈ calls, ∃ q', call.notifies cfg q' = some c := by
  induction calls generalizing q with
  | nil => cases h
  | cons call calls ih =>
    rw [notified, List.mem_append, Option.mem_toList] at h
    rcases h with h | h
    · exact ⟨call, List.mem_cons_self, q, h⟩
    · obtain ⟨call', hmem, q', hq'⟩ := ih h
      exact ⟨call', List.mem_cons_of_mem _ hmem, q', hq'⟩

/-- A notification that is pending after a list of calls. -/
theorem notified_of_eventReady (hq : QueueOk cfg q) {calls : List QueueCall} {c : ℕ}
    (h : (runCalls cfg q calls).eventReady c = true) :
    q.eventReady c = true ∨ c ∈ notified cfg q calls := by
  induction calls generalizing q with
  | nil => exact .inl h
  | cons call calls ih =>
    rw [notified, List.mem_append, Option.mem_toList]
    rcases ih (call.queueOk_run hq) h with hready | hmem
    · exact (QueueCall.notifies_of_eventReady hq hready).imp_right .inl
    · exact .inr (.inr hmem)

/-- Client `c` has asked for a name. -/
def Requested (xs : List Input) (c : ℕ) : Prop :=
  ∃ hasGateway answer ipaddr, Input.call c (.requestHostByName hasGateway answer ipaddr) ∈ xs

/-- The result of a DNS request comes after the request, and with its client's number. -/
def DnsAnswers (xs : List Input) : Prop :=
  ∀ before after hasName ipaddr callbackArg,
    xs = before ++ .dnsFound hasName ipaddr callbackArg :: after → Requested before callbackArg

/-- The owner of a slot, if it has a queue, is attached. -/
theorem getClientInfo_lt (hT : TableOk cfg s.table) {arg : ℤ}
    (h : getClientInfo cfg s arg < cfg.maxXtcpClients) : getClientInfo cfg s arg < cfg.nXtcp := by
  have hle := cfg.clients_le
  unfold getClientInfo at h ⊢
  split at h
  · next harg =>
    rw [if_pos harg]
    have hentry := hT.entryOk harg
    cases hact : (s.connections arg).isActive with
    | true => exact hentry.owner hact
    | false =>
      rw [(hentry.reset hact).1] at h
      omega
  · omega

/-- **The numbers that an input hands to `client_intf_notify`.** -/
theorem lt_of_notified (hT : TableOk cfg s.table) {x : Input} (hx : x.FromClients cfg)
    (hdns : ∀ hasName ipaddr arg, x = .dnsFound hasName ipaddr arg → arg < cfg.nXtcp) {c : ℕ}
    (h : c ∈ notified cfg q (x.queueCalls cfg s)) : c < cfg.nXtcp := by
  obtain ⟨call, hmem, q', hq'⟩ := exists_notifies h
  -- an event for a client that is attached, or that has no queue
  have henqueue : ∀ {d : ℕ} {id : ℤ} {e : EventType}, call = .enqueue d id e →
      (d < cfg.maxXtcpClients → d < cfg.nXtcp) → c < cfg.nXtcp := by
    rintro d id e rfl hd
    simp only [QueueCall.notifies, Option.ite_none_right_eq_some, Option.some.injEq] at hq'
    obtain ⟨⟨hlt, -⟩, rfl⟩ := hq'
    exact hd hlt
  have hall : ∀ {e : EventType},
      call ∈ (List.range cfg.nXtcp).map (fun i => QueueCall.enqueue i 0 e) → c < cfg.nXtcp := by
    intro e hmem
    obtain ⟨d, hd, rfl⟩ := List.mem_map.mp hmem
    exact henqueue rfl fun _ => List.mem_range.mp hd
  cases x with
  | call i call =>
    cases call with
    | getEvent =>
      simp only [Input.queueCalls, List.mem_cons, List.not_mem_nil, or_false] at hmem
      obtain rfl | rfl | rfl := hmem
      · cases hq'
      · cases hq'
      · simp only [QueueCall.notifies, Option.ite_none_right_eq_some, Option.some.injEq] at hq'
        obtain ⟨-, rfl⟩ := hq'
        exact hx
    | close id lingers | abort id lingers =>
      simp only [Input.queueCalls] at hmem
      split at hmem
      · cases hmem
      · rw [List.mem_singleton] at hmem
        subst hmem
        cases hq'
    | _ => cases hmem
  | tcpEvent arg pcb e p err =>
    have howner : getClientInfo cfg s arg < cfg.maxXtcpClients →
        getClientInfo cfg s arg < cfg.nXtcp := getClientInfo_lt hT
    cases e with
    | accept =>
      obtain ⟨k, -, rfl⟩ := List.mem_map.mp hmem
      exact henqueue rfl howner
    | _ =>
      simp only [Input.queueCalls] at hmem
      split at hmem
      · obtain ⟨e, -, rfl⟩ := List.mem_map.mp hmem
        exact henqueue rfl howner
      · cases hmem
  | udpRecv arg upcb p addr port =>
    simp only [Input.queueCalls] at hmem
    split at hmem
    · obtain ⟨p', -, rfl⟩ := List.mem_map.mp hmem
      exact henqueue rfl (getClientInfo_lt hT)
    · cases hmem
  | dnsFound hasName ipaddr arg =>
    simp only [Input.queueCalls, List.mem_singleton] at hmem
    exact henqueue hmem fun _ => hdns _ _ _ rfl
  | linkStatus up =>
    simp only [Input.queueCalls] at hmem
    split at hmem
    · cases hmem
    · exact hall hmem
  | timeout timer hasIpAddress ifState =>
    simp only [Input.queueCalls] at hmem
    split at hmem
    · exact hall hmem
    · cases hmem
  | lwip l => cases hmem

/-- The callers in a history are attached. -/
theorem Fed.fromClients {tr : List (Input × Reply)} (hfed : Fed cfg tr s) :
    ∀ x ∈ tr.map Prod.fst, x.FromClients cfg := by
  unfold Fed at hfed
  induction hfed with
  | nil => intro x hx; cases hx
  | snoc _ hok _ ih =>
    intro x hx
    rw [List.map_append, List.mem_append] at hx
    rcases hx with hx | hx
    · exact ih x hx
    · rw [List.map_singleton, List.mem_singleton] at hx
      subst hx
      exact hok

/-- And so is the client a DNS result is for. -/
theorem DnsAnswers.lt {tr : List (Input × Reply)} (hfed : Fed cfg tr s) {x : Input}
    (hdns : DnsAnswers (tr.map Prod.fst ++ [x])) (hasName : Bool) (ipaddr : Option IpAddr)
    (arg : ℕ) (hx : x = .dnsFound hasName ipaddr arg) : arg < cfg.nXtcp := by
  obtain ⟨hasGateway, answer, found, hmem⟩ := hdns (tr.map Prod.fst) [] hasName ipaddr arg (by rw
    [hx])
  exact hfed.fromClients _ hmem

/-- Earlier DNS results have been asked for as well. -/
theorem DnsAnswers.of_append {xs ys : List Input} (h : DnsAnswers (xs ++ ys)) : DnsAnswers xs := by
  intro before after hasName ipaddr arg hxs
  refine h before (after ++ ys) hasName ipaddr arg ?_
  rw [hxs, List.append_assoc, List.cons_append]

/-- Only attached clients have a notification pending. -/
theorem Fed.ready_lt {tr : List (Input × Reply)} (hfed : Fed cfg tr s)
    (hdns : DnsAnswers (tr.map Prod.fst)) (c : ℕ) (hc : s.queue.eventReady c = true) :
    c < cfg.nXtcp := by
  unfold Fed at hfed
  induction hfed with
  | nil => cases hc
  | @snoc tr t t' x r hrun hok hs ih =>
    rw [List.map_append, List.map_singleton] at hdns
    have hT := Fed.tableOk hrun
    rw [queue_feed hT.cursor hs] at hc
    rcases notified_of_eventReady (Fed.eventsOk hrun).queueOk hc with hready | hmem
    · exact ih hdns.of_append hready
    · exact lt_of_notified hT hok (hdns.lt hrun) hmem

/-- **Every notification goes to an attached client.**  In any environment in which DNS results
come with the number given in the request, every number that `client_intf_notify` is called with
is an index of the array of client interfaces; and only attached clients are notified. -/
theorem notified_lt {tr : List (Input × Reply)} (hfed : Fed cfg tr s) {x : Input}
    (hx : x.FromClients cfg) (hdns : DnsAnswers (tr.map Prod.fst ++ [x])) :
    (∀ c ∈ notified cfg s.queue (x.queueCalls cfg s), c < cfg.nXtcp) ∧
    ∀ s' r, feed cfg s x = .ok (s', r) →
      s'.queue = runCalls cfg s.queue (x.queueCalls cfg s) ∧
      ∀ c, s'.queue.eventReady c = true → c < cfg.nXtcp := by
  refine ⟨fun c hc => lt_of_notified hfed.tableOk hx (hdns.lt hfed) hc, fun s' r h => ?_⟩
  have hfed' : Fed cfg (tr ++ [(x, r)]) s' := .snoc hfed hx h
  refine ⟨queue_feed hfed.tableOk.cursor h, hfed'.ready_lt ?_⟩
  rw [List.map_append, List.map_singleton]
  exact hdns

/-- Client 1 asks for a name, and gets its result. -/
theorem notified_lt_dns : ∃ tr s, Fed .small tr s ∧
    notified .small s.queue (Input.queueCalls .small s (.dnsFound true none 1)) = [1] ∧
    ∀ c ∈ notified .small s.queue (Input.queueCalls .small s (.dnsFound true none 1)),
      c < Config.small.nXtcp := by
  have hfed : Fed .small [(.call 1 (.requestHostByName true .inprogress {}), .host {})] _ :=
    .snoc .nil (by decide) rfl
  have hx : (Input.dnsFound true none 1).FromClients .small := trivial
  refine ⟨_, _, hfed, by decide, (notified_lt hfed hx ?_).1⟩
  -- the result comes after the request
  intro before after hasName ipaddr arg h
  match before, h with
  | [], h => cases h
  | [_], h =>
    cases h
    exact ⟨_, _, _, List.mem_singleton_self _⟩
  | _ :: _ :: before, h =>
    have hlen := congrArg List.length h
    simp at hlen

end Xtcp
