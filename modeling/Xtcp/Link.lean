import Xtcp.Calm
import Xtcp.QueueStep

/-!
# The state of the link

The server tells its clients that the link has gone down each time it reads such a status from
the MAC, and that it has come up from the timer, once: `netif_notify_state` remembers that this
has been done.  The variable is one for all clients, and it is set whether or not their queues
have taken the event.

A client that has room whenever the state of the link is announced, and does not close a socket
under whose number an announcement is waiting, is always told the state of the link.

## Main definitions

* `lastLink` — the last link event that a client has received or has pending.
* `LinkAgrees` — the clients are told the state of the link, in the runs of a condition.
* `KeepsLink` — a step loses no link event of a client.

## Main results

* `linkEvents_step` — a step adds the announcement to the link events of a client.
* `link_agrees` — **in every run that loses none, the last link event is the state of the link**.
-/

namespace Xtcp

open Runs

variable {cfg : Config} {s s' : Server}

/-- `XTCP_IFUP` and `XTCP_IFDOWN` -/
def ClientEvent.isLink (e : ClientEvent) : Bool :=
  decide (e.xtcpEvent = .ifup ∨ e.xtcpEvent = .ifdown)

/-- The most recent link event that client `c` has received or has pending in its queue. -/
def lastLink (cfg : Config) (c : ℕ) (tr : List (Action × Reply)) (s : Server) : Option EventType :=
  ((heard cfg c tr s).filter ClientEvent.isLink).getLast?.map ClientEvent.xtcpEvent

/-- The link is announced only when client `c` has room, and `c` closes no socket under whose
number a link event is waiting. -/
def KeepsLink (cfg : Config) (c : ℕ) (s : Server) (a : Action) : Prop :=
  IfSome (announcement s a) (fun _ => HasRoom cfg s.queue c) ∧
  match a with
  | .call i (.close k _) | .call i (.abort k _) => i = c → s.table.OwnedBy cfg c k →
    ∀ e ∈ contents cfg s.queue c, e.isLink = true → e.id ≠ k
  | _ => True

instance (c : ℕ) (a : Action) : Decidable (KeepsLink cfg c s a) := by
  unfold KeepsLink
  split <;> infer_instance

/-- Each client is told the state of the link, in every run whose steps meet its condition in `C`:
when `netif_notify_state` is set, the last link event is `XTCP_IFUP`; and from a status that the
link is down until `XTCP_IFUP` is announced, it is `XTCP_IFDOWN`. -/
def LinkAgrees (cfg : Config) (C : ℕ → Server → Action → Prop) : Prop :=
  ∀ c < cfg.nXtcp, ∀ tr s, RunsTo cfg (C c) tr s →
    (s.netifNotifyState = true → lastLink cfg c tr s = some .ifup) ∧
    ∀ s' r, Allowed cfg s (.happens (.linkStatus false)) → C c s (.happens (.linkStatus false)) →
      step cfg s (.happens (.linkStatus false)) = .ok (s', r) →
      ∀ tr' t, Run (step cfg)
          (fun s a => (Allowed cfg s a ∧ C c s a) ∧ announcement s a ≠ some .ifup) s' tr' t →
        lastLink cfg c (tr ++ [(.happens (.linkStatus false), r)] ++ tr') t = some .ifdown

/-! ### Announcements -/

/-- Queueing an event for another client. -/
theorem contents_enqueue_of_ne {q : ClientQueue} (hq : QueueOk cfg q) {c d : ℕ} (h : d ≠ c)
    (id : ℤ) (e : EventType) :
    contents cfg (enqueueEventAndNotify cfg q c id e).1 d = contents cfg q d := by
  by_cases hsucc : (enqueueEventAndNotify cfg q c id e).2 = .success
  · rw [contents_enqueue hq hsucc, if_neg h]
  · rw [enqueue_of_ne_success hsucc]

/-- **An announcement reaches each client that has room.** -/
theorem contents_enqueueAll {q : ClientQueue} (hq : QueueOk cfg q) {c : ℕ} (hc : c < cfg.nXtcp)
    (hroom : HasRoom cfg q c) (event : EventType) :
    contents cfg (enqueueAll cfg q event) c = contents cfg q c ++ [⟨event, 0⟩] := by
  -- the induction is on the clients still to be told, among which `c` is at most once
  have hfold : ∀ l : List ℕ, l.Nodup → ∀ q, QueueOk cfg q → (c ∈ l → HasRoom cfg q c) →
      contents cfg (l.foldl (fun q i => (enqueueEventAndNotify cfg q i 0 event).1) q) c
        = if c ∈ l then contents cfg q c ++ [⟨event, 0⟩] else contents cfg q c := by
    intro l
    induction l with
    | nil => intro _ q _ _; rfl
    | cons i l ih =>
      intro hnodup q hq hroom
      obtain ⟨hil, hl⟩ := List.nodup_cons.mp hnodup
      rw [List.foldl_cons]
      by_cases hic : c = i
      · subst hic
        obtain ⟨hcm, hlen⟩ := hroom List.mem_cons_self
        have hsucc := enqueue_success hq hcm hlen 0 event
        rw [ih hl _ (queueOk_enqueue hq c 0 event) fun h => absurd h hil, if_neg hil,
          contents_enqueue hq hsucc, if_pos rfl, if_pos List.mem_cons_self]
      · have hsame := contents_enqueue_of_ne hq hic 0 event
        have hroom' : c ∈ l → HasRoom cfg (enqueueEventAndNotify cfg q i 0 event).1 c := by
          intro hcl
          obtain ⟨hcm, hlen⟩ := hroom (List.mem_cons_of_mem i hcl)
          exact ⟨hcm, by rw [hsame]; exact hlen⟩
        rw [ih hl _ (queueOk_enqueue hq i 0 event) hroom', hsame]
        simp only [List.mem_cons, hic, false_or]
  have h := hfold (List.range cfg.nXtcp) List.nodup_range q hq fun _ => hroom
  rwa [if_pos (List.mem_range.mpr hc)] at h

/-- An event of a connection is not a link event. -/
theorem isLink_of_not_connectionless {e : EventType} (h : e.connectionless = false) (id : ℤ) :
    ClientEvent.isLink ⟨e, id⟩ = false := by
  revert h
  cases e <;> simp [ClientEvent.isLink, EventType.connectionless]

/-- What happens without a word is no announcement. -/
theorem announcement_of_quiet {h : Happening} (hq : h.quiet s) :
    announcement s (.happens h) = none := by
  cases h with
  | linkStatus up => cases hq; rfl
  | timeout timer hasIpAddress ifState => exact if_neg hq
  | syn | tcpEvent | udpRecv | dnsFound | reap | dropRefused => rfl

/-- There are two announcements. -/
theorem announcement_cases {a : Action} (h : announcement s a ≠ some .ifup) :
    announcement s a = none ∨ announcement s a = some .ifdown := by
  unfold announcement at h ⊢
  split
  · exact .inr rfl
  · split
    · next hcond =>
      dsimp only at h
      rw [if_pos hcond] at h
      exact absurd rfl h
    · exact .inl rfl
  · exact .inl rfl

/-- **One step adds its announcement** to the link events that a client hears of. -/
theorem linkEvents_step {a : Action} {r : Reply} (hstep : QueueStep cfg s a r s'.queue)
    (hq : EventsOk cfg s.queue) {c : ℕ} (hc : c < cfg.nXtcp) (hkeep : KeepsLink cfg c s a) (tr :
      List (Action × Reply)) :
    (heard cfg c (tr ++ [(a, r)]) s').filter ClientEvent.isLink
      = (heard cfg c tr s).filter ClientEvent.isLink
        ++ ((announcement s a).map fun e => (⟨e, 0⟩ : ClientEvent)).toList := by
  obtain ⟨hroom, hclose⟩ := hkeep
  -- a step that announces nothing
  have hnone : ∀ {b : Action}, b ≠ .call c .getEvent → announcement s b = none →
      (contents cfg s'.queue c).filter ClientEvent.isLink
        = (contents cfg s.queue c).filter ClientEvent.isLink →
      (heard cfg c (tr ++ [(b, r)]) s').filter ClientEvent.isLink
        = (heard cfg c tr s).filter ClientEvent.isLink
          ++ ((announcement s b).map fun e => (⟨e, 0⟩ : ClientEvent)).toList := by
    intro b hb hann h
    rw [hann, heard_of_filter hb h]
    exact (List.append_nil _).symm
  -- an announcement
  have hsome : ∀ {h : Happening} {e : EventType}, announcement s (.happens h) = some e →
      HasRoom cfg s.queue c → s'.queue = enqueueAll cfg s.queue e → ClientEvent.isLink ⟨e, 0⟩ →
      (heard cfg c (tr ++ [(.happens h, r)]) s').filter ClientEvent.isLink
        = (heard cfg c tr s).filter ClientEvent.isLink
          ++ ((announcement s (.happens h)).map fun e => (⟨e, 0⟩ : ClientEvent)).toList := by
    intro h e hann hr hqueue hlink
    have hne : Action.happens h ≠ .call c .getEvent := by simp
    rw [hann, heard, heard, receivedBy_of_ne hne, hqueue,
      contents_enqueueAll hq.queueOk hc hr]
    simp [List.filter_append, hlink]
  generalize hq' : s'.queue = q' at hstep
  cases hstep with
  | call hget _ =>
    refine hnone (fun h => ?_) rfl (by rw [hq'])
    cases h
    exact hget rfl
  | getEvent =>
    rw [heard_getEvent hq rfl hq']
    exact (List.append_nil _).symm
  | @close i call k lingers _ hcloses hown =>
    have hfilter : (contents cfg s'.queue c).filter ClientEvent.isLink
        = (contents cfg s.queue c).filter ClientEvent.isLink := by
      rw [hq']
      refine filter_free hq fun hi => ?_
      subst hi
      cases call with
      | close id l | abort id l =>
        obtain ⟨rfl, -⟩ := hcloses
        exact hclose rfl hown
      | _ => exact hcloses.elim
    refine hnone (fun h => ?_) rfl hfilter
    cases h
    exact hcloses
  | callback hacc =>
    refine hnone (by simp) rfl ?_
    rw [hq']
    exact filter_enqueueSome hq.queueOk
      (fun e he => isLink_of_not_connectionless (connectionless_of_queued he) _) c
  | accepted =>
    refine hnone (by simp) rfl ?_
    rw [hq']
    exact filter_enqueue hq.queueOk rfl c
  | acceptAborted => exact hnone (by simp) rfl (by rw [hq'])
  | acceptRefused =>
    refine hnone (by simp) rfl ?_
    rw [hq']
    exact filter_enqueue hq.queueOk rfl c
  | udpRecv =>
    refine hnone (by simp) rfl ?_
    rw [hq']
    refine filter_enqueueSome hq.queueOk (fun e he => ?_) c
    obtain ⟨p, -, rfl⟩ := Option.map_eq_some_iff.mp he
    exact isLink_of_not_connectionless (connectionless_udpRecvEvent s _) _
  | dnsFound =>
    refine hnone (by simp) rfl ?_
    rw [hq']
    exact filter_enqueue hq.queueOk rfl c
  | linkDown => exact hsome rfl (hroom _ rfl) hq' rfl
  | @ifup timer hasIpAddress ifState _ hcond =>
    have hann : announcement s (.happens (.timeout timer hasIpAddress ifState)) = some .ifup :=
      if_pos hcond
    exact hsome hann (hroom _ hann) hq' rfl
  | quiet hquiet => exact hnone (by simp) (announcement_of_quiet hquiet) (by rw [hq'])

/-- The last link event after a step. -/
theorem lastLink_step {a : Action} {r : Reply} (hT : TableOk cfg s.table)
    (hq : EventsOk cfg s.queue) (hok : Allowed cfg s a) (h : step cfg s a = .ok (s', r)) {c : ℕ}
    (hc : c < cfg.nXtcp) (hkeep : KeepsLink cfg c s a) (tr : List (Action × Reply)) :
    lastLink cfg c (tr ++ [(a, r)]) s' = (announcement s a).or (lastLink cfg c tr s) := by
  unfold lastLink
  rw [linkEvents_step (queueStep hT hq.queueOk hok h) hq hc hkeep]
  cases announcement s a with
  | none => simp
  | some e => simp

/-! ### Runs -/

/-- While `netif_notify_state` is set, the last link event is `XTCP_IFUP`. -/
theorem lastLink_of_notified {c : ℕ} (hc : c < cfg.nXtcp) {tr : List (Action × Reply)}
    (hrun : RunsTo cfg (KeepsLink cfg c) tr s) (h : s.netifNotifyState = true) :
    lastLink cfg c tr s = some .ifup := by
  unfold RunsTo at hrun
  induction hrun with
  | nil => cases h
  | @snoc tr t t' a r hrun hok hs ih =>
    have hrun : RunsTo cfg (KeepsLink cfg c) tr t := hrun
    rw [lastLink_step hrun.tableOk hrun.eventsOk hok.1 hs hc hok.2]
    rw [netif_step hs] at h
    cases hann : announcement t a with
    | none =>
      rw [hann] at h
      rw [Option.none_or]
      exact ih h
    | some e =>
      rw [hann] at h
      rw [Option.some_or, of_decide_eq_true h]

/-- Once `XTCP_IFDOWN` is the last link event, it stays so until `XTCP_IFUP` is announced. -/
theorem lastLink_of_down {c : ℕ} (hc : c < cfg.nXtcp) {tr tr' : List (Action × Reply)} {t : Server}
    (hrun : RunsTo cfg (KeepsLink cfg c) tr s) (hdown : lastLink cfg c tr s = some .ifdown)
    (hrun' : Run (step cfg)
      (fun s a => (Allowed cfg s a ∧ KeepsLink cfg c s a) ∧ announcement s a ≠ some .ifup) s tr' t)
        :
    lastLink cfg c (tr ++ tr') t = some .ifdown := by
  induction hrun' with
  | nil => rwa [List.append_nil]
  | @snoc tr' t t' a r hrun' hok hs ih =>
    have hall : RunsTo cfg (KeepsLink cfg c) (tr ++ tr') t :=
      Run.trans hrun (hrun'.mono fun _ _ h => h.1)
    rw [← List.append_assoc, lastLink_step hall.tableOk hall.eventsOk hok.1.1 hs hc hok.1.2, ih]
    obtain hnone | hifdown := announcement_cases hok.2
    · rw [hnone, Option.none_or]
    · rw [hifdown, Option.some_or]

/-- **In every run that loses no link event of a client, its last link event is the state of the
link.** -/
theorem link_agrees (cfg : Config) : LinkAgrees cfg (KeepsLink cfg) := by
  intro c hc tr s hrun
  refine ⟨lastLink_of_notified hc hrun, ?_⟩
  intro s' r hok hkeep hs tr' t hrun'
  have hdown := lastLink_step hrun.tableOk hrun.eventsOk hok hs hc hkeep tr
  exact lastLink_of_down hc (Run.snoc hrun ⟨hok, hkeep⟩ hs) hdown hrun'

/-- The link goes down and comes up again, and the client has heard of the first by now. -/
theorem link_agrees_restarted : ∃ tr s, RunsTo .roomy (KeepsLink .roomy 0) tr s ∧
    s.netifNotifyState = true ∧ receivedBy 0 tr = [⟨.ifdown, 0⟩] ∧
    lastLink .roomy 0 tr s = some .ifup := by
  have hrun : ∃ tr s, RunsTo .roomy (KeepsLink .roomy 0) tr s ∧ s.netifNotifyState = true ∧
      receivedBy 0 tr = [⟨.ifdown, 0⟩] := by
    refine Run.exists_of_replay
      [.happens (.linkStatus false), .happens (.timeout 0 true true), .call 0 .getEvent] ?_
    decide
  obtain ⟨tr, s, hrun, hnotify, hreceived⟩ := hrun
  exact ⟨tr, s, hrun, hnotify, hreceived, (link_agrees .roomy 0 (by decide) tr s hrun).1 hnotify⟩

/-- The link goes down and comes up again, before the client asks for its events: `XTCP_IFUP` finds
no room in its queue. -/
theorem ifup_lost_in_full_queue : ¬ LinkAgrees .small fun _ _ _ => True := by
  intro hall
  have hrun : ∃ tr s, RunsTo .small (fun _ _ => True) tr s ∧ s.netifNotifyState = true ∧
      lastLink .small 0 tr s = some .ifdown := by
    refine Run.exists_of_replay
      [.happens (.linkStatus false), .happens (.timeout 0 true true)] ?_
    decide
  obtain ⟨tr, s, hrun, hnotify, hlast⟩ := hrun
  rw [(hall 0 (by decide) tr s hrun).1 hnotify] at hlast
  cases hlast

end Xtcp
