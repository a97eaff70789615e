import Xtcp.Link
import Xtcp.Notifications
import Xtcp.Stranded

/-!
# What a client hears

Callbacks of lwIP, DNS results and the link post events to clients.  An event that is posted goes
through the queue of the client and out again with `get_event`; it is lost if it finds the queue
full, or if the client closes the slot whose number it has while it is still in the queue.

`posts` are the events that a step posts, each with the client it is for.  A client hears an event
when it has received it or has it in its queue.  So for any kind of event, what a client hears is
what has been posted to it, in the same order and each event once, exactly as long as there is room
when one is posted and none is pending when its slot is closed.

## Main definitions

* `posts`, `postsTo` — the events that a step posts.
* `Delivers` — the events of interest find room, and none of them is thrown away.

## Main results

* `heard_step_iff` — a step makes a client hear what it posts, exactly if it delivers.
* `hears_exactly` — **a client hears what is posted to it, and nothing else**.
* `session_heard` — **the events of a connection are its callbacks, in their order**.
-/

namespace Xtcp

open Runs

variable {cfg : Config} {s s' : Server} {c : ℕ}

/-! ### Posting -/

/-- The slot that a connection to be accepted on slot `arg` gets. -/
def acceptSlot (cfg : Config) (s : Server) (arg : ℤ) : Option ℤ :=
  if cfg.InRange arg ∧ (s.connections arg).protocol = .tcp then s.table.freeSlot cfg else none

/-- The events that a step posts, with the clients they are for.  A connection that gets no slot is
aborted, which is reported for the slot it was to be accepted on. -/
def posts (cfg : Config) (s : Server) (a : Action) : List (ℕ × ClientEvent) :=
  match a with
  | .happens (.tcpEvent _ arg .accept) =>
    match acceptSlot cfg s arg with
    | some k => [((s.connections arg).clientNum, ⟨.accepted, k⟩)]
    | none => [(getClientInfo cfg s arg, ⟨.aborted, arg⟩)]
  | .happens (.tcpEvent _ arg callback) =>
    callback.queued.toList.map fun e => (getClientInfo cfg s arg, ⟨e, arg⟩)
  | .happens (.udpRecv p arg cells _ _) =>
    ((deliveredHead cells).map fun _ => udpRecvEvent s p).toList.map fun e =>
      (getClientInfo cfg s arg, ⟨e, arg⟩)
  | .happens (.dnsFound hasName ipaddr arg) =>
    [(arg, ⟨.dnsResult, (dnsResult cfg arg hasName ipaddr).toInt⟩)]
  | a =>
    match announcement s a with
    | some e => (List.range cfg.nXtcp).map fun i => (i, ⟨e, 0⟩)
    | none => []

/-- The events among `l` that are for client `c`. -/
def addressed (c : ℕ) (l : List (ℕ × ClientEvent)) : List ClientEvent :=
  l.filterMap fun x => if x.1 = c then some x.2 else none

/-- The events that a step posts to client `c`. -/
def postsTo (cfg : Config) (c : ℕ) (s : Server) (a : Action) : List ClientEvent :=
  addressed c (posts cfg s a)

theorem addressed_singleton (d : ℕ) (e : ClientEvent) :
    addressed c [(d, e)] = if d = c then [e] else [] := by
  simp only [addressed, List.filterMap_cons, List.filterMap_nil]
  split <;> simp_all

/-- An announcement is for each attached client once. -/
theorem addressed_range (n : ℕ) (e : ClientEvent) :
    addressed c ((List.range n).map fun i => (i, e)) = if c < n then [e] else [] := by
  induction n with
  | zero => rfl
  | succ n ih =>
    have happend : addressed c ((List.range (n + 1)).map fun i => (i, e))
        = addressed c ((List.range n).map fun i => (i, e)) ++ addressed c [(n, e)] := by
      rw [List.range_succ, List.map_append, addressed, List.filterMap_append]
      rfl
    rw [happend, ih, addressed_singleton]
    rcases Nat.lt_trichotomy c n with h | rfl | h
    · rw [if_pos h, if_neg (by omega), if_pos (by omega), List.append_nil]
    · rw [if_neg (by omega), if_pos rfl, if_pos (by omega), List.nil_append]
    · rw [if_neg (by omega), if_neg (by omega), if_neg (by omega), List.nil_append]

/-- One event is queued if there is room. -/
theorem contents_post {q : ClientQueue} (hq : QueueOk cfg q) (d : ℕ) (e : ClientEvent) :
    contents cfg (enqueueEventAndNotify cfg q d e.id e.xtcpEvent).1 c
      = contents cfg q c ++ if HasRoom cfg q c then addressed c [(d, e)] else [] := by
  rw [addressed_singleton]
  by_cases hroom : HasRoom cfg q d
  · rw [contents_enqueue hq (enqueue_success hq hroom.1 hroom.2 _ _)]
    by_cases hdc : c = d
    · subst hdc
      rw [if_pos rfl, if_pos hroom, if_pos rfl]
    · rw [if_neg hdc, if_neg (Ne.symm hdc), ite_self, List.append_nil]
  · rw [enqueue_of_not_room hq hroom]
    by_cases hdc : d = c
    · subst hdc
      rw [if_neg hroom, List.append_nil]
    · rw [if_neg hdc, ite_self, List.append_nil]

theorem contents_postSome {q : ClientQueue} (hq : QueueOk cfg q) (d : ℕ) (id : ℤ)
    (o : Option EventType) :
    contents cfg (enqueueSome cfg q d id o) c
      = contents cfg q c
        ++ if HasRoom cfg q c then addressed c (o.toList.map fun e => (d, ⟨e, id⟩)) else [] := by
  cases o with
  | none => rw [Option.toList_none, List.map_nil, addressed, List.filterMap_nil, ite_self,
      List.append_nil]; rfl
  | some e => exact contents_post hq d ⟨e, id⟩

/-- An announcement is queued for a client if there is room. -/
theorem contents_announce {q : ClientQueue} (hq : QueueOk cfg q) (e : EventType) :
    contents cfg (enqueueAll cfg q e) c
      = contents cfg q c ++ if HasRoom cfg q c then
        addressed c ((List.range cfg.nXtcp).map fun i => (i, ⟨e, 0⟩)) else [] := by
  rw [addressed_range]
  by_cases hroom : HasRoom cfg q c ∧ c < cfg.nXtcp
  · rw [contents_enqueueAll hq hroom.2 hroom.1, if_pos hroom.1, if_pos hroom.2]
  · -- no client that is told is `c`, or `c` has no room for it
    have hnil : (if HasRoom cfg q c then if c < cfg.nXtcp then [⟨e, 0⟩] else [] else [])
        = ([] : List ClientEvent) := by
      split
      · next h => rw [if_neg fun hc => hroom ⟨h, hc⟩]
      · rfl
    rw [hnil, List.append_nil]
    have hfold : ∀ l : List ℕ, (∀ i ∈ l, i < cfg.nXtcp) → ∀ q', QueueOk cfg q' →
        contents cfg q' c = contents cfg q c →
        contents cfg (l.foldl (fun q i => (enqueueEventAndNotify cfg q i 0 e).1) q') c
          = contents cfg q c := by
      intro l
      induction l with
      | nil => intro _ q' _ hsame; exact hsame
      | cons i l ih =>
        intro hl q' hq' hsame
        rw [List.foldl_cons]
        refine ih (fun j hj => hl j (List.mem_cons_of_mem i hj)) _ (queueOk_enqueue hq' i 0 e) ?_
        rw [contents_post hq' i ⟨e, 0⟩, addressed_singleton, hsame]
        have hnot : (if HasRoom cfg q' c then if i = c then [⟨e, 0⟩] else [] else [])
            = ([] : List ClientEvent) := by
          split
          · next h =>
            refine if_neg ?_
            rintro rfl
            refine hroom ⟨⟨h.1, ?_⟩, hl i List.mem_cons_self⟩
            rw [← hsame]
            exact h.2
          · rfl
        rw [hnot, List.append_nil]
    exact hfold _ (fun i hi => List.mem_range.mp hi) q hq rfl

/-- A connection that is aborted with `ERR_MEM` got no slot. -/
theorem acceptSlot_of_refused (hT : TableOk cfg s.table) {n : Ptr} {arg : ℤ}
    (hok : HappeningAllowed s (.tcpEvent n arg .accept))
    (hs : stepTcp cfg s n arg .accept = .ok (s', .err .mem)) : acceptSlot cfg s arg = none := by
  obtain ⟨t, e, t', -, hstep, hcases⟩ := accept_step hT.cursor hok
  obtain ⟨-, he⟩ : t' = s' ∧ Reply.err e = .err .mem := by simpa using hstep.symm.trans hs
  cases he
  obtain ⟨k, -, -, -, ⟨he, -⟩ | ⟨he, -⟩⟩ | ⟨-, hnone, -⟩ := hcases
  · cases he
  · cases he
  · unfold acceptSlot
    split
    · next h => exact hnone h.1 h.2
    · rfl

/-- **What happens appends to a queue what it posts**, if there is room. -/
theorem contents_happens (hT : TableOk cfg s.table) (hq : QueueOk cfg s.queue) {h : Happening}
    (hok : HappeningAllowed s h) {r : Reply} (hs : step cfg s (.happens h) = .ok (s', r)) :
    contents cfg s'.queue c = contents cfg s.queue c
      ++ if HasRoom cfg s.queue c then postsTo cfg c s (.happens h) else [] := by
  have hstep := queueStep (a := .happens h) hT hq hok hs
  have hnot : ∀ {d : ℕ} {e : ClientEvent}, ¬ HasRoom cfg s.queue d →
      (if HasRoom cfg s.queue c then addressed c [(d, e)] else []) = [] := by
    intro d e hd
    rw [addressed_singleton]
    split
    · next hc =>
      refine if_neg ?_
      rintro rfl
      exact hd hc
    · rfl
  generalize hq' : s'.queue = q' at hstep
  cases hstep with
  | @callback p arg callback r hne =>
    have hposts : posts cfg s (.happens (.tcpEvent p arg callback))
        = callback.queued.toList.map fun e => (getClientInfo cfg s arg, ⟨e, arg⟩) := by
      cases callback with
      | accept => exact absurd rfl hne
      | _ => rfl
    rw [postsTo, hposts]
    exact contents_postSome hq _ arg _
  | @accepted n arg k harg hproto hfree hroom =>
    have hslot : acceptSlot cfg s arg = some k := by rw [acceptSlot, if_pos ⟨harg, hproto⟩, hfree]
    simp only [postsTo, posts, hslot]
    exact contents_post hq _ ⟨.accepted, k⟩
  | @acceptAborted n arg hroom =>
    have hclient : ¬ HasRoom cfg s.queue (getClientInfo cfg s arg) := by
      unfold getClientInfo
      split
      · exact hroom
      · intro h
        have := h.1
        have := cfg.clients_le
        omega
    cases hslot : acceptSlot cfg s arg with
    | some k =>
      simp only [postsTo, posts, hslot]
      rw [hnot hroom, List.append_nil]
    | none =>
      simp only [postsTo, posts, hslot]
      rw [hnot hclient, List.append_nil]
  | @acceptRefused n arg =>
    simp only [postsTo, posts, acceptSlot_of_refused hT hok hs]
    exact contents_post hq _ ⟨.aborted, arg⟩
  | udpRecv => exact contents_postSome hq _ _ _
  | @dnsFound hasName ipaddr arg r =>
    exact contents_post hq arg ⟨.dnsResult, (dnsResult cfg arg hasName ipaddr).toInt⟩
  | linkDown => exact contents_announce hq .ifdown
  | ifup hcond =>
    simp only [postsTo, posts, announcement, if_pos hcond]
    exact contents_announce hq .ifup
  | quiet hquiet =>
    have hnone : postsTo cfg c s (.happens h) = [] := by
      cases h with
      | syn | reap | dropRefused => rfl
      | tcpEvent | udpRecv | dnsFound => cases hquiet
      | linkStatus up => cases hquiet; rfl
      | timeout timer hasIpAddress ifState =>
        have hquiet : ¬ (timer = 0 ∧ hasIpAddress ∧ s.netifNotifyState = false ∧ ifState) := hquiet
        simp only [postsTo, posts, announcement, if_neg hquiet, addressed, List.filterMap_nil]
    rw [hnone, ite_self, List.append_nil]

/-! ### Hearing -/

/-- The slot of its own that client `c` closes. -/
def closedBy (cfg : Config) (c : ℕ) (s : Server) : Action → Option ℤ
  | .call i (.close k _) | .call i (.abort k _) =>
    if i = c ∧ s.table.OwnedBy cfg c k then some k else none
  | _ => none

theorem closedBy_eq_some {a : Action} {k : ℤ} (h : k ∈ closedBy cfg c s a) :
    ∃ call lingers, a = .call c call ∧ call.closes k lingers := by
  unfold closedBy at h
  split at h
  · rw [Option.mem_def, Option.ite_none_right_eq_some] at h
    obtain ⟨⟨rfl, -⟩, hk⟩ := h
    exact ⟨_, _, rfl, Option.some.inj hk, rfl⟩
  · rw [Option.mem_def, Option.ite_none_right_eq_some] at h
    obtain ⟨⟨rfl, -⟩, hk⟩ := h
    exact ⟨_, _, rfl, Option.some.inj hk, rfl⟩
  · cases h

/-- The events of interest that a step posts to client `c` find room, and if the client closes a
slot, then none of them is pending under its number. -/
def Delivers (cfg : Config) (c : ℕ) (P : ClientEvent → Bool) (s : Server) (a : Action) : Prop :=
  (∀ e ∈ postsTo cfg c s a, P e = true → HasRoom cfg s.queue c) ∧
    IfSome (closedBy cfg c s a) fun k => ∀ e ∈ contents cfg s.queue c, P e = true → e.id ≠ k

instance (P : ClientEvent → Bool) (a : Action) : Decidable (Delivers cfg c P s a) :=
  inferInstanceAs (Decidable ((∀ _ ∈ _, _) ∧ IfSome _ _))

/-- A list of events is as long as it was only if nothing has been taken away. -/
theorem filter_notFor_iff {l : List ClientEvent} {P : ClientEvent → Bool} {k : ℤ} :
    (l.filter (ClientEvent.notFor k)).filter P = l.filter P ↔
      ∀ e ∈ l, P e = true → e.id ≠ k := by
  rw [List.filter_filter]
  constructor
  · intro heq e he hP
    have hmem : e ∈ l.filter P := List.mem_filter.mpr ⟨he, hP⟩
    rw [← heq, List.mem_filter, Bool.and_eq_true, ClientEvent.notFor_eq_true] at hmem
    exact hmem.2.2
  · intro hkeep
    refine List.filter_congr fun e he => ?_
    rw [Bool.and_eq_left_iff_imp, ClientEvent.notFor_eq_true]
    exact hkeep e he

/-- **A step makes a client hear what it posts, exactly if it delivers.** -/
theorem heard_step_iff (hT : TableOk cfg s.table) (hq : EventsOk cfg s.queue)
    {P : ClientEvent → Bool} (hP : P ⟨.none, -1⟩ = false) {a : Action} (hok : Allowed cfg s a)
    {r : Reply} (hs : step cfg s a = .ok (s', r)) (tr : List (Action × Reply)) :
    (heard cfg c (tr ++ [(a, r)]) s').filter P
        = (heard cfg c tr s).filter P ++ (postsTo cfg c s a).filter P ↔ Delivers cfg c P s a := by
  cases a with
  | happens h =>
    have hne : Action.happens h ≠ .call c .getEvent := by simp
    have hclosed : closedBy cfg c s (.happens h) = none := rfl
    rw [heard, heard, receivedBy_of_ne hne, contents_happens hT hq.queueOk hok hs, Delivers,
      hclosed,
      ← List.append_assoc, List.filter_append, List.append_cancel_left_eq]
    constructor
    · intro heq
      refine ⟨fun e he hPe => ?_, fun _ hk => absurd hk (by simp)⟩
      by_contra hroom
      rw [if_neg hroom, List.filter_nil] at heq
      have hmem : e ∈ (postsTo cfg c s (.happens h)).filter P := List.mem_filter.mpr ⟨he, hPe⟩
      rw [← heq] at hmem
      exact List.not_mem_nil hmem
    · rintro ⟨hroom, -⟩
      by_cases h' : HasRoom cfg s.queue c
      · rw [if_pos h']
      · rw [if_neg h', List.filter_nil, eq_comm, List.filter_eq_nil_iff]
        exact fun e he hPe => h' (hroom e he hPe)
  | call i call =>
    have hposts : postsTo cfg c s (.call i call) = [] := rfl
    have hstep := queueStep hT hq.queueOk hok hs
    rw [hposts, List.filter_nil, List.append_nil, Delivers, hposts]
    generalize hq' : s'.queue = q' at hstep
    -- the client closes nothing of its own
    have hnone : (∀ k lingers, call.closes k lingers → ¬ s.table.OwnedBy cfg i k) →
        closedBy cfg c s (.call i call) = none := by
      intro hnot
      have hifs : ∀ k lingers, call.closes k lingers →
          (if i = c ∧ s.table.OwnedBy cfg c k then some k else none) = none := by
        intro k lingers hcloses
        refine if_neg ?_
        rintro ⟨rfl, hown⟩
        exact hnot k lingers hcloses hown
      cases call with
      | close k l => exact hifs k l ⟨rfl, rfl⟩
      | abort k l => exact hifs k l ⟨rfl, rfl⟩
      | _ => rfl
    have hkept : closedBy cfg c s (.call i call) = none →
        ((heard cfg c (tr ++ [(.call i call, r)]) s').filter P = (heard cfg c tr s).filter P) →
        ((heard cfg c (tr ++ [(.call i call, r)]) s').filter P = (heard cfg c tr s).filter P ↔
          (∀ e ∈ ([] : List ClientEvent), P e = true → HasRoom cfg s.queue c) ∧
            IfSome (closedBy cfg c s (.call i call)) fun k =>
              ∀ e ∈ contents cfg s.queue c, P e = true → e.id ≠ k) := by
      intro hclosed heq
      refine iff_of_true heq ⟨fun e he => absurd he List.not_mem_nil, ?_⟩
      rw [hclosed]
      exact fun _ hk => absurd hk (by simp)
    cases hstep with
    | call hget hcloses =>
      have hne : Action.call i call ≠ .call c .getEvent := by
        intro heq
        cases heq
        exact hget rfl
      exact hkept (hnone hcloses) (heard_of_filter hne (by rw [hq']) tr r)
    | getEvent => exact hkept rfl (heard_getEvent hq hP hq' c tr)
    | @close _ _ k lingers _ hcloses hown =>
      have hne : Action.call i call ≠ .call c .getEvent := by
        intro heq
        cases heq
        exact hcloses
      have hcontents : contents cfg s'.queue c
          = if c = i then (contents cfg s.queue i).filter (ClientEvent.notFor k)
            else contents cfg s.queue c := by
        rw [hq']
        exact contents_free_all hq i k c
      have hclosed : closedBy cfg c s (.call i call) = if i = c then some k else none := by
        have hifs : (if i = c ∧ s.table.OwnedBy cfg c k then some k else none)
            = if i = c then some k else none := by
          by_cases hic : i = c
          · subst hic
            rw [if_pos ⟨rfl, hown⟩, if_pos rfl]
          · rw [if_neg fun h => hic h.1, if_neg hic]
        cases call with
        | close k' l => obtain ⟨rfl, rfl⟩ := hcloses; exact hifs
        | abort k' l => obtain ⟨rfl, rfl⟩ := hcloses; exact hifs
        | _ => cases hcloses
      by_cases hic : i = c
      · subst hic
        rw [if_pos rfl] at hcontents hclosed
        rw [heard, heard, receivedBy_of_ne hne, List.filter_append, List.filter_append,
          List.append_cancel_left_eq, hcontents, filter_notFor_iff, hclosed]
        constructor
        · intro hkeep
          refine ⟨fun e he => absurd he List.not_mem_nil, fun k' hk' => ?_⟩
          cases hk'
          exact hkeep
        · intro hdelivers
          exact hdelivers.2 k rfl
      · rw [if_neg (Ne.symm hic)] at hcontents
        rw [if_neg hic] at hclosed
        exact hkept hclosed (heard_of_filter hne (by rw [hcontents]) tr r)

/-- A ghost that records the events posted to client `c`. -/
def records (cfg : Config) (c : ℕ) (s : Server) (log : List ClientEvent) (a : Action)
    (_ : Server) : List ClientEvent :=
  log ++ postsTo cfg c s a

/-- **A client hears what is posted to it, and nothing else.**  Take a history in which every event
of interest that is posted to client `c` finds room, and none is pending when the client closes its
slot.  Then the events of interest that the client has received or has in its queue are those that
have been posted to it, in their order; and this is so after the next step exactly if that step
delivers too. -/
theorem hears_exactly {P : ClientEvent → Bool} (hP : P ⟨.none, -1⟩ = false)
    {tr : List (Action × Reply)} {log : List ClientEvent}
    (hrun : Run (withGhost (step cfg) (records cfg c))
      (fun x a => Allowed cfg x.1 a ∧ Delivers cfg c P x.1 a) (init cfg, []) tr (s, log)) :
    (heard cfg c tr s).filter P = log.filter P ∧
      ∀ a s' r, Allowed cfg s a → step cfg s a = .ok (s', r) →
        ((heard cfg c (tr ++ [(a, r)]) s').filter P = (log ++ postsTo cfg c s a).filter P ↔
          Delivers cfg c P s a) := by
  have hmain : ∀ {tr : List (Action × Reply)} {x : Server × List ClientEvent},
      Run (withGhost (step cfg) (records cfg c))
        (fun x a => Allowed cfg x.1 a ∧ Delivers cfg c P x.1 a) (init cfg, []) tr x →
      (TableOk cfg x.1.table ∧ EventsOk cfg x.1.queue) ∧
        (heard cfg c tr x.1).filter P = x.2.filter P := by
    intro tr x hrun
    induction hrun with
    | nil => exact ⟨⟨tableOk_init, eventsOk_init⟩, rfl⟩
    | @snoc tr x y a r _ hok hs ih =>
      obtain ⟨⟨hT, hq⟩, heq⟩ := ih
      obtain ⟨hs, hlog⟩ := withGhost_eq_ok.mp hs
      refine ⟨⟨hT.step (step_table hT.cursor hok.1 hs), eventsOk_step hq hs⟩, ?_⟩
      rw [(heard_step_iff hT hq hP hok.1 hs tr).mpr hok.2, heq, hlog, records, List.filter_append]
  obtain ⟨⟨hT, hq⟩, heq⟩ := hmain hrun
  refine ⟨heq, fun a s' r hok hs => ?_⟩
  rw [List.filter_append, ← heq]
  exact heard_step_iff hT hq hP hok hs tr

/-- Data for one connection and a change of the link are posted to client 0, which receives one of
the events. -/
theorem hears_exactly_two : ∃ tr s log,
    Run (withGhost (step .roomy) (records .roomy 0))
      (fun x a => Allowed .roomy x.1 a ∧ Delivers .roomy 0 (fun e => e.xtcpEvent != .none) x.1 a)
      (init .roomy, []) tr (s, log) ∧
    log = [⟨.newConnection, 0⟩, ⟨.ifdown, 0⟩] ∧ receivedBy 0 tr = [⟨.newConnection, 0⟩] ∧
    (heard .roomy 0 tr s).filter (fun e => e.xtcpEvent != .none) = log := by
  have hrun : ∃ tr x, Run (withGhost (step .roomy) (records .roomy 0))
      (fun x a => Allowed .roomy x.1 a ∧ Delivers .roomy 0 (fun e => e.xtcpEvent != .none) x.1 a)
      (init .roomy, []) tr x ∧
      x.2 = [⟨.newConnection, 0⟩, ⟨.ifdown, 0⟩] ∧ receivedBy 0 tr = [⟨.newConnection, 0⟩] := by
    refine Run.exists_of_replay
      [.call 0 (.socket .tcp (some 10)), .call 0 (.connect 0 80 {} .ok),
        .happens (.tcpEvent 10 0 .connected), .happens (.linkStatus false), .call 0 .getEvent] ?_
    decide
  obtain ⟨tr, ⟨s, log⟩, hrun, hlog, hreceived⟩ := hrun
  refine ⟨tr, s, log, hrun, hlog, hreceived, ?_⟩
  rw [(hears_exactly (by decide) hrun).1]
  have hlog : log = [⟨.newConnection, 0⟩, ⟨.ifdown, 0⟩] := hlog
  rw [hlog]
  rfl

/-! ### Sessions -/

/-- The events of connection `k` that a step raises. -/
def sessionEvents (k : ℤ) : Action → List ClientEvent
  | .happens (.tcpEvent _ arg callback) =>
    if arg = k then callback.queued.toList.map fun e => ⟨e, k⟩ else []
  | _ => []

/-- Slot `k` of client `c` is served by TCP callbacks only, and there is room for its events. -/
def SessionOn (cfg : Config) (c : ℕ) (k : ℤ) (s : Server) (a : Action) : Prop :=
  ServedOn cfg k s a ∧ (sessionEvents k a ≠ [] → HasRoom cfg s.queue c)

instance (k : ℤ) (a : Action) : Decidable (SessionOn cfg c k s a) :=
  inferInstanceAs (Decidable (_ ∧ (_ → _)))

/-- The slot that a connection gets was not active. -/
theorem acceptSlot_inactive (hT : TableOk cfg s.table) {arg k : ℤ}
    (h : acceptSlot cfg s arg = some k) : (s.connections k).isActive = false := by
  unfold acceptSlot at h
  split at h
  · exact (Table.freeSlot_some hT.cursor h).2
  · cases h

/-- What a step posts about an active connection is what it raises for it. -/
theorem postsTo_session (hT : TableOk cfg s.table) {k : ℤ} (hk : cfg.InRange k)
    (hown : (s.connections k).clientNum = c) {a : Action} (hon : ServedOn cfg k s a)
    {r : Reply} (hs : step cfg s a = .ok (s', r)) (hact : (s'.connections k).isActive = true) :
    (postsTo cfg c s a).filter (ClientEvent.concerns k) = sessionEvents k a := by
  have hclient : getClientInfo cfg s k = c := by rw [getClientInfo, if_pos hk, hown]
  -- an event of another connection, or of none
  have hother : ∀ {d e}, (ClientEvent.concerns k e = false) →
      (addressed c [(d, e)]).filter (ClientEvent.concerns k) = [] := by
    intro d e he
    rw [addressed_singleton]
    split
    · rw [List.filter_singleton, he]; rfl
    · rfl
  have hlink : ∀ e : EventType, e.connectionless = true →
      (addressed c ((List.range cfg.nXtcp).map fun i => (i, ⟨e, 0⟩))).filter
        (ClientEvent.concerns k) = [] := by
    intro e he
    rw [addressed_range]
    split
    · simp [ClientEvent.concerns, he]
    · rfl
  cases a with
  | call i call => rfl
  | happens h =>
    cases h with
    | tcpEvent p arg callback =>
      by_cases hacc : callback = .accept
      · subst hacc
        have hnil : sessionEvents k (.happens (.tcpEvent p arg .accept)) = [] := by
          simp [sessionEvents, TcpCallback.queued]
        rw [hnil]
        cases hslot : acceptSlot cfg s arg with
        | some j =>
          simp only [postsTo, posts, hslot]
          refine hother ?_
          have hjk : j ≠ k := by
            rintro rfl
            have hactive := hon.2.1
            rw [acceptSlot_inactive hT hslot] at hactive
            cases hactive
          simp [ClientEvent.concerns, hjk]
        | none =>
          simp only [postsTo, posts, hslot]
          refine hother ?_
          -- the slot it was to be accepted on is released
          have hne : arg ≠ k := by
            rintro rfl
            obtain ⟨t, e, t', -, hstep, hcases⟩ := accept_step hT.cursor hon.1
            obtain ⟨rfl, -⟩ : t' = s' ∧ Reply.err e = r := by simpa using hstep.symm.trans hs
            obtain ⟨j, harg, hproto, hfree, -⟩ | ⟨-, -, htab⟩ := hcases
            · have hproto : (s.connections arg).protocol = .tcp := hproto
              rw [acceptSlot, if_pos ⟨harg, hproto⟩, hfree] at hslot
              cases hslot
            · have hact : (t'.table.slot arg).isActive = true := hact
              rw [htab, Table.release_slot, if_pos ⟨rfl, hk⟩] at hact
              cases hact
          simp [ClientEvent.concerns, hne]
      · have hposts : posts cfg s (.happens (.tcpEvent p arg callback))
            = callback.queued.toList.map fun e => (getClientInfo cfg s arg, ⟨e, arg⟩) := by
          cases callback with
          | accept => exact absurd rfl hacc
          | _ => rfl
        rw [postsTo, hposts, sessionEvents]
        cases hqueued : callback.queued with
        | none =>
          rw [Option.toList_none, List.map_nil, List.map_nil, ite_self]
          rfl
        | some e =>
          have he : e.connectionless = false := connectionless_of_queued (Option.mem_def.mpr
            hqueued)
          rw [Option.toList_some, List.map_singleton, List.map_singleton]
          by_cases harg : arg = k
          · subst harg
            rw [hclient, addressed_singleton, if_pos rfl, if_pos rfl]
            simp [ClientEvent.concerns, he]
          · rw [if_neg harg]
            exact hother (by simp [ClientEvent.concerns, harg])
    | udpRecv p arg cells addr port =>
      have harg : arg ≠ k := fun harg => hon.ne_udpRecv p cells addr port (by rw [harg])
      simp only [postsTo, posts, sessionEvents]
      cases deliveredHead cells with
      | none => rfl
      | some q => exact hother (by simp [ClientEvent.concerns, harg])
    | dnsFound hasName ipaddr arg =>
      exact hother (by simp [ClientEvent.concerns, EventType.connectionless])
    | linkStatus up =>
      cases up with
      | true => rfl
      | false => exact hlink .ifdown rfl
    | timeout timer hasIpAddress ifState =>
      simp only [postsTo, posts, announcement, sessionEvents]
      by_cases hup : timer = 0 ∧ hasIpAddress ∧ s.netifNotifyState = false ∧ ifState
      · simp only [if_pos hup]
        exact hlink .ifup rfl
      · simp only [if_neg hup]
        rfl
    | syn | reap | dropRefused => rfl

/-- **The events of a connection are its callbacks, in their order.**  From any state in which slot
`k` belongs to client `c`, and for as long as the slot is active, what the client hears about the
connection is what was in its queue at the start, followed by one event for each callback of lwIP
that has one, whatever the other sockets and clients do; if there is room for them. -/
theorem session_heard {tr₀ tr : List (Action × Reply)} {t : Server} {k : ℤ}
    (hrun₀ : RunsTo cfg (fun _ _ => True) tr₀ s) (hown : s.table.OwnedBy cfg c k)
    (hrun : Run (step cfg) (SessionOn cfg c k) s tr t)
    (hact : (t.connections k).isActive = true) :
    (heard cfg c tr t).filter (ClientEvent.concerns k)
      = (contents cfg s.queue c).filter (ClientEvent.concerns k)
        ++ tr.flatMap fun x => sessionEvents k x.1 := by
  have hmain : TableOk cfg t.table ∧ EventsOk cfg t.queue ∧ t.table.OwnedBy cfg c k ∧
      (heard cfg c tr t).filter (ClientEvent.concerns k)
        = (contents cfg s.queue c).filter (ClientEvent.concerns k)
          ++ tr.flatMap fun x => sessionEvents k x.1 := by
    induction hrun with
    | nil =>
      refine ⟨hrun₀.tableOk, hrun₀.eventsOk, hown, ?_⟩
      rw [List.flatMap_nil, List.append_nil]
      rfl
    | @snoc tr u v a r _ hok hs ih =>
      obtain ⟨hT, hq, hown', heq⟩ := ih hok.1.2.1
      have hstep := step_table hT.cursor hok.1.1 hs
      have hposts := postsTo_session hT hown'.1 hown'.2 hok.1 hs hact
      have howner : v.table.OwnedBy cfg c k := by
        refine ⟨hown'.1, ?_⟩
        rcases hT.slot_of_active hstep hok.1.2.1 with hkept | ⟨-, hreleased, -⟩
        · exact hkept.2.1.trans hown'.2
        · have hact : (v.table.slot k).isActive = true := hact
          rw [hreleased] at hact
          cases hact
      have hdelivers : Delivers cfg c (ClientEvent.concerns k) u a := by
        refine ⟨fun e he hPe => hok.2 ?_, fun j hj e _ hPe => ?_⟩
        · have hmem : e ∈ (postsTo cfg c u a).filter (ClientEvent.concerns k) :=
            List.mem_filter.mpr ⟨he, hPe⟩
          rw [hposts] at hmem
          exact List.ne_nil_of_mem hmem
        · -- the slot that the client closes is another one
          have hid : e.id = k := by
            simp only [ClientEvent.concerns, Bool.and_eq_true, decide_eq_true_eq] at hPe
            exact hPe.2
          rw [hid]
          rintro rfl
          obtain ⟨call, lingers, rfl, hcloses⟩ := closedBy_eq_some hj
          have hinactive := isActive_close hcloses hown' hs
          rw [hact] at hinactive
          cases hinactive
      have hdummy : ClientEvent.concerns k ⟨.none, -1⟩ = false := by
        have hk : -1 ≠ k := by
          have := hown'.1.1
          omega
        simp [ClientEvent.concerns, hk]
      refine ⟨hT.step hstep, eventsOk_step hq hs, howner, ?_⟩
      rw [(heard_step_iff hT hq hdummy hok.1.1 hs tr).mpr hdelivers, hposts, heq,
        List.flatMap_append,
        List.flatMap_singleton, List.append_assoc]
  exact hmain.2.2.2

/-- An accepted connection, with a second socket of the same client beside it: it hears of the
accept, of data and of the end, in this order. -/
theorem session_heard_accepted : ∃ tr₀ s tr t, RunsTo .roomy (fun _ _ => True) tr₀ s ∧
    Run (step .roomy) (SessionOn .roomy 0 1) s tr t ∧
    (heard .roomy 0 tr t).filter (ClientEvent.concerns 1)
      = [⟨.accepted, 1⟩, ⟨.recvData, 1⟩, ⟨.sentData, 1⟩, ⟨.closed, 1⟩] := by
  have hrun₀ : ∃ tr₀ s, RunsTo .roomy (fun _ _ => True) tr₀ s ∧
      (s.table.OwnedBy .roomy 0 1 ∧ (contents .roomy s.queue 0).filter (ClientEvent.concerns 1)
        = [⟨.accepted, 1⟩]) ∧
      (replay (step .roomy) (SessionOn .roomy 0 1) s
        [.happens (.tcpEvent 12 1 (.recv [(100, ⟨none, ⟨[1, 2], by decide⟩, 2, 1, false, 0, {}⟩)])),
          .call 0 .getEvent, .call 0 (.recv 1 300 false),
          .call 0 (.send 1 [1, 2] false ⟨some 101, .ok, .ok, .ok, 0, false⟩),
          .happens (.linkStatus false), .happens (.tcpEvent 12 1 .sent),
          .happens (.tcpEvent 12 1 (.recv []))]).any (fun q => decide
        ((q.2.connections 1).isActive = true ∧ q.1.flatMap (fun x => sessionEvents 1 x.1)
          = [⟨.recvData, 1⟩, ⟨.sentData, 1⟩, ⟨.closed, 1⟩])) = true := by
    refine Run.exists_of_replay
      [.call 0 (.socket .tcp (some 10)), .call 0 (.listen 0 80 {} ⟨.ok, some 11⟩),
        .happens (.syn 11 12), .happens (.tcpEvent 12 0 .accept)] ?_
    decide
  obtain ⟨tr₀, s, hrun₀, ⟨hown, hfirst⟩, hany⟩ := hrun₀
  have hrun : ∃ tr t, Run (step .roomy) (SessionOn .roomy 0 1) s tr t ∧
      (t.connections 1).isActive = true ∧ tr.flatMap (fun x => sessionEvents 1 x.1)
        = [⟨.recvData, 1⟩, ⟨.sentData, 1⟩, ⟨.closed, 1⟩] :=
    Run.exists_of_replay _ hany
  obtain ⟨tr, t, hrun, hact, hraised⟩ := hrun
  refine ⟨tr₀, s, tr, t, hrun₀, hrun, ?_⟩
  rw [session_heard hrun₀ hown hrun hact, hfirst, hraised]
  rfl

end Xtcp
