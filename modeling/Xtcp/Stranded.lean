import Xtcp.QueueStep
import Xtcp.Receive

/-!
# Data that is left behind

A client is told about received data once for each delivery, and takes off one pbuf with each
`recv`.  A client that answers every event with one `recv` keeps up as long as every delivery is
one pbuf: then there is an event in its queue, or one that it has not answered yet, for each pbuf
in the chain.  A delivery of several pbufs leaves all but the first in the chain, until a later
delivery brings the next event.

## Main definitions

* `Answers` — a client answers each event of a connection with one `recv`.
* `NoStrandedData` — a chain for which no event is queued or unanswered is empty.

## Main results

* `ChainStep.length_add_le` — a step adds at least as many events as pbufs.
* `no_stranded_data` — **nothing is left behind, if every delivery is one pbuf**.
-/

namespace Xtcp

open Runs LinkedChain

variable {cfg : Config} {s s' : Server}

/-- `XTCP_RECV_DATA` on connection `k`. -/
def ClientEvent.isRecvData (k : ℤ) (e : ClientEvent) : Bool := decide (e = ⟨.recvData, k⟩)

/-- A `recv` of client `c` on connection `k`. -/
def Action.isRecv (c : ℕ) (k : ℤ) : Action → Bool
  | .call i (.recv id _ _) => decide (i = c ∧ id = k)
  | _ => false

/-- How often client `c` has called `recv` on connection `k`. -/
def recvsOn (c : ℕ) (k : ℤ) (tr : List (Action × Reply)) : ℕ := tr.countP fun x => x.1.isRecv c k

/-- How many `XTCP_RECV_DATA` events of connection `k` client `c` has been given. -/
def recvDataEvents (c : ℕ) (k : ℤ) (tr : List (Action × Reply)) : ℕ :=
  (receivedBy c tr).countP (ClientEvent.isRecvData k)

/-- Client `c` calls `recv` on connection `k` only to answer an `XTCP_RECV_DATA` event, once for
each, and with a buffer that is large enough for everything that has been received. -/
structure Answers (c : ℕ) (k : ℤ) (tr : List (Action × Reply)) : Prop where
  /-- There is an event for each `recv`. -/
  count : ∀ pre, pre <+: tr → recvsOn c k pre ≤ recvDataEvents c k pre
  /-- The buffers are large enough, and their lengths fit the `int32_t` of `get_remote_data`. -/
  fits : ∀ pre length timed r, pre ++ [(.call c (.recv k length timed), r)] <+: tr →
    (pre.flatMap (acceptedBytes k)).length ≤ length.toNat ∧ length.toNat < 2 ^ 31

/-- Slot `k` is active, and its data comes from `LWIP_EVENT_RECV`. -/
def ServedOn (cfg : Config) (k : ℤ) (s : Server) (a : Action) : Prop :=
  Allowed cfg s a ∧ (s.connections k).isActive = true ∧
    match a with
    | .happens (.udpRecv _ arg _ _ _) => arg ≠ k
    | _ => True

instance (k : ℤ) : (a : Action) → Decidable (ServedOn cfg k s a)
  | .happens (.udpRecv _ arg _ _ _) => inferInstanceAs (Decidable (_ ∧ _ ∧ arg ≠ k))
  | .call _ _ | .happens (.syn _ _) | .happens (.tcpEvent _ _ _) | .happens (.dnsFound _ _ _)
  | .happens (.reap _) | .happens (.dropRefused _) | .happens (.linkStatus _)
  | .happens (.timeout _ _ _) => inferInstanceAs (Decidable (_ ∧ _ ∧ True))

/-- No data of a TCP connection is left behind.  Take a history whose steps meet `C₀`, and an
active TCP slot `k` with an empty chain; and go on from there with steps that meet `C k`, while `k`
is active and its owner answers each `XTCP_RECV_DATA` event with one `recv`.  When no such event is
queued or unanswered, then the chain is empty, and every byte that was accepted has been returned to
the client. -/
def NoStrandedData (cfg : Config) (C₀ : Server → Action → Prop)
    (C : ℤ → Server → Action → Prop) : Prop :=
  ∀ tr₀ s, RunsTo cfg C₀ tr₀ s → ∀ k, cfg.InRange k → (s.connections k).isActive = true →
    (s.connections k).protocol = .tcp → (s.connections k).pbuf = none →
    ∀ tr t, Run (step cfg) (fun s a => ServedOn cfg k s a ∧ C k s a) s tr t →
      (t.connections k).isActive = true → Answers (s.connections k).clientNum k tr →
      (∀ e ∈ contents cfg t.queue (s.connections k).clientNum, e.isRecvData k = false) →
      recvsOn (s.connections k).clientNum k tr = recvDataEvents (s.connections k).clientNum k tr →
      (t.connections k).pbuf = none ∧
        tr.flatMap (returnedBytes k) = tr.flatMap (acceptedBytes k)

/-- No datagram arrives for the slot. -/
theorem ServedOn.ne_udpRecv {k : ℤ} {a : Action} (h : ServedOn cfg k s a) (pcb : Ptr)
    (cells : List (Ptr × Pbuf)) (addr : Option IpAddr) (port : UInt16) :
    a ≠ .happens (.udpRecv pcb k cells addr port) := by
  rintro rfl
  exact h.2.2 rfl

/-! ### Answers -/

theorem Answers.of_append {c : ℕ} {k : ℤ} {tr tr' : List (Action × Reply)}
    (h : Answers c k (tr ++ tr')) : Answers c k tr :=
  ⟨fun pre hpre => h.count pre (hpre.trans (List.prefix_append _ _)),
    fun pre length timed r hpre => h.fits pre length timed r (hpre.trans (List.prefix_append _ _))⟩

theorem Answers.nil (c : ℕ) (k : ℤ) : Answers c k [] := by
  refine ⟨fun pre hpre => ?_, fun pre length timed r hpre => ?_⟩
  · rw [List.prefix_nil.mp hpre]
    exact Nat.zero_le _
  · exact absurd (List.prefix_nil.mp hpre) (by simp)

/-- One more step. -/
theorem Answers.concat {c : ℕ} {k : ℤ} {tr : List (Action × Reply)} (h : Answers c k tr)
    {x : Action × Reply} (hcount : recvsOn c k (tr ++ [x]) ≤ recvDataEvents c k (tr ++ [x]))
    (hfits : ∀ length timed, x.1 = .call c (.recv k length timed) →
      (tr.flatMap (acceptedBytes k)).length ≤ length.toNat ∧ length.toNat < 2 ^ 31) :
    Answers c k (tr ++ [x]) := by
  refine ⟨fun pre hpre => ?_, fun pre length timed r hpre => ?_⟩
  · rcases List.prefix_concat_iff.mp hpre with rfl | hpre
    · exact hcount
    · exact h.count pre hpre
  · rcases List.prefix_concat_iff.mp hpre with heq | hpre
    · obtain ⟨rfl, hx⟩ := List.append_inj' heq rfl
      cases hx
      exact hfits length timed rfl
    · exact h.fits pre length timed r hpre

theorem recvsOn_append (c : ℕ) (k : ℤ) (tr : List (Action × Reply)) (a : Action) (r : Reply) :
    recvsOn c k (tr ++ [(a, r)]) = recvsOn c k tr + if a.isRecv c k then 1 else 0 := by
  rw [recvsOn, List.countP_append, List.countP_singleton]
  rfl

/-- What client `c` has heard of connection `k`. -/
def heardOf (cfg : Config) (c : ℕ) (k : ℤ) (tr : List (Action × Reply)) (s : Server) : ℕ :=
  (heard cfg c tr s).countP (ClientEvent.isRecvData k)

theorem heardOf_eq (cfg : Config) (c : ℕ) (k : ℤ) (tr : List (Action × Reply)) (s : Server) :
    heardOf cfg c k tr s = recvDataEvents c k tr
      + (contents cfg s.queue c).countP (ClientEvent.isRecvData k) := by
  rw [heardOf, heard, List.countP_append, recvDataEvents]

/-! ### Steps -/

/-- A delivery is accepted after its event has been queued. -/
theorem enqueue_of_accepted {pcb : Ptr} {k : ℤ} (hk : cfg.InRange k) {c : Ptr × Pbuf}
    {cells : List (Ptr × Pbuf)}
    (hs : stepTcp cfg s pcb k (.recv (c :: cells)) = .ok (s', .err .ok)) :
    (enqueueEventAndNotify cfg s.queue (s.connections k).clientNum k .recvData).2 = .success := by
  obtain ⟨⟨t, e⟩, ht, hs⟩ := bind_eq_ok.mp hs
  obtain rfl : e = .ok := by
    have hreply : Reply.err e = .err .ok := congrArg Prod.snd (Except.ok.inj hs)
    exact Reply.err.inj hreply
  rw [lwipTcpEvent, if_pos hk] at ht
  obtain ⟨⟨u, e⟩, hu, ht⟩ := bind_eq_ok.mp ht
  have hqueue := (leaves_setRemote hu).queue
  have hclient : getClientInfo cfg { s with pbufs := deliver s.pbufs (c :: cells) } k
      = (s.connections k).clientNum := if_pos hk
  rw [hclient] at ht
  dsimp only at ht
  split at ht
  · obtain ⟨⟨v, e'⟩, -, ht⟩ := bind_eq_ok.mp ht
    have herr : Err.inprogress = Err.ok := congrArg Prod.snd (Except.ok.inj ht)
    cases herr
  · next hsucc =>
    have hsucc := not_not.mp hsucc
    rw [enqueue, hqueue] at hsucc
    exact hsucc

/-- While slot `k` stays active, its owner loses no event of it. -/
theorem heardOf_le {a : Action} {r : Reply} (hT : TableOk cfg s.table) (hq : EventsOk cfg s.queue)
    (hok : Allowed cfg s a) (hs : step cfg s a = .ok (s', r)) {k : ℤ}
    (hact : (s'.connections k).isActive = true) (c : ℕ) (tr : List (Action × Reply)) :
    heardOf cfg c k tr s ≤ heardOf cfg c k (tr ++ [(a, r)]) s' := by
  have hstep := queueStep hT hq.queueOk hok hs
  rw [heardOf, heardOf, List.countP_eq_length_filter, List.countP_eq_length_filter]
  refine (hstep.heard_extends hq (P := ClientEvent.isRecvData k) rfl ?_ tr).length_le
  rintro call j lingers rfl hcloses hown e - he hid
  -- the event is one of slot `k`, and the owner has closed it
  have hj : j = k := by
    rw [ClientEvent.isRecvData, decide_eq_true_eq] at he
    rw [← hid, he]
  subst hj
  rw [isActive_close hcloses hown hs] at hact
  cases hact

/-- The event of a delivery that is accepted goes to the owner. -/
theorem heardOf_accepted (hq : EventsOk cfg s.queue) {k : ℤ} (hk : cfg.InRange k) {pcb : Ptr}
    {c : Ptr × Pbuf} {cells : List (Ptr × Pbuf)}
    (hs : stepTcp cfg s pcb k (.recv (c :: cells)) = .ok (s', .err .ok))
    (tr : List (Action × Reply)) :
    heardOf cfg (s.connections k).clientNum k
        (tr ++ [(.happens (.tcpEvent pcb k (.recv (c :: cells))), .err .ok)]) s'
      = heardOf cfg (s.connections k).clientNum k tr s + 1 := by
  have hqueue := queue_stepTcp (by simp) hs
  have hclient : getClientInfo cfg s k = (s.connections k).clientNum := if_pos hk
  have hne : Action.happens (.tcpEvent pcb k (.recv (c :: cells)))
      ≠ .call (s.connections k).clientNum .getEvent := (nomatch ·)
  rw [hclient] at hqueue
  have hcontents := contents_enqueue hq.queueOk (enqueue_of_accepted hk hs)
    (s.connections k).clientNum
  rw [if_pos rfl] at hcontents
  rw [heardOf, heard, receivedBy_of_ne hne, hqueue]
  simp only [TcpCallback.queued, deliveredHead, List.head?_cons, Option.map_some,
    Option.isSome_some, if_true, enqueueSome]
  rw [hcontents, ← List.append_assoc, List.countP_append, ← heard, ← heardOf]
  simp [ClientEvent.isRecvData]

/-- **A step adds at least as many events as pbufs**, and a `recv` that answers an event takes
off a pbuf, if there is one. -/
theorem ChainStep.length_add_le {a : Action} {r : Reply} (hT : TableOk cfg s.table)
    (hq : EventsOk cfg s.queue) {k : ℤ} (hk : cfg.InRange k) (hok : Allowed cfg s a)
    (hs : step cfg s a = .ok (s', r)) (hact : (s'.connections k).isActive = true)
    {x x' : List Chunk} (hstep : ChainStep k (s.connections k).clientNum a r x x')
    (hone : OnePbuf k a) {tr : List (Action × Reply)}
    (hcount : recvsOn (s.connections k).clientNum k (tr ++ [(a, r)])
      ≤ recvDataEvents (s.connections k).clientNum k (tr ++ [(a, r)]))
    (hle : x.length + recvsOn (s.connections k).clientNum k tr
      ≤ heardOf cfg (s.connections k).clientNum k tr s) :
    x'.length + recvsOn (s.connections k).clientNum k (tr ++ [(a, r)])
      ≤ heardOf cfg (s.connections k).clientNum k (tr ++ [(a, r)]) s' := by
  have hmono := heardOf_le hT hq hok hs hact (s.connections k).clientNum tr
  rw [recvsOn_append]
  cases hstep with
  | @idle _ _ _ hrecv hdelivery hnone =>
    have hnot : a.isRecv (s.connections k).clientNum k = false := by
      unfold Action.isRecv
      split
      · next i id length timed =>
        refine decide_eq_false ?_
        rintro ⟨rfl, rfl⟩
        exact hrecv length timed rfl
      · rfl
    rw [hnot]
    simp only [Bool.false_eq_true, if_false, Nat.add_zero]
    omega
  | @accepted pcb cells =>
    have hlen : cells.length ≤ 1 := hone rfl
    rcases cells with _ | ⟨c, cells⟩
    · simp only [Action.isRecv, List.map_nil, List.append_nil, Bool.false_eq_true, if_false,
        Nat.add_zero]
      omega
    · have hheard := heardOf_accepted hq hk hs tr
      simp only [Action.isRecv, List.length_append, List.length_map, Bool.false_eq_true, if_false,
        Nat.add_zero]
      omega
  | @refused pcb cells e _ he =>
    simp only [Action.isRecv, hone.tail_eq_nil, List.map_nil, List.append_nil, Bool.false_eq_true,
      if_false, Nat.add_zero]
    omega
  | @receivedNone length timed result remote timestamp =>
    rw [recvsOn_append] at hcount
    have hheard := heardOf_eq cfg (s.connections k).clientNum k
      (tr ++ [(.call (s.connections k).clientNum (.recv k length timed),
        .received result [] remote timestamp)]) s'
    simp only [List.length_nil]
    omega
  | received =>
    simp only [Action.isRecv, and_self, decide_true, if_true]
    rw [List.length_cons] at hle
    omega

/-! ### Runs -/

/-- The state along a history in which client `c` receives on slot `k`. -/
structure ServesOk (cfg : Config) (k : ℤ) (c : ℕ) (tr : List (Action × Reply)) (t : Server) : Prop
    extends TcpSlotOk cfg k t where
  /-- The slot belongs to the client. -/
  owner : (t.connections k).clientNum = c
  /-- What is returned, and what is still in the chain, is what was accepted; and the client has
  heard of each pbuf in the chain. -/
  chain : ∃ ch, RxOk t t.refused ch ∧
    tr.flatMap (returnedBytes k) ++ (rxData t.pbufs (ch (.inl k))).flatMap Chunk.bytes
      = tr.flatMap (acceptedBytes k) ∧
    (rxData t.pbufs (ch (.inl k))).length + recvsOn c k tr ≤ heardOf cfg c k tr t

/-- A buffer that is large enough for everything received is large enough for the first pbuf. -/
theorem Answers.fitsChain {c : ℕ} {k : ℤ} {tr : List (Action × Reply)} {a : Action} {r : Reply}
    (h : Answers c k (tr ++ [(a, r)])) (hone : OnePbuf k a) {x : List Chunk}
    (hbytes : tr.flatMap (returnedBytes k) ++ x.flatMap Chunk.bytes
      = tr.flatMap (acceptedBytes k)) : FitsChain k c x a := by
  refine ⟨hone, ?_⟩
  rintro length timed rfl y hy
  obtain ⟨hlen, hlt⟩ := h.fits tr length timed r List.prefix_rfl
  rw [← hbytes, List.length_append] at hlen
  have hle : y.bytes.length ≤ (x.flatMap Chunk.bytes).length := by
    cases x with
    | nil => cases hy
    | cons z x =>
      cases hy
      rw [List.flatMap_cons, List.length_append]
      omega
  rw [int32OfUInt32_of_lt hlt]
  omega

theorem servesOk_of_run {k : ℤ} (hk : cfg.InRange k) {c : ℕ} {tr : List (Action × Reply)}
    {s t : Server} (h0 : ServesOk cfg k c [] s)
    (hrun : Run (step cfg)
      (fun s a => ServedOn cfg k s a ∧ UdpHasRoom cfg s a ∧ OnePbuf k a) s tr t)
    (hact : (t.connections k).isActive = true) (hanswers : Answers c k tr) :
    ServesOk cfg k c tr t := by
  induction hrun with
  | nil => exact h0
  | @snoc tr u v a r hrun hok hs ih =>
    obtain ⟨⟨hallowed, hactive, hudp⟩, hroom, hone⟩ := hok
    obtain ⟨hslot, rfl, ch, hrx, hbytes, hcount⟩ := ih hactive hanswers.of_append
    obtain ⟨hslot', howner⟩ := hslot.step hallowed hs hactive hact
    obtain ⟨ch', hrx', hstep⟩ := chainStep hrx hslot hk hallowed hroom
      (ServedOn.ne_udpRecv ⟨hallowed, hactive, hudp⟩) hs hact
    refine ⟨hslot', howner, ch', hrx', ?_, ?_⟩
    · have hcons := hstep.conserves (hanswers.fitsChain hone hbytes)
      simp only [List.flatMap_append, List.flatMap_cons, List.flatMap_nil, List.append_nil]
      rw [List.append_assoc, hcons, ← List.append_assoc, hbytes]
    · exact hstep.length_add_le hslot.table hslot.queue hk hallowed hs hact hone
        (hanswers.count _ List.prefix_rfl) hcount

/-- **Nothing is left behind**, if every delivery on the connection is one pbuf, and no datagram
finds the queue of its owner full. -/
theorem no_stranded_data (cfg : Config) :
    NoStrandedData cfg (UdpHasRoom cfg) fun k s a => UdpHasRoom cfg s a ∧ OnePbuf k a := by
  intro tr₀ s hrun₀ k hk _ hproto hempty tr t hrun hact hanswers hqueued hanswered
  obtain ⟨hT, hq, ch, hrx⟩ := hrun₀.rxInv
  have hch : ch (.inl k) = [] := by
    have hchain := hrx.isChain k
    rwa [hempty, IsChain.none_iff] at hchain
  have h0 : ServesOk cfg k (s.connections k).clientNum [] s := by
    refine ⟨⟨hT, hq, hproto⟩, rfl, ch, hrx, ?_, ?_⟩
    · rw [hch]; rfl
    · rw [hch]; exact Nat.zero_le _
  obtain ⟨-, -, ch', hrx', hbytes, hcount⟩ := servesOk_of_run hk h0 hrun hact hanswers
  -- there is no event left for a pbuf in the chain
  have hzero : (contents cfg t.queue (s.connections k).clientNum).countP
      (ClientEvent.isRecvData k) = 0 := by
    rw [List.countP_eq_zero]
    intro e he
    rw [hqueued e he]
    exact Bool.false_ne_true
  have hnil : rxData t.pbufs (ch' (.inl k)) = [] := by
    rw [← List.length_eq_zero_iff]
    rw [heardOf_eq, hzero, hanswered] at hcount
    omega
  refine ⟨?_, ?_⟩
  · rcases hrx'.exists_head k with ⟨-, hhead⟩ | ⟨p, l, b, hch', -, hb⟩
    · exact hhead
    · rw [hch', rxData_cons hb] at hnil
      cases hnil
  · rwa [hnil, List.flatMap_nil, List.append_nil] at hbytes

/-- A client that answers the one event it is given. -/
theorem answers_once {k : ℤ} {a : Action} {r r' : Reply} {c : ℕ} {length : UInt32} {timed : Bool}
    (hnot : a.isRecv c k = false) (hget : a ≠ .call c .getEvent)
    (hlen : (acceptedBytes k (a, r)).length ≤ length.toNat) (hlt : length.toNat < 2 ^ 31) :
    Answers c k [(a, r), (.call c .getEvent, .event ⟨.recvData, k⟩),
      (.call c (.recv k length timed), r')] := by
  have h₁ : Answers c k ([] ++ [(a, r)]) := by
    refine (Answers.nil c k).concat ?_ fun length timed heq => ?_
    · rw [recvsOn_append, hnot]
      exact Nat.zero_le _
    · rw [show a = _ from heq] at hnot
      simp [Action.isRecv] at hnot
  have h₂ := h₁.concat (x := (.call c .getEvent, .event ⟨.recvData, k⟩)) (by
    rw [recvsOn_append, recvsOn_append, hnot]; exact Nat.zero_le _) fun _ _ heq => by cases heq
  refine h₂.concat ?_ fun length' timed' heq => ?_
  · rw [recvsOn_append, recvsOn_append, recvsOn_append, hnot, recvDataEvents,
      receivedBy_of_ne (by simp), receivedBy_getEvent, receivedBy_of_ne hget, if_pos rfl]
    simp [receivedBy, recvsOn, Action.isRecv, ClientEvent.isRecvData]
  · cases heq
    simpa [acceptedBytes] using And.intro hlen hlt

/-- One pbuf is delivered, and the client answers the event for it. -/
theorem no_stranded_data_answered : ∃ tr₀ tr s t, RunsTo .small (UdpHasRoom .small) tr₀ s ∧
    Run (step .small)
      (fun s a => ServedOn .small 0 s a ∧ UdpHasRoom .small s a ∧ OnePbuf 0 a) s tr t ∧
    tr.flatMap (acceptedBytes 0) = [1, 2] ∧ (t.connections 0).pbuf = none ∧
    tr.flatMap (returnedBytes 0) = tr.flatMap (acceptedBytes 0) := by
  let x : Pbuf := ⟨none, ⟨[1, 2], by decide⟩, 2, 1, false, 0, {}⟩
  let delivery : Action := .happens (.tcpEvent 10 0 (.recv [(100, x)]))
  have hrun₀ : ∃ tr₀ s, RunsTo .small (UdpHasRoom .small) tr₀ s ∧
      ((s.connections 0).isActive = true ∧ (s.connections 0).protocol = .tcp ∧
        (s.connections 0).pbuf = none ∧ (s.connections 0).clientNum = 0) ∧
      (replay (step .small)
        (fun s a => ServedOn .small 0 s a ∧ UdpHasRoom .small s a ∧ OnePbuf 0 a) s
        [delivery, .call 0 .getEvent, .call 0 (.recv 0 1000 false)]).any (fun q => decide
        (q.1 = [(delivery, .err .ok), (.call 0 .getEvent, .event ⟨.recvData, 0⟩),
            (.call 0 (.recv 0 1000 false), .received 2 [1, 2] {} 0)] ∧
          (q.2.connections 0).isActive = true ∧
          ∀ e ∈ contents .small q.2.queue 0, e.isRecvData 0 = false)) = true := by
    refine Run.exists_of_replay
      [.call 0 (.socket .tcp (some 10)), .call 0 (.connect 0 80 {} .ok)] ?_
    decide
  obtain ⟨tr₀, s, hrun₀, ⟨hact, hproto, hempty, howner⟩, hany⟩ := hrun₀
  have hrun : ∃ tr t, Run (step .small)
        (fun s a => ServedOn .small 0 s a ∧ UdpHasRoom .small s a ∧ OnePbuf 0 a) s tr t ∧
      tr = [(delivery, .err .ok), (.call 0 .getEvent, .event ⟨.recvData, 0⟩),
        (.call 0 (.recv 0 1000 false), .received 2 [1, 2] {} 0)] ∧
      (t.connections 0).isActive = true ∧
      ∀ e ∈ contents .small t.queue 0, e.isRecvData 0 = false := Run.exists_of_replay _ hany
  obtain ⟨tr, t, hrun, rfl, hact', hqueued⟩ := hrun
  have hdone := no_stranded_data .small tr₀ s hrun₀ 0 (by decide) hact hproto hempty _ t hrun hact'
    (by rw [howner]; exact answers_once rfl (by decide) (by decide) (by decide))
    (by rw [howner]; exact hqueued) (by rw [howner]; decide)
  exact ⟨tr₀, _, s, t, hrun₀, hrun, by decide, hdone⟩

/-- Two pbufs are delivered in one chain.  The client answers the one event for them, with a buffer
that is large enough for both, and the second stays in the chain. -/
theorem second_pbuf_stranded : ¬ NoStrandedData .small (fun _ _ => True) fun _ _ _ => True := by
  intro hall
  let x : Pbuf := ⟨some 101, ⟨[1, 2], by decide⟩, 3, 1, false, 0, {}⟩
  let y : Pbuf := ⟨none, ⟨[3], by decide⟩, 1, 1, false, 0, {}⟩
  let delivery : Action := .happens (.tcpEvent 10 0 (.recv [(100, x), (101, y)]))
  have hrun₀ : ∃ tr₀ s, RunsTo .small (fun _ _ => True) tr₀ s ∧
      ((s.connections 0).isActive = true ∧ (s.connections 0).protocol = .tcp ∧
        (s.connections 0).pbuf = none ∧ (s.connections 0).clientNum = 0) ∧
      (replay (step .small) (fun s a => ServedOn .small 0 s a ∧ True) s
        [delivery, .call 0 .getEvent, .call 0 (.recv 0 1000 false)]).any (fun q => decide
        (q.1 = [(delivery, .err .ok), (.call 0 .getEvent, .event ⟨.recvData, 0⟩),
            (.call 0 (.recv 0 1000 false), .received 2 [1, 2] {} 0)] ∧
          (q.2.connections 0).isActive = true ∧
          (∀ e ∈ contents .small q.2.queue 0, e.isRecvData 0 = false) ∧
          (q.2.connections 0).pbuf = some 101)) = true := by
    refine Run.exists_of_replay
      [.call 0 (.socket .tcp (some 10)), .call 0 (.connect 0 80 {} .ok)] ?_
    decide
  obtain ⟨tr₀, s, hrun₀, ⟨hact, hproto, hempty, howner⟩, hany⟩ := hrun₀
  have hrun : ∃ tr t, Run (step .small) (fun s a => ServedOn .small 0 s a ∧ True) s tr t ∧
      tr = [(delivery, .err .ok), (.call 0 .getEvent, .event ⟨.recvData, 0⟩),
        (.call 0 (.recv 0 1000 false), .received 2 [1, 2] {} 0)] ∧
      (t.connections 0).isActive = true ∧
      (∀ e ∈ contents .small t.queue 0, e.isRecvData 0 = false) ∧
      (t.connections 0).pbuf = some 101 := Run.exists_of_replay _ hany
  obtain ⟨tr, t, hrun, rfl, hact', hqueued, hleft⟩ := hrun
  have hempty' := (hall tr₀ s hrun₀ 0 (by decide) hact hproto hempty _ t hrun hact'
    (by rw [howner]; exact answers_once rfl (by decide) (by decide) (by decide))
    (by rw [howner]; exact hqueued) (by rw [howner]; decide)).1
  rw [hleft] at hempty'
  cases hempty'

end Xtcp
