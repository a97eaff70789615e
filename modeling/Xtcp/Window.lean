import Xtcp.Calm
import Xtcp.Stranded

/-!
# The receive window

lwIP opens the receive window of a connection again by what `tcp_recved` is told.  A `recv` tells
it the length of the pbuf that is taken off the chain.  A close tells it the field `tot_len` of the
first pbuf, for all that is still in the chain; but `set_remote` links the pbufs without adding up
that field, and so what is behind the first pbuf is left out.

## Main definitions

* `creditOf` — what `tcp_recved` has been told for a control block.
* `CreditedAtClose` — what it has been told at the end of a connection.
* `WindowConserved` — what it has been told is what was accepted, less what is in the chain.
* `OnlyHolder` — no other slot has the control block of a slot.
* `NothingBehind` — there are no bytes behind the first pbuf of a slot.

## Main results

* `credit_step` — which steps tell lwIP about a control block.
* `window_conserved` — **the window is conserved, and at the close exactly if there is nothing
  behind the first pbuf**.
-/

namespace Xtcp

open Runs LinkedChain

variable {cfg : Config} {s s' : Server} {k : ℤ} {p : Ptr}

/-- The sum of the lengths that `tcp_recved` has been told for the control block at `p`. -/
def creditOf (s : Server) (p : Ptr) : ℕ := ((s.tcp p).map TcpPcb.recved).getD 0

/-- What `tcp_recved` has been told when client `c` closes slot `k`.  It is told last when the
received data is released; `tcp_close` comes after that, and may end the control block. -/
def CreditedAtClose (cfg : Config) (s : Server) (c : ℕ) (k : ℤ) (p : Ptr) (n : ℕ) : Prop :=
  ∃ u, clearPendingRxDataOnConnection cfg
      { s with queue := (freeNotificationsOnQueue cfg s.queue c k).1 } k = .ok u ∧ creditOf u p = n

/-- The control block of slot `k` is the one at `p`, and lwIP has it. -/
def HasPcb (s : Server) (k : ℤ) (p : Ptr) : Prop :=
  (s.connections k).pcb.addr = some p ∧ (s.tcp p).isSome = true

/-- Slot `k` is active with the control block at `p`, and its data comes from `LWIP_EVENT_RECV` in
single pbufs whose `tot_len` is their `len`. -/
def WindowOn (cfg : Config) (k : ℤ) (p : Ptr) (s : Server) (a : Action) : Prop :=
  ServedOn cfg k s a ∧ HasPcb s k p ∧ OnePbuf k a ∧
    match a with
    | .happens (.tcpEvent _ arg (.recv cells)) => arg = k → ∀ c ∈ cells, c.2.totLen = c.2.len
    | _ => True

instance (k : ℤ) (p : Ptr) : Decidable (HasPcb s k p) := inferInstanceAs (Decidable (_ ∧ _))

instance (k : ℤ) (p : Ptr) : (a : Action) → Decidable (WindowOn cfg k p s a)
  | .happens (.tcpEvent _ arg (.recv cells)) =>
    inferInstanceAs (Decidable (_ ∧ _ ∧ _ ∧ (arg = k → ∀ c ∈ cells, c.2.totLen = c.2.len)))
  | .call _ _ | .happens (.syn _ _) | .happens (.udpRecv _ _ _ _ _) | .happens (.dnsFound _ _ _)
  | .happens (.reap _) | .happens (.dropRefused _) | .happens (.linkStatus _)
  | .happens (.timeout _ _ _) | .happens (.tcpEvent _ _ .accept)
  | .happens (.tcpEvent _ _ .acceptFailed) | .happens (.tcpEvent _ _ .connected)
  | .happens (.tcpEvent _ _ .sent) | .happens (.tcpEvent _ _ .poll)
  | .happens (.tcpEvent _ _ (.err _)) => inferInstanceAs (Decidable (_ ∧ _ ∧ _ ∧ True))

/-- The receive window is conserved.  Take a history whose steps meet `C₀`, and an active TCP slot
`k` with an empty chain; and go on from there with steps that meet `C`, while `k` is active with the
control block at `p`.  Then what `tcp_recved` has been told since is what was accepted, less what
is in the chain; and when the owner closes the slot, it is all that was accepted, exactly in the
states that meet `D`. -/
def WindowConserved (cfg : Config) (C₀ : Server → Action → Prop)
    (C : ℤ → Ptr → Server → Action → Prop) (D : ℤ → Server → Prop) : Prop :=
  ∀ tr₀ s, RunsTo cfg C₀ tr₀ s → ∀ k p, cfg.InRange k → (s.connections k).isActive = true →
    (s.connections k).protocol = .tcp → (s.connections k).pbuf = none → HasPcb s k p →
    ∀ tr t, Run (step cfg) (fun s a => WindowOn cfg k p s a ∧ C k p s a) s tr t →
      (t.connections k).isActive = true → HasPcb t k p →
      (∃ l, IsChain t.pbufs.nxt (t.connections k).pbuf l ∧
        creditOf t p + (chainBytes t.pbufs l).length
          = creditOf s p + (tr.flatMap (acceptedBytes k)).length) ∧
      (CreditedAtClose cfg t (t.connections k).clientNum k p
          (creditOf s p + (tr.flatMap (acceptedBytes k)).length) ↔ D k t) ∧
      ∀ call lingers t' r, call.closes k lingers →
        step cfg t (.call (t.connections k).clientNum call) = .ok (t', r) →
        t'.tcp p = none ∨ CreditedAtClose cfg t (t.connections k).clientNum k p (creditOf t' p)

/-- No other slot has the control block at `p`. -/
def OnlyHolder (k : ℤ) (p : Ptr) (s : Server) : Prop :=
  ∀ j, j ≠ k → (s.connections j).pcb.addr ≠ some p

/-- There are no bytes behind the first pbuf of slot `k`. -/
def NothingBehind (k : ℤ) (s : Server) : Prop :=
  ∀ l, IsChain s.pbufs.nxt (s.connections k).pbuf l → chainBytes s.pbufs l.tail = []

/-! ### What lwIP is told -/

theorem creditOf_tcpRecved (h : (s.tcp p).isSome = true) (n : ℕ) :
    creditOf (tcpRecved s p n) p = creditOf s p + n := by
  obtain ⟨b, hb⟩ := Option.isSome_iff_exists.mp h
  simp [creditOf, tcpRecved, Server.modifyTcp, hb]

/-- A control block that has not ended has been told nothing. -/
theorem Calm.creditOf {A : Set Ptr} (h : Calm A s s') (hp : p ∉ A) :
    s'.tcp p = none ∨ creditOf s' p = creditOf s p := by
  rcases h.recved p hp with h | h
  · right
    rw [Xtcp.creditOf, h, Xtcp.creditOf]
  · exact .inl h

/-- **Which steps tell lwIP about the control block of slot `k`**, while the slot stays active: a
receive of its owner, and nothing else. -/
theorem credit_step {a : Action} {r : Reply} (hok : Allowed cfg s a) (hs : step cfg s a = .ok (s',
    r))
    (hk : cfg.InRange k) (hproto : (s.connections k).protocol = .tcp)
    (hact : (s'.connections k).isActive = true) (hpcb : HasPcb s k p) (honly : OnlyHolder k p s) :
    (∃ length timed, a = .call (s.connections k).clientNum (.recv k length timed) ∧
        receive cfg s k length timed {} = .ok (s', r)) ∨
      (∀ length timed, a ≠ .call (s.connections k).clientNum (.recv k length timed)) ∧
        (s'.tcp p = none ∨ creditOf s' p = creditOf s p) := by
  -- a control block that is made has another address
  have hfresh : ¬ FreshPcb s p := by
    rintro ⟨hnone, -⟩
    have halive := hpcb.2
    rw [hnone] at halive
    cases halive
  have htouches : ∀ {i call j}, a = .call i call → a.touches = some j →
      (s.connections j).pcb.addr = some p →
      (∃ length timed, a = .call (s.connections k).clientNum (.recv k length timed) ∧
          receive cfg s k length timed {} = .ok (s', r)) ∨
        (∀ length timed, a ≠ .call (s.connections k).clientNum (.recv k length timed)) ∧
          (s'.tcp p = none ∨ creditOf s' p = creditOf s p) := by
    rintro i call j rfl htouch hj
    obtain rfl : j = k := by
      by_contra hjk
      exact honly j hjk hj
    obtain ⟨length, timed, rfl, rfl, hrecv⟩ | ⟨rfl, hnot, -⟩ :=
      call_touches_cases htouch hk hproto hs hact
    · exact .inl ⟨length, timed, rfl, hrecv⟩
    · refine .inr ⟨fun length timed heq => ?_, .inr rfl⟩
      cases heq
      exact hnot length timed rfl rfl
  by_cases hp : p ∈ a.pcbs s
  · unfold Action.pcbs at hp
    split at hp
    · exact absurd (hok.2 p hp) hfresh
    · exact absurd (hok.2.2 p hp) hfresh
    · exact htouches rfl rfl hp
    · exact htouches rfl rfl hp
    · exact htouches rfl rfl hp
    · exact htouches rfl rfl hp
    · next l n =>
      have hn : p = n := hp
      rw [hn] at hfresh
      exact absurd hok.2 hfresh
    · exact absurd hp (Set.notMem_empty p)
  · refine .inr ⟨?_, ?_⟩
    · rintro length timed rfl
      exact hp hpcb.1
    · have hcalm := (calm_step hs).creditOf hp
      have haside : creditOf (aside cfg s a) p = creditOf s p := by
        rw [creditOf, tcp_aside, creditOf]
      rwa [haside] at hcalm

/-- The length of the first pbuf. -/
def headLen (x : List Chunk) : ℕ := (x.head?.map fun y => y.bytes.length).getD 0

/-- A receive tells lwIP the length of the pbuf it takes off. -/
theorem creditOf_receive {ch : Holder → List Ptr} (h : RxOk s s.refused ch) (hk : cfg.InRange k)
    (hproto : (s.connections k).protocol = .tcp) (hpcb : HasPcb s k p) {length : UInt32}
    {timed : Bool} {r : Reply} (hs : receive cfg s k length timed {} = .ok (s', r)) :
    creditOf s' p = creditOf s p + headLen (rxData s.pbufs (ch (.inl k))) := by
  obtain ⟨copy, -, hs⟩ := bind_eq_ok.mp hs
  obtain ⟨⟨t, e⟩, ht, hs⟩ := bind_eq_ok.mp hs
  obtain rfl : t = s' := congrArg Prod.fst (Except.ok.inj hs)
  rcases h.exists_head k with ⟨hch, -⟩ | ⟨q, l, b, hch, hhead, hb⟩
  · rw [h.freeRemoteData_nil hch] at ht
    cases ht
    rw [hch]
    rfl
  · have hload : s.pbufs.load q = .ok b := Pbufs.load_eq_ok.mpr hb
    have hget : getTcpPcb cfg s k = some p := by rw [getTcpPcb, if_pos ⟨hk, hproto⟩, hpcb.1]
    simp only [freeRemoteData, if_pos hk, hhead, hload, if_pos hproto, hget, Bind.bind,
      Except.bind] at ht
    split at ht
    · cases ht
    · obtain ⟨rfl, -⟩ := Prod.mk.inj (Except.ok.inj ht)
      rw [hch, rxData_cons hb]
      exact creditOf_tcpRecved hpcb.2 b.len

/-- A close tells lwIP the `tot_len` of the first pbuf. -/
theorem creditedAtClose_iff {ch : Holder → List Ptr} (h : RxOk s s.refused ch)
    (hk : cfg.InRange k) (hproto : (s.connections k).protocol = .tcp) (hpcb : HasPcb s k p) (c : ℕ)
    (n : ℕ) :
    CreditedAtClose cfg s c k p n ↔ creditOf s p
      + ((rxData s.pbufs (ch (.inl k))).head?.map Chunk.totLen).getD 0 = n := by
  have hclear : ∃ u, clearPendingRxDataOnConnection cfg
        { s with queue := (freeNotificationsOnQueue cfg s.queue c k).1 } k = .ok u ∧
      creditOf u p = creditOf s p
        + ((rxData s.pbufs (ch (.inl k))).head?.map Chunk.totLen).getD 0 := by
    rcases h.exists_head k with ⟨hch, hhead⟩ | ⟨q, l, b, hch, hhead, hb⟩
    · refine ⟨{ s with queue := (freeNotificationsOnQueue cfg s.queue c k).1 }, ?_, ?_⟩
      · simp only [clearPendingRxDataOnConnection, if_pos hk, hhead]
      · rw [hch]
        rfl
    · have hload : s.pbufs.load q = .ok b := Pbufs.load_eq_ok.mpr hb
      obtain ⟨m, hm, -⟩ := h.pbufFree (i := .inl k) hhead
      refine ⟨{ (tcpRecved { s with queue := (freeNotificationsOnQueue cfg s.queue c k).1 } p
        b.totLen).setEntry k { s.connections k with pbuf := none } with pbufs := m }, ?_, ?_⟩
      · simp only [clearPendingRxDataOnConnection, if_pos hk, hhead, hload, hm, if_pos hproto,
          hpcb.1, Bind.bind, Except.bind]
      · rw [hch, rxData_cons hb]
        exact creditOf_tcpRecved hpcb.2 b.totLen
  obtain ⟨u, hu, hcredit⟩ := hclear
  rw [← hcredit]
  constructor
  · rintro ⟨v, hv, hn⟩
    obtain rfl : u = v := Except.ok.inj (hu.symm.trans hv)
    exact hn
  · intro hn
    exact ⟨u, hu, hn⟩

/-- After the close, lwIP has been told what it was told at the close, or the control block has
ended. -/
theorem creditOf_close {c : ℕ} (hown : s.table.OwnedBy cfg c k) {call : Call} {lingers : Bool}
    (hcloses : call.closes k lingers) {r : Reply}
    (hs : step cfg s (.call c call) = .ok (s', r)) :
    s'.tcp p = none ∨ CreditedAtClose cfg s c k p (creditOf s' p) := by
  obtain ⟨t, ht, rfl⟩ := shimCloseSocket_of_closes hcloses hs
  have hfind : (findClientConnection cfg s c k).status = .success := find_success_iff.mpr hown
  rw [shimCloseSocket, if_neg (not_not.mpr hfind)] at ht
  obtain ⟨u, hu, ht⟩ := bind_eq_ok.mp ht
  cases ht
  have hcalm : Calm ∅ u (freeClientConnection cfg (closePcb cfg u k lingers) k) :=
    (Calm.closePcb u k lingers).trans (Calm.freeClientConnection _ k)
  rcases hcalm.creditOf (Set.notMem_empty p) with hnone | hcredit
  · exact .inl hnone
  · exact .inr ⟨u, hu, hcredit.symm⟩

/-! ### Runs -/

/-- **One step conserves the window**: what lwIP is told, and what is in the chain, changes by what
is accepted. -/
theorem ChainStep.window {c : ℕ} {a : Action} {r : Reply} {x x' : List Chunk}
    (hstep : ChainStep k c a r x x') (hone : OnePbuf k a) {n n' : ℕ}
    (hrecv : ∀ length timed, a = .call c (.recv k length timed) → n' = n + headLen x)
    (hother : (∀ length timed, a ≠ .call c (.recv k length timed)) → n' = n) :
    n' + (x'.flatMap Chunk.bytes).length
      = n + (x.flatMap Chunk.bytes).length + (acceptedBytes k (a, r)).length := by
  cases hstep with
  | idle hnot hdelivery _ =>
    rw [hother hnot, acceptedBytes_of_ne hdelivery, List.length_nil, Nat.add_zero]
  | @accepted pcb cells =>
    rw [hother (fun _ _ heq => by cases heq), acceptedBytes_accepted, List.flatMap_append,
      List.length_append, Nat.add_assoc]
  | @refused pcb cells e _ he =>
    rw [hother (fun _ _ heq => by cases heq), acceptedBytes_refused k pcb cells he,
      hone.tail_eq_nil, List.map_nil, List.append_nil, List.length_nil, Nat.add_zero]
  | @receivedNone length timed => rw [hrecv length timed rfl]; rfl
  | @received length timed _ _ _ _ y =>
    rw [hrecv length timed rfl, List.flatMap_cons, List.length_append]
    have hhead : headLen (y :: x') = y.bytes.length := rfl
    have hacc : ∀ result data remote timestamp, acceptedBytes k
      (.call c (.recv k length timed), .received result data remote timestamp) = [] :=
      fun _ _ _ _ => rfl
    rw [hhead, hacc, List.length_nil]
    omega

/-- The pbufs of the chain have the `tot_len` they were delivered with. -/
theorem ChainStep.totLen_eq {c : ℕ} {a : Action} {r : Reply} {x x' : List Chunk}
    (hstep : ChainStep k c a r x x') (hone : OnePbuf k a)
    (hsingle : ∀ pcb cells, a = .happens (.tcpEvent pcb k (.recv cells)) →
      ∀ c ∈ cells, c.2.totLen = c.2.len)
    (h : ∀ y ∈ x, y.totLen = y.bytes.length) : ∀ y ∈ x', y.totLen = y.bytes.length := by
  cases hstep with
  | idle => exact h
  | @accepted pcb cells =>
    intro y hy
    rcases List.mem_append.mp hy with hy | hy
    · exact h y hy
    · obtain ⟨c, hc, rfl⟩ := List.mem_map.mp hy
      exact hsingle pcb cells rfl c hc
  | @refused pcb cells =>
    intro y hy
    rcases List.mem_append.mp hy with hy | hy
    · exact h y hy
    · obtain ⟨c, hc, rfl⟩ := List.mem_map.mp hy
      exact hsingle pcb cells rfl c (List.mem_of_mem_tail hc)
  | receivedNone => exact h
  | received => exact fun y hy => h y (List.mem_cons_of_mem _ hy)

/-- The state along a history of slot `k`, whose control block had been told `n` at the start. -/
structure WindowOk (cfg : Config) (k : ℤ) (p : Ptr) (n : ℕ) (tr : List (Action × Reply))
    (t : Server) : Prop extends TcpSlotOk cfg k t where
  /-- The window is conserved, and each pbuf has its own length for `tot_len`. -/
  chain : ∃ ch, RxOk t t.refused ch ∧
    creditOf t p + ((rxData t.pbufs (ch (.inl k))).flatMap Chunk.bytes).length
      = n + (tr.flatMap (acceptedBytes k)).length ∧
    ∀ y ∈ rxData t.pbufs (ch (.inl k)), y.totLen = y.bytes.length

theorem windowOk_of_run (hk : cfg.InRange k) {n : ℕ} {tr : List (Action × Reply)} {t : Server}
    (h0 : WindowOk cfg k p n [] s)
    (hrun : Run (step cfg)
      (fun s a => WindowOn cfg k p s a ∧ UdpHasRoom cfg s a ∧ OnlyHolder k p s) s tr t)
    (hact : (t.connections k).isActive = true) (hpcb : HasPcb t k p) :
    WindowOk cfg k p n tr t := by
  induction hrun with
  | nil => exact h0
  | @snoc tr u v a r hrun hok hs ih =>
    obtain ⟨⟨hserved, hpcb', hone, hsingle⟩, hroom, honly⟩ := hok
    have hallowed := hserved.1
    have hactive := hserved.2.1
    obtain ⟨hslot, ch, hrx, hcredit, htot⟩ := ih hactive hpcb'
    obtain ⟨ch', hrx', hstep⟩ := chainStep hrx hslot hk hallowed hroom hserved.ne_udpRecv hs hact
    refine ⟨(hslot.step hallowed hs hactive hact).1, ch', hrx', ?_, ?_⟩
    · have htold := credit_step hallowed hs hk hslot.protocol hact hpcb' honly
      have hrecv : ∀ length timed, a = .call (u.connections k).clientNum (.recv k length timed) →
          creditOf v p = creditOf u p + headLen (rxData u.pbufs (ch (.inl k))) := by
        rintro length timed rfl
        obtain ⟨length', timed', -, hrecv⟩ | ⟨hnot, -⟩ := htold
        · exact creditOf_receive hrx hk hslot.protocol hpcb' hrecv
        · exact absurd rfl (hnot length timed)
      have hother : (∀ length timed,
          a ≠ .call (u.connections k).clientNum (.recv k length timed)) →
          creditOf v p = creditOf u p := by
        intro hnot
        obtain ⟨length, timed, heq, -⟩ | ⟨-, hended | hsame⟩ := htold
        · exact absurd heq (hnot length timed)
        · have halive := hpcb.2
          rw [hended] at halive
          cases halive
        · exact hsame
      rw [hstep.window hone hrecv hother, hcredit, List.flatMap_append, List.length_append,
        Nat.add_assoc]
      simp
    · refine hstep.totLen_eq hone ?_ htot
      rintro pcb cells rfl
      exact hsingle rfl

/-- **The receive window is conserved**, for as long as no other slot has the control block and no
datagram finds the queue of its owner full.  At the close lwIP is told all the rest, exactly if
there are no bytes behind the first pbuf. -/
theorem window_conserved (cfg : Config) :
    WindowConserved cfg (UdpHasRoom cfg) (fun k p s a => UdpHasRoom cfg s a ∧ OnlyHolder k p s)
      NothingBehind := by
  intro tr₀ s hrun₀ k p hk _ hproto hempty _ tr t hrun hact hpcb
  obtain ⟨hT, hq, ch, hrx⟩ := hrun₀.rxInv
  have hch : ch (.inl k) = [] := by
    have hchain := hrx.isChain k
    rwa [hempty, IsChain.none_iff] at hchain
  have h0 : WindowOk cfg k p (creditOf s p) [] s := by
    refine ⟨⟨hT, hq, hproto⟩, ch, hrx, ?_, ?_⟩
    · rw [hch]; rfl
    · rw [hch]; exact fun y hy => absurd hy List.not_mem_nil
  obtain ⟨hslot, ch', hrx', hcredit, htot⟩ := windowOk_of_run hk h0 hrun hact hpcb
  have hchain := hrx'.isChain k
  refine ⟨⟨ch' (.inl k), hchain, ?_⟩, ?_, ?_⟩
  · rw [chainBytes_eq]
    exact hcredit
  · rw [creditedAtClose_iff hrx' hk hslot.protocol hpcb, ← hcredit]
    have hbehind : NothingBehind k t ↔ chainBytes t.pbufs (ch' (.inl k)).tail = [] := by
      constructor
      · intro h
        exact h _ hchain
      · intro h l hl
        rwa [hl.eq hchain]
    rw [hbehind, chainBytes_eq]
    rcases hrx'.exists_head k with ⟨hch', -⟩ | ⟨q, l, b, hch', -, hb⟩
    · rw [hch']
      exact iff_of_true rfl rfl
    · rw [hch', rxData_cons hb] at htot ⊢
      rw [List.head?_cons, Option.map_some, Option.getD_some, htot _ List.mem_cons_self,
        List.tail_cons, List.flatMap_cons, List.length_append, ← List.length_eq_zero_iff]
      omega
  · intro call lingers t' r hcloses hs
    exact creditOf_close ⟨hk, rfl⟩ hcloses hs

/-- Two pbufs are in the chain when the client closes the connection, and lwIP is told about the
first. -/
theorem second_pbuf_not_credited :
    ¬ WindowConserved .roomy (fun _ _ => True) (fun _ _ _ _ => True) fun _ _ => True := by
  intro hall
  let x : Pbuf := ⟨none, ⟨[1, 2], by decide⟩, 2, 1, false, 0, {}⟩
  let y : Pbuf := ⟨none, ⟨[3], by decide⟩, 1, 1, false, 0, {}⟩
  have hrun₀ : ∃ tr₀ s, RunsTo .roomy (fun _ _ => True) tr₀ s ∧
      ((s.connections 0).isActive = true ∧ (s.connections 0).protocol = .tcp ∧
        (s.connections 0).pbuf = none ∧ HasPcb s 0 10 ∧ creditOf s 10 = 0) ∧
      (replay (step .roomy) (fun s a => WindowOn .roomy 0 10 s a ∧ True) s
        [.happens (.tcpEvent 10 0 (.recv [(100, x)])),
          .happens (.tcpEvent 10 0 (.recv [(101, y)]))]).any (fun q => decide
        ((q.2.connections 0).isActive = true ∧ HasPcb q.2 0 10 ∧
          (q.1.flatMap (acceptedBytes 0)).length = 3 ∧
          (step .roomy q.2 (.call (q.2.connections 0).clientNum (.close 0 true))).toOption.any
            (fun z => decide ((z.1.tcp 10).isSome = true ∧
              creditOf z.1 10 = 2)) = true)) = true := by
    refine Run.exists_of_replay
      [.call 0 (.socket .tcp (some 10)), .call 0 (.connect 0 80 {} .ok)] ?_
    decide
  obtain ⟨tr₀, s, hrun₀, ⟨hact, hproto, hempty, hpcb, hzero⟩, hany⟩ := hrun₀
  have hrun : ∃ tr t, Run (step .roomy) (fun s a => WindowOn .roomy 0 10 s a ∧ True) s tr t ∧
      (t.connections 0).isActive = true ∧ HasPcb t 0 10 ∧
      (tr.flatMap (acceptedBytes 0)).length = 3 ∧
      (step .roomy t (.call (t.connections 0).clientNum (.close 0 true))).toOption.any
        (fun z => decide ((z.1.tcp 10).isSome = true ∧ creditOf z.1 10 = 2)) = true :=
    Run.exists_of_replay _ hany
  obtain ⟨tr, t, hrun, hact', hpcb', hacc, hclose⟩ := hrun
  obtain ⟨-, hat, hafter⟩ := hall tr₀ s hrun₀ 0 10 (by decide) hact hproto hempty hpcb tr t hrun
    hact' hpcb'
  cases hs : step .roomy t (.call (t.connections 0).clientNum (.close 0 true)) with
  | error e => rw [hs] at hclose; cases hclose
  | ok z =>
    obtain ⟨t', r⟩ := z
    rw [hs] at hclose
    obtain ⟨halive, htold⟩ := of_decide_eq_true hclose
    obtain ⟨u, hu, hcredit⟩ := hat.mpr trivial
    rcases hafter (.close 0 true) true t' r ⟨rfl, rfl⟩ hs with hended | ⟨v, hv, hcredit'⟩
    · rw [hended] at halive
      cases halive
    · -- one close, told 3 and 2
      obtain rfl : u = v := Except.ok.inj (hu.symm.trans hv)
      rw [hcredit', htold, hzero, hacc] at hcredit
      omega

end Xtcp
