import Xtcp.TcpChain

/-!
# Receiving on a TCP connection

The bytes of a connection go through three hands: lwIP delivers a pbuf, the chain of the slot
holds it, and `recv` returns it.  A delivery can be refused, because the queue of the client is
full with events of other connections; lwIP then keeps the pbuf and delivers it again.

With the bytes returned so far in front of the bytes in the chain, each step adds the same bytes
on both sides of an equation with the bytes accepted so far.

## Main definitions

* `acceptedBytes`, `returnedBytes` — what a step accepts from lwIP and returns to the client.
* `chainBytes` — the bytes in a chain.
* `ReceivesWell` — the deliveries and receives on a slot are of the expected kind.

## Main results

* `receive_step` — one step.
* `receive_exact` — **what is returned, and what is still in the chain, is what was accepted**.
-/

namespace Xtcp

open Runs LinkedChain

variable {cfg : Config} {s s' : Server}

/-! ### Servers without UDP -/

/-- No UDP socket is made. -/
def TcpOnly : Action → Prop
  | .call _ (.socket protocol _) => protocol ≠ .udp
  | _ => True

instance (a : Action) : Decidable (TcpOnly a) := by
  unfold TcpOnly
  split <;> infer_instance

/-- Without UDP sockets there are no UDP control blocks. -/
theorem noUdp_step {T T' : Table} {a : Action} {r : Reply} (h : ∀ p, T.udp p = false)
    (htcp : TcpOnly a) (hstep : TableStep cfg T a r T') : ∀ p, T'.udp p = false := by
  have hrelease : ∀ (T : Table) (k : ℤ), (T.release cfg k).udp = T.udp := by
    intro T k
    unfold Table.release
    split <;> rfl
  intro p
  cases hstep with
  | socketUdp => exact absurd rfl htcp
  | close =>
    rw [hrelease]
    unfold Table.closePcb
    split
    · exact h p
    · next q _ _ =>
      by_cases hp : p = q
      · subst hp; simp [Table.setUdp]
      · simpa [Table.setUdp, hp] using h p
    · exact h p
  | acceptAborted | acceptRefused | err => rw [hrelease]; exact h p
  | _ => exact h p

/-- Without UDP control blocks no datagram arrives. -/
theorem udpHasRoom_of_noUdp (h : ∀ p, s.table.udp p = false) {a : Action} (hok : Allowed cfg s a) :
    UdpHasRoom cfg s a ∧ ∀ pcb arg cells addr port, a ≠ .happens (.udpRecv pcb arg cells addr
      port) := by
  have hnone : ∀ pcb arg cells addr port,
      ¬ Allowed cfg s (.happens (.udpRecv pcb arg cells addr port)) := by
    rintro pcb arg cells addr port ⟨harg, -⟩
    have hp : (s.udp pcb).isSome = false := h pcb
    rw [Option.isSome_eq_false_iff, Option.isNone_iff_eq_none] at hp
    rw [hp] at harg
    cases harg
  constructor
  · unfold UdpHasRoom
    split
    · exact absurd hok (hnone _ _ _ _ _)
    · trivial
  · rintro pcb arg cells addr port rfl
    exact hnone _ _ _ _ _ hok

/-- **The chains are sound** along a history without UDP sockets. -/
theorem RunsTo.rxInv_of_tcpOnly {tr : List (Action × Reply)} {s : Server}
    (hrun : RunsTo cfg (fun _ a => TcpOnly a) tr s) :
    RxInv cfg s ∧ ∀ p, s.table.udp p = false := by
  refine Run.invariant (I := fun s => RxInv cfg s ∧ ∀ p, s.table.udp p = false) hrun
    ⟨rxInv_init, fun _ => rfl⟩ ?_
  rintro s a s' r ⟨hrx, hudp⟩ ⟨hok, htcp⟩ hs
  exact ⟨hrx.step hok (udpHasRoom_of_noUdp hudp hok).1 hs,
    noUdp_step hudp htcp (step_table hrx.table.cursor hok hs)⟩

/-! ### Bytes -/

/-- The bytes a step accepts from lwIP for slot `k`. -/
def acceptedBytes (k : ℤ) : Action × Reply → List UInt8
  | (.happens (.tcpEvent _ arg (.recv cells)), .err .ok) =>
    if arg = k then cells.flatMap fun c => c.2.payload.bytes else []
  | _ => []

/-- The bytes a step returns to a client that receives on slot `k`. -/
def returnedBytes (k : ℤ) : Action × Reply → List UInt8
  | (.call _ (.recv id _ _), .received _ data _ _) => if id = k then data else []
  | _ => []

/-- The bytes of a pbuf. -/
def pbufBytes (m : Pbufs) (p : Ptr) : List UInt8 := ((m p).map fun b => b.payload.bytes).getD []

/-- The bytes in a chain. -/
def chainBytes (m : Pbufs) (l : List Ptr) : List UInt8 := l.flatMap (pbufBytes m)

theorem chainBytes_eq (m : Pbufs) (l : List Ptr) :
    chainBytes m l = (rxData m l).flatMap Chunk.bytes := by
  induction l with
  | nil => rfl
  | cons p l ih =>
    rw [chainBytes, List.flatMap_cons, ← chainBytes, ih]
    cases hp : m p with
    | none => rw [pbufBytes, hp, rxData, rxData, List.filterMap_cons_none (by rw [hp]; rfl)]; rfl
    | some b => rw [pbufBytes, hp, rxData_cons hp]; rfl

/-- A delivery on slot `k` is one pbuf, or none when the other side has closed the connection;
and the buffer of a receive by the owner is long enough for the first pbuf. -/
def ReceivesWell (k : ℤ) (s : Server) : Action → Prop
  | .happens (.tcpEvent _ arg (.recv cells)) => arg = k → cells.length ≤ 1
  | .call i (.recv id length _) => id = k → (s.connections k).clientNum = i →
      length.toNat < 2 ^ 31 ∧ IfSome (s.connections k).pbuf fun p =>
        IfSome (s.pbufs p) fun b => b.len ≤ length.toNat
  | _ => True

instance (k : ℤ) (a : Action) : Decidable (ReceivesWell k s a) := by
  unfold ReceivesWell
  split <;> infer_instance

/-- The bytes of a connection are the same on both sides of a step: what it returns, and what
is in the chain after it, is what was in the chain before it, and what it accepts. -/
def Conserves (k : ℤ) (s s' : Server) (l l' : List Ptr) (x : Action × Reply) : Prop :=
  returnedBytes k x ++ chainBytes s'.pbufs l' = chainBytes s.pbufs l ++ acceptedBytes k x

/-- A delivery on slot `k` is one pbuf, or none when the other side has closed the connection. -/
def OnePbuf (k : ℤ) : Action → Prop
  | .happens (.tcpEvent _ arg (.recv cells)) => arg = k → cells.length ≤ 1
  | _ => True

instance (k : ℤ) (a : Action) : Decidable (OnePbuf k a) := by
  unfold OnePbuf
  split <;> infer_instance

/-- There is nothing behind a pbuf that is delivered alone. -/
theorem OnePbuf.tail_eq_nil {k : ℤ} {pcb : Ptr} {cells : List (Ptr × Pbuf)}
    (h : OnePbuf k (.happens (.tcpEvent pcb k (.recv cells)))) : cells.tail = [] := by
  have hlen : cells.length ≤ 1 := h rfl
  rw [← List.length_eq_zero_iff, List.length_tail]
  omega

/-- A delivery on slot `k` is one pbuf, or none; and the buffer of a receive by client `c` is long
enough for the first of the chunks in the chain. -/
def FitsChain (k : ℤ) (c : ℕ) (x : List Chunk) (a : Action) : Prop :=
  OnePbuf k a ∧ ∀ length timed, a = .call c (.recv k length timed) →
    ∀ y ∈ x.head?, (y.bytes.length : ℤ) ≤ int32OfUInt32 length

/-- What is received fits the chain of a slot. -/
theorem fitsChain_of_receivesWell {ch : Holder → List Ptr} (h : RxOk s s.refused ch) {k : ℤ}
    {a : Action} (hwell : ReceivesWell k s a) :
    FitsChain k (s.connections k).clientNum (rxData s.pbufs (ch (.inl k))) a := by
  constructor
  · unfold OnePbuf
    split
    · exact hwell
    · trivial
  · rintro length timed rfl y hy
    obtain ⟨hlt, hfits⟩ := hwell rfl rfl
    rcases h.exists_head k with ⟨hch, -⟩ | ⟨p, l, b, hch, hhead, hb⟩
    · rw [hch] at hy
      cases hy
    · rw [hch, rxData_cons hb, List.head?_cons, Option.mem_some_iff] at hy
      subst hy
      rw [int32OfUInt32_of_lt hlt]
      exact_mod_cast hfits p hhead b hb

/-- Only a delivery brings bytes. -/
theorem acceptedBytes_of_ne {k : ℤ} {a : Action}
    (h : ∀ pcb cells, a ≠ .happens (.tcpEvent pcb k (.recv cells))) (r : Reply) :
    acceptedBytes k (a, r) = [] := by
  unfold acceptedBytes
  split
  · next pcb arg cells heq =>
    cases heq
    exact if_neg fun harg => h pcb cells (by rw [harg])
  · rfl

theorem acceptedBytes_accepted (k : ℤ) (pcb : Ptr) (cells : List (Ptr × Pbuf)) :
    acceptedBytes k (.happens (.tcpEvent pcb k (.recv cells)), .err .ok)
      = (cells.map fun c => c.2.chunk).flatMap Chunk.bytes := by
  rw [acceptedBytes, if_pos rfl, List.flatMap_map]
  rfl

theorem acceptedBytes_refused (k : ℤ) (pcb : Ptr) (cells : List (Ptr × Pbuf)) {e : Err}
    (he : e ≠ .ok) : acceptedBytes k (.happens (.tcpEvent pcb k (.recv cells)), .err e) = [] := by
  cases e <;> first | rfl | exact absurd rfl he

/-- **The bytes are the same on both sides of a step.** -/
theorem ChainStep.conserves {k : ℤ} {c : ℕ} {a : Action} {r : Reply} {x x' : List Chunk}
    (hstep : ChainStep k c a r x x') (hfits : FitsChain k c x a) :
    returnedBytes k (a, r) ++ x'.flatMap Chunk.bytes
      = x.flatMap Chunk.bytes ++ acceptedBytes k (a, r) := by
  cases hstep with
  | idle _ hdelivery hnone =>
    have hret : returnedBytes k (a, r) = [] := by
      unfold returnedBytes
      split
      · next i id length timed result data remote timestamp heq =>
        cases heq
        split
        · next hid =>
          subst hid
          exact hnone i length timed result data remote timestamp rfl rfl
        · rfl
      · rfl
    rw [hret, acceptedBytes_of_ne hdelivery, List.nil_append, List.append_nil]
  | @accepted pcb cells =>
    have hret : returnedBytes k (.happens (.tcpEvent pcb k (.recv cells)), .err .ok) = [] := rfl
    rw [hret, List.nil_append, List.flatMap_append, acceptedBytes_accepted]
  | @refused pcb cells e _ he =>
    -- there is nothing behind the pbuf that lwIP gets back
    have hret : returnedBytes k (.happens (.tcpEvent pcb k (.recv cells)), .err e) = [] := rfl
    rw [hret, acceptedBytes_refused k pcb cells he, hfits.1.tail_eq_nil, List.map_nil,
      List.nil_append, List.append_nil, List.append_nil]
  | receivedNone => simp [returnedBytes, acceptedBytes]
  | received hdata =>
    have hfit := hdata (hfits.2 _ _ rfl _ rfl)
    simp [returnedBytes, acceptedBytes, hfit]

/-- **One step** moves the bytes of slot `k` from lwIP to the chain, from the chain to the client,
or not at all. -/
theorem receive_step {ch : Holder → List Ptr} (h : RxOk s s.refused ch) {k : ℤ}
    (hslot : TcpSlotOk cfg k s) (hk : cfg.InRange k) {a : Action} (hok : Allowed cfg s a)
    (hroom : UdpHasRoom cfg s a)
    (hudp : ∀ pcb cells addr port, a ≠ .happens (.udpRecv pcb k cells addr port))
    (hwell : ReceivesWell k s a) {r : Reply} (hs : step cfg s a = .ok (s', r))
    (hact : (s'.connections k).isActive = true) :
    ∃ ch', RxOk s' s'.refused ch' ∧ Conserves k s s' (ch (.inl k)) (ch' (.inl k)) (a, r) := by
  obtain ⟨ch', hrx, hstep⟩ := chainStep h hslot hk hok hroom hudp hs hact
  refine ⟨ch', hrx, ?_⟩
  rw [Conserves, chainBytes_eq, chainBytes_eq]
  exact hstep.conserves (fitsChain_of_receivesWell h hwell)

/-- The state along a history on slot `k`. -/
structure ReceivesOk (cfg : Config) (k : ℤ) (tr : List (Action × Reply)) (t : Server) : Prop where
  /-- The table is sound. -/
  table : TableOk cfg t.table
  /-- The queues are sound. -/
  queue : EventsOk cfg t.queue
  /-- There are no UDP control blocks. -/
  noUdp : ∀ p, t.table.udp p = false
  /-- The slot is a TCP socket. -/
  protocol : (t.connections k).protocol = .tcp
  /-- What is returned, and what is still in the chain, is what was accepted. -/
  bytes : ∃ ch, RxOk t t.refused ch ∧
    tr.flatMap (returnedBytes k) ++ chainBytes t.pbufs (ch (.inl k)) = tr.flatMap (acceptedBytes k)

/-- A history of a server without UDP sockets in which slot `k` stays active, and deliveries and
receives on it are of the expected kind. -/
def ReceivingOn (cfg : Config) (k : ℤ) (s : Server) (a : Action) : Prop :=
  (Allowed cfg s a ∧ TcpOnly a) ∧ (s.connections k).isActive = true ∧ ReceivesWell k s a

instance (k : ℤ) (a : Action) : Decidable (ReceivingOn cfg k s a) :=
  inferInstanceAs (Decidable ((_ ∧ _) ∧ _ ∧ _))

theorem receivesOk_of_run {k : ℤ} (hk : cfg.InRange k) {tr : List (Action × Reply)} {s t : Server}
    (h0 : ReceivesOk cfg k [] s) (hrun : Run (step cfg) (ReceivingOn cfg k) s tr t)
    (hact : (t.connections k).isActive = true) : ReceivesOk cfg k tr t := by
  induction hrun with
  | nil => exact h0
  | @snoc tr u v a r hrun hok hs ih =>
    obtain ⟨⟨hallowed, htcp⟩, hactive, hwell⟩ := hok
    obtain ⟨hT, hq, hudp, hproto, ch, hrx, hbytes⟩ := ih hactive
    have hslot : TcpSlotOk cfg k u := ⟨hT, hq, hproto⟩
    obtain ⟨⟨hT', hq', hproto'⟩, -⟩ := hslot.step hallowed hs hactive hact
    obtain ⟨hroom, hnone⟩ := udpHasRoom_of_noUdp hudp hallowed
    obtain ⟨ch', hrx', hcons⟩ := receive_step hrx hslot hk hallowed hroom (fun pcb => hnone pcb k)
      hwell hs hact
    refine ⟨hT', hq', noUdp_step hudp htcp (step_table hT.cursor hallowed hs), hproto', ch', hrx',
      ?_⟩
    · simp only [List.flatMap_append, List.flatMap_cons, List.flatMap_nil, List.append_nil]
      rw [List.append_assoc, hcons, ← List.append_assoc, hbytes]

/-- **TCP receive is exact.**  Take a server without UDP sockets, and an active TCP slot `k` in it
whose chain is empty, and go on from there with `k` active all the time, deliveries on `k` of one
pbuf each, and receives on `k` with buffers that are long enough.  Then what has been returned,
followed by what is still in the chain, is what has been accepted; and a pbuf that is refused next
is in no chain afterwards and has no successor. -/
theorem receive_exact {tr₀ tr : List (Action × Reply)} {s t : Server} {k : ℤ}
    (hrun₀ : RunsTo cfg (fun _ a => TcpOnly a) tr₀ s) (hk : cfg.InRange k)
    (hproto : (s.connections k).protocol = .tcp) (hempty : (s.connections k).pbuf = none)
    (hrun : Run (step cfg) (ReceivingOn cfg k) s tr t) (hact : (t.connections k).isActive = true) :
    (∃ l, IsChain t.pbufs.nxt (t.connections k).pbuf l ∧
      tr.flatMap (returnedBytes k) ++ chainBytes t.pbufs l = tr.flatMap (acceptedBytes k)) ∧
    ∀ pcb p b t' e, Allowed cfg t (.happens (.tcpEvent pcb k (.recv [(p, b)]))) →
      step cfg t (.happens (.tcpEvent pcb k (.recv [(p, b)]))) = .ok (t', .err e) → e ≠ .ok →
      t'.pbufs.nxt p = some none ∧
        ∀ j l, IsChain t'.pbufs.nxt (t'.connections j).pbuf l → p ∉ l := by
  obtain ⟨⟨hT, hq, ch, hrx⟩, hudp⟩ := hrun₀.rxInv_of_tcpOnly
  have hch : ch (.inl k) = [] := by
    have hchain := hrx.isChain k
    rwa [hempty, IsChain.none_iff] at hchain
  have h0 : ReceivesOk cfg k [] s := ⟨hT, hq, hudp, hproto, ch, hrx, by
    rw [hch]; rfl⟩
  obtain ⟨-, -, -, -, ch', hrx', hbytes⟩ := receivesOk_of_run hk h0 hrun hact
  refine ⟨⟨ch' (.inl k), hrx'.isChain k, hbytes⟩, ?_⟩
  intro pcb p b t' e hok hs he
  obtain ⟨status, -, ⟨hlinked, hnd, hcells⟩, -⟩ := tcpEvent_route hok
  obtain ⟨u, e', ch'', hu, hrx'', -, -, -, hcase⟩ := hrx'.recv cfg hlinked hnd hcells pcb k
  obtain ⟨rfl, rfl⟩ : u = t' ∧ e' = e := by simpa using hu.symm.trans hs
  obtain ⟨he', -⟩ | ⟨-, ⟨-, hp⟩ | ⟨hrange, -⟩⟩ := hcase
  · exact absurd he' he
  · -- lwIP holds the pbuf, and nobody else does
    have hchain := hrx''.chains.isChain (.inr p)
    rw [hp] at hchain
    obtain ⟨-, y, hy, hnil⟩ := IsChain.cons_iff.mp hchain
    obtain rfl := IsChain.nil_iff.mp hnil
    refine ⟨hy, fun j l hl hmem => ?_⟩
    rw [hl.eq (hrx''.isChain j)] at hmem
    exact hrx''.notMem (j := .inr p) hmem (by simp) (by rw [hp]; exact List.mem_singleton_self p)
  · exact absurd hk hrange

/-- Two pbufs are delivered on slot 0, the second of them twice, because the queue is full the
first time; one receive later, one is left in the chain. -/
theorem receive_exact_redelivered : ∃ tr₀ tr s t, RunsTo .small (fun _ a => TcpOnly a) tr₀ s ∧
    (s.connections 0).protocol = .tcp ∧ (s.connections 0).pbuf = none ∧
    Run (step .small) (ReceivingOn .small 0) s tr t ∧ (t.connections 0).isActive = true ∧
    tr.flatMap (returnedBytes 0) = [1, 2] ∧ tr.flatMap (acceptedBytes 0) = [1, 2, 3] ∧
    ∃ l, IsChain t.pbufs.nxt (t.connections 0).pbuf l ∧
      tr.flatMap (returnedBytes 0) ++ chainBytes t.pbufs l = tr.flatMap (acceptedBytes 0) := by
  let x : Pbuf := ⟨none, ⟨[1, 2], by decide⟩, 2, 1, false, 0, {}⟩
  let y : Pbuf := ⟨none, ⟨[3], by decide⟩, 1, 1, false, 0, {}⟩
  have hrun₀ : ∃ tr₀ s, RunsTo .small (fun _ a => TcpOnly a) tr₀ s ∧
      ((s.connections 0).protocol = .tcp ∧ (s.connections 0).pbuf = none) ∧
      (replay (step .small) (ReceivingOn .small 0) s
        [.happens (.tcpEvent 10 0 (.recv [(100, x)])), .happens (.tcpEvent 10 0 (.recv [(101, y)])),
          .call 0 .getEvent, .happens (.tcpEvent 10 0 (.recv [(101, y)])),
          .call 0 (.recv 0 10 false)]).any (fun q => decide
        ((q.2.connections 0).isActive = true ∧ q.1.flatMap (returnedBytes 0) = [1, 2] ∧
          q.1.flatMap (acceptedBytes 0) = [1, 2, 3])) = true := by
    refine Run.exists_of_replay
      [.call 0 (.socket .tcp (some 10)), .call 0 (.connect 0 80 {} .ok)] ?_
    decide
  obtain ⟨tr₀, s, hrun₀, ⟨hproto, hempty⟩, hany⟩ := hrun₀
  have hrun : ∃ tr t, Run (step .small) (ReceivingOn .small 0) s tr t ∧
      (t.connections 0).isActive = true ∧ tr.flatMap (returnedBytes 0) = [1, 2] ∧
      tr.flatMap (acceptedBytes 0) = [1, 2, 3] := Run.exists_of_replay _ hany
  obtain ⟨tr, t, hrun, hact, hret, hacc⟩ := hrun
  exact ⟨tr₀, tr, s, t, hrun₀, hproto, hempty, hrun, hact, hret, hacc,
    (receive_exact hrun₀ (by decide) hproto hempty hrun hact).1⟩

end Xtcp
