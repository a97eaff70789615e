import Xtcp.Library.Conveyor
import Xtcp.RxQueue
import Xtcp.Environment
import Xtcp.TcpChain

/-!
# What a receive reports

The received data of a slot is a conveyor of pbufs.  A callback puts the pbufs of a delivery in
behind the last one, and writes the address and the port they have come from into the first of
them; `recv` and `recvfrom` take one out in front, and report its bytes, its timestamp and, with
`recvfrom`, its address and port.  A buffer that is too short for it gets `XTCP_EAGAIN`, and the
pbuf is gone all the same.

This is so for every slot, whatever its protocol, as long as it is not closed and every datagram
finds room for its event.

## Main definitions

* `rxItems` — what the pbufs of a chain hold.
* `arrived` — what a step puts in.
* `receipt`, `Takes` — what a receive replies, and what it takes out.

## Main results

* `items_step` — one step.
* `receives_report_arrivals` — **every pbuf that has arrived is reported once and in order, with the
  address it has come from**, or is still there.
-/

namespace Xtcp

open Runs LinkedChain

variable {cfg : Config} {s s' t : Server} {m m' : Pbufs} {k : ℤ}

/-! ### Items -/

/-- What the pbufs of a chain hold. -/
def rxItems (m : Pbufs) (l : List Ptr) : List RxItem := l.filterMap m.item

theorem rxItems_append (m : Pbufs) (l l' : List Ptr) :
    rxItems m (l ++ l') = rxItems m l ++ rxItems m l' := List.filterMap_append

theorem rxItems_cons {p : Ptr} {b : Pbuf} (h : m p = some b) (l : List Ptr) :
    rxItems m (p :: l) = .of p b :: rxItems m l := by
  rw [rxItems, List.filterMap_cons_some (b := .of p b) (by rw [Pbufs.item, h]; rfl)]
  rfl

theorem rxItems_congr {l : List Ptr} (h : ∀ q ∈ l, m'.item q = m.item q) :
    rxItems m' l = rxItems m l := List.filterMap_congr h

/-- The pbufs that a delivery has brought. -/
theorem rxItems_deliver (m : Pbufs) {cells : List (Ptr × Pbuf)} (hnd : (cells.map Prod.fst).Nodup)
    (l : List (Ptr × Pbuf)) (hl : l ⊆ cells) :
    rxItems (deliver m cells) (l.map Prod.fst) = l.map fun c => .of c.1 c.2 := by
  induction l with
  | nil => rfl
  | cons c l ih =>
    have hc : deliver m cells c.1 = some c.2 := deliver_of_mem hnd (hl List.mem_cons_self)
    rw [List.map_cons, rxItems_cons hc, ih fun x hx => hl (List.mem_cons_of_mem c hx)]
    rfl

/-- `set_remote` writes the address and the port, and no other item. -/
theorem item_setRemote (hk : cfg.InRange k) {p : Ptr} {b : Pbuf} (hb : s.pbufs p = some b)
    {remote : Option IpAddr} {port : UInt16} {e : ErrorCode}
    (h : setRemote cfg s k remote port (some p) = .ok (t, e)) :
    t.pbufs.item
      = Function.update s.pbufs.item p
        (some (.of p { b with remote := ⟨remote.getD {}, port⟩ })) := by
  rw [setRemote, if_pos hk] at h
  obtain ⟨b', hb', h⟩ := bind_eq_ok.mp h
  obtain rfl : b = b' := Option.some.inj (hb.symm.trans (Pbufs.load_eq_ok.mp hb'))
  dsimp only at h
  split at h
  · -- the link of the last pbuf is no part of its item
    obtain ⟨last, -, h⟩ := bind_eq_ok.mp h
    obtain ⟨lb, hlb, h⟩ := bind_eq_ok.mp h
    cases h
    have hlink := item_update_same (c := { lb with next := some p }) (Pbufs.load_eq_ok.mp hlb) rfl
    exact hlink.trans (item_update _ _ _)
  · cases h
    exact item_update _ _ _

/-- `unlink_remote` changes links only. -/
theorem item_unlinkRemote {p : Option Ptr} {e : ErrorCode}
    (h : unlinkRemote cfg s k p = .ok (t, e)) : t.pbufs.item = s.pbufs.item := by
  cases p with
  | none => cases h; rfl
  | some p =>
    unfold unlinkRemote at h
    dsimp only at h
    split at h
    · obtain ⟨found, -, h⟩ := bind_eq_ok.mp h
      rcases found with _ | _ | r
      · cases h; rfl
      · obtain ⟨b, hb, h⟩ := bind_eq_ok.mp h
        cases h
        exact item_update_same (Pbufs.load_eq_ok.mp hb) rfl
      · obtain ⟨b, hb, h⟩ := bind_eq_ok.mp h
        obtain ⟨rb, hrb, h⟩ := bind_eq_ok.mp h
        have hb := Pbufs.load_eq_ok.mp hb
        have hrb := Pbufs.load_eq_ok.mp hrb
        cases h
        funext q
        by_cases hqp : q = p
        · subst hqp
          simp [Pbufs.item, hb, RxItem.of]
        · by_cases hqr : q = r
          · subst hqr
            simp [Pbufs.item, hqp, hrb, RxItem.of]
          · simp [Pbufs.item, hqp, hqr]
    · cases h; rfl

/-! ### Deliveries -/

/-- What a delivery from `remote` brings: the address and the port are those of the first pbuf. -/
def itemsOf (remote : Host) : List (Ptr × Pbuf) → List RxItem
  | [] => []
  | c :: cells => .of c.1 { c.2 with remote := remote } :: cells.map fun c => .of c.1 c.2

/-- What a step puts into the chain of slot `k`.  A TCP delivery that is refused leaves all but its
first pbuf there. -/
def arrived (k : ℤ) : Action × Reply → List RxItem
  | (.happens (.tcpEvent _ arg (.recv cells)), r) =>
    if arg = k then if r = .err .ok then itemsOf {} cells else (itemsOf {} cells).tail else []
  | (.happens (.udpRecv _ arg cells addr port), _) =>
    if arg = k then itemsOf ⟨addr.getD {}, port⟩ cells else []
  | _ => []

/-- The items of a delivery, when the address has been written into its first pbuf. -/
theorem rxItems_delivered {p : Ptr} {b : Pbuf} {cells : List (Ptr × Pbuf)}
    (hnd : (((p, b) :: cells).map Prod.fst).Nodup) {remote : Host}
    (hitem : m'.item = Function.update (Pbufs.item (deliver m ((p, b) :: cells))) p
      (some (.of p { b with remote := remote }))) :
    rxItems m' (p :: cells.map Prod.fst) = itemsOf remote ((p, b) :: cells) ∧
      rxItems m' (cells.map Prod.fst) = (itemsOf remote ((p, b) :: cells)).tail := by
  have hp : p ∉ cells.map Prod.fst := (List.nodup_cons.mp hnd).1
  have hcells : rxItems m' (cells.map Prod.fst) = cells.map fun c => .of c.1 c.2 := by
    rw [← rxItems_deliver m hnd cells (List.subset_cons_self _ _)]
    refine rxItems_congr fun q hq => ?_
    rw [hitem, Function.update_of_ne (ne_of_mem_of_not_mem hq hp)]
  refine ⟨?_, hcells⟩
  rw [rxItems, List.filterMap_cons_some (b := .of p { b with remote := remote })
    (by rw [hitem, Function.update_self]), ← rxItems, hcells]
  rfl

/-! ### Receives -/

/-- What a receive replies when the chain of its slot holds `l`. -/
def receipt (length : UInt32) (timed : Bool) (remote : Host) (l : List RxItem) : Reply :=
  let copy := reported (int32OfUInt32 length) l
  .received
    (if copy.result.status ≠ .success then copy.result.status.toInt else copy.result.value)
    copy.data remote (if timed then copy.timestamp else 0)

/-- What a step takes out of the chain of slot `k`. -/
inductive Takes (k : ℤ) : Action × Reply → List RxItem → Prop
  /-- A step that is no receive on the slot. -/
  | idle {a : Action} {r : Reply} : (∀ i length timed, a ≠ .call i (.recv k length timed)) →
      (∀ i length timed, a ≠ .call i (.recvfrom k length timed)) → Takes k (a, r) []
  /-- A `recv` that is refused, or finds nothing. -/
  | recvNone {i : ℕ} {length : UInt32} {timed : Bool} :
      Takes k (.call i (.recv k length timed), .received ErrorCode.einval.toInt [] {} 0) []
  /-- A `recv` of one pbuf. -/
  | recv {i : ℕ} {length : UInt32} {timed : Bool} (x : RxItem) :
      Takes k (.call i (.recv k length timed), receipt length timed {} [x]) [x]
  /-- A `recvfrom` that is refused, or finds nothing. -/
  | recvfromNone {i : ℕ} {length : UInt32} {timed : Bool} {e : ErrorCode} :
      e = .einval ∨ e = .eprotonosupport →
      Takes k (.call i (.recvfrom k length timed), .received e.toInt [] {} 0) []
  /-- A `recvfrom` of one pbuf: it reports the address and the port. -/
  | recvfrom {i : ℕ} {length : UInt32} {timed : Bool} (x : RxItem) :
      Takes k (.call i (.recvfrom k length timed), receipt length timed x.remote [x]) [x]

/-- **A receive** reports the first item, and takes it out. -/
theorem receive_receipt {ch : Holder → List Ptr} (h : RxOk s s.refused ch) (hk : cfg.InRange k)
    {length : UInt32} {timed : Bool} {remote : Host} {r : Reply}
    (hs : receive cfg s k length timed remote = .ok (s', r)) :
    RxOk s' s'.refused (Function.update ch (.inl k) (ch (.inl k)).tail) ∧
      r = receipt length timed remote (rxItems s.pbufs (ch (.inl k))) ∧
      rxItems s'.pbufs (ch (.inl k)).tail = (rxItems s.pbufs (ch (.inl k))).tail := by
  obtain ⟨t, result, data, timestamp, ht, hrx, -, hkeep, -⟩ := h.receive hk length timed remote
  obtain rfl : t = s' := congrArg Prod.fst (Except.ok.inj (ht.symm.trans hs))
  have htail : rxItems t.pbufs (ch (.inl k)).tail = rxItems s.pbufs (ch (.inl k)).tail :=
    rxItems_congr fun q hq => by rw [Pbufs.item, hkeep q hq, Pbufs.item]
  refine ⟨hrx, ?_, ?_⟩
  · obtain ⟨copy, hcopy, hs⟩ := bind_eq_ok.mp hs
    obtain ⟨⟨u, e⟩, -, hs⟩ := bind_eq_ok.mp hs
    have hreported : copy = reported (int32OfUInt32 length) (rxItems s.pbufs (ch (.inl k))) := by
      rcases h.exists_head k with ⟨hch, hhead⟩ | ⟨p, l, b, hch, hhead, hb⟩
      · rw [getRemoteData_of_none fun _ => hhead] at hcopy
        rw [hch, ← Except.ok.inj hcopy]
        rfl
      · rw [getRemoteData_of_some hk hhead hb] at hcopy
        rw [hch, rxItems_cons hb, ← Except.ok.inj hcopy]
        rfl
    rw [receipt, ← hreported]
    exact (congrArg Prod.snd (Except.ok.inj hs)).symm
  · rcases h.exists_head k with ⟨hch, -⟩ | ⟨p, l, b, hch, -, hb⟩
    · rw [htail, hch]
      rfl
    · rw [htail, hch, List.tail_cons, rxItems_cons hb, List.tail_cons]

/-- A `recv` of the owner. -/
theorem takes_recv {ch : Holder → List Ptr} (h : RxOk s s.refused ch) (hk : cfg.InRange k) {i : ℕ}
    {length : UInt32} {timed : Bool} {r : Reply}
    (hs : receive cfg s k length timed {} = .ok (s', r)) :
    ∃ out ch', Takes k (.call i (.recv k length timed), r) out ∧ RxOk s' s'.refused ch' ∧
      out ++ rxItems s'.pbufs (ch' (.inl k)) = rxItems s.pbufs (ch (.inl k)) := by
  obtain ⟨hrx, rfl, htail⟩ := receive_receipt h hk hs
  cases hitems : rxItems s.pbufs (ch (.inl k)) with
  | nil =>
    refine ⟨[], _, ?_, hrx, ?_⟩
    · have hreply : receipt length timed {} [] = .received ErrorCode.einval.toInt [] {} 0 := by
        cases timed <;> rfl
      rw [hreply]
      exact .recvNone
    · rw [Function.update_self, htail, hitems]
      rfl
  | cons x l =>
    refine ⟨[x], _, .recv x, hrx, ?_⟩
    rw [Function.update_self, htail, hitems]
    rfl

/-- A `recvfrom` of the owner. -/
theorem takes_recvfrom {ch : Holder → List Ptr} (h : RxOk s s.refused ch) (hk : cfg.InRange k)
    {i : ℕ} {length : UInt32} {timed : Bool} {remote : Host} (hremote : getRemote cfg s k = .ok
      remote)
    {r : Reply} (hs : receive cfg s k length timed remote = .ok (s', r)) :
    ∃ out ch', Takes k (.call i (.recvfrom k length timed), r) out ∧ RxOk s' s'.refused ch' ∧
      out ++ rxItems s'.pbufs (ch' (.inl k)) = rxItems s.pbufs (ch (.inl k)) := by
  obtain ⟨hrx, rfl, htail⟩ := receive_receipt h hk hs
  rcases h.exists_head k with ⟨hch, hhead⟩ | ⟨p, l, b, hch, hhead, hb⟩
  · obtain rfl := Except.ok.inj ((getRemote_of_none fun _ => hhead).symm.trans hremote)
    refine ⟨[], _, ?_, hrx, ?_⟩
    · have hreply : receipt length timed {} [] = .received ErrorCode.einval.toInt [] {} 0 := by
        cases timed <;> rfl
      rw [hch, show rxItems s.pbufs [] = [] from rfl, hreply]
      exact .recvfromNone (.inl rfl)
    · rw [Function.update_self, htail, hch]
      rfl
  · -- the address is that of the pbuf whose bytes are reported
    obtain rfl := Except.ok.inj ((getRemote_of_some hk hhead hb).symm.trans hremote)
    refine ⟨[.of p b], _, ?_, hrx, ?_⟩
    · rw [hch, rxItems_cons hb]
      exact .recvfrom (.of p b)
    · rw [Function.update_self, htail, hch, rxItems_cons hb]
      rfl

/-! ### Callbacks -/

/-- The chain of slot `k` with the pbufs of a delivery behind it. -/
theorem rxItems_behind {ch : Holder → List Ptr} {p : Ptr} {b : Pbuf} {cells : List (Ptr × Pbuf)}
    (hnd : (((p, b) :: cells).map Prod.fst).Nodup) (hp : p ∉ ch (.inl k))
    (hkeep : ∀ q ∈ ch (.inl k), deliver m ((p, b) :: cells) q = m q) {remote : Host}
    (hitem : m'.item = Function.update (Pbufs.item (deliver m ((p, b) :: cells))) p
      (some (.of p { b with remote := remote }))) :
    rxItems m' (ch (.inl k) ++ p :: cells.map Prod.fst)
        = rxItems m (ch (.inl k)) ++ itemsOf remote ((p, b) :: cells) ∧
      rxItems m' (ch (.inl k) ++ cells.map Prod.fst)
        = rxItems m (ch (.inl k)) ++ (itemsOf remote ((p, b) :: cells)).tail := by
  have hold : rxItems m' (ch (.inl k)) = rxItems m (ch (.inl k)) := by
    refine rxItems_congr fun q hq => ?_
    rw [hitem, Function.update_of_ne (ne_of_mem_of_not_mem hq hp), Pbufs.item, hkeep q hq,
      Pbufs.item]
  obtain ⟨hall, htail⟩ := rxItems_delivered hnd hitem
  exact ⟨by rw [rxItems_append, hold, hall], by rw [rxItems_append, hold, htail]⟩

/-- A delivery that is accepted, or refused, leaves the items of the pbufs alone, but for the
address in the first one. -/
theorem item_tcpRecv (hk : cfg.InRange k) {pcb p : Ptr} {b : Pbuf} {cells : List (Ptr × Pbuf)}
    {r : Reply} (hs : stepTcp cfg s pcb k (.recv ((p, b) :: cells)) = .ok (s', r)) :
    s'.pbufs.item = Function.update (Pbufs.item (deliver s.pbufs ((p, b) :: cells))) p
      (some (.of p { b with remote := {} })) := by
  have hb : deliver s.pbufs ((p, b) :: cells) p = some b := by rw [deliver_cons, if_pos rfl]
  obtain ⟨⟨t, e⟩, ht, hs⟩ := bind_eq_ok.mp hs
  obtain rfl : { t with refused := Function.update t.refused p (decide (e ≠ .ok)) } = s' :=
    congrArg Prod.fst (Except.ok.inj hs)
  rw [lwipTcpEvent, if_pos hk] at ht
  obtain ⟨⟨u, e'⟩, hu, ht⟩ := bind_eq_ok.mp ht
  have hitem := item_setRemote hk (s := { s with pbufs := deliver s.pbufs ((p, b) :: cells) }) hb hu
  dsimp only at ht
  split at ht
  · obtain ⟨⟨v, e''⟩, hv, ht⟩ := bind_eq_ok.mp ht
    cases ht
    exact (item_unlinkRemote hv).trans hitem
  · cases ht
    exact hitem

/-- `LWIP_EVENT_RECV` -/
theorem items_tcpRecv {ch : Holder → List Ptr} (h : RxOk s s.refused ch) (hk : cfg.InRange k)
    {pcb : Ptr} {cells : List (Ptr × Pbuf)}
    (hok : HappeningAllowed s (.tcpEvent pcb k (.recv cells))) {r : Reply}
    (hs : stepTcp cfg s pcb k (.recv cells) = .ok (s', r)) :
    ∃ ch', RxOk s' s'.refused ch' ∧ rxItems s'.pbufs (ch' (.inl k))
      = rxItems s.pbufs (ch (.inl k))
        ++ arrived k (.happens (.tcpEvent pcb k (.recv cells)), r) := by
  rcases cells with _ | ⟨⟨p, b⟩, cells⟩
  · -- the other side has closed the connection
    have hkeeps : KeepsRx s s' := keepsRx_stepTcp (by simp) hs
    refine ⟨ch, ?_, ?_⟩
    · rw [hkeeps.refused]
      exact h.frame hkeeps.head fun q _ => by rw [hkeeps.pbufs]
    · rw [hkeeps.pbufs]
      simp [arrived, itemsOf]
  · obtain ⟨status, -, ⟨hlinked, hnd, hcells⟩, -⟩ := tcpEvent_route hok
    obtain ⟨t, e, ch', ht, hrx, -, -, hkeep, hcase⟩ := h.recv cfg hlinked hnd hcells pcb k
    obtain ⟨rfl, rfl⟩ : t = s' ∧ Reply.err e = r := by simpa using ht.symm.trans hs
    have hp : p ∉ ch (.inl k) := by
      intro hp
      rcases hcells with hfresh | ⟨hrefused, -⟩
      · exact h.ne_none hp (hfresh (p, b) List.mem_cons_self)
      · have hkept : s.refused p = true := by simpa [deliveredHead] using hrefused
        obtain ⟨l, hl⟩ := h.exists_kept hkept
        exact h.notMem hp (j := .inr p) (by simp) (by rw [hl]; exact List.mem_cons_self)
    obtain ⟨hall, htail⟩ := rxItems_behind hnd hp hkeep (item_tcpRecv hk hs)
    refine ⟨ch', hrx, ?_⟩
    obtain ⟨rfl, hch⟩ | ⟨he, ⟨hch, -⟩ | ⟨hrange, -⟩⟩ := hcase
    · rw [hch, hall, arrived, if_pos rfl, if_pos rfl]
    · have hne : Reply.err e ≠ .err .ok := fun heq => he (Reply.err.inj heq)
      rw [hch, htail, arrived, if_pos rfl, if_neg hne]
    · exact absurd hk hrange

/-- `xtcp_udp_recv`, when there is room for its event. -/
theorem items_udpRecv {ch : Holder → List Ptr} (h : RxOk s s.refused ch) (hq : QueueOk cfg s.queue)
    (hk : cfg.InRange k) {pcb : Ptr} {cells : List (Ptr × Pbuf)} {addr : Option IpAddr}
    {port : UInt16} (hok : HappeningAllowed s (.udpRecv pcb k cells addr port))
    (hroom : UdpHasRoom cfg s (.happens (.udpRecv pcb k cells addr port))) {r : Reply}
    (hs : stepHappening cfg s (.udpRecv pcb k cells addr port) = .ok (s', r)) :
    ∃ ch', RxOk s' s'.refused ch' ∧ rxItems s'.pbufs (ch' (.inl k))
      = rxItems s.pbufs (ch (.inl k))
        ++ arrived k (.happens (.udpRecv pcb k cells addr port), r) := by
  obtain ⟨-, hlinked, hnd, hfresh⟩ := hok
  rcases cells with _ | ⟨⟨p, b⟩, cells⟩
  · obtain ⟨u, hu, hs⟩ := bind_eq_ok.mp hs
    cases hu
    cases hs
    refine ⟨ch, h, ?_⟩
    rw [arrived, if_pos rfl, itemsOf, List.append_nil]
    rfl
  · have hb : deliver s.pbufs ((p, b) :: cells) p = some b := by rw [deliver_cons, if_pos rfl]
    have hp : p ∉ ch (.inl k) := fun hp => h.ne_none hp (hfresh (p, b) List.mem_cons_self)
    obtain ⟨hrx, hdeliver⟩ := h.deliver hlinked hnd (.inl hfresh)
    have hkept : s.refused p = false := h.kept_of_none (hfresh (p, b) List.mem_cons_self)
    obtain ⟨u, hu, hrx', -, -⟩ := hrx.setRemote (Function.update_self _ _ _) hk addr port
    rw [Function.update_idem, ← hkept, Function.update_eq_self] at hrx'
    have hitem := item_setRemote hk (s := { s with pbufs := deliver s.pbufs ((p, b) :: cells) }) hb
      hu
    obtain ⟨hall, -⟩ := rxItems_behind hnd hp (hdeliver k) hitem
    -- the event is queued, so the callback ends here
    have hsucc : (enqueue cfg u (getClientInfo cfg u k) k (udpRecvEvent u pcb)).2 = .success :=
      (enqueue_setRemote_iff hu hq hk _).mpr (hroom (by simp) hk)
    have hs' : s' = (enqueue cfg u (getClientInfo cfg u k) k (udpRecvEvent u pcb)).1 := by
      simp only [stepHappening, xtcpUdpRecv, deliveredHead, List.head?_cons, Option.map_some,
        if_pos hk, hu, Bind.bind, Except.bind, hsucc, ne_eq, not_true_eq_false, if_false] at hs
      exact (congrArg Prod.fst (Except.ok.inj hs)).symm
    have hpbufs : s'.pbufs = u.pbufs := by rw [hs']; rfl
    have hrefused : s'.refused = s.refused := by
      rw [hs']
      exact (leaves_setRemote hu).refused
    obtain ⟨ch', hch', hrx'⟩ : ∃ ch' : Holder → List Ptr,
        ch' (.inl k) = ch (.inl k) ++ p :: cells.map Prod.fst ∧ RxOk u s.refused ch' :=
      ⟨_, by simp, hrx'⟩
    refine ⟨ch', ?_, ?_⟩
    · rw [hrefused]
      exact hrx'.frame (fun j => by rw [hs']; rfl) fun q _ => by rw [hpbufs]
    · rw [hpbufs, hch', hall, arrived, if_pos rfl]

/-! ### Steps and runs -/

/-- A call that works on the received data of a slot that stays active. -/
theorem items_call {ch : Holder → List Ptr} (h : RxOk s s.refused ch) (hk : cfg.InRange k) {i : ℕ}
    {call : Call} (htouch : (Action.call i call).touches = some k) {r : Reply}
    (hs : step cfg s (.call i call) = .ok (s', r)) (hact : (s'.connections k).isActive = true) :
    ∃ out ch', Takes k (.call i call, r) out ∧ RxOk s' s'.refused ch' ∧
      out ++ rxItems s'.pbufs (ch' (.inl k)) = rxItems s.pbufs (ch (.inl k)) := by
  have hsame : Takes k (.call i call, r) [] → s' = s →
      ∃ out ch', Takes k (.call i call, r) out ∧ RxOk s' s'.refused ch' ∧
        out ++ rxItems s'.pbufs (ch' (.inl k)) = rxItems s.pbufs (ch (.inl k)) := by
    rintro htakes rfl
    exact ⟨[], ch, htakes, h, rfl⟩
  -- the slot stays active, so it is another client that tries to close it
  have hclose : ∀ {lingers}, call.closes k lingers → s' = s := by
    intro lingers hcloses
    obtain ⟨t, ht, rfl⟩ := shimCloseSocket_of_closes hcloses hs
    obtain rfl | ⟨hown, -⟩ := shimCloseSocket_cases ht
    · rfl
    · rw [isActive_close hcloses hown hs] at hact
      cases hact
  cases call with
  | close id lingers | abort id lingers =>
    cases htouch
    refine hsame (.idle (by simp) (by simp)) (hclose ⟨rfl, rfl⟩)
  | recv id length timed =>
    cases htouch
    have hs : recvCommon cfg s i k length timed = .ok (s', r) := hs
    unfold recvCommon at hs
    dsimp only at hs
    split at hs
    · next hfind =>
      rw [find_of_ne_success hfind] at hs
      cases hs
      exact hsame .recvNone rfl
    · exact takes_recv h hk hs
  | recvfrom id length timed =>
    cases htouch
    have hs : recvfromCommon cfg s i k length timed = .ok (s', r) := hs
    unfold recvfromCommon at hs
    dsimp only at hs
    split at hs
    · next hfind =>
      rw [find_of_ne_success hfind] at hs
      cases hs
      exact hsame (.recvfromNone (.inl rfl)) rfl
    · split at hs
      · cases hs
        exact hsame (.recvfromNone (.inr rfl)) rfl
      · obtain ⟨remote, hremote, hs⟩ := bind_eq_ok.mp hs
        exact takes_recvfrom h hk hremote hs
  | _ => cases htouch

/-- **One step** puts items in behind, takes them out in front, or leaves the chain alone. -/
theorem items_step {ch : Holder → List Ptr} (h : RxOk s s.refused ch) (hcur : s.table.CursorOk cfg)
    (hq : QueueOk cfg s.queue) (hk : cfg.InRange k) {a : Action} (hok : Allowed cfg s a)
    (hroom : UdpHasRoom cfg s a) {r : Reply} (hs : step cfg s a = .ok (s', r))
    (hact : (s'.connections k).isActive = true) :
    ∃ out ch', Takes k (a, r) out ∧ RxOk s' s'.refused ch' ∧
      out ++ rxItems s'.pbufs (ch' (.inl k))
        = rxItems s.pbufs (ch (.inl k)) ++ arrived k (a, r) := by
  by_cases htouch : a.touches = some k
  · cases a with
    | call i call =>
      obtain ⟨out, ch', htakes, hrx, heq⟩ := items_call h hk htouch hs hact
      have hnone : arrived k (.call i call, r) = [] := rfl
      exact ⟨out, ch', htakes, hrx, by rw [heq, hnone, List.append_nil]⟩
    | happens x =>
      cases x with
      | tcpEvent pcb arg callback =>
        cases callback with
        | recv cells =>
          cases htouch
          obtain ⟨ch', hrx, heq⟩ := items_tcpRecv h hk hok hs
          exact ⟨[], ch', .idle (by simp) (by simp), hrx, heq⟩
        | _ => cases htouch
      | udpRecv pcb arg cells addr port =>
        cases htouch
        obtain ⟨ch', hrx, heq⟩ := items_udpRecv h hq hk hok hroom hs
        exact ⟨[], ch', .idle (by simp) (by simp), hrx, heq⟩
      | _ => cases htouch
  · have hsafe := RxSafe.step h hcur hq hok hroom
    rw [hs] at hsafe
    obtain ⟨ch', hrx, hspares⟩ := hsafe
    obtain ⟨hch, hpbufs⟩ := hspares k htouch
    have hnone : arrived k (a, r) = [] := by
      unfold arrived
      split
      · next heq =>
        cases heq
        exact if_neg fun harg => htouch (by rw [harg]; rfl)
      · next heq =>
        cases heq
        exact if_neg fun harg => htouch (by rw [harg]; rfl)
      · rfl
    refine ⟨[], ch', .idle ?_ ?_, hrx, ?_⟩
    · rintro i length timed rfl
      exact htouch rfl
    · rintro i length timed rfl
      exact htouch rfl
    · rw [hnone, hch, List.nil_append, List.append_nil]
      exact rxItems_congr fun q hq => by rw [Pbufs.item, hpbufs q hq, Pbufs.item]

/-- The chain of slot `k` holds `items`, in a server whose parts are sound. -/
def HoldsItems (cfg : Config) (k : ℤ) (s : Server) (items : List RxItem) : Prop :=
  TableOk cfg s.table ∧ EventsOk cfg s.queue ∧
    ∃ ch, RxOk s s.refused ch ∧ rxItems s.pbufs (ch (.inl k)) = items

theorem HoldsItems.step {items : List RxItem} (h : HoldsItems cfg k s items) (hk : cfg.InRange k)
    {a : Action} (hok : Allowed cfg s a) (hroom : UdpHasRoom cfg s a) {r : Reply}
    (hs : step cfg s a = .ok (s', r)) (hact : (s'.connections k).isActive = true) :
    ∃ out items', Takes k (a, r) out ∧ HoldsItems cfg k s' items' ∧
      out ++ items' = items ++ arrived k (a, r) := by
  obtain ⟨hT, hq, ch, hrx, rfl⟩ := h
  obtain ⟨out, ch', htakes, hrx', heq⟩ := items_step hrx hT.cursor hq.queueOk hk hok hroom hs hact
  exact ⟨out, _, htakes, ⟨hT.step (step_table hT.cursor hok hs), eventsOk_step hq hs, ch', hrx',
    rfl⟩, heq⟩

/-- **Every pbuf that has arrived is reported once and in order**, or is still there.  Go on from
any state in which the chain of slot `k` is `l`, with the slot active all the time and room for
the event of every datagram.  Then each receive on the slot has reported one pbuf, with the address
it has come from and with its bytes, if they fit into the buffer, and all these pbufs, followed
by those in the chain, are those of `l`, followed by those that have arrived. -/
theorem receives_report_arrivals {tr₀ tr : List (Action × Reply)}
    (hrun₀ : RunsTo cfg (UdpHasRoom cfg) tr₀ s) (hk : cfg.InRange k) {l : List Ptr}
    (hl : IsChain s.pbufs.nxt (s.connections k).pbuf l)
    (hrun : Run (step cfg) (fun s a => Allowed cfg s a ∧ UdpHasRoom cfg s a ∧
      (s.connections k).isActive = true) s tr t) (hact : (t.connections k).isActive = true) :
    ∃ outs l', List.Forall₂ (Takes k) tr outs ∧
      IsChain t.pbufs.nxt (t.connections k).pbuf l' ∧
      outs.flatten ++ rxItems t.pbufs l' = rxItems s.pbufs l ++ tr.flatMap (arrived k) := by
  obtain ⟨hT, hq, ch, hrx⟩ := hrun₀.rxInv
  obtain rfl : l = ch (.inl k) := hl.eq (hrx.isChain k)
  obtain ⟨outs, items, hout, ⟨-, -, ch', hrx', rfl⟩, heq⟩ := hrun.conveys (HoldsItems cfg k)
    (fun s => (s.connections k).isActive = true) (arrived k) (Takes k) (fun s a hok => hok.2.2)
    (fun s items a s' r h hok hs hact => h.step hk hok.1 hok.2.1 hs hact) ⟨hT, hq, ch, hrx, rfl⟩
    hact
  exact ⟨outs, ch' (.inl k), hout, hrx'.isChain k, heq⟩

/-- Two datagrams arrive on a UDP socket, and one of them is received. -/
theorem receives_report_arrivals_two : ∃ tr₀ tr s t, RunsTo .roomy (UdpHasRoom .roomy) tr₀ s ∧
    Run (step .roomy) (fun s a => Allowed .roomy s a ∧ UdpHasRoom .roomy s a ∧
      (s.connections 0).isActive = true) s tr t ∧
    tr.flatMap (arrived 0) = [⟨100, ⟨⟨10, 0, 0, 1⟩, 7⟩, ⟨[1, 2], by decide⟩, 0⟩,
      ⟨101, ⟨⟨10, 0, 0, 2⟩, 8⟩, ⟨[3], by decide⟩, 0⟩] ∧
    ∃ outs l', List.Forall₂ (Takes 0) tr outs ∧
      IsChain t.pbufs.nxt (t.connections 0).pbuf l' ∧
      outs.flatten ++ rxItems t.pbufs l' = tr.flatMap (arrived 0) := by
  let x : Pbuf := ⟨none, ⟨[1, 2], by decide⟩, 2, 1, false, 0, {}⟩
  let y : Pbuf := ⟨none, ⟨[3], by decide⟩, 1, 1, false, 0, {}⟩
  have hrun₀ : ∃ tr₀ s, RunsTo .roomy (UdpHasRoom .roomy) tr₀ s ∧
      (s.connections 0).pbuf = none ∧
      (replay (step .roomy) (fun s a => Allowed .roomy s a ∧ UdpHasRoom .roomy s a ∧
        (s.connections 0).isActive = true) s
        [.happens (.udpRecv 10 0 [(100, x)] (some ⟨10, 0, 0, 1⟩) 7),
          .happens (.udpRecv 10 0 [(101, y)] (some ⟨10, 0, 0, 2⟩) 8),
          .call 0 (.recvfrom 0 300 false)]).any (fun q => decide
        ((q.2.connections 0).isActive = true ∧
          q.1.flatMap (arrived 0) = [⟨100, ⟨⟨10, 0, 0, 1⟩, 7⟩, ⟨[1, 2], by decide⟩, 0⟩,
            ⟨101, ⟨⟨10, 0, 0, 2⟩, 8⟩, ⟨[3], by decide⟩, 0⟩])) = true :=
    Run.exists_of_replay
      [.call 0 (.socket .udp (some 10)), .call 0 (.listen 0 80 {} ⟨.ok, none⟩)] (by decide)
  obtain ⟨tr₀, s, hrun₀, hempty, hany⟩ := hrun₀
  have hrun : ∃ tr t, Run (step .roomy) (fun s a => Allowed .roomy s a ∧ UdpHasRoom .roomy s a ∧
        (s.connections 0).isActive = true) s tr t ∧ (t.connections 0).isActive = true ∧
      tr.flatMap (arrived 0) = [⟨100, ⟨⟨10, 0, 0, 1⟩, 7⟩, ⟨[1, 2], by decide⟩, 0⟩,
        ⟨101, ⟨⟨10, 0, 0, 2⟩, 8⟩, ⟨[3], by decide⟩, 0⟩] := Run.exists_of_replay _ hany
  obtain ⟨tr, t, hrun, hact, harrived⟩ := hrun
  have hl : IsChain s.pbufs.nxt (s.connections 0).pbuf [] := by rw [hempty]; exact .nil
  exact ⟨tr₀, tr, s, t, hrun₀, hrun, harrived,
    receives_report_arrivals hrun₀ (by decide) hl hrun hact⟩

end Xtcp
