import Xtcp.Blocks
import Xtcp.Effects
import Xtcp.Hearing

/-!
# Where datagrams go

`listen` and `connect` register `xtcp_udp_recv` on the control block of a UDP socket, with the index
of its slot as the argument.  From then on lwIP calls it with that index for every datagram, until
the control block is removed; the callback puts the datagram into the slot with that index and tells
the owner of that slot, without a look at the control block of the slot.

When the owner closes the socket, the control block goes with the slot.  A TCP callback that is
raised with the index of a UDP slot releases the slot alone: the control block stays, and whoever
gets the slot next gets its datagrams.

## Main definitions

* `Registered`, `UdpRouted` — an index is registered on a control block; every such index is that of
  the slot with the control block.
* `takesDatagrams`, `SparesUdp` — no TCP callback releases a slot that takes datagrams.

## Main results

* `holds_udp_step` — how a slot loses a UDP control block.
* `UdpRouted.step`, `udpRouted_iff` — what a step does to the indices.
* `datagrams_reach_socket` — **every datagram reaches the socket with the control block it has come
  to**.
-/

namespace Xtcp

open Runs

variable {cfg : Config} {s s' : Server} {T T' : Table} {k : ℤ} {p : Ptr}

/-! ### Indices -/

/-- `xtcp_udp_recv` is registered on the UDP control block at `p`, with the argument `k`. -/
def Registered (s : Server) (p : Ptr) (k : ℤ) : Prop := (s.udp p).bind UdpPcb.recvArg = some k

instance (s : Server) (p : Ptr) (k : ℤ) : Decidable (Registered s p k) :=
  inferInstanceAs (Decidable (_ = _))

/-- Every index that is registered on a control block is that of the slot with the control block. -/
def UdpRouted (cfg : Config) (s : Server) : Prop :=
  ∀ p k, Registered s p k → cfg.InRange k ∧ s.table.holds k = some (.udp p)

/-- Slot `k` has a UDP control block with the index of the slot registered. -/
def takesDatagrams (s : Server) (k : ℤ) : Bool :=
  match (s.connections k).pcb with
  | .udp p => decide (Registered s p k)
  | .null | .tcp _ => false

/-- The argument of a callback of a connection that fails, or that is to be accepted. -/
def Action.failing : Action → Option ℤ
  | .happens (.tcpEvent _ arg (.err _)) | .happens (.tcpEvent _ arg .accept) => some arg
  | _ => none

/-- No connection fails, and none is to be accepted, with the index of a slot that takes
datagrams. -/
def SparesUdp (s : Server) (a : Action) : Prop := a.failing.any (takesDatagrams s) = false

instance (s : Server) (a : Action) : Decidable (SparesUdp s a) :=
  inferInstanceAs (Decidable (_ = _))

theorem holds_eq_udp : T.holds k = some (.udp p) ↔ (T.slot k).pcb = .udp p := by
  unfold Table.holds
  cases (T.slot k).pcb <;> simp [PcbUnion.block]

theorem takesDatagrams_iff :
    takesDatagrams s k = true ↔ ∃ p, s.table.holds k = some (.udp p) ∧ Registered s p k := by
  have hslot : ∀ p, s.table.holds k = some (.udp p) ↔ (s.connections k).pcb = .udp p :=
    fun p => holds_eq_udp
  simp only [hslot]
  unfold takesDatagrams
  cases (s.connections k).pcb <;> simp

/-- A slot with a UDP control block is a UDP socket. -/
theorem TableOk.protocol_of_udp (h : TableOk cfg T) (hk : cfg.InRange k)
    (hheld : T.holds k = some (.udp p)) : (T.slot k).protocol = .udp := by
  have hfits := (h.slot k hk).fits
  rw [holds_eq_udp.mp hheld] at hfits
  exact hfits

/-- The control block of a UDP socket, as `get_udp_pcb` returns it. -/
theorem TableOk.holds_of_getUdpPcb (h : TableOk cfg s.table) (hget : getUdpPcb cfg s k = some p) :
    cfg.InRange k ∧ s.table.holds k = some (.udp p) := by
  unfold getUdpPcb at hget
  split at hget
  · next hk =>
    obtain ⟨hk, hproto⟩ := hk
    refine ⟨hk, holds_eq_udp.mpr ?_⟩
    have hfits := (h.slot k hk).fits
    have hslot : (s.table.slot k).pcb = (s.connections k).pcb := rfl
    have hproto' : (s.table.slot k).protocol = .udp := hproto
    rw [hslot, hproto'] at hfits
    rw [hslot]
    cases hpcb : (s.connections k).pcb with
    | null => rw [hpcb] at hget; cases hget
    | tcp q => rw [hpcb] at hfits; cases hfits
    | udp q => rw [hpcb] at hget; cases hget; rfl
  · cases hget

/-! ### Slots -/

theorem release_udp (k : ℤ) : (T.release cfg k).udp = T.udp := by
  unfold Table.release
  split <;> rfl

/-- **How a slot loses a UDP control block**: its owner closes it, and the control block is removed;
or a callback of TCP has its index. -/
theorem holds_udp_step (hT : TableOk cfg T) {a : Action} {r : Reply}
    (hstep : TableStep cfg T a r T') (hk : cfg.InRange k) (hheld : T.holds k = some (.udp p)) :
    T'.holds k = some (.udp p) ∨ T'.udp p = false ∨ a.failing = some k := by
  have hproto := hT.protocol_of_udp hk hheld
  have hpcb := holds_eq_udp.mp hheld
  -- a slot that is taken is another one
  have hne : ∀ {j}, T.freeSlot cfg = some j → k ≠ j := by
    rintro j hfree rfl
    rw [(Accounted.holds_of_freeSlot hT hfree).2] at hheld
    cases hheld
  have hsame : T'.slot k = T.slot k → T'.holds k = some (.udp p) := by
    intro heq
    rw [Table.holds, heq]
    exact hheld
  cases hstep with
  | quiet => exact .inl hheld
  | socketNull _ _ hfree => exact .inl (hsame (by rw [Table.assign_slot, if_neg (hne hfree)]))
  | socketNone _ hfree => exact .inl (hsame (by rw [Table.assign_slot, if_neg (hne hfree)]))
  | socketUdp _ hfree =>
    refine .inl (hsame ?_)
    rw [Table.store_slot, if_neg (hne hfree), Table.setUdp_slot, Table.assign_slot,
      if_neg (hne hfree)]
  | socketTcp _ hfree =>
    refine .inl (hsame ?_)
    rw [Table.store_slot, if_neg (hne hfree), Table.setTcp_slot, Table.assign_slot,
      if_neg (hne hfree)]
  | @close i call j lingers =>
    by_cases hj : k = j
    · subst hj
      refine .inr (.inl ?_)
      have haddr : (T.slot k).pcb.addr = some p := by rw [hpcb]; rfl
      simp only [release_udp, Table.closePcb, hproto, haddr, Table.setUdp, Function.update_self]
    · refine .inl (hsame ?_)
      rw [Table.release_slot, if_neg fun h => hj h.1, Table.closePcb_slot]
  | @listen i j _ _ q l arg _ _ htcp =>
    refine .inl (hsame ?_)
    have hj : k ≠ j := by
      rintro rfl
      rw [hproto] at htcp
      cases htcp
    rw [Table.store_slot, if_neg hj]
    rfl
  | connect => exact .inl hheld
  | @clientData i j data =>
    left
    rw [Table.holds_setSlot, Function.update_apply]
    split
    · next hj => subst hj; exact hheld
    · exact hheld
  | syn => exact .inl hheld
  | accepted _ _ _ hfree =>
    refine .inl (hsame ?_)
    rw [Table.setTcp_slot, Table.store_slot, if_neg (hne hfree), Table.assign_slot,
      if_neg (hne hfree)]
  | acceptAborted _ _ _ hfree =>
    refine .inl (hsame ?_)
    rw [Table.release_slot, if_neg fun hj => hne hfree hj.1, Table.setTcp_slot, Table.store_slot,
      if_neg (hne hfree), Table.assign_slot, if_neg (hne hfree)]
  | @acceptRefused l n arg =>
    by_cases hj : k = arg
    · exact .inr (.inr (congrArg some hj.symm))
    · refine .inl (hsame ?_)
      rw [Table.release_slot, if_neg fun h => hj h.1, Table.setTcp_slot]
  | @err q arg =>
    by_cases hj : k = arg
    · exact .inr (.inr (congrArg some hj.symm))
    · refine .inl (hsame ?_)
      rw [Table.release_slot, if_neg fun h => hj h.1, Table.setTcp_slot]
  | reap => exact .inl hheld

/-! ### Steps -/

/-- **A step keeps the indices right**, when no callback of TCP has one of them. -/
theorem UdpRouted.step (hT : TableOk cfg s.table) (h : UdpRouted cfg s) {a : Action}
    (hok : Allowed cfg s a) (hspares : SparesUdp s a) {r : Reply}
    (hs : step cfg s a = .ok (s', r)) : UdpRouted cfg s' := by
  intro p k hreg
  -- the slot has the control block before the step, and no callback has its index
  obtain ⟨hk, hheld, hnot⟩ : cfg.InRange k ∧ s.table.holds k = some (.udp p) ∧
      a.failing ≠ some k := by
    rcases (effects_step hs).recvArg hreg with hold | hnew
    · obtain ⟨hk, hheld⟩ := h p k hold
      refine ⟨hk, hheld, fun hfails => ?_⟩
      have htakes : takesDatagrams s k = true := takesDatagrams_iff.mpr ⟨p, hheld, hold⟩
      rw [SparesUdp, hfails, Option.any_some, htakes] at hspares
      cases hspares
    · obtain ⟨i, hcall, -, hget⟩ := Action.of_asks_register hnew
      obtain ⟨hk, hheld⟩ := hT.holds_of_getUdpPcb hget
      refine ⟨hk, hheld, ?_⟩
      obtain ⟨_, _, _, rfl⟩ | ⟨_, _, _, rfl⟩ := hcall <;> (intro hfails; cases hfails)
  refine ⟨hk, ?_⟩
  rcases holds_udp_step hT (step_table hT.cursor hok hs) hk hheld with hkept | hgone | hfails
  · exact hkept
  · have hnone : s'.udp p = none := by simpa [Server.table] using hgone
    rw [Registered, hnone] at hreg
    cases hreg
  · exact absurd hfails hnot

/-- A TCP callback leaves the UDP control blocks alone. -/
theorem udp_of_failing {a : Action} (hfails : a.failing = some k) {r : Reply}
    (hs : step cfg s a = .ok (s', r)) : s'.udp = s.udp := by
  refine (effects_step hs).udp ?_ ?_
  · intro p hp
    cases a with
    | call i call => cases hfails
    | happens happening => cases happening <;> cases hp
  · intro p j hp
    obtain ⟨i, hcall, -⟩ := Action.of_asks_register hp
    obtain ⟨_, _, _, rfl⟩ | ⟨_, _, _, rfl⟩ := hcall <;> cases hfails

/-- The slot is released by it. -/
theorem holds_of_failing (hT : TableOk cfg s.table) {a : Action} (hok : Allowed cfg s a)
    (hk : cfg.InRange k) (hheld : s.table.holds k = some (.udp p)) (hfails : a.failing = some k)
    {r : Reply} (hs : step cfg s a = .ok (s', r)) : s'.table.holds k = none := by
  have hreleased : ∀ q, ((s.table.setTcp q none).release cfg k).holds k = none := by
    intro q
    rw [Table.holds, Table.release_slot, if_pos ⟨rfl, hk⟩]
    rfl
  unfold Action.failing at hfails
  split at hfails
  · cases hfails
    rw [table_of_err hs]
    exact hreleased _
  · cases hfails
    -- there is no accepting on a UDP socket
    have hproto := hT.protocol_of_udp hk hheld
    rw [table_of_refused hT.cursor hok (fun _ htcp => by rw [hproto] at htcp; cases htcp) hs]
    exact hreleased _
  · cases hfails

/-- **A step keeps the indices right exactly if no callback of TCP has one of them.** -/
theorem udpRouted_iff (hT : TableOk cfg s.table) (h : UdpRouted cfg s) {a : Action}
    (hok : Allowed cfg s a) {r : Reply} (hs : step cfg s a = .ok (s', r)) :
    UdpRouted cfg s' ↔ SparesUdp s a := by
  refine ⟨fun h' => ?_, fun hspares => h.step hT hok hspares hs⟩
  by_contra hnot
  obtain ⟨k, hfails, htakes⟩ := (Option.any_eq_true _ _).mp (Bool.of_not_eq_false hnot)
  obtain ⟨p, hheld, hreg⟩ := takesDatagrams_iff.mp htakes
  -- the index is still registered, and the slot has nothing
  have hreg' : Registered s' p k := by
    rw [Registered, udp_of_failing hfails hs]
    exact hreg
  have hnone := holds_of_failing hT hok (h p k hreg).1 hheld hfails hs
  rw [(h' p k hreg').2] at hnone
  cases hnone

/-! ### Histories -/

/-- An index is registered only for an index of the table. -/
theorem inRange_of_registered (h : ∀ p k, Registered s p k → cfg.InRange k) {a : Action}
    {r : Reply} (hs : step cfg s a = .ok (s', r)) (hreg : Registered s' p k) : cfg.InRange k := by
  rcases (effects_step hs).recvArg hreg with hold | hnew
  · exact h p k hold
  · obtain ⟨i, -, hfind, -⟩ := Action.of_asks_register hnew
    exact (find_success_iff.mp hfind).1

theorem udpRouted_init : UdpRouted cfg (init cfg) := by
  intro p k hreg
  cases hreg

/-- The events that a datagram posts: one, to the owner of the slot it goes to. -/
theorem postsTo_udpRecv (hk : cfg.InRange k) {pcb : Ptr} {cells : List (Ptr × Pbuf)}
    {addr : Option IpAddr} {port : UInt16} (hcells : cells ≠ []) (c : ℕ) :
    postsTo cfg c s (.happens (.udpRecv pcb k cells addr port))
      = if (s.connections k).clientNum = c then [⟨udpRecvEvent s pcb, k⟩] else [] := by
  obtain ⟨⟨q, b⟩, cells, rfl⟩ := List.exists_cons_of_ne_nil hcells
  have hposts : posts cfg s (.happens (.udpRecv pcb k ((q, b) :: cells) addr port))
      = [((s.connections k).clientNum, ⟨udpRecvEvent s pcb, k⟩)] := by
    simp [posts, deliveredHead, getClientInfo, hk]
  rw [postsTo, hposts, addressed_singleton]

/-- **Every datagram reaches the socket with the control block it has come to.**  Take a history in
which no connection fails, and none is to be accepted, with the index of a slot that takes
datagrams.  Then the index of every datagram is that of an active UDP socket of an attached client,
with the control block of the datagram; its event is posted to that client and to no other.  And
after the next step the indices are still right exactly if that step is of this kind too. -/
theorem datagrams_reach_socket {tr : List (Action × Reply)}
    (hrun : RunsTo cfg SparesUdp tr s) :
    (∀ pcb arg cells addr port, cells ≠ [] →
      Allowed cfg s (.happens (.udpRecv pcb arg cells addr port)) →
      cfg.InRange arg ∧ (s.connections arg).isActive = true ∧ (s.connections arg).protocol = .udp ∧
        (s.connections arg).pcb = .udp pcb ∧ (s.connections arg).clientNum < cfg.nXtcp ∧
        ∀ c, postsTo cfg c s (.happens (.udpRecv pcb arg cells addr port))
          = if (s.connections arg).clientNum = c then [⟨udpRecvEvent s pcb, arg⟩] else []) ∧
    ∀ a s' r, Allowed cfg s a → step cfg s a = .ok (s', r) →
      (UdpRouted cfg s' ↔ SparesUdp s a) := by
  obtain ⟨hT, h⟩ : TableOk cfg s.table ∧ UdpRouted cfg s := by
    refine Run.invariant (I := fun s => TableOk cfg s.table ∧ UdpRouted cfg s) hrun
      ⟨tableOk_init, udpRouted_init⟩ fun u a u' r hu hok hs => ?_
    exact ⟨hu.1.step (step_table hu.1.cursor hok.1 hs), hu.2.step hu.1 hok.1 hok.2 hs⟩
  refine ⟨fun pcb arg cells addr port hcells hok => ?_, fun a s' r hok hs =>
    udpRouted_iff hT h hok hs⟩
  obtain ⟨hk, hheld⟩ := h pcb arg hok.1
  have hproto := hT.protocol_of_udp hk hheld
  have hact := hT.active_of_protocol hk (by rw [hproto]; decide)
  exact ⟨hk, hact, hproto, holds_eq_udp.mp hheld, (hT.slot arg hk).owner hact,
    fun c => postsTo_udpRecv hk hcells c⟩

/-- A connection is accepted and fails, and another client listens for datagrams in its slot. -/
theorem datagrams_reach_socket_reused : ∃ tr s, RunsTo .roomy SparesUdp tr s ∧
    Allowed .roomy s (.happens (.udpRecv 14 1
      [(100, ⟨none, ⟨[1], by decide⟩, 1, 1, false, 0, {}⟩)] none 0)) ∧
    (s.connections 1).pcb = .udp 14 ∧ (s.connections 1).clientNum = 1 := by
  have hrun : ∃ tr s, RunsTo .roomy SparesUdp tr s ∧
      Allowed .roomy s (.happens (.udpRecv 14 1
        [(100, ⟨none, ⟨[1], by decide⟩, 1, 1, false, 0, {}⟩)] none 0)) ∧
      (s.connections 1).clientNum = 1 := by
    refine Run.exists_of_replay
      [.call 0 (.socket .tcp (some 10)), .call 0 (.listen 0 80 {} ⟨.ok, some 11⟩),
        .happens (.syn 11 12), .happens (.tcpEvent 12 0 .accept),
        .happens (.tcpEvent 12 1 (.err .rst)), .call 1 (.socket .udp (some 14)),
        .call 1 (.listen 1 67 {} ⟨.ok, none⟩)] ?_
    decide
  obtain ⟨tr, s, hrun, hok, howner⟩ := hrun
  obtain ⟨-, -, -, hpcb, -⟩ := (datagrams_reach_socket hrun).1 14 1 _ none 0 (by simp) hok
  exact ⟨tr, s, hrun, hok, hpcb, howner⟩

end Xtcp
