import Xtcp.Close

/-!
# Any environment

What holds of the server whatever lwIP does.  A callback may come with any argument, any
control block, any pbufs and any error, at any time; a client may pass any id; and in between
lwIP may do to its own pbufs and control blocks whatever it likes.  Only the clients are the
attached ones.

Such a history is a run of `feed`.  Every history of the server under `Allowed` is one of them.

Four things are written in a slot, and `SlotStep` says when: it is taken, it is released, its
control block is exchanged, its client stores data.  The shape of the table follows from that,
and from the shape of the table that a call for a slot its client does not own comes back with
an error and has done nothing.

## Main definitions

* `LwipState`, `Input`, `feed` — what may happen, with nothing assumed of lwIP.
* `Fed` — the histories.
* `Input.assigns`, `SlotStep` — what one step does to the slots.
* `Call.target`, `Call.refusal` — the slot a call is for, and its answer to a stranger.

## Main results

* `RunsTo.fed` — a history of the server is such a history.
* `connection_table_wellFormed` — **the shape of the table**.
* `call_refused` — **a call for a slot the client does not own** changes nothing.
-/

namespace Xtcp

open Runs

variable {cfg : Config} {s s' : Server}

/-! ### Inputs -/

/-- The part of the state that belongs to lwIP. -/
structure LwipState where
  /-- The pbufs that exist. -/
  pbufs : Pbufs
  /-- The pbufs lwIP keeps to deliver them again. -/
  refused : Ptr → Bool
  /-- The TCP control blocks that exist. -/
  tcp : Ptr → Option TcpPcb
  /-- The UDP control blocks that exist. -/
  udp : Ptr → Option UdpPcb
  /-- The callback arguments of the DNS requests under way. -/
  dnsRequests : List ℕ
  /-- How often each multicast group has been joined. -/
  igmpJoins : IpAddr → ℕ

/-- The part of the state that belongs to lwIP. -/
def Server.lwip (s : Server) : LwipState where
  pbufs := s.pbufs
  refused := s.refused
  tcp := s.tcp
  udp := s.udp
  dnsRequests := s.dnsRequests
  igmpJoins := s.igmpJoins

/-- The server after lwIP has worked on its own part. -/
def Server.withLwip (s : Server) (l : LwipState) : Server :=
  { s with
    pbufs := l.pbufs
    refused := l.refused
    tcp := l.tcp
    udp := l.udp
    dnsRequests := l.dnsRequests
    igmpJoins := l.igmpJoins }

/-- Something that comes to the server from outside. -/
inductive Input
  /-- Client `i` calls. -/
  | call (i : ℕ) (call : Call)
  /-- lwIP calls `lwip_tcp_event`. -/
  | tcpEvent (arg : ℤ) (pcb : Option Ptr) (e : LwipEvent) (p : Option Ptr) (err : Err)
  /-- lwIP calls `xtcp_udp_recv`. -/
  | udpRecv (arg : ℤ) (upcb : Ptr) (p : Option Ptr) (addr : Option IpAddr) (port : UInt16)
  /-- lwIP calls `xtcp_dns_found`. -/
  | dnsFound (hasName : Bool) (ipaddr : Option IpAddr) (callbackArg : ℕ)
  /-- A status message of the Ethernet MAC. -/
  | linkStatus (up : Bool)
  /-- A timer tick, with the state of the interface at that moment. -/
  | timeout (timer : ℕ) (hasIpAddress ifState : Bool)
  /-- lwIP works on its own pbufs and control blocks. -/
  | lwip (l : LwipState)

/-- Carry out one input. -/
def feed (cfg : Config) (s : Server) : Input → Except Fault (Server × Reply)
  | .call i call => stepCall cfg s i call
  | .tcpEvent arg pcb e p err => do
    let (s, result) ← lwipTcpEvent cfg s arg pcb e p err
    .ok (s, .err result)
  | .udpRecv arg upcb p addr port => do
    let s ← xtcpUdpRecv cfg s arg upcb p addr port
    .ok (s, .unit)
  | .dnsFound hasName ipaddr callbackArg =>
    .ok (xtcpDnsFound cfg s hasName ipaddr callbackArg, .unit)
  | .linkStatus up => stepHappening cfg s (.linkStatus up)
  | .timeout timer hasIpAddress ifState =>
    stepHappening cfg s (.timeout timer hasIpAddress ifState)
  | .lwip l => .ok (s.withLwip l, .unit)

/-- The only callers are the attached clients. -/
def Input.FromClients (cfg : Config) : Input → Prop
  | .call i _ => i < cfg.nXtcp
  | _ => True

instance (x : Input) : Decidable (x.FromClients cfg) := by
  cases x <;> dsimp only [Input.FromClients] <;> infer_instance

/-- A history in which nothing is assumed of lwIP. -/
def Fed (cfg : Config) (tr : List (Input × Reply)) (s : Server) : Prop :=
  Run (feed cfg) (fun _ x => x.FromClients cfg) (init cfg) tr s

/-! ### The histories of the server -/

/-- `t` comes after `s` in some environment. -/
def Leads (cfg : Config) (s t : Server) : Prop :=
  ∃ tr, Run (feed cfg) (fun _ x => x.FromClients cfg) s tr t

namespace Leads

variable {t : Server}

theorem refl (s : Server) : Leads cfg s s := ⟨[], .nil⟩

theorem trans {u : Server} (h : Leads cfg s t) (h' : Leads cfg t u) : Leads cfg s u := by
  obtain ⟨tr, hrun⟩ := h
  obtain ⟨tr', hrun'⟩ := h'
  exact ⟨tr ++ tr', hrun.trans hrun'⟩

theorem of_feed {x : Input} {r : Reply} (hx : x.FromClients cfg)
    (h : feed cfg s x = .ok (t, r)) : Leads cfg s t := by
  have hrun : Run (feed cfg) (fun _ x => x.FromClients cfg) s [(x, r)] t := .snoc .nil hx h
  exact ⟨_, hrun⟩

/-- lwIP has changed nothing that is not its own. -/
theorem of_lwip (h : t = s.withLwip t.lwip) : Leads cfg s t :=
  of_feed (x := .lwip t.lwip) (r := .unit) trivial (by rw [h]; rfl)

theorem of_tcpEvent {arg : ℤ} {pcb : Option Ptr} {e : LwipEvent} {p : Option Ptr} {err r : Err}
    (h : lwipTcpEvent cfg s arg pcb e p err = .ok (t, r)) : Leads cfg s t :=
  of_feed (x := .tcpEvent arg pcb e p err) (r := .err r) trivial (by simp only [feed, h]; rfl)

theorem abortAccepted {n : Ptr} (h : abortAccepted cfg s n = .ok t) : Leads cfg s t := by
  unfold Xtcp.abortAccepted at h
  split at h
  · cases h; exact refl s
  · obtain ⟨⟨u, e⟩, hu, h⟩ := bind_eq_ok.mp h
    cases h
    have hfree : Leads cfg s (tcpFree s n) := of_lwip rfl
    exact hfree.trans (of_tcpEvent hu)

/-- A TCP callback: lwIP prepares it, makes it, and deals with its result. -/
theorem stepTcp {pcb : Ptr} {arg : ℤ} {callback : TcpCallback} {r : Reply}
    (h : stepTcp cfg s pcb arg callback = .ok (t, r)) : Leads cfg s t := by
  cases callback with
  | accept =>
    obtain ⟨⟨u, e⟩, hu, h⟩ := bind_eq_ok.mp h
    have hactive : Leads cfg s (s.modifyTcp pcb fun b => { b with status := .active }) :=
      of_lwip rfl
    have haccept := hactive.trans (of_tcpEvent hu)
    dsimp only at h
    split at h
    · cases h; exact haccept
    · obtain ⟨v, hv, h⟩ := bind_eq_ok.mp h
      cases h
      exact haccept.trans (abortAccepted hv)
  | recv cells =>
    obtain ⟨⟨u, e⟩, hu, h⟩ := bind_eq_ok.mp h
    have hdeliver : Leads cfg s { s with pbufs := deliver s.pbufs cells } := of_lwip rfl
    have hrecv := hdeliver.trans (of_tcpEvent hu)
    dsimp only at h
    split at h
    · cases h; exact hrecv
    · cases h; exact hrecv.trans (of_lwip rfl)
  | err err =>
    obtain ⟨⟨u, e⟩, hu, h⟩ := bind_eq_ok.mp h
    cases h
    have hfree : Leads cfg s (tcpFree s pcb) := of_lwip rfl
    exact hfree.trans (of_tcpEvent hu)
  | acceptFailed | connected | sent | poll =>
    obtain ⟨⟨u, e⟩, hu, h⟩ := bind_eq_ok.mp h
    cases h
    exact of_tcpEvent hu

/-- Every step of the server is made of such inputs. -/
theorem step {a : Action} (hok : Allowed cfg s a) {r : Reply}
    (h : step cfg s a = .ok (t, r)) : Leads cfg s t := by
  cases a with
  | call i call => exact of_feed (x := .call i call) hok.1 h
  | happens happening =>
    have h : stepHappening cfg s happening = .ok (t, r) := h
    cases happening with
    | tcpEvent pcb arg callback => exact stepTcp h
    | udpRecv pcb arg cells addr port =>
      obtain ⟨u, hu, h⟩ := bind_eq_ok.mp h
      cases h
      have hdeliver : Leads cfg s { s with pbufs := deliver s.pbufs cells } := of_lwip rfl
      exact hdeliver.trans (of_feed (x := .udpRecv arg pcb (deliveredHead cells) addr port)
        (r := .unit) trivial (by simp only [feed, hu]; rfl))
    | dnsFound hasName ipaddr arg =>
      have hdone : Leads cfg s { s with dnsRequests := s.dnsRequests.erase arg } := of_lwip rfl
      exact hdone.trans (of_feed (x := .dnsFound hasName ipaddr arg) trivial h)
    | dropRefused p =>
      obtain ⟨m, -, h⟩ := bind_eq_ok.mp h
      cases h
      exact of_lwip rfl
    | linkStatus up => exact of_feed (x := .linkStatus up) trivial h
    | timeout timer hasIpAddress ifState =>
      exact of_feed (x := .timeout timer hasIpAddress ifState) trivial h
    | syn | reap => cases h; exact of_lwip rfl

end Leads

/-- **A history of the server is a history in some environment.** -/
theorem RunsTo.fed {C : Server → Action → Prop} {tr : List (Action × Reply)}
    (hrun : RunsTo cfg C tr s) : ∃ tr', Fed cfg tr' s :=
  Run.invariant (I := fun s => Leads cfg (init cfg) s) hrun (.refl _)
    fun _ _ _ _ h hok hstep => h.trans (.step hok.1 hstep)

/-! ### Slots -/

/-- The slot an input assigns to a client: the one `assign_client_connection` stops at, when it
is reached. -/
def Input.assigns (cfg : Config) (s : Server) : Input → Option ℤ
  | .call _ (.socket _ _) => s.table.freeSlot cfg
  | .tcpEvent arg (some _) .accept _ err =>
    if cfg.InRange arg ∧ (s.connections arg).protocol = .tcp ∧ err = .ok then
      s.table.freeSlot cfg
    else none
  | _ => none

/-- What one input can do to the slots. -/
inductive SlotStep (cfg : Config) (s s' : Server) (x : Input) : Prop
  /-- Nothing. -/
  | keeps : s'.table.slot = s.table.slot → s'.table.cursor = s.table.cursor →
      SlotStep cfg s s' x
  /-- A slot is assigned, and may have been given a control block. -/
  | assigned {k : ℤ} {c : ℕ} {protocol : Protocol} {pcb : PcbUnion} :
      x.assigns cfg s = some k → s.table.freeSlot cfg = some k → c < cfg.nXtcp →
      pcb.Fits protocol →
      s'.table.slot = (s.table.setSlot k ⟨true, c, protocol, pcb, (s.table.slot k).clientData⟩).slot
        →
      s'.table.cursor = k + 1 → SlotStep cfg s s' x
  /-- A slot is released. -/
  | released {k : ℤ} : s'.table.slot = (s.table.release cfg k).slot →
      s'.table.cursor = s.table.cursor → SlotStep cfg s s' x
  /-- A client's TCP slot gets another control block. -/
  | stored {i : ℕ} {k : ℤ} {p : Ptr} : i < cfg.nXtcp → s.table.OwnedBy cfg i k →
      (s.table.slot k).protocol = .tcp → s'.table.slot = (s.table.store k (.tcp p)).slot →
      s'.table.cursor = s.table.cursor → SlotStep cfg s s' x
  /-- A client stores its data in its slot. -/
  | clientData {i : ℕ} {k : ℤ} {data : Option Ptr} : i < cfg.nXtcp → s.table.OwnedBy cfg i k →
      s'.table.slot = (s.table.setSlot k { s.table.slot k with clientData := data }).slot →
      s'.table.cursor = s.table.cursor → SlotStep cfg s s' x

namespace SlotStep

theorem of_table {x : Input} (h : s'.table = s.table) : SlotStep cfg s s' x :=
  .keeps (by rw [h]) (by rw [h])

theorem socket (hcur : s.table.CursorOk cfg) {i : ℕ} (hi : i < cfg.nXtcp) (protocol : Protocol)
    (answer : Option Ptr) : SlotStep cfg s (shimNewSocket cfg s i protocol answer).1
      (.call i (.socket protocol answer)) := by
  cases hfree : s.table.freeSlot cfg with
  | none => exact of_table (by rw [shimNewSocket_full hfree])
  | some k =>
    -- the slot with the control block that lwIP has found for it
    have htaken : ∀ pcb : PcbUnion, pcb.Fits protocol →
        (shimNewSocket cfg s i protocol answer).1.table.slot
          = ((s.table.assign k i protocol).store k pcb).slot →
        (shimNewSocket cfg s i protocol answer).1.table.cursor = k + 1 →
        SlotStep cfg s (shimNewSocket cfg s i protocol answer).1
          (.call i (.socket protocol answer)) := by
      intro pcb hfit hslot hcursor
      refine .assigned hfree hfree hi hfit (hslot.trans ?_) hcursor
      funext j
      rw [Table.store_slot, Table.setSlot_slot, Table.assign_slot, Table.assign_slot, if_pos rfl]
      split <;> rfl
    have hnull : (s.table.assign k i protocol).slot
        = ((s.table.assign k i protocol).store k .null).slot := by
      funext j
      rw [Table.store_slot, Table.assign_slot, Table.assign_slot, if_pos rfl]
      split <;> rfl
    cases protocol with
    | none =>
      have htab := (shimNewSocket_none hfree i answer).2
      exact htaken .null trivial (by rw [htab, hnull]) (by rw [htab]; rfl)
    | tcp =>
      cases answer with
      | none =>
        have htab := (shimNewSocket_null hfree i (show Protocol.tcp ≠ .none by decide)).2
        exact htaken .null trivial (by rw [htab, hnull]) (by rw [htab]; rfl)
      | some p =>
        have htab := (shimNewSocket_tcp hcur hfree i p).2
        exact htaken (.tcp p) rfl (by rw [htab]; rfl) (by rw [htab]; rfl)
    | udp =>
      cases answer with
      | none =>
        have htab := (shimNewSocket_null hfree i (show Protocol.udp ≠ .none by decide)).2
        exact htaken .null trivial (by rw [htab, hnull]) (by rw [htab]; rfl)
      | some p =>
        have htab := (shimNewSocket_udp hcur hfree i p).2
        exact htaken (.udp p) rfl (by rw [htab]; rfl) (by rw [htab]; rfl)

theorem close {i : ℕ} {k : ℤ} {lingers : Bool} {x : Input}
    (h : shimCloseSocket cfg s i k lingers = .ok s') : SlotStep cfg s s' x := by
  obtain rfl | ⟨hown, t, ht, rfl⟩ := shimCloseSocket_cases h
  · exact of_table rfl
  · have htab : t.table = s.table := (leaves_clearPending ht).table.trans rfl
    refine .released (k := k) ?_ ?_
    · rw [table_freeClientConnection, table_closePcb hown.1, htab]
      funext j
      rw [Table.release_slot, Table.release_slot, Table.closePcb_slot]
    · rw [table_freeClientConnection, table_closePcb hown.1, htab, Table.release_cursor,
        Table.closePcb_cursor]

theorem listen {i : ℕ} (hi : i < cfg.nXtcp) {k : ℤ} {portNumber : UInt16} {ipaddr : IpAddr}
    {answer : ListenAnswer} {x : Input} :
    SlotStep cfg s (shimListen cfg s i k portNumber ipaddr answer).1 x := by
  unfold shimListen
  dsimp only
  split
  · exact of_table rfl
  · next hfind =>
    have hown : s.table.OwnedBy cfg i k := find_success_iff.mp (not_not.mp hfind)
    split
    · split
      · exact of_table rfl
      · next p hp =>
        obtain ⟨hproto, -⟩ := getTcpPcb_eq hp
        have hbound := table_tcpBind s p ⟨ipaddr, portNumber⟩ answer.bind
        split
        · split
          · exact of_table hbound
          · next l _ =>
            have hlisten := table_tcpListen (tcpBind s p ⟨ipaddr, portNumber⟩ answer.bind) p l
            rw [hbound] at hlisten
            have hset := (table_setTcpPcb hown.1 (by rw [hlisten]; exact hproto) l).1
            refine .stored (p := l) hi hown hproto ?_ ?_
            · rw [table_tcpArg, hset, hlisten]; rfl
            · rw [table_tcpArg, hset, hlisten]; rfl
        · split
          · exact of_table hbound
          · exact of_table hbound
    · split
      · exact of_table rfl
      · split
        · exact of_table ((table_udpRecv _ _ _).trans (table_udpBind _ _ _ _))
        · exact of_table (table_udpBind _ _ _ _)
    · exact of_table rfl

theorem connect {i : ℕ} {k : ℤ} {portNumber : UInt16} {ipaddr : IpAddr} {answer : Err}
    {x : Input} : SlotStep cfg s (shimConnect cfg s i k portNumber ipaddr answer).1 x := by
  unfold shimConnect
  dsimp only
  split
  · exact of_table rfl
  · split
    · split
      · exact of_table rfl
      · unfold tcpConnect
        split
        · exact .keeps rfl rfl
        · exact of_table rfl
    · split
      · exact of_table rfl
      · split
        · exact of_table ((table_udpRecv _ _ _).trans (table_udpConnect _ _ _ _))
        · exact of_table (table_udpConnect _ _ _ _)
    · exact of_table rfl

/-- A client's call. -/
theorem stepCall (hcur : s.table.CursorOk cfg) {i : ℕ} (hi : i < cfg.nXtcp) {call : Call}
    {r : Reply} (h : stepCall cfg s i call = .ok (s', r)) : SlotStep cfg s s' (.call i call) := by
  cases call with
  | getEvent => cases h; exact of_table rfl
  | socket protocol answer => cases h; exact socket hcur hi protocol answer
  | close id lingers | abort id lingers =>
    obtain ⟨t, ht, h⟩ := bind_eq_ok.mp h
    cases h
    exact close ht
  | listen id portNumber ipaddr answer => cases h; exact listen hi
  | connect id portNumber ipaddr answer =>
    simp only [Xtcp.stepCall] at h
    split at h
    · cases h; exact of_table rfl
    · cases h; exact connect
  | send id buffer timed answer => exact of_table (leaves_sendCommon h).table
  | sendto id buffer timed answer => exact of_table (leaves_sendtoCommon h).table
  | recv id length timed => exact of_table (leaves_recvCommon h).table
  | recvfrom id length timed => exact of_table (leaves_recvfromCommon h).table
  | setConnectionClientData id data =>
    simp only [Xtcp.stepCall] at h
    split at h
    · cases h; exact of_table rfl
    · next hfind =>
      have hown : s.table.OwnedBy cfg i id := find_success_iff.mp (not_not.mp hfind)
      cases h
      rw [setConnectionClientData, if_pos hown.1]
      exact .clientData hi hown (congrArg Table.slot (table_setEntry s id _)) rfl
  | getConnectionClientData id =>
    simp only [Xtcp.stepCall] at h
    split at h <;> cases h <;> exact of_table rfl
  | joinMulticastGroup addr answer =>
    cases h
    simp only [setMacaddrFilter, shimJoinMulticastGroup]
    split <;> split <;> exact of_table rfl
  | leaveMulticastGroup addr =>
    cases h
    simp only [setMacaddrFilter, shimLeaveMulticastGroup]
    split <;> split <;> exact of_table rfl
  | requestHostByName hasGateway answer ipaddr =>
    simp only [Xtcp.stepCall, shimRequestHostByName] at h
    split at h
    · split at h
      · cases h; exact of_table rfl
      · split at h <;> cases h <;> exact of_table rfl
    · cases h; exact of_table rfl
  | getIpconfigRemote id | getIpconfigLocal id => cases h; exact of_table rfl
  | getsockopt id level option length =>
    obtain ⟨⟨status, value⟩, -, h⟩ := bind_eq_ok.mp h
    cases h; exact of_table rfl
  | setsockopt id level option value =>
    obtain ⟨⟨t, e⟩, ht, h⟩ := bind_eq_ok.mp h
    cases h
    exact of_table (leaves_shimSetsockopt ht).table

/-- The slot of a connection that is accepted goes to the owner of the slot it was accepted
on, and that slot is active. -/
theorem accept (hT : TableOk cfg s.table) {arg : ℤ} (harg : cfg.InRange arg) {n p : Option Ptr}
    {err : Err} :
    SlotStep cfg s (eventAccept cfg s arg (getClientInfo cfg s arg) n err).1
      (.tcpEvent arg n .accept p err) := by
  unfold eventAccept
  cases n with
  | none => exact of_table rfl
  | some n =>
    dsimp only
    split
    · exact of_table rfl
    · next herr =>
      have hprio : (tcpSetprio s n tcpPrioMin).table = s.table := table_tcpSetprio s n _
      have hcases := shimAccept_cases (s := tcpSetprio s n tcpPrioMin)
        (by rw [hprio]; exact hT.cursor) harg (getClientInfo cfg s arg) n
      rw [hprio] at hcases
      obtain ⟨k, hproto, hfree, hres, htab⟩ | ⟨hres, -, heq⟩ := hcases
      · rw [if_neg (by rw [hres]; simp)]
        have hassigns : Input.assigns cfg s (.tcpEvent arg (some n) .accept p err) = some k := by
          have hcond : cfg.InRange arg ∧ (s.connections arg).protocol = .tcp ∧ err = .ok :=
            ⟨harg, hproto, not_not.mp herr⟩
          simp only [Input.assigns, if_pos hcond, hfree]
        have howner : getClientInfo cfg s arg < cfg.nXtcp := by
          rw [getClientInfo, if_pos harg]
          exact (hT.slot arg harg).owner (hT.active_of_protocol harg (by rw [hproto]; decide))
        have hfits : PcbUnion.Fits .tcp (.tcp n) := rfl
        refine .assigned hassigns hfree howner hfits ?_ ?_
        · rw [table_enqueue, htab]
          funext j
          rw [Table.setTcp_slot, Table.store_slot, Table.setSlot_slot, Table.assign_slot,
            Table.assign_slot, if_pos rfl]
          split <;> rfl
        · rw [table_enqueue, htab]
          rfl
      · rw [if_pos hres, heq]
        exact of_table hprio

theorem tcpEvent (hT : TableOk cfg s.table) {arg : ℤ} {pcb : Option Ptr} {e : LwipEvent}
    {p : Option Ptr} {err result : Err}
    (h : lwipTcpEvent cfg s arg pcb e p err = .ok (s', result)) :
    SlotStep cfg s s' (.tcpEvent arg pcb e p err) := by
  by_cases he : e = .accept ∨ e = .err
  · unfold lwipTcpEvent at h
    split at h
    · next harg =>
      rcases he with rfl | rfl
      · have hs : (eventAccept cfg s arg (getClientInfo cfg s arg) pcb err).1 = s' :=
          congrArg Prod.fst (Except.ok.inj h)
        rw [← hs]
        exact accept hT harg
      · have htab : (eventErr cfg s arg (getClientInfo cfg s arg) err).1.table
            = s.table.release cfg arg := table_eventErr s arg _ err
        cases h
        refine .released (k := arg) ?_ ?_
        · exact congrArg Table.slot htab
        · exact (congrArg Table.cursor htab).trans (Table.release_cursor arg)
    · cases h; exact of_table rfl
  · push Not at he
    exact of_table (table_lwipTcpEvent he.2 (fun h => absurd h he.1) h)

end SlotStep

/-- **What an input does to the slots.** -/
theorem slotStep (hT : TableOk cfg s.table) {x : Input} (hx : x.FromClients cfg) {r : Reply}
    (h : feed cfg s x = .ok (s', r)) : SlotStep cfg s s' x := by
  cases x with
  | call i call => exact .stepCall hT.cursor hx h
  | tcpEvent arg pcb e p err =>
    obtain ⟨⟨t, result⟩, ht, h⟩ := bind_eq_ok.mp h
    cases h
    exact .tcpEvent hT ht
  | udpRecv arg upcb p addr port =>
    obtain ⟨t, ht, h⟩ := bind_eq_ok.mp h
    cases h
    exact .of_table (table_xtcpUdpRecv ht)
  | dnsFound hasName ipaddr callbackArg => cases h; exact .of_table rfl
  | linkStatus up =>
    simp only [feed, stepHappening] at h
    split at h
    · cases h; exact .of_table rfl
    · cases h; exact .of_table (table_notifyAll _ _)
  | timeout timer hasIpAddress ifState =>
    simp only [feed, stepHappening] at h
    split at h
    · cases h; exact .of_table (table_notifyAll _ _)
    · cases h; exact .of_table rfl
  | lwip l => cases h; exact .keeps rfl rfl

/-! ### The shape of the table -/

/-- Every input keeps the shape of the table. -/
theorem SlotStep.tableOk (hT : TableOk cfg s.table) {x : Input} (h : SlotStep cfg s s' x) :
    TableOk cfg s'.table := by
  -- the table has the slots and the cursor of one that is as it should be
  have hof : ∀ T : Table, TableOk cfg T → s'.table.slot = T.slot →
      s'.table.cursor = T.cursor → TableOk cfg s'.table := by
    intro T hok hslot hcursor
    refine ⟨?_, ?_⟩
    · unfold Table.CursorOk
      rw [hcursor]
      exact hok.cursor
    · rw [hslot]
      exact hok.slot
  cases h with
  | keeps hslot hcursor => exact hof _ hT hslot hcursor
  | @assigned k c protocol pcb hassigns hfree hc hfit hslot hcursor =>
    have hk := (Table.freeSlot_some hT.cursor hfree).1
    have hset := hT.setSlot (k := k) (slotOk_assigned hc protocol pcb hfit
      (s.table.slot k).clientData)
    refine ⟨?_, ?_⟩
    · obtain ⟨h0, h1⟩ := hk
      unfold Table.CursorOk
      omega
    · rw [hslot]
      exact hset.slot
  | released hslot hcursor =>
    exact hof _ (hT.release _) hslot (hcursor.trans (Table.release_cursor _).symm)
  | @stored i k p hi hown hproto hslot hcursor =>
    have hact := hT.active_of_owned hi hown
    have hok : SlotOk cfg { s.table.slot k with pcb := .tcp p } :=
      ⟨fun hne => absurd hact (by simpa using hne), (hT.slot k hown.1).owner, hproto⟩
    exact hof _ (hT.setSlot hok) hslot hcursor
  | @clientData i k data hi hown hslot hcursor =>
    have hact := hT.active_of_owned hi hown
    have hok : SlotOk cfg { s.table.slot k with clientData := data } :=
      ⟨fun hne => absurd hact (by simpa using hne), (hT.slot k hown.1).owner,
        (hT.slot k hown.1).fits⟩
    exact hof _ (hT.setSlot hok) hslot hcursor

theorem Fed.tableOk {tr : List (Input × Reply)} (hrun : Fed cfg tr s) : TableOk cfg s.table :=
  Run.invariant (I := fun s => TableOk cfg s.table) hrun tableOk_init
    fun _ _ _ _ hT hx h => (slotStep hT hx h).tableOk hT

/-- Client `i` owns slot `id`, and the slot is active. -/
def OwnsActive (cfg : Config) (s : Server) (i : ℕ) (id : ℤ) : Prop :=
  cfg.InRange id ∧ (s.connections id).isActive = true ∧ (s.connections id).clientNum = i

instance (i : ℕ) (id : ℤ) : Decidable (OwnsActive cfg s i id) :=
  inferInstanceAs (Decidable (_ ∧ _ ∧ _))

/-- `find_client_connection` looks at the owner only, and finds the active slots of a client. -/
theorem find_success_iff_active (hT : TableOk cfg s.table) {i : ℕ} (hi : i < cfg.nXtcp) (id : ℤ) :
    (findClientConnection cfg s i id).status = .success ↔ OwnsActive cfg s i id := by
  rw [find_success_iff]
  constructor
  · intro hown
    exact ⟨hown.1, hT.active_of_owned hi hown, hown.2⟩
  · rintro ⟨hid, -, hc⟩
    exact ⟨hid, hc⟩

/-- `assign_client_connection` empties the union: what is found there later has been written
since. -/
theorem pcb_of_assign {c : ℕ} {protocol : Protocol} {k : ℤ}
    (h : (assignClientConnection cfg s c protocol).2 = ⟨.success, k⟩) :
    ((assignClientConnection cfg s c protocol).1.connections k).pcb = .null := by
  unfold assignClientConnection at h ⊢
  split at h
  · cases h
    simp [Server.setEntry]
  · cases h

/-- The shape that `connection.c` relies on: a slot that is not active has been reset; the owner
of one that is active is an attached client, and its union is empty or was written by the setter
of its protocol. -/
structure EntryOk (cfg : Config) (e : ConnectionEntry) : Prop where
  /-- A slot that is not active has been reset. -/
  reset : e.isActive = false →
    e.clientNum = deinit ∧ e.protocol = .none ∧ e.pcb = .null ∧ e.clientData = none
  /-- The owner of an active slot is an attached client. -/
  owner : e.isActive = true → e.clientNum < cfg.nXtcp
  /-- What `set_tcp_pcb` has written is in a TCP slot. -/
  tcp : ∀ p, e.pcb = .tcp p → e.protocol = .tcp
  /-- What `set_udp_pcb` has written is in a UDP slot. -/
  udp : ∀ p, e.pcb = .udp p → e.protocol = .udp

theorem TableOk.entryOk (hT : TableOk cfg s.table) {k : ℤ} (hk : cfg.InRange k) :
    EntryOk cfg (s.connections k) := by
  have hok : SlotOk cfg (s.connections k).slot := hT.slot k hk
  refine ⟨fun hne => ?_, hok.owner, fun p hp => ?_, fun p hp => ?_⟩
  · have hrel := hok.reset hne
    exact ⟨congrArg Slot.clientNum hrel, congrArg Slot.protocol hrel, congrArg Slot.pcb hrel,
      congrArg Slot.clientData hrel⟩
  · have hfits := hok.fits
    simp only [ConnectionEntry.slot, hp] at hfits
    exact hfits
  · have hfits := hok.fits
    simp only [ConnectionEntry.slot, hp] at hfits
    exact hfits

/-- **The connection table is well formed whatever happens.**  Every slot has the right shape.
`find_client_connection` finds exactly the active slots of a client, and `get_tcp_pcb` and
`get_udp_pcb` return no control block of the other kind.  A slot that is assigned starts with an
empty union. -/
theorem connection_table_wellFormed {tr : List (Input × Reply)} (hrun : Fed cfg tr s) :
    (∀ k, cfg.InRange k → EntryOk cfg (s.connections k)) ∧
    (∀ i, i < cfg.nXtcp → ∀ id,
      ((findClientConnection cfg s i id).status = .success ↔ OwnsActive cfg s i id)) ∧
    (∀ k p, getTcpPcb cfg s k = some p → (s.connections k).pcb = .tcp p) ∧
    (∀ k p, getUdpPcb cfg s k = some p → (s.connections k).pcb = .udp p) ∧
    ∀ c protocol k, (assignClientConnection cfg s c protocol).2 = ⟨.success, k⟩ →
      ((assignClientConnection cfg s c protocol).1.connections k).pcb = .null := by
  have hT := hrun.tableOk
  refine ⟨fun k hk => hT.entryOk hk, fun i hi id => find_success_iff_active hT hi id, ?_, ?_,
    fun c protocol k h => pcb_of_assign h⟩
  · intro k p hp
    unfold getTcpPcb at hp
    split at hp
    · next hcond =>
      obtain ⟨hk, hproto⟩ := hcond
      have hudp := (hT.entryOk hk).udp
      cases hpcb : (s.connections k).pcb with
      | null => rw [hpcb] at hp; cases hp
      | tcp q => rw [hpcb] at hp; cases hp; rfl
      | udp q =>
        have := hudp q hpcb
        rw [hproto] at this
        cases this
    · cases hp
  · intro k p hp
    unfold getUdpPcb at hp
    split at hp
    · next hcond =>
      obtain ⟨hk, hproto⟩ := hcond
      have htcp := (hT.entryOk hk).tcp
      cases hpcb : (s.connections k).pcb with
      | null => rw [hpcb] at hp; cases hp
      | udp q => rw [hpcb] at hp; cases hp; rfl
      | tcp q =>
        have := htcp q hpcb
        rw [hproto] at this
        cases this
    · cases hp

/-- An error releases slot 0, and the accept that still comes for slot 0 finds no protocol there;
slot 1 keeps its UDP control block. -/
theorem connection_table_wellFormed_late_error : ∃ tr s, Fed .small tr s ∧
    (s.connections 0).isActive = false ∧ (s.connections 1).pcb = .udp 12 ∧
    EntryOk .small (s.connections 0) ∧ EntryOk .small (s.connections 1) ∧
    (findClientConnection .small s 0 0).status ≠ .success ∧
    (findClientConnection .small s 1 1).status = .success := by
  have hrun : ∃ tr s, Fed .small tr s ∧ (s.connections 0).isActive = false ∧
      (s.connections 1).pcb = .udp 12 ∧ ¬ OwnsActive .small s 0 0 ∧ OwnsActive .small s 1 1 := by
    refine Run.exists_of_replay
      [.call 0 (.socket .tcp (some 10)), .call 1 (.socket .udp (some 12)),
        .tcpEvent 0 (some 11) .err none .abrt, .tcpEvent 0 (some 13) .accept none .ok] ?_
    decide
  obtain ⟨tr, s, hrun, hact, hpcb, h0, h1⟩ := hrun
  obtain ⟨hentry, hfind, -⟩ := connection_table_wellFormed hrun
  refine ⟨tr, s, hrun, hact, hpcb, hentry 0 (by decide), hentry 1 (by decide), ?_, ?_⟩
  · rw [ne_eq, hfind 0 (by decide)]
    exact h0
  · rw [hfind 1 (by decide)]
    exact h1

/-! ### Ownership -/

/-- The slot a call is for, in the calls for which the server looks its client up. -/
def Call.target : Call → Option ℤ
  | .close id _ | .abort id _ | .listen id _ _ _ | .connect id _ _ _ => some id
  | .send id _ _ _ | .sendto id _ _ _ | .recv id _ _ | .recvfrom id _ _ => some id
  | .setConnectionClientData id _ | .getConnectionClientData id => some id
  | .getsockopt id _ _ _ | .setsockopt id _ _ _ => some id
  | .getEvent | .socket _ _ | .joinMulticastGroup _ _ | .leaveMulticastGroup _
  | .requestHostByName _ _ _ | .getIpconfigRemote _ | .getIpconfigLocal _ => none

/-- What a client is told that calls for a slot it does not own: `XTCP_EINVAL`, no data, or
nothing at all. -/
def Call.refusal : Call → Reply
  | .listen _ _ _ _ | .connect _ _ _ _ | .setsockopt _ _ _ _ => .code .einval
  | .send _ _ _ _ | .sendto _ _ _ _ => .sent ErrorCode.einval.toInt none []
  | .recv _ _ _ | .recvfrom _ _ _ => .received ErrorCode.einval.toInt [] {} 0
  | .setConnectionClientData _ _ => .int ErrorCode.einval.toInt
  | .getConnectionClientData _ => .data none
  | .getsockopt _ _ _ _ => .sockopt ⟨.einval, 0⟩ 0
  | _ => .unit

theorem find_of_ne_success {i : ℕ} {id : ℤ}
    (h : (findClientConnection cfg s i id).status ≠ .success) :
    findClientConnection cfg s i id = ⟨.einval, -1⟩ := by
  unfold findClientConnection at h ⊢
  split at h
  · exact absurd rfl h
  · rfl

/-- The check of the owner comes before anything else. -/
theorem stepCall_of_not_owned {i : ℕ} {call : Call} {id : ℤ} (htarget : call.target = some id)
    (h : (findClientConnection cfg s i id).status ≠ .success) :
    stepCall cfg s i call = .ok (s, call.refusal) := by
  have hfind := find_of_ne_success h
  cases call with
  | close k lingers | abort k lingers =>
    cases htarget
    simp only [stepCall, shimCloseSocket, if_pos h]
    rfl
  | listen k portNumber ipaddr answer =>
    cases htarget
    simp only [stepCall, shimListen, if_pos h]
    rw [hfind]
    rfl
  | connect k portNumber ipaddr answer =>
    cases htarget
    simp only [stepCall, if_pos h]
    rw [hfind]
    rfl
  | send k buffer timed answer =>
    cases htarget
    simp only [stepCall, sendCommon, if_pos h]
    rw [hfind]
    rfl
  | sendto k buffer timed answer =>
    cases htarget
    simp only [stepCall, sendtoCommon, if_pos h]
    rw [hfind]
    rfl
  | recv k length timed =>
    cases htarget
    simp only [stepCall, recvCommon, if_pos h]
    rw [hfind]
    rfl
  | recvfrom k length timed =>
    cases htarget
    simp only [stepCall, recvfromCommon, if_pos h]
    rw [hfind]
    rfl
  | setConnectionClientData k data =>
    cases htarget
    simp only [stepCall, if_pos h]
    rw [hfind]
    rfl
  | getConnectionClientData k =>
    cases htarget
    simp only [stepCall, if_pos h]
    rfl
  | getsockopt k level option length =>
    cases htarget
    simp only [stepCall, shimGetsockopt, if_pos h]
    rw [hfind]
    rfl
  | setsockopt k level option value =>
    cases htarget
    simp only [stepCall, shimSetsockopt, if_pos h]
    rw [hfind]
    rfl
  | _ => cases htarget

/-- **A call for a slot that is not an active slot of the caller** reports an error, or nothing
where there is nothing to report, and leaves the whole state as it was. -/
theorem call_refused {tr : List (Input × Reply)} (hrun : Fed cfg tr s) {i : ℕ}
    (hi : i < cfg.nXtcp) {id : ℤ} (hown : ¬ OwnsActive cfg s i id) {call : Call}
    (htarget : call.target = some id) :
    feed cfg s (.call i call) = .ok (s, call.refusal) := by
  apply stepCall_of_not_owned htarget
  intro hfind
  exact hown ((find_success_iff_active hrun.tableOk hi id).mp hfind)

/-- Client 1 sends on the socket of client 0, and client 0 on a slot that has been released. -/
theorem call_refused_other_client : ∃ tr s, Fed .small tr s ∧
    feed .small s (.call 1 (.send 0 [1, 2] true ⟨some 50, .ok, .ok, .ok, 7, false⟩))
      = .ok (s, .sent (-1) none []) ∧
    feed .small s (.call 0 (.send 1 [1, 2] true ⟨some 50, .ok, .ok, .ok, 7, false⟩))
      = .ok (s, .sent (-1) none []) ∧
    feed .small s (.call 0 (.close (-1) true)) = .ok (s, .unit) := by
  have hrun : ∃ tr s, Fed .small tr s ∧ ¬ OwnsActive .small s 1 0 ∧
      ¬ OwnsActive .small s 0 1 ∧ ¬ OwnsActive .small s 0 (-1) := by
    refine Run.exists_of_replay
      [.call 0 (.socket .tcp (some 10)), .call 0 (.socket .udp (some 12)),
        .tcpEvent 1 (some 11) .err none .abrt] ?_
    decide
  obtain ⟨tr, s, hrun, h0, h1, h2⟩ := hrun
  exact ⟨tr, s, hrun, call_refused hrun (by decide) h0 rfl, call_refused hrun (by decide) h1 rfl,
    call_refused hrun (by decide) h2 rfl⟩

end Xtcp
