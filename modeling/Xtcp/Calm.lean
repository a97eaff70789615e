import Xtcp.Slots

/-!
# What a step leaves alone

Three things are each written by a few steps only: the state of the link that the server has
announced, the multicast groups with the address filter of the MAC, and the lengths that
`tcp_recved` has been told for each control block.

`Calm A s s'` says that none of them has changed between `s` and `s'`, where control blocks in `A`
are not looked at; a control block may also have ended.  Every step is calm, apart from what
`aside` says about the link and the groups, and apart from the control blocks that the action
works on.

## Main definitions

* `announcement`, `aside` — what a step does to the link state, to the groups and to the filter.
* `Action.pcbs` — the control blocks a step makes, or tells about received data.
* `Calm` — nothing else has changed.

## Main results

* `calm_step` — **every step is calm** apart from that.
-/

namespace Xtcp

open Runs

variable {cfg : Config} {A : Set Ptr} {s s' s'' : Server}

/-- Nothing has changed in the state of the link, in the groups and in the filter; and what
`tcp_recved` has been told for a control block outside `A` is the same, unless it has ended. -/
structure Calm (A : Set Ptr) (s s' : Server) : Prop where
  /-- `netif_notify_state` is the same. -/
  netif : s'.netifNotifyState = s.netifNotifyState
  /-- The groups are the same. -/
  joins : s'.igmpJoins = s.igmpJoins
  /-- The filter is the same. -/
  macFilter : s'.macFilter = s.macFilter
  /-- The control blocks outside `A` have been told nothing, or have ended. -/
  recved : ∀ p, p ∉ A →
    (s'.tcp p).map TcpPcb.recved = (s.tcp p).map TcpPcb.recved ∨ s'.tcp p = none

namespace Calm

theorem trans (h : Calm A s s') (h' : Calm A s' s'') : Calm A s s'' := by
  refine ⟨h'.netif.trans h.netif, h'.joins.trans h.joins, h'.macFilter.trans h.macFilter,
    fun p hp => ?_⟩
  rcases h'.recved p hp with h₂ | h₂
  · rcases h.recved p hp with h₁ | h₁
    · exact .inl (h₂.trans h₁)
    · rw [h₁, Option.map_none, Option.map_eq_none_iff] at h₂
      exact .inr h₂
  · exact .inr h₂

/-- The control blocks are the same. -/
theorem of_eq (htcp : s'.tcp = s.tcp) (hnetif : s'.netifNotifyState = s.netifNotifyState)
    (hjoins : s'.igmpJoins = s.igmpJoins) (hfilter : s'.macFilter = s.macFilter) :
    Calm A s s' :=
  ⟨hnetif, hjoins, hfilter, fun p _ => .inl (by rw [htcp])⟩

theorem refl (s : Server) : Calm A s s := .of_eq rfl rfl rfl rfl

/-! ### Control blocks -/

/-- Writing other fields of a control block. -/
theorem modifyTcp (s : Server) (q : Ptr) {f : TcpPcb → TcpPcb} (hf : ∀ b, (f b).recved = b.recved) :
    Calm A s (s.modifyTcp q f) := by
  refine ⟨rfl, rfl, rfl, fun p _ => .inl ?_⟩
  simp only [Server.modifyTcp, Function.update_apply]
  split
  · next hp =>
    subst hp
    rw [Option.map_map]
    congr 1
    funext b
    exact hf b
  · rfl

theorem modifyUdp (s : Server) (q : Ptr) (f : UdpPcb → UdpPcb) : Calm A s (s.modifyUdp q f) :=
  .of_eq rfl rfl rfl rfl

/-- `tcp_recved` on a control block that is not looked at. -/
theorem tcpRecved (s : Server) (q : Ptr) (n : ℕ) (hq : q ∈ A) : Calm A s (tcpRecved s q n) := by
  refine ⟨rfl, rfl, rfl, fun p hp => .inl ?_⟩
  have hpq : p ≠ q := fun hpq => hp (hpq ▸ hq)
  simp [Xtcp.tcpRecved, Server.modifyTcp, hpq]

/-- A control block is made, or its block is taken over, at an address that is not looked at. -/
theorem update_mem (s : Server) (q : Ptr) (b : Option TcpPcb) (hq : q ∈ A) :
    Calm A s { s with tcp := Function.update s.tcp q b } := by
  refine ⟨rfl, rfl, rfl, fun p hp => .inl ?_⟩
  have hpq : p ≠ q := fun hpq => hp (hpq ▸ hq)
  simp [hpq]

/-- A control block has ended. -/
theorem update_none (s : Server) (q : Ptr) :
    Calm A s { s with tcp := Function.update s.tcp q none } := by
  refine ⟨rfl, rfl, rfl, fun p _ => ?_⟩
  by_cases hpq : p = q
  · subst hpq
    exact .inr (Function.update_self _ _ _)
  · exact .inl (by simp [hpq])

theorem tcpClose (s : Server) (q : Ptr) (id : ℤ) (lingers : Bool) :
    Calm A s (tcpClose s q id lingers) := by
  refine ⟨rfl, rfl, rfl, fun p _ => ?_⟩
  by_cases hpq : p = q
  · subst hpq
    simp only [Xtcp.tcpClose, Function.update_self]
    cases hp : s.tcp p with
    | none => exact .inr rfl
    | some b =>
      rw [Option.bind_some]
      split
      · exact .inl rfl
      · exact .inr rfl
  · exact .inl (by simp [Xtcp.tcpClose, hpq])

theorem tcpListen (s : Server) (q l : Ptr) (hl : l ∈ A) : Calm A s (tcpListen s q l) :=
  (update_none s q).trans (update_mem _ l _ hl)

theorem tcpBind (s : Server) (q : Ptr) (host : Host) (answer : Err) :
    Calm A s (tcpBind s q host answer) := by
  unfold Xtcp.tcpBind
  split
  · exact modifyTcp s q fun _ => rfl
  · exact refl s

theorem tcpConnect (s : Server) (q : Ptr) (host : Host) (answer : Err) :
    Calm A s (tcpConnect s q host answer) := by
  unfold Xtcp.tcpConnect
  split
  · exact modifyTcp s q fun _ => rfl
  · exact refl s

theorem tcpWrite (s : Server) (q : Ptr) (bytes : List UInt8) (answer : Err) :
    Calm A s (tcpWrite s q bytes answer) := by
  unfold Xtcp.tcpWrite
  split
  · exact modifyTcp s q fun _ => rfl
  · exact refl s

theorem udpBind (s : Server) (q : Ptr) (host : Host) (answer : Err) :
    Calm A s (udpBind s q host answer) := by
  unfold Xtcp.udpBind
  split
  · exact modifyUdp s q _
  · exact refl s

theorem udpConnect (s : Server) (q : Ptr) (host : Host) (answer : Err) :
    Calm A s (udpConnect s q host answer) := by
  unfold Xtcp.udpConnect
  split
  · exact modifyUdp s q _
  · exact refl s

/-! ### Slots -/

theorem assign (s : Server) (c : ℕ) (protocol : Protocol) :
    Calm A s (assignClientConnection cfg s c protocol).1 := by
  unfold assignClientConnection
  split
  · exact .of_eq rfl rfl rfl rfl
  · exact refl s

theorem setTcpPcb (s : Server) (k : ℤ) (p : Option Ptr) : Calm A s (setTcpPcb cfg s k p).1 := by
  unfold Xtcp.setTcpPcb
  split
  · exact .of_eq rfl rfl rfl rfl
  · exact refl s

theorem setUdpPcb (s : Server) (k : ℤ) (p : Option Ptr) : Calm A s (setUdpPcb cfg s k p).1 := by
  unfold Xtcp.setUdpPcb
  split
  · exact .of_eq rfl rfl rfl rfl
  · exact refl s

theorem freeClientConnection (s : Server) (k : ℤ) : Calm A s (freeClientConnection cfg s k) := by
  unfold Xtcp.freeClientConnection
  split
  · exact .of_eq rfl rfl rfl rfl
  · exact refl s

theorem closePcb (s : Server) (k : ℤ) (lingers : Bool) : Calm A s (closePcb cfg s k lingers) := by
  unfold Xtcp.closePcb
  split
  · split
    · exact .of_eq rfl rfl rfl rfl
    · exact refl s
  · split
    · exact tcpClose s _ k lingers
    · exact refl s
  · exact refl s

/-- `shim_new_socket` makes the control block that lwIP has found. -/
theorem shimNewSocket (s : Server) (i : ℕ) (protocol : Protocol) {answer : Option Ptr}
    (hA : ∀ q, answer = some q → q ∈ A) : Calm A s (shimNewSocket cfg s i protocol answer).1 := by
  have hassign : Calm A s (assignClientConnection cfg s i protocol).1 := assign s i protocol
  unfold Xtcp.shimNewSocket
  dsimp only
  split
  · exact hassign
  · split
    · exact hassign
    · next q _ =>
      have hnew : Calm A s (udpNewIpType (assignClientConnection cfg s i .udp).1 q) :=
        hassign.trans (.of_eq rfl rfl rfl rfl)
      split
      · exact (hnew.trans (setUdpPcb _ _ _)).trans (.of_eq rfl rfl rfl rfl)
      · exact hnew.trans (setUdpPcb _ _ _)
    · exact hassign
    · next q _ =>
      have hnew : Calm A s (tcpNewIpType (assignClientConnection cfg s i .tcp).1 q) :=
        hassign.trans (update_mem _ q (some {}) (hA q rfl))
      split
      · exact (hnew.trans (setTcpPcb _ _ _)).trans (tcpClose _ _ _ _)
      · exact hnew.trans (setTcpPcb _ _ _)
    · exact hassign

/-- `shim_listen` makes the listening control block that lwIP has found. -/
theorem shimListen (s : Server) (i : ℕ) (k : ℤ) (portNumber : UInt16) (ipaddr : IpAddr)
    {answer : ListenAnswer} (hA : ∀ l, answer.listen = some l → l ∈ A) :
    Calm A s (shimListen cfg s i k portNumber ipaddr answer).1 := by
  unfold Xtcp.shimListen
  dsimp only
  split
  · exact refl s
  · split
    · split
      · exact refl s
      · next p _ =>
        have hbind := tcpBind (A := A) s p ⟨ipaddr, portNumber⟩ answer.bind
        split
        · split
          · exact hbind
          · next l hl =>
            have hlisten := hbind.trans (tcpListen _ p l (hA l hl))
            exact (hlisten.trans (setTcpPcb _ k (some l))).trans (modifyTcp _ l fun _ => rfl)
        · split <;> exact hbind
    · split
      · exact refl s
      · next p _ =>
        have hbind := udpBind (A := A) s p ⟨ipaddr, portNumber⟩ answer.bind
        split
        · exact hbind.trans (modifyUdp _ _ _)
        · exact hbind
    · exact refl s

theorem shimConnect (s : Server) (i : ℕ) (k : ℤ) (portNumber : UInt16) (ipaddr : IpAddr)
    (answer : Err) : Calm A s (shimConnect cfg s i k portNumber ipaddr answer).1 := by
  unfold Xtcp.shimConnect
  dsimp only
  split
  · exact refl s
  · split
    · split
      · exact refl s
      · split <;> exact tcpConnect _ _ _ _
    · split
      · exact refl s
      · next p _ =>
        have hconnect := udpConnect (A := A) s p ⟨ipaddr, portNumber⟩ answer
        split
        · exact hconnect.trans (modifyUdp _ _ _)
        · exact hconnect
    · exact refl s

theorem shimAccept (s : Server) (c : ℕ) (n : Option Ptr) (k : ℤ) :
    Calm A s (shimAccept cfg s c n k).1 := by
  unfold Xtcp.shimAccept
  split
  · exact refl s
  · split
    · exact refl s
    · next q =>
      have hassign : Calm A s (assignClientConnection cfg s c .tcp).1 := assign s c .tcp
      dsimp only
      split
      · exact hassign
      · exact (hassign.trans (setTcpPcb _ _ _)).trans (modifyTcp _ q fun _ => rfl)
  · exact refl s

/-! ### Received data -/

theorem setRemote {k : ℤ} {remote : Option IpAddr} {port : UInt16} {p : Option Ptr}
    {e : ErrorCode} (h : setRemote cfg s k remote port p = .ok (s', e)) : Calm A s s' := by
  unfold Xtcp.setRemote at h
  split at h
  · split at h
    · cases h; exact refl s
    · obtain ⟨b, -, h⟩ := bind_eq_ok.mp h
      dsimp only at h
      split at h
      · obtain ⟨last, -, h⟩ := bind_eq_ok.mp h
        obtain ⟨lb, -, h⟩ := bind_eq_ok.mp h
        cases h; exact .of_eq rfl rfl rfl rfl
      · cases h; exact .of_eq rfl rfl rfl rfl
  · cases h; exact refl s

theorem unlinkRemote {k : ℤ} {p : Option Ptr} {e : ErrorCode}
    (h : unlinkRemote cfg s k p = .ok (s', e)) : Calm A s s' := by
  unfold Xtcp.unlinkRemote at h
  split at h
  · cases h; exact refl s
  · split at h
    · obtain ⟨found, -, h⟩ := bind_eq_ok.mp h
      split at h
      · cases h; exact refl s
      · obtain ⟨b, -, h⟩ := bind_eq_ok.mp h
        split at h
        · cases h; exact .of_eq rfl rfl rfl rfl
        · obtain ⟨rb, -, h⟩ := bind_eq_ok.mp h
          cases h; exact .of_eq rfl rfl rfl rfl
    · cases h; exact refl s

/-- lwIP is told about received data. -/
theorem consumed {k : ℤ} (hA : ∀ q, (s.connections k).pcb.addr = some q → q ∈ A) (n : ℕ) :
    Calm A s (s.consumed k n) := by
  unfold Server.consumed
  split
  · next q hq =>
    rw [Option.ite_none_right_eq_some] at hq
    exact tcpRecved s q n (hA q hq.2)
  · exact refl s

/-- `free_remote_data` tells the control block of the slot. -/
theorem freeRemoteData {k : ℤ} {e : ErrorCode} (h : freeRemoteData cfg s k = .ok (s', e))
    (hA : ∀ q, (s.connections k).pcb.addr = some q → q ∈ A) : Calm A s s' := by
  obtain rfl | ⟨p, b, m, -, -, -, rfl⟩ := freeRemoteData_cases h
  · exact refl _
  · have hfree : Calm A s { s.setEntry k { s.connections k with pbuf := b.next } with
        pbufs := m } := .of_eq rfl rfl rfl rfl
    refine hfree.trans (consumed (fun q hq => hA q ?_) b.len)
    simpa [Server.setEntry] using hq

theorem clearPending {k : ℤ} (h : clearPendingRxDataOnConnection cfg s k = .ok s')
    (hA : ∀ q, (s.connections k).pcb.addr = some q → q ∈ A) : Calm A s s' := by
  by_cases hk : cfg.InRange k
  · obtain ⟨-, rfl⟩ | ⟨p, b, m, -, -, -, rfl⟩ := clearPending_cases hk h
    · exact refl _
    · exact (consumed hA b.totLen).trans (.of_eq rfl rfl rfl rfl)
  · simp only [clearPendingRxDataOnConnection, if_neg hk] at h
    cases h
    exact refl s

theorem receive {k : ℤ} {length : UInt32} {timed : Bool} {remote : Host} {r : Reply}
    (h : receive cfg s k length timed remote = .ok (s', r))
    (hA : ∀ q, (s.connections k).pcb.addr = some q → q ∈ A) : Calm A s s' := by
  obtain ⟨copy, -, h⟩ := bind_eq_ok.mp h
  obtain ⟨⟨t, e⟩, ht, h⟩ := bind_eq_ok.mp h
  cases h
  exact freeRemoteData ht hA

theorem close {i : ℕ} {k : ℤ} {lingers : Bool} (h : shimCloseSocket cfg s i k lingers = .ok s')
    (hA : ∀ q, (s.connections k).pcb.addr = some q → q ∈ A) : Calm A s s' := by
  obtain rfl | ⟨-, t, ht, rfl⟩ := shimCloseSocket_cases h
  · exact refl _
  · have hqueue : Calm A s { s with queue := (freeNotificationsOnQueue cfg s.queue i k).1 } :=
      .of_eq rfl rfl rfl rfl
    have hclear : Calm A s t := hqueue.trans (clearPending ht hA)
    exact (hclear.trans (closePcb t k lingers)).trans (freeClientConnection _ k)

/-! ### Transmission and options -/

theorem freeSent {p : Ptr} {e : ErrorCode} {reads : List PbufRead} {sent : Sent}
    (h : freeSent s p e reads = .ok sent) : Calm A s sent.server := by
  obtain ⟨m, -, h⟩ := bind_eq_ok.mp h
  cases h
  exact .of_eq rfl rfl rfl rfl

theorem sendUdp {k : ℤ} {p : Ptr} {answer : SendAnswer} {sent : Sent}
    (h : sendUdp cfg s k p answer = .ok sent) : Calm A s sent.server := by
  unfold Xtcp.sendUdp at h
  split at h
  · exact freeSent h
  · have hsend : Calm A s (udpSend s p answer.timestamp answer.keeps) := .of_eq rfl rfl rfl rfl
    exact hsend.trans (freeSent h)

theorem sendTcp {k : ℤ} {p : Ptr} {answer : SendAnswer} {sent : Sent}
    (h : sendTcp cfg s k p answer = .ok sent) : Calm A s sent.server := by
  unfold Xtcp.sendTcp at h
  split at h
  · exact freeSent h
  · obtain ⟨b, -, h⟩ := bind_eq_ok.mp h
    exact (tcpWrite s _ _ _).trans (freeSent h)

theorem shimSend {i : ℕ} {k : ℤ} {p : Option Ptr} {answer : SendAnswer} {sent : Sent}
    (h : shimSend cfg s i k p answer = .ok sent) : Calm A s sent.server := by
  unfold Xtcp.shimSend at h
  split at h
  · cases h; exact refl s
  · dsimp only at h
    split at h
    · cases h; exact refl s
    · split at h
      · exact sendUdp h
      · exact sendTcp h
      · cases h; exact refl s

theorem shimSendto {i : ℕ} {k : ℤ} {p : Option Ptr} {answer : SendAnswer} {sent : Sent}
    (h : shimSendto cfg s i k p answer = .ok sent) : Calm A s sent.server := by
  unfold Xtcp.shimSendto at h
  split at h
  · cases h; exact refl s
  · dsimp only at h
    split at h
    · cases h; exact refl s
    · split at h
      · exact sendUdp h
      · cases h; exact refl s
      · cases h; exact refl s

theorem transmit {buffer : List UInt8} {timed : Bool} {answer : SendAnswer}
    {send : Server → Ptr → Except Fault Sent} {r : Reply}
    (hsend : ∀ {t p sent}, send t p = .ok sent → Calm A t sent.server)
    (h : transmit cfg s buffer timed answer send = .ok (s', r)) : Calm A s s' := by
  obtain ⟨m, hm⟩ := transmit_returned h
  have hwrite : Calm A s { s with pbufs := m } := .of_eq rfl rfl rfl rfl
  obtain rfl | ⟨token, sent, hsent, rfl⟩ := hm
  · exact hwrite
  · exact hwrite.trans (hsend hsent)

theorem shimSetsockopt {i : ℕ} {k : ℤ} {level : SocketLevel} {option : ℕ} {value : List UInt8}
    {e : ErrorCode} (h : shimSetsockopt cfg s i k level option value = .ok (s', e)) :
    Calm A s s' := by
  obtain ⟨e', h'⟩ | h' | ⟨o, v, p, h' | h'⟩ := shimSetsockopt_cases cfg s i k level option value
  · cases h'.symm.trans h
    exact refl s
  · cases h'.symm.trans h
  · cases h'.symm.trans h
    exact modifyUdp s _ _
  · cases h'.symm.trans h
    refine modifyTcp s _ fun b => ?_
    cases o <;> rfl

/-! ### Callbacks -/

theorem enqueue (s : Server) (c : ℕ) (id : ℤ) (e : EventType) :
    Calm A s (enqueue cfg s c id e).1 := .of_eq rfl rfl rfl rfl

theorem eventAccept (s : Server) (arg : ℤ) (c : ℕ) (n : Option Ptr) (err : Err) :
    Calm A s (eventAccept cfg s arg c n err).1 := by
  unfold Xtcp.eventAccept
  split
  · exact refl s
  · next n =>
    have hprio : Calm A s (tcpSetprio s n tcpPrioMin) := modifyTcp s n fun _ => rfl
    have haccept : Calm A s (Xtcp.shimAccept cfg (tcpSetprio s n tcpPrioMin) c n arg).1 :=
      hprio.trans (shimAccept _ c n arg)
    dsimp only
    split
    · exact refl s
    · split
      · exact haccept
      · exact haccept.trans (enqueue _ _ _ _)

theorem eventRecv {k : ℤ} {c : ℕ} {p : Option Ptr} {e : Err}
    (h : eventRecv cfg s k c p = .ok (s', e)) : Calm A s s' := by
  unfold Xtcp.eventRecv at h
  split at h
  · cases h; exact enqueue s _ _ _
  · obtain ⟨⟨t, e'⟩, ht, h⟩ := bind_eq_ok.mp h
    have hqueued : Calm A s (Xtcp.enqueue cfg t c k .recvData).1 :=
      (setRemote ht).trans (enqueue t c k .recvData)
    dsimp only at h
    split at h
    · obtain ⟨⟨u, e''⟩, hu, h⟩ := bind_eq_ok.mp h
      cases h
      exact hqueued.trans (unlinkRemote hu)
    · cases h; exact hqueued

theorem eventErr (s : Server) (arg : ℤ) (c : ℕ) (err : Err) :
    Calm A s (eventErr cfg s arg c err).1 := by
  unfold Xtcp.eventErr
  dsimp only
  refine .trans ?_ (freeClientConnection _ arg)
  split
  · exact enqueue s _ _ _
  · exact refl s

theorem lwipTcpEvent {arg : ℤ} {pcb : Option Ptr} {e : LwipEvent} {p : Option Ptr} {err r : Err}
    (h : lwipTcpEvent cfg s arg pcb e p err = .ok (s', r)) : Calm A s s' := by
  unfold Xtcp.lwipTcpEvent at h
  split at h
  · cases e with
    | accept =>
      have hs : (Xtcp.eventAccept cfg s arg (getClientInfo cfg s arg) pcb err).1 = s' :=
        congrArg Prod.fst (Except.ok.inj h)
      rw [← hs]
      exact eventAccept s arg _ pcb err
    | connected | sent => cases h; exact enqueue s _ _ _
    | recv => exact eventRecv h
    | err =>
      have hs : (Xtcp.eventErr cfg s arg (getClientInfo cfg s arg) err).1 = s' :=
        congrArg Prod.fst (Except.ok.inj h)
      rw [← hs]
      exact eventErr s arg _ err
    | poll => cases h; exact refl s
  · cases h; exact refl s

theorem stepTcp {p : Ptr} {arg : ℤ} {callback : TcpCallback} {r : Reply}
    (h : stepTcp cfg s p arg callback = .ok (s', r)) : Calm A s s' := by
  cases callback with
  | accept =>
    obtain ⟨⟨t, e⟩, ht, h⟩ := bind_eq_ok.mp h
    have hactive : Calm A s (s.modifyTcp p fun b => { b with status := .active }) :=
      modifyTcp s p fun _ => rfl
    have haccept := hactive.trans (lwipTcpEvent ht)
    dsimp only at h
    split at h
    · cases h; exact haccept
    · obtain ⟨u, hu, h⟩ := bind_eq_ok.mp h
      cases h
      unfold abortAccepted at hu
      split at hu
      · cases hu; exact haccept
      · obtain ⟨⟨v, e'⟩, hv, hu⟩ := bind_eq_ok.mp hu
        cases hu
        exact (haccept.trans (update_none t p)).trans (lwipTcpEvent hv)
  | recv cells =>
    obtain ⟨⟨t, e⟩, ht, h⟩ := bind_eq_ok.mp h
    have hdeliver : Calm A s { s with pbufs := deliver s.pbufs cells } := .of_eq rfl rfl rfl rfl
    have hrecv : Calm A s t := hdeliver.trans (lwipTcpEvent ht)
    dsimp only at h
    split at h
    · cases h; exact hrecv
    · cases h; exact hrecv.trans (.of_eq rfl rfl rfl rfl)
  | err err =>
    obtain ⟨⟨t, e⟩, ht, h⟩ := bind_eq_ok.mp h
    cases h
    exact (update_none s p).trans (lwipTcpEvent ht)
  | acceptFailed | connected | sent | poll =>
    obtain ⟨⟨t, e⟩, ht, h⟩ := bind_eq_ok.mp h
    cases h
    exact lwipTcpEvent ht

theorem xtcpUdpRecv {k : ℤ} {pcb : Ptr} {p : Option Ptr} {addr : Option IpAddr} {port : UInt16}
    (h : xtcpUdpRecv cfg s k pcb p addr port = .ok s') : Calm A s s' := by
  unfold Xtcp.xtcpUdpRecv at h
  split at h
  · cases h; exact refl s
  · split at h
    · obtain ⟨⟨t, e⟩, ht, h⟩ := bind_eq_ok.mp h
      have hqueued : Calm A s
          (Xtcp.enqueue cfg t (getClientInfo cfg t k) k (udpRecvEvent t pcb)).1 :=
        (setRemote ht).trans (enqueue t (getClientInfo cfg t k) k (udpRecvEvent t pcb))
      dsimp only at h
      split at h
      · obtain ⟨m, -, h⟩ := bind_eq_ok.mp h
        cases h
        exact hqueued.trans (.of_eq rfl rfl rfl rfl)
      · cases h; exact hqueued
    · cases h; exact refl s

theorem notifyAll (s : Server) (e : EventType) : Calm A s (notifyAll cfg s e) := by
  unfold Xtcp.notifyAll
  induction List.range cfg.nXtcp generalizing s with
  | nil => exact refl s
  | cons i l ih => exact (enqueue s i 0 e).trans (ih _)

end Calm

/-! ### Steps -/

/-- The link event that a step announces to the clients. -/
def announcement (s : Server) : Action → Option EventType
  | .happens (.linkStatus false) => some .ifdown
  | .happens (.timeout timer hasIpAddress ifState) =>
    if timer = 0 ∧ hasIpAddress ∧ s.netifNotifyState = false ∧ ifState then some .ifup else none
  | _ => none

/-- What a step does to the link state, to the groups and to the filter. -/
def aside (cfg : Config) (s : Server) (a : Action) : Server :=
  match a with
  | .call _ (.joinMulticastGroup addr answer) =>
    setMacaddrFilter cfg (shimJoinMulticastGroup s addr answer).1 (ipv4MulticastToMac addr) true
  | .call _ (.leaveMulticastGroup addr) =>
    setMacaddrFilter cfg (shimLeaveMulticastGroup s addr).1 (ipv4MulticastToMac addr) false
  | _ =>
    match announcement s a with
    | some event => { s with netifNotifyState := decide (event = .ifup) }
    | none => s

/-- The control blocks that an action makes, or may tell about received data. -/
def Action.pcbs (s : Server) : Action → Set Ptr
  | .call _ (.socket _ answer) => {q | answer = some q}
  | .call _ (.listen _ _ _ answer) => {q | answer.listen = some q}
  | .call _ (.close k _) | .call _ (.abort k _) | .call _ (.recv k _ _)
  | .call _ (.recvfrom k _ _) => {q | (s.connections k).pcb.addr = some q}
  | .happens (.syn _ n) => {n}
  | _ => ∅

/-- **Every step is calm**, apart from what it does to the link state, to the groups and to the
filter, and apart from the control blocks it works on. -/
theorem calm_step {a : Action} {r : Reply} (h : step cfg s a = .ok (s', r)) :
    Calm (a.pcbs s) (aside cfg s a) s' := by
  cases a with
  | call i call =>
    have h : stepCall cfg s i call = .ok (s', r) := h
    cases call with
    | getEvent => cases h; exact .of_eq rfl rfl rfl rfl
    | socket protocol answer => cases h; exact .shimNewSocket s i protocol fun q hq => hq
    | close k lingers | abort k lingers =>
      obtain ⟨t, ht, h⟩ := bind_eq_ok.mp h
      cases h
      exact .close ht fun q hq => hq
    | listen k portNumber ipaddr answer =>
      cases h; exact .shimListen s i k portNumber ipaddr fun l hl => hl
    | connect k portNumber ipaddr answer =>
      simp only [stepCall] at h
      split at h
      · cases h; exact .refl s
      · cases h; exact .shimConnect s i k portNumber ipaddr answer
    | send k buffer timed answer =>
      have h : sendCommon cfg s i k buffer timed answer = .ok (s', r) := h
      unfold sendCommon at h
      dsimp only at h
      split at h
      · cases h; exact .refl s
      · exact .transmit Calm.shimSend h
    | sendto k buffer timed answer =>
      have h : sendtoCommon cfg s i k buffer timed answer = .ok (s', r) := h
      unfold sendtoCommon at h
      dsimp only at h
      split at h
      · cases h; exact .refl s
      · split at h
        · cases h; exact .refl s
        · exact .transmit Calm.shimSendto h
    | recv k length timed =>
      have h : recvCommon cfg s i k length timed = .ok (s', r) := h
      unfold recvCommon at h
      dsimp only at h
      split at h
      · cases h; exact .refl s
      · exact .receive h fun q hq => hq
    | recvfrom k length timed =>
      have h : recvfromCommon cfg s i k length timed = .ok (s', r) := h
      unfold recvfromCommon at h
      dsimp only at h
      split at h
      · cases h; exact .refl s
      · split at h
        · cases h; exact .refl s
        · obtain ⟨remote, -, h⟩ := bind_eq_ok.mp h
          exact .receive h fun q hq => hq
    | setConnectionClientData k data =>
      simp only [stepCall] at h
      split at h
      · cases h; exact .refl s
      · cases h
        unfold setConnectionClientData
        split
        · exact .of_eq rfl rfl rfl rfl
        · exact .refl s
    | getConnectionClientData k =>
      simp only [stepCall] at h
      split at h <;> cases h <;> exact .refl s
    | joinMulticastGroup addr answer | leaveMulticastGroup addr => cases h; exact .refl _
    | requestHostByName hasGateway answer ipaddr =>
      simp only [stepCall, shimRequestHostByName] at h
      split at h
      · split at h
        · cases h; exact .refl s
        · split at h <;> cases h <;> exact .of_eq rfl rfl rfl rfl
      · cases h; exact .refl s
    | getIpconfigRemote k | getIpconfigLocal k => cases h; exact .refl s
    | getsockopt k level option length =>
      obtain ⟨⟨status, value⟩, -, h⟩ := bind_eq_ok.mp h
      cases h; exact .refl s
    | setsockopt k level option value =>
      obtain ⟨⟨t, e⟩, ht, h⟩ := bind_eq_ok.mp h
      cases h
      exact .shimSetsockopt ht
  | happens happening =>
    have h : stepHappening cfg s happening = .ok (s', r) := h
    cases happening with
    | syn l n => cases h; exact .update_mem s n _ rfl
    | tcpEvent p arg callback => exact .stepTcp h
    | udpRecv p arg cells addr port =>
      obtain ⟨t, ht, h⟩ := bind_eq_ok.mp h
      cases h
      have hdeliver : Calm ∅ s { s with pbufs := deliver s.pbufs cells } :=
        .of_eq rfl rfl rfl rfl
      exact hdeliver.trans (.xtcpUdpRecv ht)
    | dnsFound hasName ipaddr arg => cases h; exact .of_eq rfl rfl rfl rfl
    | reap p => cases h; exact .update_none s p
    | dropRefused p =>
      obtain ⟨m, -, h⟩ := bind_eq_ok.mp h
      cases h; exact .of_eq rfl rfl rfl rfl
    | linkStatus up =>
      cases up with
      | true => cases h; exact .refl s
      | false => cases h; exact .notifyAll _ _
    | timeout timer hasIpAddress ifState =>
      simp only [stepHappening] at h
      split at h
      · next hcond =>
        cases h
        have haside : aside cfg s (.happens (.timeout timer hasIpAddress ifState))
            = { s with netifNotifyState := true } := by
          simp only [aside, announcement, if_pos hcond]
          rfl
        rw [haside]
        exact .notifyAll _ _
      · next hcond =>
        cases h
        have haside : aside cfg s (.happens (.timeout timer hasIpAddress ifState)) = s := by
          simp only [aside, announcement, if_neg hcond]
        rw [haside]
        exact .refl _

/-- The link state after a step. -/
theorem netif_step {a : Action} {r : Reply} (h : step cfg s a = .ok (s', r)) :
    s'.netifNotifyState = match announcement s a with
      | some event => decide (event = .ifup)
      | none => s.netifNotifyState := by
  rw [(calm_step h).netif]
  unfold aside
  split
  · simp only [announcement, setMacaddrFilter, shimJoinMulticastGroup]
    split <;> split <;> rfl
  · simp only [announcement, setMacaddrFilter, shimLeaveMulticastGroup]
    split <;> split <;> rfl
  · split <;> rfl

/-- A step leaves the control blocks to lwIP when it works on the link, the groups and the
filter. -/
theorem tcp_aside (s : Server) (a : Action) : (aside cfg s a).tcp = s.tcp := by
  unfold aside
  split
  · simp only [setMacaddrFilter, shimJoinMulticastGroup]
    split <;> split <;> rfl
  · simp only [setMacaddrFilter, shimLeaveMulticastGroup]
    split <;> split <;> rfl
  · split <;> rfl

end Xtcp
