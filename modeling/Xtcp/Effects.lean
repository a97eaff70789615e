import Xtcp.Slots

/-!
# What a step asks of lwIP

Seen from lwIP, a step of the server is a sequence of small things: control blocks are made, given
fields and ended, bytes are queued on one of them, a callback is registered on another, a DNS
request is taken on, one is answered.  Everything else that the server writes is its own.

`Effects L s s'` says that `s'` comes from `s` by such things, where `L` says which control blocks
may be made, what may be queued, what may be registered and which requests may come and go.  Every
step of the server is made of effects that its action stands for; so whatever lwIP has that no such
effect touches is as it was.

## Main definitions

* `Effect`, `Does`, `Effects` — the effects, one of them, and a sequence.
* `Action.asks` — the effects that an action stands for.

## Main results

* `effects_step` — **every step is made of the effects that its action stands for**.
* `Effects.written`, `Effects.recvArg`, `Effects.dnsRequests` — what no effect touches is as it
  was.
-/

namespace Xtcp

open Runs

variable {cfg : Config} {s s' s'' : Server}

/-- What is asked of lwIP, apart from what ends a control block or writes its other fields. -/
inductive Effect
  /-- A TCP control block is put at `p`. -/
  | make (p : Ptr)
  /-- Bytes are queued on the TCP control block at `p`. -/
  | write (p : Ptr) (bytes : List UInt8)
  /-- The UDP control block at `p` is made or ended, or fields of it are written that have nothing
  to do with its callback. -/
  | udp (p : Ptr)
  /-- `xtcp_udp_recv` is registered on the UDP control block at `p`, with the argument `k`. -/
  | register (p : Ptr) (k : ℤ)
  /-- A DNS request of client `c` is taken on. -/
  | request (c : ℕ)
  /-- A DNS request of client `c` is answered. -/
  | answer (c : ℕ)

/-- One effect, where `L` are those that may happen. -/
inductive Does (L : Effect → Prop) (s : Server) : Server → Prop
  /-- The server writes its own state. -/
  | own {s' : Server} : s'.tcp = s.tcp → s'.udp = s.udp → s'.dnsRequests = s.dnsRequests →
      Does L s s'
  /-- A control block is made. -/
  | make (p : Ptr) (b : Option TcpPcb) : L (.make p) →
      Does L s { s with tcp := Function.update s.tcp p b }
  /-- A control block ends. -/
  | finish (p : Ptr) : Does L s { s with tcp := Function.update s.tcp p none }
  /-- Fields of a control block are written that have nothing to do with its bytes. -/
  | set (p : Ptr) (f : TcpPcb → TcpPcb) : (∀ b, (f b).written = b.written) →
      Does L s (s.modifyTcp p f)
  /-- Bytes are queued. -/
  | write (p : Ptr) (bytes : List UInt8) : L (.write p bytes) →
      Does L s (s.modifyTcp p fun b => { b with written := b.written ++ bytes })
  /-- A UDP control block is made, with nothing registered on it. -/
  | makeUdp (p : Ptr) : L (.udp p) → Does L s { s with udp := Function.update s.udp p (some {}) }
  /-- A UDP control block ends. -/
  | finishUdp (p : Ptr) : L (.udp p) → Does L s { s with udp := Function.update s.udp p none }
  /-- Fields of a UDP control block are written that have nothing to do with its callback. -/
  | setUdp (p : Ptr) (f : UdpPcb → UdpPcb) : L (.udp p) → (∀ b, (f b).recvArg = b.recvArg) →
      Does L s (s.modifyUdp p f)
  /-- A callback is registered. -/
  | register (p : Ptr) (k : ℤ) : L (.register p k) → Does L s (udpRecv s p k)
  /-- A DNS request is taken on. -/
  | request (c : ℕ) : L (.request c) →
      Does L s { s with dnsRequests := s.dnsRequests ++ [c] }
  /-- A DNS request is answered. -/
  | answer (c : ℕ) : L (.answer c) → Does L s { s with dnsRequests := s.dnsRequests.erase c }

/-- Effects that `L` lets happen lead from one state to another. -/
def Effects (L : Effect → Prop) : Server → Server → Prop := Relation.ReflTransGen (Does L)

variable {L : Effect → Prop}

namespace Effects

theorem refl (s : Server) : Effects L s s := Relation.ReflTransGen.refl

theorem trans (h : Effects L s s') (h' : Effects L s' s'') : Effects L s s'' :=
  Relation.ReflTransGen.trans h h'

theorem single (h : Does L s s') : Effects L s s' := Relation.ReflTransGen.single h

/-- The server has written its own state only. -/
theorem of_eq (htcp : s'.tcp = s.tcp) (hudp : s'.udp = s.udp)
    (hdns : s'.dnsRequests = s.dnsRequests) : Effects L s s' := single (.own htcp hudp hdns)

theorem set (s : Server) (q : Ptr) {f : TcpPcb → TcpPcb} (hf : ∀ b, (f b).written = b.written) :
    Effects L s (s.modifyTcp q f) := single (.set q f hf)

theorem setUdp (s : Server) {q : Ptr} (hU : L (.udp q)) {f : UdpPcb → UdpPcb}
    (hf : ∀ b, (f b).recvArg = b.recvArg) : Effects L s (s.modifyUdp q f) :=
  single (.setUdp q f hU hf)

/-! ### What no effect touches -/

/-- The bytes of a control block that is not made and not written to are the same, unless it has
ended. -/
theorem written (h : Effects L s s') {p : Ptr} (hmake : ¬ L (.make p))
    (hwrite : ∀ bytes, ¬ L (.write p bytes)) :
    (s'.tcp p).map TcpPcb.written = (s.tcp p).map TcpPcb.written ∨ s'.tcp p = none := by
  induction h with
  | refl => exact .inl rfl
  | @tail t t' _ hdoes ih =>
    -- a control block that has ended stays away
    have hkeep : (t'.tcp p).map TcpPcb.written = (t.tcp p).map TcpPcb.written →
        (t'.tcp p).map TcpPcb.written = (s.tcp p).map TcpPcb.written ∨ t'.tcp p = none := by
      intro heq
      rcases ih with ih | ih
      · exact .inl (heq.trans ih)
      · rw [ih, Option.map_none, Option.map_eq_none_iff] at heq
        exact .inr heq
    have hmodify : ∀ q (f : TcpPcb → TcpPcb), (q = p → ∀ b, (f b).written = b.written) →
        ((t.modifyTcp q f).tcp p).map TcpPcb.written = (t.tcp p).map TcpPcb.written := by
      intro q f hf
      simp only [Server.modifyTcp, Function.update_apply]
      split
      · next hpq =>
        subst hpq
        rw [Option.map_map]
        congr 1
        funext b
        exact hf rfl b
      · rfl
    cases hdoes with
    | own htcp _ _ => exact hkeep (by rw [htcp])
    | make q b hq =>
      refine hkeep ?_
      have hpq : p ≠ q := fun hpq => hmake (hpq ▸ hq)
      simp [hpq]
    | finish q =>
      by_cases hpq : p = q
      · subst hpq
        exact .inr (Function.update_self _ _ _)
      · exact hkeep (by simp [hpq])
    | set q f hf => exact hkeep (hmodify q f fun _ => hf)
    | write q bytes hq =>
      refine hkeep (hmodify q _ fun hpq => ?_)
      subst hpq
      exact absurd hq (hwrite bytes)
    | makeUdp q _ => exact hkeep rfl
    | finishUdp q _ => exact hkeep rfl
    | setUdp q f _ _ => exact hkeep rfl
    | register q k _ => exact hkeep rfl
    | request c _ => exact hkeep rfl
    | answer c _ => exact hkeep rfl

/-- What is registered on a UDP control block was registered on it before, or has been now. -/
theorem recvArg (h : Effects L s s') {p : Ptr} {k : ℤ}
    (hp : (s'.udp p).bind UdpPcb.recvArg = some k) :
    (s.udp p).bind UdpPcb.recvArg = some k ∨ L (.register p k) := by
  induction h with
  | refl => exact .inl hp
  | @tail t t' _ hdoes ih =>
    have hmodify : ∀ q (f : UdpPcb → UdpPcb), (q = p → ∀ b, (f b).recvArg = b.recvArg) →
        ((t.modifyUdp q f).udp p).bind UdpPcb.recvArg = (t.udp p).bind UdpPcb.recvArg := by
      intro q f hf
      simp only [Server.modifyUdp, Function.update_apply]
      split
      · next hpq =>
        subst hpq
        cases t.udp p with
        | none => rfl
        | some b => exact hf rfl b
      · rfl
    cases hdoes with
    | own _ hudp _ => exact ih (by rw [← hudp]; exact hp)
    | make q b _ => exact ih hp
    | finish q => exact ih hp
    | set q f _ => exact ih hp
    | write q bytes _ => exact ih hp
    | makeUdp q _ =>
      refine ih ?_
      by_cases hpq : p = q
      · subst hpq
        simp at hp
      · simpa [hpq] using hp
    | finishUdp q _ =>
      refine ih ?_
      by_cases hpq : p = q
      · subst hpq
        simp at hp
      · simpa [hpq] using hp
    | setUdp q f _ hf => exact ih ((hmodify q f fun _ => hf).symm.trans hp)
    | register q j hq =>
      by_cases hpq : q = p
      · -- the control block exists, and has the new argument
        subst hpq
        obtain ⟨b, hb, hk⟩ := Option.bind_eq_some_iff.mp hp
        simp only [Xtcp.udpRecv, Server.modifyUdp, Function.update_self,
          Option.map_eq_some_iff] at hb
        obtain ⟨b', -, rfl⟩ := hb
        obtain rfl : j = k := Option.some.inj hk
        exact .inr hq
      · exact ih ((hmodify q _ fun h => absurd h hpq).symm.trans hp)
    | request c _ => exact ih hp
    | answer c _ => exact ih hp

/-- Where nothing is asked of UDP control blocks, they are the same. -/
theorem udp (h : Effects L s s') (hudp : ∀ p, ¬ L (.udp p))
    (hregister : ∀ p k, ¬ L (.register p k)) : s'.udp = s.udp := by
  induction h with
  | refl => rfl
  | tail _ hdoes ih =>
    cases hdoes with
    | own _ hsame _ => exact hsame.trans ih
    | make q b _ => exact ih
    | finish q => exact ih
    | set q f _ => exact ih
    | write q bytes _ => exact ih
    | makeUdp q hq => exact absurd hq (hudp q)
    | finishUdp q hq => exact absurd hq (hudp q)
    | setUdp q f hq _ => exact absurd hq (hudp q)
    | register q k hq => exact absurd hq (hregister q k)
    | request c _ => exact ih
    | answer c _ => exact ih

/-- Without a request and an answer, the requests under way are the same. -/
theorem dnsRequests (h : Effects L s s') (hrequest : ∀ c, ¬ L (.request c))
    (hanswer : ∀ c, ¬ L (.answer c)) : s'.dnsRequests = s.dnsRequests := by
  induction h with
  | refl => rfl
  | tail _ hdoes ih =>
    cases hdoes with
    | own _ _ hdns => exact hdns.trans ih
    | make q b _ => exact ih
    | finish q => exact ih
    | set q f _ => exact ih
    | write q bytes _ => exact ih
    | makeUdp q _ => exact ih
    | finishUdp q _ => exact ih
    | setUdp q f _ _ => exact ih
    | register q k _ => exact ih
    | request c hc => exact absurd hc (hrequest c)
    | answer c hc => exact absurd hc (hanswer c)

/-! ### Control blocks -/

theorem tcpClose (s : Server) (q : Ptr) (id : ℤ) (lingers : Bool) :
    Effects L s (tcpClose s q id lingers) := by
  cases hq : s.tcp q with
  | none =>
    have heq : Xtcp.tcpClose s q id lingers = { s with tcp := Function.update s.tcp q none } := by
      simp [Xtcp.tcpClose, hq]
    rw [heq]
    exact single (.finish q)
  | some b =>
    by_cases hstays : b.status = .active ∧ lingers = true
    · have heq : Xtcp.tcpClose s q id lingers
          = s.modifyTcp q fun b => { b with status := .closing id } := by
        simp [Xtcp.tcpClose, Server.modifyTcp, hq, hstays]
      rw [heq]
      exact set s q fun _ => rfl
    · have heq : Xtcp.tcpClose s q id lingers = { s with tcp := Function.update s.tcp q none } := by
        simp only [Xtcp.tcpClose, hq, Option.bind_some, if_neg hstays]
      rw [heq]
      exact single (.finish q)

theorem tcpListen (s : Server) (q l : Ptr) (hl : L (.make l)) : Effects L s (tcpListen s q l) := by
  have hfinish : Effects L s { s with tcp := Function.update s.tcp q none } := single (.finish q)
  exact hfinish.trans (single (.make l ((s.tcp q).map fun b => { b with status := .listen }) hl))

theorem tcpBind (s : Server) (q : Ptr) (host : Host) (answer : Err) :
    Effects L s (tcpBind s q host answer) := by
  unfold Xtcp.tcpBind
  split
  · exact set s q fun _ => rfl
  · exact refl s

theorem tcpConnect (s : Server) (q : Ptr) (host : Host) (answer : Err) :
    Effects L s (tcpConnect s q host answer) := by
  unfold Xtcp.tcpConnect
  split
  · exact set s q fun _ => rfl
  · exact refl s

theorem tcpWrite (s : Server) (q : Ptr) (bytes : List UInt8) {answer : Err}
    (hL : answer = .ok → L (.write q bytes)) : Effects L s (tcpWrite s q bytes answer) := by
  unfold Xtcp.tcpWrite
  split
  · next hok => exact single (.write q bytes (hL hok))
  · exact refl s

theorem udpBind (s : Server) {q : Ptr} (hU : L (.udp q)) (host : Host) (answer : Err) :
    Effects L s (udpBind s q host answer) := by
  unfold Xtcp.udpBind
  split
  · exact setUdp s hU fun _ => rfl
  · exact refl s

theorem udpConnect (s : Server) {q : Ptr} (hU : L (.udp q)) (host : Host) (answer : Err) :
    Effects L s (udpConnect s q host answer) := by
  unfold Xtcp.udpConnect
  split
  · exact setUdp s hU fun _ => rfl
  · exact refl s

/-! ### Slots -/

theorem assign (s : Server) (c : ℕ) (protocol : Protocol) :
    Effects L s (assignClientConnection cfg s c protocol).1 := by
  unfold assignClientConnection
  split
  · exact of_eq rfl rfl rfl
  · exact refl s

theorem setTcpPcb (s : Server) (k : ℤ) (p : Option Ptr) : Effects L s (setTcpPcb cfg s k p).1 := by
  unfold Xtcp.setTcpPcb
  split
  · exact of_eq rfl rfl rfl
  · exact refl s

theorem setUdpPcb (s : Server) (k : ℤ) (p : Option Ptr) : Effects L s (setUdpPcb cfg s k p).1 := by
  unfold Xtcp.setUdpPcb
  split
  · exact of_eq rfl rfl rfl
  · exact refl s

theorem freeClientConnection (s : Server) (k : ℤ) :
    Effects L s (freeClientConnection cfg s k) := by
  unfold Xtcp.freeClientConnection
  split
  · exact of_eq rfl rfl rfl
  · exact refl s

theorem closePcb (s : Server) (k : ℤ) (lingers : Bool) (hU : ∀ q, L (.udp q)) :
    Effects L s (closePcb cfg s k lingers) := by
  unfold Xtcp.closePcb
  split
  · split
    · exact single (.finishUdp _ (hU _))
    · exact refl s
  · split
    · exact tcpClose s _ k lingers
    · exact refl s
  · exact refl s

/-- `shim_new_socket` makes the control block that lwIP has found. -/
theorem shimNewSocket (s : Server) (i : ℕ) (protocol : Protocol) {answer : Option Ptr}
    (hL : ∀ q, answer = some q → L (.make q)) (hU : ∀ q, L (.udp q)) :
    Effects L s (shimNewSocket cfg s i protocol answer).1 := by
  have hassign : Effects L s (assignClientConnection cfg s i protocol).1 := assign s i protocol
  unfold Xtcp.shimNewSocket
  dsimp only
  split
  · exact hassign
  · split
    · exact hassign
    · next q _ =>
      have hnew : Effects L s (udpNewIpType (assignClientConnection cfg s i .udp).1 q) :=
        hassign.trans (single (.makeUdp q (hU q)))
      split
      · exact (hnew.trans (setUdpPcb _ _ _)).trans (single (.finishUdp q (hU q)))
      · exact hnew.trans (setUdpPcb _ _ _)
    · exact hassign
    · next q _ =>
      have hnew : Effects L s (tcpNewIpType (assignClientConnection cfg s i .tcp).1 q) :=
        hassign.trans (single (.make q (some {}) (hL q rfl)))
      split
      · exact (hnew.trans (setTcpPcb _ _ _)).trans (tcpClose _ _ _ _)
      · exact hnew.trans (setTcpPcb _ _ _)
    · exact hassign

/-- `shim_listen` makes the listening control block that lwIP has found, or registers the index of
a UDP socket of the client. -/
theorem shimListen (s : Server) (i : ℕ) (k : ℤ) (portNumber : UInt16) (ipaddr : IpAddr)
    {answer : ListenAnswer} (hL : ∀ l, answer.listen = some l → L (.make l)) (hU : ∀ q, L (.udp q))
    (hR : ∀ p, (findClientConnection cfg s i k).status = .success → getUdpPcb cfg s k = some p →
      L (.register p k)) :
    Effects L s (shimListen cfg s i k portNumber ipaddr answer).1 := by
  unfold Xtcp.shimListen
  dsimp only
  split
  · exact refl s
  · next hfind =>
    have hfind := not_not.mp hfind
    split
    · split
      · exact refl s
      · next p _ =>
        have hbind : Effects L s (Xtcp.tcpBind s p ⟨ipaddr, portNumber⟩ answer.bind) :=
          tcpBind s p _ _
        split
        · split
          · exact hbind
          · next l hl =>
            have hlisten := hbind.trans (tcpListen _ p l (hL l hl))
            exact (hlisten.trans (setTcpPcb _ k (some l))).trans (set _ l fun _ => rfl)
        · split <;> exact hbind
    · split
      · exact refl s
      · next p hp =>
        have hbind : Effects L s (Xtcp.udpBind s p ⟨ipaddr, portNumber⟩ answer.bind) :=
          udpBind s (hU p) _ _
        split
        · exact hbind.trans (single (.register p k (hR p hfind hp)))
        · exact hbind
    · exact refl s

/-- `shim_connect` registers the index of a UDP socket of the client. -/
theorem shimConnect (s : Server) (i : ℕ) (k : ℤ) (portNumber : UInt16) (ipaddr : IpAddr)
    (answer : Err) (hU : ∀ q, L (.udp q))
    (hR : ∀ p, (findClientConnection cfg s i k).status = .success → getUdpPcb cfg s k = some p →
      L (.register p k)) :
    Effects L s (shimConnect cfg s i k portNumber ipaddr answer).1 := by
  unfold Xtcp.shimConnect
  dsimp only
  split
  · exact refl s
  · next hfind =>
    have hfind := not_not.mp hfind
    split
    · split
      · exact refl s
      · split <;> exact tcpConnect _ _ _ _
    · split
      · exact refl s
      · next p hp =>
        have hconnect : Effects L s (Xtcp.udpConnect s p ⟨ipaddr, portNumber⟩ answer) :=
          udpConnect s (hU p) _ _
        split
        · exact hconnect.trans (single (.register p k (hR p hfind hp)))
        · exact hconnect
    · exact refl s

theorem shimAccept (s : Server) (c : ℕ) (n : Option Ptr) (k : ℤ) :
    Effects L s (shimAccept cfg s c n k).1 := by
  unfold Xtcp.shimAccept
  split
  · exact refl s
  · split
    · exact refl s
    · next q =>
      have hassign : Effects L s (assignClientConnection cfg s c .tcp).1 := assign s c .tcp
      dsimp only
      split
      · exact hassign
      · exact (hassign.trans (setTcpPcb _ _ _)).trans (set _ q fun _ => rfl)
  · exact refl s

/-! ### Received data -/

theorem setRemote {k : ℤ} {remote : Option IpAddr} {port : UInt16} {p : Option Ptr}
    {e : ErrorCode} (h : setRemote cfg s k remote port p = .ok (s', e)) : Effects L s s' := by
  unfold Xtcp.setRemote at h
  split at h
  · split at h
    · cases h; exact refl s
    · obtain ⟨b, -, h⟩ := bind_eq_ok.mp h
      dsimp only at h
      split at h
      · obtain ⟨last, -, h⟩ := bind_eq_ok.mp h
        obtain ⟨lb, -, h⟩ := bind_eq_ok.mp h
        cases h; exact of_eq rfl rfl rfl
      · cases h; exact of_eq rfl rfl rfl
  · cases h; exact refl s

theorem unlinkRemote {k : ℤ} {p : Option Ptr} {e : ErrorCode}
    (h : unlinkRemote cfg s k p = .ok (s', e)) : Effects L s s' := by
  unfold Xtcp.unlinkRemote at h
  split at h
  · cases h; exact refl s
  · split at h
    · obtain ⟨found, -, h⟩ := bind_eq_ok.mp h
      split at h
      · cases h; exact refl s
      · obtain ⟨b, -, h⟩ := bind_eq_ok.mp h
        split at h
        · cases h; exact of_eq rfl rfl rfl
        · obtain ⟨rb, -, h⟩ := bind_eq_ok.mp h
          cases h; exact of_eq rfl rfl rfl
    · cases h; exact refl s

theorem consumed (s : Server) (k : ℤ) (n : ℕ) : Effects L s (s.consumed k n) := by
  unfold Server.consumed
  split
  · exact set s _ fun _ => rfl
  · exact refl s

theorem freeRemoteData {k : ℤ} {e : ErrorCode} (h : freeRemoteData cfg s k = .ok (s', e)) :
    Effects L s s' := by
  obtain rfl | ⟨p, b, m, -, -, -, rfl⟩ := freeRemoteData_cases h
  · exact refl _
  · have hfree : Effects L s { s.setEntry k { s.connections k with pbuf := b.next } with
        pbufs := m } := of_eq rfl rfl rfl
    exact hfree.trans (consumed _ _ _)

theorem clearPending {k : ℤ} (h : clearPendingRxDataOnConnection cfg s k = .ok s') :
    Effects L s s' := by
  by_cases hk : cfg.InRange k
  · obtain ⟨-, rfl⟩ | ⟨p, b, m, -, -, -, rfl⟩ := clearPending_cases hk h
    · exact refl _
    · exact (consumed s k b.totLen).trans (of_eq rfl rfl rfl)
  · simp only [clearPendingRxDataOnConnection, if_neg hk] at h
    cases h
    exact refl s

theorem receive {k : ℤ} {length : UInt32} {timed : Bool} {remote : Host} {r : Reply}
    (h : receive cfg s k length timed remote = .ok (s', r)) : Effects L s s' := by
  obtain ⟨copy, -, h⟩ := bind_eq_ok.mp h
  obtain ⟨⟨t, e⟩, ht, h⟩ := bind_eq_ok.mp h
  cases h
  exact freeRemoteData ht

theorem close {i : ℕ} {k : ℤ} {lingers : Bool} (h : shimCloseSocket cfg s i k lingers = .ok s')
    (hU : ∀ q, L (.udp q)) : Effects L s s' := by
  obtain rfl | ⟨-, t, ht, rfl⟩ := shimCloseSocket_cases h
  · exact refl _
  · have hqueue : Effects L s { s with queue := (freeNotificationsOnQueue cfg s.queue i k).1 } :=
      of_eq rfl rfl rfl
    have hclear : Effects L s t := hqueue.trans (clearPending ht)
    exact (hclear.trans (closePcb t k lingers hU)).trans (freeClientConnection _ k)

/-! ### Transmission and options -/

theorem freeSent {p : Ptr} {e : ErrorCode} {reads : List PbufRead} {sent : Sent}
    (h : freeSent s p e reads = .ok sent) : Effects L s sent.server := by
  obtain ⟨m, -, h⟩ := bind_eq_ok.mp h
  cases h
  exact of_eq rfl rfl rfl

theorem sendUdp {k : ℤ} {p : Ptr} {answer : SendAnswer} {sent : Sent}
    (h : sendUdp cfg s k p answer = .ok sent) : Effects L s sent.server := by
  unfold Xtcp.sendUdp at h
  split at h
  · exact freeSent h
  · have hsend : Effects L s (udpSend s p answer.timestamp answer.keeps) := of_eq rfl rfl rfl
    exact hsend.trans (freeSent h)

/-- `tcp_write` is called on the control block of the slot. -/
theorem sendTcp {k : ℤ} {p : Ptr} {answer : SendAnswer} {sent : Sent}
    (h : sendTcp cfg s k p answer = .ok sent)
    (hL : ∀ q bytes, getTcpPcb cfg s k = some q → L (.write q bytes)) :
    Effects L s sent.server := by
  unfold Xtcp.sendTcp at h
  split at h
  · exact freeSent h
  · next q hq =>
    obtain ⟨b, -, h⟩ := bind_eq_ok.mp h
    exact (tcpWrite s q _ fun _ => hL q _ hq).trans (freeSent h)

theorem shimSend {i : ℕ} {k : ℤ} {p : Option Ptr} {answer : SendAnswer} {sent : Sent}
    (h : shimSend cfg s i k p answer = .ok sent)
    (hL : ∀ q bytes, getTcpPcb cfg s k = some q → L (.write q bytes)) :
    Effects L s sent.server := by
  unfold Xtcp.shimSend at h
  split at h
  · cases h; exact refl s
  · dsimp only at h
    split at h
    · cases h; exact refl s
    · split at h
      · exact sendUdp h
      · exact sendTcp h hL
      · cases h; exact refl s

theorem shimSendto {i : ℕ} {k : ℤ} {p : Option Ptr} {answer : SendAnswer} {sent : Sent}
    (h : shimSendto cfg s i k p answer = .ok sent) : Effects L s sent.server := by
  unfold Xtcp.shimSendto at h
  split at h
  · cases h; exact refl s
  · dsimp only at h
    split at h
    · cases h; exact refl s
    · split at h
      · exact sendUdp h
      · cases h; exact refl s
      · cases h; exact refl s

theorem transmit {buffer : List UInt8} {timed : Bool} {answer : SendAnswer}
    {send : Server → Ptr → Except Fault Sent} {r : Reply}
    (hsend : ∀ {m p sent}, send { s with pbufs := m } p = .ok sent →
      Effects L { s with pbufs := m } sent.server)
    (h : transmit cfg s buffer timed answer send = .ok (s', r)) : Effects L s s' := by
  obtain ⟨m, hm⟩ := transmit_returned h
  have hwrite : Effects L s { s with pbufs := m } := of_eq rfl rfl rfl
  obtain rfl | ⟨token, sent, hsent, rfl⟩ := hm
  · exact hwrite
  · exact hwrite.trans (hsend hsent)

theorem shimSetsockopt {i : ℕ} {k : ℤ} {level : SocketLevel} {option : ℕ} {value : List UInt8}
    {e : ErrorCode} (h : shimSetsockopt cfg s i k level option value = .ok (s', e))
    (hU : ∀ q, L (.udp q)) : Effects L s s' := by
  obtain ⟨e', h'⟩ | h' | ⟨o, v, p, h' | h'⟩ := shimSetsockopt_cases cfg s i k level option value
  · cases h'.symm.trans h
    exact refl s
  · cases h'.symm.trans h
  · cases h'.symm.trans h
    refine setUdp s (hU _) fun b => ?_
    cases o <;> rfl
  · cases h'.symm.trans h
    refine set s _ fun b => ?_
    cases o <;> rfl

/-! ### Callbacks -/

theorem enqueue (s : Server) (c : ℕ) (id : ℤ) (e : EventType) :
    Effects L s (enqueue cfg s c id e).1 := of_eq rfl rfl rfl

theorem eventAccept (s : Server) (arg : ℤ) (c : ℕ) (n : Option Ptr) (err : Err) :
    Effects L s (eventAccept cfg s arg c n err).1 := by
  unfold Xtcp.eventAccept
  split
  · exact refl s
  · next n =>
    have hprio : Effects L s (tcpSetprio s n tcpPrioMin) := set s n fun _ => rfl
    have haccept : Effects L s (Xtcp.shimAccept cfg (tcpSetprio s n tcpPrioMin) c n arg).1 :=
      hprio.trans (shimAccept _ c n arg)
    dsimp only
    split
    · exact refl s
    · split
      · exact haccept
      · exact haccept.trans (enqueue _ _ _ _)

theorem eventRecv {k : ℤ} {c : ℕ} {p : Option Ptr} {e : Err}
    (h : eventRecv cfg s k c p = .ok (s', e)) : Effects L s s' := by
  unfold Xtcp.eventRecv at h
  split at h
  · cases h; exact enqueue s _ _ _
  · obtain ⟨⟨t, e'⟩, ht, h⟩ := bind_eq_ok.mp h
    have hqueued : Effects L s (Xtcp.enqueue cfg t c k .recvData).1 :=
      (setRemote ht).trans (enqueue t c k .recvData)
    dsimp only at h
    split at h
    · obtain ⟨⟨u, e''⟩, hu, h⟩ := bind_eq_ok.mp h
      cases h
      exact hqueued.trans (unlinkRemote hu)
    · cases h; exact hqueued

theorem eventErr (s : Server) (arg : ℤ) (c : ℕ) (err : Err) :
    Effects L s (eventErr cfg s arg c err).1 := by
  unfold Xtcp.eventErr
  dsimp only
  refine trans ?_ (freeClientConnection _ arg)
  split
  · exact enqueue s _ _ _
  · exact refl s

theorem lwipTcpEvent {arg : ℤ} {pcb : Option Ptr} {e : LwipEvent} {p : Option Ptr} {err r : Err}
    (h : lwipTcpEvent cfg s arg pcb e p err = .ok (s', r)) : Effects L s s' := by
  unfold Xtcp.lwipTcpEvent at h
  split at h
  · cases e with
    | accept =>
      have hs : (Xtcp.eventAccept cfg s arg (getClientInfo cfg s arg) pcb err).1 = s' :=
        congrArg Prod.fst (Except.ok.inj h)
      rw [← hs]
      exact eventAccept s arg _ pcb err
    | connected | sent => cases h; exact enqueue s _ _ _
    | recv => exact eventRecv h
    | err =>
      have hs : (Xtcp.eventErr cfg s arg (getClientInfo cfg s arg) err).1 = s' :=
        congrArg Prod.fst (Except.ok.inj h)
      rw [← hs]
      exact eventErr s arg _ err
    | poll => cases h; exact refl s
  · cases h; exact refl s

theorem stepTcp {p : Ptr} {arg : ℤ} {callback : TcpCallback} {r : Reply}
    (h : stepTcp cfg s p arg callback = .ok (s', r)) : Effects L s s' := by
  cases callback with
  | accept =>
    obtain ⟨⟨t, e⟩, ht, h⟩ := bind_eq_ok.mp h
    have hactive : Effects L s (s.modifyTcp p fun b => { b with status := .active }) :=
      set s p fun _ => rfl
    have haccept : Effects L s t := hactive.trans (lwipTcpEvent ht)
    dsimp only at h
    split at h
    · cases h; exact haccept
    · obtain ⟨u, hu, h⟩ := bind_eq_ok.mp h
      cases h
      unfold abortAccepted at hu
      split at hu
      · cases hu; exact haccept
      · obtain ⟨⟨v, e'⟩, hv, hu⟩ := bind_eq_ok.mp hu
        cases hu
        exact (haccept.trans (single (.finish p))).trans (lwipTcpEvent hv)
  | recv cells =>
    obtain ⟨⟨t, e⟩, ht, h⟩ := bind_eq_ok.mp h
    have hdeliver : Effects L s { s with pbufs := deliver s.pbufs cells } := of_eq rfl rfl rfl
    have hrecv : Effects L s t := hdeliver.trans (lwipTcpEvent ht)
    dsimp only at h
    split at h
    · cases h; exact hrecv
    · cases h; exact hrecv.trans (of_eq rfl rfl rfl)
  | err err =>
    obtain ⟨⟨t, e⟩, ht, h⟩ := bind_eq_ok.mp h
    cases h
    have hfree : Effects L s (tcpFree s p) := single (.finish p)
    exact hfree.trans (lwipTcpEvent ht)
  | acceptFailed | connected | sent | poll =>
    obtain ⟨⟨t, e⟩, ht, h⟩ := bind_eq_ok.mp h
    cases h
    exact lwipTcpEvent ht

theorem xtcpUdpRecv {k : ℤ} {pcb : Ptr} {p : Option Ptr} {addr : Option IpAddr} {port : UInt16}
    (h : xtcpUdpRecv cfg s k pcb p addr port = .ok s') : Effects L s s' := by
  unfold Xtcp.xtcpUdpRecv at h
  split at h
  · cases h; exact refl s
  · split at h
    · obtain ⟨⟨t, e⟩, ht, h⟩ := bind_eq_ok.mp h
      have hqueued : Effects L s
          (Xtcp.enqueue cfg t (getClientInfo cfg t k) k (udpRecvEvent t pcb)).1 :=
        (setRemote ht).trans (enqueue t (getClientInfo cfg t k) k (udpRecvEvent t pcb))
      dsimp only at h
      split at h
      · obtain ⟨m, -, h⟩ := bind_eq_ok.mp h
        cases h
        exact hqueued.trans (of_eq rfl rfl rfl)
      · cases h; exact hqueued
    · cases h; exact refl s

theorem notifyAll (s : Server) (e : EventType) : Effects L s (notifyAll cfg s e) := by
  unfold Xtcp.notifyAll
  induction List.range cfg.nXtcp generalizing s with
  | nil => exact refl s
  | cons i l ih => exact (enqueue s i 0 e).trans (ih _)

end Effects

/-! ### Steps -/

/-- The effects that an action stands for: the control blocks it makes, the control block it writes
to, the index it registers, and the DNS request it takes on or answers. -/
def Action.asks (cfg : Config) (s : Server) : Action → Effect → Prop
  | .call _ (.socket _ answer), .make p => answer = some p
  | .call _ (.listen _ _ _ answer), .make p => answer.listen = some p
  | .happens (.syn _ n), .make p => p = n
  | .call i (.send k _ _ _), .write p _ =>
    (findClientConnection cfg s i k).status = .success ∧ getTcpPcb cfg s k = some p
  | .call _ _, .udp _ => True
  | .call i (.listen k _ _ _), .register p j | .call i (.connect k _ _ _), .register p j =>
    j = k ∧ (findClientConnection cfg s i k).status = .success ∧ getUdpPcb cfg s k = some p
  | .call i (.requestHostByName hasGateway answer _), .request c =>
    hasGateway = true ∧ answer = .inprogress ∧ c = i
  | .happens (.dnsFound _ _ arg), .answer c => c = arg
  | _, _ => False

/-- Bytes are queued by a send only. -/
theorem Action.of_asks_write {a : Action} {p : Ptr} {bytes : List UInt8}
    (h : a.asks cfg s (.write p bytes)) : ∃ i k buffer timed answer,
      a = .call i (.send k buffer timed answer) ∧
      (findClientConnection cfg s i k).status = .success ∧ getTcpPcb cfg s k = some p := by
  cases a with
  | call i call =>
    cases call with
    | send k buffer timed answer => exact ⟨i, k, buffer, timed, answer, rfl, h⟩
    | _ => cases h
  | happens happening => cases happening <;> cases h

/-- TCP control blocks are made where there is none. -/
theorem Action.fresh_of_asks_make {a : Action} (hok : Allowed cfg s a) {p : Ptr}
    (h : a.asks cfg s (.make p)) : FreshPcb s p := by
  cases a with
  | call i call =>
    cases call with
    | socket protocol answer => exact hok.2 p h
    | listen k portNumber ipaddr answer => exact hok.2.2 p h
    | _ => cases h
  | happens happening =>
    cases happening with
    | syn l n =>
      obtain rfl : p = n := h
      exact hok.2
    | _ => cases h

/-- `listen` and `connect` register an index, each on the control block of the client's slot with
that index. -/
theorem Action.of_asks_register {a : Action} {p : Ptr} {k : ℤ} (h : a.asks cfg s (.register p k)) :
    ∃ i, ((∃ portNumber ipaddr answer, a = .call i (.listen k portNumber ipaddr answer)) ∨
        ∃ portNumber ipaddr answer, a = .call i (.connect k portNumber ipaddr answer)) ∧
      (findClientConnection cfg s i k).status = .success ∧ getUdpPcb cfg s k = some p := by
  cases a with
  | call i call =>
    cases call with
    | listen j portNumber ipaddr answer =>
      obtain ⟨rfl, hget⟩ := h
      exact ⟨i, .inl ⟨portNumber, ipaddr, answer, rfl⟩, hget⟩
    | connect j portNumber ipaddr answer =>
      obtain ⟨rfl, hget⟩ := h
      exact ⟨i, .inr ⟨portNumber, ipaddr, answer, rfl⟩, hget⟩
    | _ => cases h
  | happens happening => cases happening <;> cases h

/-- **Every step is made of the effects that its action stands for.** -/
theorem effects_step {a : Action} {r : Reply} (h : step cfg s a = .ok (s', r)) :
    Effects (a.asks cfg s) s s' := by
  cases a with
  | call i call =>
    have h : stepCall cfg s i call = .ok (s', r) := h
    cases call with
    | getEvent => cases h; exact .of_eq rfl rfl rfl
    | socket protocol answer =>
      cases h
      exact .shimNewSocket s i protocol (fun q hq => hq) fun _ => trivial
    | close k lingers | abort k lingers =>
      obtain ⟨t, ht, h⟩ := bind_eq_ok.mp h
      cases h
      exact .close ht fun _ => trivial
    | listen k portNumber ipaddr answer =>
      cases h
      exact .shimListen s i k portNumber ipaddr (fun l hl => hl) (fun _ => trivial)
        fun p hfind hp => ⟨rfl, hfind, hp⟩
    | connect k portNumber ipaddr answer =>
      simp only [stepCall] at h
      split at h
      · cases h; exact .refl s
      · cases h
        exact .shimConnect s i k portNumber ipaddr answer (fun _ => trivial)
          fun p hfind hp => ⟨rfl, hfind, hp⟩
    | send k buffer timed answer =>
      have h : sendCommon cfg s i k buffer timed answer = .ok (s', r) := h
      unfold sendCommon at h
      dsimp only at h
      split at h
      · cases h; exact .refl s
      · next hfind =>
        refine .transmit (fun hsend => .shimSend hsend fun q bytes hq => ?_) h
        exact ⟨not_not.mp hfind, hq⟩
    | sendto k buffer timed answer =>
      have h : sendtoCommon cfg s i k buffer timed answer = .ok (s', r) := h
      unfold sendtoCommon at h
      dsimp only at h
      split at h
      · cases h; exact .refl s
      · split at h
        · cases h; exact .refl s
        · exact .transmit (fun hsend => .shimSendto hsend) h
    | recv k length timed =>
      have h : recvCommon cfg s i k length timed = .ok (s', r) := h
      unfold recvCommon at h
      dsimp only at h
      split at h
      · cases h; exact .refl s
      · exact .receive h
    | recvfrom k length timed =>
      have h : recvfromCommon cfg s i k length timed = .ok (s', r) := h
      unfold recvfromCommon at h
      dsimp only at h
      split at h
      · cases h; exact .refl s
      · split at h
        · cases h; exact .refl s
        · obtain ⟨remote, -, h⟩ := bind_eq_ok.mp h
          exact .receive h
    | setConnectionClientData k data =>
      simp only [stepCall] at h
      split at h
      · cases h; exact .refl s
      · cases h
        unfold setConnectionClientData
        split
        · exact .of_eq rfl rfl rfl
        · exact .refl s
    | getConnectionClientData k =>
      simp only [stepCall] at h
      split at h <;> cases h <;> exact .refl s
    | joinMulticastGroup addr answer =>
      cases h
      refine .of_eq ?_ ?_ ?_ <;>
      · simp only [setMacaddrFilter, shimJoinMulticastGroup]
        split <;> split <;> rfl
    | leaveMulticastGroup addr =>
      cases h
      refine .of_eq ?_ ?_ ?_ <;>
      · simp only [setMacaddrFilter, shimLeaveMulticastGroup]
        split <;> split <;> rfl
    | requestHostByName hasGateway answer ipaddr =>
      simp only [stepCall, shimRequestHostByName] at h
      split at h
      · next hgateway =>
        split at h
        · cases h; exact .refl s
        · split at h
          · next hanswer =>
            cases h
            exact .single (.request i ⟨hgateway, hanswer, rfl⟩)
          · cases h; exact .refl s
      · cases h; exact .refl s
    | getIpconfigRemote k | getIpconfigLocal k => cases h; exact .refl s
    | getsockopt k level option length =>
      obtain ⟨⟨status, value⟩, -, h⟩ := bind_eq_ok.mp h
      cases h; exact .refl s
    | setsockopt k level option value =>
      obtain ⟨⟨t, e⟩, ht, h⟩ := bind_eq_ok.mp h
      cases h
      exact .shimSetsockopt ht fun _ => trivial
  | happens happening =>
    have h : stepHappening cfg s happening = .ok (s', r) := h
    cases happening with
    | syn l n => cases h; exact .single (.make n _ rfl)
    | tcpEvent p arg callback => exact .stepTcp h
    | udpRecv p arg cells addr port =>
      obtain ⟨t, ht, h⟩ := bind_eq_ok.mp h
      cases h
      have hdeliver : Effects (Action.asks cfg s (.happens (.udpRecv p arg cells addr port))) s
          { s with pbufs := deliver s.pbufs cells } := .of_eq rfl rfl rfl
      exact hdeliver.trans (.xtcpUdpRecv ht)
    | dnsFound hasName ipaddr arg =>
      cases h
      have hanswer : Effects (Action.asks cfg s (.happens (.dnsFound hasName ipaddr arg))) s
          { s with dnsRequests := s.dnsRequests.erase arg } := .single (.answer arg rfl)
      exact hanswer.trans (.of_eq rfl rfl rfl)
    | reap p => cases h; exact .single (.finish p)
    | dropRefused p =>
      obtain ⟨m, -, h⟩ := bind_eq_ok.mp h
      cases h; exact .of_eq rfl rfl rfl
    | linkStatus up =>
      cases up with
      | true => cases h; exact .refl s
      | false =>
        cases h
        have hstate : Effects (Action.asks cfg s (.happens (.linkStatus false))) s
            { s with netifNotifyState := false } := .of_eq rfl rfl rfl
        exact hstate.trans (.notifyAll _ _)
    | timeout timer hasIpAddress ifState =>
      simp only [stepHappening] at h
      split at h
      · cases h
        have hstate : Effects (Action.asks cfg s (.happens (.timeout timer hasIpAddress ifState))) s
            { s with netifNotifyState := true } := .of_eq rfl rfl rfl
        exact hstate.trans (.notifyAll _ _)
      · cases h; exact .refl s

end Xtcp
