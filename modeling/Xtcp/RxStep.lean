import Xtcp.Send

/-!
# What a step does with received data

Most steps have nothing to do with received data.  The others close a socket, send, receive,
deliver pbufs, or release the ones that lwIP has kept.  `RxStep` is this list, so that a fact
about received data is proved once for each of its entries.

## Main definitions

* `Action.touches` — the slot whose received data an action works on.
* `RxStep` — what one step does with received data.

## Main results

* `rxStep` — **every step is one of these**.
-/

namespace Xtcp

open Runs

variable {cfg : Config} {s s' : Server}

/-- The slot whose received data an action works on. -/
def Action.touches : Action → Option ℤ
  | .call _ (.close k _) | .call _ (.abort k _) | .call _ (.recv k _ _)
  | .call _ (.recvfrom k _ _) => some k
  | .happens (.tcpEvent _ arg (.recv _)) | .happens (.udpRecv _ arg _ _ _) => some arg
  | _ => none

theorem touches_of_closes {call : Call} {k : ℤ} {lingers : Bool} (h : call.closes k lingers)
    (i : ℕ) : (Action.call i call).touches = some k := by
  cases call with
  | close | abort => exact congrArg some h.1
  | _ => cases h

/-- What one step does with received data, and what comes out of it. -/
inductive RxStep (cfg : Config) (s : Server) : Action → Except Fault (Server × Reply) → Prop
  /-- Nothing: it stops at a null control block. -/
  | nullPcb {a : Action} : RxStep cfg s a (.error .nullPcb)
  /-- Nothing. -/
  | keeps {a : Action} {t : Server} {r : Reply} : KeepsRx s t → RxStep cfg s a (.ok (t, r))
  /-- `close` and `abort` -/
  | close {i : ℕ} {call : Call} {k : ℤ} {lingers : Bool} : call.closes k lingers →
      RxStep cfg s (.call i call) (shimCloseSocket cfg s i k lingers >>= fun t => .ok (t, .unit))
  /-- `send` and `sendto` -/
  | transmit {i : ℕ} {call : Call} {buffer : List UInt8} {timed : Bool} {answer : SendAnswer}
      {send : Server → Ptr → Except Fault Sent} :
      (∃ k, call = .send k buffer timed answer ∨ call = .sendto k buffer timed answer) →
      (∀ {t : Server} {token : Ptr} {b : Pbuf}, t.pbufs token = some b → b.ref ≤ 1 →
        b.next = none → SendsOnly token t (send t token)) →
      IfSome answer.alloc (fun p => s.pbufs p = none) →
      RxStep cfg s (.call i call) (transmit cfg s buffer timed answer send)
  /-- `recv` -/
  | recv {i : ℕ} {k : ℤ} {length : UInt32} {timed : Bool} : s.table.OwnedBy cfg i k →
      RxStep cfg s (.call i (.recv k length timed)) (receive cfg s k length timed {})
  /-- `recvfrom` -/
  | recvfrom {i : ℕ} {k : ℤ} {length : UInt32} {timed : Bool} : s.table.OwnedBy cfg i k →
      RxStep cfg s (.call i (.recvfrom k length timed))
        (getRemote cfg s k >>= fun remote => receive cfg s k length timed remote)
  /-- `LWIP_EVENT_RECV` with data. -/
  | tcpRecv {pcb : Ptr} {arg : ℤ} {c : Ptr × Pbuf} {cells : List (Ptr × Pbuf)} :
      RxStep cfg s (.happens (.tcpEvent pcb arg (.recv (c :: cells))))
        (stepTcp cfg s pcb arg (.recv (c :: cells)))
  /-- A datagram. -/
  | udpRecv {pcb : Ptr} {arg : ℤ} {cells : List (Ptr × Pbuf)} {addr : Option IpAddr}
      {port : UInt16} :
      RxStep cfg s (.happens (.udpRecv pcb arg cells addr port))
        (stepHappening cfg s (.udpRecv pcb arg cells addr port))
  /-- lwIP gives up a pbuf that was refused. -/
  | dropRefused {p : Ptr} :
      RxStep cfg s (.happens (.dropRefused p)) (stepHappening cfg s (.dropRefused p))

namespace RxStep

theorem same (s : Server) (a : Action) (r : Reply) : RxStep cfg s a (.ok (s, r)) :=
  .keeps (Keeps.refl s).toKeepsRx

/-! ### Socket options -/

/-- Reading a socket option fails on a null control block only. -/
theorem getsockopt_cases (cfg : Config) (s : Server) (i : ℕ) (k : ℤ) (level : SocketLevel)
    (option length : ℕ) :
    shimGetsockopt cfg s i k level option length = .error .nullPcb ∨
      ∃ x, shimGetsockopt cfg s i k level option length = .ok x := by
  have hload : loadIpPcb cfg s k = .error .nullPcb ∨ ∃ b, loadIpPcb cfg s k = .ok b := by
    unfold loadIpPcb
    split
    · split
      · exact .inl rfl
      · exact .inr ⟨_, rfl⟩
    · split
      · exact .inl rfl
      · exact .inr ⟨_, rfl⟩
  unfold shimGetsockopt shimIpGetsockopt
  rcases hload with hload | ⟨b, hload⟩ <;>
  · simp only [hload, Bind.bind, Except.bind]
    repeat' split
    all_goals first | exact .inl rfl | exact .inr ⟨_, rfl⟩

/-- Writing a socket option fails on a null control block only, and leaves the received data
alone. -/
theorem setsockopt_cases (cfg : Config) (s : Server) (i : ℕ) (k : ℤ) (level : SocketLevel)
    (option : ℕ) (value : List UInt8) :
    shimSetsockopt cfg s i k level option value = .error .nullPcb ∨
      ∃ t e, shimSetsockopt cfg s i k level option value = .ok (t, e) ∧ KeepsRx s t := by
  obtain ⟨e, h⟩ | h | ⟨o, v, p, h | h⟩ := shimSetsockopt_cases cfg s i k level option value
  · exact .inr ⟨s, e, h, (Keeps.refl s).toKeepsRx⟩
  · exact .inl h
  · exact .inr ⟨_, _, h, (Keeps.modifyUdp s _ _).toKeepsRx⟩
  · exact .inr ⟨_, _, h, (Keeps.modifyTcp s _ _).toKeepsRx⟩

/-! ### Steps -/

/-- A call of a client. -/
theorem stepCall (i : ℕ) {call : Call} (hok : CallAllowed cfg s call) :
    RxStep cfg s (.call i call) (stepCall cfg s i call) := by
  cases call with
  | getEvent =>
    have hkeeps : KeepsRx s (getEvent cfg s i).1 := .of_eq rfl rfl rfl
    exact .keeps hkeeps
  | socket protocol answer => exact .keeps (Keeps.shimNewSocket s i protocol answer).toKeepsRx
  | close k lingers => exact .close ⟨rfl, rfl⟩
  | abort k lingers => exact .close ⟨rfl, rfl⟩
  | listen id portNumber ipaddr answer =>
    exact .keeps (Keeps.shimListen s i id portNumber ipaddr answer).toKeepsRx
  | connect id portNumber ipaddr answer =>
    simp only [Xtcp.stepCall]
    split
    · exact same s _ _
    · exact .keeps (Keeps.shimConnect s i id portNumber ipaddr answer).toKeepsRx
  | send id buffer timed answer =>
    simp only [Xtcp.stepCall, sendCommon]
    split
    · exact same s _ _
    · exact .transmit ⟨id, .inl rfl⟩
        (fun hb href hnext => sendsOnly_shimSend hb href hnext i id answer) hok
  | sendto id buffer timed answer =>
    simp only [Xtcp.stepCall, sendtoCommon]
    split
    · exact same s _ _
    · split
      · exact same s _ _
      · exact .transmit ⟨id, .inr rfl⟩
          (fun hb href hnext => sendsOnly_shimSendto hb href hnext i id answer) hok
  | recv id length timed =>
    simp only [Xtcp.stepCall, recvCommon]
    split
    · exact same s _ _
    · next hfind => exact .recv (find_success_iff.mp (not_not.mp hfind))
  | recvfrom id length timed =>
    simp only [Xtcp.stepCall, recvfromCommon]
    split
    · exact same s _ _
    · next hfind =>
      split
      · exact same s _ _
      · exact .recvfrom (find_success_iff.mp (not_not.mp hfind))
  | setConnectionClientData id data =>
    simp only [Xtcp.stepCall]
    split
    · exact same s _ _
    · exact .keeps (Keeps.setConnectionClientData s id data).toKeepsRx
  | getConnectionClientData id =>
    simp only [Xtcp.stepCall]
    split
    · exact same s _ _
    · exact same s _ _
  | joinMulticastGroup addr answer =>
    refine .keeps ?_
    simp only [setMacaddrFilter, shimJoinMulticastGroup]
    split <;> split <;> exact .of_eq rfl rfl rfl
  | leaveMulticastGroup addr =>
    refine .keeps ?_
    simp only [setMacaddrFilter, shimLeaveMulticastGroup]
    split <;> split <;> exact .of_eq rfl rfl rfl
  | requestHostByName hasGateway answer ipaddr =>
    simp only [Xtcp.stepCall, shimRequestHostByName]
    split
    · refine .keeps ?_
      split
      · exact .of_eq rfl rfl rfl
      · split <;> exact .of_eq rfl rfl rfl
    · exact same s _ _
  | getIpconfigRemote id => exact same s _ _
  | getIpconfigLocal id => exact same s _ _
  | getsockopt id level option length =>
    rcases getsockopt_cases cfg s i id level option length with herr | ⟨x, hx⟩
    · simp only [Xtcp.stepCall, herr, Bind.bind, Except.bind]; exact .nullPcb
    · simp only [Xtcp.stepCall, hx, Bind.bind, Except.bind]; exact same s _ _
  | setsockopt id level option value =>
    rcases setsockopt_cases cfg s i id level option value with herr | ⟨t, e, ht, hkeeps⟩
    · simp only [Xtcp.stepCall, herr, Bind.bind, Except.bind]; exact .nullPcb
    · simp only [Xtcp.stepCall, ht, Bind.bind, Except.bind]; exact .keeps hkeeps

theorem keepsRx_notifyAll (s : Server) (e : EventType) : KeepsRx s (notifyAll cfg s e) := by
  unfold notifyAll
  induction List.range cfg.nXtcp generalizing s with
  | nil => exact (Keeps.refl s).toKeepsRx
  | cons i l ih => exact (keepsRx_enqueue s i 0 e).trans (ih _)

/-- A TCP callback. -/
theorem stepTcp (hcur : s.table.CursorOk cfg) {pcb : Ptr} {arg : ℤ} {callback : TcpCallback}
    (hok : HappeningAllowed s (.tcpEvent pcb arg callback)) :
    RxStep cfg s (.happens (.tcpEvent pcb arg callback)) (stepTcp cfg s pcb arg callback) := by
  by_cases hcells : ∀ cells, callback = .recv cells → cells = []
  · obtain ⟨t, r, ht⟩ := stepTcp_returns hcur hok hcells
    rw [ht]
    exact .keeps (keepsRx_stepTcp hcells ht)
  · push Not at hcells
    obtain ⟨cells, rfl, hne⟩ := hcells
    obtain ⟨c, cells, rfl⟩ := List.exists_cons_of_ne_nil hne
    exact .tcpRecv

end RxStep

/-- **Every step is an `RxStep`.** -/
theorem rxStep (hcur : s.table.CursorOk cfg) {a : Action} (hok : Allowed cfg s a) :
    RxStep cfg s a (step cfg s a) := by
  cases a with
  | call i call => exact .stepCall i hok.2
  | happens happening =>
    cases happening with
    | tcpEvent pcb arg callback => exact .stepTcp hcur hok
    | udpRecv pcb arg cells addr port => exact .udpRecv
    | dropRefused p => exact .dropRefused
    | syn l n => exact .keeps (.of_eq rfl rfl rfl)
    | reap pcb => exact .keeps (Keeps.tcpFree s pcb).toKeepsRx
    | dnsFound hasName ipaddr arg => exact .keeps (.of_eq rfl rfl rfl)
    | linkStatus up =>
      simp only [step, stepHappening]
      split
      · exact .same s _ _
      · have hstate : KeepsRx s { s with netifNotifyState := false } := .of_eq rfl rfl rfl
        exact .keeps (hstate.trans (RxStep.keepsRx_notifyAll _ _))
    | timeout timer hasIpAddress ifState =>
      simp only [step, stepHappening]
      split
      · have hstate : KeepsRx s { s with netifNotifyState := true } := .of_eq rfl rfl rfl
        exact .keeps (hstate.trans (RxStep.keepsRx_notifyAll _ _))
      · exact .same s _ _

end Xtcp
