import Xtcp.Callbacks
import Xtcp.Library.Runs

/-!
# The server

`xtcp_lwip.xc`: a loop that takes one client call, link message or timer tick at a
time.  lwIP runs inside it, so its callbacks come between client calls, in any
order lwIP likes.

An `Action` is one client call, or one thing that happens in lwIP or at the link;
`step` carries it out.  `Allowed` is what is relied on of the clients and of lwIP:
the addresses it hands out are not in use, a callback comes with the argument
registered on its control block, a control block raises only what its status
lets it raise, and a delivery is a chain of pbufs with one reference each, either
new or refused before.  The histories of the server are the runs of `step` under
`Allowed`.

Control blocks that lwIP aborts to make room for a new one are aborted in an action
of their own.

## Main definitions

* `sendCommon`, `sendtoCommon`, `recvCommon`, `recvfromCommon` — the macros of the
  server loop.
* `Call`, `Happening`, `Action`, `Reply`, `step` — the steps of the server.
* `Allowed`, `init`, `RunsTo`, `Reachable` — its histories.
-/

namespace Xtcp

variable (cfg : Config)

/-! ### Client calls -/

/-- A call of a client. -/
inductive Call
  /-- `get_event()` -/
  | getEvent
  /-- `socket(protocol)` -/
  | socket (protocol : Protocol) (answer : Option Ptr)
  /-- `close(id)` -/
  | close (id : ℤ) (lingers : Bool)
  /-- `abort(id)` -/
  | abort (id : ℤ) (lingers : Bool)
  /-- `listen(id, port_number, ipaddr)` -/
  | listen (id : ℤ) (portNumber : UInt16) (ipaddr : IpAddr) (answer : ListenAnswer)
  /-- `connect(id, port_number, ipaddr)` -/
  | connect (id : ℤ) (portNumber : UInt16) (ipaddr : IpAddr) (answer : Err)
  /-- `send(id, buffer, length)`, or `send_timed` -/
  | send (id : ℤ) (buffer : List UInt8) (timed : Bool) (answer : SendAnswer)
  /-- `sendto(id, buffer, length, remote_addr, remote_port)`, or `sendto_timed` -/
  | sendto (id : ℤ) (buffer : List UInt8) (timed : Bool) (answer : SendAnswer)
  /-- `recv(id, buffer, length)`, or `recv_timed` -/
  | recv (id : ℤ) (length : UInt32) (timed : Bool)
  /-- `recvfrom(id, buffer, length, ipaddr, port_number)`, or `recvfrom_timed` -/
  | recvfrom (id : ℤ) (length : UInt32) (timed : Bool)
  /-- `set_connection_client_data(id, data)` -/
  | setConnectionClientData (id : ℤ) (data : Option Ptr)
  /-- `get_connection_client_data(id)` -/
  | getConnectionClientData (id : ℤ)
  /-- `join_multicast_group(addr)` -/
  | joinMulticastGroup (addr : IpAddr) (answer : Err)
  /-- `leave_multicast_group(addr)` -/
  | leaveMulticastGroup (addr : IpAddr)
  /-- `request_host_by_name(hostname, dns_server)` -/
  | requestHostByName (hasGateway : Bool) (answer : Err) (ipaddr : IpAddr)
  /-- `get_ipconfig_remote(id)` -/
  | getIpconfigRemote (id : ℤ)
  /-- `get_ipconfig_local(id)` -/
  | getIpconfigLocal (id : ℤ)
  /-- `getsockopt(id, level, option, value, length)` -/
  | getsockopt (id : ℤ) (level : SocketLevel) (option : ℕ) (length : ℕ)
  /-- `setsockopt(id, level, option, value, length)` -/
  | setsockopt (id : ℤ) (level : SocketLevel) (option : ℕ) (value : List UInt8)
  deriving DecidableEq

/-- What a step reports to whoever caused it. -/
inductive Reply
  /-- Nothing. -/
  | unit
  /-- An event. -/
  | event (event : ClientEvent)
  /-- A number: an id, or an error. -/
  | int (result : ℤ)
  /-- An error code. -/
  | code (result : ErrorCode)
  /-- The result of a send, the timestamp read back from the pbuf, and the accesses
  made to the pbuf. -/
  | sent (result : ℤ) (timestamp : Option UInt32) (reads : List PbufRead)
  /-- The result of a receive, the data, the remote host and the timestamp. -/
  | received (result : ℤ) (data : List UInt8) (remote : Host) (timestamp : UInt32)
  /-- The additional data of a client. -/
  | data (data : Option Ptr)
  /-- A host. -/
  | host (host : Host)
  /-- The status of `getsockopt`, and the value of the option. -/
  | sockopt (error : ErrorInt32) (value : UInt8)
  /-- What a callback returns to lwIP. -/
  | err (result : Err)
  deriving DecidableEq

/-- `case i_xtcp[i].get_event`: the call clears the pending notification. -/
def getEvent (s : Server) (i : ℕ) : Server × Reply :=
  let q := { s.queue with eventReady := Function.update s.queue.eventReady i false }
  ({ s with queue := renotify cfg (dequeueEvent cfg q i).1 i }, .event (dequeueEvent cfg q i).2)

/-- `case i_xtcp[i].socket` -/
def socket (s : Server) (i : ℕ) (protocol : Protocol) (answer : Option Ptr) : Server × Reply :=
  let connection := (shimNewSocket cfg s i protocol answer).2
  ((shimNewSocket cfg s i protocol answer).1,
    .int (if connection.status ≠ .success then connection.status.toInt else connection.value))

/-- The part that `send_common` and `sendto_common` share: allocate a pbuf, copy the
buffer into it, send it, and read its timestamp back. -/
def transmit (s : Server) (buffer : List UInt8) (timed : Bool) (answer : SendAnswer)
    (send : Server → Ptr → Except Fault Sent) : Except Fault (Server × Reply) :=
  match pbufShimAllocTx cfg s (UInt16.ofNat buffer.length) timed answer.alloc with
  | (s, none, reads) => .ok (s, .sent ErrorCode.enomem.toInt none reads)
  | (s, some token, reads) => do
    let s' ← copyToPayload s token buffer
    let sent ← send s' token
    .ok (sent.server, .sent sent.result.toInt (pbufShimTokenTimestamp sent.server token)
      (reads ++ readPbuf s token :: sent.reads ++ [readPbuf sent.server token]))

/-- `send_common` -/
def sendCommon (s : Server) (i : ℕ) (id : ℤ) (buffer : List UInt8) (timed : Bool)
    (answer : SendAnswer) : Except Fault (Server × Reply) :=
  let connection := findClientConnection cfg s i id
  if connection.status ≠ .success then .ok (s, .sent connection.status.toInt none [])
  else transmit cfg s buffer timed answer fun s token => shimSend cfg s i id token answer

/-- `sendto_common` -/
def sendtoCommon (s : Server) (i : ℕ) (id : ℤ) (buffer : List UInt8) (timed : Bool)
    (answer : SendAnswer) : Except Fault (Server × Reply) :=
  let connection := findClientConnection cfg s i id
  if connection.status ≠ .success then .ok (s, .sent connection.status.toInt none [])
  -- TCP does not support sendto
  else if getProtocol cfg s id = .tcp then .ok (s, .sent ErrorCode.eprotonosupport.toInt none [])
  else transmit cfg s buffer timed answer fun s token => shimSendto cfg s i id token answer

/-- The part that `recv_common` and `recvfrom_common` share: look at the first
pbuf, then take it off the chain, whether it was long enough or not. -/
def receive (s : Server) (id : ℤ) (length : UInt32) (timed : Bool) (remote : Host) :
    Except Fault (Server × Reply) := do
  let copy ← getRemoteData cfg s id (int32OfUInt32 length)
  let (s, _) ← freeRemoteData cfg s id
  .ok (s, .received
    (if copy.result.status ≠ .success then copy.result.status.toInt else copy.result.value)
    copy.data remote (if timed then copy.timestamp else 0))

/-- `recv_common` -/
def recvCommon (s : Server) (i : ℕ) (id : ℤ) (length : UInt32) (timed : Bool) :
    Except Fault (Server × Reply) :=
  let connection := findClientConnection cfg s i id
  if connection.status ≠ .success then .ok (s, .received connection.status.toInt [] {} 0)
  else receive cfg s id length timed {}

/-- `recvfrom_common` -/
def recvfromCommon (s : Server) (i : ℕ) (id : ℤ) (length : UInt32) (timed : Bool) :
    Except Fault (Server × Reply) :=
  let connection := findClientConnection cfg s i id
  if connection.status ≠ .success then .ok (s, .received connection.status.toInt [] {} 0)
  -- TCP does not support recvfrom
  else if getProtocol cfg s id = .tcp then
    .ok (s, .received ErrorCode.eprotonosupport.toInt [] {} 0)
  else do
    let remote ← getRemote cfg s id
    receive cfg s id length timed remote

/-- `ipv4_multicast_to_mac` -/
def ipv4MulticastToMac (addr : IpAddr) : MacAddr :=
  [0x01, 0x00, 0x5e, addr.b1 &&& 0x7f, addr.b2, addr.b3]

/-- `add_macaddr_filter` and `del_macaddr_filter` -/
def setMacaddrFilter (s : Server) (addr : MacAddr) (present : Bool) : Server :=
  if cfg.ethCfg then { s with macFilter := Function.update s.macFilter addr present } else s

/-- The cases of the server loop that answer a client. -/
def stepCall (s : Server) (i : ℕ) : Call → Except Fault (Server × Reply)
  | .getEvent => .ok (getEvent cfg s i)
  | .socket protocol answer => .ok (socket cfg s i protocol answer)
  | .close id lingers => do .ok (← shimCloseSocket cfg s i id lingers, .unit)
  | .abort id lingers => do .ok (← shimCloseSocket cfg s i id lingers, .unit)
  | .listen id portNumber ipaddr answer =>
    .ok ((shimListen cfg s i id portNumber ipaddr answer).1,
      .code (shimListen cfg s i id portNumber ipaddr answer).2)
  | .connect id portNumber ipaddr answer =>
    let connection := findClientConnection cfg s i id
    if connection.status ≠ .success then .ok (s, .code connection.status)
    else .ok ((shimConnect cfg s i id portNumber ipaddr answer).1,
      .code (shimConnect cfg s i id portNumber ipaddr answer).2)
  | .send id buffer timed answer => sendCommon cfg s i id buffer timed answer
  | .sendto id buffer timed answer => sendtoCommon cfg s i id buffer timed answer
  | .recv id length timed => recvCommon cfg s i id length timed
  | .recvfrom id length timed => recvfromCommon cfg s i id length timed
  | .setConnectionClientData id data =>
    let connection := findClientConnection cfg s i id
    if connection.status ≠ .success then .ok (s, .int connection.status.toInt)
    else .ok ((setConnectionClientData cfg s id data).1,
      .int (setConnectionClientData cfg s id data).2.toInt)
  | .getConnectionClientData id =>
    let connection := findClientConnection cfg s i id
    if connection.status ≠ .success then .ok (s, .data none)
    else .ok (s, .data (getConnectionClientData cfg s id))
  | .joinMulticastGroup addr answer =>
    .ok (setMacaddrFilter cfg (shimJoinMulticastGroup s addr answer).1
      (ipv4MulticastToMac addr) true, .unit)
  | .leaveMulticastGroup addr =>
    .ok (setMacaddrFilter cfg (shimLeaveMulticastGroup s addr).1
      (ipv4MulticastToMac addr) false, .unit)
  | .requestHostByName hasGateway answer ipaddr =>
    if hasGateway then
      .ok ((shimRequestHostByName s i answer ipaddr).1,
        .host (shimRequestHostByName s i answer ipaddr).2)
    else .ok (s, .host {})
  | .getIpconfigRemote id => .ok (s, .host (getRemoteFromPcb cfg s id))
  | .getIpconfigLocal id => .ok (s, .host (getLocalFromPcb cfg s id))
  | .getsockopt id level option length => do
    let (status, value) ← shimGetsockopt cfg s i id level option length
    .ok (s, .sockopt ⟨status, if status = .success then 1 else 0⟩ value)
  | .setsockopt id level option value => do
    let (s, result) ← shimSetsockopt cfg s i id level option value
    .ok (s, .code result)

/-! ### lwIP and the link -/

/-- A callback of lwIP for a TCP control block. -/
inductive TcpCallback
  /-- `LWIP_EVENT_ACCEPT` for a new connection. -/
  | accept
  /-- `LWIP_EVENT_ACCEPT` without a control block, for want of memory. -/
  | acceptFailed
  /-- `LWIP_EVENT_CONNECTED` -/
  | connected
  /-- `LWIP_EVENT_RECV` with a chain of pbufs; with none, when the other side has
  closed the connection. -/
  | recv (cells : List (Ptr × Pbuf))
  /-- `LWIP_EVENT_SENT` -/
  | sent
  /-- `LWIP_EVENT_POLL` -/
  | poll
  /-- `LWIP_EVENT_ERR`; lwIP frees the control block. -/
  | err (err : Err)
  deriving DecidableEq

/-- Something that happens in lwIP or at the link. -/
inductive Happening
  /-- A connection request arrives at the listening `l`: lwIP makes `n` for it. -/
  | syn (l n : Ptr)
  /-- A TCP callback for `pcb` with argument `arg`. -/
  | tcpEvent (pcb : Ptr) (arg : ℤ) (callback : TcpCallback)
  /-- A datagram arrives at `pcb`. -/
  | udpRecv (pcb : Ptr) (arg : ℤ) (cells : List (Ptr × Pbuf)) (addr : Option IpAddr)
      (port : UInt16)
  /-- A DNS request ends. -/
  | dnsFound (hasName : Bool) (ipaddr : Option IpAddr) (arg : ℕ)
  /-- lwIP frees a control block without a word: a closed connection has ended, or
  a connection request has come to nothing. -/
  | reap (pcb : Ptr)
  /-- lwIP gives up a pbuf that was refused. -/
  | dropRefused (p : Ptr)
  /-- A status message of the Ethernet MAC. -/
  | linkStatus (up : Bool)
  /-- A timer tick, with the state of the interface at that moment. -/
  | timeout (timer : ℕ) (hasIpAddress ifState : Bool)
  deriving DecidableEq

/-- The pbufs after a delivery has been written. -/
def deliver (m : Pbufs) (cells : List (Ptr × Pbuf)) : Pbufs := fun q =>
  match cells.lookup q with
  | some b => some b
  | none => m q

/-- The first pbuf of a delivery. -/
def deliveredHead (cells : List (Ptr × Pbuf)) : Option Ptr := cells.head?.map Prod.fst

/-- lwIP aborts the new connection: it raises an error for it, with the argument
the control block has by now, and frees it. -/
def abortAccepted (s : Server) (pcb : Ptr) : Except Fault Server :=
  match s.tcp pcb with
  | none => .ok s
  | some b => do
    let (s, _) ← lwipTcpEvent cfg (tcpFree s pcb) b.callbackArg none .err none .abrt
    .ok s

/-- A TCP callback, and what lwIP makes of its result. -/
def stepTcp (s : Server) (pcb : Ptr) (arg : ℤ) : TcpCallback → Except Fault (Server × Reply)
  | .accept => do
    let (s, result) ← lwipTcpEvent cfg (s.modifyTcp pcb fun b => { b with status := .active })
      arg pcb .accept none .ok
    if result = .ok ∨ result = .abrt then .ok (s, .err result)
    else do
      let s ← abortAccepted cfg s pcb
      .ok (s, .err result)
  | .acceptFailed => do
    let (s, result) ← lwipTcpEvent cfg s arg none .accept none .mem
    .ok (s, .err result)
  | .connected => do
    let (s, result) ← lwipTcpEvent cfg s arg pcb .connected none .ok
    .ok (s, .err result)
  | .recv cells => do
    let (s, result) ← lwipTcpEvent cfg { s with pbufs := deliver s.pbufs cells } arg pcb .recv
      (deliveredHead cells) .ok
    match deliveredHead cells with
    | none => .ok (s, .err result)
    | some p =>
      .ok ({ s with refused := Function.update s.refused p (decide (result ≠ .ok)) }, .err result)
  | .sent => do
    let (s, result) ← lwipTcpEvent cfg s arg pcb .sent none .ok
    .ok (s, .err result)
  | .poll => do
    let (s, result) ← lwipTcpEvent cfg s arg pcb .poll none .ok
    .ok (s, .err result)
  | .err err => do
    let (s, result) ← lwipTcpEvent cfg (tcpFree s pcb) arg none .err none err
    .ok (s, .err result)

/-- `for (unsigned i = 0; i < n_xtcp; ++i) enqueue_event_and_notify(i, 0, event)` -/
def notifyAll (s : Server) (event : EventType) : Server :=
  (List.range cfg.nXtcp).foldl (fun s i => (enqueue cfg s i 0 event).1) s

/-- The cases of the server loop for the link and the timers, and lwIP's own
steps. -/
def stepHappening (s : Server) : Happening → Except Fault (Server × Reply)
  | .syn l n =>
    .ok ({ s with
      tcp := Function.update s.tcp n ((s.tcp l).map fun b =>
        { callbackArg := b.callbackArg
          status := .synRcvd l
          localHost := b.localHost
          prio := b.prio }) }, .unit)
  | .tcpEvent pcb arg callback => stepTcp cfg s pcb arg callback
  | .udpRecv pcb arg cells addr port => do
    let s ← xtcpUdpRecv cfg { s with pbufs := deliver s.pbufs cells } arg pcb
      (deliveredHead cells) addr port
    .ok (s, .unit)
  | .dnsFound hasName ipaddr arg =>
    .ok (xtcpDnsFound cfg { s with dnsRequests := s.dnsRequests.erase arg } hasName ipaddr arg,
      .unit)
  | .reap pcb => .ok (tcpFree s pcb, .unit)
  | .dropRefused p => do
    let m ← pbufFree s.pbufs p
    .ok ({ s with pbufs := m, refused := Function.update s.refused p false }, .unit)
  | .linkStatus up =>
    if up then .ok (s, .unit)
    -- Notify link down
    else .ok (notifyAll cfg { s with netifNotifyState := false } .ifdown, .unit)
  | .timeout timer hasIpAddress ifState =>
    if timer = 0 ∧ hasIpAddress ∧ s.netifNotifyState = false ∧ ifState then
      .ok (notifyAll cfg { s with netifNotifyState := true } .ifup, .unit)
    else .ok (s, .unit)

/-! ### Runs -/

/-- One step of the system. -/
inductive Action
  /-- Client `i` calls. -/
  | call (i : ℕ) (call : Call)
  /-- Something happens in lwIP or at the link. -/
  | happens (happening : Happening)
  deriving DecidableEq

/-- Carry out one step. -/
def step (s : Server) : Action → Except Fault (Server × Reply)
  | .call i call => stepCall cfg s i call
  | .happens happening => stepHappening cfg s happening

/-- There is no control block at `p`. -/
def FreshPcb (s : Server) (p : Ptr) : Prop := s.tcp p = none ∧ s.udp p = none

instance (s : Server) (p : Ptr) : Decidable (FreshPcb s p) := inferInstanceAs (Decidable (_ ∧ _))

/-- The status of the TCP control block at `p`. -/
def pcbStatus (s : Server) (p : Ptr) : Option PcbStatus := (s.tcp p).map TcpPcb.status

/-- The cells of a delivery are linked in their order, with one reference each. -/
def Linked : List (Ptr × Pbuf) → Prop
  | [] => True
  | (_, b) :: cells => b.ref = 1 ∧ b.next = deliveredHead cells ∧ Linked cells

instance decidableLinked : (cells : List (Ptr × Pbuf)) → Decidable (Linked cells)
  | [] => isTrue trivial
  | (_, _) :: cells =>
    have := decidableLinked cells
    inferInstanceAs (Decidable (_ ∧ _ ∧ Linked cells))

/-- The cells of a delivery are no pbufs that exist. -/
def FreshCells (s : Server) (cells : List (Ptr × Pbuf)) : Prop := ∀ c ∈ cells, s.pbufs c.1 = none

instance (s : Server) (cells : List (Ptr × Pbuf)) : Decidable (FreshCells s cells) :=
  inferInstanceAs (Decidable (∀ _ ∈ _, _))

/-- The cells of a delivery are pbufs lwIP kept when they were refused. -/
def RefusedCells (s : Server) (cells : List (Ptr × Pbuf)) : Prop :=
  (deliveredHead cells).any s.refused = true ∧ ∀ c ∈ cells, s.pbufs c.1 = some c.2

instance (s : Server) (cells : List (Ptr × Pbuf)) : Decidable (RefusedCells s cells) :=
  inferInstanceAs (Decidable (_ ∧ ∀ _ ∈ _, _))

/-- `P` holds of the value, if there is one. -/
def IfSome {α : Type*} (o : Option α) (P : α → Prop) : Prop := ∀ a ∈ o, P a

instance {α : Type*} (o : Option α) (P : α → Prop) [DecidablePred P] : Decidable (IfSome o P) :=
  match o with
  | none => isTrue (by simp [IfSome])
  | some a => decidable_of_iff (P a) (by simp [IfSome])

/-- What a call relies on of lwIP's answers. -/
def CallAllowed (s : Server) : Call → Prop
  | .socket _ answer => IfSome answer (FreshPcb s)
  | .listen id _ _ answer =>
    (answer.bind = .ok → IfSome (getTcpPcb cfg s id) fun p => pcbStatus s p = some .closed) ∧
      IfSome answer.listen (FreshPcb s)
  | .connect id _ _ answer =>
    answer = .ok → IfSome (getTcpPcb cfg s id) fun p => pcbStatus s p = some .closed
  | .send _ _ _ answer | .sendto _ _ _ answer => IfSome answer.alloc fun p => s.pbufs p = none
  | _ => True

instance (s : Server) (c : Call) : Decidable (CallAllowed cfg s c) := by
  cases c <;> dsimp only [CallAllowed] <;> infer_instance

/-- What a control block with a given status may raise. -/
def Raises (s : Server) (status : PcbStatus) : TcpCallback → Prop
  | .accept =>
    match status with
    | .synRcvd l => pcbStatus s l = some .listen
    | _ => False
  | .acceptFailed => status = .listen
  | .connected => status = .active
  | .recv cells =>
    (Linked cells ∧ (cells.map Prod.fst).Nodup ∧ (FreshCells s cells ∨ RefusedCells s cells)) ∧
      match status with
      | .active => True
      -- data that arrives after `tcp_close` makes lwIP abort the connection
      | .closing _ => cells = []
      | _ => False
  | .sent | .poll =>
    match status with
    | .active | .closing _ => True
    | _ => False
  | .err _ =>
    match status with
    | .active | .closing _ | .synRcvd _ => True
    | _ => False

instance (s : Server) (status : PcbStatus) (callback : TcpCallback) :
    Decidable (Raises s status callback) := by
  cases callback <;> cases status <;> dsimp only [Raises] <;> infer_instance

/-- What may happen in lwIP and at the link. -/
def HappeningAllowed (s : Server) : Happening → Prop
  | .syn l n => pcbStatus s l = some .listen ∧ FreshPcb s n
  | .tcpEvent pcb arg callback =>
    match s.tcp pcb with
    | some b => b.callbackArg = arg ∧ Raises s b.status callback
    | none => False
  | .udpRecv pcb arg cells _ _ =>
    (s.udp pcb).bind UdpPcb.recvArg = some arg ∧ Linked cells ∧ (cells.map Prod.fst).Nodup ∧
      FreshCells s cells
  | .dnsFound _ _ arg => arg ∈ s.dnsRequests
  | .reap pcb =>
    match pcbStatus s pcb with
    | some (.closing _) | some (.synRcvd _) => True
    | _ => False
  | .dropRefused p => s.refused p = true
  | .linkStatus _ | .timeout _ _ _ => True

instance (s : Server) (h : Happening) : Decidable (HappeningAllowed s h) := by
  cases h <;> dsimp only [HappeningAllowed] <;> first | infer_instance | (split <;> infer_instance)

/-- What may come next: a call of an attached client, or something that happens. -/
def Allowed (s : Server) : Action → Prop
  | .call i call => i < cfg.nXtcp ∧ CallAllowed cfg s call
  | .happens happening => HappeningAllowed s happening

instance (s : Server) (a : Action) : Decidable (Allowed cfg s a) := by
  cases a <;> dsimp only [Allowed] <;> infer_instance

/-- The state in which the server loop starts. -/
def init : Server :=
  initClientConnections cfg { Server.static with queue := xtcpInitQueue Server.static.queue }

/-- A history of the server that meets a condition `C` at every step. -/
def RunsTo (C : Server → Action → Prop) (tr : List (Action × Reply)) (s : Server) : Prop :=
  Runs.Run (step cfg) (fun s a => Allowed cfg s a ∧ C s a) (init cfg) tr s

/-- The states the server can come to. -/
def Reachable (s : Server) : Prop := ∃ tr, RunsTo cfg (fun _ _ => True) tr s

end Xtcp
