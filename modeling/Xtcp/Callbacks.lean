import Xtcp.LwipShim

/-!
# The callbacks of lwIP

`tcp_transport.c`, `udp_recv.c` and `dns_found.c`: the functions lwIP calls when
something happens on a connection.  Each one gets back the argument that was
registered for it — the index of a slot, or the number of a client — and queues
an event for the client.

## Main definitions

* `lwipTcpEvent` — `lwip_tcp_event`, one function for each event.
* `xtcpUdpRecv` — `xtcp_udp_recv`.
* `xtcpDnsFound` — `xtcp_dns_found`.
-/

namespace Xtcp

variable (cfg : Config)

/-- `enqueue_event_and_notify` on the queues of the server. -/
def enqueue (s : Server) (clientNum : ℕ) (id : ℤ) (xtcpEvent : EventType) : Server × ErrorCode :=
  ({ s with queue := (enqueueEventAndNotify cfg s.queue clientNum id xtcpEvent).1 },
    (enqueueEventAndNotify cfg s.queue clientNum id xtcpEvent).2)

/-! ### TCP events -/

/-- `LWIP_EVENT_ACCEPT` -/
def eventAccept (s : Server) (index : ℤ) (clientNum : ℕ) (pcb : Option Ptr) (err : Err) :
    Server × Err :=
  match pcb with
  | none => (s, .val)
  | some newPcb =>
    -- LwIP failed to create new socket while trying to accept connection.
    if err ≠ .ok then (s, .val)
    else
      -- Lowering the PCB priority allows older connections to be aborted
      let s := tcpSetprio s newPcb tcpPrioMin
      let accepted := (shimAccept cfg s clientNum newPcb index).2
      let s := (shimAccept cfg s clientNum newPcb index).1
      if accepted.status ≠ .success then (s, .mem)
      else
        ((enqueue cfg s clientNum accepted.value .accepted).1,
          -- Have lwip abort the connection
          if (enqueue cfg s clientNum accepted.value .accepted).2 ≠ .success then .inprogress
          else .ok)

/-- `LWIP_EVENT_CONNECTED` -/
def eventConnected (s : Server) (index : ℤ) (clientNum : ℕ) : Server × Err :=
  ((enqueue cfg s clientNum index .newConnection).1, .ok)

/-- `LWIP_EVENT_RECV` -/
def eventRecv (s : Server) (index : ℤ) (clientNum : ℕ) (p : Option Ptr) :
    Except Fault (Server × Err) :=
  match p with
  -- Closed by remote host
  | none => .ok ((enqueue cfg s clientNum index .closed).1, .ok)
  | some p => do
    let (s, _) ← setRemote cfg s index none 0 p
    if (enqueue cfg s clientNum index .recvData).2 ≠ .success then do
      let (s, _) ← unlinkRemote cfg (enqueue cfg s clientNum index .recvData).1 index p
      -- refuse data as queue failed
      .ok (s, .inprogress)
    else .ok ((enqueue cfg s clientNum index .recvData).1, .ok)

/-- `LWIP_EVENT_SENT` -/
def eventSent (s : Server) (index : ℤ) (clientNum : ℕ) : Server × Err :=
  ((enqueue cfg s clientNum index .sentData).1, .ok)

/-- The event that tells a client about an error, if there is one. -/
def errorEvent : Err → Option EventType
  | .abrt => some .aborted
  | .rst | .clsd => some .timedOut
  | _ => none

/-- `LWIP_EVENT_ERR` -/
def eventErr (s : Server) (index : ℤ) (clientNum : ℕ) (err : Err) : Server × Err :=
  let s :=
    match errorEvent err with
    | some xtcpEvent => (enqueue cfg s clientNum index xtcpEvent).1
    | none => s
  -- do we free here, the application then has no connection to reference?
  (freeClientConnection cfg s index, .ok)

/-- `lwip_tcp_event`.  `arg` is the index in the connection array. -/
def lwipTcpEvent (s : Server) (arg : ℤ) (pcb : Option Ptr) (e : LwipEvent) (p : Option Ptr)
    (err : Err) : Except Fault (Server × Err) :=
  if cfg.InRange arg then
    let clientNum := getClientInfo cfg s arg
    match e with
    | .accept => .ok (eventAccept cfg s arg clientNum pcb err)
    | .connected => .ok (eventConnected cfg s arg clientNum)
    | .recv => eventRecv cfg s arg clientNum p
    | .sent => .ok (eventSent cfg s arg clientNum)
    | .err => .ok (eventErr cfg s arg clientNum err)
    | .poll => .ok (s, .ok)
  else .ok (s, .mem)

/-! ### UDP and DNS -/

/-- The event `xtcp_udp_recv` queues. -/
def udpRecvEvent (s : Server) (upcb : Ptr) : EventType :=
  if ((s.udp upcb).map UdpPcb.connected).getD false then .recvData else .recvFromData

/-- `xtcp_udp_recv` -/
def xtcpUdpRecv (s : Server) (arg : ℤ) (upcb : Ptr) (p : Option Ptr) (addr : Option IpAddr)
    (port : UInt16) : Except Fault Server :=
  match p with
  | none => .ok s
  | some p =>
    if cfg.InRange arg then do
      let (s, _) ← setRemote cfg s arg addr port p
      let queued := enqueue cfg s (getClientInfo cfg s arg) arg (udpRecvEvent s upcb)
      if queued.2 ≠ .success then do
        -- Free the pbuf since we couldn't enqueue the event
        let m ← pbufFree s.pbufs p
        .ok { queued.1 with pbufs := m }
      else .ok queued.1
    else .ok s

/-- The result `xtcp_dns_found` reports in place of a connection. -/
def dnsResult (clientNum : ℕ) (hasName : Bool) (ipaddr : Option IpAddr) : ErrorCode :=
  if clientNum < cfg.maxXtcpClients ∧ hasName then
    if ipaddr.isSome then .success else .enomem
  else .einval

/-- `xtcp_dns_found` -/
def xtcpDnsFound (s : Server) (hasName : Bool) (ipaddr : Option IpAddr) (callbackArg : ℕ) :
    Server :=
  (enqueue cfg s callbackArg (dnsResult cfg callbackArg hasName ipaddr).toInt .dnsResult).1

end Xtcp
