import Xtcp.ClientQueue
import Xtcp.Lwip

/-!
# The state of the server

All static state of the library, next to what it relies on of lwIP: the pbufs and
the control blocks that exist, the pbufs lwIP keeps because a callback refused
them, the DNS requests under way, the multicast groups joined, and the address
filter of the Ethernet MAC.

The functions at the end are lwIP's and lib_ethernet's calls.  Where lwIP has a
choice — to find memory, to accept a port, to keep a closed connection alive —
the choice is an argument.

## Main definitions

* `PcbUnion`, `ConnectionEntry` — an entry of the connection table.
* `Server` — the state.
* `Server.setEntry`, `Server.modifyTcp`, `Server.modifyUdp` — writing one entry.
* `tcpNewIpType`, `tcpArg`, `tcpClose`, `tcpListen`, … — the calls into lwIP.
-/

namespace Xtcp

/-- `union pcb`, with the member written last. -/
inductive PcbUnion
  /-- `NULL` -/
  | null
  /-- Written through `tcp`. -/
  | tcp (p : Ptr)
  /-- Written through `udp`. -/
  | udp (p : Ptr)
  deriving DecidableEq, Repr, Inhabited

/-- The address in the union: both members are pointers, so it is read back
whichever member was written. -/
def PcbUnion.addr : PcbUnion → Option Ptr
  | .null => none
  | .tcp p => some p
  | .udp p => some p

/-- The union after a pointer has been stored through `tcp`. -/
def PcbUnion.ofTcp : Option Ptr → PcbUnion
  | none => .null
  | some p => .tcp p

/-- The union after a pointer has been stored through `udp`. -/
def PcbUnion.ofUdp : Option Ptr → PcbUnion
  | none => .null
  | some p => .udp p

/-- `connection_entry_t` -/
structure ConnectionEntry where
  /-- `is_active` -/
  isActive : Bool := false
  /-- `client_num` -/
  clientNum : ℕ := 0
  /-- `protocol` -/
  protocol : Protocol := .none
  /-- `pcb` -/
  pcb : PcbUnion := .null
  /-- `pbuf`: the first of the pbufs received. -/
  pbuf : Option Ptr := none
  /-- `client_data` -/
  clientData : Option Ptr := none
  deriving DecidableEq, Repr, Inhabited

/-- The fields that `free_client_connection` resets. -/
def ConnectionEntry.released (e : ConnectionEntry) : ConnectionEntry :=
  { e with
    isActive := false
    clientNum := deinit
    protocol := .none
    pcb := .null
    clientData := none }

/-- A MAC address. -/
abbrev MacAddr := List UInt8

/-- The state of the server and of what it relies on. -/
structure Server where
  /-- `connections` -/
  connections : ℤ → ConnectionEntry
  /-- `last_guid`, the static variable of `assign_client_connection` -/
  lastGuid : ℤ
  /-- The state of `client_queue.c`. -/
  queue : ClientQueue
  /-- `netif_notify_state` -/
  netifNotifyState : Bool
  /-- The pbufs that exist. -/
  pbufs : Pbufs
  /-- The pbufs lwIP keeps to deliver them again. -/
  refused : Ptr → Bool
  /-- The TCP control blocks that exist. -/
  tcp : Ptr → Option TcpPcb
  /-- The UDP control blocks that exist. -/
  udp : Ptr → Option UdpPcb
  /-- The callback arguments of the DNS requests under way. -/
  dnsRequests : List ℕ
  /-- How often each multicast group has been joined. -/
  igmpJoins : IpAddr → ℕ
  /-- The addresses the Ethernet MAC lets through. -/
  macFilter : MacAddr → Bool

namespace Server

/-- The program before any of its functions has run. -/
def static : Server where
  connections := fun _ => {}
  lastGuid := 0
  queue := .static
  netifNotifyState := false
  pbufs := fun _ => none
  refused := fun _ => false
  tcp := fun _ => none
  udp := fun _ => none
  dnsRequests := []
  igmpJoins := fun _ => 0
  macFilter := fun _ => false

/-- Write one entry of the connection table. -/
def setEntry (s : Server) (index : ℤ) (e : ConnectionEntry) : Server :=
  { s with connections := Function.update s.connections index e }

/-- Write fields of one TCP control block. -/
def modifyTcp (s : Server) (p : Ptr) (f : TcpPcb → TcpPcb) : Server :=
  { s with tcp := Function.update s.tcp p ((s.tcp p).map f) }

/-- Write fields of one UDP control block. -/
def modifyUdp (s : Server) (p : Ptr) (f : UdpPcb → UdpPcb) : Server :=
  { s with udp := Function.update s.udp p ((s.udp p).map f) }

end Server

/-! ### Calls into lwIP -/

/-- `tcp_new_ip_type`, when lwIP finds the address `p` for the control block. -/
def tcpNewIpType (s : Server) (p : Ptr) : Server :=
  { s with tcp := Function.update s.tcp p (some {}) }

/-- `udp_new_ip_type`, when lwIP finds the address `p` for the control block. -/
def udpNewIpType (s : Server) (p : Ptr) : Server :=
  { s with udp := Function.update s.udp p (some {}) }

/-- `tcp_arg` -/
def tcpArg (s : Server) (p : Ptr) (arg : ℤ) : Server :=
  s.modifyTcp p fun b => { b with callbackArg := arg }

/-- `tcp_setprio` -/
def tcpSetprio (s : Server) (p : Ptr) (prio : ℕ) : Server :=
  s.modifyTcp p fun b => { b with prio := prio }

/-- `tcp_recved` -/
def tcpRecved (s : Server) (p : Ptr) (length : ℕ) : Server :=
  s.modifyTcp p fun b => { b with recved := b.recved + length }

/-- `tcp_close` of the control block of slot `id`.  A connection may stay alive
until the other side has closed it too; anything else is freed at once. -/
def tcpClose (s : Server) (p : Ptr) (id : ℤ) (lingers : Bool) : Server :=
  { s with
    tcp := Function.update s.tcp p <| (s.tcp p).bind fun b =>
      if b.status = .active ∧ lingers then some { b with status := .closing id } else none }

/-- `tcp_bind`, given lwIP's answer. -/
def tcpBind (s : Server) (p : Ptr) (host : Host) (answer : Err) : Server :=
  if answer = .ok then s.modifyTcp p fun b => { b with localHost := host } else s

/-- `tcp_listen`, when lwIP finds the address `l` for the listening control block:
it takes over the fields of `p`, and `p` is freed. -/
def tcpListen (s : Server) (p l : Ptr) : Server :=
  { s with
    tcp := Function.update (Function.update s.tcp p none) l
      ((s.tcp p).map fun b => { b with status := .listen }) }

/-- `tcp_connect`, given lwIP's answer. -/
def tcpConnect (s : Server) (p : Ptr) (host : Host) (answer : Err) : Server :=
  if answer = .ok then s.modifyTcp p fun b => { b with status := .active, remoteHost := host }
  else s

/-- `tcp_write`, given lwIP's answer. -/
def tcpWrite (s : Server) (p : Ptr) (bytes : List UInt8) (answer : Err) : Server :=
  if answer = .ok then s.modifyTcp p fun b => { b with written := b.written ++ bytes } else s

/-- lwIP frees a TCP control block. -/
def tcpFree (s : Server) (p : Ptr) : Server :=
  { s with tcp := Function.update s.tcp p none }

/-- `udp_remove` -/
def udpRemove (s : Server) (p : Ptr) : Server :=
  { s with udp := Function.update s.udp p none }

/-- `udp_bind`, given lwIP's answer. -/
def udpBind (s : Server) (p : Ptr) (host : Host) (answer : Err) : Server :=
  if answer = .ok then s.modifyUdp p fun b => { b with localHost := host } else s

/-- `udp_connect`, given lwIP's answer. -/
def udpConnect (s : Server) (p : Ptr) (host : Host) (answer : Err) : Server :=
  if answer = .ok then s.modifyUdp p fun b => { b with connected := true, remoteHost := host }
  else s

/-- `udp_recv`: register `xtcp_udp_recv` with an argument. -/
def udpRecv (s : Server) (p : Ptr) (arg : ℤ) : Server :=
  s.modifyUdp p fun b => { b with recvArg := some arg }

end Xtcp
