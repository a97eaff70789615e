import Xtcp.State

/-!
# The connection table

`connection.c`: a table of slots, each with its owner, its protocol, its lwIP
control block and a chain of received pbufs linked through lwIP's own `next`
pointers.

A function that follows the chain can meet a pbuf that is no longer there, or
never come to its end; it then returns a `Fault` where the C function has
undefined behaviour or does not return.

## Main definitions

* `initClientConnections`, `findClientConnection`, `assignClientConnection`,
  `freeClientConnection`, `clearPendingRxDataOnConnection` — slots.
* `setUdpPcb`, `setTcpPcb`, `getUdpPcb`, `getTcpPcb`, `getProtocol`,
  `getClientInfo`, `isActive` — their fields.
* `setRemote`, `getRemote`, `getRemoteData`, `freeRemoteData`, `unlinkRemote` —
  received data.
-/

namespace Xtcp

variable (cfg : Config)

/-- `init_client_connections` -/
def initClientConnections (s : Server) : Server :=
  { s with
    connections := fun i =>
      if cfg.InRange i then { (s.connections i).released with pbuf := none }
      else s.connections i }

/-- `find_client_connection` -/
def findClientConnection (s : Server) (clientNum : ℕ) (id : ℤ) : ErrorInt32 :=
  match (List.range cfg.maxOpenSockets).find? fun i : ℕ =>
      decide ((s.connections i).clientNum = clientNum ∧ (i : ℤ) = id) with
  | some i => ⟨.success, i⟩
  | none => ⟨.einval, -1⟩

/-- `free_client_connection` -/
def freeClientConnection (s : Server) (index : ℤ) : Server :=
  if cfg.InRange index then s.setEntry index (s.connections index).released else s

/-- The index that `assign_client_connection` examines in round `i`. -/
def assignIndex (s : Server) (i : ℕ) : ℤ :=
  let index := s.lastGuid + i
  if index ≥ cfg.maxOpenSockets then index - cfg.maxOpenSockets else index

/-- The slot the scan of `assign_client_connection` stops at. -/
def freeSlot (s : Server) : Option ℤ :=
  ((List.range cfg.maxOpenSockets).find? fun i : ℕ =>
    !(s.connections (assignIndex cfg s i)).isActive).map (assignIndex cfg s)

/-- `assign_client_connection` -/
def assignClientConnection (s : Server) (clientNum : ℕ) (protocol : Protocol) :
    Server × ErrorInt32 :=
  match freeSlot cfg s with
  | some index =>
    ({ s.setEntry index
        { s.connections index with
          isActive := true
          clientNum := clientNum
          protocol := protocol
          pcb := .null } with
        lastGuid := index + 1 }, ⟨.success, index⟩)
  | none => (s, ⟨.enomem, -1⟩)

/-- `is_active` -/
def isActive (s : Server) (index : ℤ) : ErrorInt32 :=
  if cfg.InRange index then ⟨.success, if (s.connections index).isActive then 1 else 0⟩
  else ⟨.einval, -1⟩

/-- `set_udp_pcb` -/
def setUdpPcb (s : Server) (index : ℤ) (udpPcb : Option Ptr) : Server × ErrorCode :=
  if cfg.InRange index ∧ (s.connections index).protocol = .udp then
    (s.setEntry index { s.connections index with pcb := .ofUdp udpPcb }, .success)
  else (s, .einval)

/-- `set_tcp_pcb` -/
def setTcpPcb (s : Server) (index : ℤ) (tcpPcb : Option Ptr) : Server × ErrorCode :=
  if cfg.InRange index ∧ (s.connections index).protocol = .tcp then
    (s.setEntry index { s.connections index with pcb := .ofTcp tcpPcb }, .success)
  else (s, .einval)

/-- `get_protocol` -/
def getProtocol (s : Server) (index : ℤ) : Protocol :=
  if cfg.InRange index then (s.connections index).protocol else .none

/-- `get_udp_pcb` -/
def getUdpPcb (s : Server) (index : ℤ) : Option Ptr :=
  if cfg.InRange index ∧ (s.connections index).protocol = .udp then
    (s.connections index).pcb.addr
  else none

/-- `get_tcp_pcb` -/
def getTcpPcb (s : Server) (index : ℤ) : Option Ptr :=
  if cfg.InRange index ∧ (s.connections index).protocol = .tcp then
    (s.connections index).pcb.addr
  else none

/-- `get_client_info` -/
def getClientInfo (s : Server) (index : ℤ) : ℕ :=
  if cfg.InRange index then (s.connections index).clientNum else deinit

/-- `set_connection_client_data` -/
def setConnectionClientData (s : Server) (index : ℤ) (data : Option Ptr) : Server × ErrorCode :=
  if cfg.InRange index then
    (s.setEntry index { s.connections index with clientData := data }, .success)
  else (s, .einval)

/-- `get_connection_client_data` -/
def getConnectionClientData (s : Server) (index : ℤ) : Option Ptr :=
  if cfg.InRange index then (s.connections index).clientData else none

/-- `get_remote_from_pcb` -/
def getRemoteFromPcb (s : Server) (index : ℤ) : Host :=
  match getProtocol cfg s index with
  | .tcp => (((getTcpPcb cfg s index).bind s.tcp).map TcpPcb.remoteHost).getD {}
  | .udp => (((getUdpPcb cfg s index).bind s.udp).map UdpPcb.remoteHost).getD {}
  | .none => {}

/-- `get_local_from_pcb` -/
def getLocalFromPcb (s : Server) (index : ℤ) : Host :=
  match getProtocol cfg s index with
  | .tcp => (((getTcpPcb cfg s index).bind s.tcp).map TcpPcb.localHost).getD {}
  | .udp => (((getUdpPcb cfg s index).bind s.udp).map UdpPcb.localHost).getD {}
  | .none => {}

/-! ### Received data -/

/-- `for (pbuf_queue = p; pbuf_queue->next != NULL; pbuf_queue = pbuf_queue->next);`
with a bound on the number of rounds. -/
def lastPbuf : ℕ → Pbufs → Ptr → Except Fault Ptr
  | 0, _, _ => .error .endless
  | n + 1, m, p =>
    match m p with
    | none => .error .badPbuf
    | some b =>
      match b.next with
      | none => .ok p
      | some q => lastPbuf n m q

/-- `set_remote` -/
def setRemote (s : Server) (index : ℤ) (remote : Option IpAddr) (portNumber : UInt16)
    (pbuf : Option Ptr) : Except Fault (Server × ErrorCode) :=
  if cfg.InRange index then
    match pbuf with
    | none => .ok (s, .einval)
    | some p => do
      let b ← s.pbufs.load p
      let m := Function.update s.pbufs p (some { b with remote := ⟨remote.getD {}, portNumber⟩ })
      match (s.connections index).pbuf with
      | some head => do
        -- Find last pbuf in queue
        let last ← lastPbuf addressSpace m head
        let lb ← Pbufs.load m last
        .ok ({ s with pbufs := Function.update m last (some { lb with next := some p }) },
          .success)
      | none =>
        .ok ({ s.setEntry index { s.connections index with pbuf := some p } with pbufs := m },
          .success)
  else .ok (s, .einval)

/-- `get_remote` -/
def getRemote (s : Server) (index : ℤ) : Except Fault Host :=
  if cfg.InRange index then
    match (s.connections index).pbuf with
    | some p => do
      let b ← s.pbufs.load p
      .ok b.remote
    | none => .ok {}
  else .ok {}

/-- What `get_remote_data` returns through its result and its pointers. -/
structure RemoteData where
  /-- The status, and the number of bytes. -/
  result : ErrorInt32
  /-- The bytes `*data` points to. -/
  data : List UInt8
  /-- `*timestamp` -/
  timestamp : UInt32

/-- `get_remote_data` -/
def getRemoteData (s : Server) (index : ℤ) (length : ℤ) : Except Fault RemoteData :=
  if cfg.InRange index then
    match (s.connections index).pbuf with
    | some p => do
      let b ← s.pbufs.load p
      if length < b.len then .ok ⟨⟨.eagain, -1⟩, [], b.timestamp⟩
      else .ok ⟨⟨.success, b.len⟩, b.payload.bytes, b.timestamp⟩
    | none => .ok ⟨⟨.einval, -1⟩, [], 0⟩
  else .ok ⟨⟨.einval, -1⟩, [], 0⟩

/-- `free_remote_data` -/
def freeRemoteData (s : Server) (index : ℤ) : Except Fault (Server × ErrorCode) :=
  if cfg.InRange index then
    match (s.connections index).pbuf with
    | some p => do
      -- Remove the first pbuf from the queue and free it
      let b ← s.pbufs.load p
      let length := b.len
      let s' := s.setEntry index { s.connections index with pbuf := b.next }
      let m ← pbufFree (Function.update s.pbufs p (some { b with next := none })) p
      let s' := { s' with pbufs := m }
      -- For TCP we need to indicate to LwIP that we have processed the data
      if (s.connections index).protocol = .tcp then
        match getTcpPcb cfg s index with
        | some tcpPcb => .ok (tcpRecved s' tcpPcb length, .success)
        | none => .ok (s', .success)
      else .ok (s', .success)
    | none => .ok (s, .einval)
  else .ok (s, .einval)

/-- The loop of `unlink_remote`: the pbuf before the one looked for, if the one
looked for is in the chain. -/
def findPbuf : ℕ → Pbufs → Ptr → Option Ptr → Option Ptr → Except Fault (Option (Option Ptr))
  | _, _, _, _, none => .ok none
  | 0, _, _, _, some _ => .error .endless
  | n + 1, m, pbuf, previous, some current =>
    if current = pbuf then .ok (some previous)
    else
      match m current with
      | none => .error .badPbuf
      | some b => findPbuf n m pbuf (some current) b.next

/-- `unlink_remote` -/
def unlinkRemote (s : Server) (index : ℤ) (pbuf : Option Ptr) :
    Except Fault (Server × ErrorCode) :=
  match pbuf with
  | none => .ok (s, .einval)
  | some p =>
    if cfg.InRange index then do
      let found ← findPbuf addressSpace s.pbufs p none (s.connections index).pbuf
      match found with
      | none => .ok (s, .einval)
      | some previous => do
        let b ← s.pbufs.load p
        match previous with
        | none =>
          -- It's the first pbuf in the list
          .ok ({ s.setEntry index { s.connections index with pbuf := b.next } with
              pbufs := Function.update s.pbufs p (some { b with next := none }) }, .success)
        | some r => do
          let rb ← s.pbufs.load r
          let m := Function.update s.pbufs r (some { rb with next := b.next })
          .ok ({ s with pbufs := Function.update m p (some { b with next := none }) }, .success)
    else .ok (s, .einval)

/-- `clear_pending_rx_data_on_connection` -/
def clearPendingRxDataOnConnection (s : Server) (index : ℤ) : Except Fault Server :=
  if cfg.InRange index then
    match (s.connections index).pbuf with
    | some p => do
      let b ← s.pbufs.load p
      let s' :=
        if (s.connections index).protocol = .tcp then
          match (s.connections index).pcb.addr with
          | some tcpPcb => tcpRecved s tcpPcb b.totLen
          | none => s
        else s
      let m ← pbufFree s.pbufs p
      .ok { s'.setEntry index { s.connections index with pbuf := none } with pbufs := m }
    | none => .ok s
  else .ok s

end Xtcp
