import Xtcp.Connection

/-!
# The calls of a client

`lwip_shim.c` and `pbuf_shim.c`: what the server does for a client's call once
it has been received.  Each function finds the client's slot, then works on the
control block stored there.

What lwIP answers on the way is an argument of the function.  A send also
returns the list of the accesses it made to its transmit pbuf, and whether the
pbuf still existed at each of them.

## Main definitions

* `shimNewSocket`, `shimCloseSocket`, `shimListen`, `shimAccept`, `shimConnect` —
  the life of a socket.
* `shimSend`, `shimSendto`, `pbufShimAllocTx` — transmission.
* `shimGetsockopt`, `shimSetsockopt` — socket options.
* `shimJoinMulticastGroup`, `shimLeaveMulticastGroup`, `shimRequestHostByName` —
  the rest.
-/

namespace Xtcp

variable (cfg : Config)

/-! ### Sockets -/

/-- `shim_new_socket`, given the control block lwIP finds. -/
def shimNewSocket (s : Server) (clientNum : ℕ) (protocol : Protocol) (answer : Option Ptr) :
    Server × ErrorInt32 :=
  let connection := (assignClientConnection cfg s clientNum protocol).2
  let s := (assignClientConnection cfg s clientNum protocol).1
  if connection.status ≠ .success then (s, connection)
  else
    match protocol, answer with
    | .udp, none => (s, ⟨.enomem, -1⟩)
    | .udp, some udpPcb =>
      let stored := setUdpPcb cfg (udpNewIpType s udpPcb) connection.value udpPcb
      if stored.2.toInt < 0 then (udpRemove stored.1 udpPcb, ⟨.einval, -1⟩)
      else (stored.1, connection)
    | .tcp, none => (s, ⟨.enomem, -1⟩)
    | .tcp, some tcpPcb =>
      let stored := setTcpPcb cfg (tcpNewIpType s tcpPcb) connection.value tcpPcb
      if stored.2.toInt < 0 then
        (tcpClose stored.1 tcpPcb connection.value false, ⟨.einval, -1⟩)
      else (stored.1, connection)
    | .none, _ => (s, connection)

/-- The control block of a slot is given back to lwIP; `lingers` says whether a
TCP connection stays alive until the other side has closed it too. -/
def closePcb (s : Server) (id : ℤ) (lingers : Bool) : Server :=
  match getProtocol cfg s id with
  | .udp =>
    match getUdpPcb cfg s id with
    | some udpPcb => udpRemove s udpPcb
    | none => s
  | .tcp =>
    match getTcpPcb cfg s id with
    | some tcpPcb => tcpClose s tcpPcb id lingers
    | none => s
  | .none => s

/-- `shim_close_socket` -/
def shimCloseSocket (s : Server) (clientNum : ℕ) (id : ℤ) (lingers : Bool) :
    Except Fault Server :=
  if (findClientConnection cfg s clientNum id).status ≠ .success then .ok s
  else do
    let s := { s with queue := (freeNotificationsOnQueue cfg s.queue clientNum id).1 }
    let s ← clearPendingRxDataOnConnection cfg s id
    .ok (freeClientConnection cfg (closePcb cfg s id lingers) id)

/-- What lwIP answers during `shim_listen`. -/
structure ListenAnswer where
  /-- The result of `tcp_bind` or `udp_bind`. -/
  bind : Err
  /-- The control block `tcp_listen` finds. -/
  listen : Option Ptr
  deriving DecidableEq

/-- `shim_listen` -/
def shimListen (s : Server) (clientNum : ℕ) (id : ℤ) (portNumber : UInt16) (ipaddr : IpAddr)
    (answer : ListenAnswer) : Server × ErrorCode :=
  let connection := findClientConnection cfg s clientNum id
  if connection.status ≠ .success then (s, connection.status)
  else
    match getProtocol cfg s id with
    | .tcp =>
      match getTcpPcb cfg s id with
      | none => (s, .einval)
      | some tcpPcb =>
        let s := tcpBind s tcpPcb ⟨ipaddr, portNumber⟩ answer.bind
        if answer.bind = .ok then
          -- Listen will cycle pcb giving us a listen pcb
          match answer.listen with
          | none => (s, .einval)
          | some listenPcb =>
            let s := (setTcpPcb cfg (tcpListen s tcpPcb listenPcb) id listenPcb).1
            (tcpArg s listenPcb id, .success)
        else if answer.bind = .use then (s, .einuse)
        else (s, .einval)
    | .udp =>
      match getUdpPcb cfg s id with
      | none => (s, .einval)
      | some udpPcb =>
        let s := udpBind s udpPcb ⟨ipaddr, portNumber⟩ answer.bind
        if answer.bind = .ok then (udpRecv s udpPcb id, .success) else (s, .einval)
    | .none => (s, .einval)

/-- `shim_accept` -/
def shimAccept (s : Server) (clientNum : ℕ) (newPcb : Option Ptr) (oldId : ℤ) :
    Server × ErrorInt32 :=
  match getProtocol cfg s oldId with
  | .udp => (s, ⟨.eprotonosupport, -1⟩)
  | .tcp =>
    match newPcb with
    | none => (s, ⟨.einval, -1⟩)
    | some newPcb =>
      -- Accepting connection provides us with a new PCB, so assign new connection id
      let connection := (assignClientConnection cfg s clientNum .tcp).2
      let s := (assignClientConnection cfg s clientNum .tcp).1
      if connection.status ≠ .success then (s, connection)
      else (tcpArg (setTcpPcb cfg s connection.value newPcb).1 newPcb connection.value, connection)
  | .none => (s, ⟨.einval, -1⟩)

/-- `shim_connect`, given the result of `tcp_connect` or `udp_connect`. -/
def shimConnect (s : Server) (clientNum : ℕ) (id : ℤ) (portNumber : UInt16) (ipaddr : IpAddr)
    (answer : Err) : Server × ErrorCode :=
  let connection := findClientConnection cfg s clientNum id
  if connection.status ≠ .success then (s, connection.status)
  else
    match getProtocol cfg s id with
    | .tcp =>
      match getTcpPcb cfg s id with
      | none => (s, .einval)
      | some tcpPcb =>
        let s := tcpConnect s tcpPcb ⟨ipaddr, portNumber⟩ answer
        if answer = .ok then (s, .success) else (s, .einval)
    | .udp =>
      match getUdpPcb cfg s id with
      | none => (s, .einval)
      | some udpPcb =>
        let s := udpConnect s udpPcb ⟨ipaddr, portNumber⟩ answer
        if answer = .ok then (udpRecv s udpPcb id, .success) else (s, .einval)
    | .none => (s, .einval)

/-! ### Transmission -/

/-- What lwIP answers during a send. -/
structure SendAnswer where
  /-- The address `pbuf_alloc` finds. -/
  alloc : Option Ptr
  /-- The result of `tcp_write`. -/
  write : Err
  /-- The result of `tcp_output`. -/
  output : Err
  /-- The result of `udp_send` or `udp_sendto`. -/
  udpSend : Err
  /-- The time at which the driver transmits a timestamped pbuf. -/
  timestamp : UInt32
  /-- Whether `udp_send` or `udp_sendto` keeps a reference to the pbuf, to transmit it once the
  address of the next hop is known. -/
  keeps : Bool
  deriving DecidableEq

/-- An access to a transmit pbuf. -/
structure PbufRead where
  /-- The address, `none` for `NULL`. -/
  token : Option Ptr
  /-- Whether there is a pbuf at that address. -/
  live : Bool
  deriving DecidableEq

/-- The record of an access to `token` in state `s`. -/
def readPbuf (s : Server) (token : Option Ptr) : PbufRead :=
  ⟨token, (token.bind s.pbufs).isSome⟩

/-- `pbuf_shim_alloc_tx`.  The debug message of the failing branch reads
`p->tot_len`. -/
def pbufShimAllocTx (s : Server) (length : UInt16) (sendTimed : Bool) (answer : Option Ptr) :
    Server × Option Ptr × List PbufRead :=
  match answer with
  | none => (s, none, if cfg.debugPrint then [readPbuf s none] else [])
  | some p =>
    let m := pbufAlloc s.pbufs length p
    let m := if sendTimed then
        Function.update m p ((m p).map fun b => { b with txTimestamp := true }) else m
    ({ s with pbufs := m }, some p, [])

/-- `memcpy(pbuf_shim_token_payload(buffer_token), buffer, length)`: the payload
has to be long enough for the whole buffer. -/
def copyToPayload (s : Server) (token : Ptr) (buffer : List UInt8) : Except Fault Server := do
  let b ← s.pbufs.load token
  if h : buffer.length ≤ b.payload.bytes.length then
    .ok { s with
      pbufs := Function.update s.pbufs token (some { b with
        payload := ⟨buffer ++ b.payload.bytes.drop buffer.length, by
          have := b.payload.size_lt
          simp only [List.length_append, List.length_drop]
          omega⟩ }) }
  else .error .overrun

/-- `udp_send` and `udp_sendto`: the driver leaves its timestamp in a pbuf that
asks for one, and lwIP may keep a reference. -/
def udpSend (s : Server) (token : Ptr) (timestamp : UInt32) (keeps : Bool) : Server :=
  { s with
    pbufs := Function.update s.pbufs token ((s.pbufs token).map fun b =>
      { b with
        timestamp := if b.txTimestamp then timestamp else b.timestamp
        ref := if keeps then b.ref + 1 else b.ref }) }

/-- What a send leaves behind. -/
structure Sent where
  /-- The state after it. -/
  server : Server
  /-- The result. -/
  result : ErrorCode
  /-- The accesses to the transmit pbuf, in order. -/
  reads : List PbufRead

/-- The release of the transmit pbuf at the end of a send. -/
def freeSent (s : Server) (newPbuf : Ptr) (result : ErrorCode) (reads : List PbufRead) :
    Except Fault Sent := do
  let m ← pbufFree s.pbufs newPbuf
  .ok ⟨{ s with pbufs := m }, result, reads⟩

/-- The UDP branch of `shim_send` and `shim_sendto`. -/
def sendUdp (s : Server) (id : ℤ) (newPbuf : Ptr) (answer : SendAnswer) : Except Fault Sent :=
  match getUdpPcb cfg s id with
  | none => freeSent s newPbuf .einval []
  | some _ =>
    freeSent (udpSend s newPbuf answer.timestamp answer.keeps) newPbuf
      (if answer.udpSend = .ok then .success else .einval) []

/-- The TCP branch of `shim_send`. -/
def sendTcp (s : Server) (id : ℤ) (newPbuf : Ptr) (answer : SendAnswer) : Except Fault Sent :=
  match getTcpPcb cfg s id with
  | none => freeSent s newPbuf .einval []
  | some tcpPcb => do
    let b ← s.pbufs.load newPbuf
    -- Ensure data is sent immediately
    freeSent (tcpWrite s tcpPcb b.payload.bytes answer.write) newPbuf
      (if answer.write = .ok ∧ answer.output = .ok then .success else .einval)
      [readPbuf s newPbuf, readPbuf s newPbuf]

/-- `shim_send` -/
def shimSend (s : Server) (clientNum : ℕ) (id : ℤ) (bufferToken : Option Ptr)
    (answer : SendAnswer) : Except Fault Sent :=
  match bufferToken with
  | none => .ok ⟨s, .einval, []⟩
  | some newPbuf =>
    let connection := findClientConnection cfg s clientNum id
    if connection.status ≠ .success then .ok ⟨s, connection.status, []⟩
    else
      match getProtocol cfg s id with
      | .udp => sendUdp cfg s id newPbuf answer
      | .tcp => sendTcp cfg s id newPbuf answer
      | .none => .ok ⟨s, .einval, []⟩

/-- `shim_sendto` -/
def shimSendto (s : Server) (clientNum : ℕ) (id : ℤ) (bufferToken : Option Ptr)
    (answer : SendAnswer) : Except Fault Sent :=
  match bufferToken with
  | none => .ok ⟨s, .einval, []⟩
  | some newPbuf =>
    let connection := findClientConnection cfg s clientNum id
    if connection.status ≠ .success then .ok ⟨s, connection.status, []⟩
    else
      match getProtocol cfg s id with
      | .udp => sendUdp cfg s id newPbuf answer
      -- TCP does not support sendto
      | .tcp => .ok ⟨s, .eprotonosupport, []⟩
      | .none => .ok ⟨s, .einval, []⟩

/-- `pbuf_shim_token_timestamp`; there is nothing to read in a pbuf that has been
released. -/
def pbufShimTokenTimestamp (s : Server) (token : Ptr) : Option UInt32 :=
  (s.pbufs token).map Pbuf.timestamp

/-! ### Multicast groups and names -/

/-- `shim_join_multicast_group`, given the result of `igmp_joingroup`. -/
def shimJoinMulticastGroup (s : Server) (addr : IpAddr) (answer : Err) : Server × ErrorCode :=
  if answer = .ok then
    ({ s with igmpJoins := Function.update s.igmpJoins addr (s.igmpJoins addr + 1) }, .success)
  else (s, .einval)

/-- `shim_leave_multicast_group`: `igmp_leavegroup` fails for a group that has not
been joined. -/
def shimLeaveMulticastGroup (s : Server) (addr : IpAddr) : Server × ErrorCode :=
  if s.igmpJoins addr ≠ 0 then
    ({ s with igmpJoins := Function.update s.igmpJoins addr (s.igmpJoins addr - 1) }, .success)
  else (s, .einval)

/-- `shim_request_host_by_name`, given the result of `dns_gethostbyname` and the
address it finds. -/
def shimRequestHostByName (s : Server) (clientNum : ℕ) (answer : Err) (ipaddr : IpAddr) :
    Server × Host :=
  if answer = .ok then (s, { ipaddr := ipaddr })
  else if answer = .inprogress then ({ s with dnsRequests := s.dnsRequests ++ [clientNum] }, {})
  else (s, {})

/-! ### Socket options -/

/-- The part of `struct tcp_pcb` and `struct udp_pcb` that both begin with, and
the multicast fields of the latter. -/
structure IpPcb where
  /-- `tos` -/
  tos : UInt8
  /-- `ttl` -/
  ttl : UInt8
  /-- `mcast_ttl` -/
  mcastTtl : UInt8 := 0
  /-- `mcast_ifindex` -/
  mcastIfindex : UInt8 := 0
  /-- `UDP_FLAGS_MULTICAST_LOOP` in `flags` -/
  multicastLoop : Bool := false

/-- The control block `shim_ip_getsockopt` and `shim_ip_setsockopt` read through,
or the fault of reading through `NULL`. -/
def loadIpPcb (s : Server) (id : ℤ) : Except Fault IpPcb :=
  match getProtocol cfg s id with
  | .udp =>
    match getUdpPcb cfg s id with
    | none => .error .nullPcb
    | some p =>
      let b := (s.udp p).getD {}
      .ok ⟨b.tos, b.ttl, b.mcastTtl, b.mcastIfindex, b.multicastLoop⟩
  | _ =>
    match getTcpPcb cfg s id with
    | none => .error .nullPcb
    | some p =>
      let b := (s.tcp p).getD {}
      .ok { tos := b.tos, ttl := b.ttl }

/-- `shim_ip_getsockopt`: the status, and the byte stored in `value`. -/
def shimIpGetsockopt (s : Server) (id : ℤ) (option : ℕ) (length : ℕ) :
    Except Fault (ErrorCode × UInt8) :=
  let protocol := getProtocol cfg s id
  if protocol = .none then .ok (.einval, 0)
  else
    match IpSocketOption.decode option with
    | none => .ok (.einval, 0)
    | some option =>
      if length < 1 then .ok (.einval, 0)
      else
        match option with
        | .tos => do .ok (.success, (← loadIpPcb cfg s id).tos)
        | .ttl => do .ok (.success, (← loadIpPcb cfg s id).ttl)
        | .multicastTtl =>
          if protocol ≠ .udp then .ok (.eprotonosupport, 0)
          else do .ok (.success, (← loadIpPcb cfg s id).mcastTtl)
        | .multicastIf =>
          if protocol ≠ .udp then .ok (.eprotonosupport, 0)
          else do .ok (.success, (← loadIpPcb cfg s id).mcastIfindex)
        | .multicastLoop =>
          if protocol ≠ .udp then .ok (.eprotonosupport, 0)
          else do
            .ok (.success, if (← loadIpPcb cfg s id).multicastLoop then 1 else 0)

/-- `shim_getsockopt` -/
def shimGetsockopt (s : Server) (clientNum : ℕ) (id : ℤ) (level : SocketLevel) (option : ℕ)
    (length : ℕ) : Except Fault (ErrorCode × UInt8) :=
  let connection := findClientConnection cfg s clientNum id
  if connection.status ≠ .success then .ok (connection.status, 0)
  else
    match level with
    | .ip => shimIpGetsockopt cfg s id option length
    | _ => .ok (.einval, 0)

/-- Write one field of the control block of a slot, or the fault of writing
through `NULL`. -/
def storeIpPcb (s : Server) (id : ℤ) (tcp : TcpPcb → TcpPcb) (udp : UdpPcb → UdpPcb) :
    Except Fault Server :=
  match getProtocol cfg s id with
  | .udp =>
    match getUdpPcb cfg s id with
    | none => .error .nullPcb
    | some p => .ok (s.modifyUdp p udp)
  | _ =>
    match getTcpPcb cfg s id with
    | none => .error .nullPcb
    | some p => .ok (s.modifyTcp p tcp)

/-- The fields an option writes. -/
def IpSocketOption.writes (option : IpSocketOption) (value : UInt8) :
    (TcpPcb → TcpPcb) × (UdpPcb → UdpPcb) :=
  match option with
  | .tos => (fun b => { b with tos := value }, fun b => { b with tos := value })
  | .ttl => (fun b => { b with ttl := value }, fun b => { b with ttl := value })
  | .multicastTtl => (id, fun b => { b with mcastTtl := value })
  | .multicastIf => (id, fun b => { b with mcastIfindex := value })
  -- the flag is set whatever the value is
  | .multicastLoop => (id, fun b => { b with multicastLoop := true })

/-- The options only a UDP socket has. -/
def IpSocketOption.udpOnly : IpSocketOption → Bool
  | .tos | .ttl => false
  | .multicastTtl | .multicastIf | .multicastLoop => true

/-- `shim_ip_setsockopt` -/
def shimIpSetsockopt (s : Server) (id : ℤ) (option : ℕ) (value : List UInt8) :
    Except Fault (Server × ErrorCode) :=
  let protocol := getProtocol cfg s id
  if protocol = .none then .ok (s, .einval)
  else
    match IpSocketOption.decode option with
    | none => .ok (s, .einval)
    | some option =>
      match value with
      | [] => .ok (s, .einval)
      | v :: _ =>
        if option.udpOnly ∧ protocol ≠ .udp then .ok (s, .eprotonosupport)
        else do
          let s ← storeIpPcb cfg s id (option.writes v).1 (option.writes v).2
          .ok (s, .success)

/-- `shim_setsockopt` -/
def shimSetsockopt (s : Server) (clientNum : ℕ) (id : ℤ) (level : SocketLevel) (option : ℕ)
    (value : List UInt8) : Except Fault (Server × ErrorCode) :=
  let connection := findClientConnection cfg s clientNum id
  if connection.status ≠ .success then .ok (s, connection.status)
  else
    match level with
    | .ip => shimIpSetsockopt cfg s id option value
    | _ => .ok (s, .einval)

end Xtcp
