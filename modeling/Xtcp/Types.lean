import Mathlib

/-!
# The types of the client interface

The enumerations and records of `api/xtcp.h` that the server works with, and the
compile-time sizes of its tables.

A C `int32_t` is an `ℤ` here and an `unsigned` a `ℕ`: the tables are static
arrays in a 32-bit address space, so no index arithmetic on them comes near the
end of the 32-bit range.

## Main definitions

* `Config` — the sizes the library is compiled for.
* `Protocol`, `EventType`, `ErrorCode`, `SocketLevel`, `IpSocketOption` — the
  enumerations.
* `ErrorInt32`, `ClientEvent`, `Host` — the records.
-/

namespace Xtcp

/-- `DEINIT`, the owner of a slot that has none: `UINT32_MAX`. -/
def deinit : ℕ := 2 ^ 32 - 1

/-- The sizes the library is compiled for, and the number of clients of the
task. -/
structure Config where
  /-- `MAX_XTCP_CLIENTS`: the number of event queues. -/
  maxXtcpClients : ℕ
  /-- `CLIENT_QUEUE_SIZE`: the number of events a queue holds. -/
  clientQueueSize : ℕ
  /-- `MAX_OPEN_SOCKETS`: the number of slots of the connection table. -/
  maxOpenSockets : ℕ
  /-- `n_xtcp`: the number of clients attached to the task. -/
  nXtcp : ℕ
  /-- Whether `debug_printf` evaluates and prints its arguments. -/
  debugPrint : Bool
  /-- Whether the task is connected to a MAC through `i_eth_cfg` and `i_eth_rx`. -/
  ethCfg : Bool
  /-- There is at least one queue. -/
  clients_pos : 0 < maxXtcpClients
  /-- A queue holds at least one event. -/
  size_pos : 0 < clientQueueSize
  /-- There is at least one slot. -/
  sockets_pos : 0 < maxOpenSockets
  /-- `MAX_XTCP_CLIENTS` is compared with an `unsigned`. -/
  clients_le : maxXtcpClients ≤ deinit
  /-- `n_xtcp` is an `unsigned`. -/
  nXtcp_le : nXtcp ≤ deinit

/-- The index checks of `connection.c`: `index` is a slot of the table. -/
def Config.InRange (cfg : Config) (index : ℤ) : Prop :=
  0 ≤ index ∧ index < cfg.maxOpenSockets

instance (cfg : Config) (index : ℤ) : Decidable (cfg.InRange index) :=
  inferInstanceAs (Decidable (_ ∧ _))

/-- Two clients with room for one event each, and two slots: small enough to follow a
history by hand. -/
def Config.small : Config where
  maxXtcpClients := 2
  clientQueueSize := 1
  maxOpenSockets := 2
  nXtcp := 2
  debugPrint := false
  ethCfg := false
  clients_pos := by decide
  size_pos := by decide
  sockets_pos := by decide
  clients_le := by decide
  nXtcp_le := by decide

/-- As `Config.small`, with room for four events each. -/
def Config.roomy : Config where
  __ := Config.small
  clientQueueSize := 4
  size_pos := by decide

/-- As `Config.small`, with a MAC. -/
def Config.onMac : Config where
  __ := Config.small
  ethCfg := true

/-- `xtcp_protocol_t`. -/
inductive Protocol
  /-- `XTCP_PROTOCOL_NONE` -/
  | none
  /-- `XTCP_PROTOCOL_TCP` -/
  | tcp
  /-- `XTCP_PROTOCOL_UDP` -/
  | udp
  deriving DecidableEq, Repr, Inhabited

/-- `xtcp_event_type_t`. -/
inductive EventType
  /-- `XTCP_EVENT_NONE` -/
  | none
  /-- `XTCP_NEW_CONNECTION` -/
  | newConnection
  /-- `XTCP_ACCEPTED` -/
  | accepted
  /-- `XTCP_RECV_DATA` -/
  | recvData
  /-- `XTCP_RECV_FROM_DATA` -/
  | recvFromData
  /-- `XTCP_SENT_DATA` -/
  | sentData
  /-- `XTCP_RESEND_DATA` -/
  | resendData
  /-- `XTCP_TIMED_OUT` -/
  | timedOut
  /-- `XTCP_ABORTED` -/
  | aborted
  /-- `XTCP_CLOSED` -/
  | closed
  /-- `XTCP_IFUP` -/
  | ifup
  /-- `XTCP_IFDOWN` -/
  | ifdown
  /-- `XTCP_DNS_RESULT` -/
  | dnsResult
  deriving DecidableEq, Repr, Inhabited

/-- The events that `xtcp.h` describes as having no associated connection: their
`id` is not a slot. -/
def EventType.connectionless : EventType → Bool
  | .ifup | .ifdown | .dnsResult => true
  | _ => false

/-- `xtcp_error_code_t`. -/
inductive ErrorCode
  /-- `XTCP_SUCCESS` -/
  | success
  /-- `XTCP_EINVAL` -/
  | einval
  /-- `XTCP_ENOMEM` -/
  | enomem
  /-- `XTCP_EAGAIN` -/
  | eagain
  /-- `XTCP_EPROTONOSUPPORT` -/
  | eprotonosupport
  /-- `XTCP_EINUSE` -/
  | einuse
  deriving DecidableEq, Repr, Inhabited

/-- The number an error code stands for. -/
def ErrorCode.toInt : ErrorCode → ℤ
  | .success => 0
  | .einval => -1
  | .enomem => -2
  | .eagain => -3
  | .eprotonosupport => -4
  | .einuse => -5

/-- `xtcp_error_int32_t`: a status, and a value that goes with it. -/
structure ErrorInt32 where
  /-- The status of the operation. -/
  status : ErrorCode
  /-- Its value, `-1` on failure. -/
  value : ℤ
  deriving DecidableEq, Repr, Inhabited

/-- `xtcp_ipaddr_t`: the four bytes of an IPv4 address. -/
structure IpAddr where
  /-- The first byte. -/
  b0 : UInt8 := 0
  /-- The second byte. -/
  b1 : UInt8 := 0
  /-- The third byte. -/
  b2 : UInt8 := 0
  /-- The fourth byte. -/
  b3 : UInt8 := 0
  deriving DecidableEq, Repr, Inhabited

/-- `xtcp_host_t`: an address and a port. -/
structure Host where
  /-- The address of the host. -/
  ipaddr : IpAddr := {}
  /-- The port of the host. -/
  portNumber : UInt16 := 0
  deriving DecidableEq, Repr, Inhabited

/-- `client_event_t`: an entry of an event queue. -/
structure ClientEvent where
  /-- What happened. -/
  xtcpEvent : EventType
  /-- The connection it happened on. -/
  id : ℤ
  deriving DecidableEq, Repr, Inhabited

/-- `xtcp_socket_level_t`. -/
inductive SocketLevel
  /-- `XTCP_SOCKET_LEVEL_IP` -/
  | ip
  /-- `XTCP_SOCKET_LEVEL_SOCKET` -/
  | socket
  /-- `XTCP_SOCKET_LEVEL_TCP` -/
  | tcp
  /-- `XTCP_SOCKET_LEVEL_UDP` -/
  | udp
  deriving DecidableEq, Repr, Inhabited

/-- `xtcp_ip_socket_option_t`. -/
inductive IpSocketOption
  /-- `XTCP_IP_SOCKET_OPTION_TOS` -/
  | tos
  /-- `XTCP_IP_SOCKET_OPTION_TTL` -/
  | ttl
  /-- `XTCP_IP_SOCKET_OPTION_MULTICAST_TTL` -/
  | multicastTtl
  /-- `XTCP_IP_SOCKET_OPTION_MULTICAST_IF` -/
  | multicastIf
  /-- `XTCP_IP_SOCKET_OPTION_MULTICAST_LOOP` -/
  | multicastLoop
  deriving DecidableEq, Repr, Inhabited

/-- The option a `uint32_t option` argument names, if any. -/
def IpSocketOption.decode : ℕ → Option IpSocketOption
  | 1 => some .tos
  | 2 => some .ttl
  | 5 => some .multicastTtl
  | 6 => some .multicastIf
  | 7 => some .multicastLoop
  | _ => Option.none

/-- The conversion of a `uint32_t` argument to an `int32_t` parameter. -/
def int32OfUInt32 (n : UInt32) : ℤ := n.toBitVec.toInt

theorem int32OfUInt32_of_lt {n : UInt32} (h : n.toNat < 2 ^ 31) : int32OfUInt32 n = n.toNat := by
  have h' : 2 * n.toBitVec.toNat < 2 ^ 32 := by
    have : n.toBitVec.toNat = n.toNat := rfl
    omega
  exact BitVec.toInt_eq_toNat_of_lt h'

end Xtcp
