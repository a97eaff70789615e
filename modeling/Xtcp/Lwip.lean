import Xtcp.Types

/-!
# What the library sees of lwIP

lwIP is a submodule that is not part of the tree.  What the library uses of it is
its packet buffers, whose `next` links the library writes itself, and its
protocol control blocks, which the library only passes around: lwIP's own
behaviour enters the model as the answers it gives and the callbacks it raises.

A pbuf or a control block is an address in a store.  `pbuf_free` removes a pbuf
when its last reference goes, and then goes on along `next`, so a store without
an entry at `p` is one in which `p` has been released.  An access to a pbuf that
is not in the store, and a walk along `next` that never ends, are `Fault`s: the
C program has undefined behaviour, or hangs.

## Main definitions

* `Ptr`, `Payload`, `Pbuf`, `Pbufs` — addresses and packet buffers.
* `TcpPcb`, `UdpPcb`, `PcbStatus` — control blocks.
* `Err`, `LwipEvent` — `err_t` and `enum lwip_event`.
* `pbufFree`, `pbufAlloc` — lwIP's `pbuf_free` and `pbuf_alloc`.
-/

namespace Xtcp

/-- A non-null address of the 32-bit machine. -/
abbrev Ptr := BitVec 32

/-- The number of addresses.  A walk along `next` that takes more steps than
this has come back to where it was, and never ends. -/
def addressSpace : ℕ := 2 ^ 32

/-- What can go wrong in a way that the C code does not report. -/
inductive Fault
  /-- An access to a pbuf that has been released. -/
  | badPbuf
  /-- A walk along `next` that does not end. -/
  | endless
  /-- A copy past the end of a buffer. -/
  | overrun
  /-- An access through a null control block. -/
  | nullPcb
  deriving DecidableEq, Repr

/-- `err_t` -/
inductive Err
  /-- `ERR_OK` -/
  | ok
  /-- `ERR_MEM` -/
  | mem
  /-- `ERR_BUF` -/
  | buf
  /-- `ERR_TIMEOUT` -/
  | timeout
  /-- `ERR_RTE` -/
  | rte
  /-- `ERR_INPROGRESS` -/
  | inprogress
  /-- `ERR_VAL` -/
  | val
  /-- `ERR_WOULDBLOCK` -/
  | wouldblock
  /-- `ERR_USE` -/
  | use
  /-- `ERR_ALREADY` -/
  | already
  /-- `ERR_ISCONN` -/
  | isconn
  /-- `ERR_CONN` -/
  | conn
  /-- `ERR_IF` -/
  | netif
  /-- `ERR_ABRT` -/
  | abrt
  /-- `ERR_RST` -/
  | rst
  /-- `ERR_CLSD` -/
  | clsd
  /-- `ERR_ARG` -/
  | arg
  deriving DecidableEq, Repr, Inhabited

/-- `enum lwip_event` -/
inductive LwipEvent
  /-- `LWIP_EVENT_ACCEPT` -/
  | accept
  /-- `LWIP_EVENT_SENT` -/
  | sent
  /-- `LWIP_EVENT_RECV` -/
  | recv
  /-- `LWIP_EVENT_CONNECTED` -/
  | connected
  /-- `LWIP_EVENT_POLL` -/
  | poll
  /-- `LWIP_EVENT_ERR` -/
  | err
  deriving DecidableEq, Repr, Inhabited

/-! ### Packet buffers -/

/-- The bytes of a pbuf; their number is the `u16_t len`. -/
structure Payload where
  /-- The bytes at `payload`. -/
  bytes : List UInt8
  /-- `len` is a `u16_t`. -/
  size_lt : bytes.length < 2 ^ 16
  deriving DecidableEq

/-- The fields of `struct pbuf` that the library touches. -/
structure Pbuf where
  /-- `next` -/
  next : Option Ptr := none
  /-- `payload` and `len` -/
  payload : Payload
  /-- `tot_len` -/
  totLen : ℕ
  /-- `ref` -/
  ref : ℕ := 1
  /-- `PBUF_FLAG_TX_TIMESTAMP` in `flags` -/
  txTimestamp : Bool := false
  /-- `timestamp` -/
  timestamp : UInt32 := 0
  /-- `remote` -/
  remote : Host := {}
  deriving DecidableEq

/-- `len` -/
def Pbuf.len (b : Pbuf) : ℕ := b.payload.bytes.length

/-- The pbufs that have not been released. -/
abbrev Pbufs := Ptr → Option Pbuf

/-- The links of the pbufs. -/
def Pbufs.nxt (m : Pbufs) (p : Ptr) : Option (Option Ptr) := (m p).map Pbuf.next

/-- An access to the pbuf at `p`. -/
def Pbufs.load (m : Pbufs) (p : Ptr) : Except Fault Pbuf :=
  match m p with
  | some b => .ok b
  | none => .error .badPbuf

/-- An access goes well when the pbuf exists. -/
theorem Pbufs.load_eq_ok {m : Pbufs} {p : Ptr} {b : Pbuf} : m.load p = .ok b ↔ m p = some b := by
  unfold Pbufs.load
  split
  · next h => simp [h]
  · next h => simp [h]

/-- `pbuf_free`: drop one reference; where it was the last, release the pbuf and
go on with the next one of the chain. -/
def pbufFreeLoop : ℕ → Pbufs → Option Ptr → Except Fault Pbufs
  | _, m, none => .ok m
  | 0, _, some _ => .error .endless
  | n + 1, m, some p =>
    match m p with
    | none => .error .badPbuf
    | some b =>
      if b.ref ≤ 1 then pbufFreeLoop n (Function.update m p none) b.next
      else .ok (Function.update m p (some { b with ref := b.ref - 1 }))

/-- `pbuf_free(p)` for a pbuf `p` -/
def pbufFree (m : Pbufs) (p : Ptr) : Except Fault Pbufs := pbufFreeLoop addressSpace m (some p)

/-- `pbuf_alloc(PBUF_TRANSPORT, length, PBUF_RAM)`, when lwIP finds the address `p`
for it: one pbuf of that length. -/
def pbufAlloc (m : Pbufs) (length : UInt16) (p : Ptr) : Pbufs :=
  Function.update m p (some
    { payload := ⟨List.replicate length.toNat 0, by simpa using length.toNat_lt⟩
      totLen := length.toNat })

/-! ### Control blocks -/

/-- Where a TCP control block is in its life, as far as the callbacks it may
raise are concerned. -/
inductive PcbStatus
  /-- Made by `tcp_new_ip_type`, on no list of lwIP: raises nothing. -/
  | closed
  /-- Made by `tcp_listen`. -/
  | listen
  /-- Made for an incoming connection on `listener`, and not accepted yet. -/
  | synRcvd (listener : Ptr)
  /-- Connecting or connected. -/
  | active
  /-- Given to `tcp_close` when slot `id` was closed, and still alive. -/
  | closing (id : ℤ)
  deriving DecidableEq, Repr

/-- The fields of `struct tcp_pcb` that the library touches or relies on. -/
structure TcpPcb where
  /-- `callback_arg`, an index of the connection table; `NULL` is index 0. -/
  callbackArg : ℤ := 0
  /-- Where the control block is in its life. -/
  status : PcbStatus := .closed
  /-- `prio`: `TCP_PRIO_NORMAL` -/
  prio : ℕ := 64
  /-- `local_ip`, `local_port` -/
  localHost : Host := {}
  /-- `remote_ip`, `remote_port` -/
  remoteHost : Host := {}
  /-- `tos` -/
  tos : UInt8 := 0
  /-- `ttl` -/
  ttl : UInt8 := 255
  /-- The bytes accepted by `tcp_write`, in order. -/
  written : List UInt8 := []
  /-- The lengths passed to `tcp_recved`, added up. -/
  recved : ℕ := 0
  deriving DecidableEq, Repr

/-- The fields of `struct udp_pcb` that the library touches or relies on. -/
structure UdpPcb where
  /-- The argument given to `udp_recv` along with `xtcp_udp_recv`. -/
  recvArg : Option ℤ := none
  /-- `UDP_FLAGS_CONNECTED` in `flags` -/
  connected : Bool := false
  /-- `UDP_FLAGS_MULTICAST_LOOP` in `flags` -/
  multicastLoop : Bool := false
  /-- `local_ip`, `local_port` -/
  localHost : Host := {}
  /-- `remote_ip`, `remote_port` -/
  remoteHost : Host := {}
  /-- `tos` -/
  tos : UInt8 := 0
  /-- `ttl` -/
  ttl : UInt8 := 255
  /-- `mcast_ttl` -/
  mcastTtl : UInt8 := 255
  /-- `mcast_ifindex` -/
  mcastIfindex : UInt8 := 0
  deriving DecidableEq, Repr

/-- `TCP_PRIO_MIN` -/
def tcpPrioMin : ℕ := 1

end Xtcp
