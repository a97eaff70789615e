import Xtcp.Server

/-!
# The table of slots and control blocks

What decides who gets a callback is small: which slots are taken, by whom, with
which control block, and which argument and status each control block has.  This
is the `Table` of a server.  Received data, event queues and socket options play no
part in it.

`TableStep` says everything that one step of the server can do to the table.  Each
constructor is one way to come out of a step; the actions that can come out that
way are part of it.

## Main definitions

* `Slot`, `Route`, `Table` — the table, and `Server.table`, the table of a server.
* `Table.assign`, `Table.store`, `Table.release`, `Table.closePcb` — its operations.
* `TableStep` — what a step of the server does to it.

## Main results

* `Table.freeSlot_some`, `Table.freeSlot_none` — the scan of
  `assign_client_connection` finds a slot that is not active, if there is one.
-/

namespace Xtcp

/-- The fields of an entry other than its received data. -/
structure Slot where
  /-- `is_active` -/
  isActive : Bool
  /-- `client_num` -/
  clientNum : ℕ
  /-- `protocol` -/
  protocol : Protocol
  /-- `pcb` -/
  pcb : PcbUnion
  /-- `client_data` -/
  clientData : Option Ptr
  deriving DecidableEq

/-- A slot that has been released. -/
def Slot.released : Slot := ⟨false, deinit, .none, .null, none⟩

/-- The fields of an entry other than its received data. -/
def ConnectionEntry.slot (e : ConnectionEntry) : Slot :=
  ⟨e.isActive, e.clientNum, e.protocol, e.pcb, e.clientData⟩

/-- The callback argument of a control block, and its status. -/
structure Route where
  /-- `callback_arg` -/
  arg : ℤ
  /-- Where the control block is in its life. -/
  status : PcbStatus
  deriving DecidableEq

/-- What becomes of a TCP control block that slot `k` gives to `tcp_close`. -/
def Route.close (r : Route) (k : ℤ) (lingers : Bool) : Option Route :=
  if r.status = .active ∧ lingers then some { r with status := .closing k } else none

/-- The callback argument of a control block, and its status. -/
def TcpPcb.route (b : TcpPcb) : Route := ⟨b.callbackArg, b.status⟩

/-- Slots and control blocks. -/
structure Table where
  /-- The slots. -/
  slot : ℤ → Slot
  /-- `last_guid` -/
  cursor : ℤ
  /-- The TCP control blocks that exist. -/
  tcp : Ptr → Option Route
  /-- The UDP control blocks that exist. -/
  udp : Ptr → Bool

/-- The table of a server. -/
def Server.table (s : Server) : Table where
  slot := fun k => (s.connections k).slot
  cursor := s.lastGuid
  tcp := fun p => (s.tcp p).map TcpPcb.route
  udp := fun p => (s.udp p).isSome

namespace Table

variable (cfg : Config) (T : Table)

/-! ### Operations -/

/-- Write a slot. -/
def setSlot (k : ℤ) (e : Slot) : Table := { T with slot := Function.update T.slot k e }

/-- Write a TCP control block. -/
def setTcp (p : Ptr) (r : Option Route) : Table := { T with tcp := Function.update T.tcp p r }

/-- Make or remove a UDP control block. -/
def setUdp (p : Ptr) (live : Bool) : Table := { T with udp := Function.update T.udp p live }

/-- Give slot `k` to a client. -/
def assign (k : ℤ) (clientNum : ℕ) (protocol : Protocol) : Table :=
  { T.setSlot k ⟨true, clientNum, protocol, .null, (T.slot k).clientData⟩ with cursor := k + 1 }

/-- Store a control block in slot `k`. -/
def store (k : ℤ) (pcb : PcbUnion) : Table := T.setSlot k { T.slot k with pcb := pcb }

/-- Release slot `k`. -/
def release (k : ℤ) : Table := if cfg.InRange k then T.setSlot k .released else T

/-- Give the control block of slot `k` back to lwIP. -/
def closePcb (k : ℤ) (lingers : Bool) : Table :=
  match (T.slot k).protocol, (T.slot k).pcb.addr with
  | .tcp, some p => T.setTcp p ((T.tcp p).bind fun r => r.close k lingers)
  | .udp, some p => T.setUdp p false
  | _, _ => T

/-- The slot `assign_client_connection` finds. -/
def freeSlot : Option ℤ :=
  let index (i : ℕ) : ℤ :=
    if T.cursor + i ≥ cfg.maxOpenSockets then T.cursor + i - cfg.maxOpenSockets else T.cursor + i
  ((List.range cfg.maxOpenSockets).find? fun i => !(T.slot (index i)).isActive).map index

/-- Client `i` owns slot `k`. -/
def OwnedBy (i : ℕ) (k : ℤ) : Prop := cfg.InRange k ∧ (T.slot k).clientNum = i

instance (i : ℕ) (k : ℤ) : Decidable (T.OwnedBy cfg i k) := inferInstanceAs (Decidable (_ ∧ _))

/-- The cursor of `assign_client_connection` is in the table or just behind it. -/
def CursorOk : Prop := 0 ≤ T.cursor ∧ T.cursor ≤ cfg.maxOpenSockets

variable {cfg T}

/-! The slots and the control blocks after each operation. -/

theorem setSlot_slot (k : ℤ) (e : Slot) (j : ℤ) :
    (T.setSlot k e).slot j = if j = k then e else T.slot j := Function.update_apply _ _ _ _

@[simp] theorem setTcp_slot (p : Ptr) (r : Option Route) : (T.setTcp p r).slot = T.slot := rfl

theorem setTcp_tcp (p : Ptr) (r : Option Route) (q : Ptr) :
    (T.setTcp p r).tcp q = if q = p then r else T.tcp q := Function.update_apply _ _ _ _

@[simp] theorem setUdp_slot (p : Ptr) (live : Bool) : (T.setUdp p live).slot = T.slot := rfl

theorem assign_slot (k : ℤ) (c : ℕ) (protocol : Protocol) (j : ℤ) :
    (T.assign k c protocol).slot j
      = if j = k then ⟨true, c, protocol, .null, (T.slot k).clientData⟩ else T.slot j :=
  Function.update_apply _ _ _ _

@[simp] theorem assign_tcp (k : ℤ) (c : ℕ) (protocol : Protocol) :
    (T.assign k c protocol).tcp = T.tcp := rfl

theorem store_slot (k : ℤ) (pcb : PcbUnion) (j : ℤ) :
    (T.store k pcb).slot j = if j = k then { T.slot k with pcb := pcb } else T.slot j :=
  Function.update_apply _ _ _ _

@[simp] theorem store_tcp (k : ℤ) (pcb : PcbUnion) : (T.store k pcb).tcp = T.tcp := rfl

theorem release_slot (k j : ℤ) :
    (T.release cfg k).slot j = if j = k ∧ cfg.InRange k then .released else T.slot j := by
  unfold release
  split
  · next h => simp [setSlot_slot, h]
  · next h => simp [h]

@[simp] theorem release_tcp (k : ℤ) : (T.release cfg k).tcp = T.tcp := by
  unfold release
  split <;> rfl

@[simp] theorem release_cursor (k : ℤ) : (T.release cfg k).cursor = T.cursor := by
  unfold release
  split <;> rfl

@[simp] theorem closePcb_slot (k : ℤ) (lingers : Bool) : (T.closePcb k lingers).slot = T.slot := by
  unfold closePcb
  split <;> rfl

@[simp] theorem closePcb_cursor (k : ℤ) (lingers : Bool) :
    (T.closePcb k lingers).cursor = T.cursor := by
  unfold closePcb
  split <;> rfl

/-- Closing a slot writes no control block but its own. -/
theorem closePcb_tcp (k : ℤ) (lingers : Bool) (q : Ptr) :
    (T.closePcb k lingers).tcp q = T.tcp q ∨
      (T.slot k).protocol = .tcp ∧ (T.slot k).pcb.addr = some q ∧
        (T.closePcb k lingers).tcp q = (T.tcp q).bind fun r => r.close k lingers := by
  unfold closePcb
  split
  · next p hproto haddr =>
    by_cases hq : q = p
    · subst hq
      exact .inr ⟨hproto, haddr, by rw [setTcp_tcp, if_pos rfl]⟩
    · exact .inl (by rw [setTcp_tcp, if_neg hq])
  · exact .inl rfl
  · exact .inl rfl

@[simp] theorem setTcp_freeSlot (p : Ptr) (r : Option Route) :
    (T.setTcp p r).freeSlot cfg = T.freeSlot cfg := rfl

@[simp] theorem setTcp_setTcp (p : Ptr) (r r' : Option Route) :
    (T.setTcp p r).setTcp p r' = T.setTcp p r' := by
  simp [setTcp]

@[simp] theorem assign_setTcp (p : Ptr) (r : Option Route) (k : ℤ) (c : ℕ) (protocol : Protocol) :
    (T.setTcp p r).assign k c protocol = (T.assign k c protocol).setTcp p r := rfl

@[simp] theorem store_setTcp (p : Ptr) (r : Option Route) (k : ℤ) (pcb : PcbUnion) :
    (T.setTcp p r).store k pcb = (T.store k pcb).setTcp p r := rfl

/-- The scan stops at a slot that is not active. -/
theorem freeSlot_some (hcur : T.CursorOk cfg) {k : ℤ} (h : T.freeSlot cfg = some k) :
    cfg.InRange k ∧ (T.slot k).isActive = false := by
  simp only [freeSlot, Option.map_eq_some_iff, List.find?_range_eq_some, List.mem_range] at h
  obtain ⟨i, ⟨hfree, hi, -⟩, rfl⟩ := h
  obtain ⟨h0, h1⟩ := hcur
  refine ⟨?_, by simpa using hfree⟩
  unfold Config.InRange
  split <;> omega

/-- The scan visits every slot: it finds none only when all are active. -/
theorem freeSlot_none (hcur : T.CursorOk cfg) (h : T.freeSlot cfg = none) {k : ℤ}
    (hk : cfg.InRange k) : (T.slot k).isActive = true := by
  simp only [freeSlot, Option.map_eq_none_iff, List.find?_range_eq_none] at h
  obtain ⟨h0, h1⟩ := hcur
  obtain ⟨hk0, hk1⟩ := hk
  -- the round in which the scan comes to `k`
  by_cases hle : T.cursor ≤ k
  · have := h (k - T.cursor).toNat (by omega)
    simp only [Int.toNat_of_nonneg (show 0 ≤ k - T.cursor by omega)] at this
    rw [if_neg (by omega)] at this
    simpa using this
  · have := h (k + cfg.maxOpenSockets - T.cursor).toNat (by omega)
    simp only [Int.toNat_of_nonneg (show 0 ≤ k + cfg.maxOpenSockets - T.cursor by omega)] at this
    rw [if_pos (by omega)] at this
    simpa using this

end Table

/-! ### Steps -/

/-- The calls that close slot `k`. -/
def Call.closes (k : ℤ) (lingers : Bool) : Call → Prop
  | .close id l | .abort id l => id = k ∧ l = lingers
  | _ => False

/-- The reply says that `connect`, `listen` or an accept has succeeded on a TCP slot. -/
def Announces (T : Table) : Action → Reply → Prop
  | .call _ (.connect id _ _ _), r => r = .code .success ∧ (T.slot id).protocol = .tcp
  | .call _ (.listen id _ _ _), r => r = .code .success ∧ (T.slot id).protocol = .tcp
  | .happens (.tcpEvent _ _ .accept), r => r = .err .ok
  | _, _ => False

theorem not_announces_code {T : Table} {a : Action} {code : ErrorCode} (h : code ≠ .success) :
    ¬ Announces T a (.code code) := by
  unfold Announces
  split <;> simp [h]

/-- What one step can do to the table. -/
inductive TableStep (cfg : Config) (T : Table) : Action → Reply → Table → Prop
  /-- Nothing. -/
  | quiet {a : Action} {r : Reply} : ¬ Announces T a r → TableStep cfg T a r T
  /-- `socket` takes a slot, and then lwIP has no control block. -/
  | socketNull {i : ℕ} {protocol : Protocol} {k : ℤ} : i < cfg.nXtcp → protocol ≠ .none →
      T.freeSlot cfg = some k →
      TableStep cfg T (.call i (.socket protocol none)) (.int ErrorCode.enomem.toInt)
        (T.assign k i protocol)
  /-- `socket` makes a TCP socket. -/
  | socketTcp {i : ℕ} {p : Ptr} {k : ℤ} : i < cfg.nXtcp → T.freeSlot cfg = some k →
      T.tcp p = none →
      TableStep cfg T (.call i (.socket .tcp (some p))) (.int k)
        (((T.assign k i .tcp).setTcp p (some ⟨0, .closed⟩)).store k (.tcp p))
  /-- `socket` makes a UDP socket. -/
  | socketUdp {i : ℕ} {p : Ptr} {k : ℤ} : i < cfg.nXtcp → T.freeSlot cfg = some k →
      TableStep cfg T (.call i (.socket .udp (some p))) (.int k)
        (((T.assign k i .udp).setUdp p true).store k (.udp p))
  /-- `socket` makes a socket of no protocol. -/
  | socketNone {i : ℕ} {answer : Option Ptr} {k : ℤ} : i < cfg.nXtcp → T.freeSlot cfg = some k →
      TableStep cfg T (.call i (.socket .none answer)) (.int k) (T.assign k i .none)
  /-- `close` and `abort` release a slot. -/
  | close {i : ℕ} {call : Call} {k : ℤ} {lingers : Bool} {r : Reply} : call.closes k lingers →
      i < cfg.nXtcp → T.OwnedBy cfg i k →
      TableStep cfg T (.call i call) r ((T.closePcb k lingers).release cfg k)
  /-- `listen` exchanges the control block of a slot for a listening one. -/
  | listen {i : ℕ} {k : ℤ} {portNumber : UInt16} {ipaddr : IpAddr} {p l : Ptr} {arg : ℤ} :
      i < cfg.nXtcp → T.OwnedBy cfg i k → (T.slot k).protocol = .tcp →
      (T.slot k).pcb.addr = some p →
      T.tcp p = some ⟨arg, .closed⟩ → T.tcp l = none →
      TableStep cfg T (.call i (.listen k portNumber ipaddr ⟨.ok, some l⟩)) (.code .success)
        (((T.setTcp p none).setTcp l (some ⟨k, .listen⟩)).store k (.tcp l))
  /-- `connect` starts a connection on the control block of a slot. -/
  | connect {i : ℕ} {k : ℤ} {portNumber : UInt16} {ipaddr : IpAddr} {p : Ptr} {arg : ℤ} :
      i < cfg.nXtcp → T.OwnedBy cfg i k → (T.slot k).protocol = .tcp →
      (T.slot k).pcb.addr = some p →
      T.tcp p = some ⟨arg, .closed⟩ →
      TableStep cfg T (.call i (.connect k portNumber ipaddr .ok)) (.code .success)
        (T.setTcp p (some ⟨arg, .active⟩))
  /-- `set_connection_client_data` -/
  | clientData {i : ℕ} {k : ℤ} {data : Option Ptr} {r : Reply} : i < cfg.nXtcp →
      T.OwnedBy cfg i k →
      TableStep cfg T (.call i (.setConnectionClientData k data)) r
        (T.setSlot k { T.slot k with clientData := data })
  /-- A connection request arrives. -/
  | syn {l n : Ptr} {arg : ℤ} {r : Reply} : T.tcp l = some ⟨arg, .listen⟩ → T.tcp n = none →
      TableStep cfg T (.happens (.syn l n)) r (T.setTcp n (some ⟨arg, .synRcvd l⟩))
  /-- A connection is accepted. -/
  | accepted {l n : Ptr} {arg k : ℤ} : T.tcp n = some ⟨arg, .synRcvd l⟩ → cfg.InRange arg →
      (T.slot arg).protocol = .tcp → T.freeSlot cfg = some k →
      TableStep cfg T (.happens (.tcpEvent n arg .accept)) (.err .ok)
        (((T.assign k (T.slot arg).clientNum .tcp).store k (.tcp n)).setTcp n
          (some ⟨k, .active⟩))
  /-- A connection gets a slot, its event cannot be queued, and lwIP aborts it. -/
  | acceptAborted {l n : Ptr} {arg k : ℤ} : T.tcp n = some ⟨arg, .synRcvd l⟩ →
      cfg.InRange arg → (T.slot arg).protocol = .tcp → T.freeSlot cfg = some k →
      TableStep cfg T (.happens (.tcpEvent n arg .accept)) (.err .inprogress)
        ((((T.assign k (T.slot arg).clientNum .tcp).store k (.tcp n)).setTcp n none).release
          cfg k)
  /-- A connection gets no slot, and lwIP aborts it with the argument it came with. -/
  | acceptRefused {l n : Ptr} {arg : ℤ} : T.tcp n = some ⟨arg, .synRcvd l⟩ →
      (cfg.InRange arg → (T.slot arg).protocol = .tcp → T.freeSlot cfg = none) →
      TableStep cfg T (.happens (.tcpEvent n arg .accept)) (.err .mem)
        ((T.setTcp n none).release cfg arg)
  /-- A connection fails. -/
  | err {p : Ptr} {arg : ℤ} {status : PcbStatus} {err : Err} {r : Reply} :
      T.tcp p = some ⟨arg, status⟩ → status ≠ .closed → status ≠ .listen →
      TableStep cfg T (.happens (.tcpEvent p arg (.err err))) r
        ((T.setTcp p none).release cfg arg)
  /-- A control block ends without a callback. -/
  | reap {p : Ptr} {route : Route} {r : Reply} : T.tcp p = some route →
      route.status ≠ .closed → route.status ≠ .listen → route.status ≠ .active →
      TableStep cfg T (.happens (.reap p)) r (T.setTcp p none)

end Xtcp
