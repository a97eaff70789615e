import Xtcp.Library.Simulation
import Xtcp.Rotation
import Xtcp.Environment

/-!
# The calls of the connection table

`connection.c` by itself: its functions may be called in any order, with any arguments.  In between
lwIP may do to its own pbufs and control blocks whatever it likes.

Two things are kept from one call to the next, the array of entries and the static cursor of
`assign_client_connection`.  The cursor may be one past the end of the array, and the scan wraps by
one subtraction, so that the scan stays within the array and comes by every slot is a matter of all
the calls before.  `init_client_connections` resets the array, and not the cursor.

## Main definitions

* `ConnectionOp`, `connectionOp` — the functions as one system.
* `FirstFree` — the first inactive slot from the cursor on, around the table.
* `held` — the ids that have been given out and not been given back.
* `InitForgets` — after `init_client_connections`, nothing is left of two histories.

## Main results

* `allocation_sound_complete` — **a slot is found whenever there is one, and the first one**.
* `init_forgets_iff` — **initialisation forgets a history exactly when its cursor is back at the
  start of the table**.
-/

namespace Xtcp

open Runs

variable {cfg : Config} {s s' t : Server}

/-! ### Calls -/

/-- A call of a function of `connection.c`. -/
inductive ConnectionOp
  /-- `init_client_connections()` -/
  | init
  /-- `find_client_connection(client_num, id)` -/
  | find (clientNum : ℕ) (id : ℤ)
  /-- `clear_pending_rx_data_on_connection(index)` -/
  | clearPending (index : ℤ)
  /-- `free_client_connection(index)` -/
  | free (index : ℤ)
  /-- `assign_client_connection(client_num, protocol)` -/
  | assign (clientNum : ℕ) (protocol : Protocol)
  /-- `is_active(index)` -/
  | isActive (index : ℤ)
  /-- `set_udp_pcb(index, udp_pcb)` -/
  | setUdpPcb (index : ℤ) (udpPcb : Option Ptr)
  /-- `set_tcp_pcb(index, tcp_pcb)` -/
  | setTcpPcb (index : ℤ) (tcpPcb : Option Ptr)
  /-- `get_protocol(index)` -/
  | getProtocol (index : ℤ)
  /-- `get_udp_pcb(index)` -/
  | getUdpPcb (index : ℤ)
  /-- `get_tcp_pcb(index)` -/
  | getTcpPcb (index : ℤ)
  /-- `get_client_info(index)` -/
  | getClientInfo (index : ℤ)
  /-- `set_remote(index, remote, port_number, pbuf)` -/
  | setRemote (index : ℤ) (remote : Option IpAddr) (portNumber : UInt16) (pbuf : Option Ptr)
  /-- `get_remote_from_pcb(index)` -/
  | getRemoteFromPcb (index : ℤ)
  /-- `get_local_from_pcb(index)` -/
  | getLocalFromPcb (index : ℤ)
  /-- `get_remote(index)` -/
  | getRemote (index : ℤ)
  /-- `get_remote_data(index, &data, length, &timestamp)` -/
  | getRemoteData (index length : ℤ)
  /-- `free_remote_data(index)` -/
  | freeRemoteData (index : ℤ)
  /-- `unlink_remote(index, pbuf)` -/
  | unlinkRemote (index : ℤ) (pbuf : Option Ptr)
  /-- `set_connection_client_data(index, data)` -/
  | setConnectionClientData (index : ℤ) (data : Option Ptr)
  /-- `get_connection_client_data(index)` -/
  | getConnectionClientData (index : ℤ)
  /-- lwIP works on its own pbufs and control blocks. -/
  | lwip (l : LwipState)

/-- What a call returns. -/
inductive ConnectionReply
  /-- Nothing. -/
  | unit
  /-- An error code. -/
  | code (code : ErrorCode)
  /-- A status and a number. -/
  | value (result : ErrorInt32)
  /-- A protocol. -/
  | protocol (protocol : Protocol)
  /-- A pointer. -/
  | ptr (p : Option Ptr)
  /-- A client. -/
  | client (clientNum : ℕ)
  /-- An address and a port. -/
  | host (host : Host)
  /-- Received data. -/
  | data (data : RemoteData)

/-- Carry out a call. -/
def connectionOp (cfg : Config) (s : Server) :
    ConnectionOp → Except Fault (Server × ConnectionReply)
  | .init => .ok (initClientConnections cfg s, .unit)
  | .find clientNum id => .ok (s, .value (findClientConnection cfg s clientNum id))
  | .clearPending index => do .ok (← clearPendingRxDataOnConnection cfg s index, .unit)
  | .free index => .ok (freeClientConnection cfg s index, .unit)
  | .assign clientNum protocol =>
    .ok ((assignClientConnection cfg s clientNum protocol).1,
      .value (assignClientConnection cfg s clientNum protocol).2)
  | .isActive index => .ok (s, .value (isActive cfg s index))
  | .setUdpPcb index udpPcb =>
    .ok ((setUdpPcb cfg s index udpPcb).1, .code (setUdpPcb cfg s index udpPcb).2)
  | .setTcpPcb index tcpPcb =>
    .ok ((setTcpPcb cfg s index tcpPcb).1, .code (setTcpPcb cfg s index tcpPcb).2)
  | .getProtocol index => .ok (s, .protocol (getProtocol cfg s index))
  | .getUdpPcb index => .ok (s, .ptr (getUdpPcb cfg s index))
  | .getTcpPcb index => .ok (s, .ptr (getTcpPcb cfg s index))
  | .getClientInfo index => .ok (s, .client (getClientInfo cfg s index))
  | .setRemote index remote portNumber pbuf => do
    let (s, e) ← setRemote cfg s index remote portNumber pbuf
    .ok (s, .code e)
  | .getRemoteFromPcb index => .ok (s, .host (getRemoteFromPcb cfg s index))
  | .getLocalFromPcb index => .ok (s, .host (getLocalFromPcb cfg s index))
  | .getRemote index => do .ok (s, .host (← getRemote cfg s index))
  | .getRemoteData index length => do .ok (s, .data (← getRemoteData cfg s index length))
  | .freeRemoteData index => do
    let (s, e) ← freeRemoteData cfg s index
    .ok (s, .code e)
  | .unlinkRemote index pbuf => do
    let (s, e) ← unlinkRemote cfg s index pbuf
    .ok (s, .code e)
  | .setConnectionClientData index data =>
    .ok ((setConnectionClientData cfg s index data).1,
      .code (setConnectionClientData cfg s index data).2)
  | .getConnectionClientData index => .ok (s, .ptr (getConnectionClientData cfg s index))
  | .lwip l => .ok (s.withLwip l, .unit)

/-- A sequence of calls from the start of the program. -/
abbrev History (cfg : Config) (ok : ConnectionOp → Prop)
    (tr : List (ConnectionOp × ConnectionReply)) (s : Server) : Prop :=
  Run (connectionOp cfg) (fun _ op => ok op) .static tr s

/-! ### The cursor -/

/-- Only `assign_client_connection` moves the cursor. -/
theorem lastGuid_connectionOp {op : ConnectionOp} {r : ConnectionReply}
    (hop : ∀ c protocol, op ≠ .assign c protocol) (h : connectionOp cfg s op = .ok (s', r)) :
    s'.lastGuid = s.lastGuid := by
  have hcursor : ∀ {t u : Server}, t.table = u.table → t.lastGuid = u.lastGuid :=
    fun h => congrArg Table.cursor h
  cases op with
  | assign c protocol => exact absurd rfl (hop c protocol)
  | clearPending index =>
    obtain ⟨t, ht, h⟩ := bind_eq_ok.mp h
    cases h
    exact hcursor (leaves_clearPending ht).table
  | free index =>
    cases h
    show (freeClientConnection cfg s index).lastGuid = s.lastGuid
    unfold freeClientConnection
    split <;> rfl
  | setUdpPcb index udpPcb =>
    cases h
    show (setUdpPcb cfg s index udpPcb).1.lastGuid = s.lastGuid
    unfold setUdpPcb
    split <;> rfl
  | setTcpPcb index tcpPcb =>
    cases h
    show (setTcpPcb cfg s index tcpPcb).1.lastGuid = s.lastGuid
    unfold setTcpPcb
    split <;> rfl
  | setRemote index remote portNumber pbuf =>
    obtain ⟨⟨t, e⟩, ht, h⟩ := bind_eq_ok.mp h
    cases h
    exact hcursor (leaves_setRemote ht).table
  | getRemote index | getRemoteData index length =>
    obtain ⟨x, -, h⟩ := bind_eq_ok.mp h
    cases h
    rfl
  | freeRemoteData index =>
    obtain ⟨⟨t, e⟩, ht, h⟩ := bind_eq_ok.mp h
    cases h
    exact hcursor (leaves_freeRemoteData ht).table
  | unlinkRemote index pbuf =>
    obtain ⟨⟨t, e⟩, ht, h⟩ := bind_eq_ok.mp h
    cases h
    exact hcursor (leaves_unlinkRemote ht).table
  | setConnectionClientData index data =>
    cases h
    show (setConnectionClientData cfg s index data).1.lastGuid = s.lastGuid
    unfold setConnectionClientData
    split <;> rfl
  | init | find | isActive | getProtocol | getUdpPcb | getTcpPcb | getClientInfo
  | getRemoteFromPcb | getLocalFromPcb | getConnectionClientData | lwip =>
    cases h
    rfl

/-- `assign_client_connection` keeps the cursor in bounds. -/
theorem cursorOk_assign (hcur : s.table.CursorOk cfg) (c : ℕ) (protocol : Protocol) :
    (assignClientConnection cfg s c protocol).1.table.CursorOk cfg := by
  have hop : tableOp cfg s (.assign c protocol) = .ok (_, _) := rfl
  exact cursorOk_tableOp hcur hop

/-- **The cursor stays in bounds**, one past the end included. -/
theorem History.cursorOk {ok : ConnectionOp → Prop} {tr : List (ConnectionOp × ConnectionReply)}
    (hrun : History cfg ok tr s) : s.table.CursorOk cfg := by
  refine Run.invariant (I := fun s => s.table.CursorOk cfg) hrun ⟨le_rfl, by simp [Server.table,
    Server.static]⟩ ?_
  intro s op s' r hcur _ hs
  by_cases hop : ∀ c protocol, op ≠ .assign c protocol
  · have hcursor := lastGuid_connectionOp hop hs
    show 0 ≤ s'.lastGuid ∧ s'.lastGuid ≤ cfg.maxOpenSockets
    rw [hcursor]
    exact hcur
  · push Not at hop
    obtain ⟨c, protocol, rfl⟩ := hop
    cases hs
    exact cursorOk_assign hcur c protocol

/-! ### Allocation -/

/-- The calls that give out slots and take them back. -/
def ConnectionOp.Allocates : ConnectionOp → Prop
  | .init | .assign _ _ | .free _ => True
  | _ => False

/-- Slot `k` is the first inactive one from the cursor on, around the table. -/
def FirstFree (cfg : Config) (s : Server) (k : ℤ) : Prop :=
  ∃ i < cfg.maxOpenSockets, k = (s.lastGuid + i) % cfg.maxOpenSockets ∧
    (s.connections k).isActive = false ∧
    ∀ i' < i, (s.connections ((s.lastGuid + (i' : ℕ)) % cfg.maxOpenSockets)).isActive = true

/-- What `assign_client_connection` is to do. -/
structure AssignsFirstFree (cfg : Config) (s : Server) (c : ℕ) (protocol : Protocol) : Prop where
  /-- It succeeds when there is an inactive slot. -/
  success_iff : (assignClientConnection cfg s c protocol).2.status = .success ↔
    ∃ k, cfg.InRange k ∧ (s.connections k).isActive = false
  /-- Then it returns the first one, and changes this slot and the cursor. -/
  first : ∀ k, (assignClientConnection cfg s c protocol).2 = ⟨.success, k⟩ →
    FirstFree cfg s k ∧
      (assignClientConnection cfg s c protocol).1 = { s.setEntry k { s.connections k with
        isActive := true
        clientNum := c
        protocol := protocol
        pcb := .null } with lastGuid := k + 1 }
  /-- It returns `XTCP_ENOMEM` when all slots are active. -/
  enomem_iff : (assignClientConnection cfg s c protocol).2.status = .enomem ↔
    ∀ k, cfg.InRange k → (s.connections k).isActive = true
  /-- Then it changes nothing. -/
  unchanged : (assignClientConnection cfg s c protocol).2.status = .enomem →
    (assignClientConnection cfg s c protocol).1 = s

/-- The scan comes to the slots of the table, and to all of them. -/
theorem inRange_iff_assignIndex (hcur : s.table.CursorOk cfg) (k : ℤ) :
    cfg.InRange k ↔ ∃ i < cfg.maxOpenSockets, assignIndex cfg s i = k := by
  have hpos : (0 : ℤ) < cfg.maxOpenSockets := by exact_mod_cast cfg.sockets_pos
  constructor
  · rintro ⟨h0, h1⟩
    obtain ⟨i, hi, hk⟩ := Cyclic.exists_add_emod (a := s.lastGuid) h0 h1
    exact ⟨i, by omega, by rw [assignIndex_eq hcur (by omega), hk]⟩
  · rintro ⟨i, hi, rfl⟩
    rw [assignIndex_eq hcur hi]
    exact ⟨Int.emod_nonneg _ (by omega), Int.emod_lt_of_pos _ hpos⟩

theorem assignsFirstFree (hcur : s.table.CursorOk cfg) (c : ℕ) (protocol : Protocol) :
    AssignsFirstFree cfg s c protocol := by
  cases hfree : s.table.freeSlot cfg with
  | none =>
    have hall : ∀ k, cfg.InRange k → (s.connections k).isActive = true :=
      fun k hk => Table.freeSlot_none hcur hfree hk
    have hassign := assign_of_none hfree c protocol
    constructor
    · rw [hassign]
      constructor
      · intro h; cases h
      · rintro ⟨k, hk, hinactive⟩
        rw [hall k hk] at hinactive
        cases hinactive
    · intro k hk
      rw [hassign] at hk
      cases hk
    · rw [hassign]
      exact ⟨fun _ => hall, fun _ => rfl⟩
    · intro _
      rw [hassign]
  | some k =>
    obtain ⟨hk, hinactive⟩ := Table.freeSlot_some hcur hfree
    have hinactive : (s.connections k).isActive = false := hinactive
    have hassign := (assign_of_some hfree c protocol).1
    rw [freeSlot_table] at hfree
    constructor
    · rw [hassign]
      exact ⟨fun _ => ⟨k, hk, hinactive⟩, fun _ => rfl⟩
    · intro k' hk'
      rw [hassign] at hk'
      cases hk'
      obtain ⟨i, hi, hidx, -, hbefore⟩ := assign_scan hcur hassign
      refine ⟨⟨i, hi, hidx, hinactive, fun i' hi' => ?_⟩, ?_⟩
      · obtain ⟨j, -, hj, hactive⟩ := hbefore i' hi'
        rw [← hj]
        exact hactive j le_rfl
      · simp only [assignClientConnection, hfree]
    · rw [hassign]
      constructor
      · intro h; cases h
      · intro hall
        rw [hall k hk] at hinactive
        cases hinactive
    · intro h
      rw [hassign] at h
      cases h

/-- The ids that are held after one more call. -/
def noteHeld (ids : List ℤ) : ConnectionOp × ConnectionReply → List ℤ
  | (.init, _) => []
  | (.free index, _) => ids.filter (· ≠ index)
  | (.assign _ _, .value ⟨.success, k⟩) => k :: ids
  | _ => ids

/-- The ids that have been given out and not been given back. -/
def held (tr : List (ConnectionOp × ConnectionReply)) : List ℤ := tr.foldl noteHeld []

/-- **The ids that are held** are the active slots, and each is held once. -/
theorem held_eq {tr : List (ConnectionOp × ConnectionReply)}
    (hrun : History cfg ConnectionOp.Allocates tr s) :
    (held tr).Nodup ∧ ∀ k, k ∈ held tr ↔ cfg.InRange k ∧ (s.connections k).isActive = true := by
  induction hrun with
  | nil => exact ⟨List.nodup_nil, fun k => by simp [held, Server.static]⟩
  | @snoc tr t t' op r hrun hok hs ih =>
    obtain ⟨hnodup, hmem⟩ := ih
    have hcur : t.table.CursorOk cfg := History.cursorOk hrun
    rw [held, List.foldl_append]
    show (noteHeld (held tr) (op, r)).Nodup ∧ ∀ k, k ∈ noteHeld (held tr) (op, r) ↔ _
    cases op with
    | init =>
      cases hs
      refine ⟨List.nodup_nil, fun k => ?_⟩
      simp only [noteHeld, List.not_mem_nil, initClientConnections, false_iff, not_and]
      intro hk
      rw [if_pos hk]
      simp [ConnectionEntry.released]
    | free index =>
      cases hs
      refine ⟨hnodup.filter _, fun k => ?_⟩
      simp only [noteHeld, List.mem_filter, hmem, freeClientConnection]
      by_cases hk : k = index
      · subst hk
        by_cases hin : cfg.InRange k <;>
          simp [hin, Server.setEntry, ConnectionEntry.released]
      · split <;> simp [hk, Server.setEntry]
    | assign c protocol =>
      cases hs
      cases hfree : t.table.freeSlot cfg with
      | none =>
        rw [assign_of_none hfree]
        exact ⟨hnodup, hmem⟩
      | some k =>
        have hassign := (assign_of_some hfree c protocol).1
        obtain ⟨hk, hinactive⟩ := Table.freeSlot_some hcur hfree
        have hinactive : (t.connections k).isActive = false := hinactive
        have hstate := ((assignsFirstFree hcur c protocol).first k hassign).2
        rw [hassign, hstate]
        refine ⟨List.nodup_cons.mpr ⟨fun hheld => ?_, hnodup⟩, fun j => ?_⟩
        · -- an id that is held belongs to an active slot
          rw [((hmem k).mp hheld).2] at hinactive
          cases hinactive
        · simp only [noteHeld, List.mem_cons, hmem, Server.setEntry]
          by_cases hj : j = k
          · subst hj
            simp [hk]
          · simp [hj]
    | _ => exact absurd hok id

/-- **Allocation is sound and complete.**  After any calls that give out slots and take them back,
the cursor is in bounds, a scan comes to every slot of the table and to nothing else, and
`assign_client_connection` finds the first inactive slot whenever there is one; no id is given out
while it is held. -/
theorem allocation_sound_complete {tr : List (ConnectionOp × ConnectionReply)}
    (hrun : History cfg ConnectionOp.Allocates tr s) :
    (0 ≤ s.lastGuid ∧ s.lastGuid ≤ cfg.maxOpenSockets) ∧
    (∀ k, cfg.InRange k ↔ ∃ i < cfg.maxOpenSockets, assignIndex cfg s i = k) ∧
    (∀ c protocol, AssignsFirstFree cfg s c protocol) ∧
    (held tr).Nodup ∧ ∀ k, k ∈ held tr ↔ cfg.InRange k ∧ (s.connections k).isActive = true := by
  have hcur := hrun.cursorOk
  exact ⟨hcur, inRange_iff_assignIndex hcur, assignsFirstFree hcur, held_eq hrun⟩

/-- Both slots are given out and slot 0 is taken back; the cursor is one past the end, and the
next scan starts with slot 0. -/
theorem allocation_sound_complete_wrapped : ∃ tr s, History .small ConnectionOp.Allocates tr s ∧
    s.lastGuid = 2 ∧ held tr = [1] ∧ FirstFree .small s 0 ∧
    (assignClientConnection .small s 1 .udp).2 = ⟨.success, 0⟩ := by
  have hrun : History .small ConnectionOp.Allocates
      [(.assign 0 .tcp, .value ⟨.success, 0⟩), (.assign 0 .tcp, .value ⟨.success, 1⟩),
        (.free 0, .unit)] _ :=
    .cons trivial rfl (.cons trivial rfl (.cons trivial rfl .nil))
  obtain ⟨-, -, hassigns, -⟩ := allocation_sound_complete hrun
  refine ⟨_, _, hrun, rfl, rfl, ?_, rfl⟩
  exact ((hassigns 1 .udp).first 0 rfl).1

/-! ### Initialisation -/

/-- The calls that give out slots, take them back, or look at them. -/
def ConnectionOp.Observes : ConnectionOp → Prop
  | .assign _ _ | .find _ _ | .free _ | .isActive _ | .getProtocol _ | .getUdpPcb _
  | .getTcpPcb _ | .getClientInfo _ | .getRemoteFromPcb _ | .getLocalFromPcb _ | .getRemote _
  | .getRemoteData _ _ | .getConnectionClientData _ => True
  | _ => False

/-- After `init_client_connections`, nothing can be told of the histories that have led to `s` and
to `t`: every sequence of calls returns the same from both, and what it returns on a program that
has just been started; and the first id is 0. -/
def InitForgets (cfg : Config) (s t : Server) : Prop :=
  (∀ ops, (∀ op ∈ ops, ConnectionOp.Observes op) → ∃ rs,
    replies (connectionOp cfg) (initClientConnections cfg s) ops = .ok rs ∧
    replies (connectionOp cfg) (initClientConnections cfg t) ops = .ok rs ∧
    replies (connectionOp cfg) (initClientConnections cfg .static) ops = .ok rs) ∧
  ∀ c protocol,
    (assignClientConnection cfg (initClientConnections cfg s) c protocol).2 = ⟨.success, 0⟩ ∧
    (assignClientConnection cfg (initClientConnections cfg t) c protocol).2 = ⟨.success, 0⟩

/-- The cursor is at the start of the table, or one past its end, which is the same. -/
def CursorAtStart (cfg : Config) (s : Server) : Prop :=
  s.lastGuid = 0 ∨ s.lastGuid = cfg.maxOpenSockets

/-- The tables are the same, without data and without control blocks, and so are the cursors
around the table. -/
structure Alike (cfg : Config) (s t : Server) : Prop where
  /-- The entries are the same. -/
  entry : ∀ k, cfg.InRange k → t.connections k = s.connections k
  /-- There is no data. -/
  pbuf : ∀ k, cfg.InRange k → (s.connections k).pbuf = none
  /-- There are no control blocks. -/
  pcb : ∀ k, cfg.InRange k → (s.connections k).pcb = .null
  /-- The scans start at the same slot. -/
  cursor : t.lastGuid % cfg.maxOpenSockets = s.lastGuid % cfg.maxOpenSockets
  /-- The cursor of `s` is in bounds. -/
  left : s.table.CursorOk cfg
  /-- The cursor of `t` is in bounds. -/
  right : t.table.CursorOk cfg

namespace Alike

/-- After initialisation two states differ in their cursors only. -/
theorem init (hs : s.table.CursorOk cfg) (ht : t.table.CursorOk cfg)
    (hcursor : t.lastGuid % cfg.maxOpenSockets = s.lastGuid % cfg.maxOpenSockets) :
    Alike cfg (initClientConnections cfg s) (initClientConnections cfg t) := by
  constructor
  · intro k hk
    simp only [initClientConnections, if_pos hk, ConnectionEntry.released]
  · intro k hk
    simp only [initClientConnections, if_pos hk]
  · intro k hk
    simp only [initClientConnections, if_pos hk, ConnectionEntry.released]
  · exact hcursor
  · exact hs
  · exact ht

/-- The scans come by the same slots. -/
theorem assignIndex (h : Alike cfg s t) {i : ℕ} (hi : i < cfg.maxOpenSockets) :
    assignIndex cfg t i = assignIndex cfg s i := by
  rw [assignIndex_eq h.left hi, assignIndex_eq h.right hi, Int.add_emod, h.cursor, ← Int.add_emod]

/-- The scans stop at the same slot. -/
theorem freeSlot (h : Alike cfg s t) : freeSlot cfg t = freeSlot cfg s := by
  unfold Xtcp.freeSlot
  have hfind : (List.range cfg.maxOpenSockets).find?
        (fun i : ℕ => !(t.connections (Xtcp.assignIndex cfg t i)).isActive)
      = (List.range cfg.maxOpenSockets).find?
        fun i : ℕ => !(s.connections (Xtcp.assignIndex cfg s i)).isActive := by
    refine List.find?_congr fun i hi => ?_
    have hi := List.mem_range.mp hi
    have hin : cfg.InRange (Xtcp.assignIndex cfg s i) :=
      (inRange_iff_assignIndex h.left _).mpr ⟨i, hi, rfl⟩
    rw [h.assignIndex hi, h.entry _ hin]
  rw [hfind]
  cases hi : (List.range cfg.maxOpenSockets).find?
      fun i : ℕ => !(s.connections (Xtcp.assignIndex cfg s i)).isActive with
  | none => rfl
  | some i =>
    have hmem := List.mem_range.mp (List.mem_of_find?_eq_some hi)
    rw [Option.map_some, Option.map_some, h.assignIndex hmem]

/-- Writing the same entry. -/
theorem setEntry (h : Alike cfg s t) (k : ℤ) {e : ConnectionEntry} (hpbuf : e.pbuf = none)
    (hpcb : e.pcb = .null) : Alike cfg (s.setEntry k e) (t.setEntry k e) := by
  have hentry : ∀ (u : Server) (j : ℤ), (u.setEntry k e).connections j
      = if j = k then e else u.connections j := fun u j => Function.update_apply _ _ _ _
  refine ⟨fun j hj => ?_, fun j hj => ?_, fun j hj => ?_, h.cursor, h.left, h.right⟩
  · rw [hentry, hentry, h.entry j hj]
  · rw [hentry]
    split
    · exact hpbuf
    · exact h.pbuf j hj
  · rw [hentry]
    split
    · exact hpcb
    · exact h.pcb j hj

/-- `assign_client_connection` -/
theorem assign (h : Alike cfg s t) (c : ℕ) (protocol : Protocol) :
    (assignClientConnection cfg t c protocol).2 = (assignClientConnection cfg s c protocol).2 ∧
      Alike cfg (assignClientConnection cfg s c protocol).1
        (assignClientConnection cfg t c protocol).1 := by
  have hleft := cursorOk_assign h.left c protocol
  have hright := cursorOk_assign h.right c protocol
  cases hfree : Xtcp.freeSlot cfg s with
  | none =>
    have hfree' : Xtcp.freeSlot cfg t = none := by rw [h.freeSlot, hfree]
    simp only [assignClientConnection, hfree, hfree']
    exact ⟨trivial, h⟩
  | some k =>
    have hfree' : Xtcp.freeSlot cfg t = some k := by rw [h.freeSlot, hfree]
    have hk : cfg.InRange k := (Table.freeSlot_some h.left hfree).1
    simp only [assignClientConnection, hfree, hfree', h.entry k hk] at hleft hright ⊢
    have hentry := h.setEntry k (e := { s.connections k with
      isActive := true, clientNum := c, protocol := protocol, pcb := .null }) (h.pbuf k hk) rfl
    exact ⟨trivial, hentry.entry, hentry.pbuf, hentry.pcb, rfl, hleft, hright⟩

/-- No call finds a control block. -/
theorem getPcb (h : Alike cfg s t) (index : ℤ) :
    (getUdpPcb cfg s index = none ∧ getUdpPcb cfg t index = none) ∧
      getTcpPcb cfg s index = none ∧ getTcpPcb cfg t index = none := by
  by_cases hk : cfg.InRange index
  · simp [getUdpPcb, getTcpPcb, h.entry index hk, h.pcb index hk, PcbUnion.addr]
  · simp [getUdpPcb, getTcpPcb, hk]

/-- There is no data on the other side either. -/
theorem pbuf_right (h : Alike cfg s t) (k : ℤ) (hk : cfg.InRange k) :
    (t.connections k).pbuf = none := by
  rw [h.entry k hk]
  exact h.pbuf k hk

/-- No call finds data. -/
theorem getRemote (h : Alike cfg s t) (index : ℤ) :
    getRemote cfg s index = .ok {} ∧ getRemote cfg t index = .ok {} := by
  exact ⟨getRemote_of_none (h.pbuf index), getRemote_of_none (h.pbuf_right index)⟩

theorem getRemoteData (h : Alike cfg s t) (index length : ℤ) :
    getRemoteData cfg s index length = .ok ⟨⟨.einval, -1⟩, [], 0⟩ ∧
      getRemoteData cfg t index length = .ok ⟨⟨.einval, -1⟩, [], 0⟩ := by
  exact ⟨getRemoteData_of_none (h.pbuf index) length,
    getRemoteData_of_none (h.pbuf_right index) length⟩

/-- `find_client_connection` -/
theorem find (h : Alike cfg s t) (c : ℕ) (id : ℤ) :
    findClientConnection cfg t c id = findClientConnection cfg s c id := by
  unfold findClientConnection
  rw [List.find?_congr fun i hi => ?_]
  have hi := List.mem_range.mp hi
  rw [h.entry i ⟨by omega, by exact_mod_cast hi⟩]

/-- `free_client_connection` -/
theorem free (h : Alike cfg s t) (index : ℤ) :
    Alike cfg (freeClientConnection cfg s index) (freeClientConnection cfg t index) := by
  unfold freeClientConnection
  split
  · next hk =>
    rw [h.entry index hk]
    exact h.setEntry index (h.pbuf index hk) rfl
  · exact h

/-- **Tables that are alike answer alike**, and stay alike. -/
theorem connectionOp (h : Alike cfg s t) {op : ConnectionOp} (hop : op.Observes) :
    ∃ s' t' r, connectionOp cfg s op = .ok (s', r) ∧ connectionOp cfg t op = .ok (t', r) ∧
      Alike cfg s' t' := by
  -- a call that looks at one entry
  have hget : ∀ {α : Type} (index : ℤ) (f : ConnectionEntry → α) (x : α),
      (if cfg.InRange index then f (t.connections index) else x)
        = if cfg.InRange index then f (s.connections index) else x := by
    intro α index f x
    split
    · next hk => rw [h.entry index hk]
    · rfl
  have hprotocol : ∀ index, getProtocol cfg t index = getProtocol cfg s index :=
    fun index => hget index ConnectionEntry.protocol .none
  cases op with
  | assign c protocol =>
    obtain ⟨hresult, halike⟩ := h.assign c protocol
    refine ⟨_, _, _, rfl, ?_, halike⟩
    simp only [Xtcp.connectionOp, hresult]
  | find c id => exact ⟨s, t, _, rfl, by simp only [Xtcp.connectionOp, h.find], h⟩
  | free index => exact ⟨_, _, _, rfl, rfl, h.free index⟩
  | isActive index =>
    have hactive : isActive cfg t index = isActive cfg s index :=
      hget index (fun e => (⟨.success, if e.isActive then 1 else 0⟩ : ErrorInt32)) ⟨.einval, -1⟩
    exact ⟨s, t, _, rfl, by simp only [Xtcp.connectionOp, hactive], h⟩
  | getProtocol index => exact ⟨s, t, _, rfl, by simp only [Xtcp.connectionOp, hprotocol], h⟩
  | getUdpPcb index =>
    obtain ⟨⟨hs, ht⟩, -⟩ := h.getPcb index
    exact ⟨s, t, _, rfl, by simp only [Xtcp.connectionOp, hs, ht], h⟩
  | getTcpPcb index =>
    obtain ⟨-, hs, ht⟩ := h.getPcb index
    exact ⟨s, t, _, rfl, by simp only [Xtcp.connectionOp, hs, ht], h⟩
  | getClientInfo index =>
    have hclient : getClientInfo cfg t index = getClientInfo cfg s index :=
      hget index ConnectionEntry.clientNum deinit
    exact ⟨s, t, _, rfl, by simp only [Xtcp.connectionOp, hclient], h⟩
  | getRemoteFromPcb index =>
    obtain ⟨⟨hsu, htu⟩, hst, htt⟩ := h.getPcb index
    refine ⟨s, t, _, rfl, ?_, h⟩
    simp only [Xtcp.connectionOp, getRemoteFromPcb, hprotocol, hsu, htu, hst, htt,
      Option.bind_none]
  | getLocalFromPcb index =>
    obtain ⟨⟨hsu, htu⟩, hst, htt⟩ := h.getPcb index
    refine ⟨s, t, _, rfl, ?_, h⟩
    simp only [Xtcp.connectionOp, getLocalFromPcb, hprotocol, hsu, htu, hst, htt,
      Option.bind_none]
  | getRemote index =>
    obtain ⟨hs, ht⟩ := h.getRemote index
    exact ⟨s, t, _, by simp only [Xtcp.connectionOp, hs]; rfl,
      by simp only [Xtcp.connectionOp, ht]; rfl, h⟩
  | getRemoteData index length =>
    obtain ⟨hs, ht⟩ := h.getRemoteData index length
    exact ⟨s, t, _, by simp only [Xtcp.connectionOp, hs]; rfl,
      by simp only [Xtcp.connectionOp, ht]; rfl, h⟩
  | getConnectionClientData index =>
    have hdata : getConnectionClientData cfg t index = getConnectionClientData cfg s index :=
      hget index ConnectionEntry.clientData none
    exact ⟨s, t, _, rfl, by simp only [Xtcp.connectionOp, hdata], h⟩
  | _ => exact absurd hop id

end Alike

/-- The first id after initialisation is where the cursor has been left. -/
theorem assign_init (hcur : s.table.CursorOk cfg) (c : ℕ) (protocol : Protocol) :
    (assignClientConnection cfg (initClientConnections cfg s) c protocol).2
      = ⟨.success, s.lastGuid % cfg.maxOpenSockets⟩ := by
  have hpos : (0 : ℤ) < cfg.maxOpenSockets := by exact_mod_cast cfg.sockets_pos
  have hinactive : ∀ k, cfg.InRange k →
      ((initClientConnections cfg s).connections k).isActive = false := by
    intro k hk
    simp only [initClientConnections, if_pos hk, ConnectionEntry.released]
  have hcur' : (initClientConnections cfg s).table.CursorOk cfg := hcur
  have hassigns := assignsFirstFree hcur' c protocol
  have hsuccess := hassigns.success_iff.mpr ⟨0, ⟨le_rfl, hpos⟩, hinactive 0 ⟨le_rfl, hpos⟩⟩
  cases hresult : (assignClientConnection cfg (initClientConnections cfg s) c protocol).2 with
  | mk status k =>
    rw [hresult] at hsuccess
    obtain rfl : status = .success := hsuccess
    obtain ⟨⟨i, -, hk, -, hbefore⟩, -⟩ := hassigns.first k hresult
    -- no slot has been passed by
    rcases Nat.eq_zero_or_pos i with rfl | hi
    · rw [hk, Nat.cast_zero, add_zero]
      rfl
    · have hactive := hbefore 0 hi
      rw [hinactive _ ⟨Int.emod_nonneg _ (by omega), Int.emod_lt_of_pos _ hpos⟩] at hactive
      cases hactive

theorem cursorAtStart_iff (hcur : s.table.CursorOk cfg) :
    CursorAtStart cfg s ↔ s.lastGuid % cfg.maxOpenSockets = 0 := by
  obtain ⟨h0, h1⟩ := hcur
  have h0 : 0 ≤ s.lastGuid := h0
  have h1 : s.lastGuid ≤ cfg.maxOpenSockets := h1
  constructor
  · rintro (h | h)
    · rw [h, Int.zero_emod]
    · rw [h, Int.emod_self]
  · intro h
    rcases lt_or_eq_of_le h1 with hlt | heq
    · rw [Int.emod_eq_of_lt h0 hlt] at h
      exact .inl h
    · exact .inr heq

/-- **Initialisation forgets two histories exactly when both have left the cursor at the start of
the table.** -/
theorem init_forgets_iff {tr tr' : List (ConnectionOp × ConnectionReply)}
    (hs : History cfg (fun _ => True) tr s) (ht : History cfg (fun _ => True) tr' t) :
    InitForgets cfg s t ↔ CursorAtStart cfg s ∧ CursorAtStart cfg t := by
  have hcs := hs.cursorOk
  have hct := ht.cursorOk
  have hnil : History cfg (fun _ => True) [] Server.static := .nil
  have hc0 := hnil.cursorOk
  rw [cursorAtStart_iff hcs, cursorAtStart_iff hct]
  constructor
  · rintro ⟨-, hfirst⟩
    obtain ⟨h, h'⟩ := hfirst 0 .none
    rw [assign_init hcs] at h
    rw [assign_init hct] at h'
    exact ⟨congrArg ErrorInt32.value h, congrArg ErrorInt32.value h'⟩
  · rintro ⟨h, h'⟩
    have hzero : Server.static.lastGuid % (cfg.maxOpenSockets : ℤ) = 0 := Int.zero_emod _
    have hsame : ∀ {u : Server}, u.table.CursorOk cfg → u.lastGuid % cfg.maxOpenSockets = 0 →
        ∀ ops, (∀ op ∈ ops, ConnectionOp.Observes op) → ∃ rs,
          replies (connectionOp cfg) (initClientConnections cfg .static) ops = .ok rs ∧
          replies (connectionOp cfg) (initClientConnections cfg u) ops = .ok rs := by
      intro u hcur hu ops hops
      have halike : Alike cfg (initClientConnections cfg .static) (initClientConnections cfg u) :=
        .init hc0 hcur (hu.trans hzero.symm)
      exact replies_eq (fun _ _ _ h hop => h.connectionOp hop) halike hops
    refine ⟨fun ops hops => ?_, fun c protocol => ?_⟩
    · obtain ⟨rs, h0, hrs⟩ := hsame hcs h ops hops
      obtain ⟨rs', h0', hrs'⟩ := hsame hct h' ops hops
      obtain rfl : rs = rs' := Except.ok.inj (h0.symm.trans h0')
      exact ⟨rs, hrs, hrs', h0⟩
    · rw [assign_init hcs, assign_init hct, h, h']
      exact ⟨rfl, rfl⟩

/-- Both slots have been given out, and data has come for one of them. -/
theorem init_forgets_iff_wrapped : ∃ tr s, History .small (fun _ => True) tr s ∧
    (s.connections 0).pbuf = some 20 ∧ (s.connections 1).isActive = true ∧
    InitForgets .small s .static := by
  have hrun : History .small (fun _ => True)
      [(.assign 0 .udp, .value ⟨.success, 0⟩), (.assign 1 .tcp, .value ⟨.success, 1⟩),
        (.lwip { Server.static.lwip with
          pbufs := Function.update (fun _ => none) 20
            (some { payload := ⟨[1, 2], by decide⟩, totLen := 2 }) }, .unit),
        (.setRemote 0 none 7 (some 20), .code .success)] _ :=
    .cons trivial rfl (.cons trivial rfl (.cons trivial rfl (.cons trivial rfl .nil)))
  have hnil : History .small (fun _ => True) [] Server.static := .nil
  exact ⟨_, _, hrun, rfl, rfl, (init_forgets_iff hrun hnil).mpr ⟨.inr rfl, .inl rfl⟩⟩

/-- One slot has been given out, and the first id after initialisation is 1. -/
theorem init_keeps_cursor : ¬ ∀ tr s tr' t, History .small (fun _ => True) tr s →
    History .small (fun _ => True) tr' t → InitForgets .small s t := by
  intro hforgets
  have hrun : History .small (fun _ => True) [(.assign 0 .tcp, .value ⟨.success, 0⟩)] _ :=
    .cons trivial rfl .nil
  obtain ⟨-, hfirst⟩ := hforgets _ _ _ _ hrun .nil
  cases (hfirst 0 .tcp).1

end Xtcp
