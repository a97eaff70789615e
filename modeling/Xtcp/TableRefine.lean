import Xtcp.Table

/-!
# The server refines its table

Every step of the server is a `TableStep` of its table.  Each function of the
library gets one equation for the table it leaves; most of them leave it alone.

## Main results

* `table_freeClientConnection`, `assign_of_some`, `assign_of_none`, `table_setTcpPcb`,
  `table_closePcb` — the functions that write the table.
* `leaves_setRemote`, `leaves_receive`, `leaves_sendCommon`, … — those that do not.
* `step_table` — **every step of the server is a step of its table**.
-/

namespace Xtcp

open Runs

variable {cfg : Config} {s s' : Server}

/-! ### Writing one entry -/

@[simp] theorem table_setEntry (s : Server) (k : ℤ) (e : ConnectionEntry) :
    (s.setEntry k e).table = s.table.setSlot k e.slot := by
  have : (fun j => (Function.update s.connections k e j).slot)
      = Function.update (fun j => (s.connections j).slot) k e.slot := by
    funext j
    exact Function.apply_update (fun _ => ConnectionEntry.slot) _ _ _ _
  simp only [Server.table, Server.setEntry, Table.setSlot, this]

/-- Writing one TCP control block writes one route. -/
theorem table_updateTcp (s : Server) (p : Ptr) (b : Option TcpPcb) :
    ({ s with tcp := Function.update s.tcp p b } : Server).table
      = s.table.setTcp p (b.map TcpPcb.route) := by
  have : (fun q => (Function.update s.tcp p b q).map TcpPcb.route)
      = Function.update (fun q => (s.tcp q).map TcpPcb.route) p (b.map TcpPcb.route) := by
    funext q
    exact Function.apply_update (fun _ => Option.map TcpPcb.route) _ _ _ _
  simp only [Server.table, Table.setTcp, this]

/-- Writing one UDP control block. -/
theorem table_updateUdp (s : Server) (p : Ptr) (b : Option UdpPcb) :
    ({ s with udp := Function.update s.udp p b } : Server).table
      = s.table.setUdp p b.isSome := by
  have : (fun q => (Function.update s.udp p b q).isSome)
      = Function.update (fun q => (s.udp q).isSome) p b.isSome := by
    funext q
    exact Function.apply_update (fun _ => Option.isSome) _ _ _ _
  simp only [Server.table, Table.setUdp, this]

@[simp] theorem Table.setTcp_self (T : Table) (p : Ptr) : T.setTcp p (T.tcp p) = T := by
  simp [Table.setTcp]

@[simp] theorem Table.setUdp_self (T : Table) (p : Ptr) : T.setUdp p (T.udp p) = T := by
  simp [Table.setUdp]

/-- A write to a TCP control block that leaves its argument and its status. -/
theorem table_modifyTcp (s : Server) (p : Ptr) {f : TcpPcb → TcpPcb}
    (hf : ∀ b, (f b).route = b.route) : (s.modifyTcp p f).table = s.table := by
  have hmap : ((s.tcp p).map f).map TcpPcb.route = s.table.tcp p := by
    rw [Option.map_map]
    exact congrArg (Option.map · (s.tcp p)) (funext hf)
  rw [Server.modifyTcp, table_updateTcp, hmap, Table.setTcp_self]

@[simp] theorem table_modifyUdp (s : Server) (p : Ptr) (f : UdpPcb → UdpPcb) :
    (s.modifyUdp p f).table = s.table := by
  have hmap : ((s.udp p).map f).isSome = s.table.udp p := by simp [Server.table]
  rw [Server.modifyUdp, table_updateUdp, hmap, Table.setUdp_self]

@[simp] theorem table_tcpRecved (s : Server) (p : Ptr) (n : ℕ) :
    (tcpRecved s p n).table = s.table :=
  table_modifyTcp s p fun _ => rfl

@[simp] theorem table_tcpSetprio (s : Server) (p : Ptr) (n : ℕ) :
    (tcpSetprio s p n).table = s.table :=
  table_modifyTcp s p fun _ => rfl

@[simp] theorem table_tcpWrite (s : Server) (p : Ptr) (bytes : List UInt8) (answer : Err) :
    (tcpWrite s p bytes answer).table = s.table := by
  unfold tcpWrite
  split
  · exact table_modifyTcp s p fun _ => rfl
  · rfl

@[simp] theorem table_tcpBind (s : Server) (p : Ptr) (host : Host) (answer : Err) :
    (tcpBind s p host answer).table = s.table := by
  unfold tcpBind
  split
  · exact table_modifyTcp s p fun _ => rfl
  · rfl

@[simp] theorem table_udpBind (s : Server) (p : Ptr) (host : Host) (answer : Err) :
    (udpBind s p host answer).table = s.table := by
  unfold udpBind
  split
  · exact table_modifyUdp s p _
  · rfl

@[simp] theorem table_udpConnect (s : Server) (p : Ptr) (host : Host) (answer : Err) :
    (udpConnect s p host answer).table = s.table := by
  unfold udpConnect
  split
  · exact table_modifyUdp s p _
  · rfl

@[simp] theorem table_udpRecv (s : Server) (p : Ptr) (arg : ℤ) :
    (udpRecv s p arg).table = s.table :=
  table_modifyUdp s p _

@[simp] theorem table_tcpNewIpType (s : Server) (p : Ptr) :
    (tcpNewIpType s p).table = s.table.setTcp p (some ⟨0, .closed⟩) :=
  table_updateTcp s p _

@[simp] theorem table_udpNewIpType (s : Server) (p : Ptr) :
    (udpNewIpType s p).table = s.table.setUdp p true :=
  table_updateUdp s p _

@[simp] theorem table_tcpFree (s : Server) (p : Ptr) :
    (tcpFree s p).table = s.table.setTcp p none :=
  table_updateTcp s p none

/-- A write to the status of a TCP control block. -/
theorem table_setStatus (s : Server) (p : Ptr) {f : TcpPcb → TcpPcb} {status : PcbStatus}
    (hf : ∀ b, (f b).route = { b.route with status := status }) :
    (s.modifyTcp p f).table
      = s.table.setTcp p ((s.table.tcp p).map fun r => { r with status := status }) := by
  rw [Server.modifyTcp, table_updateTcp]
  simp only [Server.table, Option.map_map]
  exact congrArg (s.table.setTcp p) (congrArg (Option.map · (s.tcp p)) (funext hf))

theorem table_tcpConnect (s : Server) (p : Ptr) (host : Host) :
    (tcpConnect s p host .ok).table
      = s.table.setTcp p ((s.table.tcp p).map fun r => { r with status := .active }) := by
  rw [tcpConnect, if_pos rfl]
  exact table_setStatus s p fun _ => rfl

@[simp] theorem table_tcpListen (s : Server) (p l : Ptr) :
    (tcpListen s p l).table
      = (s.table.setTcp p none).setTcp l
          ((s.table.tcp p).map fun r => { r with status := .listen }) := by
  show ({ (tcpFree s p) with tcp := Function.update (tcpFree s p).tcp l _ } : Server).table = _
  rw [table_updateTcp, table_tcpFree]
  simp only [Server.table, Option.map_map]
  rfl

@[simp] theorem table_tcpArg (s : Server) (p : Ptr) (arg : ℤ) :
    (tcpArg s p arg).table
      = s.table.setTcp p ((s.table.tcp p).map fun r => { r with arg := arg }) := by
  rw [tcpArg, Server.modifyTcp, table_updateTcp]
  simp only [Server.table, Option.map_map]
  rfl

@[simp] theorem table_tcpClose (s : Server) (p : Ptr) (id : ℤ) (lingers : Bool) :
    (tcpClose s p id lingers).table
      = s.table.setTcp p ((s.table.tcp p).bind fun r => r.close id lingers) := by
  rw [tcpClose, table_updateTcp]
  congr 1
  show ((s.tcp p).bind _).map _ = ((s.tcp p).map TcpPcb.route).bind _
  cases s.tcp p with
  | none => rfl
  | some b =>
    simp only [Option.bind_some, Option.map_some, Route.close, TcpPcb.route]
    split <;> rfl

@[simp] theorem table_udpRemove (s : Server) (p : Ptr) :
    (udpRemove s p).table = s.table.setUdp p false :=
  table_updateUdp s p none

/-! ### The functions that write the table -/

theorem freeSlot_table (s : Server) : s.table.freeSlot cfg = freeSlot cfg s := rfl

@[simp] theorem table_freeClientConnection (s : Server) (k : ℤ) :
    (freeClientConnection cfg s k).table = s.table.release cfg k := by
  unfold freeClientConnection Table.release
  split
  · exact table_setEntry s k _
  · rfl

/-- `assign_client_connection` when the table is full. -/
theorem assign_of_none (h : s.table.freeSlot cfg = none) (c : ℕ) (protocol : Protocol) :
    assignClientConnection cfg s c protocol = (s, ⟨.enomem, -1⟩) := by
  rw [freeSlot_table] at h
  simp only [assignClientConnection, h]

/-- `assign_client_connection` when there is a slot. -/
theorem assign_of_some {k : ℤ} (h : s.table.freeSlot cfg = some k) (c : ℕ) (protocol : Protocol) :
    (assignClientConnection cfg s c protocol).2 = ⟨.success, k⟩ ∧
      (assignClientConnection cfg s c protocol).1.table = s.table.assign k c protocol := by
  rw [freeSlot_table] at h
  simp only [assignClientConnection, h]
  refine ⟨trivial, ?_⟩
  show ({ (s.setEntry k _).table with cursor := k + 1 } : Table) = _
  rw [table_setEntry]
  rfl

theorem table_setTcpPcb {k : ℤ} (hk : cfg.InRange k) (hp : (s.table.slot k).protocol = .tcp)
    (p : Ptr) :
    (setTcpPcb cfg s k (some p)).1.table = s.table.store k (.tcp p) ∧
      (setTcpPcb cfg s k (some p)).2 = .success := by
  have hcond : cfg.InRange k ∧ (s.connections k).protocol = .tcp := ⟨hk, hp⟩
  rw [setTcpPcb, if_pos hcond]
  exact ⟨table_setEntry s k _, rfl⟩

theorem table_setUdpPcb {k : ℤ} (hk : cfg.InRange k) (hp : (s.table.slot k).protocol = .udp)
    (p : Ptr) :
    (setUdpPcb cfg s k (some p)).1.table = s.table.store k (.udp p) ∧
      (setUdpPcb cfg s k (some p)).2 = .success := by
  have hcond : cfg.InRange k ∧ (s.connections k).protocol = .udp := ⟨hk, hp⟩
  rw [setUdpPcb, if_pos hcond]
  exact ⟨table_setEntry s k _, rfl⟩

/-- `find_client_connection` finds the slots a client owns. -/
theorem find_success_iff {i : ℕ} {k : ℤ} :
    (findClientConnection cfg s i k).status = .success ↔ s.table.OwnedBy cfg i k := by
  unfold findClientConnection Table.OwnedBy Config.InRange
  constructor
  · intro h
    split at h
    · next j hj =>
      simp only [List.find?_range_eq_some, decide_eq_true_eq, List.mem_range] at hj
      obtain ⟨⟨hc, rfl⟩, hlt, -⟩ := hj
      exact ⟨⟨by omega, by omega⟩, hc⟩
    · cases h
  · rintro ⟨⟨h0, h1⟩, hc⟩
    split
    · rfl
    · next hj =>
      simp only [List.find?_range_eq_none, Bool.not_eq_true', decide_eq_false_iff_not] at hj
      refine absurd ?_ (hj k.toNat (by omega))
      have : ((k.toNat : ℕ) : ℤ) = k := Int.toNat_of_nonneg h0
      rw [this]
      exact ⟨hc, rfl⟩

theorem table_closePcb {k : ℤ} (hk : cfg.InRange k) (lingers : Bool) :
    (closePcb cfg s k lingers).table = s.table.closePcb k lingers := by
  have hslot : s.table.slot k = (s.connections k).slot := rfl
  simp only [closePcb, Table.closePcb, getProtocol, hk, if_true, getUdpPcb, getTcpPcb, hslot,
    ConnectionEntry.slot, true_and]
  cases (s.connections k).protocol <;> cases (s.connections k).pcb.addr <;> simp

/-! ### The functions that leave the table alone -/

/-- Neither the table nor the queues have changed, nor what lwIP keeps of refused
data. -/
structure Leaves (s s' : Server) : Prop where
  /-- The table is the same. -/
  table : s'.table = s.table
  /-- The queues are the same. -/
  queue : s'.queue = s.queue
  /-- lwIP keeps the same pbufs. -/
  refused : s'.refused = s.refused

theorem Leaves.trans {s s' s'' : Server} (h : Leaves s s') (h' : Leaves s' s'') : Leaves s s'' :=
  ⟨h'.table.trans h.table, h'.queue.trans h.queue, h'.refused.trans h.refused⟩

@[simp] theorem table_enqueue (s : Server) (c : ℕ) (id : ℤ) (e : EventType) :
    (enqueue cfg s c id e).1.table = s.table := rfl

theorem table_setPbuf (s : Server) (k : ℤ) (p : Option Ptr) :
    (s.setEntry k { s.connections k with pbuf := p }).table = s.table := by
  rw [table_setEntry]
  simp only [Table.setSlot]
  show ({ s.table with slot := Function.update s.table.slot k (s.table.slot k) } : Table) = _
  rw [Function.update_eq_self]

/-- Writing the received data of an entry. -/
theorem leaves_setPbuf (s : Server) (k : ℤ) (p : Option Ptr) (m : Pbufs) :
    Leaves s { s.setEntry k { s.connections k with pbuf := p } with pbufs := m } :=
  ⟨table_setPbuf s k p, rfl, rfl⟩

theorem leaves_tcpRecved (s : Server) (p : Ptr) (n : ℕ) : Leaves s (tcpRecved s p n) :=
  ⟨table_tcpRecved s p n, rfl, rfl⟩

theorem leaves_setRemote {k : ℤ} {remote : Option IpAddr} {port : UInt16} {p : Option Ptr}
    {e : ErrorCode} (h : setRemote cfg s k remote port p = .ok (s', e)) : Leaves s s' := by
  unfold setRemote at h
  split at h
  · split at h
    · cases h; exact ⟨rfl, rfl, rfl⟩
    · obtain ⟨b, -, h⟩ := bind_eq_ok.mp h
      dsimp only at h
      split at h
      · obtain ⟨last, -, h⟩ := bind_eq_ok.mp h
        obtain ⟨lb, -, h⟩ := bind_eq_ok.mp h
        cases h; exact ⟨rfl, rfl, rfl⟩
      · cases h
        exact leaves_setPbuf s k _ _
  · cases h; exact ⟨rfl, rfl, rfl⟩

theorem leaves_unlinkRemote {k : ℤ} {p : Option Ptr} {e : ErrorCode}
    (h : unlinkRemote cfg s k p = .ok (s', e)) : Leaves s s' := by
  unfold unlinkRemote at h
  split at h
  · cases h; exact ⟨rfl, rfl, rfl⟩
  · split at h
    · obtain ⟨found, -, h⟩ := bind_eq_ok.mp h
      split at h
      · cases h; exact ⟨rfl, rfl, rfl⟩
      · obtain ⟨b, -, h⟩ := bind_eq_ok.mp h
        split at h
        · cases h
          exact leaves_setPbuf s k _ _
        · obtain ⟨rb, -, h⟩ := bind_eq_ok.mp h
          cases h; exact ⟨rfl, rfl, rfl⟩
    · cases h; exact ⟨rfl, rfl, rfl⟩

/-- The control block of a TCP slot is told that `n` bytes have been consumed. -/
def Server.consumed (s : Server) (a : ℤ) (n : ℕ) : Server :=
  match if (s.connections a).protocol = .tcp then (s.connections a).pcb.addr else none with
  | some p => tcpRecved s p n
  | none => s

@[simp] theorem Server.connections_consumed (s : Server) (a : ℤ) (n : ℕ) :
    (s.consumed a n).connections = s.connections := by
  unfold Server.consumed
  split <;> rfl

@[simp] theorem Server.pbufs_consumed (s : Server) (a : ℤ) (n : ℕ) :
    (s.consumed a n).pbufs = s.pbufs := by
  unfold Server.consumed
  split <;> rfl

/-- `clear_pending_rx_data_on_connection` when there is data. -/
theorem clearPending_eq {a : ℤ} (ha : cfg.InRange a) {p : Ptr}
    (hp : (s.connections a).pbuf = some p) :
    clearPendingRxDataOnConnection cfg s a = (do
      let b ← s.pbufs.load p
      let m ← pbufFree s.pbufs p
      .ok { (s.consumed a b.totLen).setEntry a { s.connections a with pbuf := none } with
        pbufs := m }) := by
  simp only [clearPendingRxDataOnConnection, if_pos ha, hp, Server.consumed]
  by_cases hproto : (s.connections a).protocol = .tcp
  · cases haddr : (s.connections a).pcb.addr <;> simp only [if_pos hproto]
  · simp only [if_neg hproto]

/-- There is data for a slot, or there is none. -/
theorem pbuf_cases (cfg : Config) (s : Server) (k : ℤ) :
    (cfg.InRange k → (s.connections k).pbuf = none) ∨
      ∃ p, cfg.InRange k ∧ (s.connections k).pbuf = some p := by
  by_cases hk : cfg.InRange k
  · cases hhead : (s.connections k).pbuf with
    | none => exact .inl fun _ => rfl
    | some p => exact .inr ⟨p, hk, rfl⟩
  · exact .inl fun hin => absurd hin hk

section remoteData

variable {k : ℤ} {p : Ptr} {b : Pbuf}

/-- `get_remote` when there is no data. -/
theorem getRemote_of_none (h : cfg.InRange k → (s.connections k).pbuf = none) :
    getRemote cfg s k = .ok {} := by
  unfold getRemote
  split
  · next hk => rw [h hk]
  · rfl

/-- `get_remote` when there is data. -/
theorem getRemote_of_some (hk : cfg.InRange k) (hhead : (s.connections k).pbuf = some p)
    (hb : s.pbufs p = some b) : getRemote cfg s k = .ok b.remote := by
  have hload : s.pbufs.load p = .ok b := Pbufs.load_eq_ok.mpr hb
  simp only [getRemote, if_pos hk, hhead, hload, Bind.bind, Except.bind]

/-- `get_remote_data` when there is no data. -/
theorem getRemoteData_of_none (h : cfg.InRange k → (s.connections k).pbuf = none) (length : ℤ) :
    getRemoteData cfg s k length = .ok ⟨⟨.einval, -1⟩, [], 0⟩ := by
  unfold getRemoteData
  split
  · next hk => rw [h hk]
  · rfl

/-- `get_remote_data` when there is data. -/
theorem getRemoteData_of_some (hk : cfg.InRange k) (hhead : (s.connections k).pbuf = some p)
    (hb : s.pbufs p = some b) (length : ℤ) :
    getRemoteData cfg s k length = .ok (if length < b.len then ⟨⟨.eagain, -1⟩, [], b.timestamp⟩
      else ⟨⟨.success, b.len⟩, b.payload.bytes, b.timestamp⟩) := by
  have hload : s.pbufs.load p = .ok b := Pbufs.load_eq_ok.mpr hb
  simp only [getRemoteData, if_pos hk, hhead, hload, Bind.bind, Except.bind]
  split <;> rfl

/-- What `get_remote_data` can report: nothing, or the first pbuf. -/
theorem getRemoteData_cases {length : ℤ} {copy : RemoteData}
    (h : getRemoteData cfg s k length = .ok copy) :
    copy = ⟨⟨.einval, -1⟩, [], 0⟩ ∨ ∃ p b, (s.connections k).pbuf = some p ∧ s.pbufs p = some b ∧
      copy = if length < b.len then ⟨⟨.eagain, -1⟩, [], b.timestamp⟩
        else ⟨⟨.success, b.len⟩, b.payload.bytes, b.timestamp⟩ := by
  rcases pbuf_cases cfg s k with hnone | ⟨p, hk, hhead⟩
  · rw [getRemoteData_of_none hnone] at h
    exact .inl (Except.ok.inj h).symm
  · cases hb : s.pbufs p with
    | none =>
      simp only [getRemoteData, if_pos hk, hhead, Pbufs.load, hb, Bind.bind, Except.bind] at h
      cases h
    | some b =>
      rw [getRemoteData_of_some hk hhead hb] at h
      exact .inr ⟨p, b, hhead, hb, (Except.ok.inj h).symm⟩

/-- `free_remote_data` when there is no data. -/
theorem freeRemoteData_of_none (h : cfg.InRange k → (s.connections k).pbuf = none) :
    freeRemoteData cfg s k = .ok (s, .einval) := by
  unfold freeRemoteData
  split
  · next hk => rw [h hk]
  · rfl

end remoteData

/-- `free_remote_data` when there is data. -/
theorem freeRemoteData_eq {a : ℤ} (ha : cfg.InRange a) {p : Ptr}
    (hp : (s.connections a).pbuf = some p) :
    freeRemoteData cfg s a = (do
      let b ← s.pbufs.load p
      let m ← pbufFree (Function.update s.pbufs p (some { b with next := none })) p
      .ok (Server.consumed { s.setEntry a { s.connections a with pbuf := b.next } with
        pbufs := m } a b.len, .success)) := by
  simp only [freeRemoteData, if_pos ha, hp, Server.consumed, getTcpPcb, Server.setEntry,
    Function.update_self]
  by_cases hproto : (s.connections a).protocol = .tcp
  · cases haddr : (s.connections a).pcb.addr <;> simp only [if_pos hproto, ha, true_and]
  · simp only [if_neg hproto]

/-- What `free_remote_data` can do: nothing, or to release the first pbuf and to tell lwIP. -/
theorem freeRemoteData_cases {k : ℤ} {e : ErrorCode} (h : freeRemoteData cfg s k = .ok (s', e)) :
    s' = s ∨ ∃ p b m, (s.connections k).pbuf = some p ∧ s.pbufs p = some b ∧
      pbufFree (Function.update s.pbufs p (some { b with next := none })) p = .ok m ∧
      s' = Server.consumed { s.setEntry k { s.connections k with pbuf := b.next } with
        pbufs := m } k b.len := by
  rcases pbuf_cases cfg s k with hnone | ⟨p, hk, hhead⟩
  · rw [freeRemoteData_of_none hnone] at h
    cases h
    exact .inl rfl
  · rw [freeRemoteData_eq hk hhead] at h
    obtain ⟨b, hb, h⟩ := bind_eq_ok.mp h
    obtain ⟨m, hm, h⟩ := bind_eq_ok.mp h
    cases h
    exact .inr ⟨p, b, m, hhead, Pbufs.load_eq_ok.mp hb, hm, rfl⟩

/-- What `clear_pending_rx_data_on_connection` can do: nothing, when there is no data, or to
release the chain and to tell lwIP. -/
theorem clearPending_cases {k : ℤ} (hk : cfg.InRange k)
    (h : clearPendingRxDataOnConnection cfg s k = .ok s') :
    (s.connections k).pbuf = none ∧ s' = s ∨ ∃ p b m, (s.connections k).pbuf = some p ∧
      s.pbufs p = some b ∧ pbufFree s.pbufs p = .ok m ∧
      s' = { (s.consumed k b.totLen).setEntry k { s.connections k with pbuf := none } with
        pbufs := m } := by
  cases hhead : (s.connections k).pbuf with
  | none =>
    simp only [clearPendingRxDataOnConnection, if_pos hk, hhead] at h
    cases h
    exact .inl ⟨rfl, rfl⟩
  | some p =>
    rw [clearPending_eq hk hhead] at h
    obtain ⟨b, hb, h⟩ := bind_eq_ok.mp h
    obtain ⟨m, hm, h⟩ := bind_eq_ok.mp h
    cases h
    exact .inr ⟨p, b, m, rfl, Pbufs.load_eq_ok.mp hb, hm, rfl⟩

theorem leaves_consumed (s : Server) (k : ℤ) (n : ℕ) : Leaves s (s.consumed k n) := by
  unfold Server.consumed
  split
  · exact leaves_tcpRecved _ _ _
  · exact ⟨rfl, rfl, rfl⟩

theorem leaves_freeRemoteData {k : ℤ} {e : ErrorCode}
    (h : freeRemoteData cfg s k = .ok (s', e)) : Leaves s s' := by
  obtain rfl | ⟨p, b, m, -, -, -, rfl⟩ := freeRemoteData_cases h
  · exact ⟨rfl, rfl, rfl⟩
  · exact (leaves_setPbuf s k _ m).trans (leaves_consumed _ k b.len)

theorem leaves_clearPending {k : ℤ} (h : clearPendingRxDataOnConnection cfg s k = .ok s') :
    Leaves s s' := by
  by_cases hk : cfg.InRange k
  · obtain ⟨-, rfl⟩ | ⟨p, b, m, -, -, -, rfl⟩ := clearPending_cases hk h
    · exact ⟨rfl, rfl, rfl⟩
    · rw [← Server.connections_consumed s k b.totLen]
      exact (leaves_consumed s k b.totLen).trans (leaves_setPbuf _ k none m)
  · simp only [clearPendingRxDataOnConnection, if_neg hk] at h
    cases h
    exact ⟨rfl, rfl, rfl⟩

theorem leaves_receive {k : ℤ} {length : UInt32} {timed : Bool} {remote : Host} {r : Reply}
    (h : receive cfg s k length timed remote = .ok (s', r)) : Leaves s s' := by
  obtain ⟨copy, -, h⟩ := bind_eq_ok.mp h
  obtain ⟨⟨t, e⟩, ht, h⟩ := bind_eq_ok.mp h
  cases h
  exact leaves_freeRemoteData ht

theorem leaves_recvCommon {i : ℕ} {k : ℤ} {length : UInt32} {timed : Bool} {r : Reply}
    (h : recvCommon cfg s i k length timed = .ok (s', r)) : Leaves s s' := by
  unfold recvCommon at h
  dsimp only at h
  split at h
  · cases h; exact ⟨rfl, rfl, rfl⟩
  · exact leaves_receive h

theorem leaves_recvfromCommon {i : ℕ} {k : ℤ} {length : UInt32} {timed : Bool} {r : Reply}
    (h : recvfromCommon cfg s i k length timed = .ok (s', r)) : Leaves s s' := by
  unfold recvfromCommon at h
  dsimp only at h
  split at h
  · cases h; exact ⟨rfl, rfl, rfl⟩
  · split at h
    · cases h; exact ⟨rfl, rfl, rfl⟩
    · obtain ⟨remote, -, h⟩ := bind_eq_ok.mp h
      exact leaves_receive h

theorem leaves_tcpWrite (s : Server) (p : Ptr) (bytes : List UInt8) (answer : Err) :
    Leaves s (tcpWrite s p bytes answer) := by
  refine ⟨table_tcpWrite s p bytes answer, ?_, ?_⟩
  · unfold tcpWrite; split <;> rfl
  · unfold tcpWrite; split <;> rfl

theorem leaves_freeSent {p : Ptr} {e : ErrorCode} {reads : List PbufRead} {sent : Sent}
    (h : freeSent s p e reads = .ok sent) : Leaves s sent.server := by
  obtain ⟨m, -, h⟩ := bind_eq_ok.mp h
  cases h; exact ⟨rfl, rfl, rfl⟩

theorem leaves_sendUdp {k : ℤ} {p : Ptr} {answer : SendAnswer} {sent : Sent}
    (h : sendUdp cfg s k p answer = .ok sent) : Leaves s sent.server := by
  unfold sendUdp at h
  split at h
  · exact leaves_freeSent h
  · have hsend : Leaves s (udpSend s p answer.timestamp answer.keeps) := ⟨rfl, rfl, rfl⟩
    exact hsend.trans (leaves_freeSent h)

theorem leaves_shimSend {i : ℕ} {k : ℤ} {p : Option Ptr} {answer : SendAnswer} {sent : Sent}
    (h : shimSend cfg s i k p answer = .ok sent) : Leaves s sent.server := by
  unfold shimSend at h
  split at h
  · cases h; exact ⟨rfl, rfl, rfl⟩
  · dsimp only at h
    split at h
    · cases h; exact ⟨rfl, rfl, rfl⟩
    · split at h
      · exact leaves_sendUdp h
      · unfold sendTcp at h
        split at h
        · exact leaves_freeSent h
        · obtain ⟨b, -, h⟩ := bind_eq_ok.mp h
          exact (leaves_tcpWrite _ _ _ _).trans (leaves_freeSent h)
      · cases h; exact ⟨rfl, rfl, rfl⟩

theorem leaves_shimSendto {i : ℕ} {k : ℤ} {p : Option Ptr} {answer : SendAnswer} {sent : Sent}
    (h : shimSendto cfg s i k p answer = .ok sent) : Leaves s sent.server := by
  unfold shimSendto at h
  split at h
  · cases h; exact ⟨rfl, rfl, rfl⟩
  · dsimp only at h
    split at h
    · cases h; exact ⟨rfl, rfl, rfl⟩
    · split at h
      · exact leaves_sendUdp h
      · cases h; exact ⟨rfl, rfl, rfl⟩
      · cases h; exact ⟨rfl, rfl, rfl⟩

/-- What a send that returns has done: it has written pbufs, and sent one of them unless there was
no room for it. -/
theorem transmit_returned {buffer : List UInt8} {timed : Bool} {answer : SendAnswer}
    {send : Server → Ptr → Except Fault Sent} {r : Reply}
    (h : transmit cfg s buffer timed answer send = .ok (s', r)) :
    ∃ m, s' = { s with pbufs := m } ∨
      ∃ token sent, send { s with pbufs := m } token = .ok sent ∧ s' = sent.server := by
  unfold transmit at h
  cases halloc : answer.alloc with
  | none =>
    simp only [halloc, pbufShimAllocTx] at h
    cases h
    exact ⟨s.pbufs, .inl rfl⟩
  | some token =>
    simp only [halloc, pbufShimAllocTx] at h
    obtain ⟨t, ht, hrest⟩ := bind_eq_ok.mp h
    obtain ⟨sent, hsent, hreply⟩ := bind_eq_ok.mp hrest
    obtain rfl : sent.server = s' := congrArg Prod.fst (Except.ok.inj hreply)
    obtain ⟨b, -, hcopy⟩ := bind_eq_ok.mp ht
    split at hcopy
    · obtain rfl := Except.ok.inj hcopy
      exact ⟨_, .inr ⟨token, sent, hsent, rfl⟩⟩
    · cases hcopy

theorem leaves_transmit {buffer : List UInt8} {timed : Bool} {answer : SendAnswer}
    {send : Server → Ptr → Except Fault Sent} {r : Reply}
    (hsend : ∀ {t p sent}, send t p = .ok sent → Leaves t sent.server)
    (h : transmit cfg s buffer timed answer send = .ok (s', r)) : Leaves s s' := by
  obtain ⟨m, hm⟩ := transmit_returned h
  have hwrite : Leaves s { s with pbufs := m } := ⟨rfl, rfl, rfl⟩
  obtain rfl | ⟨token, sent, hsent, rfl⟩ := hm
  · exact hwrite
  · exact hwrite.trans (hsend hsent)

theorem leaves_sendCommon {i : ℕ} {k : ℤ} {buffer : List UInt8} {timed : Bool}
    {answer : SendAnswer} {r : Reply}
    (h : sendCommon cfg s i k buffer timed answer = .ok (s', r)) : Leaves s s' := by
  unfold sendCommon at h
  dsimp only at h
  split at h
  · cases h; exact ⟨rfl, rfl, rfl⟩
  · exact leaves_transmit leaves_shimSend h

theorem leaves_sendtoCommon {i : ℕ} {k : ℤ} {buffer : List UInt8} {timed : Bool}
    {answer : SendAnswer} {r : Reply}
    (h : sendtoCommon cfg s i k buffer timed answer = .ok (s', r)) : Leaves s s' := by
  unfold sendtoCommon at h
  dsimp only at h
  split at h
  · cases h; exact ⟨rfl, rfl, rfl⟩
  · split at h
    · cases h; exact ⟨rfl, rfl, rfl⟩
    · exact leaves_transmit leaves_shimSendto h

/-- `shim_setsockopt` changes nothing, or is a write through the control block of the slot. -/
theorem shimSetsockopt_eq (cfg : Config) (s : Server) (i : ℕ) (k : ℤ) (level : SocketLevel)
    (option : ℕ) (value : List UInt8) :
    (∃ e, shimSetsockopt cfg s i k level option value = .ok (s, e)) ∨
      (findClientConnection cfg s i k).status = .success ∧ getProtocol cfg s k ≠ .none ∧
        ∃ (o : IpSocketOption) (v : UInt8), shimSetsockopt cfg s i k level option value = (do
          let t ← storeIpPcb cfg s k (o.writes v).1 (o.writes v).2
          .ok (t, .success)) := by
  unfold shimSetsockopt
  dsimp only
  split
  · exact .inl ⟨_, rfl⟩
  · next hfind =>
    split
    · unfold shimIpSetsockopt
      dsimp only
      split
      · exact .inl ⟨_, rfl⟩
      · next hproto =>
        split
        · exact .inl ⟨_, rfl⟩
        · next o _ =>
          split
          · exact .inl ⟨_, rfl⟩
          · next v _ =>
            split
            · exact .inl ⟨_, rfl⟩
            · exact .inr ⟨not_not.mp hfind, hproto, o, v, rfl⟩
    · exact .inl ⟨_, rfl⟩

/-- What `shim_setsockopt` can do: nothing, to go wrong on a null control block, or to write to
a control block. -/
theorem shimSetsockopt_cases (cfg : Config) (s : Server) (i : ℕ) (k : ℤ) (level : SocketLevel)
    (option : ℕ) (value : List UInt8) :
    (∃ e, shimSetsockopt cfg s i k level option value = .ok (s, e)) ∨
      shimSetsockopt cfg s i k level option value = .error .nullPcb ∨
      ∃ (o : IpSocketOption) (v : UInt8) (p : Ptr),
        shimSetsockopt cfg s i k level option value
          = .ok (s.modifyUdp p (o.writes v).2, .success) ∨
        shimSetsockopt cfg s i k level option value
          = .ok (s.modifyTcp p (o.writes v).1, .success) := by
  obtain h | ⟨-, -, o, v, h⟩ := shimSetsockopt_eq cfg s i k level option value
  · exact .inl h
  · refine .inr ?_
    rw [h]
    unfold storeIpPcb
    split
    · split
      · exact .inl rfl
      · next p _ => exact .inr ⟨o, v, p, .inl rfl⟩
    · split
      · exact .inl rfl
      · next p _ => exact .inr ⟨o, v, p, .inr rfl⟩

theorem leaves_shimSetsockopt {i : ℕ} {k : ℤ} {level : SocketLevel} {option : ℕ}
    {value : List UInt8} {e : ErrorCode}
    (h : shimSetsockopt cfg s i k level option value = .ok (s', e)) : Leaves s s' := by
  obtain ⟨e', h'⟩ | h' | ⟨o, v, p, h' | h'⟩ := shimSetsockopt_cases cfg s i k level option value
  · cases h'.symm.trans h
    exact ⟨rfl, rfl, rfl⟩
  · cases h'.symm.trans h
  · cases h'.symm.trans h
    exact ⟨table_modifyUdp _ _ _, rfl, rfl⟩
  · cases h'.symm.trans h
    refine ⟨table_modifyTcp _ _ fun b => ?_, rfl, rfl⟩
    cases o <;> rfl

theorem table_eventRecv {k : ℤ} {c : ℕ} {p : Option Ptr} {e : Err}
    (h : eventRecv cfg s k c p = .ok (s', e)) : s'.table = s.table := by
  unfold eventRecv at h
  split at h
  · cases h; rfl
  · obtain ⟨⟨t, e'⟩, ht, h⟩ := bind_eq_ok.mp h
    dsimp only at h
    split at h
    · obtain ⟨⟨u, e''⟩, hu, h⟩ := bind_eq_ok.mp h
      cases h
      exact (leaves_unlinkRemote hu).table.trans
        ((table_enqueue _ _ _ _).trans (leaves_setRemote ht).table)
    · cases h
      exact (table_enqueue _ _ _ _).trans (leaves_setRemote ht).table

theorem table_xtcpUdpRecv {k : ℤ} {pcb : Ptr} {p : Option Ptr} {addr : Option IpAddr}
    {port : UInt16} (h : xtcpUdpRecv cfg s k pcb p addr port = .ok s') : s'.table = s.table := by
  unfold xtcpUdpRecv at h
  split at h
  · cases h; rfl
  · split at h
    · obtain ⟨⟨t, e⟩, ht, h⟩ := bind_eq_ok.mp h
      dsimp only at h
      split at h
      · obtain ⟨m, -, h⟩ := bind_eq_ok.mp h
        cases h
        show t.table = s.table
        exact (leaves_setRemote ht).table
      · cases h
        exact (table_enqueue _ _ _ _).trans (leaves_setRemote ht).table
    · cases h; rfl

theorem table_notifyAll (s : Server) (e : EventType) : (notifyAll cfg s e).table = s.table := by
  unfold notifyAll
  induction List.range cfg.nXtcp generalizing s with
  | nil => rfl
  | cons i l ih => exact (ih _).trans (table_enqueue s i 0 e)

/-! ### Steps -/

/-- `shim_new_socket` when the table is full. -/
theorem shimNewSocket_full (h : s.table.freeSlot cfg = none) (i : ℕ) (protocol : Protocol)
    (answer : Option Ptr) : shimNewSocket cfg s i protocol answer = (s, ⟨.enomem, -1⟩) := by
  simp [shimNewSocket, assign_of_none h]

/-- `shim_new_socket` keeps the slot it found when lwIP has no control block for it. -/
theorem shimNewSocket_null {k : ℤ} (hfree : s.table.freeSlot cfg = some k) (i : ℕ)
    {protocol : Protocol} (h : protocol ≠ .none) :
    (shimNewSocket cfg s i protocol none).2 = ⟨.enomem, -1⟩ ∧
      (shimNewSocket cfg s i protocol none).1.table = s.table.assign k i protocol := by
  obtain ⟨hres, htab⟩ := assign_of_some hfree i protocol
  unfold shimNewSocket
  simp only [hres, ne_eq, not_true_eq_false, if_false]
  cases protocol with
  | none => exact absurd rfl h
  | tcp => exact ⟨rfl, htab⟩
  | udp => exact ⟨rfl, htab⟩

/-- `shim_new_socket` makes a TCP socket. -/
theorem shimNewSocket_tcp (hcur : s.table.CursorOk cfg) {k : ℤ}
    (hfree : s.table.freeSlot cfg = some k) (i : ℕ) (p : Ptr) :
    (shimNewSocket cfg s i .tcp (some p)).2 = ⟨.success, k⟩ ∧
      (shimNewSocket cfg s i .tcp (some p)).1.table
        = ((s.table.assign k i .tcp).setTcp p (some ⟨0, .closed⟩)).store k (.tcp p) := by
  obtain ⟨hres, htab⟩ := assign_of_some hfree i .tcp
  have hnew : (tcpNewIpType (assignClientConnection cfg s i .tcp).1 p).table
      = (s.table.assign k i .tcp).setTcp p (some ⟨0, .closed⟩) := by
    rw [table_tcpNewIpType, htab]
  obtain ⟨hset, hcode⟩ := table_setTcpPcb (Table.freeSlot_some hcur hfree).1
    (by rw [hnew, Table.setTcp_slot, Table.assign_slot, if_pos rfl]) p
  simp only [shimNewSocket, hres, ne_eq, not_true_eq_false, if_false, hcode, ErrorCode.toInt,
    lt_irrefl, hset, hnew, and_self]

/-- `shim_new_socket` makes a UDP socket. -/
theorem shimNewSocket_udp (hcur : s.table.CursorOk cfg) {k : ℤ}
    (hfree : s.table.freeSlot cfg = some k) (i : ℕ) (p : Ptr) :
    (shimNewSocket cfg s i .udp (some p)).2 = ⟨.success, k⟩ ∧
      (shimNewSocket cfg s i .udp (some p)).1.table
        = ((s.table.assign k i .udp).setUdp p true).store k (.udp p) := by
  obtain ⟨hres, htab⟩ := assign_of_some hfree i .udp
  have hnew : (udpNewIpType (assignClientConnection cfg s i .udp).1 p).table
      = (s.table.assign k i .udp).setUdp p true := by
    rw [table_udpNewIpType, htab]
  obtain ⟨hset, hcode⟩ := table_setUdpPcb (Table.freeSlot_some hcur hfree).1
    (by rw [hnew, Table.setUdp_slot, Table.assign_slot, if_pos rfl]) p
  simp only [shimNewSocket, hres, ne_eq, not_true_eq_false, if_false, hcode, ErrorCode.toInt,
    lt_irrefl, hset, hnew, and_self]

/-- `shim_new_socket` makes a socket of no protocol. -/
theorem shimNewSocket_none {k : ℤ} (hfree : s.table.freeSlot cfg = some k) (i : ℕ)
    (answer : Option Ptr) :
    (shimNewSocket cfg s i .none answer).2 = ⟨.success, k⟩ ∧
      (shimNewSocket cfg s i .none answer).1.table = s.table.assign k i .none := by
  obtain ⟨hres, htab⟩ := assign_of_some hfree i .none
  simp only [shimNewSocket, hres, ne_eq, not_true_eq_false, if_false, htab, and_self]

/-- `socket` is a step of the table. -/
theorem socket_table (hcur : s.table.CursorOk cfg) {i : ℕ} (hi : i < cfg.nXtcp)
    {protocol : Protocol} {answer : Option Ptr} (hok : IfSome answer (FreshPcb s)) :
    TableStep cfg s.table (.call i (.socket protocol answer)) (socket cfg s i protocol answer).2
      (socket cfg s i protocol answer).1.table := by
  unfold socket
  cases hfree : s.table.freeSlot cfg with
  | none =>
    rw [shimNewSocket_full hfree]
    exact .quiet not_false
  | some k =>
    cases protocol with
    | none =>
      obtain ⟨hres, htab⟩ := shimNewSocket_none hfree i answer
      simp only [hres, htab, ne_eq, not_true_eq_false, if_false]
      exact .socketNone hi hfree
    | tcp =>
      cases answer with
      | none =>
        obtain ⟨hres, htab⟩ := shimNewSocket_null hfree i (show Protocol.tcp ≠ .none by decide)
        simp only [hres, htab, ne_eq, reduceCtorEq, not_false_eq_true, if_true]
        exact .socketNull hi (by decide) hfree
      | some p =>
        have hfresh : s.table.tcp p = none := by simp [Server.table, (hok p rfl).1]
        obtain ⟨hres, htab⟩ := shimNewSocket_tcp hcur hfree i p
        simp only [hres, htab, ne_eq, not_true_eq_false, if_false]
        exact .socketTcp hi hfree hfresh
    | udp =>
      cases answer with
      | none =>
        obtain ⟨hres, htab⟩ := shimNewSocket_null hfree i (show Protocol.udp ≠ .none by decide)
        simp only [hres, htab, ne_eq, reduceCtorEq, not_false_eq_true, if_true]
        exact .socketNull hi (by decide) hfree
      | some p =>
        obtain ⟨hres, htab⟩ := shimNewSocket_udp hcur hfree i p
        simp only [hres, htab, ne_eq, not_true_eq_false, if_false]
        exact .socketUdp hi hfree

/-- What `shim_close_socket` can do: nothing, or to take the slot of its caller apart. -/
theorem shimCloseSocket_cases {i : ℕ} {k : ℤ} {lingers : Bool}
    (h : shimCloseSocket cfg s i k lingers = .ok s') :
    s' = s ∨ s.table.OwnedBy cfg i k ∧ ∃ t,
      clearPendingRxDataOnConnection cfg
        { s with queue := (freeNotificationsOnQueue cfg s.queue i k).1 } k = .ok t ∧
      s' = freeClientConnection cfg (closePcb cfg t k lingers) k := by
  unfold shimCloseSocket at h
  split at h
  · cases h
    exact .inl rfl
  · next hfind =>
    obtain ⟨t, ht, h⟩ := bind_eq_ok.mp h
    cases h
    exact .inr ⟨find_success_iff.mp (not_not.mp hfind), t, ht, rfl⟩

/-- `shim_close_socket` is a step of the table. -/
theorem close_table {i : ℕ} (hi : i < cfg.nXtcp) {call : Call} {k : ℤ} {lingers : Bool} {r : Reply}
    (hcall : call.closes k lingers) (h : shimCloseSocket cfg s i k lingers = .ok s') :
    TableStep cfg s.table (.call i call) r s'.table := by
  obtain rfl | ⟨hown, t, ht, rfl⟩ := shimCloseSocket_cases h
  · refine .quiet ?_
    cases call <;> first | exact not_false | cases hcall
  · have htab : t.table = s.table := (leaves_clearPending ht).table.trans rfl
    rw [table_freeClientConnection, table_closePcb hown.1, htab]
    exact .close hcall hi hown

/-- The status of a control block in the table. -/
theorem table_tcp_of_pcbStatus {p : Ptr} {status : PcbStatus} (h : pcbStatus s p = some status) :
    ∃ arg, s.table.tcp p = some ⟨arg, status⟩ := by
  simp only [pcbStatus, Option.map_eq_some_iff] at h
  obtain ⟨b, hb, rfl⟩ := h
  exact ⟨b.callbackArg, by simp [Server.table, hb, TcpPcb.route]⟩

theorem getTcpPcb_eq {k : ℤ} {p : Ptr} (h : getTcpPcb cfg s k = some p) :
    (s.table.slot k).protocol = .tcp ∧ (s.table.slot k).pcb.addr = some p := by
  unfold getTcpPcb at h
  split at h
  · next hcond => exact ⟨hcond.2, h⟩
  · cases h

/-- `listen` is a step of the table. -/
theorem listen_table {i : ℕ} (hi : i < cfg.nXtcp) {k : ℤ} {portNumber : UInt16} {ipaddr : IpAddr}
    {answer : ListenAnswer} (hok : CallAllowed cfg s (.listen k portNumber ipaddr answer)) :
    TableStep cfg s.table (.call i (.listen k portNumber ipaddr answer))
      (.code (shimListen cfg s i k portNumber ipaddr answer).2)
      (shimListen cfg s i k portNumber ipaddr answer).1.table := by
  obtain ⟨hbind, hfresh⟩ := hok
  obtain ⟨bind, listen⟩ := answer
  unfold shimListen
  dsimp only
  split
  · next hfind => exact .quiet (not_announces_code hfind)
  · next hfind =>
    have hown : s.table.OwnedBy cfg i k := find_success_iff.mp (not_not.mp hfind)
    split
    · split
      · exact .quiet (not_announces_code (by simp))
      · next p hp =>
        obtain ⟨hproto, haddr⟩ := getTcpPcb_eq hp
        have hbound : (tcpBind s p ⟨ipaddr, portNumber⟩ bind).table = s.table :=
          table_tcpBind s p _ _
        split
        · next hb =>
          subst hb
          obtain ⟨arg, harg⟩ := table_tcp_of_pcbStatus (hbind rfl p hp)
          split
          · rw [hbound]; exact .quiet (not_announces_code (by simp))
          · next l =>
            have hl : s.table.tcp l = none := by simp [Server.table, (hfresh l rfl).1]
            have hlisten := table_tcpListen (tcpBind s p ⟨ipaddr, portNumber⟩ .ok) p l
            rw [hbound, harg] at hlisten
            rw [table_tcpArg, (table_setTcpPcb hown.1 (by rw [hlisten]; exact hproto) l).1, hlisten]
            have hstep : TableStep cfg s.table
                (.call i (.listen k portNumber ipaddr ⟨.ok, some l⟩)) (.code .success) _ :=
              .listen hi hown hproto haddr harg hl
            simpa [Table.store, Table.setSlot, Table.setTcp] using hstep
        · split
          · rw [hbound]; exact .quiet (not_announces_code (by simp))
          · rw [hbound]; exact .quiet (not_announces_code (by simp))
    · next hudp =>
      have hproto : (s.table.slot k).protocol = .udp := by
        rw [← hudp, getProtocol, if_pos hown.1]; rfl
      split
      · exact .quiet (not_announces_code (by simp))
      · split
        · simpa using .quiet fun h => by rw [h.2] at hproto; cases hproto
        · simpa using .quiet (not_announces_code (by simp))
    · exact .quiet (not_announces_code (by simp))

/-- `connect` is a step of the table. -/
theorem connect_table {i : ℕ} (hi : i < cfg.nXtcp) {k : ℤ} {portNumber : UInt16} {ipaddr : IpAddr}
    {answer : Err}
    (hok : CallAllowed cfg s (.connect k portNumber ipaddr answer)) :
    TableStep cfg s.table (.call i (.connect k portNumber ipaddr answer))
      (.code (shimConnect cfg s i k portNumber ipaddr answer).2)
      (shimConnect cfg s i k portNumber ipaddr answer).1.table := by
  unfold shimConnect
  dsimp only
  split
  · next hfind => exact .quiet (not_announces_code hfind)
  · next hfind =>
    have hown : s.table.OwnedBy cfg i k := find_success_iff.mp (not_not.mp hfind)
    split
    · split
      · exact .quiet (not_announces_code (by simp))
      · next p hp =>
        obtain ⟨hproto, haddr⟩ := getTcpPcb_eq hp
        split
        · next hans =>
          subst hans
          obtain ⟨arg, harg⟩ := table_tcp_of_pcbStatus (hok rfl p hp)
          rw [table_tcpConnect, harg]
          exact .connect hi hown hproto haddr harg
        · next hans =>
          rw [tcpConnect, if_neg hans]
          exact .quiet (not_announces_code (by simp))
    · next hudp =>
      have hproto : (s.table.slot k).protocol = .udp := by
        rw [← hudp, getProtocol, if_pos hown.1]; rfl
      split
      · exact .quiet (not_announces_code (by simp))
      · split
        · simpa using .quiet fun h => by rw [h.2] at hproto; cases hproto
        · simpa using .quiet (not_announces_code (by simp))
    · exact .quiet (not_announces_code (by simp))

/-- `LWIP_EVENT_ERR` releases the slot it is raised for. -/
theorem table_eventErr (s : Server) (arg : ℤ) (c : ℕ) (err : Err) :
    (eventErr cfg s arg c err).1.table = s.table.release cfg arg := by
  unfold eventErr
  dsimp only
  rw [table_freeClientConnection]
  split <;> rfl

theorem table_err (s : Server) (arg : ℤ) (err : Err) :
    ∃ t e, lwipTcpEvent cfg s arg none .err none err = .ok (t, e) ∧
      t.table = s.table.release cfg arg := by
  unfold lwipTcpEvent
  split
  · exact ⟨(eventErr cfg s arg (getClientInfo cfg s arg) err).1, .ok, rfl, table_eventErr s arg _
      err⟩
  · next h => exact ⟨s, .mem, rfl, by rw [Table.release, if_neg h]⟩

/-- `shim_accept` gives the connection a slot, or changes nothing. -/
theorem shimAccept_cases (hcur : s.table.CursorOk cfg) {arg : ℤ} (harg : cfg.InRange arg) (c : ℕ)
    (n : Ptr) :
    (∃ k, (s.table.slot arg).protocol = .tcp ∧ s.table.freeSlot cfg = some k ∧
        (shimAccept cfg s c n arg).2 = ⟨.success, k⟩ ∧
        (shimAccept cfg s c n arg).1.table
          = ((s.table.assign k c .tcp).store k (.tcp n)).setTcp n
            ((s.table.tcp n).map fun r => { r with arg := k })) ∨
      ((shimAccept cfg s c n arg).2.status ≠ .success ∧
        ((s.table.slot arg).protocol = .tcp → s.table.freeSlot cfg = none) ∧
        (shimAccept cfg s c n arg).1 = s) := by
  have hproto : getProtocol cfg s arg = (s.table.slot arg).protocol := by
    simp [getProtocol, harg, Server.table, ConnectionEntry.slot]
  unfold shimAccept
  rw [hproto]
  cases hp : (s.table.slot arg).protocol with
  | none =>
    right
    simp only [ne_eq, reduceCtorEq, not_false_eq_true, false_implies, and_self]
  | udp =>
    right
    simp only [ne_eq, reduceCtorEq, not_false_eq_true, false_implies, and_self]
  | tcp =>
    cases hfree : s.table.freeSlot cfg with
    | none =>
      right
      simp only [assign_of_none hfree, ne_eq, reduceCtorEq, not_false_eq_true, if_true,
        implies_true,
        and_self]
    | some k =>
      left
      obtain ⟨hres, htab⟩ := assign_of_some hfree c .tcp
      have hk := (Table.freeSlot_some hcur hfree).1
      have hset := (table_setTcpPcb (s := (assignClientConnection cfg s c .tcp).1) hk
        (by rw [htab]; simp [Table.assign, Table.setSlot]) n).1
      refine ⟨k, rfl, rfl, ?_, ?_⟩
      · simp only [hres, ne_eq, not_true_eq_false, if_false]
      · simp only [hres, ne_eq, not_true_eq_false, if_false, table_tcpArg, hset, htab,
          Table.store_tcp, Table.assign_tcp]

/-- What `lwip_tcp_event` makes of an accept: the connection gets a slot, or the table
has not changed. -/
theorem accept_cases (hcur : s.table.CursorOk cfg) (arg : ℤ) {n : Ptr} {route : Route}
    (hn : s.table.tcp n = some route) :
    ∃ t e, lwipTcpEvent cfg s arg n .accept none .ok = .ok (t, e) ∧
      ((∃ k, cfg.InRange arg ∧ (s.table.slot arg).protocol = .tcp ∧
          s.table.freeSlot cfg = some k ∧ (e = .ok ∨ e = .inprogress) ∧
          t.table = ((s.table.assign k (s.table.slot arg).clientNum .tcp).store k (.tcp n)).setTcp n
            (some { route with arg := k })) ∨
        (e = .mem ∧ (cfg.InRange arg → (s.table.slot arg).protocol = .tcp →
          s.table.freeSlot cfg = none) ∧ t.table = s.table)) := by
  unfold lwipTcpEvent
  split
  · next harg =>
    refine ⟨(eventAccept cfg s arg (getClientInfo cfg s arg) n .ok).1,
      (eventAccept cfg s arg (getClientInfo cfg s arg) n .ok).2, rfl, ?_⟩
    have hclient : getClientInfo cfg s arg = (s.table.slot arg).clientNum := by
      simp [getClientInfo, harg, Server.table, ConnectionEntry.slot]
    have hprio : (tcpSetprio s n tcpPrioMin).table = s.table := table_tcpSetprio s n _
    have hcases := shimAccept_cases (s := tcpSetprio s n tcpPrioMin) (by rw [hprio]; exact hcur)
      harg (getClientInfo cfg s arg) n
    rw [hprio, hn] at hcases
    unfold eventAccept
    dsimp only
    rw [if_neg (by decide)]
    obtain ⟨k, hproto, hfree, hres, htab⟩ | ⟨hres, hnone, htab⟩ := hcases
    · left
      rw [if_neg (by simp [hres])]
      refine ⟨k, harg, hproto, hfree, ?_, ?_⟩
      · dsimp only
        split <;> simp
      · rw [← hclient]
        exact htab
    · right
      rw [if_pos hres]
      exact ⟨rfl, fun _ => hnone, by rw [htab]; exact hprio⟩
  · next harg =>
    exact ⟨s, .mem, rfl, .inr ⟨rfl, fun h => absurd h harg, rfl⟩⟩

/-- The status of a control block that raises an error. -/
theorem raises_err {status : PcbStatus} {err : Err} (h : Raises s status (.err err)) :
    status ≠ .closed ∧ status ≠ .listen := by
  cases status <;> simp_all [Raises]

/-- The abort of a connection that was not accepted. -/
theorem table_abortAccepted (cfg : Config) {n : Ptr} {route : Route} (hn : s.table.tcp n = some
    route) :
    ∃ t, abortAccepted cfg s n = .ok t ∧
      t.table = (s.table.setTcp n none).release cfg route.arg := by
  simp only [Server.table, Option.map_eq_some_iff] at hn
  obtain ⟨b, hb, rfl⟩ := hn
  obtain ⟨t, e, ht, htab⟩ : ∃ t e, lwipTcpEvent cfg (tcpFree s n) b.callbackArg none .err none .abrt
      = .ok (t, e) ∧ t.table = (tcpFree s n).table.release cfg b.callbackArg := table_err _ _ _
  refine ⟨t, ?_, by rw [htab, table_tcpFree]; rfl⟩
  simp only [abortAccepted, hb, ht]
  rfl

/-- The route of a control block that raises a callback. -/
theorem tcpEvent_route {p : Ptr} {arg : ℤ} {callback : TcpCallback}
    (hok : HappeningAllowed s (.tcpEvent p arg callback)) :
    ∃ status, s.table.tcp p = some ⟨arg, status⟩ ∧ Raises s status callback := by
  simp only [HappeningAllowed] at hok
  split at hok
  · next b hb =>
    obtain ⟨rfl, hraises⟩ := hok
    exact ⟨b.status, by simp [Server.table, hb, TcpPcb.route], hraises⟩
  · cases hok

/-- The control block of a connection that is to be accepted. -/
theorem synRcvd_of_accept {n : Ptr} {arg : ℤ}
    (hok : HappeningAllowed s (.tcpEvent n arg .accept)) :
    ∃ l, s.table.tcp n = some ⟨arg, .synRcvd l⟩ := by
  obtain ⟨status, hn, hraises⟩ := tcpEvent_route hok
  cases status with
  | synRcvd l => exact ⟨l, hn⟩
  | _ => cases hraises

/-- An accept, with the abort that follows when it fails: the connection gets a slot and
keeps it, gets a slot and loses it again, or gets none. -/
theorem accept_step (hcur : s.table.CursorOk cfg) {n : Ptr} {arg : ℤ}
    (hok : HappeningAllowed s (.tcpEvent n arg .accept)) :
    ∃ t e t', lwipTcpEvent cfg (s.modifyTcp n fun b => { b with status := .active }) arg n .accept
        none .ok = .ok (t, e) ∧
      stepTcp cfg s n arg .accept = .ok (t', .err e) ∧
      ((∃ k, cfg.InRange arg ∧ (s.table.slot arg).protocol = .tcp ∧
          s.table.freeSlot cfg = some k ∧
          (e = .ok ∧ t' = t ∧
              t'.table = ((s.table.assign k (s.table.slot arg).clientNum .tcp).store k
                (.tcp n)).setTcp n (some ⟨k, .active⟩) ∨
            e = .inprogress ∧
              t'.table = (((s.table.assign k (s.table.slot arg).clientNum .tcp).store k
                (.tcp n)).setTcp n none).release cfg k)) ∨
        e = .mem ∧ (cfg.InRange arg → (s.table.slot arg).protocol = .tcp →
            s.table.freeSlot cfg = none) ∧
          t'.table = (s.table.setTcp n none).release cfg arg) := by
  obtain ⟨l, hn⟩ := synRcvd_of_accept hok
  have hactive : (s.modifyTcp n fun b => { b with status := .active }).table
      = s.table.setTcp n (some ⟨arg, .active⟩) := by
    rw [table_setStatus s n fun _ => rfl, hn]
    rfl
  obtain ⟨t, e, ht, hcases⟩ := accept_cases (by rw [hactive]; exact hcur) arg
    (show (s.modifyTcp n fun b => { b with status := .active }).table.tcp n
        = some ⟨arg, .active⟩ by rw [hactive]; simp [Table.setTcp])
  rw [hactive] at hcases
  simp only [Table.setTcp_slot, Table.setTcp_freeSlot, Table.assign_setTcp, Table.store_setTcp,
    Table.setTcp_setTcp] at hcases
  -- the abort, with the argument the control block has by now
  have habort : ∀ {route : Route}, t.table.tcp n = some route → ¬ (e = .ok ∨ e = .abrt) →
      ∃ u, stepTcp cfg s n arg .accept = .ok (u, .err e) ∧
        u.table = (t.table.setTcp n none).release cfg route.arg := by
    intro route hroute he
    obtain ⟨u, hu, hutab⟩ := table_abortAccepted cfg hroute
    refine ⟨u, ?_, hutab⟩
    simp only [stepTcp, ht, Bind.bind, Except.bind, if_neg he, hu]
  obtain ⟨k, harg, hproto, hfree, rfl | rfl, htab⟩ | ⟨rfl, hnone, htab⟩ := hcases
  · refine ⟨t, .ok, t, ht, ?_, .inl ⟨k, harg, hproto, hfree, .inl ⟨rfl, rfl, htab⟩⟩⟩
    simp [stepTcp, ht, Bind.bind, Except.bind]
  · have hroute : t.table.tcp n = some ⟨k, .active⟩ := by rw [htab]; simp [Table.setTcp]
    obtain ⟨u, hu, hutab⟩ := habort hroute (by decide)
    refine ⟨t, .inprogress, u, ht, hu, .inl ⟨k, harg, hproto, hfree, .inr ⟨rfl, ?_⟩⟩⟩
    rw [hutab, htab, Table.setTcp_setTcp]
  · have hroute : t.table.tcp n = some ⟨arg, .active⟩ := by rw [htab]; simp [Table.setTcp]
    obtain ⟨u, hu, hutab⟩ := habort hroute (by decide)
    refine ⟨t, .mem, u, ht, hu, .inr ⟨rfl, hnone, ?_⟩⟩
    rw [hutab, htab, Table.setTcp_setTcp]

/-- An accept is a step of the table. -/
theorem accept_table (hcur : s.table.CursorOk cfg) {n : Ptr} {arg : ℤ}
    (hok : HappeningAllowed s (.tcpEvent n arg .accept)) {r : Reply}
    (h : stepTcp cfg s n arg .accept = .ok (s', r)) :
    TableStep cfg s.table (.happens (.tcpEvent n arg .accept)) r s'.table := by
  obtain ⟨l, hn⟩ := synRcvd_of_accept hok
  obtain ⟨t, e, t', -, hstep, hcases⟩ := accept_step hcur hok
  obtain ⟨rfl, rfl⟩ : t' = s' ∧ Reply.err e = r := by simpa using hstep.symm.trans h
  obtain ⟨k, harg, hproto, hfree, ⟨rfl, -, htab⟩ | ⟨rfl, htab⟩⟩ | ⟨rfl, hnone, htab⟩ := hcases
  · rw [htab]
    exact .accepted hn harg hproto hfree
  · rw [htab]
    exact .acceptAborted hn harg hproto hfree
  · rw [htab]
    exact .acceptRefused hn hnone

/-- The events that leave the table alone. -/
theorem table_lwipTcpEvent {arg : ℤ} {pcb : Option Ptr} {e : LwipEvent} {p : Option Ptr}
    {err result : Err} (he : e ≠ .err) (haccept : e = .accept → pcb = none)
    (h : lwipTcpEvent cfg s arg pcb e p err = .ok (s', result)) : s'.table = s.table := by
  unfold lwipTcpEvent at h
  split at h
  · cases e with
    | accept =>
      obtain rfl := haccept rfl
      cases h; rfl
    | connected => cases h; rfl
    | recv => exact table_eventRecv h
    | sent => cases h; rfl
    | err => exact absurd rfl he
    | poll => cases h; rfl
  · cases h; rfl

/-- A TCP callback is a step of the table. -/
theorem stepTcp_table (hcur : s.table.CursorOk cfg) {p : Ptr} {arg : ℤ} {callback : TcpCallback}
    (hok : HappeningAllowed s (.tcpEvent p arg callback)) {r : Reply}
    (h : stepTcp cfg s p arg callback = .ok (s', r)) :
    TableStep cfg s.table (.happens (.tcpEvent p arg callback)) r s'.table := by
  cases callback with
  | accept => exact accept_table hcur hok h
  | recv cells =>
    obtain ⟨⟨t, e⟩, ht, h⟩ := bind_eq_ok.mp h
    have htab : t.table = s.table :=
      (table_lwipTcpEvent (by decide) (fun h => by cases h) ht).trans rfl
    have hs' : s'.table = t.table := by
      dsimp only at h
      split at h
      · cases h; rfl
      · cases h; rfl
    rw [hs', htab]
    exact .quiet not_false
  | err err =>
    obtain ⟨status, hp, hraises⟩ := tcpEvent_route hok
    obtain ⟨⟨t, e⟩, ht, h⟩ := bind_eq_ok.mp h
    obtain ⟨t', e', ht', htab⟩ : ∃ t e, lwipTcpEvent cfg (tcpFree s p) arg none .err none err
        = .ok (t, e) ∧ t.table = (tcpFree s p).table.release cfg arg := table_err _ _ _
    obtain ⟨rfl, rfl⟩ : t' = t ∧ e' = e := by simpa using ht'.symm.trans ht
    cases h
    rw [htab, table_tcpFree]
    exact .err hp (raises_err hraises).1 (raises_err hraises).2
  | acceptFailed | connected | sent | poll =>
    obtain ⟨⟨t, e⟩, ht, h⟩ := bind_eq_ok.mp h
    cases h
    rw [table_lwipTcpEvent (by decide) (by simp) ht]
    exact .quiet not_false

/-- **Every step of the server is a step of its table.** -/
theorem step_table (hcur : s.table.CursorOk cfg) {a : Action} (hok : Allowed cfg s a) {r : Reply}
    (h : step cfg s a = .ok (s', r)) : TableStep cfg s.table a r s'.table := by
  cases a with
  | call i call =>
    obtain ⟨hi, hok⟩ := hok
    have h : stepCall cfg s i call = .ok (s', r) := h
    cases call with
    | getEvent => cases h; exact .quiet not_false
    | socket protocol answer => cases h; exact socket_table hcur hi hok
    | close id lingers =>
      obtain ⟨t, ht, h⟩ := bind_eq_ok.mp h
      cases h
      exact close_table hi ⟨rfl, rfl⟩ ht
    | abort id lingers =>
      obtain ⟨t, ht, h⟩ := bind_eq_ok.mp h
      cases h
      exact close_table hi ⟨rfl, rfl⟩ ht
    | listen id portNumber ipaddr answer => cases h; exact listen_table hi hok
    | connect id portNumber ipaddr answer =>
      simp only [stepCall] at h
      split at h
      · next hfind => cases h; exact .quiet (not_announces_code hfind)
      · cases h; exact connect_table hi hok
    | send id buffer timed answer => rw [(leaves_sendCommon h).table]; exact .quiet not_false
    | sendto id buffer timed answer => rw [(leaves_sendtoCommon h).table]; exact .quiet not_false
    | recv id length timed => rw [(leaves_recvCommon h).table]; exact .quiet not_false
    | recvfrom id length timed => rw [(leaves_recvfromCommon h).table]; exact .quiet not_false
    | setConnectionClientData id data =>
      simp only [stepCall] at h
      split at h
      · cases h; exact .quiet not_false
      · next hfind =>
        have hown : s.table.OwnedBy cfg i id := find_success_iff.mp (not_not.mp hfind)
        cases h
        rw [setConnectionClientData, if_pos hown.1, table_setEntry]
        exact .clientData hi hown
    | getConnectionClientData id =>
      simp only [stepCall] at h
      split at h
      · cases h; exact .quiet not_false
      · cases h; exact .quiet not_false
    | joinMulticastGroup addr answer =>
      cases h
      simp only [setMacaddrFilter, shimJoinMulticastGroup]
      split <;> split <;> exact .quiet not_false
    | leaveMulticastGroup addr =>
      cases h
      simp only [setMacaddrFilter, shimLeaveMulticastGroup]
      split <;> split <;> exact .quiet not_false
    | requestHostByName hasGateway answer ipaddr =>
      simp only [stepCall] at h
      split at h
      · cases h
        simp only [shimRequestHostByName]
        split
        · exact .quiet not_false
        · split <;> exact .quiet not_false
      · cases h; exact .quiet not_false
    | getIpconfigRemote id => cases h; exact .quiet not_false
    | getIpconfigLocal id => cases h; exact .quiet not_false
    | getsockopt id level option length =>
      obtain ⟨⟨status, value⟩, -, h⟩ := bind_eq_ok.mp h
      cases h; exact .quiet not_false
    | setsockopt id level option value =>
      obtain ⟨⟨t, e⟩, ht, h⟩ := bind_eq_ok.mp h
      cases h
      rw [(leaves_shimSetsockopt ht).table]; exact .quiet not_false
  | happens happening =>
    have hok : HappeningAllowed s happening := hok
    have h : stepHappening cfg s happening = .ok (s', r) := h
    cases happening with
    | syn l n =>
      obtain ⟨arg, hl⟩ := table_tcp_of_pcbStatus hok.1
      have hn : s.table.tcp n = none := by simp [Server.table, hok.2.1]
      cases h
      have hstep : TableStep cfg s.table (.happens (.syn l n)) .unit _ := .syn hl hn
      simp only [Server.table, Option.map_eq_some_iff, TcpPcb.route] at hl
      obtain ⟨b, hb, hroute⟩ := hl
      obtain ⟨rfl, -⟩ := Route.mk.inj hroute
      rw [table_updateTcp, hb]
      exact hstep
    | tcpEvent p arg callback => exact stepTcp_table hcur hok h
    | udpRecv p arg cells addr port =>
      obtain ⟨t, ht, h⟩ := bind_eq_ok.mp h
      cases h
      rw [(table_xtcpUdpRecv ht).trans rfl]
      exact .quiet not_false
    | dnsFound hasName ipaddr arg => cases h; exact .quiet not_false
    | reap p =>
      cases h
      rw [table_tcpFree]
      simp only [HappeningAllowed] at hok
      split at hok
      · next id hst =>
        obtain ⟨arg, hp⟩ := table_tcp_of_pcbStatus hst
        exact .reap hp (by simp) (by simp) (by simp)
      · next l hst =>
        obtain ⟨arg, hp⟩ := table_tcp_of_pcbStatus hst
        exact .reap hp (by simp) (by simp) (by simp)
      · cases hok
    | dropRefused p =>
      obtain ⟨m, -, h⟩ := bind_eq_ok.mp h
      cases h; exact .quiet not_false
    | linkStatus up =>
      simp only [stepHappening] at h
      split at h
      · cases h; exact .quiet not_false
      · cases h; rw [table_notifyAll]; exact .quiet not_false
    | timeout timer hasIpAddress ifState =>
      simp only [stepHappening] at h
      split at h
      · cases h; rw [table_notifyAll]; exact .quiet not_false
      · cases h; exact .quiet not_false

end Xtcp
