import Xtcp.TableRefine

/-!
# Slots

The shape of the connection table in every state the server can come to, and what a
failing `socket` leaves behind.

`shim_new_socket` takes a slot first and asks lwIP for a control block second.  When
lwIP has none to give, the slot stays taken: the call reports an error, the client has
no id to close, and the slot holds a null control block that `getsockopt` and
`setsockopt` read through.

## Main definitions

* `SlotOk`, `TableOk` — the shape of a slot, and of the table.
* `SocketLeavesNothing` — a `socket` that fails has changed no slot.
* `FindsPcb` — lwIP has a control block whenever `socket` gets that far.

## Main results

* `Reachable.tableOk` — the shape of the table in every reachable state.
* `failing_socket_leaves_nothing_iff` — **exactly when a failing `socket` leaves nothing behind**.
-/

namespace Xtcp

open Runs

variable {cfg : Config}

/-! ### The invariant rule for tables -/

/-- An invariant of the table, proved along the steps of the table. -/
theorem RunsTo.table {C : Server → Action → Prop} {I : Table → Prop} {tr : List (Action × Reply)}
    {s : Server} (hrun : RunsTo cfg C tr s) (hcur : ∀ T, I T → T.CursorOk cfg)
    (h0 : I (init cfg).table)
    (hstep : ∀ s a r T, I s.table → Allowed cfg s a → C s a → TableStep cfg s.table a r T → I T) :
    I s.table :=
  Run.invariant (I := fun s => I s.table) hrun h0 fun s a s' r hI hok h =>
    hstep s a r s'.table hI hok.1 hok.2 (step_table (hcur _ hI) hok.1 h)

/-! ### The shape of the table -/

/-- The control block in a slot is of the kind its protocol says. -/
def PcbUnion.Fits (protocol : Protocol) : PcbUnion → Prop
  | .null => True
  | .tcp _ => protocol = .tcp
  | .udp _ => protocol = .udp

/-- A slot that is not active has been reset; one that is has an owner, and a control
block of the right kind. -/
structure SlotOk (cfg : Config) (e : Slot) : Prop where
  /-- A slot that is not active has been reset. -/
  reset : e.isActive = false → e = .released
  /-- The owner of an active slot is an attached client. -/
  owner : e.isActive = true → e.clientNum < cfg.nXtcp
  /-- The control block is of the right kind. -/
  fits : e.pcb.Fits e.protocol

/-- The cursor and all slots are as they should be. -/
structure TableOk (cfg : Config) (T : Table) : Prop where
  /-- The cursor is in the table or just behind it. -/
  cursor : T.CursorOk cfg
  /-- Every slot has the right shape. -/
  slot : ∀ k, cfg.InRange k → SlotOk cfg (T.slot k)

theorem slotOk_released : SlotOk cfg .released :=
  ⟨fun _ => rfl, (nomatch ·), trivial⟩

theorem slotOk_assigned {c : ℕ} (hc : c < cfg.nXtcp) (protocol : Protocol) (pcb : PcbUnion)
    (hfit : pcb.Fits protocol) (data : Option Ptr) :
    SlotOk cfg ⟨true, c, protocol, pcb, data⟩ :=
  ⟨(nomatch ·), fun _ => hc, hfit⟩

/-- The ways to release slot `k`: its owner closes it, lwIP raises an error for it, or a
connection that is to be accepted on it finds no slot. -/
def Releases (cfg : Config) (T : Table) (k : ℤ) : Action → Prop
  | .call _ call => ∃ lingers, call.closes k lingers
  | .happens (.tcpEvent _ arg (.err _)) => arg = k
  | .happens (.tcpEvent _ arg .accept) =>
    arg = k ∧ ((T.slot k).protocol = .tcp → T.freeSlot cfg = none)
  | _ => False

namespace TableOk

variable {T : Table}

/-- Writing one slot. -/
theorem setSlot (h : TableOk cfg T) {k : ℤ} {e : Slot} (he : SlotOk cfg e) :
    TableOk cfg (T.setSlot k e) := by
  refine ⟨h.cursor, fun j hj => ?_⟩
  rw [Table.setSlot_slot]
  split
  · exact he
  · exact h.slot j hj

theorem setTcp (h : TableOk cfg T) (p : Ptr) (r : Option Route) : TableOk cfg (T.setTcp p r) :=
  ⟨h.cursor, h.slot⟩

theorem setUdp (h : TableOk cfg T) (p : Ptr) (live : Bool) : TableOk cfg (T.setUdp p live) :=
  ⟨h.cursor, h.slot⟩

theorem release (h : TableOk cfg T) (k : ℤ) : TableOk cfg (T.release cfg k) := by
  unfold Table.release
  split
  · exact h.setSlot slotOk_released
  · exact h

theorem closePcb (h : TableOk cfg T) (k : ℤ) (lingers : Bool) : TableOk cfg (T.closePcb k
    lingers) := by
  unfold Table.closePcb
  split
  · exact h.setTcp _ _
  · exact h.setUdp _ _
  · exact h

theorem assign (h : TableOk cfg T) {k : ℤ} (hk : cfg.InRange k) {c : ℕ} (hc : c < cfg.nXtcp)
    (protocol : Protocol) : TableOk cfg (T.assign k c protocol) := by
  have hset := h.setSlot (k := k) (slotOk_assigned hc protocol .null trivial (T.slot k).clientData)
  exact ⟨⟨by have := hk.1; show 0 ≤ k + 1; omega, by have := hk.2; show k + 1 ≤ _; omega⟩,
    hset.slot⟩

/-- Storing a control block in a slot that has just been assigned. -/
theorem assign_store (h : TableOk cfg T) {k : ℤ} (hk : cfg.InRange k) {c : ℕ} (hc : c < cfg.nXtcp)
    (protocol : Protocol) (pcb : PcbUnion) (hfit : pcb.Fits protocol) :
    TableOk cfg ((T.assign k c protocol).store k pcb) := by
  refine (h.assign hk hc protocol).setSlot ?_
  rw [Table.assign_slot, if_pos rfl]
  exact slotOk_assigned hc protocol pcb hfit _

/-- An attached client owns only active slots. -/
theorem active_of_owned (h : TableOk cfg T) {i : ℕ} (hi : i < cfg.nXtcp) {k : ℤ}
    (hown : T.OwnedBy cfg i k) : (T.slot k).isActive = true := by
  by_contra hne
  have hrel := (h.slot k hown.1).reset (by simpa using hne)
  have hc := hown.2
  rw [hrel] at hc
  have := cfg.nXtcp_le
  simp only [Slot.released] at hc
  omega

/-- A slot with a protocol is active. -/
theorem active_of_protocol (h : TableOk cfg T) {k : ℤ} (hk : cfg.InRange k)
    (hp : (T.slot k).protocol ≠ .none) : (T.slot k).isActive = true := by
  by_contra hne
  rw [(h.slot k hk).reset (by simpa using hne)] at hp
  exact hp rfl

/-- The control block of a TCP slot, from its address. -/
theorem pcb_eq (h : TableOk cfg T) {k : ℤ} (hk : cfg.InRange k)
    (hproto : (T.slot k).protocol = .tcp) {p : Ptr} (haddr : (T.slot k).pcb.addr = some p) :
    (T.slot k).pcb = .tcp p := by
  have hfits := (h.slot k hk).fits
  cases hu : (T.slot k).pcb with
  | null => rw [hu] at haddr; cases haddr
  | tcp q => rw [hu] at haddr; cases haddr; rfl
  | udp q =>
    rw [hu, hproto] at hfits
    cases hfits

/-- **Every step keeps the shape of the table.** -/
theorem step (h : TableOk cfg T) {a : Action} {r : Reply} {T' : Table}
    (hstep : TableStep cfg T a r T') : TableOk cfg T' := by
  cases hstep with
  | quiet => exact h
  | socketNull hi _ hfree => exact h.assign (Table.freeSlot_some h.cursor hfree).1 hi _
  | socketNone hi hfree => exact h.assign (Table.freeSlot_some h.cursor hfree).1 hi _
  | @socketTcp i p k hi hfree =>
    rw [Table.store_setTcp]
    exact (h.assign_store (Table.freeSlot_some h.cursor hfree).1 hi .tcp (.tcp p) rfl).setTcp _ _
  | @socketUdp i p k hi hfree =>
    exact (h.assign_store (Table.freeSlot_some h.cursor hfree).1 hi .udp (.udp p) rfl).setUdp _ _
  | close => exact (h.closePcb _ _).release _
  | @listen i k _ _ p l arg hi hown hproto =>
    refine ((h.setTcp p none).setTcp l _).setSlot ?_
    have hslot := h.slot k hown.1
    have hact := h.active_of_owned hi hown
    exact ⟨fun hne => absurd hact (by simpa using hne), hslot.owner, hproto⟩
  | connect => exact h.setTcp _ _
  | @clientData i k data _ hi hown =>
    have hslot := h.slot k hown.1
    have hact := h.active_of_owned hi hown
    exact h.setSlot ⟨fun hne => absurd hact (by simpa using hne), hslot.owner, hslot.fits⟩
  | syn => exact h.setTcp _ _
  | @accepted l n arg k hn harg hproto hfree =>
    have hc := (h.slot arg harg).owner (h.active_of_protocol harg (by rw [hproto]; decide))
    exact (h.assign_store (Table.freeSlot_some h.cursor hfree).1 hc .tcp (.tcp n) rfl).setTcp _ _
  | @acceptAborted l n arg k hn harg hproto hfree =>
    have hc := (h.slot arg harg).owner (h.active_of_protocol harg (by rw [hproto]; decide))
    exact ((h.assign_store (Table.freeSlot_some h.cursor hfree).1 hc .tcp (.tcp n) rfl).setTcp _
      _).release _
  | acceptRefused => exact (h.setTcp _ _).release _
  | err => exact (h.setTcp _ _).release _
  | reap => exact h.setTcp _ _

/-- **A slot that is active** stays with its owner and its protocol, or is released. -/
theorem slot_of_active (h : TableOk cfg T) {a : Action} {r : Reply} {T' : Table}
    (hstep : TableStep cfg T a r T') {k : ℤ} (hact : (T.slot k).isActive = true) :
    (T'.slot k).isActive = true ∧ (T'.slot k).clientNum = (T.slot k).clientNum ∧
        (T'.slot k).protocol = (T.slot k).protocol ∨
      cfg.InRange k ∧ T'.slot k = .released ∧ Releases cfg T k a := by
  -- a slot that is taken is another one
  have hne : ∀ {j}, T.freeSlot cfg = some j → k ≠ j := by
    rintro j hfree rfl
    rw [(Table.freeSlot_some h.cursor hfree).2] at hact
    cases hact
  have hsame : T'.slot k = T.slot k → (T'.slot k).isActive = true ∧
      (T'.slot k).clientNum = (T.slot k).clientNum ∧
      (T'.slot k).protocol = (T.slot k).protocol := by
    intro heq
    rw [heq]
    exact ⟨hact, rfl, rfl⟩
  cases hstep with
  | quiet => exact .inl (hsame rfl)
  | socketNull _ _ hfree => exact .inl (hsame (by rw [Table.assign_slot, if_neg (hne hfree)]))
  | socketNone _ hfree => exact .inl (hsame (by rw [Table.assign_slot, if_neg (hne hfree)]))
  | socketUdp _ hfree =>
    refine .inl (hsame ?_)
    rw [Table.store_slot, if_neg (hne hfree), Table.setUdp_slot, Table.assign_slot,
      if_neg (hne hfree)]
  | socketTcp _ hfree =>
    refine .inl (hsame ?_)
    rw [Table.store_slot, if_neg (hne hfree), Table.setTcp_slot, Table.assign_slot,
      if_neg (hne hfree)]
  | @close i call j lingers _ hcloses =>
    rw [Table.release_slot, Table.closePcb_slot]
    split
    · next hj =>
      obtain ⟨rfl, hk⟩ := hj
      exact .inr ⟨hk, rfl, lingers, hcloses⟩
    · exact .inl ⟨hact, rfl, rfl⟩
  | @listen i j =>
    left
    rw [Table.store_slot]
    split
    · next hj => subst hj; exact ⟨hact, rfl, rfl⟩
    · exact ⟨hact, rfl, rfl⟩
  | connect => exact .inl (hsame rfl)
  | @clientData i j =>
    left
    rw [Table.setSlot_slot]
    split
    · next hj => subst hj; exact ⟨hact, rfl, rfl⟩
    · exact ⟨hact, rfl, rfl⟩
  | syn => exact .inl (hsame rfl)
  | accepted _ _ _ hfree =>
    refine .inl (hsame ?_)
    rw [Table.setTcp_slot, Table.store_slot, if_neg (hne hfree), Table.assign_slot,
      if_neg (hne hfree)]
  | acceptAborted _ _ _ hfree =>
    refine .inl (hsame ?_)
    rw [Table.release_slot, if_neg fun hj => hne hfree hj.1, Table.setTcp_slot, Table.store_slot,
      if_neg (hne hfree), Table.assign_slot, if_neg (hne hfree)]
  | acceptRefused _ hnone =>
    rw [Table.release_slot, Table.setTcp_slot]
    split
    · next hj =>
      obtain ⟨rfl, hk⟩ := hj
      exact .inr ⟨hk, rfl, rfl, hnone hk⟩
    · exact .inl ⟨hact, rfl, rfl⟩
  | err =>
    rw [Table.release_slot, Table.setTcp_slot]
    split
    · next hj =>
      obtain ⟨rfl, hk⟩ := hj
      exact .inr ⟨hk, rfl, rfl⟩
    · exact .inl ⟨hact, rfl, rfl⟩
  | reap => exact .inl (hsame rfl)

end TableOk

/-- A call closes one slot. -/
theorem Call.closes_inj {call : Call} {j k : ℤ} {l l' : Bool} (h : call.closes j l)
    (h' : call.closes k l') : j = k := by
  cases call with
  | close | abort => exact h.1.symm.trans h'.1
  | _ => cases h

/-- A client that closes a slot owns it, or nothing happens. -/
theorem TableStep.eq_or_ownedBy {T T' : Table} {i : ℕ} {call : Call} {r : Reply} {k : ℤ}
    {lingers : Bool} (hstep : TableStep cfg T (.call i call) r T') (h : call.closes k lingers) :
    T' = T ∨ T.OwnedBy cfg i k := by
  cases hstep with
  | quiet => exact .inl rfl
  | @close _ _ j l _ hcloses _ hown =>
    obtain rfl := Call.closes_inj hcloses h
    exact .inr hown
  | _ => cases h

theorem tableOk_init : TableOk cfg (init cfg).table := by
  refine ⟨⟨le_rfl, by simp [init, initClientConnections, Server.table, Server.static]⟩, fun k hk =>
    ?_⟩
  have : (init cfg).table.slot k = .released := by
    simp [init, initClientConnections, Server.table, hk, ConnectionEntry.released,
      ConnectionEntry.slot, Slot.released]
  rw [this]
  exact slotOk_released

theorem RunsTo.tableOk {C : Server → Action → Prop} {tr : List (Action × Reply)} {s : Server}
    (hrun : RunsTo cfg C tr s) : TableOk cfg s.table :=
  hrun.table (fun _ h => h.cursor) tableOk_init fun _ _ _ _ h _ _ hstep => h.step hstep

/-- **The shape of the table** in every reachable state. -/
theorem Reachable.tableOk {s : Server} (h : Reachable cfg s) : TableOk cfg s.table :=
  h.elim fun _ hrun => RunsTo.tableOk hrun

/-! ### A failing `socket` -/

/-- There is a slot that is not active. -/
def HasFreeSlot (cfg : Config) (s : Server) : Prop :=
  ∃ k, cfg.InRange k ∧ (s.connections k).isActive = false

/-- A `socket` that fails has changed no slot. -/
def SocketLeavesNothing (cfg : Config) (s : Server) (i : ℕ) (protocol : Protocol)
    (answer : Option Ptr) : Prop :=
  (shimNewSocket cfg s i protocol answer).2.status ≠ .success →
    (shimNewSocket cfg s i protocol answer).1.connections = s.connections

/-- lwIP has a control block for every `socket` that finds a slot. -/
def FindsPcb (cfg : Config) (s : Server) : Action → Prop
  | .call _ (.socket protocol answer) => protocol = .none ∨ answer ≠ none ∨ ¬ HasFreeSlot cfg s
  | _ => True

theorem hasFreeSlot_iff {s : Server} (hcur : s.table.CursorOk cfg) :
    HasFreeSlot cfg s ↔ ∃ k, s.table.freeSlot cfg = some k := by
  constructor
  · rintro ⟨k, hk, hne⟩
    cases hfree : s.table.freeSlot cfg with
    | some j => exact ⟨j, rfl⟩
    | none =>
      have hact : (s.connections k).isActive = true := Table.freeSlot_none hcur hfree hk
      rw [hact] at hne
      cases hne
  · rintro ⟨k, hfree⟩
    exact ⟨k, Table.freeSlot_some hcur hfree⟩

/-- `socket` succeeds when it finds a slot and needs no control block, or gets one. -/
theorem shimNewSocket_success {s : Server} (hcur : s.table.CursorOk cfg) {k : ℤ}
    (hfree : s.table.freeSlot cfg = some k) (i : ℕ) {protocol : Protocol} {answer : Option Ptr}
    (h : protocol = .none ∨ answer ≠ none) :
    (shimNewSocket cfg s i protocol answer).2 = ⟨.success, k⟩ := by
  cases protocol with
  | none => exact (shimNewSocket_none hfree i answer).1
  | tcp =>
    obtain ⟨p, rfl⟩ := Option.ne_none_iff_exists'.mp (h.resolve_left (by decide))
    exact (shimNewSocket_tcp hcur hfree i p).1
  | udp =>
    obtain ⟨p, rfl⟩ := Option.ne_none_iff_exists'.mp (h.resolve_left (by decide))
    exact (shimNewSocket_udp hcur hfree i p).1

/-- A failing `socket` leaves nothing behind unless lwIP has no control block for the
slot it found. -/
theorem socketLeavesNothing_iff {s : Server} (hcur : s.table.CursorOk cfg) (i : ℕ)
    (protocol : Protocol) (answer : Option Ptr) :
    SocketLeavesNothing cfg s i protocol answer ↔
      protocol = .none ∨ answer ≠ none ∨ ¬ HasFreeSlot cfg s := by
  rw [hasFreeSlot_iff hcur]
  cases hfree : s.table.freeSlot cfg with
  | none => simp [SocketLeavesNothing, shimNewSocket_full hfree]
  | some k =>
    constructor
    · intro hleaves
      by_contra hcon
      push Not at hcon
      obtain ⟨hproto, rfl, -⟩ := hcon
      obtain ⟨hres, htab⟩ := shimNewSocket_null hfree i hproto
      have hsame := hleaves (by rw [hres]; simp)
      -- the slot has become active
      have hslot : (shimNewSocket cfg s i protocol none).1.table.slot k = s.table.slot k :=
        congrArg ConnectionEntry.slot (congrFun hsame k)
      rw [htab, Table.assign_slot, if_pos rfl] at hslot
      have hfalse := (Table.freeSlot_some hcur hfree).2
      rw [← hslot] at hfalse
      cases hfalse
    · intro h hfail
      have hok : protocol = .none ∨ answer ≠ none := by
        rcases h with h | h | h
        · exact .inl h
        · exact .inr h
        · exact absurd ⟨k, rfl⟩ h
      rw [shimNewSocket_success hcur hfree i hok] at hfail
      exact absurd rfl hfail

/-- A slot with a protocol that has a control block. -/
def HoldsPcb (e : Slot) : Prop := e.isActive = true → e.protocol ≠ .none → e.pcb ≠ .null

/-- Every step keeps a control block in every slot, when lwIP has one for each. -/
theorem holdsPcb_step {s : Server} (hT : TableOk cfg s.table)
    (h : ∀ k, HoldsPcb (s.table.slot k)) {a : Action} (hfinds : FindsPcb cfg s a) {r : Reply}
    {T' : Table} (hstep : TableStep cfg s.table a r T') : ∀ k, HoldsPcb (T'.slot k) := by
  intro j
  cases hstep with
  | quiet => exact h j
  | socketNull hi hproto hfree =>
    rcases hfinds with hp | hp | hp
    · exact absurd hp hproto
    · exact absurd rfl hp
    · exact absurd ((hasFreeSlot_iff hT.cursor).mpr ⟨_, hfree⟩) hp
  | @socketTcp i p k =>
    rw [Table.store_slot]
    split
    · intro _ _; simp
    · next hj => rw [Table.setTcp_slot, Table.assign_slot, if_neg hj]; exact h j
  | @socketUdp i p k =>
    rw [Table.store_slot]
    split
    · intro _ _; simp
    · next hj => rw [Table.setUdp_slot, Table.assign_slot, if_neg hj]; exact h j
  | socketNone =>
    rw [Table.assign_slot]
    split
    · intro _ hp; exact absurd rfl hp
    · exact h j
  | close =>
    rw [Table.release_slot, Table.closePcb_slot]
    split
    · intro hact; cases hact
    · exact h j
  | listen =>
    rw [Table.store_slot]
    split
    · intro _ _; simp
    · exact h j
  | connect => exact h j
  | @clientData i k data _ hi hown =>
    rw [Table.setSlot_slot]
    split
    · exact h k
    · exact h j
  | syn => exact h j
  | @accepted l n arg k =>
    rw [Table.setTcp_slot, Table.store_slot]
    split
    · intro _ _; simp
    · next hj => rw [Table.assign_slot, if_neg hj]; exact h j
  | @acceptAborted l n arg k hn harg hproto hfree =>
    rw [Table.release_slot]
    split
    · intro hact; cases hact
    · next hj =>
      have hk := (Table.freeSlot_some hT.cursor hfree).1
      have hjk : j ≠ k := fun hjk => hj ⟨hjk, hk⟩
      rw [Table.setTcp_slot, Table.store_slot, if_neg hjk, Table.assign_slot, if_neg hjk]
      exact h j
  | acceptRefused =>
    rw [Table.release_slot, Table.setTcp_slot]
    split
    · intro hact; cases hact
    · exact h j
  | err =>
    rw [Table.release_slot, Table.setTcp_slot]
    split
    · intro hact; cases hact
    · exact h j
  | reap => exact h j

/-- Socket options are read and written through the control block of the slot. -/
theorem ipPcb_of_addr {s : Server} {k : ℤ} {p : Ptr} (haddr : (s.connections k).pcb.addr = some p)
    (hproto : getProtocol cfg s k ≠ .none) :
    (∃ b, loadIpPcb cfg s k = .ok b) ∧ ∀ f g, ∃ t, storeIpPcb cfg s k f g = .ok t := by
  have hk : cfg.InRange k := by
    by_contra hk
    exact hproto (if_neg hk)
  have hp : getProtocol cfg s k = (s.connections k).protocol := if_pos hk
  rw [hp] at hproto
  constructor
  · unfold loadIpPcb
    rw [hp]
    cases hq : (s.connections k).protocol with
    | none => exact absurd hq hproto
    | udp => exact ⟨_, by simp only [getUdpPcb, hk, hq, and_self, if_true, haddr]; rfl⟩
    | tcp => exact ⟨_, by simp only [getTcpPcb, hk, hq, and_self, if_true, haddr]; rfl⟩
  · intro f g
    unfold storeIpPcb
    rw [hp]
    cases hq : (s.connections k).protocol with
    | none => exact absurd hq hproto
    | udp => exact ⟨_, by simp only [getUdpPcb, hk, hq, and_self, if_true, haddr]; rfl⟩
    | tcp => exact ⟨_, by simp only [getTcpPcb, hk, hq, and_self, if_true, haddr]; rfl⟩

/-- The control block that the socket options of an owned slot are read through. -/
theorem loadIpPcb_ne_error {s : Server} {i : ℕ} {k : ℤ} (hown : s.table.OwnedBy cfg i k)
    (hT : TableOk cfg s.table) (h : HoldsPcb (s.table.slot k))
    (hproto : getProtocol cfg s k ≠ .none) :
    (∃ b, loadIpPcb cfg s k = .ok b) ∧ ∀ f g, ∃ t, storeIpPcb cfg s k f g = .ok t := by
  have hp : getProtocol cfg s k = (s.table.slot k).protocol := if_pos hown.1
  have hproto' : (s.table.slot k).protocol ≠ .none := by
    rw [← hp]
    exact hproto
  have hpcb := h (hT.active_of_protocol hown.1 hproto') hproto'
  have haddr : ∃ p, (s.connections k).pcb.addr = some p := by
    cases hu : (s.connections k).pcb with
    | null => exact absurd hu hpcb
    | tcp p => exact ⟨p, rfl⟩
    | udp p => exact ⟨p, rfl⟩
  obtain ⟨p, haddr⟩ := haddr
  exact ipPcb_of_addr haddr hproto

/-- The socket options of a client's slots are never read through a null control block. -/
theorem getsockopt_ne_nullPcb {s : Server} (hT : TableOk cfg s.table)
    (h : ∀ k, HoldsPcb (s.table.slot k)) (i : ℕ) (k : ℤ) (level : SocketLevel) (option length : ℕ) :
    shimGetsockopt cfg s i k level option length ≠ .error .nullPcb := by
  unfold shimGetsockopt
  dsimp only
  split
  · simp
  · next hfind =>
    have hown : s.table.OwnedBy cfg i k := find_success_iff.mp (not_not.mp hfind)
    split
    · unfold shimIpGetsockopt
      dsimp only
      split
      · simp
      · next hproto =>
        obtain ⟨⟨b, hb⟩, -⟩ := loadIpPcb_ne_error hown hT (h k) hproto
        split
        · simp
        · next opt _ =>
          split
          · simp
          · cases opt <;> simp only [hb] <;> first | split | skip
            all_goals simp [Bind.bind, Except.bind]
    · simp

theorem setsockopt_ne_nullPcb {s : Server} (hT : TableOk cfg s.table)
    (h : ∀ k, HoldsPcb (s.table.slot k)) (i : ℕ) (k : ℤ) (level : SocketLevel) (option : ℕ)
    (value : List UInt8) :
    shimSetsockopt cfg s i k level option value ≠ .error .nullPcb := by
  obtain ⟨e, heq⟩ | ⟨hfind, hproto, o, v, heq⟩ := shimSetsockopt_eq cfg s i k level option value
  · rw [heq]
    simp
  · have hown : s.table.OwnedBy cfg i k := find_success_iff.mp hfind
    obtain ⟨-, hstore⟩ := loadIpPcb_ne_error hown hT (h k) hproto
    obtain ⟨t, ht⟩ := hstore (o.writes v).1 (o.writes v).2
    rw [heq, ht]
    simp [Bind.bind, Except.bind]

/-- **Exactly when a failing `socket` leaves nothing behind**: unless it has found a slot
and lwIP has no control block for it.  Along a history in which that does not happen,
every TCP or UDP slot has a control block, and no socket option is read or written
through a null one. -/
theorem failing_socket_leaves_nothing_iff (cfg : Config) :
    (∀ s : Server, s.table.CursorOk cfg → ∀ i protocol answer,
      (SocketLeavesNothing cfg s i protocol answer ↔
        protocol = .none ∨ answer ≠ none ∨ ¬ HasFreeSlot cfg s)) ∧
    ∀ tr s, RunsTo cfg (FindsPcb cfg) tr s →
      (∀ k, (s.connections k).isActive = true → (s.connections k).protocol ≠ .none →
        (s.connections k).pcb ≠ .null) ∧
      (∀ i k level option length,
        shimGetsockopt cfg s i k level option length ≠ .error .nullPcb) ∧
      ∀ i k level option value,
        shimSetsockopt cfg s i k level option value ≠ .error .nullPcb := by
  refine ⟨fun s hcur i protocol answer => socketLeavesNothing_iff hcur i protocol answer, ?_⟩
  intro tr s hrun
  have hinv : TableOk cfg s.table ∧ ∀ k, HoldsPcb (s.table.slot k) := by
    refine hrun.table (I := fun T => TableOk cfg T ∧ ∀ k, HoldsPcb (T.slot k)) (fun T h =>
      h.1.cursor)
      ⟨tableOk_init, ?_⟩ fun s a r T h _ hfinds hstep =>
        ⟨h.1.step hstep, holdsPcb_step h.1 h.2 hfinds hstep⟩
    intro k hact
    simp only [init, initClientConnections, Server.table, Server.static] at hact
    split at hact <;> cases hact
  exact ⟨fun k => hinv.2 k, getsockopt_ne_nullPcb hinv.1 hinv.2,
    setsockopt_ne_nullPcb hinv.1 hinv.2⟩

/-- Without a control block, the first `socket` for TCP reports an error and leaves slot 0
active; a `getsockopt` on id 0 then reads through a null control block. -/
theorem failing_socket_leaks_slot :
    ¬ SocketLeavesNothing .small (init .small) 0 .tcp none ∧
      (socket .small (init .small) 0 .tcp none).2 = .int (-2) ∧
      shimGetsockopt .small (socket .small (init .small) 0 .tcp none).1 0 0 .ip 1 1
        = .error .nullPcb := by
  refine ⟨fun h => ?_, by decide, by rfl⟩
  have hslot := congrFun (h (by decide)) 0
  exact absurd (congrArg ConnectionEntry.isActive hslot) (by decide)

end Xtcp
