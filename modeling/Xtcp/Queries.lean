import Xtcp.Notifications

/-!
# What a client learns of the others

A call for a slot is checked against its owner first, so a client that asks about a slot of
another client is told nothing about it.  `get_ipconfig_remote` and `get_ipconfig_local` are the
exception: they read the table with the number they are given.  What they return then depends on
the sockets of others as soon as there are others.

## Main definitions

* `Call.slot` — the slot a call is for.
* `DifferInOthers` — two states differ in slots that a client does not own, and in nothing else.
* `Blind` — a call for a slot that is not the caller's returns the same in such states.

## Main results

* `blind_iff` — **exactly which calls reveal nothing**.
-/

namespace Xtcp

open Runs LinkedChain

variable {cfg : Config} {s t : Server} {i : ℕ}

/-! ### Two states -/

/-- The slot a call is for, with or without a check of its owner. -/
def Call.slot : Call → Option ℤ
  | .getIpconfigRemote id | .getIpconfigLocal id => some id
  | call => call.target

/-- Slot `k` is not a slot of client `i`, in either state. -/
def OtherSlot (cfg : Config) (i : ℕ) (s t : Server) (k : ℤ) : Prop :=
  cfg.InRange k ∧ (s.connections k).clientNum ≠ i ∧ (t.connections k).clientNum ≠ i

/-- Slot `k` has the control block at `p`. -/
def RefersTo (s : Server) (k : ℤ) (p : Ptr) : Prop := (s.connections k).pcb.addr = some p

/-- The pbuf `q` is in the chain of slot `k`. -/
def Holds (s : Server) (k : ℤ) (q : Ptr) : Prop :=
  ∃ l, IsChain s.pbufs.nxt (s.connections k).pbuf l ∧ q ∈ l

/-- The two states differ only in slots that client `i` does not own: in their entries, in their
control blocks and in their received data. -/
structure DifferInOthers (cfg : Config) (i : ℕ) (s t : Server) : Prop where
  /-- Other entries are the same. -/
  entry : ∀ k, ¬ OtherSlot cfg i s t k → s.connections k = t.connections k
  /-- Other control blocks are the same. -/
  pcb : ∀ p, (∀ k, OtherSlot cfg i s t k → ¬ RefersTo s k p ∧ ¬ RefersTo t k p) →
    s.tcp p = t.tcp p ∧ s.udp p = t.udp p
  /-- Other pbufs are the same. -/
  pbuf : ∀ q, (∀ k, OtherSlot cfg i s t k → ¬ Holds s k q ∧ ¬ Holds t k q) →
    s.pbufs q = t.pbufs q
  /-- And so is everything else. -/
  rest : { s with
    connections := t.connections
    tcp := t.tcp
    udp := t.udp
    pbufs := t.pbufs } = t

/-- A call of client `i` for a slot `id` that is not an active slot of the client returns the same
in any two states that differ only in the slots of others. -/
def Blind (cfg : Config) (i : ℕ) (id : ℤ) (call : Call) : Prop :=
  ∀ s t, Reachable cfg s → Reachable cfg t → DifferInOthers cfg i s t →
    ¬ OwnsActive cfg s i id → ¬ OwnsActive cfg t i id →
    (stepCall cfg s i call).map Prod.snd = (stepCall cfg t i call).map Prod.snd

/-! ### Calls that reveal nothing -/

theorem Reachable.step {a : Action} {r : Reply} (h : Reachable cfg s) (hok : Allowed cfg s a)
    (hs : step cfg s a = .ok (t, r)) : Reachable cfg t := by
  obtain ⟨tr, hrun⟩ := h
  exact ⟨_, hrun.snoc ⟨hok, trivial⟩ hs⟩

/-- A call that checks its slot first. -/
theorem blind_of_target (hi : i < cfg.nXtcp) {id : ℤ} {call : Call}
    (htarget : call.target = some id) : Blind cfg i id call := by
  -- the answer to a stranger is always the same
  have hrefused : ∀ s, Reachable cfg s → ¬ OwnsActive cfg s i id →
      stepCall cfg s i call = .ok (s, call.refusal) := by
    intro s hs hown
    refine stepCall_of_not_owned htarget fun hfind => ?_
    exact hown ((find_success_iff_active hs.tableOk hi id).mp hfind)
  intro s t hs ht _ hs' ht'
  rw [hrefused s hs hs', hrefused t ht ht']
  rfl

/-- There is nothing to be found where there is no protocol. -/
theorem hosts_of_none {id : ℤ} (h : getProtocol cfg s id = .none) :
    getRemoteFromPcb cfg s id = {} ∧ getLocalFromPcb cfg s id = {} := by
  simp only [getRemoteFromPcb, getLocalFromPcb, h, and_self]

/-- The only client has no slots of others to look at. -/
theorem getProtocol_of_alone (hs : Reachable cfg s) (hi : i < cfg.nXtcp) (halone : cfg.nXtcp = 1)
    {id : ℤ} (hown : ¬ OwnsActive cfg s i id) : getProtocol cfg s id = .none := by
  unfold getProtocol
  split
  · next hid =>
    have hentry := hs.tableOk.entryOk hid
    cases hact : (s.connections id).isActive with
    | false => exact (hentry.reset hact).2.1
    | true =>
      have howner := hentry.owner hact
      exact absurd ⟨hid, hact, by omega⟩ hown
  · rfl

/-! ### Calls that reveal something -/

/-- The scan begins at the cursor. -/
theorem Table.freeSlot_cursor {T : Table} {n : ℕ} (hcursor : T.cursor = n)
    (hn : n < cfg.maxOpenSockets) (hfree : (T.slot n).isActive = false) :
    T.freeSlot cfg = some (n : ℤ) := by
  have hindex : (if T.cursor + ((0 : ℕ) : ℤ) ≥ cfg.maxOpenSockets
      then T.cursor + ((0 : ℕ) : ℤ) - cfg.maxOpenSockets else T.cursor + ((0 : ℕ) : ℤ)) = n := by
    rw [if_neg (by omega)]
    omega
  simp only [freeSlot, Option.map_eq_some_iff, List.find?_range_eq_some, List.mem_range]
  refine ⟨0, ⟨?_, cfg.sockets_pos, fun i hi => absurd hi (by omega)⟩, hindex⟩
  rw [hindex, hfree]
  rfl

/-- A client can open the slots from the first one on. -/
theorem exists_opened {j : ℕ} (hj : j < cfg.nXtcp) (n : ℕ) (hn : n ≤ cfg.maxOpenSockets) :
    ∃ s, Reachable cfg s ∧ s.table.cursor = n ∧
      (∀ k : ℤ, n ≤ k → cfg.InRange k → (s.table.slot k).isActive = false) ∧
      ∀ p, s.table.tcp p = none ∧ s.table.udp p = false := by
  induction n with
  | zero =>
    refine ⟨init cfg, ⟨[], .nil⟩, rfl, fun k _ hk => ?_, fun p => ⟨rfl, rfl⟩⟩
    simp [init, initClientConnections, Server.table, hk, ConnectionEntry.released,
      ConnectionEntry.slot]
  | succ n ih =>
    obtain ⟨s, hs, hcursor, hfree, hfresh⟩ := ih (by omega)
    have hin : cfg.InRange n := ⟨by omega, by omega⟩
    have hslot := Table.freeSlot_cursor hcursor (show n < cfg.maxOpenSockets by omega)
      (hfree n le_rfl hin)
    obtain ⟨-, htab⟩ := shimNewSocket_none hslot j none
    refine ⟨(shimNewSocket cfg s j .none none).1, ?_, ?_, fun k hk hin => ?_, fun p => ?_⟩
    · have hallowed : Allowed cfg s (.call j (.socket .none none)) :=
        ⟨hj, by simp [CallAllowed, IfSome]⟩
      exact hs.step hallowed rfl
    · rw [htab]
      rfl
    · rw [htab, Table.assign_slot, if_neg (by omega)]
      exact hfree k (by omega) hin
    · rw [htab]
      exact hfresh p

/-- A new UDP control block has no addresses. -/
theorem udp_shimNewSocket {j : ℕ} {p : Ptr}
    (h : (shimNewSocket cfg s j .udp (some p)).2.status = .success) :
    (shimNewSocket cfg s j .udp (some p)).1.udp p = some {} := by
  have hset : ∀ (u : Server) (k : ℤ) (q : Option Ptr), (setUdpPcb cfg u k q).1.udp = u.udp := by
    intro u k q
    unfold setUdpPcb
    split <;> rfl
  unfold shimNewSocket at h ⊢
  dsimp only at h ⊢
  split at h
  · next hne => exact absurd h hne
  · next hassign =>
    split at h
    · cases h
    · next hstored =>
      rw [if_neg hassign, if_neg hstored, hset]
      simp [udpNewIpType]

/-- Any slot can be a UDP socket of any client. -/
theorem exists_udp_socket {j : ℕ} (hj : j < cfg.nXtcp) {k : ℤ} (hk : cfg.InRange k) (p : Ptr) :
    ∃ s, Reachable cfg s ∧ s.table.OwnedBy cfg j k ∧ (s.connections k).protocol = .udp ∧
      (s.connections k).pcb = .udp p ∧ s.udp p = some {} := by
  have h0 := hk.1
  have h1 := hk.2
  obtain ⟨s, hs, hcursor, hfree, hfresh⟩ := exists_opened hj k.toNat (by omega)
  have hn : ((k.toNat : ℕ) : ℤ) = k := Int.toNat_of_nonneg h0
  have hslot : s.table.freeSlot cfg = some k := by
    rw [← hn]
    refine Table.freeSlot_cursor hcursor (by omega) (hfree _ le_rfl ?_)
    rw [hn]
    exact hk
  obtain ⟨hres, htab⟩ := shimNewSocket_udp hs.tableOk.cursor hslot j p
  have hpcb : FreshPcb s p := by
    obtain ⟨htcp, hudp⟩ := hfresh p
    exact ⟨by simpa [Server.table] using htcp, by simpa [Server.table] using hudp⟩
  have hallowed : Allowed cfg s (.call j (.socket .udp (some p))) :=
    ⟨hj, by simpa [CallAllowed, IfSome] using hpcb⟩
  have hslot' : (shimNewSocket cfg s j .udp (some p)).1.table.slot k
      = ⟨true, j, .udp, .udp p, (s.table.slot k).clientData⟩ := by
    rw [htab, Table.store_slot, if_pos rfl, Table.setUdp_slot, Table.assign_slot, if_pos rfl]
  refine ⟨_, hs.step hallowed rfl, ⟨hk, congrArg Slot.clientNum hslot'⟩,
    congrArg Slot.protocol hslot', congrArg Slot.pcb hslot', ?_⟩
  exact udp_shimNewSocket (by rw [hres])

/-- A change of the control block of a slot of another client. -/
theorem differInOthers_udp {k : ℤ} {p : Ptr} (hk : OtherSlot cfg i s s k) (hp : RefersTo s k p)
    {u : Ptr → Option UdpPcb} (hu : ∀ q, q ≠ p → u q = s.udp q) :
    DifferInOthers cfg i s { s with udp := u } where
  entry := fun _ _ => rfl
  pcb := by
    intro q hq
    refine ⟨rfl, (hu q ?_).symm⟩
    rintro rfl
    exact (hq k hk).1 hp
  pbuf := fun _ _ => rfl
  rest := rfl

/-- Two states that differ in the addresses of a socket of another client are told apart. -/
theorem not_blind_of_udp {k : ℤ} {p : Ptr} {b : UdpPcb} (hs : Reachable cfg s)
    (ht : Reachable cfg { s with udp := Function.update s.udp p (some b) })
    (hk : OtherSlot cfg i s s k) (hproto : (s.connections k).protocol = .udp)
    (hpcb : (s.connections k).pcb = .udp p) (hudp : s.udp p = some {}) :
    (b.remoteHost ≠ {} → ¬ Blind cfg i k (.getIpconfigRemote k)) ∧
      (b.localHost ≠ {} → ¬ Blind cfg i k (.getIpconfigLocal k)) := by
  have hdiffer : DifferInOthers cfg i s { s with udp := Function.update s.udp p (some b) } := by
    refine differInOthers_udp hk ?_ fun q hq => Function.update_of_ne hq _ _
    rw [RefersTo, hpcb]
    rfl
  have hstranger : ∀ u, ¬ OwnsActive cfg { s with udp := u } i k := fun u h => hk.2.1 h.2.2
  have hget : ∀ u, getUdpPcb cfg { s with udp := u } k = some p := by
    intro u
    rw [getUdpPcb, if_pos ⟨hk.1, hproto⟩]
    simp only [hpcb, PcbUnion.addr]
  have hp : ∀ u, getProtocol cfg { s with udp := u } k = .udp := by
    intro u
    rw [getProtocol, if_pos hk.1]
    exact hproto
  constructor
  · intro hne h
    have hsame := h s _ hs ht hdiffer (hstranger s.udp) (hstranger _)
    have hbefore : getRemoteFromPcb cfg s k = {} := by
      simp only [getRemoteFromPcb, hp s.udp, hget s.udp, Option.bind_some, hudp, Option.map_some,
        Option.getD_some]
    have hafter : getRemoteFromPcb cfg { s with udp := Function.update s.udp p (some b) } k
        = b.remoteHost := by
      simp only [getRemoteFromPcb, hp, hget, Option.bind_some, Function.update_self,
        Option.map_some, Option.getD_some]
    simp only [stepCall, Except.map, hbefore, hafter, Except.ok.injEq, Reply.host.injEq] at hsame
    exact hne hsame.symm
  · intro hne h
    have hsame := h s _ hs ht hdiffer (hstranger s.udp) (hstranger _)
    have hbefore : getLocalFromPcb cfg s k = {} := by
      simp only [getLocalFromPcb, hp s.udp, hget s.udp, Option.bind_some, hudp, Option.map_some,
        Option.getD_some]
    have hafter : getLocalFromPcb cfg { s with udp := Function.update s.udp p (some b) } k
        = b.localHost := by
      simp only [getLocalFromPcb, hp, hget, Option.bind_some, Function.update_self,
        Option.map_some, Option.getD_some]
    simp only [stepCall, Except.map, hbefore, hafter, Except.ok.injEq, Reply.host.injEq] at hsame
    exact hne hsame.symm

/-- **What the two calls reveal**: whether a socket of another client has been connected, and
whether it has been bound. -/
theorem not_blind_of_other {j : ℕ} (hj : j < cfg.nXtcp) (hji : j ≠ i) {k : ℤ}
    (hk : cfg.InRange k) :
    ¬ Blind cfg i k (.getIpconfigRemote k) ∧ ¬ Blind cfg i k (.getIpconfigLocal k) := by
  -- where its control block is does not matter
  obtain ⟨p⟩ : Nonempty Ptr := ⟨1⟩
  obtain ⟨s, hs, hown, hproto, hpcb, hudp⟩ := exists_udp_socket hj hk p
  have hget : getUdpPcb cfg s k = some p := by
    rw [getUdpPcb, if_pos ⟨hk, hproto⟩, hpcb]
    rfl
  have hp : getProtocol cfg s k = .udp := by rw [getProtocol, if_pos hk, hproto]
  have htcp : getTcpPcb cfg s k = none := by
    rw [getTcpPcb, if_neg]
    rintro ⟨-, h⟩
    rw [hproto] at h
    cases h
  have hfind : (findClientConnection cfg s j k).status = .success := find_success_iff.mpr hown
  have hother : OtherSlot cfg i s s k := by
    have hne : (s.connections k).clientNum ≠ i := by
      rw [show (s.connections k).clientNum = j from hown.2]
      exact hji
    exact ⟨hk, hne, hne⟩
  constructor
  · -- the socket is connected
    have hallowed : Allowed cfg s (.call j (.connect k 7 {} .ok)) :=
      ⟨hj, fun _ => by simp [IfSome, htcp]⟩
    have hstep : step cfg s (.call j (.connect k 7 {} .ok)) = .ok
        ({ s with udp := Function.update s.udp p (some
          { recvArg := some k, connected := true, remoteHost := ⟨{}, 7⟩ }) },
          .code .success) := by
      simp [step, stepCall, hfind, shimConnect, hp, hget, udpConnect, udpRecv, Server.modifyUdp,
        hudp]
    refine (not_blind_of_udp hs (hs.step hallowed hstep) hother hproto hpcb hudp).1 ?_
    show (⟨{}, 7⟩ : Host) ≠ {}
    decide
  · -- the socket is bound
    have hallowed : Allowed cfg s (.call j (.listen k 7 {} ⟨.ok, none⟩)) :=
      ⟨hj, by simp [CallAllowed, IfSome, htcp]⟩
    have hstep : step cfg s (.call j (.listen k 7 {} ⟨.ok, none⟩)) = .ok
        ({ s with udp := Function.update s.udp p (some
          { recvArg := some k, localHost := ⟨{}, 7⟩ }) }, .code .success) := by
      simp [step, stepCall, hfind, shimListen, hp, hget, udpBind, udpRecv, Server.modifyUdp, hudp]
    refine (not_blind_of_udp hs (hs.step hallowed hstep) hother hproto hpcb hudp).2 ?_
    show (⟨{}, 7⟩ : Host) ≠ {}
    decide

/-- **Exactly which calls reveal nothing about the sockets of others**: the ones that check the
owner of the slot first; and any, for a number that is no slot, or when there is one client. -/
theorem blind_iff (hi : i < cfg.nXtcp) {k : ℤ} {call : Call} (hcall : call.slot = some k) :
    Blind cfg i k call ↔ call.target = some k ∨ ¬ cfg.InRange k ∨ cfg.nXtcp = 1 := by
  constructor
  · intro h
    by_contra hnot
    push Not at hnot
    obtain ⟨htarget, hk, hclients⟩ := hnot
    -- there is another client
    obtain ⟨j, hj, hji⟩ : ∃ j, j < cfg.nXtcp ∧ j ≠ i := by
      by_cases h0 : i = 0
      · exact ⟨1, by omega, by omega⟩
      · exact ⟨0, by omega, Ne.symm h0⟩
    obtain ⟨hremote, hlocal⟩ := not_blind_of_other hj hji hk
    cases call with
    | getIpconfigRemote id =>
      cases hcall
      exact hremote h
    | getIpconfigLocal id =>
      cases hcall
      exact hlocal h
    | _ => exact htarget hcall
  · intro hcond
    by_cases htarget : call.target = some k
    · exact blind_of_target hi htarget
    · have hcond := hcond.resolve_left htarget
      intro s t hs ht _ hsown htown
      -- there is no protocol to be found
      have hproto : ∀ u, Reachable cfg u → ¬ OwnsActive cfg u i k →
          getProtocol cfg u k = .none := by
        intro u hu hown
        rcases hcond with hk | halone
        · rw [getProtocol, if_neg hk]
        · exact getProtocol_of_alone hu hi halone hown
      obtain ⟨hsr, hsl⟩ := hosts_of_none (hproto s hs hsown)
      obtain ⟨htr, htl⟩ := hosts_of_none (hproto t ht htown)
      cases call with
      | getIpconfigRemote id =>
        cases hcall
        simp only [stepCall, hsr, htr, Except.map]
      | getIpconfigLocal id =>
        cases hcall
        simp only [stepCall, hsl, htl, Except.map]
      | _ => exact absurd hcall htarget

/-- A `getsockopt` on a slot of another client, and a query for a number that is no slot. -/
theorem blind_iff_getsockopt : Blind .small 1 0 (.getsockopt 0 .ip 1 1) ∧
    Blind .small 1 2 (.getIpconfigRemote 2) :=
  ⟨(blind_iff (by decide) rfl).mpr (.inl rfl),
    (blind_iff (by decide) rfl).mpr (.inr (.inl (by decide)))⟩

/-- Client 1 asks for the addresses of the socket of client 0. -/
theorem get_ipconfig_reveals_socket : ¬ ∀ i, i < Config.small.nXtcp → ∀ k call,
    Call.slot call = some k → Blind .small i k call := by
  intro h
  have hother : 0 < Config.small.nXtcp := by decide
  exact (not_blind_of_other hother (by decide) (by decide)).1 (h 1 (by decide) 0 _ rfl)

end Xtcp
