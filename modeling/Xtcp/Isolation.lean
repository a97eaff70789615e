import Xtcp.RxRuns

/-!
# Received data and the next owner of a slot

The received data of a slot is cleared by one function, and the rest of the slot by another.
`shim_close_socket` calls both.  `LWIP_EVENT_ERR` calls the second one only, so that the next
socket in the slot starts with the data of the last one.

Where a pbuf has come from is followed along the links: a set of pbufs that no link leaves, and
in which the chain of a slot starts, is one from which everything received on that slot is taken.

## Main definitions

* `Action.delivers` — the pbufs a step delivers.
* `Within` — the chain of a slot starts in a set of pbufs that no link leaves.
* `ClearsRx` — a slot that lwIP releases holds no data, and none is left in a slot that is not
  active.
* `NoRxCrosses` — along the histories that meet a condition, no data crosses from one socket to
  the next.

## Main results

* `RxMoves.step` — what a step does to the first pbufs and to the links.
* `no_rx_crosses` — **no received data crosses sockets, if no step leaves data in a slot that is
  not active**.
-/

namespace Xtcp

open Runs

variable {cfg : Config} {s s' s'' : Server} {m m' : Pbufs} {D : Set Ptr} {j : Option ℤ}

/-! ### Links -/

/-- No link leaves the set `D`. -/
def LinksWithin (D : Set Ptr) (m : Pbufs) : Prop :=
  ∀ p ∈ D, ∀ q, m.nxt p = some (some q) → q ∈ D

/-- The chain of slot `k` starts in `D`, and no link leaves `D`. -/
structure Within (D : Set Ptr) (k : ℤ) (s : Server) : Prop where
  /-- The first pbuf is in `D`. -/
  head : ∀ p, (s.connections k).pbuf = some p → p ∈ D
  /-- No link leaves `D`. -/
  links : LinksWithin D s.pbufs

theorem LinksWithin.next (h : LinksWithin D m) {p : Ptr} (hp : p ∈ D) {b : Pbuf}
    (hb : m p = some b) {q : Ptr} (hq : b.next = some q) : q ∈ D :=
  h p hp q (nxt_eq_some.mpr ⟨b, hb, hq⟩)

/-- There are fewer links. -/
theorem LinksWithin.mono (h : LinksWithin D m)
    (hsub : ∀ p q, m'.nxt p = some (some q) → m.nxt p = some (some q)) : LinksWithin D m' :=
  fun p hp q hq => h p hp q (hsub p q hq)

/-- Writing a pbuf with a link into `D`. -/
theorem LinksWithin.update (h : LinksWithin D m) (p : Ptr) {b : Pbuf}
    (hb : ∀ q, b.next = some q → q ∈ D) : LinksWithin D (Function.update m p (some b)) := by
  intro r hr q hq
  rw [nxt_update] at hq
  by_cases hrp : r = p
  · subst hrp
    rw [Function.update_self] at hq
    exact hb q (Option.some.inj hq)
  · rw [Function.update_of_ne hrp] at hq
    exact h r hr q hq

/-- `pbuf_free` makes no link. -/
theorem nxt_pbufFreeLoop : ∀ {n : ℕ} {m m' : Pbufs} {x : Option Ptr},
    pbufFreeLoop n m x = .ok m' → ∀ p q, m'.nxt p = some (some q) → m.nxt p = some (some q) := by
  intro n
  induction n with
  | zero =>
    intro m m' x h p q hq
    cases x with
    | none => simp only [pbufFreeLoop, Except.ok.injEq] at h; rwa [h]
    | some r => simp [pbufFreeLoop] at h
  | succ n ih =>
    intro m m' x h p q hq
    cases x with
    | none => simp only [pbufFreeLoop, Except.ok.injEq] at h; rwa [h]
    | some r =>
      simp only [pbufFreeLoop] at h
      split at h
      · cases h
      · next b hb =>
        split at h
        · have hq := ih h p q hq
          by_cases hp : p = r
          · subst hp; simp [Pbufs.nxt] at hq
          · simpa [Pbufs.nxt, hp] using hq
        · cases h
          have hsame : Pbufs.nxt (Function.update m r (some { b with ref := b.ref - 1 })) = m.nxt :=
            nxt_update_same hb rfl
          rwa [hsame] at hq

/-- The pbufs a step delivers. -/
def Action.delivers : Action → List Ptr
  | .happens (.tcpEvent _ _ (.recv cells)) => cells.map Prod.fst
  | .happens (.udpRecv _ _ cells _ _) => cells.map Prod.fst
  | _ => []

/-! ### Moves -/

/-- What a step that works on the data of slot `j`, and delivers pbufs of `D` only, does to the
first pbufs and to the links. -/
structure RxMoves (D : Set Ptr) (j : Option ℤ) (s s' : Server) : Prop where
  /-- The chains of the other slots start where they did. -/
  head : ∀ k, j ≠ some k → (s'.connections k).pbuf = (s.connections k).pbuf
  /-- No chain leaves `D`. -/
  within : ∀ k, Within D k s → Within D k s'

namespace RxMoves

theorem trans (h : RxMoves D j s s') (h' : RxMoves D j s' s'') : RxMoves D j s s'' :=
  ⟨fun k hk => (h'.head k hk).trans (h.head k hk), fun k hw => h'.within k (h.within k hw)⟩

/-- The slots are as before, and so are the links within `D`. -/
theorem of_links (hhead : ∀ k, (s'.connections k).pbuf = (s.connections k).pbuf)
    (hlinks : LinksWithin D s.pbufs → LinksWithin D s'.pbufs) : RxMoves D j s s' :=
  ⟨fun k _ => hhead k, fun k hw => ⟨fun p hp => hw.head p ((hhead k).symm.trans hp),
    hlinks hw.links⟩⟩

theorem of_keepsRx (h : KeepsRx s s') : RxMoves D j s s' :=
  of_links h.head fun hl => by rw [h.pbufs]; exact hl

theorem refl (s : Server) : RxMoves D j s s := of_keepsRx (Keeps.refl s).toKeepsRx

/-- The chain of slot `k` starts with another pbuf. -/
theorem of_head {k : ℤ} {x : Option Ptr}
    (hconn : s'.connections = Function.update s.connections k { s.connections k with pbuf := x })
    (hx : Within D k s → ∀ p, x = some p → p ∈ D)
    (hlinks : LinksWithin D s.pbufs → LinksWithin D s'.pbufs) : RxMoves D (some k) s s' := by
  constructor
  · intro i hi
    have hik : i ≠ k := fun hik => hi (by rw [hik])
    rw [hconn, Function.update_of_ne hik]
  · intro i hw
    refine ⟨fun p hp => ?_, hlinks hw.links⟩
    rw [hconn] at hp
    by_cases hik : i = k
    · subst hik
      rw [Function.update_self] at hp
      exact hx hw p hp
    · rw [Function.update_of_ne hik] at hp
      exact hw.head p hp

/-- A delivery of pbufs of `D`. -/
theorem deliver {cells : List (Ptr × Pbuf)} (hlinked : Linked cells)
    (hnd : (cells.map Prod.fst).Nodup) (hD : ∀ p ∈ cells.map Prod.fst, p ∈ D) :
    RxMoves D j s { s with pbufs := deliver s.pbufs cells } := by
  refine of_links (fun _ => rfl) fun hl p hp q hq => ?_
  by_cases hmem : p ∈ cells.map Prod.fst
  · -- a link of a delivered pbuf leads to the next one
    have hchain := isChain_deliver s.pbufs hlinked hnd
    exact hD q (hchain.next_mem hmem hq)
  · have hsame : Pbufs.nxt (Xtcp.deliver s.pbufs cells) p = s.pbufs.nxt p := by
      simp only [Pbufs.nxt, deliver_of_notMem hmem]
    exact hl p hp q (hsame.symm.trans hq)

/-- `set_remote` of a pbuf of `D`. -/
theorem setRemote {k : ℤ} {remote : Option IpAddr} {port : UInt16} {p : Ptr} (hp : p ∈ D)
    {e : ErrorCode} (h : setRemote cfg s k remote port (some p) = .ok (s', e)) :
    RxMoves D (some k) s s' := by
  unfold Xtcp.setRemote at h
  split at h
  · obtain ⟨b, hb, h⟩ := bind_eq_ok.mp h
    have hb : s.pbufs p = some b := Pbufs.load_eq_ok.mp hb
    have hset : LinksWithin D s.pbufs → LinksWithin D (Function.update s.pbufs p
        (some { b with remote := ⟨remote.getD {}, port⟩ })) := fun hl =>
      hl.update p fun q hq => hl.next hp hb hq
    dsimp only at h
    split at h
    · obtain ⟨last, -, h⟩ := bind_eq_ok.mp h
      obtain ⟨lb, -, h⟩ := bind_eq_ok.mp h
      cases h
      refine of_links (fun _ => rfl) fun hl => (hset hl).update last fun q hq => ?_
      rwa [← Option.some.inj hq]
    · cases h
      refine of_head rfl (fun _ q hq => ?_) hset
      rwa [← Option.some.inj hq]
  · cases h; exact refl s

/-- `unlink_remote` of a pbuf of `D`. -/
theorem unlinkRemote {k : ℤ} {p : Ptr} (hp : p ∈ D) {e : ErrorCode}
    (h : unlinkRemote cfg s k (some p) = .ok (s', e)) : RxMoves D (some k) s s' := by
  unfold Xtcp.unlinkRemote at h
  dsimp only at h
  split at h
  · obtain ⟨found, -, h⟩ := bind_eq_ok.mp h
    split at h
    · cases h; exact refl s
    · obtain ⟨b, hb, h⟩ := bind_eq_ok.mp h
      have hb : s.pbufs p = some b := Pbufs.load_eq_ok.mp hb
      split at h
      · cases h
        refine of_head rfl (fun hw q hq => hw.links.next hp hb hq) fun hl => ?_
        exact hl.update p (by simp)
      · next r _ =>
        obtain ⟨rb, -, h⟩ := bind_eq_ok.mp h
        cases h
        refine of_links (fun _ => rfl) fun hl => ?_
        have hr : LinksWithin D (Function.update s.pbufs r (some { rb with next := b.next })) :=
          hl.update r fun q hq => hl.next hp hb hq
        exact hr.update p (by simp)
  · cases h; exact refl s

/-- lwIP is told about received data. -/
theorem consumed (s : Server) (k : ℤ) (n : ℕ) : RxMoves D (some k) s (s.consumed k n) := by
  unfold Server.consumed
  split
  · exact of_keepsRx (Keeps.modifyTcp _ _ _).toKeepsRx
  · exact refl s

/-- `free_remote_data` -/
theorem freeRemoteData {k : ℤ} {e : ErrorCode} (h : freeRemoteData cfg s k = .ok (s', e)) :
    RxMoves D (some k) s s' := by
  obtain rfl | ⟨p, b, m, hhead, hb, hm, rfl⟩ := freeRemoteData_cases h
  · exact refl _
  · have hlinks : LinksWithin D s.pbufs → LinksWithin D m := fun hl =>
      (hl.update p (by simp)).mono (nxt_pbufFreeLoop hm)
    have hmoves : RxMoves D (some k) s
        { s.setEntry k { s.connections k with pbuf := b.next } with pbufs := m } :=
      of_head rfl (fun hw q hq => hw.links.next (hw.head p hhead) hb hq) hlinks
    exact hmoves.trans (consumed _ k b.len)

/-- `clear_pending_rx_data_on_connection` -/
theorem clearPending {k : ℤ} (h : clearPendingRxDataOnConnection cfg s k = .ok s') :
    RxMoves D (some k) s s' := by
  by_cases hk : cfg.InRange k
  · obtain ⟨-, rfl⟩ | ⟨p, b, m, -, -, hm, rfl⟩ := clearPending_cases hk h
    · exact refl _
    · refine of_head (x := none) ?_ (fun _ q hq => by cases hq) fun hl =>
        hl.mono (nxt_pbufFreeLoop hm)
      simp only [Server.setEntry, Server.connections_consumed]
  · simp only [clearPendingRxDataOnConnection, if_neg hk] at h
    cases h
    exact refl s

/-- `LWIP_EVENT_RECV` with a pbuf of `D`. -/
theorem eventRecv {k : ℤ} {c : ℕ} {p : Ptr} (hp : p ∈ D) {e : Err}
    (h : eventRecv cfg s k c (some p) = .ok (s', e)) : RxMoves D (some k) s s' := by
  obtain ⟨⟨t, e'⟩, ht, h⟩ := bind_eq_ok.mp h
  have hset := setRemote hp ht
  have hqueued : RxMoves D (some k) s (enqueue cfg t c k .recvData).1 :=
    hset.trans (of_keepsRx (keepsRx_enqueue t c k .recvData))
  dsimp only at h
  split at h
  · obtain ⟨⟨u, e''⟩, hu, h⟩ := bind_eq_ok.mp h
    cases h
    exact hqueued.trans (unlinkRemote hp hu)
  · cases h; exact hqueued

/-- A TCP delivery of pbufs of `D`. -/
theorem tcpRecv {pcb : Ptr} {arg : ℤ} {c : Ptr × Pbuf} {cells : List (Ptr × Pbuf)} {r : Reply}
    (hlinked : Linked (c :: cells)) (hnd : ((c :: cells).map Prod.fst).Nodup)
    (hD : ∀ p ∈ (c :: cells).map Prod.fst, p ∈ D)
    (h : stepTcp cfg s pcb arg (.recv (c :: cells)) = .ok (s', r)) : RxMoves D (some arg) s s' := by
  have hdeliver := deliver (j := some arg) (s := s) hlinked hnd hD
  obtain ⟨⟨t, e⟩, ht, h⟩ := bind_eq_ok.mp h
  have hmoves : RxMoves D (some arg) s t := by
    unfold lwipTcpEvent at ht
    split at ht
    · exact hdeliver.trans (eventRecv (hD c.1 List.mem_cons_self) ht)
    · cases ht; exact hdeliver
  cases h
  exact hmoves.trans (of_links (fun _ => rfl) id)

/-- A datagram of pbufs of `D`. -/
theorem udpRecv {pcb : Ptr} {arg : ℤ} {cells : List (Ptr × Pbuf)} {addr : Option IpAddr}
    {port : UInt16} {r : Reply} (hlinked : Linked cells) (hnd : (cells.map Prod.fst).Nodup)
    (hD : ∀ p ∈ cells.map Prod.fst, p ∈ D)
    (h : stepHappening cfg s (.udpRecv pcb arg cells addr port) = .ok (s', r)) :
    RxMoves D (some arg) s s' := by
  have hdeliver := deliver (j := some arg) (s := s) hlinked hnd hD
  obtain ⟨t, ht, h⟩ := bind_eq_ok.mp h
  cases h
  refine hdeliver.trans ?_
  unfold xtcpUdpRecv at ht
  split at ht
  · cases ht; exact refl _
  · next p hp =>
    have hp : p ∈ D := by
      simp only [deliveredHead, Option.map_eq_some_iff] at hp
      obtain ⟨c, hc, rfl⟩ := hp
      exact hD c.1 (List.mem_map_of_mem (List.mem_of_mem_head? hc))
    split at ht
    · obtain ⟨⟨u, e⟩, hu, ht⟩ := bind_eq_ok.mp ht
      have hset := setRemote hp hu
      dsimp only at ht
      split at ht
      · obtain ⟨m, hm, ht⟩ := bind_eq_ok.mp ht
        cases ht
        exact hset.trans (of_links (fun _ => rfl) fun hl => hl.mono (nxt_pbufFreeLoop hm))
      · cases ht
        exact hset.trans (of_keepsRx (keepsRx_enqueue _ _ _ _))
    · cases ht; exact refl _

/-- `close` and `abort` -/
theorem close {i : ℕ} {k : ℤ} {lingers : Bool} (h : shimCloseSocket cfg s i k lingers = .ok s') :
    RxMoves D (some k) s s' := by
  obtain rfl | ⟨-, t, ht, rfl⟩ := shimCloseSocket_cases h
  · exact refl _
  · have hpurged : KeepsRx s { s with queue := (freeNotificationsOnQueue cfg s.queue i k).1 } :=
      .of_eq rfl rfl rfl
    refine (of_keepsRx hpurged).trans ((clearPending ht).trans (of_keepsRx ?_))
    exact ((Keeps.closePcb t k lingers).trans (Keeps.freeClientConnection _ k)).toKeepsRx

/-- A receive. -/
theorem receive {k : ℤ} {length : UInt32} {timed : Bool} {remote : Host} {r : Reply}
    (h : receive cfg s k length timed remote = .ok (s', r)) : RxMoves D (some k) s s' := by
  obtain ⟨copy, -, h⟩ := bind_eq_ok.mp h
  obtain ⟨⟨t, e⟩, ht, h⟩ := bind_eq_ok.mp h
  cases h
  exact freeRemoteData ht

/-- **A step changes the first pbuf of the slot it touches only, and keeps the chains within a
set that has the pbufs it delivers.** -/
theorem step (hcur : s.table.CursorOk cfg) {a : Action} (hok : Allowed cfg s a)
    (hD : ∀ p ∈ a.delivers, p ∈ D) {r : Reply} (h : step cfg s a = .ok (s', r)) :
    RxMoves D a.touches s s' := by
  have hstep := rxStep hcur hok
  generalize Xtcp.step cfg s a = x at hstep h
  cases hstep with
  | nullPcb => cases h
  | keeps hkeeps => cases h; exact of_keepsRx hkeeps
  | @close i call k lingers hcloses =>
    rw [touches_of_closes hcloses]
    obtain ⟨t, ht, h⟩ := bind_eq_ok.mp h
    cases h
    exact close ht
  | transmit _ hsend halloc =>
    rcases transmit_cases hsend halloc with herr | ⟨t, r', ht, hconn, -, -, hnew⟩
    · rw [herr] at h; cases h
    · obtain ⟨rfl, rfl⟩ : t = s' ∧ r' = r := by simpa using ht.symm.trans h
      refine of_links (fun k => by rw [hconn]) fun hl => hl.mono fun p q hq => ?_
      -- the pbuf of the send has no link
      obtain ⟨b, hb, hnext⟩ := nxt_eq_some.mp hq
      rcases hnew p b hb with hold | hnone
      · exact nxt_eq_some.mpr ⟨b, hold, hnext⟩
      · rw [hnone] at hnext; cases hnext
  | recv => exact receive h
  | recvfrom =>
    obtain ⟨remote, -, h⟩ := bind_eq_ok.mp h
    exact receive h
  | tcpRecv =>
    obtain ⟨status, -, ⟨hlinked, hnd, -⟩, -⟩ := tcpEvent_route hok
    exact tcpRecv hlinked hnd hD h
  | udpRecv => exact udpRecv hok.2.1 hok.2.2.1 hD h
  | dropRefused =>
    obtain ⟨m, hm, h⟩ := bind_eq_ok.mp h
    cases h
    exact of_links (fun _ => rfl) fun hl => hl.mono (nxt_pbufFreeLoop hm)

end RxMoves

/-! ### Slots that are not active -/

/-- No slot that is not active holds data. -/
def InactiveEmpty (cfg : Config) (s : Server) : Prop :=
  ∀ k, cfg.InRange k → (s.connections k).isActive = false → (s.connections k).pbuf = none

/-- A slot that lwIP has released in an error holds no data, and neither does a listening slot
that is released because a connection finds no slot; and no data arrives for a slot that is not
active, except for a single pbuf, which is refused. -/
def ClearsRx (cfg : Config) (s : Server) : Action → Prop
  | .happens (.tcpEvent _ arg (.err _)) => cfg.InRange arg → (s.connections arg).pbuf = none
  | .happens (.tcpEvent _ arg .accept) => cfg.InRange arg →
      (s.connections arg).protocol ≠ .tcp ∨ ¬ HasFreeSlot cfg s → (s.connections arg).pbuf = none
  | .happens (.tcpEvent _ arg (.recv cells)) => cfg.InRange arg → 1 < cells.length →
      (s.connections arg).isActive = true
  | .happens (.udpRecv _ arg cells _ _) => cfg.InRange arg → cells ≠ [] →
      (s.connections arg).isActive = true
  | _ => True

/-- A single pbuf that arrives for a released slot is refused. -/
theorem pbuf_of_refused (hq : QueueOk cfg s.queue) {k : ℤ} (hk : cfg.InRange k)
    (hempty : (s.connections k).pbuf = none) (hclient : (s.connections k).clientNum = deinit)
    {pcb p : Ptr} {b : Pbuf} (hnext : b.next = none) {r : Reply}
    (h : stepTcp cfg s pcb k (.recv [(p, b)]) = .ok (s', r)) : (s'.connections k).pbuf = none := by
  obtain ⟨⟨t, e⟩, ht, h⟩ := bind_eq_ok.mp h
  suffices (t.connections k).pbuf = none by cases h; exact this
  clear h
  rw [lwipTcpEvent, if_pos hk] at ht
  obtain ⟨⟨u, e'⟩, hu, ht⟩ := bind_eq_ok.mp ht
  -- the pbuf becomes the first one of the slot
  set m := Function.update (deliver s.pbufs [(p, b)]) p (some { b with remote := ⟨{}, 0⟩ }) with hm
  have hload : Pbufs.load (deliver s.pbufs [(p, b)]) p = .ok b :=
    Pbufs.load_eq_ok.mpr (by rw [deliver_cons, if_pos rfl])
  obtain rfl : { s.setEntry k { s.connections k with pbuf := some p } with pbufs := m } = u := by
    rw [setRemote, if_pos hk] at hu
    simp only [hload, hempty, Bind.bind, Except.bind] at hu
    exact congrArg Prod.fst (Except.ok.inj hu)
  -- and is taken out again, because a released slot has no queue
  have hfail : (enqueueEventAndNotify cfg s.queue (getClientInfo cfg s k) k .recvData).2 ≠
    .success := by
    intro hsucc
    have hlt := ((enqueue_success_iff hq).mp hsucc).1
    rw [getClientInfo, if_pos hk, hclient] at hlt
    exact absurd hlt (by have := cfg.clients_le; omega)
  dsimp only at ht
  split at ht
  swap
  · next hsucc => exact absurd (not_not.mp hsucc) hfail
  obtain ⟨⟨v, e''⟩, hv, ht⟩ := bind_eq_ok.mp ht
  suffices (v.connections k).pbuf = none by cases ht; exact this
  clear ht
  have hmload : Pbufs.load m p = .ok { b with remote := ⟨{}, 0⟩ } :=
    Pbufs.load_eq_ok.mpr (Function.update_self _ _ _)
  simp only [unlinkRemote, if_pos hk, addressSpace_eq, enqueue, Server.setEntry,
    Function.update_self,
    findPbuf, if_true, Bind.bind, Except.bind, hmload] at hv
  have hv := congrArg (fun x => (x.1.connections k).pbuf) (Except.ok.inj hv)
  simp only [Function.update_self, hnext] at hv
  exact hv.symm

/-- `close` and `abort` of slot `k` leave no data in it, or do nothing. -/
theorem pbuf_of_close {i : ℕ} {k : ℤ} {lingers : Bool}
    (h : shimCloseSocket cfg s i k lingers = .ok s') : (s'.connections k).pbuf = none ∨ s' = s := by
  obtain rfl | ⟨⟨hk, -⟩, t, ht, rfl⟩ := shimCloseSocket_cases h
  · exact .inr rfl
  · left
    have hkeeps : Keeps t (freeClientConnection cfg (closePcb cfg t k lingers) k) :=
      (Keeps.closePcb t k lingers).trans (Keeps.freeClientConnection _ k)
    rw [hkeeps.head k]
    obtain ⟨hnone, rfl⟩ | ⟨p, b, m, -, -, -, rfl⟩ := clearPending_cases hk ht
    · exact hnone
    · simp [Server.setEntry]

/-- A slot that a step releases holds no data after it. -/
theorem pbuf_of_releases (hT : TableOk cfg s.table) {a : Action} (hok : Allowed cfg s a)
    (hclears : ClearsRx cfg s a) {r : Reply} (hs : step cfg s a = .ok (s', r)) {k : ℤ}
    (hk : cfg.InRange k) (hact : (s.connections k).isActive = true)
    (hact' : (s'.connections k).isActive = false) (hrel : Releases cfg s.table k a) :
    (s'.connections k).pbuf = none := by
  have hmoves : RxMoves Set.univ a.touches s s' := RxMoves.step hT.cursor hok (by simp) hs
  unfold Releases at hrel
  split at hrel
  · -- the owner closes it
    next i call =>
    obtain ⟨lingers, hcloses⟩ := hrel
    have hclose : shimCloseSocket cfg s i k lingers = .ok s' := by
      cases call with
      | close | abort =>
        obtain ⟨rfl, rfl⟩ := hcloses
        obtain ⟨t, ht, hs⟩ := bind_eq_ok.mp hs
        cases hs
        exact ht
      | _ => cases hcloses
    rcases pbuf_of_close hclose with hnone | rfl
    · exact hnone
    · rw [hact] at hact'; cases hact'
  · subst hrel
    rw [hmoves.head _ (nomatch ·)]
    exact hclears hk
  · obtain ⟨rfl, hnone⟩ := hrel
    rw [hmoves.head _ (nomatch ·)]
    refine hclears hk ?_
    by_contra hcon
    push Not at hcon
    obtain ⟨j, hfree⟩ := (hasFreeSlot_iff hT.cursor).mp hcon.2
    rw [hnone hcon.1] at hfree
    cases hfree
  · cases hrel

/-- A slot that is not active, and that a step works on, holds no data after it. -/
theorem pbuf_of_touches (hT : TableOk cfg s.table) (hq : QueueOk cfg s.queue) {a : Action}
    (hok : Allowed cfg s a) (hclears : ClearsRx cfg s a) {r : Reply}
    (hs : step cfg s a = .ok (s', r)) {k : ℤ} (hk : cfg.InRange k)
    (hact : (s.connections k).isActive = false) (hempty : (s.connections k).pbuf = none)
    (htouches : a.touches = some k) : (s'.connections k).pbuf = none := by
  have hstep := rxStep hT.cursor hok
  generalize step cfg s a = x at hstep hs
  -- a client that owns the slot would find it active
  have howned : ∀ {i : ℕ} {call : Call}, Allowed cfg s (.call i call) →
      ¬ s.table.OwnedBy cfg i k := by
    intro i call hok hown
    have hact' : (s.connections k).isActive = true := hT.active_of_owned hok.1 hown
    rw [hact] at hact'
    cases hact'
  cases hstep with
  | nullPcb => cases hs
  | keeps hkeeps => cases hs; rw [hkeeps.head k]; exact hempty
  | close hcloses =>
    obtain rfl := Option.some.inj ((touches_of_closes hcloses _).symm.trans htouches)
    obtain ⟨t, ht, hs⟩ := bind_eq_ok.mp hs
    cases hs
    rcases pbuf_of_close ht with hnone | rfl
    · exact hnone
    · exact hempty
  | transmit _ hsend halloc =>
    rcases transmit_cases hsend halloc with herr | ⟨t, r', ht, hconn, -⟩
    · rw [herr] at hs; cases hs
    · obtain ⟨rfl, rfl⟩ : t = s' ∧ r' = r := by simpa using ht.symm.trans hs
      rw [hconn]
      exact hempty
  | recv hown =>
    obtain rfl := Option.some.inj htouches
    exact absurd hown (howned hok)
  | recvfrom hown =>
    obtain rfl := Option.some.inj htouches
    exact absurd hown (howned hok)
  | @tcpRecv pcb arg c cells =>
    obtain rfl := Option.some.inj htouches
    obtain ⟨p, b⟩ := c
    cases cells with
    | nil =>
      obtain ⟨status, -, ⟨hlinked, -⟩, -⟩ := tcpEvent_route hok
      have hreset : (s.connections arg).slot = .released := (hT.slot arg hk).reset hact
      exact pbuf_of_refused hq hk hempty (congrArg Slot.clientNum hreset) hlinked.2.1 hs
    | cons d cells =>
      have hact' := hclears hk (by simp)
      rw [hact] at hact'
      cases hact'
  | @udpRecv pcb arg cells =>
    obtain rfl := Option.some.inj htouches
    by_cases hcells : cells = []
    · subst hcells
      cases hs
      exact hempty
    · have hact' := hclears hk hcells
      rw [hact] at hact'
      cases hact'
  | dropRefused => cases htouches

/-- **A step leaves no data in a slot that is not active.** -/
theorem InactiveEmpty.step (hT : TableOk cfg s.table) (hq : QueueOk cfg s.queue)
    (h : InactiveEmpty cfg s) {a : Action} (hok : Allowed cfg s a) (hclears : ClearsRx cfg s a)
    {r : Reply} (hs : step cfg s a = .ok (s', r)) : InactiveEmpty cfg s' := by
  intro k hk hact'
  cases hact : (s.connections k).isActive with
  | true =>
    obtain ⟨hact'', -⟩ | ⟨-, -, hrel⟩ := hT.slot_of_active (step_table hT.cursor hok hs) hact
    · have hact'' : (s'.connections k).isActive = true := hact''
      rw [hact'] at hact''
      cases hact''
    · exact pbuf_of_releases hT hok hclears hs hk hact hact' hrel
  | false =>
    by_cases htouches : a.touches = some k
    · exact pbuf_of_touches hT hq hok hclears hs hk hact (h k hk hact) htouches
    · have hmoves : RxMoves Set.univ a.touches s s' := RxMoves.step hT.cursor hok (by simp) hs
      rw [hmoves.head k htouches]
      exact h k hk hact

/-! ### The next socket -/

/-- A step hands out slot `k`: `socket` returns its number, or a connection is accepted and gets
it. -/
def HandsOut (k : ℤ) (s s' : Server) : Action → Reply → Prop
  | .call _ (.socket _ _), r => r = .int k ∧ 0 ≤ k
  | .happens (.tcpEvent _ _ .accept), r =>
    r = .err .ok ∧ (s.connections k).isActive = false ∧ (s'.connections k).isActive = true
  | _, _ => False

/-- A slot that is handed out was not active. -/
theorem freeSlot_of_handsOut (hcur : s.table.CursorOk cfg) {a : Action} (hok : Allowed cfg s a)
    {r : Reply} (hs : step cfg s a = .ok (s', r)) {k : ℤ} (h : HandsOut k s s' a r) :
    s.table.freeSlot cfg = some k := by
  unfold HandsOut at h
  split at h
  · next i protocol answer =>
    obtain ⟨rfl, hk⟩ := h
    have hr : (socket cfg s i protocol answer).2 = .int k := congrArg Prod.snd (Except.ok.inj hs)
    cases hfree : s.table.freeSlot cfg with
    | none =>
      rw [socket, shimNewSocket_full hfree] at hr
      have hr : Reply.int ErrorCode.enomem.toInt = .int k := hr
      cases hr
      exact absurd hk (by decide)
    | some j =>
      by_cases hpcb : protocol = .none ∨ answer ≠ none
      · rw [socket, shimNewSocket_success hcur hfree i hpcb] at hr
        cases hr
        rfl
      · push Not at hpcb
        obtain ⟨hproto, rfl⟩ := hpcb
        rw [socket, (shimNewSocket_null hfree i hproto).1] at hr
        have hr : Reply.int ErrorCode.enomem.toInt = .int k := hr
        cases hr
        exact absurd hk (by decide)
  · next n arg =>
    obtain ⟨rfl, hact, hact'⟩ := h
    obtain ⟨t, e, t', -, hstep, hcases⟩ := accept_step hcur hok
    obtain ⟨rfl, rfl⟩ : t' = s' ∧ e = .ok := by simpa using hstep.symm.trans hs
    obtain ⟨j, -, -, hfree, ⟨-, -, htab⟩ | ⟨he, -⟩⟩ | ⟨he, -⟩ := hcases
    · have hslot : (t'.table.slot k).isActive = true := hact'
      rw [htab, Table.setTcp_slot, Table.store_slot] at hslot
      split at hslot
      · next hj => rw [hj]; exact hfree
      · next hj =>
        rw [Table.assign_slot, if_neg hj] at hslot
        have hact : (s.table.slot k).isActive = false := hact
        rw [hslot] at hact
        cases hact
    · cases he
    · cases he
  · cases h

/-- The calls that receive on slot `k`. -/
def Call.receivesOn (k : ℤ) : Call → Prop
  | .recv id _ _ | .recvfrom id _ _ => id = k
  | _ => False

/-- A receive returns no bytes, or those of the first pbuf of the slot. -/
theorem receive_data {k : ℤ} {length : UInt32} {timed : Bool} {remote remote' : Host} {result : ℤ}
    {data : List UInt8} {timestamp : UInt32}
    (h : receive cfg s k length timed remote = .ok (s', .received result data remote' timestamp)) :
    data = [] ∨ ∃ p b, (s.connections k).pbuf = some p ∧ s.pbufs p = some b ∧
      data = b.payload.bytes := by
  obtain ⟨copy, hcopy, h⟩ := bind_eq_ok.mp h
  obtain ⟨⟨t, e⟩, -, h⟩ := bind_eq_ok.mp h
  obtain rfl : copy.data = data := by cases h; rfl
  obtain rfl | ⟨p, b, hhead, hb, rfl⟩ := getRemoteData_cases hcopy
  · exact .inl rfl
  · split
    · exact .inl rfl
    · exact .inr ⟨p, b, hhead, hb, rfl⟩

/-- A call that receives on slot `k` returns no bytes, or those of the first pbuf of the slot. -/
theorem receivesOn_data {i : ℕ} {k : ℤ} {call : Call} (hcall : call.receivesOn k) {result : ℤ}
    {data : List UInt8} {remote : Host} {timestamp : UInt32}
    (h : step cfg s (.call i call) = .ok (s', .received result data remote timestamp)) :
    data = [] ∨ ∃ p b, (s.connections k).pbuf = some p ∧ s.pbufs p = some b ∧
      data = b.payload.bytes := by
  cases call with
  | recv id length timed =>
    obtain rfl : id = k := hcall
    simp only [step, stepCall, recvCommon] at h
    split at h
    · cases h; exact .inl rfl
    · exact receive_data h
  | recvfrom id length timed =>
    obtain rfl : id = k := hcall
    simp only [step, stepCall, recvfromCommon] at h
    split at h
    · cases h; exact .inl rfl
    · split at h
      · cases h; exact .inl rfl
      · obtain ⟨remote', -, h⟩ := bind_eq_ok.mp h
        exact receive_data h
  | _ => cases hcall

/-- The pbufs delivered in a history. -/
def deliveredIn (tr : List (Action × Reply)) : Set Ptr := {p | ∃ x ∈ tr, p ∈ x.1.delivers}

/-- No data crosses from one socket to the next along the histories whose steps meet `C`.  A slot
that is not active holds no data.  A slot that is handed out starts without data, and whatever is
received on it comes out of a pbuf that has been delivered since. -/
def NoRxCrosses (cfg : Config) (C : Server → Action → Prop) : Prop :=
  ∀ (tr : List (Action × Reply)) (s : Server), RunsTo cfg C tr s →
    (∀ k, cfg.InRange k → (s.connections k).isActive = false → (s.connections k).pbuf = none) ∧
    ∀ a r s' k, Allowed cfg s a → C s a → step cfg s a = .ok (s', r) → HandsOut k s s' a r →
      (s'.connections k).pbuf = none ∧
      ∀ tr' t, Run (step cfg) (fun u b => Allowed cfg u b ∧ C u b) s' tr' t →
        ∀ i call t' result data remote timestamp, call.receivesOn k →
          step cfg t (.call i call) = .ok (t', .received result data remote timestamp) →
          data = [] ∨ ∃ p ∈ deliveredIn tr', ∃ b, t.pbufs p = some b ∧ data = b.payload.bytes

/-- The links of pbufs that are going to be delivered lead to one another. -/
theorem nxt_of_delivers {a : Action} (hok : Allowed cfg s a) {p q : Ptr} (hp : p ∈ a.delivers)
    (hq : s.pbufs.nxt p = some (some q)) : q ∈ a.delivers := by
  -- there is no link at a pbuf that does not exist
  have hfresh : ∀ {cells : List (Ptr × Pbuf)}, FreshCells s cells → p ∉ cells.map Prod.fst := by
    intro cells hfresh hp
    obtain ⟨c, hc, rfl⟩ := List.mem_map.mp hp
    rw [Pbufs.nxt, hfresh c hc] at hq
    cases hq
  unfold Action.delivers at hp ⊢
  split at hp
  · obtain ⟨status, -, ⟨hlinked, hnd, hcells⟩, -⟩ := tcpEvent_route hok
    rcases hcells with hnew | ⟨-, hold⟩
    · exact absurd hp (hfresh hnew)
    · refine (isChain_deliver s.pbufs hlinked hnd).next_mem hp ?_
      obtain ⟨c, hc, rfl⟩ := List.mem_map.mp hp
      rw [Pbufs.nxt, deliver_of_mem hnd hc, ← hold c hc]
      exact hq
  · exact absurd hp (hfresh hok.2.2.2)
  · cases hp

/-- The pbufs of a slot that starts without data have been delivered since. -/
theorem within_run {C : Server → Action → Prop} {k : ℤ} {tr : List (Action × Reply)} {t : Server}
    (hT : TableOk cfg s.table) (hempty : (s.connections k).pbuf = none)
    (hrun : Run (step cfg) (fun u b => Allowed cfg u b ∧ C u b) s tr t) :
    TableOk cfg t.table ∧ Within (deliveredIn tr) k t := by
  induction hrun with
  | nil =>
    refine ⟨hT, fun p hp => ?_, fun p hp => ?_⟩
    · rw [hempty] at hp; cases hp
    · obtain ⟨x, hx, -⟩ := hp; cases hx
  | @snoc tr u u' a r _ hok hs ih =>
    obtain ⟨hTu, hhead, hlinks⟩ := ih
    have hold : ∀ p, p ∈ deliveredIn tr → p ∈ deliveredIn (tr ++ [(a, r)]) := by
      rintro p ⟨x, hx, hp⟩
      exact ⟨x, List.mem_append_left _ hx, hp⟩
    have hnew : ∀ p ∈ a.delivers, p ∈ deliveredIn (tr ++ [(a, r)]) := fun p hp =>
      ⟨(a, r), by simp, hp⟩
    refine ⟨hTu.step (step_table hTu.cursor hok.1 hs), ?_⟩
    refine (RxMoves.step hTu.cursor hok.1 hnew hs).within k ⟨fun p hp => hold p (hhead p hp), ?_⟩
    rintro p ⟨x, hx, hp⟩ q hq
    rcases List.mem_append.mp hx with hx | hx
    · exact hold q (hlinks p ⟨x, hx, hp⟩ q hq)
    · obtain rfl := List.mem_singleton.mp hx
      exact hnew q (nxt_of_delivers hok.1 hp hq)

end Xtcp
