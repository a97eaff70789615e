import Xtcp.Notifications

/-!
# What a refusal leaves behind

Two operations on received data can be refused.  A TCP delivery is refused when its event cannot
be queued: `lwip_tcp_event` has appended the delivered pbufs to the chain of the slot by then, and
takes them out again.  A receive is refused when the buffer of the client is too small for the
first pbuf.

The delivery is appended as a whole, by one link, but only its first pbuf is taken out.  The
receive takes the first pbuf off the chain whether it has been refused or not.

## Main definitions

* `RefusalUndone` — a refused delivery leaves the slot and the delivery as they were.
* `KeepsRefused` — a refused receive leaves everything as it was, to be received later.
* `FitsHead` — the first pbuf fits the buffer.

## Main results

* `refusal_undone_iff` — **a refused delivery is undone exactly when it is one pbuf**.
* `keeps_refused_iff` — **a receive loses nothing exactly when it is not refused**.
-/

namespace Xtcp

open Runs LinkedChain

variable {cfg : Config} {s s' : Server} {k : ℤ}

/-! ### Deliveries -/

section Deliveries

variable {l ps : List Ptr} {p : Ptr}

/-- The link behind `prev` in the chain of slot `k`. -/
def Server.link (s : Server) (k : ℤ) : Option Ptr → Option (Option Ptr)
  | none => some (s.connections k).pbuf
  | some q => s.pbufs.nxt q

/-- The last link written counts. -/
theorem setLink_setLink (s : Server) (k : ℤ) (prev x y : Option Ptr) :
    (s.setLink k prev x).setLink k prev y = s.setLink k prev y := by
  cases prev with
  | none => simp [Server.setLink, Server.setEntry]
  | some q => cases hb : s.pbufs q <;> simp [Server.setLink, hb]

/-- Writing a link that is there. -/
theorem setLink_self {prev x : Option Ptr} (h : s.link k prev = some x) :
    s.setLink k prev x = s := by
  cases prev with
  | none =>
    obtain rfl : (s.connections k).pbuf = x := Option.some.inj h
    simp [Server.setLink, Server.setEntry]
  | some q =>
    obtain ⟨b, hb, rfl⟩ := nxt_eq_some.mp h
    simp only [Server.setLink, hb, Option.map_some]
    rw [Function.update_eq_self_iff.mpr hb.symm]

/-- The chain ends behind its last pbuf. -/
theorem link_getLast (h : IsChain s.pbufs.nxt (s.connections k).pbuf l) :
    s.link k l.getLast? = some none := by
  rcases List.eq_nil_or_concat l with rfl | ⟨l', q, rfl⟩
  · simpa [Server.link] using h
  · rw [List.concat_eq_append] at h ⊢
    obtain ⟨-, y, hy, hnil⟩ := IsChain.cons_iff.mp h.drop
    obtain rfl := IsChain.nil_iff.mp hnil
    simpa [Server.link] using hy

/-- The delivery at `p` is refused, and afterwards the slot is what it was, with the chain `l` of
the same pbufs, and the delivery is the chain `p :: ps` that it was. -/
def RefusalUndone (cfg : Config) (s : Server) (k : ℤ) (pcb : Option Ptr) (err : Err) (p : Ptr)
    (ps l : List Ptr) : Prop :=
  ∃ t e, lwipTcpEvent cfg s k pcb .recv (some p) err = .ok (t, e) ∧ (e ≠ .ok ∧ e ≠ .abrt) ∧
    (t.connections = s.connections ∧ IsChain t.pbufs.nxt (t.connections k).pbuf l ∧
      ∀ q ∈ l, t.pbufs q = s.pbufs q) ∧
    IsChain t.pbufs.nxt (some p) (p :: ps)

/-- **What a refused delivery leaves**: the link behind the chain of the slot leads to what was
behind the first pbuf, and nothing is behind that pbuf. -/
theorem lwipTcpEvent_refused (hk : cfg.InRange k)
    (hl : IsChain s.pbufs.nxt (s.connections k).pbuf l)
    (hp : IsChain s.pbufs.nxt (some p) (p :: ps)) (hd : List.Disjoint l (p :: ps))
    (hfull : (enqueue cfg s (getClientInfo cfg s k) k .recvData).2 ≠ .success) {b : Pbuf}
    (hb : s.pbufs p = some b) (pcb : Option Ptr) (err : Err) :
    lwipTcpEvent cfg s k pcb .recv (some p) err = .ok
      (withPbuf ((withPbuf s p (some { b with remote := {} })).setLink k l.getLast? b.next) p
        (some { b with remote := {}, next := none }), .inprogress) := by
  have hpl : p ∉ l := fun hpl => hd hpl List.mem_cons_self
  set u := withPbuf s p (some { b with remote := {} }) with hu
  have hunxt : u.pbufs.nxt = s.pbufs.nxt := nxt_update_same hb rfl
  set t := u.setLink k l.getLast? (some p) with ht
  have hset : setRemote cfg s k none 0 (some p) = .ok (t, .success) :=
    setRemote_eq hk hl hb hpl none 0
  -- the event is refused after the delivery has been appended, too
  have hqueue : t.queue = s.queue := (leaves_setRemote hset).queue
  have hfull' : (enqueue cfg t (getClientInfo cfg s k) k .recvData).2 ≠ .success := by
    simp only [enqueue, hqueue]
    exact hfull
  have hsame : (enqueue cfg t (getClientInfo cfg s k) k .recvData).1 = t := by
    simp only [enqueue, enqueue_of_ne_success hfull']
  have hchain : IsChain t.pbufs.nxt (t.connections k).pbuf (l ++ p :: ps) := by
    refine isChain_setLink (r := []) ?_ ?_ hd
    · rw [hunxt, List.append_nil]
      exact hl
    · rw [hunxt]
      exact hp
  have htp : t.pbufs p = some { b with remote := {} } :=
    (setLink_pbufs hpl).trans (Function.update_self _ _ _)
  have hunlink := unlinkRemote_eq hk hchain htp
  rw [setLink_setLink] at hunlink
  simp only [lwipTcpEvent, if_pos hk, eventRecv, hset, Bind.bind, Except.bind, if_pos hfull',
    hsame, hunlink]

/-- Nothing is left behind the first pbuf of a refused delivery. -/
theorem RefusalUndone.eq_nil (hk : cfg.InRange k)
    (hl : IsChain s.pbufs.nxt (s.connections k).pbuf l)
    (hp : IsChain s.pbufs.nxt (some p) (p :: ps)) (hd : List.Disjoint l (p :: ps))
    (hfull : (enqueue cfg s (getClientInfo cfg s k) k .recvData).2 ≠ .success)
    {pcb : Option Ptr} {err : Err} (h : RefusalUndone cfg s k pcb err p ps l) : ps = [] := by
  obtain ⟨-, x, hx, -⟩ := IsChain.cons_iff.mp hp
  obtain ⟨b, hb, -⟩ := nxt_eq_some.mp hx
  obtain ⟨t, e, ht, -, -, hchain⟩ := h
  cases (lwipTcpEvent_refused hk hl hp hd hfull hb pcb err).symm.trans ht
  obtain ⟨-, y, hy, hps⟩ := IsChain.cons_iff.mp hchain
  rw [withPbuf, nxt_update, Function.update_self] at hy
  obtain rfl := Option.some.inj hy
  exact IsChain.none_iff.mp hps

/-- **A refused delivery is undone exactly when it is one pbuf.** -/
theorem refusal_undone_iff (hk : cfg.InRange k)
    (hl : IsChain s.pbufs.nxt (s.connections k).pbuf l)
    (hp : IsChain s.pbufs.nxt (some p) (p :: ps)) (hd : List.Disjoint l (p :: ps))
    (hfull : (enqueue cfg s (getClientInfo cfg s k) k .recvData).2 ≠ .success)
    (pcb : Option Ptr) (err : Err) : RefusalUndone cfg s k pcb err p ps l ↔ ps = [] := by
  constructor
  · intro h
    exact h.eq_nil hk hl hp hd hfull
  · rintro rfl
    obtain ⟨-, x, hx, hrest⟩ := IsChain.cons_iff.mp hp
    obtain ⟨b, hb, rfl⟩ := nxt_eq_some.mp hx
    have hevent := lwipTcpEvent_refused hk hl hp hd hfull hb pcb err
    have hnext : b.next = none := IsChain.nil_iff.mp hrest
    set u := withPbuf s p (some { b with remote := {} }) with hu
    have hpl : p ∉ l := fun hpl => hd hpl List.mem_cons_self
    have hunxt : u.pbufs.nxt = s.pbufs.nxt := nxt_update_same hb rfl
    have hul : IsChain u.pbufs.nxt (u.connections k).pbuf l := by
      rw [hunxt]
      exact hl
    have hback : u.setLink k l.getLast? b.next = u := by
      rw [hnext]
      exact setLink_self (link_getLast hul)
    have hb' : ({ b with remote := {}, next := none } : Pbuf) = { b with remote := {} } := by
      rw [← hnext]
    have hwrite : withPbuf u p (some { b with remote := {} }) = u := by
      simp [hu, withPbuf]
    rw [hback, hb', hwrite] at hevent
    refine ⟨u, .inprogress, hevent, ⟨by decide, by decide⟩, ⟨rfl, hul, fun q hq => ?_⟩, ?_⟩
    · exact Function.update_of_ne (ne_of_mem_of_not_mem hq hpl) _ _
    · rw [hunxt]
      exact hp

/-- Slot 0 has an event in a queue of size one, and lwIP has the chain of pbufs 20 and 21. -/
theorem exists_full_queue : ∃ tr s, Fed .small tr s ∧ (s.connections 0).pbuf = none ∧
    s.pbufs.nxt 20 = some (some 21) ∧ s.pbufs.nxt 21 = some none ∧
    (enqueue .small s (getClientInfo .small s 0) 0 .recvData).2 ≠ .success := by
  refine Run.exists_of_replay
    [.call 0 (.socket .tcp (some 10)), .tcpEvent 0 (some 10) .connected none .ok,
      .lwip { (init .small).lwip with
        pbufs := fun q =>
          if q = 20 then some { next := some 21, payload := ⟨[1], by decide⟩, totLen := 2 }
          else if q = 21 then some { payload := ⟨[2], by decide⟩, totLen := 1 }
          else none }] ?_
  decide

/-- One pbuf is refused. -/
theorem refusal_undone_iff_one : ∃ tr s, Fed .small tr s ∧
    RefusalUndone .small s 0 (some 10) .ok 21 [] [] := by
  obtain ⟨tr, s, hfed, hhead, -, h21, hfull⟩ := exists_full_queue
  refine ⟨tr, s, hfed, ?_⟩
  refine (refusal_undone_iff (by decide) ?_ ?_ (by simp) hfull (some 10) .ok).mpr rfl
  · rw [hhead]
    exact .nil
  · exact .cons h21 .nil

/-- Two pbufs are refused: the second one stays in the slot. -/
theorem second_pbuf_stays : ¬ ∀ tr s, Fed .small tr s → ∀ k p ps l, Config.small.InRange k →
    IsChain s.pbufs.nxt (s.connections k).pbuf l → IsChain s.pbufs.nxt (some p) (p :: ps) →
    List.Disjoint l (p :: ps) →
    (enqueue .small s (getClientInfo .small s k) k .recvData).2 ≠ .success →
    ∀ pcb err, RefusalUndone .small s k pcb err p ps l := by
  intro h
  obtain ⟨tr, s, hfed, hhead, h20, h21, hfull⟩ := exists_full_queue
  have hl : IsChain s.pbufs.nxt (s.connections 0).pbuf [] := by
    rw [hhead]
    exact .nil
  have hp : IsChain s.pbufs.nxt (some 20) [20, 21] := .cons h20 (.cons h21 .nil)
  have hundone := h tr s hfed 0 20 [21] [] (by decide) hl hp (by simp) hfull (some 10) .ok
  cases hundone.eq_nil (by decide) hl hp (by simp) hfull

end Deliveries

/-! ### Receives -/

section Receives

variable {i : ℕ} {p : Ptr} {b : Pbuf}

/-- `recvfrom` and `recvfrom_timed`, or `recv` and `recv_timed`. -/
def receiveCall (withAddress : Bool) (id : ℤ) (length : UInt32) (timed : Bool) : Call :=
  if withAddress then .recvfrom id length timed else .recv id length timed

/-- If a receive is refused with `XTCP_EAGAIN`, nothing has changed, and a receive with a buffer
that is long enough for the first pbuf gets its data and its address. -/
def KeepsRefused (cfg : Config) (s : Server) (i : ℕ) (id : ℤ) (withAddress : Bool)
    (length : UInt32) (timed : Bool) : Prop :=
  ∀ t data remote ts, stepCall cfg s i (receiveCall withAddress id length timed)
      = .ok (t, .received ErrorCode.eagain.toInt data remote ts) →
    t = s ∧ ∀ p b, (s.connections id).pbuf = some p → s.pbufs p = some b →
      ∀ length' timed', b.len ≤ UInt32.toNat length' →
        ∃ t' ts', stepCall cfg t i (receiveCall withAddress id length' timed') = .ok
          (t', .received b.len b.payload.bytes (if withAddress then b.remote else {}) ts')

/-- There is no first pbuf, or it fits a buffer of the given length; `get_remote_data` takes the
length as an `int32_t`.  A `recvfrom` on a TCP socket does not get that far. -/
def FitsHead (s : Server) (id : ℤ) (withAddress : Bool) (length : UInt32) : Prop :=
  withAddress = true ∧ (s.connections id).protocol = .tcp ∨
    ∀ p b, (s.connections id).pbuf = some p → s.pbufs p = some b →
      (b.len : ℤ) ≤ int32OfUInt32 length

/-- A receive that gets to the data. -/
theorem stepCall_receive (hown : s.table.OwnedBy cfg i k) {withAddress : Bool}
    (hproto : ¬ (withAddress = true ∧ (s.connections k).protocol = .tcp)) (length : UInt32)
    (timed : Bool) :
    stepCall cfg s i (receiveCall withAddress k length timed)
      = (if withAddress then getRemote cfg s k else .ok {}) >>= receive cfg s k length timed := by
  have hfind : (findClientConnection cfg s i k).status = .success := find_success_iff.mpr hown
  cases withAddress with
  | false =>
    simp only [receiveCall, Bool.false_eq_true, if_false, stepCall, recvCommon, hfind, ne_eq,
      not_true_eq_false]
    rfl
  | true =>
    have hp : getProtocol cfg s k ≠ .tcp := by
      rw [getProtocol, if_pos hown.1]
      exact fun h => hproto ⟨rfl, h⟩
    simp only [receiveCall, if_true, stepCall, recvfromCommon, hfind, ne_eq, not_true_eq_false,
      if_false, hp]

/-- A receive with a buffer that is too small takes the first pbuf off the chain. -/
theorem receive_refused (hown : s.table.OwnedBy cfg i k) {withAddress : Bool}
    (hproto : ¬ (withAddress = true ∧ (s.connections k).protocol = .tcp))
    (hhead : (s.connections k).pbuf = some p) (hb : s.pbufs p = some b) {length : UInt32}
    (hshort : int32OfUInt32 length < b.len) (timed : Bool) :
    ∃ t data remote ts, stepCall cfg s i (receiveCall withAddress k length timed)
        = .ok (t, .received ErrorCode.eagain.toInt data remote ts) ∧
      (t.connections k).pbuf = b.next := by
  obtain ⟨t, ht, hconn, -⟩ := freeRemoteData_head hown.1 hhead hb
  have hnext : (t.connections k).pbuf = b.next := by rw [hconn, Function.update_self]
  have hremote := getRemote_of_some hown.1 hhead hb
  have hdata := getRemoteData_of_some hown.1 hhead hb (int32OfUInt32 length)
  rw [if_pos hshort] at hdata
  refine ⟨t, [], if withAddress then b.remote else {}, if timed then b.timestamp else 0, ?_, hnext⟩
  rw [stepCall_receive hown hproto]
  cases withAddress <;> simp [hremote, receive, hdata, ht, Bind.bind, Except.bind]

/-- A receive that loses nothing is not refused. -/
theorem KeepsRefused.fitsHead (hown : s.table.OwnedBy cfg i k) {l : List Ptr}
    (hl : IsChain s.pbufs.nxt (s.connections k).pbuf l) {withAddress : Bool} {length : UInt32}
    {timed : Bool} (h : KeepsRefused cfg s i k withAddress length timed) :
    FitsHead s k withAddress length := by
  by_contra hfits
  unfold FitsHead at hfits
  push Not at hfits
  obtain ⟨hproto, p, b, hhead, hb, hshort⟩ := hfits
  obtain ⟨t, data, remote, ts, hstep, hnext⟩ :=
    receive_refused hown (fun hp => hproto hp.1 hp.2) hhead hb hshort timed
  obtain ⟨rfl, -⟩ := h t data remote ts hstep
  -- the pbuf behind the first one is the first one
  rw [hhead] at hnext hl
  obtain ⟨l', rfl⟩ := hl.exists_cons
  have hbehind : IsChain t.pbufs.nxt (some p) l' := by
    obtain ⟨-, y, hy, hl'⟩ := IsChain.cons_iff.mp hl
    obtain ⟨b', hb', rfl⟩ := nxt_eq_some.mp hy
    obtain rfl : b = b' := Option.some.inj (hb.symm.trans hb')
    rwa [← hnext] at hl'
  have hlen := congrArg List.length (hl.eq hbehind)
  simp at hlen

/-- **A receive loses nothing exactly when it is not refused**: the first pbuf goes with the
refusal. -/
theorem keeps_refused_iff (hown : s.table.OwnedBy cfg i k) {l : List Ptr}
    (hl : IsChain s.pbufs.nxt (s.connections k).pbuf l) (withAddress : Bool) (length : UInt32)
    (timed : Bool) :
    KeepsRefused cfg s i k withAddress length timed ↔ FitsHead s k withAddress length := by
  constructor
  · intro h
    exact h.fitsHead hown hl
  · intro hfits t data remote ts hstep
    exfalso
    by_cases hproto : withAddress = true ∧ (s.connections k).protocol = .tcp
    · -- TCP does not support `recvfrom`
      obtain ⟨rfl, hproto⟩ := hproto
      have hfind : (findClientConnection cfg s i k).status = .success := find_success_iff.mpr hown
      have hp : getProtocol cfg s k = .tcp := by rw [getProtocol, if_pos hown.1, hproto]
      simp [receiveCall, stepCall, recvfromCommon, hfind, hp, ErrorCode.toInt] at hstep
    · have hfits := hfits.resolve_left hproto
      rw [stepCall_receive hown hproto] at hstep
      obtain ⟨host, -, hstep⟩ := bind_eq_ok.mp hstep
      obtain ⟨copy, hcopy, hstep⟩ := bind_eq_ok.mp hstep
      obtain ⟨⟨u, e⟩, -, hstep⟩ := bind_eq_ok.mp hstep
      have hresult : (if copy.result.status ≠ .success then copy.result.status.toInt
          else copy.result.value) = ErrorCode.eagain.toInt := by
        obtain ⟨-, hreply⟩ := Prod.mk.inj (Except.ok.inj hstep)
        exact (Reply.received.inj hreply).1
      obtain rfl | ⟨p, b, hhead, hb, rfl⟩ := getRemoteData_cases hcopy
      · simp [ErrorCode.toInt] at hresult
      · have hlong : ¬ int32OfUInt32 length < b.len := not_lt.mpr (hfits p b hhead hb)
        rw [if_neg hlong] at hresult
        simp [ErrorCode.toInt] at hresult

/-- Client 0 has a UDP socket with two bytes in one pbuf. -/
theorem exists_datagram : ∃ tr s, Fed .small tr s ∧ s.table.OwnedBy .small 0 0 ∧
    (s.connections 0).pbuf = some 20 ∧ s.pbufs.nxt 20 = some none ∧
    (∀ b ∈ s.pbufs 20, b.len = 2) ∧ (s.connections 0).protocol = .udp := by
  refine Run.exists_of_replay
    [.call 0 (.socket .udp (some 10)),
      .lwip { (init .small).lwip with
        pbufs := Function.update (fun _ => none) 20
          (some { payload := ⟨[1, 2], by decide⟩, totLen := 2 }) },
      .udpRecv 0 10 (some 20) none 0] ?_
  decide

/-- A buffer of two bytes is enough. -/
theorem keeps_refused_iff_two : ∃ tr s, Fed .small tr s ∧ s.table.OwnedBy .small 0 0 ∧
    KeepsRefused .small s 0 0 true 2 false := by
  obtain ⟨tr, s, hfed, hown, hhead, hnext, hlen, -⟩ := exists_datagram
  have hl : IsChain s.pbufs.nxt (s.connections 0).pbuf [20] := by
    rw [hhead]
    exact .cons hnext .nil
  refine ⟨tr, s, hfed, hown, (keeps_refused_iff hown hl true 2 false).mpr (.inr ?_)⟩
  intro p b hp hb
  obtain rfl : 20 = p := Option.some.inj (hhead.symm.trans hp)
  rw [hlen b hb]
  decide

/-- A buffer of one byte is not, and the datagram is gone. -/
theorem short_buffer_loses_datagram : ¬ ∀ tr s, Fed .small tr s → ∀ i k, s.table.OwnedBy .small i k
    →
    ∀ l, IsChain s.pbufs.nxt (s.connections k).pbuf l → ∀ withAddress length timed,
      KeepsRefused .small s i k withAddress length timed := by
  intro h
  obtain ⟨tr, s, hfed, hown, hhead, hnext, hlen, hproto⟩ := exists_datagram
  have hl : IsChain s.pbufs.nxt (s.connections 0).pbuf [20] := by
    rw [hhead]
    exact .cons hnext .nil
  have hfits := (h tr s hfed 0 0 hown _ hl true 1 false).fitsHead hown hl
  obtain ⟨b, hb, -⟩ := nxt_eq_some.mp hnext
  rcases hfits with ⟨-, htcp⟩ | hfits
  · rw [hproto] at htcp
    cases htcp
  · have hle := hfits 20 b hhead hb
    rw [hlen b hb] at hle
    revert hle
    decide

end Receives

end Xtcp
