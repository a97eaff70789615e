import Xtcp.Accept

/-!
# Sending

A send copies the client's buffer to a new pbuf, passes it to lwIP and releases it.  For TCP
it calls `tcp_write`, which queues the bytes, and then `tcp_output`.  The send succeeds when
both do, although the bytes are queued as soon as the first one has succeeded.

## Main definitions

* `txPbuf` — the pbuf that carries a buffer.
* `SendCall`, `sendAll` — sends on one connection, one after the other.
* `SendsAtomic` — the stream is made of the buffers of the sends that succeed.

## Main results

* `transmit_eq` — what a send does with its pbuf.
* `sends_atomic_iff` — **a sequence of sends is atomic exactly when `tcp_output` does not fail
  after a `tcp_write` of some bytes**.
-/

namespace Xtcp

open Runs

variable {cfg : Config} {s s' : Server}

/-! ### The transmit pbuf -/

theorem addressSpace_eq : addressSpace = 4294967295 + 1 := rfl

/-- The release of a pbuf that is the only one of its chain. -/
theorem pbufFree_single {m : Pbufs} {p : Ptr} {b : Pbuf} (hb : m p = some b) (href : b.ref ≤ 1)
    (hnext : b.next = none) : pbufFree m p = .ok (Function.update m p none) := by
  rw [pbufFree, addressSpace_eq, pbufFreeLoop]
  simp only [hb, if_pos href, hnext, pbufFreeLoop]

/-- A pbuf that someone else refers to stays. -/
theorem pbufFree_shared {m : Pbufs} {p : Ptr} {b : Pbuf} (hb : m p = some b) (href : ¬ b.ref ≤ 1) :
    pbufFree m p = .ok (Function.update m p (some { b with ref := b.ref - 1 })) := by
  rw [pbufFree, addressSpace_eq, pbufFreeLoop]
  simp only [hb, if_neg href]

/-- The pbuf that carries `buffer`. -/
def txPbuf (buffer : List UInt8) (h : buffer.length < 2 ^ 16) (timed : Bool) : Pbuf where
  payload := ⟨buffer, h⟩
  totLen := buffer.length
  txTimestamp := timed

/-- A pbuf is put at `token`. -/
def withPbuf (s : Server) (token : Ptr) (b : Option Pbuf) : Server :=
  { s with pbufs := Function.update s.pbufs token b }

/-- The pbuf that `pbuf_shim_alloc_tx` makes. -/
theorem pbufShimAllocTx_eq (s : Server) (length : UInt16) (timed : Bool) (token : Ptr) :
    pbufShimAllocTx cfg s length timed (some token) = (withPbuf s token (some
      { payload := ⟨List.replicate length.toNat 0, by simpa using length.toNat_lt⟩
        totLen := length.toNat
        txTimestamp := timed }), some token, []) := by
  cases timed <;> simp [pbufShimAllocTx, pbufAlloc, withPbuf]

/-- A buffer that fits is copied to the pbuf that has been made for it. -/
theorem copyToPayload_eq (cfg : Config) (s : Server) {buffer : List UInt8}
    (hlen : buffer.length < 2 ^ 16) (timed : Bool) (token : Ptr) :
    copyToPayload (pbufShimAllocTx cfg s (UInt16.ofNat buffer.length) timed (some token)).1 token
      buffer = .ok (withPbuf s token (some (txPbuf buffer hlen timed))) := by
  have hlen' : (UInt16.ofNat buffer.length).toNat = buffer.length := by
    rw [UInt16.toNat_ofNat', Nat.mod_eq_of_lt hlen]
  rw [pbufShimAllocTx_eq]
  simp [copyToPayload, withPbuf, Pbufs.load, txPbuf, hlen', Bind.bind, Except.bind]

/-- What a send does with its pbuf, for a buffer that fits: `send` is called with a pbuf that
carries the buffer. -/
theorem transmit_eq (cfg : Config) (s : Server) {buffer : List UInt8}
    (hlen : buffer.length < 2 ^ 16) (timed : Bool)
    {answer : SendAnswer} {token : Ptr} (halloc : answer.alloc = some token)
    (send : Server → Ptr → Except Fault Sent) :
    transmit cfg s buffer timed answer send
      = (send (withPbuf s token (some (txPbuf buffer hlen timed))) token).map fun sent =>
        (sent.server, .sent sent.result.toInt (pbufShimTokenTimestamp sent.server token)
          (⟨some token, true⟩ :: sent.reads ++ [readPbuf sent.server token])) := by
  have hcopy := copyToPayload_eq cfg s hlen timed token
  rw [pbufShimAllocTx_eq] at hcopy
  have hread : ∀ b, readPbuf (withPbuf s token (some b)) token = ⟨some token, true⟩ := by
    intro b
    simp [readPbuf, withPbuf]
  unfold transmit
  rw [halloc, pbufShimAllocTx_eq]
  simp only [hcopy, hread, List.nil_append]
  rfl

/-- A buffer that is too long for a pbuf is copied past its end. -/
theorem transmit_overrun (cfg : Config) (s : Server) {buffer : List UInt8}
    (hlen : ¬ buffer.length < 2 ^ 16) (timed : Bool) {answer : SendAnswer} {token : Ptr}
    (halloc : answer.alloc = some token) (send : Server → Ptr → Except Fault Sent) :
    transmit cfg s buffer timed answer send = .error .overrun := by
  have hlt : ¬ buffer.length ≤ buffer.length % 65536 := by omega
  unfold transmit
  rw [halloc, pbufShimAllocTx_eq]
  simp [copyToPayload, withPbuf, Pbufs.load, Bind.bind, Except.bind, List.length_replicate, hlt]

/-- The release of the pbuf at the end of a send. -/
theorem freeSent_eq {token : Ptr} {b : Pbuf} (hb : s.pbufs token = some b) (href : b.ref ≤ 1)
    (hnext : b.next = none) (e : ErrorCode) (reads : List PbufRead) :
    freeSent s token e reads = .ok ⟨withPbuf s token none, e, reads⟩ := by
  simp only [freeSent, pbufFree_single hb href hnext]
  rfl

/-- A send returns, changes no pbuf but its own, and does not link that to another. -/
def SendsOnly (token : Ptr) (s : Server) (x : Except Fault Sent) : Prop :=
  ∃ sent, x = .ok sent ∧ sent.server.connections = s.connections ∧
    sent.server.refused = s.refused ∧ (∀ q, q ≠ token → sent.server.pbufs q = s.pbufs q) ∧
    ∀ b, sent.server.pbufs token = some b → b.next = none

theorem sendsOnly_free {token : Ptr} {b : Pbuf} (hb : s.pbufs token = some b) (href : b.ref ≤ 1)
    (hnext : b.next = none) (e : ErrorCode) (reads : List PbufRead) :
    SendsOnly token s (freeSent s token e reads) :=
  ⟨_, freeSent_eq hb href hnext e reads, rfl, rfl, fun _ hq => Function.update_of_ne hq _ _,
    fun b h => by simp [withPbuf] at h⟩

theorem sendsOnly_sendUdp {token : Ptr} {b : Pbuf} (hb : s.pbufs token = some b) (href : b.ref ≤ 1)
    (hnext : b.next = none) (id : ℤ) (answer : SendAnswer) :
    SendsOnly token s (sendUdp cfg s id token answer) := by
  unfold sendUdp
  split
  · exact sendsOnly_free hb href hnext _ _
  · set u := udpSend s token answer.timestamp answer.keeps with hu
    have hpbufs : ∀ q, q ≠ token → u.pbufs q = s.pbufs q := fun q hq =>
      Function.update_of_ne hq _ _
    -- the driver may leave a timestamp in the pbuf, and lwIP may keep a reference
    obtain ⟨b', hb', hnext'⟩ : ∃ b', u.pbufs token = some b' ∧ b'.next = none := by
      refine ⟨{ b with
        timestamp := if b.txTimestamp then answer.timestamp else b.timestamp
        ref := if answer.keeps then b.ref + 1 else b.ref }, ?_, hnext⟩
      simp [hu, udpSend, hb]
    by_cases hlast : b'.ref ≤ 1
    · obtain ⟨sent, hsent, hconn, hrefused, hoff, htoken⟩ := sendsOnly_free hb' hlast hnext'
        (if answer.udpSend = .ok then .success else .einval) []
      exact ⟨sent, hsent, hconn, hrefused, fun q hq => (hoff q hq).trans (hpbufs q hq), htoken⟩
    · refine ⟨⟨withPbuf u token (some { b' with ref := b'.ref - 1 }),
        if answer.udpSend = .ok then .success else .einval, []⟩, ?_, rfl, rfl,
        fun q hq => (Function.update_of_ne hq _ _).trans (hpbufs q hq), fun c hc => ?_⟩
      · simp only [freeSent, pbufFree_shared hb' hlast]
        rfl
      · simp only [withPbuf, Function.update_self, Option.some.injEq] at hc
        subst hc
        exact hnext'

theorem sendsOnly_sendTcp {token : Ptr} {b : Pbuf} (hb : s.pbufs token = some b) (href : b.ref ≤ 1)
    (hnext : b.next = none) (id : ℤ) (answer : SendAnswer) :
    SendsOnly token s (sendTcp cfg s id token answer) := by
  unfold sendTcp
  split
  · exact sendsOnly_free hb href hnext _ _
  · next p _ =>
    have hload : s.pbufs.load token = .ok b := Pbufs.load_eq_ok.mpr hb
    have hwrite : (tcpWrite s p b.payload.bytes answer.write).pbufs = s.pbufs ∧
        (tcpWrite s p b.payload.bytes answer.write).connections = s.connections ∧
        (tcpWrite s p b.payload.bytes answer.write).refused = s.refused := by
      unfold tcpWrite
      split <;> exact ⟨rfl, rfl, rfl⟩
    obtain ⟨hpbufs, hconn, hrefused⟩ := hwrite
    obtain ⟨sent, hsent, hconn', hrefused', hpbufs', htoken⟩ := sendsOnly_free
      (s := tcpWrite s p b.payload.bytes answer.write) (by rw [hpbufs]; exact hb) href hnext
      (if answer.write = .ok ∧ answer.output = .ok then .success else .einval)
      [readPbuf s token, readPbuf s token]
    refine ⟨sent, ?_, hconn'.trans hconn, hrefused'.trans hrefused, fun q hq => ?_, htoken⟩
    · simp only [hload, Bind.bind, Except.bind, hsent]
    · rw [hpbufs' q hq, hpbufs]

theorem sendsOnly_shimSend {token : Ptr} {b : Pbuf} (hb : s.pbufs token = some b)
    (href : b.ref ≤ 1) (hnext : b.next = none) (i : ℕ) (id : ℤ) (answer : SendAnswer) :
    SendsOnly token s (shimSend cfg s i id token answer) := by
  have hnone : ∀ e, SendsOnly token s (.ok ⟨s, e, []⟩) := fun e =>
    ⟨⟨s, e, []⟩, rfl, rfl, rfl, fun _ _ => rfl, fun b' hb' => by
      obtain rfl : b = b' := Option.some.inj (hb.symm.trans hb')
      exact hnext⟩
  unfold shimSend
  dsimp only
  split
  · exact hnone _
  · split
    · exact sendsOnly_sendUdp hb href hnext id answer
    · exact sendsOnly_sendTcp hb href hnext id answer
    · exact hnone _

theorem sendsOnly_shimSendto {token : Ptr} {b : Pbuf} (hb : s.pbufs token = some b)
    (href : b.ref ≤ 1) (hnext : b.next = none) (i : ℕ) (id : ℤ) (answer : SendAnswer) :
    SendsOnly token s (shimSendto cfg s i id token answer) := by
  have hnone : ∀ e, SendsOnly token s (.ok ⟨s, e, []⟩) := fun e =>
    ⟨⟨s, e, []⟩, rfl, rfl, rfl, fun _ _ => rfl, fun b' hb' => by
      obtain rfl : b = b' := Option.some.inj (hb.symm.trans hb')
      exact hnext⟩
  unfold shimSendto
  dsimp only
  split
  · exact hnone _
  · split
    · exact sendsOnly_sendUdp hb href hnext id answer
    · exact hnone _
    · exact hnone _

/-- **A send changes no pbuf that was there before it**; it goes wrong only when its buffer is
too long. -/
theorem transmit_cases {buffer : List UInt8} {timed : Bool} {answer : SendAnswer}
    {send : Server → Ptr → Except Fault Sent}
    (hsend : ∀ {t : Server} {token : Ptr} {b : Pbuf}, t.pbufs token = some b → b.ref ≤ 1 →
      b.next = none → SendsOnly token t (send t token))
    (hok : IfSome answer.alloc fun p => s.pbufs p = none) :
    transmit cfg s buffer timed answer send = .error .overrun ∨
      ∃ t r, transmit cfg s buffer timed answer send = .ok (t, r) ∧
        t.connections = s.connections ∧ t.refused = s.refused ∧
        (∀ q, s.pbufs q ≠ none → t.pbufs q = s.pbufs q) ∧
        ∀ q b, t.pbufs q = some b → s.pbufs q = some b ∨ b.next = none := by
  cases halloc : answer.alloc with
  | none =>
    refine .inr ⟨s, .sent ErrorCode.enomem.toInt none
      (if cfg.debugPrint then [readPbuf s none] else []),
      ?_, rfl, rfl, fun _ _ => rfl, fun _ _ h => .inl h⟩
    simp only [transmit, halloc, pbufShimAllocTx]
  | some token =>
    by_cases hlen : buffer.length < 2 ^ 16
    · right
      have htransmit := transmit_eq cfg s hlen timed halloc send
      obtain ⟨sent, hsent, hconn, hrefused, hpbufs, htoken⟩ := hsend
        (t := withPbuf s token (some (txPbuf buffer hlen timed))) (Function.update_self _ _ _)
          le_rfl rfl
      have hoff : ∀ q, q ≠ token → sent.server.pbufs q = s.pbufs q := fun q hq =>
        (hpbufs q hq).trans (Function.update_of_ne hq _ _)
      refine ⟨sent.server, _, by rw [htransmit, hsent]; rfl, hconn, hrefused, fun q hq => ?_,
        fun q b hq => ?_⟩
      · refine hoff q ?_
        rintro rfl
        exact hq (hok q (by rw [halloc]; rfl))
      · by_cases hqt : q = token
        · subst hqt; exact .inr (htoken b hq)
        · exact .inl ((hoff q hqt).symm.trans hq)
    · exact .inl (transmit_overrun cfg s hlen timed halloc send)

/-! ### Sends on a TCP connection -/

/-- The bytes lwIP has accepted for the connection at `p`. -/
def Server.stream (s : Server) (p : Ptr) : List UInt8 := ((s.tcp p).map TcpPcb.written).getD []

/-- Slot `id` is a TCP socket of client `i` with the control block at `p`. -/
def OnTcp (cfg : Config) (s : Server) (i : ℕ) (id : ℤ) (p : Ptr) : Prop :=
  (cfg.InRange id ∧ (s.connections id).clientNum = i) ∧ (s.connections id).protocol = .tcp ∧
    (s.connections id).pcb = .tcp p ∧ (s.tcp p).isSome = true

instance (i : ℕ) (id : ℤ) (p : Ptr) : Decidable (OnTcp cfg s i id p) :=
  inferInstanceAs (Decidable (_ ∧ _ ∧ _ ∧ _))

/-- A `send` or `send_timed`, with lwIP's answers. -/
structure SendCall where
  /-- The buffer. -/
  buffer : List UInt8
  /-- Whether it is a `send_timed`. -/
  timed : Bool
  /-- What lwIP answers. -/
  answer : SendAnswer
  /-- The buffer fits into a pbuf. -/
  size_le : buffer.length ≤ 65535

namespace SendCall

/-- The call of client `i` on slot `id`. -/
def action (x : SendCall) (i : ℕ) (id : ℤ) : Action :=
  .call i (.send id x.buffer x.timed x.answer)

/-- The bytes that `tcp_write` queues. -/
def queued (x : SendCall) : List UInt8 :=
  if x.answer.alloc.isSome ∧ x.answer.write = .ok then x.buffer else []

/-- Every step of the send goes well. -/
def Succeeds (x : SendCall) : Prop :=
  x.answer.alloc.isSome ∧ x.answer.write = .ok ∧ x.answer.output = .ok

instance (x : SendCall) : Decidable x.Succeeds := inferInstanceAs (Decidable (_ ∧ _ ∧ _))

/-- `tcp_output` does not fail after a `tcp_write` of some bytes. -/
def Commits (x : SendCall) : Prop :=
  x.answer.alloc = none ∨ x.answer.write ≠ .ok ∨ x.answer.output = .ok ∨ x.buffer = []

end SendCall

/-- A send that returns a non-negative result. -/
def Reply.succeeded : Reply → Bool
  | .sent result _ _ => decide (0 ≤ result)
  | _ => false

/-- Sends on slot `id`, one after the other: the state after them, and the buffers of those
that return a non-negative result. -/
def sendAll (cfg : Config) (i : ℕ) (id : ℤ) :
    Server → List SendCall → Except Fault (Server × List UInt8)
  | s, [] => .ok (s, [])
  | s, x :: xs => do
    let (s, r) ← step cfg s (x.action i id)
    let (s, reported) ← sendAll cfg i id s xs
    .ok (s, (if r.succeeded then x.buffer else []) ++ reported)

theorem stream_tcpWrite {p : Ptr} (hp : (s.tcp p).isSome = true) (bytes : List UInt8)
    (answer : Err) :
    (tcpWrite s p bytes answer).stream p = s.stream p ++ if answer = .ok then bytes else [] := by
  obtain ⟨b, hb⟩ := Option.isSome_iff_exists.mp hp
  unfold tcpWrite
  split
  · simp [Server.stream, Server.modifyTcp, hb]
  · simp

theorem OnTcp.tcpWrite {i : ℕ} {id : ℤ} {p : Ptr} (h : OnTcp cfg s i id p) (bytes : List UInt8)
    (answer : Err) : OnTcp cfg (tcpWrite s p bytes answer) i id p := by
  unfold Xtcp.tcpWrite
  split
  · obtain ⟨hown, hproto, hpcb, hsome⟩ := h
    refine ⟨hown, hproto, hpcb, ?_⟩
    obtain ⟨b, hb⟩ := Option.isSome_iff_exists.mp hsome
    simp [Server.modifyTcp, hb]
  · exact h

/-- `shim_send` on a TCP connection. -/
theorem shimSend_tcp {i : ℕ} {id : ℤ} {p : Ptr} (h : OnTcp cfg s i id p) {token : Ptr} {b : Pbuf}
    (hb : s.pbufs token = some b) (href : b.ref ≤ 1) (hnext : b.next = none)
    (answer : SendAnswer) :
    ∃ reads, shimSend cfg s i id token answer
      = .ok ⟨withPbuf (tcpWrite s p b.payload.bytes answer.write) token none,
          if answer.write = .ok ∧ answer.output = .ok then .success else .einval, reads⟩ := by
  obtain ⟨hown, hproto, hpcb, -⟩ := h
  have hfind : (findClientConnection cfg s i id).status = .success := find_success_iff.mpr hown
  have hget : getTcpPcb cfg s id = some p := by
    rw [getTcpPcb, if_pos ⟨hown.1, hproto⟩, hpcb]
    rfl
  have hp : getProtocol cfg s id = .tcp := by rw [getProtocol, if_pos hown.1, hproto]
  have hload : s.pbufs.load token = .ok b := Pbufs.load_eq_ok.mpr hb
  have hb' : (tcpWrite s p b.payload.bytes answer.write).pbufs token = some b := by
    unfold tcpWrite
    split <;> exact hb
  refine ⟨[readPbuf s token, readPbuf s token], ?_⟩
  simp only [shimSend, hfind, ne_eq, not_true_eq_false, if_false, hp, sendTcp, hget, hload,
    Bind.bind, Except.bind, freeSent_eq hb' href hnext]

/-- **One send on a TCP connection**: it returns, and queues the bytes if `tcp_write` does;
its result is non-negative when every step has gone well. -/
theorem send_step {i : ℕ} {id : ℤ} {p : Ptr} (h : OnTcp cfg s i id p) (x : SendCall) :
    ∃ t r, step cfg s (x.action i id) = .ok (t, r) ∧ OnTcp cfg t i id p ∧
      t.stream p = s.stream p ++ x.queued ∧ (r.succeeded = true ↔ x.Succeeds) := by
  have hfind : (findClientConnection cfg s i id).status = .success := find_success_iff.mpr h.1
  have hsend : step cfg s (x.action i id)
      = transmit cfg s x.buffer x.timed x.answer fun s token =>
        shimSend cfg s i id token x.answer := by
    simp only [step, SendCall.action, stepCall, sendCommon, hfind, ne_eq, not_true_eq_false,
      if_false]
  rw [hsend]
  cases halloc : x.answer.alloc with
  | none =>
    refine ⟨s, .sent ErrorCode.enomem.toInt none (if cfg.debugPrint then [readPbuf s none] else []),
      ?_, h, ?_, ?_⟩
    · simp only [transmit, halloc, pbufShimAllocTx]
    · simp [SendCall.queued, halloc]
    · simp [Reply.succeeded, SendCall.Succeeds, halloc, ErrorCode.toInt]
  | some token =>
    have hlen : x.buffer.length < 2 ^ 16 := by have := x.size_le; omega
    have htransmit := transmit_eq cfg s hlen x.timed halloc fun s token =>
      shimSend cfg s i id token x.answer
    have hb : (withPbuf s token (some (txPbuf x.buffer hlen x.timed))).pbufs token
        = some (txPbuf x.buffer hlen x.timed) := Function.update_self _ _ _
    have hon : OnTcp cfg (withPbuf s token (some (txPbuf x.buffer hlen x.timed))) i id p := h
    obtain ⟨reads', hshim⟩ := shimSend_tcp hon hb le_rfl rfl x.answer
    rw [htransmit, hshim]
    refine ⟨_, _, rfl, hon.tcpWrite x.buffer x.answer.write, ?_, ?_⟩
    · have hstream := stream_tcpWrite hon.2.2.2 x.buffer x.answer.write
      refine Eq.trans hstream ?_
      simp only [SendCall.queued, halloc, Option.isSome_some, true_and]
      rfl
    · simp only [Reply.succeeded, SendCall.Succeeds, halloc, Option.isSome_some, true_and]
      split
      · next hok => simpa [ErrorCode.toInt] using hok
      · next hok => simpa [ErrorCode.toInt] using hok

/-- A sequence of sends returns, and queues what each of them queues. -/
theorem sendAll_eq {i : ℕ} {id : ℤ} {p : Ptr} (xs : List SendCall) :
    ∀ {s : Server}, OnTcp cfg s i id p →
      ∃ t, sendAll cfg i id s xs
          = .ok (t, xs.flatMap fun x => if x.Succeeds then x.buffer else []) ∧
        OnTcp cfg t i id p ∧ t.stream p = s.stream p ++ xs.flatMap SendCall.queued := by
  induction xs with
  | nil => intro s h; exact ⟨s, rfl, h, by simp⟩
  | cons x xs ih =>
    intro s h
    obtain ⟨t, r, hstep, ht, hstream, hr⟩ := send_step h x
    obtain ⟨u, hall, hu, hstream'⟩ := ih ht
    refine ⟨u, ?_, hu, ?_⟩
    · simp only [sendAll, hstep, hall, Bind.bind, Except.bind, hr, List.flatMap_cons]
    · rw [hstream', hstream, List.flatMap_cons, List.append_assoc]

/-- Sends on slot `id` are atomic: they all return, the stream has grown by the buffers of
those that return a non-negative result, and one that reports an error has added nothing to
it. -/
def SendsAtomic (cfg : Config) (s : Server) (i : ℕ) (id : ℤ) (p : Ptr) (xs : List SendCall) :
    Prop :=
  (∃ t reported, sendAll cfg i id s xs = .ok (t, reported) ∧
    t.stream p = s.stream p ++ reported) ∧
  ∀ ys x zs, xs = ys ++ x :: zs → ∀ t reported t' r, sendAll cfg i id s ys = .ok (t, reported) →
    step cfg t (x.action i id) = .ok (t', r) → r.succeeded = false → t'.stream p = t.stream p

/-- What a send queues that does not fail after `tcp_write`. -/
theorem SendCall.Commits.queued_eq {x : SendCall} (h : x.Commits) :
    x.queued = if x.Succeeds then x.buffer else [] := by
  unfold SendCall.queued SendCall.Succeeds
  rcases h with h | h | h | h
  · simp [h]
  · simp [h]
  · simp [h]
  · simp [h]

/-- **Sends on a TCP connection are atomic exactly when `tcp_output` does not fail after a
`tcp_write` of some bytes.** -/
theorem sends_atomic_iff {s : Server} {i : ℕ} {id : ℤ} {p : Ptr} (h : OnTcp cfg s i id p)
    (xs : List SendCall) : SendsAtomic cfg s i id p xs ↔ ∀ x ∈ xs, x.Commits := by
  constructor
  · rintro ⟨-, hfail⟩ x hx
    obtain ⟨ys, zs, rfl⟩ := List.append_of_mem hx
    obtain ⟨t, hall, ht, -⟩ := sendAll_eq ys h
    obtain ⟨t', r, hstep, -, hstream, hr⟩ := send_step ht x
    by_contra hcommits
    simp only [SendCall.Commits, not_or, not_not] at hcommits
    obtain ⟨halloc, hwrite, houtput, hbuffer⟩ := hcommits
    -- the send fails with its bytes queued
    have hsucc : r.succeeded = false := by
      rw [← Bool.not_eq_true, hr]
      exact fun hs => houtput hs.2.2
    have hsame := hfail ys x zs rfl t _ t' r hall hstep hsucc
    rw [hstream, SendCall.queued, if_pos ⟨Option.isSome_iff_ne_none.mpr halloc, hwrite⟩,
      List.append_right_eq_self] at hsame
    exact hbuffer hsame
  · intro hcommits
    refine ⟨?_, ?_⟩
    · obtain ⟨t, hall, -, hstream⟩ := sendAll_eq xs h
      refine ⟨t, _, hall, ?_⟩
      rw [hstream]
      congr 1
      exact List.flatMap_congr fun x hx => (hcommits x hx).queued_eq
    · rintro ys x zs rfl t reported t' r hall hstep hfailed
      obtain ⟨u, hall', hu, -⟩ := sendAll_eq ys h
      obtain ⟨rfl, -⟩ : u = t ∧ _ = reported := by simpa using hall'.symm.trans hall
      obtain ⟨u', r', hstep', -, hstream, hr⟩ := send_step hu x
      obtain ⟨rfl, rfl⟩ : u' = t' ∧ r' = r := by simpa using hstep'.symm.trans hstep
      have hns : ¬ x.Succeeds := fun hs => by rw [hr.mpr hs] at hfailed; cases hfailed
      rw [hstream, (hcommits x (by simp)).queued_eq, if_neg hns, List.append_nil]

/-- A state with a TCP connection in slot 0. -/
theorem exists_onTcp : ∃ s, Reachable .small s ∧ OnTcp .small s 0 0 10 := by
  have hrun : ∃ tr s, RunsTo .small (fun _ _ => True) tr s ∧ OnTcp .small s 0 0 10 := by
    refine Run.exists_of_replay
      [.call 0 (.socket .tcp (some 10)), .call 0 (.connect 0 80 {} .ok)] ?_
    decide
  obtain ⟨tr, s, hrun, hon⟩ := hrun
  exact ⟨s, ⟨tr, hrun⟩, hon⟩

/-- A send for which lwIP has memory, and one for which it has none. -/
theorem sends_atomic_two : ∃ s, OnTcp .small s 0 0 10 ∧ SendsAtomic .small s 0 0 10
    [⟨[1, 2, 3], false, ⟨some 100, .ok, .ok, .ok, 0, false⟩, by decide⟩,
      ⟨[4, 5], true, ⟨some 100, .mem, .ok, .ok, 0, false⟩, by decide⟩] := by
  obtain ⟨s, -, hon⟩ := exists_onTcp
  refine ⟨s, hon, (sends_atomic_iff hon _).mpr fun x hx => ?_⟩
  simp only [List.mem_cons, List.not_mem_nil, or_false] at hx
  rcases hx with rfl | rfl
  · exact .inr (.inr (.inl rfl))
  · exact .inr (.inl (by decide))

/-- A send of three bytes whose `tcp_output` fails: it reports an error, and the bytes are
queued. -/
theorem failed_output_queues : ¬ ∀ s xs, Reachable .small s → OnTcp .small s 0 0 10 →
    SendsAtomic .small s 0 0 10 xs := by
  intro hatomic
  obtain ⟨s, hreach, hon⟩ := exists_onTcp
  let x : SendCall := ⟨[1, 2, 3], false, ⟨some 100, .ok, .mem, .ok, 0, false⟩, by decide⟩
  obtain ⟨-, hfail⟩ := hatomic s [x] hreach hon
  obtain ⟨t, r, hstep, -, hstream, hr⟩ := send_step hon x
  have hsucc : r.succeeded = false := by
    rw [← Bool.not_eq_true, hr]
    decide
  have hsame := hfail [] x [] rfl s [] t r rfl hstep hsucc
  rw [hstream, List.append_right_eq_self] at hsame
  cases hsame

end Xtcp
