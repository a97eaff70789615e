import Xtcp.Send

/-!
# The life of a transmit pbuf

The server allocates a pbuf for every send and copies the client's buffer to it; the shim passes
it to lwIP and releases it; and the server then reads its timestamp back.  The three ends do not
quite meet.  The length of the pbuf is a `uint16_t`, while the copy uses the client's own length.
The branches of the shim for UDP and TCP release the pbuf, and a socket without a protocol has no
branch.  And by the time the timestamp is read the pbuf is gone, unless lwIP has kept a reference
to it.

## Main definitions

* `TxCall` — a `send`, `send_timed`, `sendto` or `sendto_timed`.
* `TxCall.token`, `TxCall.filled`, `TxCall.shim`, `TxCall.handOver` — its pbuf, and what is done
  with it.
* `WholeMessage`, `ReleasedOnce`, `ReadsLive` — what one may expect of it.

## Main results

* `shim_filled` — what the shim leaves of a pbuf.
* `whole_message_iff` — **exactly when the pbuf carries the whole buffer**.
* `released_once_iff` — **exactly when the pbuf is released once**.
* `reads_live_iff` — **exactly when it is only read while it exists**.
-/

namespace Xtcp

open Runs

variable {cfg : Config} {s : Server} {i : ℕ}

/-! ### Transmitting calls -/

/-- A call that transmits, with lwIP's answers. -/
structure TxCall where
  /-- Whether it is a `sendto` or a `sendto_timed`. -/
  isSendto : Bool
  /-- The socket. -/
  id : ℤ
  /-- The buffer. -/
  buffer : List UInt8
  /-- Whether it is a `send_timed` or a `sendto_timed`. -/
  timed : Bool
  /-- What lwIP answers. -/
  answer : SendAnswer
  /-- The length of the buffer is a `uint32_t`. -/
  size_lt : buffer.length < 2 ^ 32

namespace TxCall

/-- The call. -/
def call (x : TxCall) : Call :=
  if x.isSendto then .sendto x.id x.buffer x.timed x.answer
  else .send x.id x.buffer x.timed x.answer

/-- The call gets as far as `pbuf_shim_alloc_tx`. -/
def Transmits (cfg : Config) (s : Server) (i : ℕ) (x : TxCall) : Prop :=
  (findClientConnection cfg s i x.id).status = .success ∧
    ¬ (x.isSendto = true ∧ getProtocol cfg s x.id = .tcp)

instance (x : TxCall) : Decidable (x.Transmits cfg s i) := inferInstanceAs (Decidable (_ ∧ _))

/-- The pbuf that the call allocates and copies its buffer to. -/
def token (cfg : Config) (s : Server) (i : ℕ) (x : TxCall) : Option Ptr :=
  if x.Transmits cfg s i then x.answer.alloc else none

/-- The call of `shim_send` or `shim_sendto`. -/
def shim (cfg : Config) (s : Server) (i : ℕ) (x : TxCall) (token : Ptr) : Except Fault Sent :=
  if x.isSendto then shimSendto cfg s i x.id token x.answer
  else shimSend cfg s i x.id token x.answer

/-- The state in which the pbuf is handed over: it has been allocated, and the buffer has been
copied to it. -/
def filled (cfg : Config) (s : Server) (x : TxCall) (token : Ptr) : Except Fault Server :=
  copyToPayload (pbufShimAllocTx cfg s (UInt16.ofNat x.buffer.length) x.timed (some token)).1 token
    x.buffer

/-- What is done with the pbuf once the buffer has been copied. -/
def handOver (cfg : Config) (s : Server) (i : ℕ) (x : TxCall) (token : Ptr) :
    Except Fault (Server × Reply) :=
  (x.shim cfg s i token).map fun sent =>
    (sent.server, .sent sent.result.toInt (pbufShimTokenTimestamp sent.server token)
      (⟨some token, true⟩ :: sent.reads ++ [readPbuf sent.server token]))

/-- lwIP gets the pbuf as a datagram, and keeps a reference to it. -/
def kept (cfg : Config) (s : Server) (x : TxCall) : Bool :=
  x.answer.keeps && (getUdpPcb cfg s x.id).isSome

variable {x : TxCall}

theorem stepCall_of_transmits (h : x.Transmits cfg s i) : stepCall cfg s i x.call
    = transmit cfg s x.buffer x.timed x.answer fun s token => x.shim cfg s i token := by
  obtain ⟨hfind, htcp⟩ := h
  cases hto : x.isSendto with
  | false => simp [call, hto, stepCall, sendCommon, hfind, shim]
  | true =>
    have hproto : getProtocol cfg s x.id ≠ .tcp := fun h => htcp ⟨hto, h⟩
    simp [call, hto, stepCall, sendtoCommon, hfind, hproto, shim]

/-- A call that is turned down before that. -/
theorem stepCall_of_not_transmits (h : ¬ x.Transmits cfg s i) :
    ∃ result, stepCall cfg s i x.call = .ok (s, .sent result none []) := by
  by_cases hfind : (findClientConnection cfg s i x.id).status = .success
  · obtain ⟨hto, hproto⟩ := not_not.mp fun h' => h ⟨hfind, h'⟩
    refine ⟨ErrorCode.eprotonosupport.toInt, ?_⟩
    simp [call, hto, stepCall, sendtoCommon, hfind, hproto]
  · refine ⟨(findClientConnection cfg s i x.id).status.toInt, ?_⟩
    cases hto : x.isSendto with
    | false => simp [call, hto, stepCall, sendCommon, hfind]
    | true => simp [call, hto, stepCall, sendtoCommon, hfind]

theorem token_eq_some {p : Ptr} :
    x.token cfg s i = some p ↔ x.Transmits cfg s i ∧ x.answer.alloc = some p := by
  simp only [token, Option.ite_none_right_eq_some]

/-- The pbuf with the buffer is handed over. -/
theorem stepCall_of_fits {p : Ptr} (h : x.token cfg s i = some p)
    (hlen : x.buffer.length < 2 ^ 16) : stepCall cfg s i x.call
      = x.handOver cfg (withPbuf s p (some (txPbuf x.buffer hlen x.timed))) i p := by
  obtain ⟨htransmits, halloc⟩ := token_eq_some.mp h
  rw [stepCall_of_transmits htransmits]
  exact transmit_eq cfg s hlen x.timed halloc _

/-- A buffer that is too long overruns the pbuf. -/
theorem stepCall_of_not_fits {p : Ptr} (h : x.token cfg s i = some p)
    (hlen : ¬ x.buffer.length < 2 ^ 16) : stepCall cfg s i x.call = .error .overrun := by
  obtain ⟨htransmits, halloc⟩ := token_eq_some.mp h
  rw [stepCall_of_transmits htransmits]
  exact transmit_overrun cfg s hlen x.timed halloc _

/-! ### What the shim leaves -/

/-- What the shim has left of the pbuf `b` at `p`: all of it for a socket without a protocol,
otherwise what lwIP has kept. -/
def Leaves (cfg : Config) (s : Server) (x : TxCall) (p : Ptr) (b : Pbuf) (sent : Sent) : Prop :=
  (∀ r ∈ sent.reads, r.live = true) ∧
    if getProtocol cfg s x.id = .none then sent.server.pbufs p = some b
    else if x.kept cfg s then ∃ b', sent.server.pbufs p = some b' ∧ b'.ref = 1
    else sent.server.pbufs p = none

variable {p : Ptr} {b : Pbuf}

theorem leaves_free (hb : s.pbufs p = some b) (href : b.ref = 1) (hnext : b.next = none)
    (hproto : getProtocol cfg s x.id ≠ .none) (hkept : x.kept cfg s = false) (e : ErrorCode)
    {reads : List PbufRead} (hreads : ∀ r ∈ reads, r.live = true) {t : Server}
    (ht : t.pbufs = s.pbufs) :
    ∃ sent, freeSent t p e reads = .ok sent ∧ x.Leaves cfg s p b sent := by
  have hb' : t.pbufs p = some b := by rw [ht]; exact hb
  refine ⟨_, freeSent_eq hb' href.le hnext e reads, hreads, ?_⟩
  rw [if_neg hproto, hkept]
  simp [withPbuf]

theorem leaves_sendUdp (hb : s.pbufs p = some b) (href : b.ref = 1) (hnext : b.next = none)
    (hproto : getProtocol cfg s x.id ≠ .none) :
    ∃ sent, sendUdp cfg s x.id p x.answer = .ok sent ∧ x.Leaves cfg s p b sent := by
  unfold sendUdp
  split
  · next hnone => exact leaves_free hb href hnext hproto (by simp [kept, hnone]) _ (by simp) rfl
  · next q hq =>
    set u := udpSend s p x.answer.timestamp x.answer.keeps with hu
    have hb' : u.pbufs p = some { b with
        timestamp := if b.txTimestamp then x.answer.timestamp else b.timestamp
        ref := if x.answer.keeps then b.ref + 1 else b.ref } := by
      simp [hu, udpSend, hb]
    cases hkeeps : x.answer.keeps with
    | false =>
      have href' : (if x.answer.keeps then b.ref + 1 else b.ref) ≤ 1 := by simp [hkeeps, href]
      refine ⟨_, freeSent_eq hb' href' hnext _ [], by simp, ?_⟩
      simp [hproto, kept, hkeeps, withPbuf]
    | true =>
      have href' : ¬ (if x.answer.keeps then b.ref + 1 else b.ref) ≤ 1 := by simp [hkeeps, href]
      have hfree := pbufFree_shared hb' href'
      refine ⟨⟨withPbuf u p (some _), _, []⟩, by simp only [freeSent, hfree]; rfl, by simp, ?_⟩
      simp [hproto, kept, hkeeps, hq, withPbuf, href]

theorem leaves_sendTcp (hb : s.pbufs p = some b) (href : b.ref = 1) (hnext : b.next = none)
    (hproto : getProtocol cfg s x.id = .tcp) :
    ∃ sent, sendTcp cfg s x.id p x.answer = .ok sent ∧ x.Leaves cfg s p b sent := by
  have hne : getProtocol cfg s x.id ≠ .none := by rw [hproto]; decide
  have hkept : x.kept cfg s = false := by
    have hudp : getUdpPcb cfg s x.id = none := by
      unfold getProtocol at hproto
      split at hproto
      · rw [getUdpPcb, if_neg]
        rintro ⟨-, h⟩
        rw [h] at hproto
        cases hproto
      · cases hproto
    simp [kept, hudp]
  have hread : readPbuf s p = ⟨some p, true⟩ := by simp [readPbuf, hb]
  unfold sendTcp
  split
  · exact leaves_free hb href hnext hne hkept _ (by simp) rfl
  · next q hq =>
    have hload : s.pbufs.load p = .ok b := Pbufs.load_eq_ok.mpr hb
    simp only [hload, Bind.bind, Except.bind]
    refine leaves_free hb href hnext hne hkept _ (by simp [hread]) ?_
    unfold tcpWrite
    split <;> rfl

/-- **What the shim leaves of a pbuf.** -/
theorem shim_filled (h : x.Transmits cfg s i) (hb : s.pbufs p = some b) (href : b.ref = 1)
    (hnext : b.next = none) : ∃ sent, x.shim cfg s i p = .ok sent ∧ x.Leaves cfg s p b sent := by
  obtain ⟨hfind, htcp⟩ := h
  -- a socket without a protocol
  have hnone : getProtocol cfg s x.id = .none → x.Leaves cfg s p b ⟨s, .einval, []⟩ := by
    intro hproto
    refine ⟨by simp, ?_⟩
    rw [if_pos hproto]
    exact hb
  cases hto : x.isSendto with
  | false =>
    simp only [shim, hto, shimSend, hfind, ne_eq, not_true_eq_false, Bool.false_eq_true, if_false]
    split
    · next hproto => exact leaves_sendUdp hb href hnext (by rw [hproto]; decide)
    · next hproto => exact leaves_sendTcp hb href hnext hproto
    · next hproto => exact ⟨_, rfl, hnone hproto⟩
  | true =>
    simp only [shim, hto, shimSendto, hfind, ne_eq, not_true_eq_false, if_true, if_false]
    split
    · next hproto => exact leaves_sendUdp hb href hnext (by rw [hproto]; decide)
    · next hproto => exact absurd ⟨hto, hproto⟩ htcp
    · next hproto => exact ⟨_, rfl, hnone hproto⟩

/-- **A transmitting call whose buffer fits** returns, and its pbuf is what the shim has left. -/
theorem stepCall_filled (h : x.token cfg s i = some p) (hlen : x.buffer.length < 2 ^ 16) :
    ∃ sent, x.Leaves cfg s p (txPbuf x.buffer hlen x.timed) sent ∧ stepCall cfg s i x.call
      = .ok (sent.server, .sent sent.result.toInt (pbufShimTokenTimestamp sent.server p)
          (⟨some p, true⟩ :: sent.reads ++ [readPbuf sent.server p])) := by
  obtain ⟨htransmits, -⟩ := token_eq_some.mp h
  have hfilled : x.Transmits cfg (withPbuf s p (some (txPbuf x.buffer hlen x.timed))) i :=
    htransmits
  obtain ⟨sent, hsent, hleaves⟩ := shim_filled hfilled (Function.update_self _ _ _) rfl rfl
  refine ⟨sent, hleaves, ?_⟩
  rw [stepCall_of_fits h hlen, handOver, hsent]
  rfl

end TxCall

/-! ### The whole message -/

/-- The pbuf has room for the whole buffer; and it is filled and handed over, and carries the
buffer, and nothing else, when it is. -/
def WholeMessage (cfg : Config) (s : Server) (i : ℕ) (x : TxCall) : Prop :=
  ∀ p, x.token cfg s i = some p →
    (∃ b, (pbufShimAllocTx cfg s (UInt16.ofNat x.buffer.length) x.timed (some p)).1.pbufs p = some b
      ∧ x.buffer.length ≤ b.len) ∧
    ∃ t b, x.filled cfg s p = .ok t ∧ stepCall cfg s i x.call = x.handOver cfg t i p ∧
      t.pbufs p = some b ∧ b.next = none ∧ b.payload.bytes = x.buffer ∧
      b.totLen = x.buffer.length

/-- The length of the pbuf that `pbuf_shim_alloc_tx` makes. -/
theorem len_pbufShimAllocTx (cfg : Config) (s : Server) (length : ℕ) (timed : Bool) (p : Ptr) :
    ∃ b, (pbufShimAllocTx cfg s (UInt16.ofNat length) timed (some p)).1.pbufs p = some b ∧
      b.len = length % 2 ^ 16 := by
  rw [pbufShimAllocTx_eq]
  refine ⟨_, Function.update_self _ _ _, ?_⟩
  simp [Pbuf.len]

/-- A buffer that is too long finds no room. -/
theorem not_wholeMessage {x : TxCall} {p : Ptr} (h : x.token cfg s i = some p)
    (hlen : ¬ x.buffer.length < 2 ^ 16) : ¬ WholeMessage cfg s i x := by
  intro hwhole
  obtain ⟨⟨b, hb, hroom⟩, -⟩ := hwhole p h
  obtain ⟨b', hb', hlen'⟩ := len_pbufShimAllocTx cfg s x.buffer.length x.timed p
  obtain rfl : b = b' := Option.some.inj (hb.symm.trans hb')
  omega

/-- **Exactly when a transmit pbuf carries the whole buffer**: when the length of the buffer is a
`uint16_t`; or there is no pbuf. -/
theorem whole_message_iff (x : TxCall) :
    WholeMessage cfg s i x ↔ x.token cfg s i = none ∨ x.buffer.length < 2 ^ 16 := by
  constructor
  · intro hwhole
    by_contra hnot
    push Not at hnot
    obtain ⟨htoken, hlen⟩ := hnot
    obtain ⟨p, hp⟩ := Option.ne_none_iff_exists'.mp htoken
    exact not_wholeMessage hp (by omega) hwhole
  · rintro hcond p hp
    have hlen : x.buffer.length < 2 ^ 16 := hcond.resolve_left (by rw [hp]; simp)
    obtain ⟨b, hb, hlen'⟩ := len_pbufShimAllocTx cfg s x.buffer.length x.timed p
    refine ⟨⟨b, hb, ?_⟩, _, _, copyToPayload_eq cfg s hlen x.timed p,
      TxCall.stepCall_of_fits hp hlen, Function.update_self _ _ _, rfl, rfl, rfl⟩
    rw [hlen', Nat.mod_eq_of_lt hlen]

/-- A socket of client 0, of each kind. -/
theorem exists_socket (protocol : Protocol) : ∃ s, Reachable .small s ∧
    (findClientConnection .small s 0 0).status = .success ∧
    getProtocol .small s 0 = protocol := by
  have hrun : ∃ tr s, RunsTo .small (fun _ _ => True) tr s ∧
      (findClientConnection .small s 0 0).status = .success ∧
      getProtocol .small s 0 = protocol := by
    refine Run.exists_of_replay [.call 0 (.socket protocol (some 10))] ?_
    cases protocol <;> decide
  obtain ⟨tr, s, hrun, hsocket⟩ := hrun
  exact ⟨s, ⟨tr, hrun⟩, hsocket⟩

/-- A `send` or `send_timed` of client 0 on slot 0, for which lwIP finds memory. -/
def sendOf (buffer : List UInt8) (timed : Bool) (h : buffer.length < 2 ^ 32) : TxCall where
  isSendto := false
  id := 0
  buffer := buffer
  timed := timed
  answer := ⟨some 50, .ok, .ok, .ok, 7, false⟩
  size_lt := h

theorem token_sendOf (hfind : (findClientConnection cfg s 0 0).status = .success)
    (buffer : List UInt8) (timed : Bool) (h : buffer.length < 2 ^ 32) :
    (sendOf buffer timed h).token cfg s 0 = some 50 :=
  TxCall.token_eq_some.mpr ⟨⟨hfind, fun h => nomatch h.1⟩, rfl⟩

/-- A buffer of 65536 bytes gets a pbuf of length 0. -/
theorem long_buffer_has_no_room : ¬ ∀ s i x, Reachable .small s → WholeMessage .small s i x := by
  intro hwhole
  obtain ⟨s, hs, hfind, -⟩ := exists_socket .udp
  have hlen : (List.replicate 65536 (0 : UInt8)).length = 65536 := List.length_replicate
  refine not_wholeMessage (token_sendOf hfind _ false (by rw [hlen]; decide)) ?_ (hwhole s 0 _ hs)
  show ¬ (List.replicate 65536 (0 : UInt8)).length < 2 ^ 16
  rw [hlen]
  decide

/-! ### The release -/

/-- The number of references to a pbuf. -/
def references (m : Pbufs) (p : Ptr) : ℕ := ((m p).map Pbuf.ref).getD 0

/-- When the call returns, its own reference to the pbuf has been released, and lwIP's has not:
`pbuf_alloc` has made the first one, `udp_send` may have added the second, and every `pbuf_free`
takes one away. -/
def ReleasedOnce (cfg : Config) (s : Server) (i : ℕ) (x : TxCall) : Prop :=
  ∀ p, x.token cfg s i = some p → ∃ t r, stepCall cfg s i x.call = .ok (t, r) ∧
    references t.pbufs p = if x.kept cfg s then 1 else 0

/-- A socket without a protocol has no control block for lwIP to keep a pbuf for. -/
theorem TxCall.not_kept {x : TxCall} (h : getProtocol cfg s x.id = .none) :
    x.kept cfg s = false := by
  have hudp : getUdpPcb cfg s x.id = none := by
    rw [getUdpPcb, if_neg]
    rintro ⟨hid, hproto⟩
    rw [getProtocol, if_pos hid, hproto] at h
    cases h
  simp [kept, hudp]

/-- A socket without a protocol keeps its pbufs for ever. -/
theorem not_releasedOnce {x : TxCall} {p : Ptr} (h : x.token cfg s i = some p)
    (hproto : getProtocol cfg s x.id = .none) : ¬ ReleasedOnce cfg s i x := by
  intro hrel
  obtain ⟨t, r, hstep, hrefs⟩ := hrel p h
  by_cases hlen : x.buffer.length < 2 ^ 16
  · obtain ⟨sent, hleaves, hsent⟩ := TxCall.stepCall_filled h hlen
    obtain ⟨rfl, -⟩ : sent.server = t ∧ _ = r := by simpa using hsent.symm.trans hstep
    have hleft := hleaves.2
    rw [if_pos hproto] at hleft
    rw [references, hleft, TxCall.not_kept hproto] at hrefs
    cases hrefs
  · rw [TxCall.stepCall_of_not_fits h hlen] at hstep
    cases hstep

/-- **Exactly when a transmit pbuf is released once**: when its socket has a protocol, and the
buffer fits; or there is no pbuf. -/
theorem released_once_iff (x : TxCall) : ReleasedOnce cfg s i x ↔
    x.token cfg s i = none ∨
      x.buffer.length < 2 ^ 16 ∧ getProtocol cfg s x.id ≠ .none := by
  constructor
  · intro hrel
    cases hp : x.token cfg s i with
    | none => exact .inl rfl
    | some p =>
      refine .inr ⟨?_, fun hproto => not_releasedOnce hp hproto hrel⟩
      by_contra hlen
      obtain ⟨t, r, hstep, -⟩ := hrel p hp
      rw [TxCall.stepCall_of_not_fits hp hlen] at hstep
      cases hstep
  · rintro hcond p hp
    obtain ⟨hlen, hproto⟩ := hcond.resolve_left (by rw [hp]; simp)
    obtain ⟨sent, hleaves, hsent⟩ := TxCall.stepCall_filled hp hlen
    refine ⟨_, _, hsent, ?_⟩
    have hleft := hleaves.2
    rw [if_neg hproto] at hleft
    cases hkept : x.kept cfg s with
    | false =>
      rw [hkept, if_neg Bool.false_ne_true] at hleft
      rw [references, hleft]
      rfl
    | true =>
      rw [hkept, if_pos rfl] at hleft
      obtain ⟨b, hb, href⟩ := hleft
      rw [references, hb, Option.map_some, href]
      rfl

/-- A send on a socket that was made with `XTCP_PROTOCOL_NONE`. -/
theorem send_without_protocol_leaks : ¬ ∀ s i x, Reachable .small s →
    ReleasedOnce .small s i x := by
  intro hrel
  obtain ⟨s, hs, hfind, hproto⟩ := exists_socket .none
  exact not_releasedOnce (token_sendOf hfind [1] false (by decide)) hproto (hrel s 0 _ hs)

/-! ### The reads -/

/-- The call returns, every read of its pbuf is made while the pbuf exists, and the timestamp is
that of the pbuf. -/
def ReadsLive (cfg : Config) (s : Server) (i : ℕ) (x : TxCall) : Prop :=
  ∃ t result timestamp reads, stepCall cfg s i x.call = .ok (t, .sent result timestamp reads) ∧
    (∀ r ∈ reads, r.live = true) ∧
    ∀ p, x.token cfg s i = some p → ∃ b, t.pbufs p = some b ∧ timestamp = some b.timestamp

/-- A call that does not get as far as an allocation reads nothing. -/
theorem readsLive_of_not_transmits {x : TxCall} (h : ¬ x.Transmits cfg s i) :
    ReadsLive cfg s i x := by
  obtain ⟨result, hstep⟩ := TxCall.stepCall_of_not_transmits h
  refine ⟨_, _, _, _, hstep, by simp, fun p hp => ?_⟩
  exact absurd (TxCall.token_eq_some.mp hp).1 h

/-- When the allocation fails, only the debug message reads, through `NULL`. -/
theorem readsLive_of_alloc_none {x : TxCall} (h : x.Transmits cfg s i)
    (halloc : x.answer.alloc = none) : ReadsLive cfg s i x ↔ cfg.debugPrint = false := by
  have hstep : stepCall cfg s i x.call = .ok (s, .sent ErrorCode.enomem.toInt none
      (if cfg.debugPrint then [readPbuf s none] else [])) := by
    rw [TxCall.stepCall_of_transmits h]
    simp only [transmit, halloc, pbufShimAllocTx]
  constructor
  · rintro ⟨t, result, timestamp, reads, hstep', hlive, -⟩
    rw [hstep] at hstep'
    cases hstep'
    by_contra hdebug
    have hread := hlive (readPbuf s none) (by simp [hdebug])
    cases hread
  · intro hdebug
    refine ⟨_, _, _, _, hstep, by simp [hdebug], fun p hp => ?_⟩
    rw [(TxCall.token_eq_some.mp hp).2] at halloc
    cases halloc

/-- A pbuf that has been filled is read while it exists exactly when it exists at the end. -/
theorem readsLive_of_fits {x : TxCall} {p : Ptr} (h : x.token cfg s i = some p)
    (hlen : x.buffer.length < 2 ^ 16) :
    ReadsLive cfg s i x ↔ getProtocol cfg s x.id = .none ∨ x.kept cfg s = true := by
  obtain ⟨sent, hleaves, hstep⟩ := TxCall.stepCall_filled h hlen
  obtain ⟨hreads, hleft⟩ := hleaves
  -- what is there at the end
  have hend : (sent.server.pbufs p).isSome = true ↔
      getProtocol cfg s x.id = .none ∨ x.kept cfg s = true := by
    split at hleft
    · next hproto => simp [hleft, show getProtocol cfg s x.id = .none from hproto]
    · next hproto =>
      have hproto : getProtocol cfg s x.id ≠ .none := hproto
      split at hleft
      · next hkept =>
        obtain ⟨b, hb, -⟩ := hleft
        simp [hb, show x.kept cfg s = true from hkept]
      · next hkept =>
        simp [hleft, hproto, show ¬ x.kept cfg s = true from hkept]
  rw [← hend]
  constructor
  · rintro ⟨t, result, timestamp, reads, hstep', -, htoken⟩
    rw [hstep] at hstep'
    cases hstep'
    obtain ⟨b, hb, -⟩ := htoken p h
    rw [hb]
    rfl
  · intro hsome
    obtain ⟨b, hb⟩ := Option.isSome_iff_exists.mp hsome
    refine ⟨_, _, _, _, hstep, fun r hr => ?_, fun q hq => ?_⟩
    · rw [List.mem_append, List.mem_cons, List.mem_singleton] at hr
      obtain (rfl | hr) | rfl := hr
      · rfl
      · exact hreads r hr
      · exact hsome
    · obtain rfl : p = q := Option.some.inj (h.symm.trans hq)
      exact ⟨b, hb, by rw [pbufShimTokenTimestamp, hb]; rfl⟩

/-- **Exactly when a transmit pbuf is only read while it exists**: when the call does not get as
far as an allocation; or the allocation fails and nothing is printed; or the buffer fits, and the
pbuf has not been released because the socket has no protocol, or lwIP has kept it. -/
theorem reads_live_iff (x : TxCall) : ReadsLive cfg s i x ↔
    ¬ x.Transmits cfg s i ∨ (x.answer.alloc = none ∧ cfg.debugPrint = false) ∨
      (x.answer.alloc ≠ none ∧ x.buffer.length < 2 ^ 16 ∧
        (getProtocol cfg s x.id = .none ∨ x.kept cfg s = true)) := by
  by_cases htransmits : x.Transmits cfg s i
  · cases halloc : x.answer.alloc with
    | none => simp [htransmits, readsLive_of_alloc_none htransmits halloc]
    | some p =>
      have hp : x.token cfg s i = some p := TxCall.token_eq_some.mpr ⟨htransmits, halloc⟩
      by_cases hlen : x.buffer.length < 2 ^ 16
      · rw [readsLive_of_fits hp hlen]
        constructor
        · intro h
          exact .inr (.inr ⟨Option.some_ne_none p, hlen, h⟩)
        · rintro (h | ⟨h, -⟩ | ⟨-, -, h⟩)
          · exact absurd htransmits h
          · cases h
          · exact h
      · have hfault : ¬ ReadsLive cfg s i x := by
          rintro ⟨t, result, timestamp, reads, hstep, -⟩
          rw [TxCall.stepCall_of_not_fits hp hlen] at hstep
          cases hstep
        constructor
        · intro h
          exact absurd h hfault
        · rintro (h | ⟨h, -⟩ | ⟨-, h, -⟩)
          · exact absurd htransmits h
          · cases h
          · exact absurd h hlen
  · simp [htransmits, readsLive_of_not_transmits htransmits]

/-- After a `send_timed` on a TCP socket, the timestamp is read from a pbuf that has been
released. -/
theorem timestamp_read_after_free : ¬ ∀ s i x, Reachable .small s → ReadsLive .small s i x := by
  intro hlive
  obtain ⟨s, hs, hfind, hproto⟩ := exists_socket .tcp
  have h := hlive s 0 (sendOf [1] true (by decide)) hs
  rw [readsLive_of_fits (token_sendOf hfind [1] true (by decide)) (by decide)] at h
  rcases h with h | h
  · rw [show (sendOf [1] true (by decide)).id = 0 from rfl, hproto] at h
    cases h
  · cases h

end Xtcp
