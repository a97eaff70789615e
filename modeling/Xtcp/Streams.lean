import Xtcp.Effects
import Xtcp.Routing
import Xtcp.Send

/-!
# The bytes of a connection

What lwIP has queued for a connection is written by `send` alone, and by the `send`s of one client
on one slot, whatever the other clients and lwIP do in between.  So the stream of a connection is
made of the buffers of those sends, in the order of the calls: all for which `tcp_write` succeeds;
and as long as `tcp_output` does not fail after that, all that report success.

## Main definitions

* `sentOn` — the call, if it is a `send` of a client on a slot.
* `queuedBytes`, `reportedBytes` — the bytes that a step queues, and that it reports as sent.

## Main results

* `stream_step` — what a step adds to the stream of a connection.
* `stream_of_run` — **the stream of a connection is made of the buffers of its owner's sends**.
-/

namespace Xtcp

open Runs

variable {cfg : Config} {s s' t : Server} {c : ℕ} {k : ℤ} {p : Ptr}

/-- The buffer and lwIP's answers, if the action is a `send` of client `c` on slot `k`. -/
def sentOn (c : ℕ) (k : ℤ) : Action → Option (List UInt8 × SendAnswer)
  | .call i (.send id buffer _ answer) => if i = c ∧ id = k then some (buffer, answer) else none
  | _ => none

/-- The bytes that a step queues with `tcp_write`. -/
def queuedBytes (c : ℕ) (k : ℤ) (x : Action × Reply) : List UInt8 :=
  match sentOn c k x.1 with
  | some (buffer, answer) => if answer.alloc.isSome ∧ answer.write = .ok then buffer else []
  | none => []

/-- The bytes of a send that reports success. -/
def reportedBytes (c : ℕ) (k : ℤ) (x : Action × Reply) : List UInt8 :=
  match sentOn c k x.1 with
  | some (buffer, _) => if x.2.succeeded then buffer else []
  | none => []

/-- If the action is a `send` of client `c` on slot `k`, then `tcp_output` does not fail after a
`tcp_write` of some bytes. -/
def CommitsOn (c : ℕ) (k : ℤ) (a : Action) : Prop :=
  ∀ x ∈ sentOn c k a,
    x.2.alloc = none ∨ x.2.write ≠ .ok ∨ x.2.output = .ok ∨ x.1 = []

instance (c : ℕ) (k : ℤ) (a : Action) : Decidable (CommitsOn c k a) :=
  inferInstanceAs (Decidable (IfSome _ _))

theorem sentOn_eq_some {a : Action} {buffer : List UInt8} {answer : SendAnswer}
    (h : sentOn c k a = some (buffer, answer)) :
    ∃ timed, a = .call c (.send k buffer timed answer) := by
  unfold sentOn at h
  split at h
  · next i id buffer' timed answer' =>
    split at h
    · next hik =>
      obtain ⟨rfl, rfl⟩ := hik
      cases h
      exact ⟨timed, rfl⟩
    · cases h
  · cases h

/-- **A `send` of the owner.** -/
theorem stream_send (hon : OnTcp cfg s c k p) {buffer : List UInt8} {timed : Bool}
    {answer : SendAnswer} {r : Reply}
    (hs : step cfg s (.call c (.send k buffer timed answer)) = .ok (s', r)) :
    s'.stream p = s.stream p
        ++ queuedBytes c k (.call c (.send k buffer timed answer), r) ∧
      (r.succeeded = true ↔ answer.alloc.isSome ∧ answer.write = .ok ∧ answer.output = .ok) := by
  have hsent : sentOn c k (.call c (.send k buffer timed answer)) = some (buffer, answer) := by
    simp [sentOn]
  by_cases hlen : buffer.length ≤ 65535
  · obtain ⟨t, r', hstep, -, hstream, hr⟩ := send_step hon ⟨buffer, timed, answer, hlen⟩
    obtain ⟨rfl, rfl⟩ : t = s' ∧ r' = r := by simpa using hstep.symm.trans hs
    refine ⟨?_, hr⟩
    rw [hstream, queuedBytes, hsent]
    rfl
  · -- without a pbuf nothing happens, and with one the copy runs past its end
    have hfind : (findClientConnection cfg s c k).status = .success := find_success_iff.mpr hon.1
    have hsend : transmit cfg s buffer timed answer (fun s token => shimSend cfg s c k token answer)
        = .ok (s', r) := by
      simpa only [step, stepCall, sendCommon, hfind, ne_eq, not_true_eq_false, if_false] using hs
    cases halloc : answer.alloc with
    | none =>
      simp only [transmit, halloc, pbufShimAllocTx] at hsend
      cases hsend
      rw [queuedBytes, hsent]
      simp [halloc, Reply.succeeded, ErrorCode.toInt]
    | some token =>
      rw [transmit_overrun cfg s (by omega) timed halloc] at hsend
      cases hsend

/-- **What a step adds to the stream of a connection**: the bytes that a `send` of its owner
queues, and nothing else. -/
theorem stream_step (hT : TableOk cfg s.table) (hR : RoutedOk cfg s.table) (hon : OnTcp cfg s c k p)
    {a : Action} (hok : Allowed cfg s a) {r : Reply} (hs : step cfg s a = .ok (s', r))
    (halive : (s'.tcp p).isSome = true) :
    s'.stream p = s.stream p ++ queuedBytes c k (a, r) ∧
      (CommitsOn c k a → queuedBytes c k (a, r) = reportedBytes c k (a, r)) := by
  have hpcb : (s.table.slot k).pcb = .tcp p := hon.2.2.1
  cases hsent : sentOn c k a with
  | some x =>
    obtain ⟨buffer, answer⟩ := x
    obtain ⟨timed, rfl⟩ := sentOn_eq_some hsent
    obtain ⟨hstream, hr⟩ := stream_send hon hs
    refine ⟨hstream, fun hcommits => ?_⟩
    have hcases : answer.alloc = none ∨ answer.write ≠ .ok ∨ answer.output = .ok ∨ buffer = [] :=
      hcommits _ hsent
    simp only [queuedBytes, reportedBytes, hsent]
    rcases hcases with h | h | h | h
    · simp [hr, h]
    · simp [hr, h]
    · simp [hr, h]
    · simp [h]
  | none =>
    have hquiet : queuedBytes c k (a, r) = [] := by simp only [queuedBytes, hsent]
    have hunreported : reportedBytes c k (a, r) = [] := by simp only [reportedBytes, hsent]
    refine ⟨?_, fun _ => by rw [hquiet, hunreported]⟩
    rw [hquiet, List.append_nil]
    have hfresh : ¬ FreshPcb s p := by
      rintro ⟨hnone, -⟩
      have := hon.2.2.2
      rw [hnone] at this
      cases this
    have hmake : ¬ a.asks cfg s (.make p) := fun hmakes =>
      hfresh (Action.fresh_of_asks_make hok hmakes)
    have hwrite : ∀ bytes, ¬ a.asks cfg s (.write p bytes) := by
      intro bytes hwrites
      obtain ⟨i, id, buffer, timed, answer, rfl, hfind, hget⟩ := Action.of_asks_write hwrites
      have hown := find_success_iff.mp hfind
      obtain ⟨hproto, haddr⟩ := getTcpPcb_eq hget
      -- the slot with this control block is `k`
      obtain rfl : id = k := hR.distinct id k p (hT.pcb_eq hown.1 hproto haddr) hpcb
      have hi : i = c := hown.2.symm.trans hon.1.2
      subst hi
      simp [sentOn] at hsent
    rcases (effects_step hs).written hmake hwrite with hsame | hended
    · rw [Server.stream, hsame, Server.stream]
    · rw [hended] at halive
      cases halive

/-! ### Runs -/

/-- A TCP connection of client `c` in slot `k`, in a table whose callbacks go where they should. -/
structure OpenOn (cfg : Config) (c : ℕ) (k : ℤ) (p : Ptr) (s : Server) : Prop where
  /-- The shape of the table. -/
  table : TableOk cfg s.table
  /-- The callbacks go where they should. -/
  routed : RoutedOk cfg s.table
  /-- The slot, its owner and its control block. -/
  on : OnTcp cfg s c k p
  /-- The control block listens or is connected. -/
  status : pcbStatus s p ≠ some .closed

/-- The slot of a connection is active. -/
theorem OpenOn.active (h : OpenOn cfg c k p s) : (s.connections k).isActive = true :=
  h.routed.active h.table h.on.2.2.1

/-- A connection stays where it is until its slot is released. -/
theorem OpenOn.step (h : OpenOn cfg c k p s) {a : Action} (hok : Allowed cfg s a)
    (hzero : ConnectsAtZero cfg s a) {r : Reply} (hs : step cfg s a = .ok (s', r))
    (hact : (s'.connections k).isActive = true) : OpenOn cfg c k p s' := by
  have hstep := step_table h.table.cursor hok hs
  obtain ⟨b, hb⟩ := Option.isSome_iff_exists.mp h.on.2.2.2
  have hroute : s.table.tcp p = some b.route := by simp [Server.table, hb]
  have hopen : b.route.status ≠ .closed := by
    intro hclosed
    refine h.status ?_
    rw [pcbStatus, hb]
    exact congrArg some hclosed
  obtain ⟨hpcb, hroute'⟩ := h.routed.keeps_open h.table h.on.2.2.1 hroute hopen hstep hact
  obtain ⟨b', hb', hbr⟩ := Option.map_eq_some_iff.mp hroute'
  have hslot := h.table.slot_of_active hstep h.active
  obtain ⟨-, howner, hproto⟩ : (s'.table.slot k).isActive = true ∧
      (s'.table.slot k).clientNum = (s.table.slot k).clientNum ∧
      (s'.table.slot k).protocol = (s.table.slot k).protocol := by
    rcases hslot with hslot | ⟨-, hreleased, -⟩
    · exact hslot
    · have hact : (s'.table.slot k).isActive = true := hact
      rw [hreleased] at hact
      cases hact
  refine ⟨h.table.step hstep, h.routed.step h.table hzero hstep, ⟨⟨h.on.1.1, ?_⟩, ?_, hpcb, ?_⟩, ?_⟩
  · exact howner.trans h.on.1.2
  · exact hproto.trans h.on.2.1
  · rw [hb']
    rfl
  · rw [pcbStatus, hb', Option.map_some]
    have hstatus : b'.status = b.status := congrArg Route.status hbr
    rw [hstatus]
    exact fun hclosed => hopen (Option.some.inj hclosed)

/-- **The stream of a connection is made of the buffers of its owner's sends**, in the order of the
calls, whatever else happens in between: of those for which `tcp_write` succeeds; and if
`tcp_output` never fails after that, of those that report success.  The connection keeps its slot
and its control block for as long as the slot is active. -/
theorem stream_of_run {tr₀ tr : List (Action × Reply)}
    (hrun₀ : RunsTo cfg (ConnectsAtZero cfg) tr₀ s)
    (hon : OnTcp cfg s c k p) (hopen : pcbStatus s p ≠ some .closed)
    (hrun : Run (step cfg) (fun u b => (Allowed cfg u b ∧ ConnectsAtZero cfg u b) ∧
      (u.connections k).isActive = true) s tr t) (hact : (t.connections k).isActive = true) :
    OnTcp cfg t c k p ∧ t.stream p = s.stream p ++ tr.flatMap (queuedBytes c k) ∧
      ((∀ x ∈ tr, CommitsOn c k x.1) →
        t.stream p = s.stream p ++ tr.flatMap (reportedBytes c k)) := by
  obtain ⟨hT, hR⟩ := hrun₀.routedOk
  have hmain : OpenOn cfg c k p t ∧ t.stream p = s.stream p ++ tr.flatMap (queuedBytes c k) ∧
      ((∀ x ∈ tr, CommitsOn c k x.1) →
        t.stream p = s.stream p ++ tr.flatMap (reportedBytes c k)) := by
    induction hrun with
    | nil => exact ⟨⟨hT, hR, hon, hopen⟩, by simp, fun _ => by simp⟩
    | @snoc tr u v a r _ hok hs ih =>
      obtain ⟨hu, hqueued, hreported⟩ := ih hok.2
      have hv := hu.step hok.1.1 hok.1.2 hs hact
      obtain ⟨hstream, hsame⟩ := stream_step hu.table hu.routed hu.on hok.1.1 hs hv.on.2.2.2
      refine ⟨hv, ?_, fun hcommits => ?_⟩
      · rw [hstream, hqueued, List.flatMap_append, List.flatMap_singleton, List.append_assoc]
      · have hprior := hreported fun x hx => hcommits x (List.mem_append_left _ hx)
        have hlast := hsame (hcommits (a, r) (by simp))
        rw [hstream, hprior, hlast, List.flatMap_append, List.flatMap_singleton,
          List.append_assoc]
  exact ⟨hmain.1.on, hmain.2⟩

/-- A connection of client 0, with a socket of client 1 beside it: two sends of client 0 go
through, one finds no memory, and one is of client 1. -/
theorem stream_of_run_two : ∃ tr₀ s tr t, RunsTo .small (ConnectsAtZero .small) tr₀ s ∧
    Run (step .small) (fun u b => (Allowed .small u b ∧ ConnectsAtZero .small u b) ∧
      (u.connections 0).isActive = true) s tr t ∧
    s.stream 10 = [] ∧ tr.flatMap (queuedBytes 0 0) = [1, 2, 3] ∧ t.stream 10 = [1, 2, 3] := by
  have hrun₀ : ∃ tr₀ s, RunsTo .small (ConnectsAtZero .small) tr₀ s ∧
      (OnTcp .small s 0 0 10 ∧ pcbStatus s 10 ≠ some .closed ∧ s.stream 10 = []) ∧
      (replay (step .small) (fun u b => (Allowed .small u b ∧ ConnectsAtZero .small u b) ∧
        (u.connections 0).isActive = true) s
        [.call 0 (.send 0 [1, 2] false ⟨some 100, .ok, .ok, .ok, 0, false⟩),
          .call 1 (.send 1 [7] false ⟨some 100, .ok, .ok, .ok, 0, false⟩),
          .call 0 (.send 0 [8] false ⟨some 100, .mem, .ok, .ok, 0, false⟩),
          .happens (.tcpEvent 10 0 .sent),
          .call 0 (.send 0 [3] true ⟨some 100, .ok, .ok, .ok, 0, false⟩)]).any (fun q => decide
        ((q.2.connections 0).isActive = true ∧ q.1.flatMap (queuedBytes 0 0) = [1, 2, 3]))
          = true := by
    refine Run.exists_of_replay
      [.call 0 (.socket .tcp (some 10)), .call 0 (.connect 0 80 {} .ok),
        .call 1 (.socket .tcp (some 11))] ?_
    decide
  obtain ⟨tr₀, s, hrun₀, ⟨hon, hopen, hnil⟩, hany⟩ := hrun₀
  have hrun : ∃ tr t, Run (step .small) (fun u b => (Allowed .small u b ∧
      ConnectsAtZero .small u b) ∧ (u.connections 0).isActive = true) s tr t ∧
      (t.connections 0).isActive = true ∧ tr.flatMap (queuedBytes 0 0) = [1, 2, 3] :=
    Run.exists_of_replay _ hany
  obtain ⟨tr, t, hrun, hact, hqueued⟩ := hrun
  obtain ⟨-, hstream, -⟩ := stream_of_run hrun₀ hon hopen hrun hact
  refine ⟨tr₀, s, tr, t, hrun₀, hrun, hnil, hqueued, ?_⟩
  rw [hstream, hnil, hqueued, List.nil_append]

end Xtcp
