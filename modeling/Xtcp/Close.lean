import Xtcp.RxRuns

/-!
# Closing a socket

`shim_close_socket` first removes the events of the connection from the queue of the client.
It goes by the id of an event alone.  The events that have no connection carry an id too: a
fixed 0 when the link goes up or down, and an error code when a DNS request ends, where
`XTCP_SUCCESS` is 0 and all others are negative.  To the queue these are events of slot 0.

## Main definitions

* `DiscardsOwn` — the events of one connection have been removed, and no others.
* `QueueClear` — no event without a connection passes for one of slot `id`.

## Main results

* `close_discards_own_iff` — **closing a socket removes the events of its connection and no
  others exactly when no event without a connection passes for one of them**.
-/

namespace Xtcp

open Runs

variable {cfg : Config} {s s' : Server}

/-- The events of connection `id` have been removed from the queue of client `c`; the events
without a connection are all there, whatever their id is, and the order is the same. -/
def DiscardsOwn (cfg : Config) (s s' : Server) (c : ℕ) (id : ℤ) : Prop :=
  contents cfg s'.queue c
    = (contents cfg s.queue c).filter fun e => e.xtcpEvent.connectionless || e.notFor id

/-- The slot is not slot 0, or client `c` has no event without a connection that carries
id 0. -/
def QueueClear (cfg : Config) (s : Server) (c : ℕ) (id : ℤ) : Prop :=
  id ≠ 0 ∨ ∀ e ∈ contents cfg s.queue c, e.xtcpEvent.connectionless = true → e.id ≠ 0

instance (c : ℕ) (id : ℤ) : Decidable (QueueClear cfg s c id) := by
  unfold QueueClear
  infer_instance

/-- The queues after a socket has been closed. -/
theorem contents_close (hq : EventsOk cfg s.queue) {c : ℕ} {id : ℤ} {lingers : Bool}
    (hown : s.table.OwnedBy cfg c id) (h : shimCloseSocket cfg s c id lingers = .ok s') (d : ℕ) :
    contents cfg s'.queue d = if d = c then (contents cfg s.queue c).filter (ClientEvent.notFor id)
      else contents cfg s.queue d := by
  rw [queue_close hown h]
  exact contents_free_all hq c id d

/-- The purge goes by the id alone. -/
theorem discardsOwn_iff (hq : EventsOk cfg s.queue) {c : ℕ} {id : ℤ} {lingers : Bool}
    (hown : s.table.OwnedBy cfg c id) (h : shimCloseSocket cfg s c id lingers = .ok s') :
    DiscardsOwn cfg s s' c id ↔ QueueClear cfg s c id := by
  unfold DiscardsOwn
  rw [contents_close hq hown h, if_pos rfl]
  constructor
  · intro heq
    by_contra hclear
    simp only [QueueClear, not_or, not_not] at hclear
    obtain ⟨rfl, hclear⟩ := hclear
    push Not at hclear
    obtain ⟨e, he, hconnless, hid⟩ := hclear
    -- the event has gone, and should not have
    have hmem : e ∈ (contents cfg s.queue c).filter fun e => e.xtcpEvent.connectionless || e.notFor
      0 :=
      List.mem_filter.mpr ⟨he, by rw [hconnless, Bool.true_or]⟩
    rw [← heq] at hmem
    exact ClientEvent.notFor_eq_true.mp (List.mem_filter.mp hmem).2 hid
  · intro hclear
    refine List.filter_congr fun e he => ?_
    cases hconnless : e.xtcpEvent.connectionless with
    | false => rw [Bool.false_or]
    | true =>
      rw [Bool.true_or, ClientEvent.notFor_eq_true]
      rcases hclear with hid | hclear
      · -- the id of the slot is positive, that of the event is not
        have hle := hq.id_le c e he hconnless
        have hnonneg := hown.1.1
        omega
      · rintro rfl
        have hle := hq.id_le c e he hconnless
        have hnonneg := hown.1.1
        exact hclear e he hconnless (by omega)

/-- **Closing a socket removes the events of its connection and no others exactly when no event
without a connection passes for one of them.**  It touches no other client's queue; and it does
return, along a history in which the received data is intact. -/
theorem close_discards_own_iff (cfg : Config) :
    (∀ s, Reachable cfg s → ∀ c id lingers s', s.table.OwnedBy cfg c id →
      shimCloseSocket cfg s c id lingers = .ok s' →
      (DiscardsOwn cfg s s' c id ↔ QueueClear cfg s c id) ∧
        ∀ d, d ≠ c → contents cfg s'.queue d = contents cfg s.queue d) ∧
    ∀ tr s, RunsTo cfg (UdpHasRoom cfg) tr s → ∀ c id lingers,
      ∃ s', shimCloseSocket cfg s c id lingers = .ok s' := by
  constructor
  · intro s hs c id lingers s' hown h
    refine ⟨discardsOwn_iff hs.eventsOk hown h, fun d hd => ?_⟩
    rw [contents_close hs.eventsOk hown h, if_neg hd]
  · intro tr s hrun c id lingers
    obtain ⟨-, -, ch, hrx⟩ := hrun.rxInv
    obtain ⟨s', -, h, -⟩ := hrx.close cfg c id lingers
    exact ⟨s', h⟩

/-- Client 0 has a socket in slot 0, and has not read yet that the interface is up, when it closes
the socket. -/
theorem close_discards_link_event : ¬ ∀ s, Reachable .small s → ∀ c id lingers s',
    s.table.OwnedBy .small c id → shimCloseSocket .small s c id lingers = .ok s' →
    DiscardsOwn .small s s' c id := by
  intro hdiscards
  have hrun : ∃ tr s, RunsTo .small (fun _ _ => True) tr s ∧
      (Config.small.InRange 0 ∧ (s.connections 0).clientNum = 0) ∧
      contents .small s.queue 0 = [⟨.ifup, 0⟩] ∧
      (shimCloseSocket .small s 0 0 false).toOption.any (fun s' => decide
        (contents .small s'.queue 0 = [])) = true := by
    refine Run.exists_of_replay
      [.call 0 (.socket .tcp (some 10)), .happens (.timeout 0 true true)] ?_
    decide
  obtain ⟨tr, s, hrun, hown, hcontents, hany⟩ := hrun
  cases hclose : shimCloseSocket .small s 0 0 false with
  | error e => rw [hclose] at hany; cases hany
  | ok s' =>
    rw [hclose] at hany
    have hempty : contents .small s'.queue 0 = [] := of_decide_eq_true hany
    have hown := hdiscards s ⟨tr, hrun⟩ 0 0 false s' hown hclose
    rw [DiscardsOwn, hempty, hcontents] at hown
    exact absurd hown (by decide)

end Xtcp
