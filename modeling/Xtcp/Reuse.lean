import Xtcp.Accept

/-!
# Slots that are used again

`shim_close_socket` gives the control block of a slot to `tcp_close` and releases the slot.
It leaves the argument of the control block as it is.  While lwIP brings the connection to
its end the control block can still raise callbacks, with the index of a slot that may
belong to somebody else by then.

## Main definitions

* `takes` — the slot an action takes.
* `TakesSilent` — no slot is taken while the control block that was closed in it can still
  raise callbacks for it.
* `ClosedSparesOwner` — the next owner of a slot never notices that control block.

## Main results

* `closed_spares_owner` — **callbacks of a closed connection leave the next owner of its slot
  alone, if no slot is taken while they can come**.
-/

namespace Xtcp

open Runs

variable {cfg : Config} {s s' : Server}

/-- The slot an action takes.  `socket` takes the slot it finds even if lwIP then has no
control block for it; an accept gives its slot back when the event cannot be queued. -/
def takes (cfg : Config) (s : Server) : Action → Option ℤ
  | .call _ (.socket _ _) => s.table.freeSlot cfg
  | .happens (.tcpEvent _ arg .accept) =>
    if cfg.InRange arg ∧ (s.connections arg).protocol = .tcp ∧
      HasRoom cfg s.queue (s.connections arg).clientNum then s.table.freeSlot cfg else none
  | _ => none

/-- No slot is taken while there is a control block that was closed in it and still has its
index for argument. -/
def TakesSilent (cfg : Config) (s : Server) (a : Action) : Prop :=
  ∀ k, takes cfg s a = some k → ∀ p b, s.tcp p = some b → b.status = .closing k →
    b.callbackArg ≠ k

theorem TakesSilent.tcp_ne {a : Action} (h : TakesSilent cfg s a) {k : ℤ}
    (hk : takes cfg s a = some k) (p : Ptr) : s.table.tcp p ≠ some ⟨k, .closing k⟩ := by
  intro hp
  simp only [Server.table, Option.map_eq_some_iff] at hp
  obtain ⟨b, hb, hbr⟩ := hp
  exact h k hk p b hb (congrArg Route.status hbr) (congrArg Route.arg hbr)

/-- A released slot is not active, and the others are as before. -/
theorem release_isActive {T : Table} {j k : ℤ} (h : (T.slot k).isActive = false) :
    ((T.release cfg j).slot k).isActive = false := by
  rw [Table.release_slot]
  split
  · rfl
  · exact h

/-- **A slot becomes active only when it is taken.** -/
theorem isActive_step (hcur : s.table.CursorOk cfg) {a : Action} {r : Reply} {T' : Table}
    (hstep : TableStep cfg s.table a r T')
    (hroom : ∀ n arg, a = .happens (.tcpEvent n arg .accept) → r = .err .ok →
      HasRoom cfg s.queue (s.connections arg).clientNum) {k : ℤ} (hk : takes cfg s a ≠ some k)
    (h : (s.table.slot k).isActive = false) : (T'.slot k).isActive = false := by
  have hne : ∀ {j}, takes cfg s a = some j → k ≠ j := by
    rintro j hj rfl
    exact hk hj
  cases hstep with
  | quiet | connect | syn | reap => exact h
  | socketNull _ _ hfree => rwa [Table.assign_slot, if_neg (hne hfree)]
  | socketNone _ hfree => rwa [Table.assign_slot, if_neg (hne hfree)]
  | socketUdp _ hfree =>
    rwa [Table.store_slot, if_neg (hne hfree), Table.setUdp_slot, Table.assign_slot,
      if_neg (hne hfree)]
  | socketTcp _ hfree =>
    rwa [Table.store_slot, if_neg (hne hfree), Table.setTcp_slot, Table.assign_slot,
      if_neg (hne hfree)]
  | close =>
    refine release_isActive ?_
    rwa [Table.closePcb_slot]
  | @listen i j =>
    rw [Table.store_slot]
    split
    · next hkj => subst hkj; exact h
    · exact h
  | @clientData i j =>
    rw [Table.setSlot_slot]
    split
    · next hkj => subst hkj; exact h
    · exact h
  | @accepted l n arg j hn harg hproto hfree =>
    have htakes : takes cfg s (.happens (.tcpEvent n arg .accept)) = some j := by
      simp only [takes]
      rw [if_pos ⟨harg, hproto, hroom n arg rfl rfl⟩, hfree]
    have hkj := hne htakes
    rwa [Table.setTcp_slot, Table.store_slot, if_neg hkj, Table.assign_slot, if_neg hkj]
  | @acceptAborted l n arg j hn harg hproto hfree =>
    -- the slot it gets is released again
    by_cases hkj : k = j
    · rw [hkj, Table.release_slot, if_pos ⟨rfl, (Table.freeSlot_some hcur hfree).1⟩]
      rfl
    · refine release_isActive ?_
      rwa [Table.setTcp_slot, Table.store_slot, if_neg hkj, Table.assign_slot, if_neg hkj]
  | acceptRefused | err => exact release_isActive h

/-- A slot is not active while there is a control block that was closed in it and still has
its index for argument. -/
def Silent (T : Table) : Prop :=
  ∀ p k, T.tcp p = some ⟨k, .closing k⟩ → (T.slot k).isActive = false

namespace Silent

variable {T T' : Table}

/-- Writing a control block that is not being closed. -/
theorem of_setTcp {q : Ptr} {r : Option Route} (hr : ∀ k, r ≠ some ⟨k, .closing k⟩) {p : Ptr} {k :
    ℤ}
    (h : (T.setTcp q r).tcp p = some ⟨k, .closing k⟩) : T.tcp p = some ⟨k, .closing k⟩ := by
  rw [Table.setTcp_tcp] at h
  split at h
  · exact absurd h (hr k)
  · exact h

/-- A control block was closed in its slot before, or has been closed now. -/
theorem of_step {a : Action} {r : Reply} (hstep : TableStep cfg T a r T') {p : Ptr} {k : ℤ}
    (hp : T'.tcp p = some ⟨k, .closing k⟩) :
    T.tcp p = some ⟨k, .closing k⟩ ∨ (T'.slot k).isActive = false := by
  cases hstep with
  | quiet | socketNull | socketNone | socketUdp | clientData => exact .inl hp
  | @socketTcp i q j =>
    exact .inl (of_setTcp (T := T.assign j i .tcp) (by simp) hp)
  | @close i call j lingers r hcall hi hown =>
    rw [Table.release_tcp] at hp
    rcases Table.closePcb_tcp (T := T) j lingers p with heq | ⟨-, -, heq⟩
    · rw [heq] at hp
      exact .inl hp
    · -- the control block closed just now was closed in slot `j`
      rw [heq, Option.bind_eq_some_iff] at hp
      obtain ⟨route, -, hclose⟩ := hp
      unfold Route.close at hclose
      split at hclose
      · cases hclose
        right
        rw [Table.release_slot, if_pos ⟨rfl, hown.1⟩]
        rfl
      · cases hclose
  | listen =>
    rw [Table.store_tcp] at hp
    exact .inl (of_setTcp (by simp) (of_setTcp (by simp) hp))
  | connect | syn | reap => exact .inl (of_setTcp (by simp) hp)
  | @accepted l n arg j =>
    exact .inl (of_setTcp (T := (T.assign j (T.slot arg).clientNum .tcp).store j (.tcp n))
      (by simp) hp)
  | @acceptAborted l n arg j =>
    rw [Table.release_tcp] at hp
    exact .inl (of_setTcp (T := (T.assign j (T.slot arg).clientNum .tcp).store j (.tcp n))
      (by simp) hp)
  | acceptRefused | err =>
    rw [Table.release_tcp] at hp
    exact .inl (of_setTcp (by simp) hp)

/-- **Every step keeps the slots of closed control blocks free**, when no such slot is
taken. -/
theorem step (h : Silent s.table) (hcur : s.table.CursorOk cfg) {a : Action} {r : Reply}
    (hstep : TableStep cfg s.table a r T') (hsilent : TakesSilent cfg s a)
    (hroom : ∀ n arg, a = .happens (.tcpEvent n arg .accept) → r = .err .ok →
      HasRoom cfg s.queue (s.connections arg).clientNum) : Silent T' := by
  intro p k hp
  rcases of_step hstep hp with hold | hreleased
  · exact isActive_step hcur hstep hroom (fun hk => hsilent.tcp_ne hk p hold) (h p k hold)
  · exact hreleased

end Silent

/-- An accept that succeeds has found room for its event. -/
theorem room_of_accept (hT : TableOk cfg s.table) (hq : QueueOk cfg s.queue) {n : Ptr} {arg : ℤ}
    (hok : HappeningAllowed s (.tcpEvent n arg .accept))
    (h : step cfg s (.happens (.tcpEvent n arg .accept)) = .ok (s', .err .ok)) :
    HasRoom cfg s.queue (s.connections arg).clientNum := by
  obtain ⟨t, e, t', ht, hstep, hcases⟩ := accept_step hT.cursor hok
  obtain ⟨-, rfl⟩ : t' = s' ∧ e = .ok := by simpa using hstep.symm.trans h
  obtain ⟨k, harg, hproto, hfree, -⟩ | ⟨he, -⟩ := hcases
  · by_contra hfull
    cases (accept_queues hT hq hok harg hproto hfree ht).2 hfull
  · cases he

theorem RunsTo.silent {tr : List (Action × Reply)} {s : Server}
    (hrun : RunsTo cfg (TakesSilent cfg) tr s) : Silent s.table := by
  have hinv : TableOk cfg s.table ∧ EventsOk cfg s.queue ∧ Silent s.table := by
    refine Run.invariant
      (I := fun s => TableOk cfg s.table ∧ EventsOk cfg s.queue ∧ Silent s.table) hrun
      ⟨tableOk_init, eventsOk_init, fun p k hp => by cases hp⟩ ?_
    rintro u a v r ⟨hT, hq, hS⟩ ⟨hok, hsilent⟩ hs
    have hstep := step_table hT.cursor hok hs
    refine ⟨hT.step hstep, eventsOk_step hq hs, hS.step hT.cursor hstep hsilent ?_⟩
    rintro n arg rfl rfl
    exact room_of_accept hT hq.queueOk hok hs
  exact hinv.2.2

/-! ### Callbacks of closed control blocks -/

/-- A control block that is being closed accepts nothing, and delivers nothing. -/
theorem raises_closing {k : ℤ} {callback : TcpCallback} (hraises : Raises s (.closing k) callback) :
    callback ≠ .accept ∧ ∀ cells, callback = .recv cells → cells = [] := by
  cases callback with
  | accept => cases hraises
  | recv cells =>
    obtain ⟨-, rfl⟩ := hraises
    exact ⟨by simp, by simp⟩
  | _ => exact ⟨by simp, by simp⟩

/-- A callback other than an accept changes no slot but the one it is raised for. -/
theorem slot_of_ne {T T' : Table} {p : Ptr} {arg : ℤ} {callback : TcpCallback} {r : Reply}
    (hne : callback ≠ .accept)
    (hstep : TableStep cfg T (.happens (.tcpEvent p arg callback)) r T') {k : ℤ} (hk : arg ≠ k) :
    T'.slot k = T.slot k := by
  generalize ha : Action.happens (.tcpEvent p arg callback) = a at hstep
  cases hstep with
  | quiet => rfl
  | err =>
    cases ha
    rw [Table.release_slot, if_neg fun h => hk h.1.symm, Table.setTcp_slot]
  | accepted | acceptAborted | acceptRefused => cases ha; exact absurd rfl hne
  | _ => cases ha

/-- Along the histories whose steps meet `C`: where a control block that was closed in slot
`k` still exists, and slot `k` has been taken again, any callback of the control block
returns, changes nothing in slot `k`, and queues no event with id `k`. -/
def ClosedSparesOwner (cfg : Config) (C : Server → Action → Prop) : Prop :=
  ∀ (tr : List (Action × Reply)) (t : Server) (p : Ptr) (k arg : ℤ) (callback : TcpCallback),
    RunsTo cfg C tr t → pcbStatus t p = some (.closing k) → (t.connections k).isActive = true →
    Allowed cfg t (.happens (.tcpEvent p arg callback)) →
    ∃ t' r, step cfg t (.happens (.tcpEvent p arg callback)) = .ok (t', r) ∧
      t'.connections k = t.connections k ∧
      ∀ c, contents cfg t'.queue c = contents cfg t.queue c ∨
        ∃ e id, id ≠ k ∧ contents cfg t'.queue c = contents cfg t.queue c ++ [⟨e, id⟩]

/-- **Callbacks of a closed connection leave the next owner of its slot alone**, if no slot
is taken while they can come. -/
theorem closed_spares_owner (cfg : Config) : ClosedSparesOwner cfg (TakesSilent cfg) := by
  intro tr t p k arg callback hrun hclosing hact hok
  obtain ⟨status, hp, hraises⟩ := tcpEvent_route hok
  obtain rfl : status = .closing k := by
    obtain ⟨arg', hp'⟩ := table_tcp_of_pcbStatus hclosing
    exact congrArg Route.status (Option.some.inj (hp.symm.trans hp'))
  -- a control block with argument `k` would have kept the slot free
  have harg : arg ≠ k := by
    rintro rfl
    have hfree : (t.connections arg).isActive = false := hrun.silent p arg hp
    rw [hfree] at hact
    cases hact
  obtain ⟨hne, hcells⟩ := raises_closing hraises
  obtain ⟨t', r, hstep⟩ := stepTcp_returns hrun.tableOk.cursor hok hcells
  have htab := step_table hrun.tableOk.cursor hok hstep
  refine ⟨t', r, hstep, ?_, fun c => ?_⟩
  · exact ConnectionEntry.eq_of_slot (slot_of_ne hne htab harg)
      ((keepsRx_stepTcp hcells hstep).head k)
  · rcases (queues_stepTcp hne hstep).contents hrun.eventsOk.queueOk c with h | ⟨-, e, h⟩
    · exact .inl h
    · exact .inr ⟨e, arg, harg, h⟩

/-- Client 0 connects and closes slot 0; client 1 gets slot 0, and loses it when lwIP gives
up the old connection. -/
theorem late_error_frees_next_owner : ¬ ClosedSparesOwner .small fun _ _ => True := by
  intro hspares
  have hrun : ∃ tr t, RunsTo .small (fun _ _ => True) tr t ∧
      pcbStatus t 10 = some (.closing 0) ∧ (t.connections 0).isActive = true ∧
      (t.connections 0).clientNum = 1 ∧
      Allowed .small t (.happens (.tcpEvent 10 0 (.err .abrt))) ∧
      (step .small t (.happens (.tcpEvent 10 0 (.err .abrt)))).toOption.any (fun q => decide
        ((q.1.connections 0).isActive = false)) = true := by
    refine Run.exists_of_replay [.call 0 (.socket .tcp (some 10)),
      .call 0 (.connect 0 80 {} .ok), .call 0 (.close 0 true),
      .call 1 (.socket .tcp (some 11)), .call 1 (.socket .tcp (some 12))] ?_
    decide
  obtain ⟨tr, t, hrun, hclosing, hact, -, hok, hany⟩ := hrun
  obtain ⟨t', r, hstep, hsame, -⟩ := hspares tr t 10 0 0 (.err .abrt) hrun hclosing hact hok
  rw [hstep] at hany
  have hinact : (t'.connections 0).isActive = false := of_decide_eq_true hany
  rw [hsame, hact] at hinact
  cases hinact

end Xtcp
