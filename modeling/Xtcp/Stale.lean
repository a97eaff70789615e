import Xtcp.Stamps

/-!
# The events of a dead socket

A socket ends when its client closes it, which removes its events from the client's queue; or
when lwIP reports an error for it, which removes nothing.  In the second case its events wait in
the queue with the number of the slot, and the slot can be handed out again before they have been
read.  And a control block that has outlived its socket can still raise callbacks with the number
of the slot, whoever has it by then.

Whose event an event is, the stamps of `Xtcp.Stamps` say.

The error itself is the last event of a socket.  The slot is released whether or not it can be
reported.

## Main definitions

* `NoStaleEvent` — once a slot has been handed out, `get_event` returns no event of a socket that
  had it before.
* `TakesAlone` — no slot is taken while lwIP can still call back for a socket that had it before.
* `GrantsClean` — a slot that lwIP has released is handed out with no event of its number pending.
* `Stamps.Sound` — what the two conditions keep.
* `TellsOwner` — the owner of a slot has its last event in the queue.

## Main results

* `closed_leaves_nothing` — **a socket that its owner closes leaves no event behind**.
* `no_stale_event` — **no event of a dead socket is delivered to its successor**, if lwIP is done
  with the one and its events have been read in case it failed.
* `error_tells_owner_iff` — **exactly when an error is reported**.
-/

namespace Xtcp

open Runs

variable {cfg : Config} {s s' : Server}

/-! ### Conditions -/

/-- A history with its stamps. -/
def StampedRun (cfg : Config) (C : Server × Stamps → Action → Prop) :
    Server × Stamps → List (Action × Reply) → Server × Stamps → Prop :=
  Run (withGhost (step cfg) (Stamps.after cfg)) fun x a => Allowed cfg x.1 a ∧ C x a

/-- No slot is taken while lwIP can call back, with its number, for a socket that had it before. -/
def TakesAlone (cfg : Config) (x : Server × Stamps) (a : Action) : Prop :=
  ∀ k, takes cfg x.1 a = some k → ∀ b m, CallsBack x.1 k b → x.2.socketOf b ≠ some ⟨k, m⟩

/-- A slot that lwIP has released is handed out only when no client has an event of a connection
with its number pending. -/
def GrantsClean (cfg : Config) (x : Server × Stamps) (a : Action) : Prop :=
  ∀ k ∈ grants cfg x.1 a, x.2.failed k = true →
    ∀ c < cfg.nXtcp, ∀ e ∈ contents cfg x.1.queue c, e.concerns k = false

instance (x : Server × Stamps) (a : Action) : Decidable (GrantsClean cfg x a) :=
  inferInstanceAs (Decidable (∀ _ ∈ _, _ → ∀ _ < _, ∀ _ ∈ _, _))

/-- No stale event is returned along the histories whose steps meet `C`: once slot `k` has been
handed out, every event of connection `k` that `get_event` returns was queued in that step or
later, and was not raised by a control block of a socket that had the slot before. -/
def NoStaleEvent (cfg : Config) (C : Server × Stamps → Action → Prop) : Prop :=
  ∀ tr s g, StampedRun cfg C (init cfg, .init) tr (s, g) →
    ∀ a s' r k, Allowed cfg s a → C (s, g) a → step cfg s a = .ok (s', r) → HandsOut k s s' a r →
    ∀ tr' t g', StampedRun cfg C (s', g.after cfg s a s') tr' (t, g') →
    ∀ c t' e, step cfg t (.call c .getEvent) = .ok (t', .event e) → e.concerns k = true →
      ∃ o, (g'.pending c).head? = some (e, o) ∧ o.Since k g.now

/-! ### What the conditions keep -/

namespace Stamps

variable {g : Stamps} {a : Action} {r : Reply} {k : ℤ}

/-- The stamps are those of the events, no control block of an earlier socket calls back for an
active slot, and the events of a slot that lwIP has not released are pending for its owner. -/
structure Sound (cfg : Config) (s : Server) (g : Stamps) : Prop where
  /-- The table has the right shape. -/
  table : TableOk cfg s.table
  /-- So have the queues. -/
  events : EventsOk cfg s.queue
  /-- The stamps are those of the events in the queues. -/
  faithful : g.Faithful cfg s
  /-- No slot has been handed out later than now. -/
  since_le : ∀ k, g.since k ≤ g.now
  /-- The control blocks that call back for an active slot are not those of earlier sockets. -/
  alone : ∀ k x m, CallsBack s k x → g.socketOf x = some ⟨k, m⟩ →
    (s.connections k).isActive = true → g.since k ≤ m
  /-- Events are pending for attached clients, and for the owner unless lwIP has released the
  slot. -/
  owned : ∀ k c, ∀ e ∈ contents cfg s.queue c, e.concerns k = true →
    c < cfg.nXtcp ∧ (g.failed k = false → s.table.OwnedBy cfg c k)

theorem sound_init : Sound cfg (Xtcp.init cfg) init where
  table := tableOk_init
  events := eventsOk_init
  faithful := faithful_init
  since_le := fun _ => le_rfl
  alone := fun k x m _ hsocket _ => by cases hsocket
  owned := fun k c e he _ => by
    rw [← faithful_init c] at he
    cases he

/-- Nothing of connection `k` is pending when slot `k` is handed out. -/
theorem Sound.clean (h : Sound cfg s g) (hclean : GrantsClean cfg (s, g) a)
    (hk : grants cfg s a = some k) (c : ℕ) :
    ∀ e ∈ contents cfg s.queue c, e.concerns k = false := by
  intro e he
  by_contra hconcerns
  obtain ⟨hc, hown⟩ := h.owned k c e he (by simpa using hconcerns)
  cases hfailed : g.failed k with
  | true => exact hconcerns (hclean k hk hfailed c hc e he)
  | false =>
    have hinactive : (s.table.slot k).isActive = false := (inactive_of_grants h.table hk).2
    rw [h.table.active_of_owned hc (hown hfailed)] at hinactive
    cases hinactive

/-- A slot that is active after a step and is not taken was active before. -/
theorem Sound.active_or_takes (h : Sound cfg s g) (hok : Allowed cfg s a)
    (hs : step cfg s a = .ok (s', r)) (hact : (s'.connections k).isActive = true) :
    (s.connections k).isActive = true ∨ takes cfg s a = some k := by
  by_contra hcon
  rw [not_or, Bool.not_eq_true] at hcon
  have hinactive : (s'.connections k).isActive = false := by
    refine isActive_step h.table.cursor (step_table h.table.cursor hok hs) ?_ hcon.2 hcon.1
    rintro n arg rfl rfl
    exact room_of_accept h.table h.events.queueOk hok hs
  rw [hact] at hinactive
  cases hinactive

/-- A step that starts no control block leaves the sockets of those there are. -/
theorem socketAfter_of_not_started (hstarted : started cfg s a = none)
    (hsyn : ∀ l n, a ≠ .happens (.syn l n)) (x : Block) :
    g.socketAfter cfg s a x = g.socketOf x := by
  unfold socketAfter
  split
  · next l n => exact absurd rfl (hsyn l n)
  · rw [hstarted]

/-- The socket of a control block that is started is the one that has the slot now. -/
theorem socketAfter_of_started {x : Block} {j : ℤ} (hstarted : started cfg s a = some (x, j)) :
    g.socketAfter cfg s a x = some ⟨j, g.sinceAfter cfg s a j⟩ := by
  unfold socketAfter
  split
  · cases hstarted
  · rw [hstarted]
    exact if_pos rfl

/-- The socket of a control block after a step: that of the listening control block, the one that
has the slot now, or the one it had. -/
theorem socketAfter_cases {x : Block} {m : ℕ} (h : g.socketAfter cfg s a x = some ⟨k, m⟩) :
    (∃ l n, a = .happens (.syn l n) ∧ x = .tcp n ∧ g.socketOf (.tcp l) = some ⟨k, m⟩) ∨
      started cfg s a = some (x, k) ∧ m = g.sinceAfter cfg s a k ∨
      (∀ j, started cfg s a ≠ some (x, j)) ∧ (∀ l n, a = .happens (.syn l n) → x ≠ .tcp n) ∧
        g.socketOf x = some ⟨k, m⟩ := by
  unfold socketAfter at h
  split at h
  · next l n =>
    split at h
    · next hx => exact .inl ⟨l, n, rfl, hx, h⟩
    · next hx =>
      refine .inr (.inr ⟨fun j hj => (by cases hj), ?_, h⟩)
      rintro l' n' ⟨⟩
      exact hx
  · next hsyn =>
    split at h
    · next y j hstarted =>
      split at h
      · next hx =>
        subst hx
        cases h
        exact .inr (.inl ⟨hstarted, rfl⟩)
      · next hx =>
        refine .inr (.inr ⟨fun i hi => ?_, fun l n ha => absurd ha (hsyn l n), h⟩)
        rw [hstarted] at hi
        cases hi
        exact hx rfl
    · next hnone =>
      refine .inr (.inr ⟨fun i hi => ?_, fun l n ha => absurd ha (hsyn l n), h⟩)
      rw [hnone] at hi
      cases hi

/-- **A step keeps the control blocks of earlier sockets away from active slots**, if no slot is
taken while they can call back. -/
theorem Sound.alone_step (h : Sound cfg s g) (hok : Allowed cfg s a)
    (halone : TakesAlone cfg (s, g) a) (hs : step cfg s a = .ok (s', r)) {x : Block} {m : ℕ}
    (hx : CallsBack s' k x) (hsocket : g.socketAfter cfg s a x = some ⟨k, m⟩)
    (hact : (s'.connections k).isActive = true) : g.sinceAfter cfg s a k ≤ m := by
  -- where an old control block of the slot called back before, the slot was not taken
  have hold : ∀ y, CallsBack s k y → g.socketOf y = some ⟨k, m⟩ → g.sinceAfter cfg s a k ≤ m := by
    intro y hy hysocket
    have hnot : takes cfg s a ≠ some k := fun htakes => halone k htakes y m hy hysocket
    have hsince : g.sinceAfter cfg s a k = g.since k :=
      if_neg fun hgrants => hnot (takes_of_grants hgrants)
    rw [hsince]
    exact h.alone k y m hy hysocket ((h.active_or_takes hok hs hact).resolve_right hnot)
  rcases socketAfter_cases hsocket with ⟨l, n, rfl, rfl, hl⟩ | ⟨-, rfl⟩ | ⟨hnot, hsyn, hkept⟩
  · rcases callsBack_step h.table h.events.queueOk hok hs hx with hx | ⟨j, hj⟩ | ⟨l', n', ha, -, hx⟩
    · -- the new control block was not there before
      obtain ⟨status, hp, -⟩ := hx
      have hfresh : s.table.tcp n = none := by simp [Server.table, hok.2.1]
      rw [hfresh] at hp
      cases hp
    · cases hj
    · cases ha
      exact hold _ hx hl
  · exact le_rfl
  · rcases callsBack_step h.table h.events.queueOk hok hs hx with hx | ⟨j, hj⟩ | ⟨l, n, ha, hxn, -⟩
    · exact hold x hx hkept
    · exact absurd hj (hnot j)
    · exact absurd hxn (hsyn l n ha)

/-- A slot with an owner stays with it for as long as it is active. -/
theorem Sound.ownedBy_step (h : Sound cfg s g) (hok : Allowed cfg s a)
    (hs : step cfg s a = .ok (s', r)) {c : ℕ} (hc : c < cfg.nXtcp) (hown : s.table.OwnedBy cfg c k)
    (hact : (s'.connections k).isActive = true) : s'.table.OwnedBy cfg c k := by
  have hstep := step_table h.table.cursor hok hs
  refine ⟨hown.1, ?_⟩
  rcases h.table.slot_of_active hstep (h.table.active_of_owned hc hown) with
    ⟨-, hsame, -⟩ | ⟨-, hreleased, -⟩
  · exact hsame.trans hown.2
  · have hact : (s'.table.slot k).isActive = true := hact
    rw [hreleased] at hact
    cases hact

/-- What a client has pending for a slot of its own is gone when a call releases the slot. -/
theorem Sound.owned_call (h : Sound cfg s g) {i : ℕ} {call : Call}
    (hok : Allowed cfg s (.call i call)) (hs : step cfg s (.call i call) = .ok (s', r)) {c : ℕ}
    {e : ClientEvent} (he : e ∈ contents cfg s'.queue c) (hid : e.id = k)
    (hown : s.table.OwnedBy cfg c k) (hc : c < cfg.nXtcp) : (s'.connections k).isActive = true := by
  have hcall := callQueues hs
  have hstep := step_table h.table.cursor hok hs
  have hact := h.table.active_of_owned hc hown
  rcases h.table.slot_of_active hstep hact with ⟨hactive, -⟩ | ⟨-, hreleased, lingers, hcloses⟩
  · exact hactive
  · -- the client itself has closed it, with all its events
    exfalso
    generalize s'.queue = q at hcall he
    cases hcall with
    | quiet _ hnot =>
      rcases hstep.eq_or_ownedBy hcloses with heq | howner
      · rw [heq] at hreleased
        rw [hreleased] at hact
        cases hact
      · exact hnot k lingers hcloses howner
    | getEvent => cases hcloses
    | @close _ j l hcloses' howner =>
      obtain rfl : j = k := Call.closes_inj hcloses' hcloses
      obtain rfl : i = c := howner.2.symm.trans hown.2
      rw [contents_free_all h.events, if_pos rfl, List.mem_filter, ClientEvent.notFor_eq_true] at he
      exact he.2 hid

/-- **A step keeps the events with the owners of their slots**, if a slot that lwIP has released
is handed out clean. -/
theorem Sound.owned_step (h : Sound cfg s g) (hok : Allowed cfg s a)
    (hclean : GrantsClean cfg (s, g) a) (hs : step cfg s a = .ok (s', r)) {c : ℕ} {e : ClientEvent}
    (he : e ∈ contents cfg s'.queue c) (hk : e.concerns k = true) :
    c < cfg.nXtcp ∧ (g.failedAfter cfg s a s' k = false → s'.table.OwnedBy cfg c k) := by
  have hid : e.id = k := by
    rw [ClientEvent.concerns, Bool.and_eq_true, decide_eq_true_eq] at hk
    exact hk.2
  -- where an event of the slot is pending, the slot is not handed out
  have hnot : ∀ {d}, e ∈ contents cfg s.queue d → grants cfg s a ≠ some k := by
    intro d hmem hgrants
    rw [h.clean hclean hgrants d e hmem] at hk
    cases hk
  cases a with
  | call i call =>
    have hmem := ((callQueues hs).sublist h.events c).mem he
    obtain ⟨hc, hown⟩ := h.owned k c e hmem hk
    refine ⟨hc, fun hfailed => ?_⟩
    rw [failedAfter, if_neg (hnot hmem)] at hfailed
    have hown := hown hfailed
    exact h.ownedBy_step hok hs hc hown (h.owned_call hok hs he hid hown hc)
  | happens happening =>
    -- lwIP has not released a slot that was active and is not failed
    have hactive : grants cfg s (.happens happening) ≠ some k →
        g.failedAfter cfg s (.happens happening) s' k = false →
        g.failed k = false ∧ ((s.connections k).isActive = true →
          (s'.connections k).isActive = true) := by
      intro hgrants hfailed
      rw [failedAfter, if_neg hgrants] at hfailed
      simpa using hfailed
    rw [contents_happens h.table h.events.queueOk hok hs, List.mem_append] at he
    rcases he with hmem | he
    · obtain ⟨hc, hown⟩ := h.owned k c e hmem hk
      refine ⟨hc, fun hfailed => ?_⟩
      obtain ⟨hbefore, hkept⟩ := hactive (hnot hmem) hfailed
      have hown := hown hbefore
      exact h.ownedBy_step hok hs hc hown (hkept (h.table.active_of_owned hc hown))
    · split at he
      · next hroom =>
        rcases raised_of_posts h.table hok he hroom hk with
          ⟨n, arg, rfl, hgrants, hown, hc⟩ | ⟨-, -, hown, hc⟩
        · have hclient : (s.connections arg).clientNum = c := hown.2
          refine ⟨hc, fun _ => ?_⟩
          rw [← hclient]
          exact ownedBy_of_accept h.table h.events.queueOk hok hgrants hs
        · refine ⟨hc, fun hfailed => ?_⟩
          have hact : (s.connections k).isActive = true := h.table.active_of_owned hc hown
          have hgrants : grants cfg s (.happens happening) ≠ some k := by
            intro hgrants
            rw [(inactive_of_grants h.table hgrants).2] at hact
            cases hact
          exact h.ownedBy_step hok hs hc hown ((hactive hgrants hfailed).2 hact)
      · cases he

/-- **Every step keeps the ghost sound** under the two conditions. -/
theorem Sound.step (h : Sound cfg s g) (hok : Allowed cfg s a) (halone : TakesAlone cfg (s, g) a)
    (hclean : GrantsClean cfg (s, g) a) (hs : Xtcp.step cfg s a = .ok (s', r)) :
    Sound cfg s' (g.after cfg s a s') where
  table := h.table.step (step_table h.table.cursor hok hs)
  events := eventsOk_step h.events hs
  faithful := h.faithful.after h.events (queueStep h.table h.events.queueOk hok hs)
  since_le := fun k => by
    show g.sinceAfter cfg s a k ≤ g.now + 1
    unfold sinceAfter
    split
    · exact Nat.le_succ _
    · exact Nat.le_succ_of_le (h.since_le k)
  alone := fun k x m hx hsocket hact => h.alone_step hok halone hs hx hsocket hact
  owned := fun k c e he hk => h.owned_step hok hclean hs he hk

/-! ### From the moment a slot is handed out -/

/-- Every pending event of connection `k` has been queued in step `n` or later, and not for a
socket that had slot `k` before. -/
structure Since (k : ℤ) (n : ℕ) (g : Stamps) : Prop where
  /-- Step `n` is over, or is the next one. -/
  now : n ≤ g.now
  /-- The slot has been handed out in step `n` or later. -/
  since : n ≤ g.since k
  /-- So have the pending events been queued. -/
  pending : ∀ c, ∀ x ∈ g.pending c, x.1.concerns k = true → x.2.Since k n

/-- What is pending after a step was pending before, or has just been posted. -/
theorem Sound.mem_after (h : Sound cfg s g) (hok : Allowed cfg s a)
    (hs : Xtcp.step cfg s a = .ok (s', r)) {c : ℕ} {x : ClientEvent × Origin}
    (hx : x ∈ (g.after cfg s a s').pending c) :
    x ∈ g.pending c ∨ ∃ happening, a = .happens happening ∧ HasRoom cfg s.queue c ∧
      x.1 ∈ postsTo cfg c s a ∧ x.2 = g.origin cfg s a := by
  have hlen : (g.pending c).length = (contents cfg s.queue c).length := by
    rw [← h.faithful c, List.length_map]
  cases a with
  | call i call =>
    left
    have hle : (contents cfg s'.queue c).length ≤ (g.pending c).length := by
      rw [hlen]
      exact ((callQueues hs).sublist h.events c).length_le
    simp only [after] at hx
    split at hx
    · split at hx
      · exact List.mem_of_mem_tail hx
      · exact hx
    · split at hx
      · exact (List.mem_filter.mp hx).1
      · exact hx
    · split at hx
      · exact (List.mem_filter.mp hx).1
      · exact hx
    · rwa [List.drop_eq_nil_of_le hle, List.map_nil, List.append_nil] at hx
  | happens happening =>
    have hx : x ∈ g.pending c ++ ((contents cfg s'.queue c).drop (g.pending c).length).map
      fun e => (e, g.origin cfg s (.happens happening)) := hx
    rw [contents_happens h.table h.events.queueOk hok hs, hlen, List.drop_left,
      List.mem_append] at hx
    rcases hx with hx | hx
    · exact .inl hx
    · obtain ⟨e, he, rfl⟩ := List.mem_map.mp hx
      split at he
      · next hroom => exact .inr ⟨happening, rfl, hroom, he, rfl⟩
      · cases he

/-- The stamp of an event that a step posts about a connection: it is of the socket that has been
accepted, or of one whose control block calls back for an active slot. -/
theorem Sound.since_origin (h : Sound cfg s g) {happening : Happening}
    (hok : Allowed cfg s (.happens happening)) {c : ℕ} (hroom : HasRoom cfg s.queue c)
    {e : ClientEvent} (he : e ∈ postsTo cfg c s (.happens happening)) (hk : e.concerns k = true) :
    (g.origin cfg s (.happens happening)).Since k
      (g.sinceAfter cfg s (.happens happening) k) := by
  have hle : g.sinceAfter cfg s (.happens happening) k ≤ g.now := by
    unfold sinceAfter
    split
    · exact le_rfl
    · exact h.since_le k
  refine ⟨hle, fun m hm => ?_⟩
  rcases raised_of_posts h.table hok he hroom hk with
    ⟨n, arg, rfl, hgrants, -⟩ | ⟨⟨x, hraised, hx⟩, hstarted, hown, hc⟩
  · -- the connection has been accepted just now
    have hstarted : started cfg s (.happens (.tcpEvent n arg .accept)) = some (.tcp n, k) := by
      simp [started, hgrants]
    have hm : g.socketAfter cfg s (.happens (.tcpEvent n arg .accept)) (.tcp n) = some ⟨k, m⟩ := hm
    rw [socketAfter_of_started hstarted] at hm
    cases hm
    exact le_rfl
  · have hm : g.socketAfter cfg s (.happens happening) x = some ⟨k, m⟩ := by
      rw [← hm, origin, hraised]
      rfl
    have hsyn : ∀ l n, Action.happens happening ≠ .happens (.syn l n) := by
      rintro l n ⟨⟩
      cases hraised
    rw [socketAfter_of_not_started hstarted hsyn] at hm
    have hact : (s.connections k).isActive = true := h.table.active_of_owned hc hown
    have hgrants : grants cfg s (.happens happening) ≠ some k := by
      intro hgrants
      rw [(inactive_of_grants h.table hgrants).2] at hact
      cases hact
    rw [sinceAfter, if_neg hgrants]
    exact h.alone k x m hx hm hact

/-- A slot is handed out again later only. -/
theorem Sound.since_le_sinceAfter (h : Sound cfg s g) (a : Action) (k : ℤ) :
    g.since k ≤ g.sinceAfter cfg s a k := by
  unfold sinceAfter
  split
  · exact h.since_le k
  · exact le_rfl

/-- **No event of an earlier socket comes in later.** -/
theorem Since.after {n : ℕ} (hsince : Since k n g) (h : Sound cfg s g) (hok : Allowed cfg s a)
    (hs : Xtcp.step cfg s a = .ok (s', r)) : Since k n (g.after cfg s a s') where
  now := Nat.le_succ_of_le hsince.now
  since := hsince.since.trans (h.since_le_sinceAfter a k)
  pending := by
    intro c x hx hk
    rcases h.mem_after hok hs hx with hx | ⟨happening, rfl, hroom, he, ho⟩
    · exact hsince.pending c x hx hk
    · rw [ho]
      exact (h.since_origin hok hroom he hk).mono
        (hsince.since.trans (h.since_le_sinceAfter _ k))

/-- At the moment slot `k` is handed out there is nothing of an earlier socket. -/
theorem Sound.since_of_grants (h : Sound cfg s g) (hok : Allowed cfg s a)
    (hclean : GrantsClean cfg (s, g) a) (hgrants : grants cfg s a = some k)
    (hs : Xtcp.step cfg s a = .ok (s', r)) : Since k g.now (g.after cfg s a s') where
  now := Nat.le_succ _
  since := (if_pos hgrants).ge
  pending := by
    intro c x hx hk
    rcases h.mem_after hok hs hx with hx | ⟨happening, rfl, hroom, he, ho⟩
    · have hmem : x.1 ∈ contents cfg s.queue c := by
        rw [← h.faithful c]
        exact List.mem_map_of_mem hx
      rw [h.clean hclean hgrants c x.1 hmem] at hk
      cases hk
    · rw [ho]
      exact (h.since_origin hok hroom he hk).mono (if_pos hgrants).ge

end Stamps

/-! ### Histories -/

/-- What both conditions together keep, wherever the history starts. -/
theorem StampedRun.sound {x y : Server × Stamps} {tr : List (Action × Reply)}
    (hrun : StampedRun cfg (fun x a => TakesAlone cfg x a ∧ GrantsClean cfg x a) x tr y)
    (h0 : x.2.Sound cfg x.1) : y.2.Sound cfg y.1 := by
  refine Run.invariant (I := fun z : Server × Stamps => z.2.Sound cfg z.1) hrun h0 ?_
  rintro z a z' r hz ⟨hok, halone, hclean⟩ hs
  obtain ⟨hs, hnote⟩ := withGhost_eq_ok.mp hs
  rw [hnote]
  exact hz.step hok halone hclean hs

/-- The stamps of a history, whatever it does. -/
theorem StampedRun.faithful {C : Server × Stamps → Action → Prop} {y : Server × Stamps}
    {tr : List (Action × Reply)} (hrun : StampedRun cfg C (init cfg, .init) tr y) :
    y.2.Faithful cfg y.1 := by
  have hinv : TableOk cfg y.1.table ∧ EventsOk cfg y.1.queue ∧ y.2.Faithful cfg y.1 := by
    refine Run.invariant (I := fun z : Server × Stamps => TableOk cfg z.1.table ∧
      EventsOk cfg z.1.queue ∧ z.2.Faithful cfg z.1) hrun
      ⟨tableOk_init, eventsOk_init, Stamps.faithful_init⟩ ?_
    rintro z a z' r ⟨hT, hq, hg⟩ ⟨hok, -⟩ hs
    obtain ⟨hs, hnote⟩ := withGhost_eq_ok.mp hs
    rw [hnote]
    exact ⟨hT.step (step_table hT.cursor hok hs), eventsOk_step hq hs,
      hg.after hq (queueStep hT hq.queueOk hok hs)⟩
  exact hinv.2.2

/-- **A socket that its owner closes leaves no event behind**: in a slot that is not active, and
that lwIP has not released, no client has an event of the connection pending. -/
theorem closed_leaves_nothing {tr : List (Action × Reply)} {g : Stamps}
    (hrun : StampedRun cfg (fun x a => TakesAlone cfg x a ∧ GrantsClean cfg x a)
      (init cfg, .init) tr (s, g)) {k : ℤ} (hinactive : (s.connections k).isActive = false)
    (hclosed : g.failed k = false) (c : ℕ) :
    ∀ e ∈ contents cfg s.queue c, e.concerns k = false := by
  intro e he
  have hsound : g.Sound cfg s := hrun.sound Stamps.sound_init
  by_contra hconcerns
  obtain ⟨hc, hown⟩ := hsound.owned k c e he (by simpa using hconcerns)
  have hact : (s.connections k).isActive = true := hsound.table.active_of_owned hc (hown hclosed)
  rw [hinactive] at hact
  cases hact

/-- Client 0 closes slot 0, and lwIP brings the old connection to its end; client 1 gets the slot,
and then an event of the old connection.  No connection has failed. -/
theorem late_event_reaches_next_socket : ¬ NoStaleEvent .small (GrantsClean .small) := by
  intro hstale
  have hrun : ∃ tr x, StampedRun .small (GrantsClean .small) (init .small, .init) tr x ∧
      (Allowed .small x.1 (.call 1 (.socket .tcp (some 12))) ∧
        GrantsClean .small x (.call 1 (.socket .tcp (some 12)))) ∧ x.2.now = 4 ∧
      (step .small x.1 (.call 1 (.socket .tcp (some 12)))).toOption.any (fun q =>
        decide (q.2 = .int 0) &&
        (replay (withGhost (step .small) (Stamps.after .small))
          (fun x a => Allowed .small x.1 a ∧ GrantsClean .small x a)
          (q.1, x.2.after .small x.1 (.call 1 (.socket .tcp (some 12))) q.1)
          [.happens (.tcpEvent 10 0 .sent)]).any fun u =>
            decide ((u.2.2.pending 1).head? = some (⟨.sentData, 0⟩, ⟨5, some ⟨0, 0⟩⟩) ∧
              (getEvent .small u.2.1 1).2 = .event ⟨.sentData, 0⟩)) = true := by
    refine Run.exists_of_replay
      [.call 0 (.socket .tcp (some 10)), .call 0 (.connect 0 80 {} .ok),
        .call 0 (.close 0 true), .call 1 (.socket .tcp (some 11))] ?_
    decide
  obtain ⟨tr, ⟨s, g⟩, hrun, ⟨hok, hclean⟩, hnow, hany⟩ := hrun
  cases hs : step .small s (.call 1 (.socket .tcp (some 12))) with
  | error e => rw [hs] at hany; cases hany
  | ok q =>
    obtain ⟨s', r⟩ := q
    rw [hs] at hany
    simp only [Except.toOption, Option.any_some, Bool.and_eq_true, decide_eq_true_eq] at hany
    obtain ⟨rfl, hany⟩ := hany
    have hrun' : ∃ tr' y, StampedRun .small (GrantsClean .small)
        (s', g.after .small s (.call 1 (.socket .tcp (some 12))) s') tr' y ∧
        (y.2.pending 1).head? = some (⟨.sentData, 0⟩, ⟨5, some ⟨0, 0⟩⟩) ∧
        (getEvent .small y.1 1).2 = .event ⟨.sentData, 0⟩ := Run.exists_of_replay _ hany
    obtain ⟨tr', ⟨t, g'⟩, hrun', hhead, hget⟩ := hrun'
    obtain ⟨o, ho, -, hsince⟩ := hstale tr s g hrun _ s' _ 0 hok hclean hs ⟨rfl, le_rfl⟩ tr' t g'
      hrun' 1 (getEvent .small t 1).1 ⟨.sentData, 0⟩ (by rw [← hget]; rfl) rfl
    rw [hhead] at ho
    cases ho
    have hle : g.now ≤ 0 := hsince 0 rfl
    rw [hnow] at hle
    omega

/-! ### The last event -/

/-- Client `c` has the last event of connection `k` in its queue. -/
def TellsOwner (cfg : Config) (q : ClientQueue) (c : ℕ) (k : ℤ) : Prop :=
  ∃ e ∈ contents cfg q c, (e.xtcpEvent = .aborted ∨ e.xtcpEvent = .timedOut) ∧ e.id = k

instance (q : ClientQueue) (c : ℕ) (k : ℤ) : Decidable (TellsOwner cfg q c k) :=
  inferInstanceAs (Decidable (∃ e ∈ _, _))

/-- An error for slot `k` releases the slot, and its owner then has the last event of the
connection in its queue. -/
def ErrorTellsOwner (cfg : Config) (s : Server) (k : ℤ) (err : Err) : Prop :=
  ∃ s' r, lwipTcpEvent cfg s k none .err none err = .ok (s', r) ∧
    (s'.connections k).isActive = false ∧ TellsOwner cfg s'.queue (s.connections k).clientNum k

/-- The errors that `lwip_tcp_event` has an event for. -/
theorem errorEvent_eq_some_iff {err : Err} :
    (∃ e, errorEvent err = some e) ↔ err = .abrt ∨ err = .rst ∨ err = .clsd := by
  cases err <;> simp [errorEvent]

theorem tellsOwner_of_errorEvent {err : Err} {e : EventType} (h : errorEvent err = some e) :
    e = .aborted ∨ e = .timedOut := by
  cases err <;> simp [errorEvent] at h <;> subst h <;> simp

/-- The owner's queue after an error. -/
theorem tellsOwner_enqueueSome {q : ClientQueue} (hq : QueueOk cfg q) (c : ℕ) (k : ℤ) (err : Err) :
    TellsOwner cfg (enqueueSome cfg q c k (errorEvent err)) c k ↔
      ((err = .abrt ∨ err = .rst ∨ err = .clsd) ∧ HasRoom cfg q c) ∨ TellsOwner cfg q c k := by
  rw [← errorEvent_eq_some_iff]
  cases hev : errorEvent err with
  | none => simp [enqueueSome]
  | some e =>
    have hkind := tellsOwner_of_errorEvent hev
    by_cases hroom : HasRoom cfg q c
    · have hsucc := enqueue_success hq hroom.1 hroom.2 k e
      constructor
      · intro _
        exact .inl ⟨⟨e, rfl⟩, hroom⟩
      · intro _
        refine ⟨⟨e, k⟩, ?_, hkind, rfl⟩
        rw [enqueueSome, contents_enqueue hq hsucc, if_pos rfl]
        exact List.mem_append_right _ List.mem_cons_self
    · rw [enqueueSome, enqueue_of_not_room hq hroom]
      simp [hroom]

/-- **Exactly when an error is reported to the client that loses its connection**: when lwIP gives
one of the three errors the code knows and there is room in the client's queue, or when the client
has such an event of that connection in its queue already. -/
theorem error_tells_owner_iff {tr : List (Input × Reply)} (hfed : Fed cfg tr s) {k : ℤ}
    (hk : cfg.InRange k) (err : Err) :
    ErrorTellsOwner cfg s k err ↔
      ((err = .abrt ∨ err = .rst ∨ err = .clsd) ∧
        HasRoom cfg s.queue (s.connections k).clientNum) ∨
      TellsOwner cfg s.queue (s.connections k).clientNum k := by
  rw [← tellsOwner_enqueueSome hfed.eventsOk.queueOk]
  have herr : ∃ t e, lwipTcpEvent cfg s k none .err none err = .ok (t, e) ∧
      t.table = s.table.release cfg k := table_err s k err
  obtain ⟨t, e, ht, htab⟩ := herr
  have hclient : getClientInfo cfg s k = (s.connections k).clientNum := by
    rw [getClientInfo, if_pos hk]
  have hqueue : t.queue
      = enqueueSome cfg s.queue (s.connections k).clientNum k (errorEvent err) := by
    rw [queue_lwipTcpEvent (by decide) ht, hclient]
    rfl
  have hreleased : (t.connections k).isActive = false := by
    have hslot : t.table.slot k = .released := by
      rw [htab, Table.release_slot, if_pos ⟨rfl, hk⟩]
    exact congrArg Slot.isActive hslot
  constructor
  · rintro ⟨s', r, h, -, htells⟩
    obtain ⟨rfl, rfl⟩ : t = s' ∧ e = r := by simpa using ht.symm.trans h
    rw [← hqueue]
    exact htells
  · intro htells
    rw [← hqueue] at htells
    exact ⟨t, e, ht, hreleased, htells⟩

/-- An error is reported for slot 0, whose owner has room in its queue, but an error the code does
not know is not; and for slot 1, whose owner has a full queue, none is. -/
theorem error_tells_owner_iff_room : ∃ tr s, Fed .small tr s ∧
    (s.connections 0).isActive = true ∧ ErrorTellsOwner .small s 0 .rst ∧
    ¬ ErrorTellsOwner .small s 0 .timeout ∧ (s.connections 1).isActive = true ∧
    ¬ ErrorTellsOwner .small s 1 .rst := by
  have hrun : ∃ tr s, Fed .small tr s ∧ (s.connections 0).isActive = true ∧
      (s.connections 1).isActive = true ∧
      HasRoom .small s.queue (s.connections 0).clientNum ∧
      ¬ TellsOwner .small s.queue (s.connections 0).clientNum 0 ∧
      ¬ HasRoom .small s.queue (s.connections 1).clientNum ∧
      ¬ TellsOwner .small s.queue (s.connections 1).clientNum 1 := by
    refine Run.exists_of_replay
      [.call 0 (.socket .tcp (some 10)), .call 1 (.socket .tcp (some 11)),
        .tcpEvent 1 (some 11) .connected none .ok] ?_
    decide
  obtain ⟨tr, s, hrun, hact0, hact1, hroom, hnone, hfull, hnone1⟩ := hrun
  refine ⟨tr, s, hrun, hact0, ?_, ?_, hact1, ?_⟩
  · rw [error_tells_owner_iff hrun (by decide)]
    exact .inl ⟨by decide, hroom⟩
  · rw [error_tells_owner_iff hrun (by decide)]
    rintro (⟨herr, -⟩ | h)
    · revert herr; decide
    · exact hnone h
  · rw [error_tells_owner_iff hrun (by decide)]
    rintro (⟨-, h⟩ | h)
    · exact hfull h
    · exact hnone1 h

/-- The queue of client 0 is full of the event that says that its connection is there, when lwIP
frees the control block and reports that the connection has been aborted. -/
theorem error_lost_in_full_queue : ¬ ∀ tr s, Fed .small tr s → ∀ k err, Config.small.InRange k →
    (s.connections k).isActive = true → ErrorTellsOwner .small s k err := by
  intro htells
  have hrun : ∃ tr s, RunsTo .small (fun _ _ => True) tr s ∧
      Allowed .small s (.happens (.tcpEvent 10 0 (.err .abrt))) ∧
      ((tcpFree s 10).connections 0).isActive = true ∧
      (lwipTcpEvent .small (tcpFree s 10) 0 none .err none .abrt).toOption.all (fun q =>
        decide (¬ TellsOwner .small q.1.queue
          ((tcpFree s 10).connections 0).clientNum 0)) = true := by
    refine Run.exists_of_replay
      [.call 0 (.socket .tcp (some 10)), .call 0 (.connect 0 80 {} .ok),
        .happens (.tcpEvent 10 0 .connected)] ?_
    decide
  obtain ⟨tr, s, hrun, -, hact, hall⟩ := hrun
  obtain ⟨tr', hfed⟩ := hrun.fed
  have hfree : Leads .small s (tcpFree s 10) := .of_lwip rfl
  obtain ⟨tr'', hrun''⟩ := hfree
  obtain ⟨s', r, h, -, htold⟩ := htells _ _ (hfed.trans hrun'') 0 .abrt (by decide) hact
  rw [h] at hall
  exact of_decide_eq_true hall htold

end Xtcp
