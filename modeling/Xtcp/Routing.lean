import Xtcp.Events

/-!
# Callback routing

lwIP raises every callback of a TCP control block with the argument last given to
`tcp_arg`, and the library takes it for the index of a slot.  `shim_listen` and
`shim_accept` register the index; `shim_connect` does not, so a connected control block
has the argument it was made with, which is index 0.

## Main definitions

* `ConnectsAtZero` — a TCP `connect` that lwIP accepts is on slot 0.
* `RoutedOk` — every stored TCP control block that can raise a callback has the index of
  its slot as argument.
* `CallbacksReachSlot` — callback routing, along the histories that meet a condition.

## Main results

* `callbacks_reach_slot` — **the argument of a connection is its slot, and its
  events go to the owner, if `connect` is only used on slot 0**.
-/

namespace Xtcp

open Runs

variable {cfg : Config}

/-! ### Arguments -/

/-- A TCP `connect` that lwIP accepts is on slot 0, whose index a new control block has
for its argument anyway. -/
def ConnectsAtZero (cfg : Config) (s : Server) : Action → Prop
  | .call i (.connect id _ _ answer) =>
    (findClientConnection cfg s i id).status = .success → (getTcpPcb cfg s id).isSome →
      answer = .ok → id = 0
  | _ => True

instance (s : Server) (a : Action) : Decidable (ConnectsAtZero cfg s a) := by
  unfold ConnectsAtZero
  split <;> infer_instance

/-- The route of the control block stored in slot `k`: it raises nothing, or it raises
its callbacks for slot `k`. -/
def Route.Fits (k : ℤ) (r : Route) : Prop :=
  r = ⟨0, .closed⟩ ∨ r.arg = k ∧ (r.status = .listen ∨ r.status = .active)

/-- Every TCP control block stored in a slot exists and raises callbacks for that slot
only, and no two slots hold the same one. -/
structure RoutedOk (cfg : Config) (T : Table) : Prop where
  /-- The control block of slot `k` exists, and its route fits. -/
  route : ∀ k p, (T.slot k).pcb = .tcp p → cfg.InRange k ∧ ∃ r, T.tcp p = some r ∧ r.Fits k
  /-- Two slots have two control blocks. -/
  distinct : ∀ j k p, (T.slot j).pcb = .tcp p → (T.slot k).pcb = .tcp p → j = k

namespace RoutedOk

variable {T T' : Table}

/-- The control blocks of the slots have not changed. -/
theorem frame (h : RoutedOk cfg T)
    (hslot : ∀ j p, (T'.slot j).pcb = .tcp p → (T.slot j).pcb = .tcp p ∧ T'.tcp p = T.tcp p) :
    RoutedOk cfg T' := by
  constructor
  · intro k p hp
    obtain ⟨hp', htcp⟩ := hslot k p hp
    rw [htcp]
    exact h.route k p hp'
  · intro j k p hj hk
    exact h.distinct j k p (hslot j p hj).1 (hslot k p hk).1

/-- The control block of slot `k` is new, or has a new route. -/
theorem put (h : RoutedOk cfg T) {k : ℤ} (hk : cfg.InRange k) {p : Ptr} {r : Route}
    (hp : (T'.slot k).pcb = .tcp p) (hr : T'.tcp p = some r) (hfits : r.Fits k)
    (hslot : ∀ j, j ≠ k → ∀ q, (T'.slot j).pcb = .tcp q →
      (T.slot j).pcb = .tcp q ∧ T'.tcp q = T.tcp q ∧ q ≠ p) : RoutedOk cfg T' := by
  constructor
  · intro j q hq
    by_cases hj : j = k
    · subst hj
      obtain rfl : p = q := by simpa using hp.symm.trans hq
      exact ⟨hk, r, hr, hfits⟩
    · obtain ⟨hq', htcp, -⟩ := hslot j hj q hq
      rw [htcp]
      exact h.route j q hq'
  · intro i j q hi hj
    by_cases hik : i = k <;> by_cases hjk : j = k
    · rw [hik, hjk]
    · subst hik
      obtain rfl : p = q := by simpa using hp.symm.trans hi
      exact absurd rfl (hslot j hjk p hj).2.2
    · subst hjk
      obtain rfl : p = q := by simpa using hp.symm.trans hj
      exact absurd rfl (hslot i hik p hi).2.2
    · exact h.distinct i j q (hslot i hik q hi).1 (hslot j hjk q hj).1

/-- A control block that is not there is stored nowhere. -/
theorem ne_of_none (h : RoutedOk cfg T) {n : Ptr} (hn : T.tcp n = none) {j : ℤ} {q : Ptr}
    (hq : (T.slot j).pcb = .tcp q) : q ≠ n := by
  rintro rfl
  obtain ⟨-, r, hr, -⟩ := h.route j q hq
  rw [hn] at hr
  cases hr

/-- A control block that is half open or closing is stored nowhere. -/
theorem ne_of_status (h : RoutedOk cfg T) {n : Ptr} {r : Route} (hn : T.tcp n = some r)
    (hc : r.status ≠ .closed) (hl : r.status ≠ .listen) (ha : r.status ≠ .active) {j : ℤ} {q : Ptr}
    (hq : (T.slot j).pcb = .tcp q) : q ≠ n := by
  rintro rfl
  obtain ⟨-, r', hr', hfits⟩ := h.route j q hq
  obtain rfl : r' = r := Option.some.inj (hr'.symm.trans hn)
  rcases hfits with rfl | ⟨-, hs | hs⟩
  · exact hc rfl
  · exact hl hs
  · exact ha hs

/-- **Every step keeps the arguments right**, when `connect` is only used on slot 0. -/
theorem step {s : Server} (hT : TableOk cfg s.table) (h : RoutedOk cfg s.table) {a : Action}
    (hzero : ConnectsAtZero cfg s a) {r : Reply} {T' : Table}
    (hstep : TableStep cfg s.table a r T') : RoutedOk cfg T' := by
  cases hstep with
  | quiet => exact h
  | @socketNull i protocol k =>
    refine h.frame fun j p hp => ?_
    rw [Table.assign_slot] at hp
    split at hp
    · cases hp
    · exact ⟨hp, rfl⟩
  | @socketNone i answer k =>
    refine h.frame fun j p hp => ?_
    rw [Table.assign_slot] at hp
    split at hp
    · cases hp
    · exact ⟨hp, rfl⟩
  | @socketUdp i p k =>
    refine h.frame fun j q hq => ?_
    rw [Table.store_slot] at hq
    split at hq
    · cases hq
    · next hj =>
      rw [Table.setUdp_slot, Table.assign_slot, if_neg hj] at hq
      exact ⟨hq, rfl⟩
  | @socketTcp i p k hi hfree hfresh =>
    have hk := (Table.freeSlot_some hT.cursor hfree).1
    refine h.put hk (p := p) (r := ⟨0, .closed⟩) ?_ ?_ (.inl rfl) fun j hj q hq => ?_
    · rw [Table.store_slot, if_pos rfl]
    · rw [Table.store_tcp, Table.setTcp_tcp, if_pos rfl]
    · rw [Table.store_slot, if_neg hj, Table.setTcp_slot, Table.assign_slot, if_neg hj] at hq
      have hqp := h.ne_of_none hfresh hq
      exact ⟨hq, by rw [Table.store_tcp, Table.setTcp_tcp, if_neg hqp]; rfl, hqp⟩
  | @close i call k lingers r hcall hi hown =>
    refine h.frame fun j q hq => ?_
    rw [Table.release_slot, Table.closePcb_slot] at hq
    split at hq
    · cases hq
    · next hj =>
      refine ⟨hq, ?_⟩
      rw [Table.release_tcp]
      -- another slot holds another control block
      rcases Table.closePcb_tcp (T := s.table) k lingers q with heq | ⟨hproto, haddr, -⟩
      · exact heq
      · have hk := hT.pcb_eq hown.1 hproto haddr
        exact absurd ⟨h.distinct j k q hq hk, hown.1⟩ hj
  | @listen i k _ _ p l arg hi hown hproto haddr hp hl =>
    have hpk := hT.pcb_eq hown.1 hproto haddr
    refine h.put hown.1 (p := l) (r := ⟨k, .listen⟩) ?_ ?_ (.inr ⟨rfl, .inl rfl⟩) fun j hj q hq =>
      ?_
    · rw [Table.store_slot, if_pos rfl]
    · rw [Table.store_tcp, Table.setTcp_tcp, if_pos rfl]
    · rw [Table.store_slot, if_neg hj] at hq
      have hq : (s.table.slot j).pcb = .tcp q := hq
      have hql := h.ne_of_none hl hq
      have hqp : q ≠ p := by
        rintro rfl
        exact hj (h.distinct j k q hq hpk)
      refine ⟨hq, ?_, hql⟩
      rw [Table.store_tcp, Table.setTcp_tcp, if_neg hql, Table.setTcp_tcp, if_neg hqp]
  | @connect i k portNumber ipaddr p arg hi hown hproto haddr hp =>
    have hpk := hT.pcb_eq hown.1 hproto haddr
    -- the argument is still the one the control block was made with
    have harg : arg = 0 := by
      obtain ⟨-, r, hr, hfits⟩ := h.route k p hpk
      obtain rfl : r = ⟨arg, .closed⟩ := Option.some.inj (hr.symm.trans hp)
      rcases hfits with hr | ⟨-, hs | hs⟩
      · exact congrArg Route.arg hr
      · cases hs
      · cases hs
    have hsome : (getTcpPcb cfg s k).isSome = true := by
      have : cfg.InRange k ∧ (s.connections k).protocol = .tcp := ⟨hown.1, hproto⟩
      rw [getTcpPcb, if_pos this]
      have haddr : (s.connections k).pcb.addr = some p := haddr
      rw [haddr]; rfl
    have hk : k = 0 := hzero (find_success_iff.mpr hown) hsome rfl
    subst hk harg
    refine h.put hown.1 (p := p) (r := ⟨0, .active⟩) hpk ?_ (.inr ⟨rfl, .inr rfl⟩) fun j hj q hq =>
      ?_
    · rw [Table.setTcp_tcp, if_pos rfl]
    · have hqp : q ≠ p := by
        rintro rfl
        exact hj (h.distinct j 0 q hq hpk)
      exact ⟨hq, by rw [Table.setTcp_tcp, if_neg hqp], hqp⟩
  | @clientData i k data =>
    refine h.frame fun j q hq => ?_
    rw [Table.setSlot_slot] at hq
    split at hq
    · next hj => subst hj; exact ⟨hq, rfl⟩
    · exact ⟨hq, rfl⟩
  | @syn l n arg _ hl hn =>
    refine h.frame fun j q hq => ⟨hq, ?_⟩
    rw [Table.setTcp_tcp, if_neg (h.ne_of_none hn hq)]
  | @accepted l n arg k hn harg hproto hfree =>
    have hk := (Table.freeSlot_some hT.cursor hfree).1
    refine h.put hk (p := n) (r := ⟨k, .active⟩) ?_ ?_ (.inr ⟨rfl, .inr rfl⟩) fun j hj q hq => ?_
    · rw [Table.setTcp_slot, Table.store_slot, if_pos rfl]
    · rw [Table.setTcp_tcp, if_pos rfl]
    · rw [Table.setTcp_slot, Table.store_slot, if_neg hj, Table.assign_slot, if_neg hj] at hq
      have hqn := h.ne_of_status hn (by simp) (by simp) (by simp) hq
      exact ⟨hq, by rw [Table.setTcp_tcp, if_neg hqn]; rfl, hqn⟩
  | @acceptAborted l n arg k hn harg hproto hfree =>
    have hk := (Table.freeSlot_some hT.cursor hfree).1
    refine h.frame fun j q hq => ?_
    rw [Table.release_slot] at hq
    split at hq
    · cases hq
    · next hj =>
      have hjk : j ≠ k := fun hjk => hj ⟨hjk, hk⟩
      rw [Table.setTcp_slot, Table.store_slot, if_neg hjk, Table.assign_slot, if_neg hjk] at hq
      have hqn := h.ne_of_status hn (by simp) (by simp) (by simp) hq
      exact ⟨hq, by rw [Table.release_tcp, Table.setTcp_tcp, if_neg hqn]; rfl⟩
  | @acceptRefused l n arg hn =>
    refine h.frame fun j q hq => ?_
    rw [Table.release_slot, Table.setTcp_slot] at hq
    split at hq
    · cases hq
    · have hqn := h.ne_of_status hn (by simp) (by simp) (by simp) hq
      exact ⟨hq, by rw [Table.release_tcp, Table.setTcp_tcp, if_neg hqn]⟩
  | @err p arg status err r hp hclosed hlisten =>
    refine h.frame fun j q hq => ?_
    rw [Table.release_slot, Table.setTcp_slot] at hq
    split at hq
    · cases hq
    · next hj =>
      refine ⟨hq, ?_⟩
      -- the slot of the control block that failed has been released
      have hqp : q ≠ p := by
        rintro rfl
        obtain ⟨hrange, r', hr', hfits⟩ := h.route j q hq
        obtain rfl : r' = ⟨arg, status⟩ := Option.some.inj (hr'.symm.trans hp)
        rcases hfits with hr | ⟨hr, -⟩
        · exact hclosed (congrArg Route.status hr)
        · have hr : arg = j := hr
          exact hj ⟨hr.symm, hr ▸ hrange⟩
      rw [Table.release_tcp, Table.setTcp_tcp, if_neg hqp]
  | @reap p route _ hp hclosed hlisten hactive =>
    refine h.frame fun j q hq => ⟨hq, ?_⟩
    rw [Table.setTcp_tcp, if_neg (h.ne_of_status hp hclosed hlisten hactive hq)]

/-- A slot that holds a control block is active. -/
theorem active (hT : TableOk cfg T) (h : RoutedOk cfg T) {k : ℤ} {p : Ptr}
    (hp : (T.slot k).pcb = .tcp p) : (T.slot k).isActive = true := by
  by_contra hne
  have hrel := (hT.slot k (h.route k p hp).1).reset (by simpa using hne)
  rw [hrel] at hp
  cases hp

/-- Once a slot has a control block that listens or is connected, it keeps it as it is until
it is released. -/
theorem keeps_open (hT : TableOk cfg T) (h : RoutedOk cfg T) {k : ℤ} {p : Ptr} {route : Route}
    (hp : (T.slot k).pcb = .tcp p) (hroute : T.tcp p = some route) (hopen : route.status ≠ .closed)
    {a : Action} {r : Reply} (hstep : TableStep cfg T a r T') (hact : (T'.slot k).isActive = true) :
    (T'.slot k).pcb = .tcp p ∧ T'.tcp p = some route := by
  have hactive := h.active hT hp
  have hfits : route.arg = k ∧ (route.status = .listen ∨ route.status = .active) := by
    obtain ⟨-, r, hr, hfits⟩ := h.route k p hp
    obtain rfl : r = route := Option.some.inj (hr.symm.trans hroute)
    rcases hfits with rfl | hfits
    · exact absurd rfl hopen
    · exact hfits
  -- a slot that is handed out is another one
  have hne : ∀ {j}, T.freeSlot cfg = some j → k ≠ j := by
    rintro j hfree rfl
    rw [(Table.freeSlot_some hT.cursor hfree).2] at hactive
    cases hactive
  cases hstep with
  | quiet => exact ⟨hp, hroute⟩
  | socketNull _ _ hfree =>
    rw [Table.assign_slot, if_neg (hne hfree)]
    exact ⟨hp, hroute⟩
  | socketNone _ hfree =>
    rw [Table.assign_slot, if_neg (hne hfree)]
    exact ⟨hp, hroute⟩
  | socketUdp _ hfree =>
    rw [Table.store_slot, if_neg (hne hfree), Table.setUdp_slot, Table.assign_slot,
      if_neg (hne hfree)]
    exact ⟨hp, hroute⟩
  | socketTcp _ hfree hfresh =>
    rw [Table.store_slot, if_neg (hne hfree), Table.setTcp_slot, Table.assign_slot,
      if_neg (hne hfree), Table.store_tcp, Table.setTcp_tcp, if_neg (h.ne_of_none hfresh hp)]
    exact ⟨hp, hroute⟩
  | @close i call j lingers _ hcall hi hown =>
    rw [Table.release_slot, Table.closePcb_slot] at hact ⊢
    split at hact
    · cases hact
    · next hj =>
      rw [if_neg hj, Table.release_tcp]
      refine ⟨hp, ?_⟩
      rcases Table.closePcb_tcp (T := T) j lingers p with heq | ⟨hproto, haddr, -⟩
      · rw [heq]; exact hroute
      · have hpj := hT.pcb_eq hown.1 hproto haddr
        exact absurd ⟨h.distinct k j p hp hpj, hown.1⟩ hj
  | @listen i j _ _ q l arg hi hown hproto haddr hq hl =>
    have hqj := hT.pcb_eq hown.1 hproto haddr
    have hpq : p ≠ q := by
      rintro rfl
      rw [hroute] at hq
      cases hq
      exact hopen rfl
    have hkj : k ≠ j := by
      rintro rfl
      exact hpq (by simpa using hp.symm.trans hqj)
    rw [Table.store_slot, if_neg hkj, Table.store_tcp, Table.setTcp_tcp,
      if_neg (h.ne_of_none hl hp), Table.setTcp_tcp, if_neg hpq]
    exact ⟨hp, hroute⟩
  | @connect i j _ _ q arg hi hown hproto haddr hq =>
    have hpq : p ≠ q := by
      rintro rfl
      rw [hroute] at hq
      cases hq
      exact hopen rfl
    rw [Table.setTcp_tcp, if_neg hpq]
    exact ⟨hp, hroute⟩
  | @clientData i j data =>
    rw [Table.setSlot_slot]
    split
    · next hj => subst hj; exact ⟨hp, hroute⟩
    · exact ⟨hp, hroute⟩
  | syn _ hn =>
    rw [Table.setTcp_tcp, if_neg (h.ne_of_none hn hp)]
    exact ⟨hp, hroute⟩
  | accepted hn _ _ hfree =>
    have hpn := h.ne_of_status hn (by simp) (by simp) (by simp) hp
    rw [Table.setTcp_slot, Table.store_slot, if_neg (hne hfree), Table.assign_slot,
      if_neg (hne hfree), Table.setTcp_tcp, if_neg hpn]
    exact ⟨hp, hroute⟩
  | acceptAborted hn _ _ hfree =>
    have hpn := h.ne_of_status hn (by simp) (by simp) (by simp) hp
    rw [Table.release_slot, if_neg fun hj => hne hfree hj.1, Table.setTcp_slot, Table.store_slot,
      if_neg (hne hfree), Table.assign_slot, if_neg (hne hfree), Table.release_tcp,
      Table.setTcp_tcp, if_neg hpn]
    exact ⟨hp, hroute⟩
  | acceptRefused hn =>
    have hpn := h.ne_of_status hn (by simp) (by simp) (by simp) hp
    rw [Table.release_slot] at hact ⊢
    split at hact
    · cases hact
    · next hj =>
      rw [if_neg hj, Table.release_tcp, Table.setTcp_tcp, if_neg hpn]
      exact ⟨hp, hroute⟩
  | @err q arg status err _ hq hclosed hlisten =>
    rw [Table.release_slot] at hact ⊢
    split at hact
    · cases hact
    · next hj =>
      have hpq : p ≠ q := by
        rintro rfl
        obtain rfl : route = ⟨arg, status⟩ := Option.some.inj (hroute.symm.trans hq)
        have harg : arg = k := hfits.1
        exact hj ⟨harg.symm, harg ▸ (h.route k p hp).1⟩
      rw [if_neg hj, Table.release_tcp, Table.setTcp_tcp, if_neg hpq]
      exact ⟨hp, hroute⟩
  | reap hq hclosed hlisten hactive =>
    rw [Table.setTcp_tcp, if_neg (h.ne_of_status hq hclosed hlisten hactive hp)]
    exact ⟨hp, hroute⟩

end RoutedOk

theorem routedOk_init : RoutedOk cfg (init cfg).table := by
  have hnull : ∀ k, ((init cfg).table.slot k).pcb = .null := by
    intro k
    simp only [init, initClientConnections, Server.table, Server.static]
    split <;> rfl
  constructor
  · intro k p hp; rw [hnull] at hp; cases hp
  · intro j k p hp; rw [hnull] at hp; cases hp

/-- The table along a history in which `connect` is only used on slot 0. -/
theorem RunsTo.routedOk {tr : List (Action × Reply)} {s : Server}
    (hrun : RunsTo cfg (ConnectsAtZero cfg) tr s) : TableOk cfg s.table ∧ RoutedOk cfg s.table :=
  hrun.table (I := fun T => TableOk cfg T ∧ RoutedOk cfg T) (fun _ h => h.1.cursor)
    ⟨tableOk_init, routedOk_init⟩ fun _ _ _ _ h _ hzero hstep =>
      ⟨h.1.step hstep, h.2.step h.1 hzero hstep⟩

/-- The step in which `connect`, `listen` or an accept succeeds on the TCP slot `k`. -/
def Opens (k : ℤ) (s s' : Server) : Action → Reply → Prop
  | .call _ (.connect id _ _ _), r =>
    id = k ∧ r = .code .success ∧ (s.connections k).protocol = .tcp
  | .call _ (.listen id _ _ _), r =>
    id = k ∧ r = .code .success ∧ (s.connections k).protocol = .tcp
  | .happens (.tcpEvent _ _ .accept), r =>
    r = .err .ok ∧ (s.connections k).isActive = false ∧ (s'.connections k).isActive = true
  | _, _ => False

/-- A slot that has just been opened holds a control block that can raise callbacks. -/
theorem pcb_of_opens {s s' : Server} (hT : TableOk cfg s.table) {a : Action} {r : Reply}
    (hstep : TableStep cfg s.table a r s'.table) {k : ℤ} (hopens : Opens k s s' a r) :
    ∃ p route, (s'.table.slot k).pcb = .tcp p ∧ s'.table.tcp p = some route ∧
      route.status ≠ .closed := by
  generalize hT' : s'.table = T' at hstep
  have hslot : (s'.connections k).isActive = (T'.slot k).isActive := by rw [← hT']; rfl
  cases hstep with
  | quiet hquiet =>
    refine absurd ?_ hquiet
    unfold Opens at hopens
    split at hopens
    · obtain ⟨rfl, hr, hp⟩ := hopens; exact ⟨hr, hp⟩
    · obtain ⟨rfl, hr, hp⟩ := hopens; exact ⟨hr, hp⟩
    · exact hopens.1
    · cases hopens
  | @listen i j _ _ p l arg hi hown hproto haddr hp hl =>
    obtain ⟨rfl, -⟩ := hopens
    exact ⟨l, ⟨j, .listen⟩, by rw [Table.store_slot, if_pos rfl],
      by rw [Table.store_tcp, Table.setTcp_tcp, if_pos rfl], by simp⟩
  | @connect i j _ _ p arg hi hown hproto haddr hp =>
    obtain ⟨rfl, -⟩ := hopens
    exact ⟨p, ⟨arg, .active⟩, hT.pcb_eq hown.1 hproto haddr,
      by rw [Table.setTcp_tcp, if_pos rfl], by simp⟩
  | @accepted l n arg j hn harg hproto hfree =>
    obtain ⟨-, hfalse, htrue⟩ := hopens
    have hkj : k = j := by
      by_contra hkj
      rw [hslot, Table.setTcp_slot, Table.store_slot, if_neg hkj, Table.assign_slot, if_neg hkj]
        at htrue
      have hfalse : (s.table.slot k).isActive = false := hfalse
      rw [hfalse] at htrue
      cases htrue
    subst hkj
    exact ⟨n, ⟨k, .active⟩, by rw [Table.setTcp_slot, Table.store_slot, if_pos rfl],
      by rw [Table.setTcp_tcp, if_pos rfl], by simp⟩
  | acceptAborted => cases hopens.1
  | acceptRefused => cases hopens.1
  | @close i call j lingers _ hcall =>
    cases call with
    | listen | connect => cases hcall
    | _ => cases hopens
  | socketNull | socketTcp | socketUdp | socketNone | clientData | syn | err | reap => cases hopens

/-- The slot keeps its control block along a history in which it stays active. -/
theorem pcb_of_run {s t : Server} {k : ℤ} {p : Ptr} {route : Route} {tr : List (Action × Reply)}
    (hT : TableOk cfg s.table) (hR : RoutedOk cfg s.table) (hp : (s.table.slot k).pcb = .tcp p)
    (hroute : s.table.tcp p = some route) (hopen : route.status ≠ .closed)
    (hrun : Run (step cfg) (fun u b => (Allowed cfg u b ∧ ConnectsAtZero cfg u b) ∧
      (u.connections k).isActive = true) s tr t) (hact : (t.connections k).isActive = true) :
    (t.table.slot k).pcb = .tcp p ∧ t.table.tcp p = some route ∧ TableOk cfg t.table ∧
      RoutedOk cfg t.table := by
  induction hrun with
  | nil => exact ⟨hp, hroute, hT, hR⟩
  | @snoc _ u v b r hrun' hok hs ih =>
    obtain ⟨hp', hroute', hT', hR'⟩ := ih hok.2
    have hstep := step_table hT'.cursor hok.1.1 hs
    obtain ⟨hp'', hroute''⟩ := hR'.keeps_open hT' hp' hroute' hopen hstep hact
    exact ⟨hp'', hroute'', hT'.step hstep, hR'.step hT' hok.1.2 hstep⟩

/-- Callback routing along the histories whose steps meet `C`.  The first history leads to
the step that opens slot `k`, the second goes on from there with the slot active all the
time.  Then the control block in the slot has `k` for its argument, and any callback it
raises comes with `k` and queues at most one event, which has id `k` and goes to the owner
of the slot. -/
def CallbacksReachSlot (cfg : Config) (C : Server → Action → Prop) : Prop :=
  ∀ (tr tr' : List (Action × Reply)) (s s' t : Server) (a : Action) (r : Reply) (k : ℤ),
    RunsTo cfg C tr s → Allowed cfg s a ∧ C s a → step cfg s a = .ok (s', r) →
    Opens k s s' a r →
    Run (step cfg) (fun u b => (Allowed cfg u b ∧ C u b) ∧ (u.connections k).isActive = true)
      s' tr' t →
    (t.connections k).isActive = true →
    ∃ p b, (t.connections k).pcb = .tcp p ∧ t.tcp p = some b ∧ b.callbackArg = k ∧
      ∀ arg callback t' r', Allowed cfg t (.happens (.tcpEvent p arg callback)) →
        callback ≠ .accept → step cfg t (.happens (.tcpEvent p arg callback)) = .ok (t', r') →
        arg = k ∧ ∀ c, contents cfg t'.queue c = contents cfg t.queue c ∨
          c = (t.connections k).clientNum ∧
            ∃ e, contents cfg t'.queue c = contents cfg t.queue c ++ [⟨e, k⟩]

/-- **The argument of a connection is its slot, and its events go to the owner of that
slot**, from the moment it is opened until the slot is released, if `connect` is only used
on slot 0. -/
theorem callbacks_reach_slot (cfg : Config) : CallbacksReachSlot cfg (ConnectsAtZero cfg) := by
  intro tr tr' s s' t a r k hrun hok hstep hopens hrun' hact
  obtain ⟨hT, hR⟩ := hrun.routedOk
  have htab := step_table hT.cursor hok.1 hstep
  obtain ⟨p, route, hp, hroute, hopen⟩ := pcb_of_opens hT htab hopens
  obtain ⟨hp', hroute', hT', hR'⟩ :=
    pcb_of_run (hT.step htab) (hR.step hT hok.2 htab) hp hroute hopen hrun' hact
  have hq : EventsOk cfg t.queue := by
    refine Run.invariant (I := fun u => EventsOk cfg u.queue) hrun' ?_
      fun _ _ _ _ hq _ h => eventsOk_step hq h
    exact eventsOk_step hrun.eventsOk hstep
  -- the route in the table is that of the control block
  have hmap := hroute'
  simp only [Server.table, Option.map_eq_some_iff] at hmap
  obtain ⟨b, hb, hbr⟩ := hmap
  have harg : b.callbackArg = k := by
    obtain ⟨hk, r', hr', hfits⟩ := hR'.route k p hp'
    obtain rfl : r' = route := Option.some.inj (hr'.symm.trans hroute')
    rcases hfits with rfl | ⟨hr, -⟩
    · exact absurd rfl hopen
    · rw [← hr, ← hbr]; rfl
  refine ⟨p, b, hp', hb, harg, fun arg callback t' r' hok' hne h => ?_⟩
  obtain ⟨status, hst, -⟩ := tcpEvent_route hok'
  obtain rfl : arg = k := by
    have hr : route = ⟨arg, status⟩ := Option.some.inj (hroute'.symm.trans hst)
    have hb' : b.callbackArg = route.arg := congrArg Route.arg hbr
    rw [← harg, hb', hr]
  refine ⟨rfl, fun c => ?_⟩
  have hrange := (hR'.route arg p hp').1
  have hclient : getClientInfo cfg t arg = (t.connections arg).clientNum := by
    rw [getClientInfo, if_pos hrange]
  rw [← hclient]
  exact (queues_stepTcp hne h).contents hq.queueOk c

/-- A `connect` on slot 1 succeeds, and its control block has argument 0. -/
theorem connect_leaves_argument : ¬ CallbacksReachSlot .small fun _ _ => True := by
  intro hreach
  have hrun : ∃ tr s, RunsTo .small (fun _ _ => True) tr s ∧
      Allowed .small s (.call 0 (.connect 1 80 {} .ok)) ∧
      (step .small s (.call 0 (.connect 1 80 {} .ok))).toOption.any (fun q => decide
        (q.2 = .code .success ∧ (s.connections 1).protocol = .tcp ∧
          (q.1.connections 1).isActive = true ∧ (q.1.connections 1).pcb = .tcp 11 ∧
          (q.1.tcp 11).map TcpPcb.callbackArg = some 0)) = true := by
    refine Run.exists_of_replay
      [.call 0 (.socket .tcp (some 10)), .call 0 (.socket .tcp (some 11))] ?_
    decide
  obtain ⟨tr, s, hrun, hok, hany⟩ := hrun
  cases hs : step .small s (.call 0 (.connect 1 80 {} .ok)) with
  | error e => rw [hs] at hany; cases hany
  | ok q =>
    obtain ⟨s', r⟩ := q
    rw [hs] at hany
    obtain ⟨hr, hproto, hact, hpcb, harg⟩ := of_decide_eq_true hany
    obtain ⟨p, b, hp, hb, hk, -⟩ :=
      hreach tr [] s s' s' _ r 1 hrun ⟨hok, trivial⟩ hs ⟨rfl, hr, hproto⟩ .nil hact
    rw [hpcb] at hp
    cases hp
    rw [hb, Option.map_some, hk] at harg
    cases harg

end Xtcp
