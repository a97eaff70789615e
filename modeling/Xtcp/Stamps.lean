import Xtcp.Isolation
import Xtcp.Reuse
import Xtcp.UdpRouting

/-!
# Where events come from

An event in a queue has the number of a slot, and a slot is used by one socket after another.  To
tell their events apart, a ghost is kept beside the server: it stamps every event with the step
that queued it, and with the socket whose control block has raised it.

A socket is a slot and the step in which the slot was handed out.  A control block belongs to the
socket it was started for: `connect` and `listen` start the control block of their slot, or for
TCP the new one that listens; an accept starts the new connection for the new slot.  A connection
that waits to be accepted belongs to the socket that listens.  The argument that lwIP passes to a
callback plays no part in this; so the ghost knows whose callback it is even where the library has
to take it for another's.

## Main definitions

* `grants` — the slot that an action hands out.
* `Socket`, `Origin`, `Stamps` — sockets, where an event has come from, and the ghost.
* `Stamps.after` — the ghost after a step.
* `CallsBack` — lwIP can raise callbacks of a control block with an argument.

## Main results

* `Stamps.Faithful.after` — the stamps stay on their events.
* `callsBack_step` — a control block gets an argument only when it is started.
* `raised_of_posts` — what a step posts about a connection is raised by a control block with the
  number of the connection.
-/

namespace Xtcp

open Runs

variable {cfg : Config} {s s' : Server} {k : ℤ}

/-! ### Handing out a slot -/

/-- The slot an action hands out: `socket` returns its number, an accept queues an event with
it. -/
def grants (cfg : Config) (s : Server) : Action → Option ℤ
  | .call _ (.socket protocol answer) =>
    if protocol = .none ∨ answer ≠ none then s.table.freeSlot cfg else none
  | .happens (.tcpEvent _ arg .accept) =>
    if cfg.InRange arg ∧ (s.connections arg).protocol = .tcp ∧
      HasRoom cfg s.queue (s.connections arg).clientNum then s.table.freeSlot cfg else none
  | _ => none

/-- A slot that is handed out is taken. -/
theorem takes_of_grants {a : Action} (h : grants cfg s a = some k) : takes cfg s a = some k := by
  unfold grants at h
  split at h
  · exact (Option.ite_none_right_eq_some.mp h).2
  · exact h
  · cases h

/-- A slot that is handed out was not active. -/
theorem inactive_of_grants (hT : TableOk cfg s.table) {a : Action}
    (h : grants cfg s a = some k) : cfg.InRange k ∧ (s.connections k).isActive = false := by
  unfold grants at h
  split at h
  · exact Table.freeSlot_some hT.cursor (Option.ite_none_right_eq_some.mp h).2
  · exact Table.freeSlot_some hT.cursor (Option.ite_none_right_eq_some.mp h).2
  · cases h

/-- What is handed out is what `grants` says. -/
theorem grants_of_handsOut (hT : TableOk cfg s.table) (hq : QueueOk cfg s.queue) {a : Action}
    (hok : Allowed cfg s a) {r : Reply} (hs : step cfg s a = .ok (s', r))
    (h : HandsOut k s s' a r) : grants cfg s a = some k := by
  have hfree := freeSlot_of_handsOut hT.cursor hok hs h
  unfold HandsOut at h
  split at h
  · next i protocol answer =>
    obtain ⟨rfl, hk⟩ := h
    by_cases hpcb : protocol = .none ∨ answer ≠ none
    · exact (if_pos hpcb).trans hfree
    · -- without a control block `socket` returns an error
      push Not at hpcb
      obtain ⟨hproto, rfl⟩ := hpcb
      have hr : (socket cfg s i protocol none).2 = .int k := congrArg Prod.snd (Except.ok.inj hs)
      rw [socket, (shimNewSocket_null hfree i hproto).1] at hr
      have hr : Reply.int ErrorCode.enomem.toInt = .int k := hr
      cases hr
      exact absurd hk (by decide)
  · next n arg =>
    obtain ⟨rfl, -, -⟩ := h
    have hstep := queueStep hT hq hok hs
    generalize s'.queue = q at hstep
    cases hstep with
    | callback hne => exact absurd rfl hne
    | accepted harg hproto _ hroom => exact (if_pos ⟨harg, hproto, hroom⟩).trans hfree
    | quiet hquiet => cases hquiet
  · cases h

/-- An accept that hands out a slot gives it to the owner of the slot it was made on. -/
theorem ownedBy_of_accept (hT : TableOk cfg s.table) (hq : QueueOk cfg s.queue) {n : Ptr} {arg : ℤ}
    (hok : HappeningAllowed s (.tcpEvent n arg .accept))
    (hgrants : grants cfg s (.happens (.tcpEvent n arg .accept)) = some k) {r : Reply}
    (hs : step cfg s (.happens (.tcpEvent n arg .accept)) = .ok (s', r)) :
    s'.table.OwnedBy cfg (s.connections arg).clientNum k := by
  obtain ⟨⟨harg, hproto, hroom⟩, hfree⟩ := Option.ite_none_right_eq_some.mp hgrants
  obtain ⟨t, e, t', ht, hstep, hcases⟩ := accept_step hT.cursor hok
  obtain ⟨rfl, -⟩ : t' = s' ∧ Reply.err e = r := by simpa using hstep.symm.trans hs
  obtain ⟨rfl, -⟩ := (accept_queues hT hq hok harg hproto hfree ht).1 hroom
  obtain ⟨j, -, -, hfree', ⟨-, -, htab⟩ | ⟨he, -⟩⟩ | ⟨he, -⟩ := hcases
  · obtain rfl : k = j := Option.some.inj (hfree.symm.trans hfree')
    refine ⟨(Table.freeSlot_some hT.cursor hfree).1, ?_⟩
    rw [htab, Table.setTcp_slot, Table.store_slot, if_pos rfl, Table.assign_slot, if_pos rfl]
    rfl
  · cases he
  · cases he

/-! ### Stamps -/

/-- A socket: its slot, and the step in which the slot was handed out. -/
structure Socket where
  /-- The slot. -/
  slot : ℤ
  /-- The step in which the slot was handed out. -/
  since : ℕ
  deriving DecidableEq

/-- Where an event has come from. -/
structure Origin where
  /-- The step that queued it. -/
  step : ℕ
  /-- The socket whose control block has raised it. -/
  socket : Option Socket
  deriving DecidableEq

/-- The event was queued in step `n` or later, and not for a socket that had slot `k` before. -/
def Origin.Since (k : ℤ) (n : ℕ) (o : Origin) : Prop :=
  n ≤ o.step ∧ ∀ m, o.socket = some ⟨k, m⟩ → n ≤ m

theorem Origin.Since.mono {o : Origin} {n n' : ℕ} (h : o.Since k n) (hn : n' ≤ n) :
    o.Since k n' :=
  ⟨hn.trans h.1, fun m hm => hn.trans (h.2 m hm)⟩

/-- The pending events with their stamps, and what is needed to stamp the next ones. -/
structure Stamps where
  /-- The pending events of a client, in order. -/
  pending : ℕ → List (ClientEvent × Origin)
  /-- The number of steps so far. -/
  now : ℕ
  /-- The step in which a slot was handed out last. -/
  since : ℤ → ℕ
  /-- The socket that a control block was started for. -/
  socketOf : Block → Option Socket
  /-- Slots that lwIP has released since they were handed out, rather than their owners. -/
  failed : ℤ → Bool

/-- The control block that an action starts, and the slot it is started for. -/
def started (cfg : Config) (s : Server) (a : Action) : Option (Block × ℤ) :=
  match a with
  | .call _ (.connect k _ _ _) => (s.table.holds k).map fun x => (x, k)
  | .call _ (.listen k _ _ answer) =>
    match s.table.holds k with
    | some (.tcp _) => answer.listen.map fun l => (.tcp l, k)
    | some (.udp p) => some (.udp p, k)
    | none => none
  | .happens (.tcpEvent n _ .accept) => (grants cfg s a).map fun k => (.tcp n, k)
  | _ => none

/-- The control block that raises the events of an action. -/
def Action.raisedBy : Action → Option Block
  | .happens (.tcpEvent p _ _) => some (.tcp p)
  | .happens (.udpRecv p _ _ _ _) => some (.udp p)
  | _ => none

namespace Stamps

/-- Nothing has happened at the start. -/
def init : Stamps := ⟨fun _ => [], 0, fun _ => 0, fun _ => none, fun _ => false⟩

variable (cfg) (s : Server) (g : Stamps) (a : Action) (s' : Server)

/-- When a slot was handed out last, after a step. -/
def sinceAfter (k : ℤ) : ℕ := if grants cfg s a = some k then g.now else g.since k

/-- The socket of a control block after a step. -/
def socketAfter (x : Block) : Option Socket :=
  match a with
  | .happens (.syn l n) => if x = .tcp n then g.socketOf (.tcp l) else g.socketOf x
  | a =>
    match started cfg s a with
    | some (y, k) => if x = y then some ⟨k, g.sinceAfter cfg s a k⟩ else g.socketOf x
    | none => g.socketOf x

/-- Whether lwIP has released a slot, after a step. -/
def failedAfter (k : ℤ) : Bool :=
  if grants cfg s a = some k then false
  else
    match a with
    | .happens _ =>
      g.failed k || ((s.connections k).isActive && !(s'.connections k).isActive)
    | .call _ _ => g.failed k

/-- The stamp of what a step queues. -/
def origin : Origin := ⟨g.now, a.raisedBy.bind (g.socketAfter cfg s a)⟩

/-- The stamps after a step: `get_event` takes the first event of its client, closing a socket
removes its events, and what else is in a queue has just been added to its end. -/
def after : Stamps where
  pending := fun c =>
    match a with
    | .call i .getEvent => if c = i then (g.pending c).tail else g.pending c
    | .call i (.close k _) | .call i (.abort k _) =>
      if c = i ∧ s.table.OwnedBy cfg i k then (g.pending c).filter fun x => x.1.notFor k
      else g.pending c
    | _ =>
      g.pending c ++ ((contents cfg s'.queue c).drop (g.pending c).length).map
        fun e => (e, g.origin cfg s a)
  now := g.now + 1
  since := g.sinceAfter cfg s a
  socketOf := g.socketAfter cfg s a
  failed := g.failedAfter cfg s a s'

/-- The stamps are those of the events in the queues. -/
def Faithful (cfg : Config) (s : Server) (g : Stamps) : Prop :=
  ∀ c, (g.pending c).map Prod.fst = contents cfg s.queue c

variable {cfg s g a s'}

theorem faithful_init : Faithful cfg (Xtcp.init cfg) init := by
  intro c
  simp [init, Xtcp.init, initClientConnections]

/-- Where nothing is taken away, what is new is stamped. -/
theorem faithful_append (h : g.Faithful cfg s) {c : ℕ} (o : Origin)
    (hext : contents cfg s.queue c <+: contents cfg s'.queue c) :
    (g.pending c ++ ((contents cfg s'.queue c).drop (g.pending c).length).map
      fun e => (e, o)).map Prod.fst = contents cfg s'.queue c := by
  have hlen : (g.pending c).length = (contents cfg s.queue c).length := by
    rw [← h c, List.length_map]
  have hid : (Prod.fst ∘ fun e : ClientEvent => (e, o)) = id := rfl
  rw [List.map_append, List.map_map, h c, hlen, hid, List.map_id]
  obtain ⟨l, hl⟩ := hext
  rw [← hl, List.drop_left]

/-- The stamps stay on their events. -/
theorem Faithful.after (h : g.Faithful cfg s) (hq : EventsOk cfg s.queue) {r : Reply}
    (hstep : QueueStep cfg s a r s'.queue) : (g.after cfg s a s').Faithful cfg s' := by
  intro c
  have hcont := h c
  cases a with
  | happens happening =>
    exact faithful_append h _ (hstep.extends hq.queueOk c)
  | call i call =>
    -- a call other than `get_event` and the closing of a socket leaves the queues alone
    have hsame : s'.queue = s.queue → (g.pending c ++
        ((contents cfg s'.queue c).drop (g.pending c).length).map
          fun e => (e, g.origin cfg s (.call i call))).map Prod.fst
          = contents cfg s'.queue c := by
      intro hqueue
      exact faithful_append h _ (by rw [hqueue])
    have hclose : ∀ k lingers, call.closes k lingers →
        ((if c = i ∧ s.table.OwnedBy cfg i k then (g.pending c).filter fun x => x.1.notFor k
          else g.pending c).map Prod.fst) = contents cfg s'.queue c := by
      intro k lingers hcloses
      generalize s'.queue = q at hstep ⊢
      cases hstep with
      | call _ hne =>
        rw [if_neg fun hc => hne k lingers hcloses hc.2]
        exact hcont
      | getEvent => cases hcloses
      | @close _ _ j l _ hcloses' hown =>
        obtain rfl : k = j := Call.closes_inj hcloses hcloses'
        have hfree := (contents_free_all hq i k c)
        rw [hfree]
        by_cases hci : c = i
        · rw [if_pos ⟨hci, hown⟩, if_pos hci, ← hci, ← hcont, List.filter_map]
          rfl
        · rw [if_neg fun hc => hci hc.1, if_neg hci]
          exact hcont
    cases call with
    | getEvent =>
      have hqueue : s'.queue = (getEvent cfg s i).1.queue := by
        generalize s'.queue = q at hstep ⊢
        cases hstep with
        | call hne => exact absurd rfl hne
        | getEvent => rfl
        | close hcloses => cases hcloses
      rw [hqueue]
      show (if c = i then (g.pending c).tail else g.pending c).map Prod.fst = _
      obtain ⟨hnil, -, hc⟩ | ⟨x, l, hx, -, hc⟩ := contents_getEvent hq i
      · rw [hc]
        split
        · next hci =>
          subst hci
          rw [hnil, List.map_eq_nil_iff] at hcont
          rw [hcont, hnil]
          rfl
        · exact hcont
      · rw [hc]
        split
        · next hci =>
          subst hci
          rw [List.map_tail, hcont, hx, List.tail_cons]
        · exact hcont
    | close k lingers => exact hclose k lingers ⟨rfl, rfl⟩
    | abort k lingers => exact hclose k lingers ⟨rfl, rfl⟩
    | _ =>
      refine hsame ?_
      generalize s'.queue = q at hstep ⊢
      cases hstep with
      | call => rfl
      | close hcloses => cases hcloses

end Stamps

/-! ### Control blocks that call back -/

/-- lwIP can raise callbacks of the control block with the argument `k`, or has other control
blocks inherit it. -/
def CallsBack (s : Server) (k : ℤ) : Block → Prop
  | .tcp p => ∃ status, s.table.tcp p = some ⟨k, status⟩ ∧ status ≠ .closed
  | .udp p => Registered s p k

/-- **A control block gets an argument only when it is started**, or when it inherits that of a
listening one. -/
theorem callsBack_step (hT : TableOk cfg s.table) (hq : QueueOk cfg s.queue) {a : Action}
    (hok : Allowed cfg s a) {r : Reply} (hs : step cfg s a = .ok (s', r)) {x : Block}
    (hx : CallsBack s' k x) :
    CallsBack s k x ∨ (∃ j, started cfg s a = some (x, j)) ∨
      ∃ l n, a = .happens (.syn l n) ∧ x = .tcp n ∧ CallsBack s k (.tcp l) := by
  cases x with
  | udp p =>
    rcases (effects_step hs).recvArg hx with hold | hnew
    · exact .inl hold
    · obtain ⟨i, hcall, -, hget⟩ := Action.of_asks_register hnew
      have hheld := (hT.holds_of_getUdpPcb hget).2
      refine .inr (.inl ⟨k, ?_⟩)
      obtain ⟨_, _, _, rfl⟩ | ⟨_, _, _, rfl⟩ := hcall <;> simp [started, hheld]
  | tcp p =>
    obtain ⟨status, hp, hopen⟩ := hx
    have hstep := step_table hT.cursor hok hs
    -- a control block other than the one that is written
    have hother : ∀ {T : Table} {q : Ptr} {route : Option Route}, T.tcp = s.table.tcp →
        (∀ st, route = some ⟨k, st⟩ → st = .closed) →
        (T.setTcp q route).tcp p = some ⟨k, status⟩ → CallsBack s k (.tcp p) := by
      intro T q route hT hroute hp
      rw [Table.setTcp_tcp] at hp
      split at hp
      · exact absurd (hroute status hp) hopen
      · exact ⟨status, by rw [← hT]; exact hp, hopen⟩
    generalize hT' : s'.table = T' at hstep hp
    cases hstep with
    | quiet | socketNull | socketNone | socketUdp | clientData => exact .inl ⟨status, hp, hopen⟩
    | socketTcp => exact .inl (hother (Table.assign_tcp _ _ _) (by simp +contextual) hp)
    | @close i call j lingers _ _ _ hown =>
      rw [Table.release_tcp] at hp
      rcases Table.closePcb_tcp (T := s.table) j lingers p with heq | ⟨-, -, heq⟩
      · exact .inl ⟨status, by rw [← heq]; exact hp, hopen⟩
      · -- it was connected before
        rw [heq, Option.bind_eq_some_iff] at hp
        obtain ⟨⟨arg, status'⟩, hroute, hclose⟩ := hp
        rw [Route.close, Option.ite_none_right_eq_some] at hclose
        obtain ⟨⟨hactive, -⟩, hclose⟩ := hclose
        cases hclose
        have hactive : status' = .active := hactive
        exact .inl ⟨status', hroute, by rw [hactive]; simp⟩
    | @listen i j portNumber ipaddr q l arg _ hown hproto haddr =>
      rw [Table.store_tcp, Table.setTcp_tcp] at hp
      split at hp
      · next hl =>
        have hheld : s.table.holds j = some (.tcp q) := by
          rw [Table.holds, hT.pcb_eq hown.1 hproto haddr]
          rfl
        exact .inr (.inl ⟨j, by simp [started, hheld, hl]⟩)
      · exact .inl (hother rfl (by simp) hp)
    | @connect i j portNumber ipaddr q arg _ hown hproto haddr =>
      rw [Table.setTcp_tcp] at hp
      split at hp
      · next hq =>
        have hheld : s.table.holds j = some (.tcp q) := by
          rw [Table.holds, hT.pcb_eq hown.1 hproto haddr]
          rfl
        exact .inr (.inl ⟨j, by simp [started, hheld, hq]⟩)
      · exact .inl ⟨status, hp, hopen⟩
    | @syn l n arg _ hl =>
      rw [Table.setTcp_tcp] at hp
      split at hp
      · next hn =>
        cases hp
        exact .inr (.inr ⟨l, n, rfl, by rw [hn], .listen, hl, by simp⟩)
      · exact .inl ⟨status, hp, hopen⟩
    | @accepted l n arg j _ harg hproto hfree =>
      rw [Table.setTcp_tcp] at hp
      split at hp
      · next hn =>
        have hroom := room_of_accept hT hq hok hs
        have hgrants : grants cfg s (.happens (.tcpEvent n arg .accept)) = some j :=
          (if_pos ⟨harg, hproto, hroom⟩).trans hfree
        exact .inr (.inl ⟨j, by simp [started, hgrants, hn]⟩)
      · exact .inl ⟨status, hp, hopen⟩
    | acceptAborted =>
      rw [Table.release_tcp] at hp
      exact .inl (hother (by simp) (by simp) hp)
    | acceptRefused | err =>
      rw [Table.release_tcp] at hp
      exact .inl (hother rfl (by simp) hp)
    | reap => exact .inl (hother rfl (by simp) hp)

/-! ### Events and their control blocks -/

/-- A client with room in its queue that slot `k` names is an attached client that owns it. -/
theorem TableOk.ownedBy_of_hasRoom (hT : TableOk cfg s.table) {c : ℕ}
    (hroom : HasRoom cfg s.queue c) (hc : getClientInfo cfg s k = c) :
    c < cfg.nXtcp ∧ s.table.OwnedBy cfg c k := by
  have hlt : c < deinit := lt_of_lt_of_le hroom.1 cfg.clients_le
  unfold getClientInfo at hc
  split at hc
  · next hk =>
    refine ⟨?_, hk, hc⟩
    have hslot := hT.slot k hk
    have hc' : (s.table.slot k).clientNum = c := hc
    rw [← hc']
    refine hslot.owner ?_
    by_contra hinactive
    rw [hslot.reset (by simpa using hinactive)] at hc'
    have hc' : deinit = c := hc'
    omega
  · omega

/-- **What a step posts about a connection is raised by a control block with the number of the
connection**, unless the connection has just been accepted; and it is for the owner of the slot. -/
theorem raised_of_posts (hT : TableOk cfg s.table) {h : Happening} (hok : HappeningAllowed s h)
    {c : ℕ} {e : ClientEvent} (he : e ∈ postsTo cfg c s (.happens h))
    (hroom : HasRoom cfg s.queue c) (hk : e.concerns k = true) :
    (∃ n arg, h = .tcpEvent n arg .accept ∧ grants cfg s (.happens h) = some k ∧
        s.table.OwnedBy cfg c arg ∧ c < cfg.nXtcp) ∨
      (∃ x, (Action.happens h).raisedBy = some x ∧ CallsBack s k x) ∧
        started cfg s (.happens h) = none ∧ s.table.OwnedBy cfg c k ∧ c < cfg.nXtcp := by
  have hid : ∀ {d id ev}, e ∈ addressed c [(d, ⟨ev, id⟩)] →
      d = c ∧ id = k ∧ ev.connectionless = false := by
    intro d id ev he
    rw [addressed_singleton] at he
    split at he
    · next hd =>
      rw [List.mem_singleton.mp he, ClientEvent.concerns, Bool.and_eq_true,
        decide_eq_true_eq] at hk
      exact ⟨hd, hk.2, by simpa using hk.1⟩
    · cases he
  have hlink : ∀ {ev : EventType}, ev.connectionless = true →
      e ∉ addressed c ((List.range cfg.nXtcp).map fun i => (i, ⟨ev, 0⟩)) := by
    intro ev hev he
    rw [addressed_range] at he
    split at he
    · rw [List.mem_singleton.mp he, ClientEvent.concerns, hev] at hk
      cases hk
    · cases he
  cases h with
  | tcpEvent p arg callback =>
    obtain ⟨status, hp, hraises⟩ := tcpEvent_route hok
    have hopen : status ≠ .closed := by
      rintro rfl
      cases callback with
      | recv cells => exact hraises.2
      | _ => cases hraises
    by_cases hacc : callback = .accept
    · subst hacc
      simp only [postsTo, posts] at he
      cases hslot : acceptSlot cfg s arg with
      | some j =>
        rw [hslot] at he
        obtain ⟨rfl, rfl, -⟩ := hid he
        unfold acceptSlot at hslot
        rw [Option.ite_none_right_eq_some] at hslot
        obtain ⟨⟨harg, hproto⟩, hfree⟩ := hslot
        have hclient : getClientInfo cfg s arg = (s.connections arg).clientNum := by
          rw [getClientInfo, if_pos harg]
        obtain ⟨hc, hown⟩ := hT.ownedBy_of_hasRoom hroom hclient
        exact .inl ⟨p, arg, rfl, (if_pos ⟨harg, hproto, hroom⟩).trans hfree, hown, hc⟩
      | none =>
        rw [hslot] at he
        obtain ⟨hd, rfl, -⟩ := hid he
        obtain ⟨hc, hown⟩ := hT.ownedBy_of_hasRoom hroom hd
        -- no slot is handed out
        have hgrants : grants cfg s (.happens (.tcpEvent p arg .accept)) = none := by
          unfold acceptSlot at hslot
          unfold grants
          dsimp only
          split
          · next hcond =>
            rw [if_pos ⟨hcond.1, hcond.2.1⟩] at hslot
            exact hslot
          · rfl
        exact .inr ⟨⟨.tcp p, rfl, status, hp, hopen⟩, by simp [started, hgrants], hown, hc⟩
    · have hposts : posts cfg s (.happens (.tcpEvent p arg callback))
          = callback.queued.toList.map fun e => (getClientInfo cfg s arg, ⟨e, arg⟩) := by
        cases callback with
        | accept => exact absurd rfl hacc
        | _ => rfl
      have hstarted : started cfg s (.happens (.tcpEvent p arg callback)) = none := by
        cases callback with
        | accept => exact absurd rfl hacc
        | _ => rfl
      rw [postsTo, hposts] at he
      cases hqueued : callback.queued with
      | none => rw [hqueued] at he; cases he
      | some ev =>
        rw [hqueued] at he
        obtain ⟨hd, rfl, -⟩ := hid he
        obtain ⟨hc, hown⟩ := hT.ownedBy_of_hasRoom hroom hd
        exact .inr ⟨⟨.tcp p, rfl, status, hp, hopen⟩, hstarted, hown, hc⟩
  | udpRecv p arg cells addr port =>
    simp only [postsTo, posts] at he
    cases hhead : deliveredHead cells with
    | none => rw [hhead] at he; cases he
    | some q =>
      rw [hhead] at he
      obtain ⟨hd, rfl, -⟩ := hid he
      obtain ⟨hc, hown⟩ := hT.ownedBy_of_hasRoom hroom hd
      exact .inr ⟨⟨.udp p, rfl, hok.1⟩, rfl, hown, hc⟩
  | dnsFound hasName ipaddr arg => cases (hid he).2.2
  | linkStatus up =>
    cases up with
    | true => cases he
    | false => exact absurd he (hlink rfl)
  | timeout timer hasIpAddress ifState =>
    simp only [postsTo, posts, announcement] at he
    by_cases hup : timer = 0 ∧ hasIpAddress ∧ s.netifNotifyState = false ∧ ifState
    · rw [if_pos hup] at he
      exact absurd he (hlink rfl)
    · rw [if_neg hup] at he
      cases he
  | syn | reap | dropRefused => cases he

end Xtcp
