import Xtcp.ConnectionCalls
import Xtcp.RxChain

/-!
# Received data as queues

The functions of `connection.c` on received data, by themselves.  The chain of a slot is a queue:
`set_remote` puts a pbuf behind the last one, `get_remote` and `get_remote_data` look at the first,
`free_remote_data` takes the first off, and `unlink_remote` takes out the pbuf it is given.  What a
queue holds is a list of items, and the pbufs are where they are kept.

Nothing is asked of the pbufs but that a new one is by itself: it exists, it is linked to no other,
and it is in no chain.

## Main definitions

* `RxItem`, `RxLists` — what the chains stand for.
* `RxOp`, `rxOp`, `RxAllowed` — the calls, and when they may be made.
* `fifoOp` — what they do to the lists.
* `Represents` — the chains hold the lists.

## Main results

* `Represents.step` — every call that may be made returns, and does to the chains what it does to
  the lists.
* `rx_simulates_fifo` — **the chains are first-in first-out queues**.
-/

namespace Xtcp

open Runs LinkedChain

variable {cfg : Config} {s s' t : Server} {m : Pbufs}

/-! ### Queues -/

/-- What one pbuf of a chain stands for. -/
structure RxItem where
  /-- The pbuf. -/
  addr : Ptr
  /-- The address and the port it has come from. -/
  remote : Host
  /-- Its bytes. -/
  payload : Payload
  /-- When it has come. -/
  timestamp : UInt32
  deriving DecidableEq

/-- The item that is kept in a pbuf. -/
def RxItem.of (p : Ptr) (b : Pbuf) : RxItem := ⟨p, b.remote, b.payload, b.timestamp⟩

/-- A queue for each index. -/
abbrev RxLists := ℤ → List RxItem

/-- A call of a function on received data. -/
inductive RxOp
  /-- `set_remote(index, remote, port_number, pbuf)`, with what is at `pbuf` -/
  | setRemote (index : ℤ) (remote : Option IpAddr) (portNumber : UInt16)
      (pbuf : Option (Ptr × Pbuf))
  /-- `get_remote(index)` -/
  | getRemote (index : ℤ)
  /-- `get_remote_data(index, &data, length, &timestamp)` -/
  | getRemoteData (index length : ℤ)
  /-- `free_remote_data(index)` -/
  | freeRemoteData (index : ℤ)
  /-- `unlink_remote(index, pbuf)` -/
  | unlinkRemote (index : ℤ) (pbuf : Option Ptr)
  /-- lwIP works on its own pbufs and control blocks. -/
  | lwip (l : LwipState)

/-- The call of `connection.c`. -/
def RxOp.call : RxOp → ConnectionOp
  | .setRemote index remote portNumber pbuf =>
    .setRemote index remote portNumber (pbuf.map Prod.fst)
  | .getRemote index => .getRemote index
  | .getRemoteData index length => .getRemoteData index length
  | .freeRemoteData index => .freeRemoteData index
  | .unlinkRemote index pbuf => .unlinkRemote index pbuf
  | .lwip l => .lwip l

/-- Carry out a call. -/
def rxOp (cfg : Config) (s : Server) (op : RxOp) : Except Fault (Server × ConnectionReply) :=
  connectionOp cfg s op.call

/-- `p` is a pbuf of the chain of a slot. -/
def InSomeChain (cfg : Config) (s : Server) (p : Ptr) : Prop :=
  ∃ k l, cfg.InRange k ∧ IsChain s.pbufs.nxt (s.connections k).pbuf l ∧ p ∈ l

/-- When a call may be made: `set_remote` is given a pbuf by itself, and lwIP leaves the pbufs of
the chains alone. -/
def RxAllowed (cfg : Config) (s : Server) : RxOp → Prop
  | .setRemote _ _ _ (some (p, b)) =>
    s.pbufs p = some b ∧ b.next = none ∧ ¬ InSomeChain cfg s p
  | .lwip l => ∀ p, InSomeChain cfg s p → l.pbufs p = s.pbufs p
  | _ => True

/-- What `get_remote_data` reports of a queue. -/
def reported (length : ℤ) : List RxItem → RemoteData
  | [] => ⟨⟨.einval, -1⟩, [], 0⟩
  | x :: _ =>
    if length < x.payload.bytes.length then ⟨⟨.eagain, -1⟩, [], x.timestamp⟩
    else ⟨⟨.success, x.payload.bytes.length⟩, x.payload.bytes, x.timestamp⟩

/-- What a call does to the queues, and what it returns. -/
def fifoOp (cfg : Config) (f : RxLists) : RxOp → RxLists × ConnectionReply
  | .setRemote _ _ _ none => (f, .code .einval)
  | .setRemote index remote portNumber (some (p, b)) =>
    if cfg.InRange index then
      (Function.update f index
        (f index ++ [⟨p, ⟨remote.getD {}, portNumber⟩, b.payload, b.timestamp⟩]), .code .success)
    else (f, .code .einval)
  | .getRemote index => (f, .host (((f index).head?.map RxItem.remote).getD {}))
  | .getRemoteData index length => (f, .data (reported length (f index)))
  | .freeRemoteData index =>
    match f index with
    | [] => (f, .code .einval)
    | _ :: l => (Function.update f index l, .code .success)
  | .unlinkRemote _ none => (f, .code .einval)
  | .unlinkRemote index (some p) =>
    if p ∈ (f index).map RxItem.addr then
      (Function.update f index ((f index).filter (·.addr ≠ p)), .code .success)
    else (f, .code .einval)
  | .lwip _ => (f, .unit)

/-- The index is in range, and the pbuf is not `NULL`. -/
def RxOp.Valid (cfg : Config) : RxOp → Prop
  | .setRemote index _ _ pbuf => cfg.InRange index ∧ pbuf ≠ none
  | .getRemote index | .getRemoteData index _ | .freeRemoteData index => cfg.InRange index
  | .unlinkRemote index pbuf => cfg.InRange index ∧ pbuf ≠ none
  | .lwip _ => True

/-- The slot that is called for. -/
def RxOp.index : RxOp → Option ℤ
  | .setRemote index _ _ _ | .getRemote index | .getRemoteData index _ | .freeRemoteData index
  | .unlinkRemote index _ => some index
  | .lwip _ => none

/-- A call changes the queue of its own slot only. -/
theorem fifoOp_other (f : RxLists) {op : RxOp} {j : ℤ} (hj : op.index ≠ some j) :
    (fifoOp cfg f op).1 j = f j := by
  have hupdate : ∀ {k : ℤ}, some k ≠ some j → ∀ l, Function.update f k l j = f j := by
    intro k hk l
    exact Function.update_of_ne (fun hjk : j = k => hk (by rw [hjk])) _ _
  cases op with
  | setRemote k remote port pbuf =>
    rcases pbuf with _ | ⟨p, b⟩
    · rfl
    · rw [fifoOp]
      split
      · exact hupdate hj _
      · rfl
  | freeRemoteData k =>
    rw [fifoOp]
    split
    · rfl
    · exact hupdate hj _
  | unlinkRemote k pbuf =>
    cases pbuf with
    | none => rfl
    | some p =>
      rw [fifoOp]
      split
      · exact hupdate hj _
      · rfl
  | getRemote | getRemoteData | lwip => rfl

/-! ### Replies -/

section rxOp

variable {k : ℤ} {e : ErrorCode}

theorem rxOp_setRemote {remote : Option IpAddr} {port : UInt16} {pbuf : Option (Ptr × Pbuf)}
    (h : setRemote cfg s k remote port (pbuf.map Prod.fst) = .ok (t, e)) :
    rxOp cfg s (.setRemote k remote port pbuf) = .ok (t, .code e) := by
  simp only [rxOp, RxOp.call, connectionOp, h, Bind.bind, Except.bind]

theorem rxOp_freeRemoteData (h : freeRemoteData cfg s k = .ok (t, e)) :
    rxOp cfg s (.freeRemoteData k) = .ok (t, .code e) := by
  simp only [rxOp, RxOp.call, connectionOp, h, Bind.bind, Except.bind]

theorem rxOp_unlinkRemote {pbuf : Option Ptr} (h : unlinkRemote cfg s k pbuf = .ok (t, e)) :
    rxOp cfg s (.unlinkRemote k pbuf) = .ok (t, .code e) := by
  simp only [rxOp, RxOp.call, connectionOp, h, Bind.bind, Except.bind]

end rxOp

/-! ### The queues in the pbufs -/

/-- The item that is kept at `p`. -/
def Pbufs.item (m : Pbufs) (p : Ptr) : Option RxItem := (m p).map (RxItem.of p)

theorem item_update (m : Pbufs) (p : Ptr) (b : Pbuf) :
    Pbufs.item (Function.update m p (some b)) = Function.update m.item p (some (.of p b)) := by
  funext q
  by_cases hq : q = p
  · subst hq; simp [Pbufs.item]
  · simp [Pbufs.item, hq]

/-- Writing a pbuf without changing the item that is kept there. -/
theorem item_update_same {p : Ptr} {b c : Pbuf} (hb : m p = some b)
    (h : RxItem.of p c = RxItem.of p b) :
    Pbufs.item (Function.update m p (some c)) = m.item := by
  rw [item_update, h, Function.update_eq_self_iff, Pbufs.item, hb, Option.map_some]

/-- Writing a link changes no item. -/
theorem item_setLink (s : Server) (k : ℤ) (prev x : Option Ptr) :
    (s.setLink k prev x).pbufs.item = s.pbufs.item := by
  cases prev with
  | none => rfl
  | some q =>
    funext r
    by_cases hr : r = q
    · subst hr
      cases hb : s.pbufs r <;> simp [Pbufs.item, Server.setLink, hb, RxItem.of]
    · simp [Pbufs.item, Server.setLink, hr]

/-- Where the chain of an index starts; there is none out of range. -/
def rxStart (cfg : Config) (s : Server) (k : ℤ) : Option Ptr :=
  if cfg.InRange k then (s.connections k).pbuf else none

/-- The chains hold the queues `f`, and share no pbuf. -/
structure Represents (cfg : Config) (s : Server) (f : RxLists) : Prop where
  /-- The chains are those of the items. -/
  chains : Chains s.pbufs.nxt (rxStart cfg s) fun k => (f k).map RxItem.addr
  /-- Each item is kept in its pbuf. -/
  items : ∀ k, ∀ x ∈ f k, s.pbufs.item x.addr = some x

namespace Represents

variable {f : RxLists} {k : ℤ} {p : Ptr}

/-- The chain of a slot. -/
theorem isChain (h : Represents cfg s f) (hk : cfg.InRange k) :
    IsChain s.pbufs.nxt (s.connections k).pbuf ((f k).map RxItem.addr) := by
  have hchain := h.chains.isChain k
  rwa [rxStart, if_pos hk] at hchain

/-- Nothing is held out of range. -/
theorem eq_nil (h : Represents cfg s f) (hk : ¬ cfg.InRange k) : f k = [] := by
  have hchain := h.chains.isChain k
  rw [rxStart, if_neg hk, IsChain.none_iff] at hchain
  exact List.map_eq_nil_iff.mp hchain

theorem inRange_of_mem (h : Represents cfg s f) (hp : p ∈ (f k).map RxItem.addr) :
    cfg.InRange k := by
  by_contra hk
  rw [h.eq_nil hk] at hp
  cases hp

/-- The pbufs of the chains are those of the items. -/
theorem inSomeChain_iff (h : Represents cfg s f) :
    InSomeChain cfg s p ↔ ∃ k, p ∈ (f k).map RxItem.addr := by
  constructor
  · rintro ⟨k, l, hk, hl, hp⟩
    rw [hl.eq (h.isChain hk)] at hp
    exact ⟨k, hp⟩
  · rintro ⟨k, hp⟩
    have hk := h.inRange_of_mem hp
    exact ⟨k, _, hk, h.isChain hk, hp⟩

/-- A pbuf that is in no queue may be put in one. -/
theorem allowed_setRemote (h : Represents cfg s f) {b : Pbuf} (hb : s.pbufs p = some b)
    (hnext : b.next = none) (hp : ∀ k, p ∉ (f k).map RxItem.addr) (k : ℤ) (remote : Option IpAddr)
    (port : UInt16) : RxAllowed cfg s (.setRemote k remote port (some (p, b))) := by
  refine ⟨hb, hnext, fun hin => ?_⟩
  obtain ⟨j, hj⟩ := h.inSomeChain_iff.mp hin
  exact hp j hj

/-- Nothing has been done to the pbufs of the chains. -/
theorem frame (h : Represents cfg s f) (hconn : s'.connections = s.connections)
    (hpbufs : ∀ p, InSomeChain cfg s p → s'.pbufs p = s.pbufs p) : Represents cfg s' f := by
  have hagree : ∀ k, ∀ x ∈ f k, s'.pbufs x.addr = s.pbufs x.addr := fun k x hx =>
    hpbufs x.addr (h.inSomeChain_iff.mpr ⟨k, List.mem_map_of_mem hx⟩)
  constructor
  · refine h.chains.congr (fun k => by simp only [rxStart, hconn]) fun k p hp => ?_
    obtain ⟨x, hx, rfl⟩ := List.mem_map.mp hp
    simp only [Pbufs.nxt, hagree k x hx]
  · intro k x hx
    simp only [Pbufs.item, hagree k x hx]
    exact h.items k x hx

/-- The queue of one slot has changed. -/
theorem replace (h : Represents cfg s f) (hk : cfg.InRange k) {l : List RxItem}
    (hhead : ∀ j, j ≠ k → s'.connections j = s.connections j)
    (hchain : IsChain s'.pbufs.nxt (s'.connections k).pbuf (l.map RxItem.addr))
    (hagree : ∀ j, j ≠ k → ∀ p ∈ (f j).map RxItem.addr, s'.pbufs p = s.pbufs p)
    (hdisj : ∀ j, j ≠ k → List.Disjoint (l.map RxItem.addr) ((f j).map RxItem.addr))
    (hitems : ∀ x ∈ l, s'.pbufs.item x.addr = some x) :
    Represents cfg s' (Function.update f k l) := by
  constructor
  · have hmap : (fun j => (Function.update f k l j).map RxItem.addr)
        = Function.update (fun j => (f j).map RxItem.addr) k (l.map RxItem.addr) := by
      funext j
      exact Function.apply_update (fun _ => List.map RxItem.addr) f k l j
    rw [hmap]
    refine h.chains.replace k (fun j hj => by simp only [rxStart, hhead j hj]) ?_
      (fun j hj p hp => by simp only [Pbufs.nxt, hagree j hj p hp]) hdisj
    rw [rxStart, if_pos hk]
    exact hchain
  · intro j x hx
    by_cases hj : j = k
    · subst hj
      rw [Function.update_self] at hx
      exact hitems x hx
    · rw [Function.update_of_ne hj] at hx
      rw [Pbufs.item, hagree j hj x.addr (List.mem_map_of_mem hx)]
      exact h.items j x hx

/-! ### One call -/

/-- A pbuf is in the queue of one slot only. -/
theorem notMem (h : Represents cfg s f) {j : ℤ} (hp : p ∈ (f j).map RxItem.addr) (hj : j ≠ k) :
    p ∉ (f k).map RxItem.addr := h.chains.disjoint j k hj hp

/-- The first pbuf of a chain is where the first item is kept. -/
theorem head (h : Represents cfg s f) {x : RxItem} {l : List RxItem} (hf : f k = x :: l) :
    cfg.InRange k ∧ (s.connections k).pbuf = some x.addr ∧ ∃ b, s.pbufs x.addr = some b ∧
      b.remote = x.remote ∧ b.payload = x.payload ∧ b.timestamp = x.timestamp := by
  have hx : x ∈ f k := by rw [hf]; exact List.mem_cons_self
  have hk := h.inRange_of_mem (List.mem_map_of_mem hx)
  have hchain := h.isChain hk
  rw [hf, List.map_cons] at hchain
  obtain ⟨b, hb, hitem⟩ := Option.map_eq_some_iff.mp (h.items k x hx)
  exact ⟨hk, hchain.head_eq, b, hb, congrArg RxItem.remote hitem,
    congrArg RxItem.payload hitem, congrArg RxItem.timestamp hitem⟩

/-- There is nothing to be had from an empty queue. -/
theorem empty (h : Represents cfg s f) (hf : f k = []) :
    getRemote cfg s k = .ok {} ∧
      (∀ length, getRemoteData cfg s k length = .ok ⟨⟨.einval, -1⟩, [], 0⟩) ∧
      freeRemoteData cfg s k = .ok (s, .einval) := by
  have hnone : cfg.InRange k → (s.connections k).pbuf = none := by
    intro hk
    have hchain := h.isChain hk
    rwa [hf, List.map_nil, IsChain.nil_iff] at hchain
  exact ⟨getRemote_of_none hnone, getRemoteData_of_none hnone, freeRemoteData_of_none hnone⟩

/-- **`set_remote`** puts a pbuf by itself at the end of the queue. -/
theorem setRemote (h : Represents cfg s f) (hk : cfg.InRange k) {b : Pbuf}
    (hb : s.pbufs p = some b) (hnext : b.next = none) (hp : ¬ InSomeChain cfg s p)
    (remote : Option IpAddr) (port : UInt16) :
    ∃ t, setRemote cfg s k remote port (some p) = .ok (t, .success) ∧
      Represents cfg t (Function.update f k
        (f k ++ [⟨p, ⟨remote.getD {}, port⟩, b.payload, b.timestamp⟩])) := by
  rw [h.inSomeChain_iff, not_exists] at hp
  refine ⟨_, setRemote_eq hk (h.isChain hk) hb (hp k) remote port, ?_⟩
  refine h.replace hk (fun j hj => setLink_connections_of_ne hj _) ?_ (fun j hj q hq => ?_)
    (fun j hj => ?_) (fun x hx => ?_)
  · -- the pbuf is a chain by itself
    have hone : IsChain s.pbufs.nxt (some p) [p] :=
      .cons (nxt_eq_some.mpr ⟨b, hb, hnext⟩) .nil
    rw [List.map_append, List.map_singleton]
    exact isChain_setRemote (h.isChain hk) hb hone (List.disjoint_singleton.mpr (hp k)) rfl
  · have hqp : q ≠ p := fun hqp => hp j (hqp ▸ hq)
    exact (setLink_pbufs (h.notMem hq hj)).trans (Function.update_of_ne hqp _ _)
  · rw [List.map_append, List.map_singleton, List.disjoint_append_left]
    exact ⟨h.chains.disjoint k j (Ne.symm hj), List.singleton_disjoint.mpr (hp j)⟩
  · rw [item_setLink, withPbuf, item_update]
    rcases List.mem_append.mp hx with hx | hx
    · have hxp : x.addr ≠ p := fun hxp => hp k (hxp ▸ List.mem_map_of_mem hx)
      rw [Function.update_of_ne hxp]
      exact h.items k x hx
    · obtain rfl := List.mem_singleton.mp hx
      exact Function.update_self _ _ _

/-- A queue without one of its items. -/
theorem filter_eq {A B : List RxItem} {x : RxItem} (hnd : ((A ++ x :: B).map RxItem.addr).Nodup) :
    (A ++ x :: B).filter (·.addr ≠ x.addr) = A ++ B := by
  rw [List.map_append, List.map_cons, List.nodup_middle, List.nodup_cons, ← List.map_append] at hnd
  have hne : ∀ y ∈ A ++ B, decide (y.addr ≠ x.addr) = true := by
    intro y hy
    rw [decide_eq_true_eq]
    rintro heq
    exact hnd.1 (heq ▸ List.mem_map_of_mem hy)
  rw [List.filter_append, List.filter_cons_of_neg (by simp), ← List.filter_append,
    List.filter_eq_self.mpr hne]

/-- **`unlink_remote`** takes out the pbuf it is given, which is then linked to no other. -/
theorem unlinkRemote (h : Represents cfg s f) (hp : p ∈ (f k).map RxItem.addr) :
    ∃ t, unlinkRemote cfg s k (some p) = .ok (t, .success) ∧
      Represents cfg t (Function.update f k ((f k).filter (·.addr ≠ p))) ∧
      t.pbufs.nxt p = some none := by
  have hk := h.inRange_of_mem hp
  obtain ⟨x, hx, rfl⟩ := List.mem_map.mp hp
  obtain ⟨b, hb, -⟩ := Option.map_eq_some_iff.mp (h.items k x hx)
  obtain ⟨A, B, hAB⟩ := List.append_of_mem hx
  have hmem : A ++ B ⊆ f k := by
    rw [hAB]
    simp
  have hsub : (A ++ B).map RxItem.addr ⊆ (f k).map RxItem.addr := List.map_subset _ hmem
  have hchain := h.isChain hk
  rw [hAB] at hchain
  have hfilter := filter_eq hchain.nodup
  rw [List.map_append, List.map_cons] at hchain
  obtain ⟨hrest, hnext, hagree⟩ := isChain_unlinkRemote hchain hb rfl
  have hlink : (s.setLink k (A.map RxItem.addr).getLast? b.next).pbufs x.addr = some b := by
    have hxA : x.addr ∉ A.map RxItem.addr := fun hxA =>
      (List.nodup_middle.mp hchain.nodup).notMem (List.mem_append_left _ hxA)
    exact (setLink_pbufs hxA).trans hb
  refine ⟨_, unlinkRemote_eq hk hchain hb, ?_, hnext⟩
  rw [hAB, hfilter]
  refine h.replace hk (fun j hj => setLink_connections_of_ne hj _) ?_ (fun j hj q hq => ?_)
    (fun j hj => ?_) (fun y hy => ?_)
  · rw [List.map_append]
    exact hrest
  · have hqk := h.notMem hq hj
    rw [hAB, List.map_append, List.map_cons] at hqk
    exact hagree q hqk
  · exact List.disjoint_of_subset_left hsub (h.chains.disjoint k j (Ne.symm hj))
  · rw [withPbuf, item_update_same (c := { b with next := none }) hlink rfl, item_setLink]
    exact h.items k y (hmem hy)

/-- **`free_remote_data`** takes off the first item. -/
theorem freeRemoteData (h : Represents cfg s f) {x : RxItem} {l : List RxItem}
    (hf : f k = x :: l) :
    ∃ t, freeRemoteData cfg s k = .ok (t, .success) ∧ Represents cfg t (Function.update f k l) := by
  obtain ⟨hk, hhead, b, hb, -⟩ := h.head hf
  have hx : x ∈ f k := by rw [hf]; exact List.mem_cons_self
  have hchain := h.isChain hk
  rw [hf, List.map_cons] at hchain
  have hlne : ∀ q ∈ l.map RxItem.addr, q ≠ x.addr := fun q hq =>
    ne_of_mem_of_not_mem hq (List.nodup_cons.mp hchain.nodup).1
  have hl : IsChain s.pbufs.nxt b.next (l.map RxItem.addr) :=
    hchain.behind (l := []) (nxt_eq_some.mpr ⟨b, hb, rfl⟩)
  obtain ⟨t, ht, hconn, hoff⟩ := freeRemoteData_head hk hhead hb
  refine ⟨t, ht, h.replace hk (fun j hj => ?_) ?_ (fun j hj q hq => ?_) (fun j hj => ?_)
    (fun z hz => ?_)⟩
  · rw [hconn, Function.update_of_ne hj]
  · rw [hconn, Function.update_self]
    exact hl.congr fun q hq => by simp only [Pbufs.nxt, hoff q (hlne q hq)]
  · refine hoff q fun hqx => h.notMem hq hj ?_
    rw [hqx]
    exact List.mem_map_of_mem hx
  · refine List.disjoint_of_subset_left ?_ (h.chains.disjoint k j (Ne.symm hj))
    rw [hf]
    exact List.map_subset _ (List.subset_cons_self x l)
  · rw [Pbufs.item, hoff z.addr (hlne z.addr (List.mem_map_of_mem hz))]
    exact h.items k z (by rw [hf]; exact List.mem_cons_of_mem x hz)

/-- **`get_remote`** looks at the first item. -/
theorem getRemote (h : Represents cfg s f) (k : ℤ) :
    getRemote cfg s k = .ok (((f k).head?.map RxItem.remote).getD {}) := by
  cases hf : f k with
  | nil => exact (h.empty hf).1
  | cons x l =>
    obtain ⟨hk, hhead, b, hb, hremote, -⟩ := h.head hf
    rw [getRemote_of_some hk hhead hb, hremote]
    rfl

/-- **`get_remote_data`** looks at the same item. -/
theorem getRemoteData (h : Represents cfg s f) (k length : ℤ) :
    getRemoteData cfg s k length = .ok (reported length (f k)) := by
  cases hf : f k with
  | nil => exact (h.empty hf).2.1 length
  | cons x l =>
    obtain ⟨hk, hhead, b, hb, -, hpayload, htimestamp⟩ := h.head hf
    rw [getRemoteData_of_some hk hhead hb, Pbuf.len, hpayload, htimestamp]
    rfl

/-- The queues are as before when they are only looked at. -/
theorem looks (h : Represents cfg s f) (k length : ℤ) :
    rxOp cfg s (.getRemote k) = .ok (s, (fifoOp cfg f (.getRemote k)).2) ∧
      rxOp cfg s (.getRemoteData k length)
        = .ok (s, (fifoOp cfg f (.getRemoteData k length)).2) := by
  constructor
  · simp only [rxOp, RxOp.call, connectionOp, h.getRemote, Bind.bind, Except.bind, fifoOp]
  · simp only [rxOp, RxOp.call, connectionOp, h.getRemoteData, Bind.bind, Except.bind, fifoOp]

/-- **An index out of range, or `NULL`, changes nothing.** -/
theorem invalid (h : Represents cfg s f) {op : RxOp} (hop : ¬ op.Valid cfg) :
    rxOp cfg s op = .ok (s, (fifoOp cfg f op).2) ∧ (fifoOp cfg f op).1 = f := by
  cases op with
  | setRemote k remote port pbuf =>
    rcases pbuf with _ | ⟨p, b⟩
    · refine ⟨rxOp_setRemote ?_, rfl⟩
      unfold Xtcp.setRemote
      split <;> rfl
    · have hk : ¬ cfg.InRange k := fun hk => hop ⟨hk, by simp⟩
      rw [fifoOp, if_neg hk]
      refine ⟨rxOp_setRemote ?_, rfl⟩
      simp only [Xtcp.setRemote, if_neg hk]
  | getRemote k => exact ⟨(h.looks k 0).1, rfl⟩
  | getRemoteData k length => exact ⟨(h.looks k length).2, rfl⟩
  | freeRemoteData k =>
    have hf := h.eq_nil hop
    rw [fifoOp, hf]
    exact ⟨rxOp_freeRemoteData (h.empty hf).2.2, rfl⟩
  | unlinkRemote k pbuf =>
    cases pbuf with
    | none => exact ⟨rfl, rfl⟩
    | some p =>
      have hk : ¬ cfg.InRange k := fun hk => hop ⟨hk, by simp⟩
      have hp : p ∉ (f k).map RxItem.addr := by
        rw [h.eq_nil hk]
        exact List.not_mem_nil
      rw [fifoOp, if_neg hp]
      refine ⟨rxOp_unlinkRemote ?_, rfl⟩
      rw [Xtcp.unlinkRemote, if_neg hk]
  | lwip l => exact absurd trivial hop

/-- **Every call that may be made returns**, with the reply of the queues, and leaves chains that
hold what the queues do. -/
theorem step (h : Represents cfg s f) {op : RxOp} (hop : RxAllowed cfg s op) :
    ∃ t, rxOp cfg s op = .ok (t, (fifoOp cfg f op).2) ∧ Represents cfg t (fifoOp cfg f op).1 := by
  by_cases hvalid : op.Valid cfg
  · cases op with
    | setRemote k remote port pbuf =>
      obtain ⟨hk, hne⟩ := hvalid
      obtain ⟨⟨p, b⟩, rfl⟩ := Option.ne_none_iff_exists'.mp hne
      obtain ⟨hb, hnext, hp⟩ := hop
      obtain ⟨t, ht, hrep⟩ := h.setRemote hk hb hnext hp remote port
      rw [fifoOp, if_pos hk]
      exact ⟨t, rxOp_setRemote ht, hrep⟩
    | getRemote k => exact ⟨s, (h.looks k 0).1, h⟩
    | getRemoteData k length => exact ⟨s, (h.looks k length).2, h⟩
    | freeRemoteData k =>
      cases hf : f k with
      | nil =>
        rw [fifoOp, hf]
        exact ⟨s, rxOp_freeRemoteData (h.empty hf).2.2, h⟩
      | cons x l =>
        obtain ⟨t, ht, hrep⟩ := h.freeRemoteData hf
        rw [fifoOp, hf]
        exact ⟨t, rxOp_freeRemoteData ht, hrep⟩
    | unlinkRemote k pbuf =>
      obtain ⟨hk, hne⟩ := hvalid
      obtain ⟨p, rfl⟩ := Option.ne_none_iff_exists'.mp hne
      by_cases hp : p ∈ (f k).map RxItem.addr
      · obtain ⟨t, ht, hrep, -⟩ := h.unlinkRemote hp
        rw [fifoOp, if_pos hp]
        exact ⟨t, rxOp_unlinkRemote ht, hrep⟩
      · have hnot := unlinkRemote_notMem hk (h.isChain hk) hp
        rw [fifoOp, if_neg hp]
        exact ⟨s, rxOp_unlinkRemote hnot, h⟩
    | lwip l => exact ⟨s.withLwip l, rfl, h.frame rfl hop⟩
  · obtain ⟨hs, hf⟩ := h.invalid hvalid
    exact ⟨s, hs, by rw [hf]; exact h⟩

/-- **`set_remote` and then `unlink_remote`** leaves the queues as they have been. -/
theorem setRemote_unlinkRemote (h : Represents cfg s f) (hk : cfg.InRange k) {b : Pbuf}
    {remote : Option IpAddr} {port : UInt16}
    (hop : RxAllowed cfg s (.setRemote k remote port (some (p, b)))) :
    ∃ t u, rxOp cfg s (.setRemote k remote port (some (p, b))) = .ok (t, .code .success) ∧
      rxOp cfg t (.unlinkRemote k (some p)) = .ok (u, .code .success) ∧ Represents cfg u f := by
  obtain ⟨hb, hnext, hp⟩ := hop
  obtain ⟨t, ht, hrep⟩ := h.setRemote hk hb hnext hp remote port
  obtain ⟨u, hu, hrep', -⟩ := hrep.unlinkRemote (k := k) (p := p) (by simp)
  have hnd := (hrep.isChain hk).nodup
  rw [Function.update_self] at hnd
  rw [Function.update_self, filter_eq hnd, List.append_nil, Function.update_idem,
    Function.update_eq_self] at hrep'
  exact ⟨t, u, rxOp_setRemote ht, rxOp_unlinkRemote hu, hrep'⟩

end Represents

/-! ### Runs -/

/-- What a call from `s` to `t` with the reply `r` is to do to the queues `f`. -/
structure ActsAsFifo (cfg : Config) (f : RxLists) (op : RxOp) (s t : Server) (r : ConnectionReply) :
    Prop where
  /-- The chains hold what the queues do afterwards. -/
  represents : Represents cfg t (fifoOp cfg f op).1
  /-- The reply is that of the queues. -/
  reply : r = (fifoOp cfg f op).2
  /-- The queues of other slots are as before. -/
  others : ∀ j, op.index ≠ some j → (fifoOp cfg f op).1 j = f j
  /-- An index out of range, or `NULL`, changes nothing. -/
  unchanged : ¬ op.Valid cfg → t = s
  /-- A pbuf that has been taken out is linked to no other. -/
  unlinked : ∀ k p, op = .unlinkRemote k (some p) → r = .code .success →
    t.pbufs.nxt p = some none

theorem Represents.actsAsFifo {f : RxLists} (h : Represents cfg s f) {op : RxOp}
    (hop : RxAllowed cfg s op) : ∃ t r, rxOp cfg s op = .ok (t, r) ∧ ActsAsFifo cfg f op s t r := by
  obtain ⟨t, ht, hrep⟩ := h.step hop
  refine ⟨t, _, ht, hrep, rfl, fun j hj => fifoOp_other f hj, fun hvalid => ?_, ?_⟩
  · have hs := (h.invalid hvalid).1
    rw [hs] at ht
    cases ht
    rfl
  · rintro k p rfl hsuccess
    by_cases hp : p ∈ (f k).map RxItem.addr
    · obtain ⟨u, hu, -, hnext⟩ := h.unlinkRemote hp
      rw [rxOp_unlinkRemote hu] at ht
      obtain rfl : u = t := congrArg Prod.fst (Except.ok.inj ht)
      exact hnext
    · rw [fifoOp, if_neg hp] at hsuccess
      cases hsuccess

/-- The queues after a sequence of calls, from empty ones. -/
def queues (cfg : Config) (ops : List RxOp) : RxLists :=
  (answers (fifoOp cfg) (fun _ => []) ops).1

/-- **The chains are first-in first-out queues**: whatever calls are made from empty chains on, each
slot holds the queue that the calls have made, the replies have been those of the queues, and every
call that may come next returns and does the same to the chain as to the queue. -/
theorem rx_simulates_fifo (hempty : ∀ k, cfg.InRange k → (s.connections k).pbuf = none)
    {tr : List (RxOp × ConnectionReply)} (hrun : Run (rxOp cfg) (RxAllowed cfg) s tr t) :
    Represents cfg t (queues cfg (tr.map Prod.fst)) ∧
      tr.map Prod.snd = (answers (fifoOp cfg) (fun _ => []) (tr.map Prod.fst)).2 ∧
      (∀ op, RxAllowed cfg t op → ∃ t' r, rxOp cfg t op = .ok (t', r) ∧
        ActsAsFifo cfg (queues cfg (tr.map Prod.fst)) op t t' r) ∧
      ∀ k remote port p b, cfg.InRange k →
        RxAllowed cfg t (.setRemote k remote port (some (p, b))) →
        ∃ t' t'', rxOp cfg t (.setRemote k remote port (some (p, b))) = .ok (t', .code .success) ∧
          rxOp cfg t' (.unlinkRemote k (some p)) = .ok (t'', .code .success) ∧
          Represents cfg t'' (queues cfg (tr.map Prod.fst)) := by
  have hstart : Represents cfg s fun _ => [] := by
    refine ⟨⟨fun k => ?_, fun _ _ _ => List.disjoint_nil_left _⟩, by simp⟩
    rw [List.map_nil, IsChain.nil_iff, rxStart]
    split
    · next hk => exact hempty k hk
    · rfl
  have hstep : ∀ s f op s' r, Represents cfg s f → RxAllowed cfg s op →
      rxOp cfg s op = .ok (s', r) →
        Represents cfg s' (fifoOp cfg f op).1 ∧ r = (fifoOp cfg f op).2 := by
    intro s f op s' r hrep hop hs
    obtain ⟨t, ht, hrep'⟩ := hrep.step hop
    rw [hs] at ht
    cases ht
    exact ⟨hrep', rfl⟩
  obtain ⟨hrep, hreplies⟩ := hrun.simulates hstart hstep
  exact ⟨hrep, hreplies, fun op hop => hrep.actsAsFifo hop,
    fun k remote port p b hk hop => hrep.setRemote_unlinkRemote hk hop⟩

/-- Two pbufs have come for slot 0, and the first is taken out again. -/
theorem rx_simulates_fifo_unlinked : ∃ tr t,
    Run (rxOp .small) (RxAllowed .small) Server.static tr t ∧
    tr.map Prod.snd = [.unit, .code .success, .code .success, .code .success] ∧
    t.pbufs.nxt 20 = some none ∧ (t.connections 0).pbuf = some 21 ∧
    Represents .small t (queues .small (tr.map Prod.fst)) := by
  let b : Pbuf := { payload := ⟨[1, 2], by decide⟩, totLen := 2, timestamp := 5 }
  let c : Pbuf := { payload := ⟨[3], by decide⟩, totLen := 1, timestamp := 6 }
  have hempty : ∀ k, Config.small.InRange k → (Server.static.connections k).pbuf = none :=
    fun _ _ => rfl
  have hnil : Run (rxOp .small) (RxAllowed .small) Server.static [] Server.static := .nil
  have hnone : ∀ p, ¬ InSomeChain .small Server.static p := by
    intro p hp
    obtain ⟨k, hk⟩ := (rx_simulates_fifo hempty hnil).1.inSomeChain_iff.mp hp
    cases hk
  have hlwip : Run (rxOp .small) (RxAllowed .small) Server.static
      [(.lwip { Server.static.lwip with
        pbufs := Function.update (Function.update (fun _ => none) 20 (some b)) 21 (some c) },
          .unit)] _ :=
    hnil.snoc (fun p hp => absurd hp (hnone p)) rfl
  have hok := (rx_simulates_fifo hempty hlwip).1.allowed_setRemote (p := 20) (b := b) rfl rfl
    (fun _ => List.not_mem_nil) 0 none 7
  have hfirst := hlwip.snoc hok rfl
  have hok' := (rx_simulates_fifo hempty hfirst).1.allowed_setRemote (p := 21) (b := c) rfl rfl
    (fun k => by
      show 21 ∉ (Function.update (fun _ => []) (0 : ℤ)
        [RxItem.mk 20 ⟨{}, 7⟩ b.payload b.timestamp] k).map RxItem.addr
      by_cases hk : k = 0
      · subst hk
        simp
      · simp [hk]) 0 none 8
  have hsecond := hfirst.snoc hok' rfl
  have hunlink : ∀ u, RxAllowed .small u (.unlinkRemote 0 (some 20)) := fun _ => trivial
  have hlast := hsecond.snoc (hunlink _) rfl
  exact ⟨_, _, hlast, rfl, rfl, rfl, (rx_simulates_fifo hempty hlast).1⟩

end Xtcp
