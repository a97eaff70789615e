import Xtcp.Types
import Xtcp.Library.Cyclic

/-!
# The event queues of the clients

`client_queue.c`: one ring of events per client, in a two-dimensional array with
a head and a count for each row, and the notification flag that
`client_intf_notify` of `xtcp_shim.xc` raises on the client's interface.

The abstract layer is one list of events per client (`Fifo`), bounded by
`CLIENT_QUEUE_SIZE`; `contents` reads a row's list out of the ring.

## Main definitions

* `ClientQueue` — the three static arrays and the notification flags.
* `enqueueEventAndNotify`, `dequeueEvent`, `freeNotificationsOnQueue`,
  `renotify`, `xtcpInitQueue` — the functions of the source.
* `contents` — the events queued for a client, in order.
* `QueueOk` — heads and counts are in bounds.
* `QueueOp.run`, `QueueOp.spec` — one call, on the arrays and on the lists.

## Main results

* `contents_enqueue`, `contents_dequeue`, `contents_free` — what each call does
  to the list of a client, and that it leaves the others alone.
* `simulates_fifo` — every sequence of calls on the arrays gives the results
  that it gives on the lists.
-/

namespace Xtcp

/-- The state of `client_queue.c`, and the notifications raised on the client
interfaces and not yet taken. -/
structure ClientQueue where
  /-- `client_queue[client_num][position]` -/
  clientQueue : ℕ → ℤ → ClientEvent
  /-- `client_heads[client_num]` -/
  clientHeads : ℕ → ℤ
  /-- `client_num_events[client_num]` -/
  clientNumEvents : ℕ → ℤ
  /-- `event_ready` is pending on the interface of the client. -/
  eventReady : ℕ → Bool

namespace ClientQueue

/-- The static initial value of the arrays. -/
def static : ClientQueue where
  clientQueue := fun _ _ => ⟨.none, 0⟩
  clientHeads := fun _ => 0
  clientNumEvents := fun _ => 0
  eventReady := fun _ => false

end ClientQueue

/-- `xtcp_init_queue` -/
def xtcpInitQueue (q : ClientQueue) : ClientQueue :=
  { q with
    clientQueue := fun _ _ => ⟨.none, 0⟩
    clientHeads := fun _ => 0
    clientNumEvents := fun _ => 0 }

variable (cfg : Config)

/-- `client_intf_notify` of `xtcp_shim.xc`: raise `event_ready` on the client's
interface. -/
def clientIntfNotify (q : ClientQueue) (clientNum : ℕ) : ClientQueue :=
  if cfg.nXtcp ≠ 0 then { q with eventReady := Function.update q.eventReady clientNum true } else q

/-- `renotify` -/
def renotify (q : ClientQueue) (clientNum : ℕ) : ClientQueue :=
  if clientNum < cfg.maxXtcpClients ∧ q.clientNumEvents clientNum > 0 then
    clientIntfNotify cfg q clientNum
  else q

/-- `dequeue_event` -/
def dequeueEvent (q : ClientQueue) (clientNum : ℕ) : ClientQueue × ClientEvent :=
  if clientNum < cfg.maxXtcpClients ∧ q.clientNumEvents clientNum > 0 then
    let position := q.clientHeads clientNum
    ({ q with
        clientNumEvents :=
          Function.update q.clientNumEvents clientNum (q.clientNumEvents clientNum - 1)
        clientHeads := Function.update q.clientHeads clientNum
          ((q.clientHeads clientNum + 1) % cfg.clientQueueSize) },
      q.clientQueue clientNum position)
  else (q, ⟨.none, -1⟩)

/-- `enqueue_event_and_notify` -/
def enqueueEventAndNotify (q : ClientQueue) (clientNum : ℕ) (id : ℤ) (xtcpEvent : EventType) :
    ClientQueue × ErrorCode :=
  if clientNum < cfg.maxXtcpClients then
    if q.clientNumEvents clientNum < cfg.clientQueueSize then
      let position :=
        (q.clientHeads clientNum + q.clientNumEvents clientNum) % cfg.clientQueueSize
      (clientIntfNotify cfg
        { q with
          clientQueue := Function.update q.clientQueue clientNum
            (Function.update (q.clientQueue clientNum) position ⟨xtcpEvent, id⟩)
          clientNumEvents :=
            Function.update q.clientNumEvents clientNum (q.clientNumEvents clientNum + 1) }
        clientNum, .success)
    else (q, .enomem)
  else (q, .einval)

/-- The variables of the loop of `free_notifications_on_queue`. -/
structure FreeLoop where
  /-- The arrays, changed in place. -/
  queue : ClientQueue
  /-- `write_index` -/
  writeIndex : ℤ
  /-- `read_index` -/
  readIndex : ℤ
  /-- `result`: the number of events removed so far. -/
  result : ℤ

/-- The body of the loop of `free_notifications_on_queue`. -/
def freeLoopBody (clientNum : ℕ) (id : ℤ) (st : FreeLoop) : FreeLoop :=
  let q := st.queue
  let row := q.clientQueue clientNum
  if (row st.readIndex).id = id then
    -- Found match on `id`, so remove this event from the queue
    { queue :=
        { q with
          clientNumEvents :=
            Function.update q.clientNumEvents clientNum (q.clientNumEvents clientNum - 1) }
      writeIndex := st.writeIndex
      readIndex := if st.readIndex + 1 ≥ cfg.clientQueueSize then 0 else st.readIndex + 1
      result := st.result + 1 }
  else
    -- Move non-matches to the write index
    { queue :=
        if st.writeIndex ≠ st.readIndex then
          { q with
            clientQueue := Function.update q.clientQueue clientNum
              (Function.update row st.writeIndex (row st.readIndex)) }
        else q
      writeIndex := if st.writeIndex + 1 ≥ cfg.clientQueueSize then 0 else st.writeIndex + 1
      readIndex := if st.readIndex + 1 ≥ cfg.clientQueueSize then 0 else st.readIndex + 1
      result := st.result }

/-- `free_notifications_on_queue` -/
def freeNotificationsOnQueue (q : ClientQueue) (clientNum : ℕ) (id : ℤ) : ClientQueue × ℤ :=
  if clientNum < cfg.maxXtcpClients then
    let count := q.clientNumEvents clientNum
    let st := (freeLoopBody cfg clientNum id)^[count.toNat]
      ⟨q, q.clientHeads clientNum, q.clientHeads clientNum, 0⟩
    (st.queue, st.result)
  else (q, 0)

/-! ### The list of a client -/

/-- The events queued for a client, in order: `client_num_events` entries read
cyclically from `client_heads`. -/
def contents (q : ClientQueue) (clientNum : ℕ) : List ClientEvent :=
  Cyclic.read (q.clientQueue clientNum) cfg.clientQueueSize (q.clientHeads clientNum)
    (q.clientNumEvents clientNum).toNat

/-- The head and the count of every client are in bounds. -/
structure QueueOk (q : ClientQueue) : Prop where
  /-- `0 ≤ head` -/
  head_nonneg : ∀ c, 0 ≤ q.clientHeads c
  /-- `head < CLIENT_QUEUE_SIZE` -/
  head_lt : ∀ c, q.clientHeads c < cfg.clientQueueSize
  /-- `0 ≤ count` -/
  num_nonneg : ∀ c, 0 ≤ q.clientNumEvents c
  /-- `count ≤ CLIENT_QUEUE_SIZE` -/
  num_le : ∀ c, q.clientNumEvents c ≤ cfg.clientQueueSize

variable {cfg} {q : ClientQueue}

theorem length_contents (hq : QueueOk cfg q) (c : ℕ) :
    ((contents cfg q c).length : ℤ) = q.clientNumEvents c := by
  rw [contents, Cyclic.length_read, Int.toNat_of_nonneg (hq.num_nonneg c)]

/-- The list of a client only depends on its own row, head and count. -/
theorem contents_congr {q' : ClientQueue} {c : ℕ} (hrow : q'.clientQueue c = q.clientQueue c)
    (hhead : q'.clientHeads c = q.clientHeads c)
    (hnum : q'.clientNumEvents c = q.clientNumEvents c) :
    contents cfg q' c = contents cfg q c := by
  simp only [contents, hrow, hhead, hnum]

theorem queueOk_static : QueueOk cfg ClientQueue.static :=
  ⟨fun _ => le_rfl, fun _ => Int.natCast_pos.mpr cfg.size_pos, fun _ => le_rfl,
    fun _ => Int.natCast_nonneg _⟩

theorem queueOk_init : QueueOk cfg (xtcpInitQueue q) :=
  ⟨fun _ => le_rfl, fun _ => Int.natCast_pos.mpr cfg.size_pos, fun _ => le_rfl,
    fun _ => Int.natCast_nonneg _⟩

@[simp] theorem contents_init (c : ℕ) : contents cfg (xtcpInitQueue q) c = [] := rfl

@[simp] theorem contents_notify (c d : ℕ) :
    contents cfg (clientIntfNotify cfg q d) c = contents cfg q c := by
  unfold clientIntfNotify
  split <;> rfl

theorem queueOk_notify (hq : QueueOk cfg q) (c : ℕ) : QueueOk cfg (clientIntfNotify cfg q c) := by
  unfold clientIntfNotify
  split
  · exact ⟨hq.head_nonneg, hq.head_lt, hq.num_nonneg, hq.num_le⟩
  · exact hq

@[simp] theorem contents_renotify (c d : ℕ) :
    contents cfg (renotify cfg q d) c = contents cfg q c := by
  unfold renotify
  split
  · exact contents_notify c d
  · rfl

theorem queueOk_renotify (hq : QueueOk cfg q) (c : ℕ) : QueueOk cfg (renotify cfg q c) := by
  unfold renotify
  split
  · exact queueOk_notify hq c
  · exact hq

/-! ### Enqueue and dequeue -/

/-- Changing one entry of the heads and one of the counts, within the bounds. -/
theorem QueueOk.update (hq : QueueOk cfg q) (c : ℕ) (row : ℕ → ℤ → ClientEvent) (head num : ℤ)
    (h0 : 0 ≤ head) (h1 : head < cfg.clientQueueSize) (h2 : 0 ≤ num)
    (h3 : num ≤ cfg.clientQueueSize) :
    QueueOk cfg { q with
      clientQueue := row
      clientHeads := Function.update q.clientHeads c head
      clientNumEvents := Function.update q.clientNumEvents c num } := by
  constructor <;> intro d <;> by_cases hd : d = c
  · subst hd; simpa using h0
  · simpa [hd] using hq.head_nonneg d
  · subst hd; simpa using h1
  · simpa [hd] using hq.head_lt d
  · subst hd; simpa using h2
  · simpa [hd] using hq.num_nonneg d
  · subst hd; simpa using h3
  · simpa [hd] using hq.num_le d

/-- `enqueue_event_and_notify` rejects an invalid client number. -/
theorem enqueue_of_not_lt {c : ℕ} (hc : ¬ c < cfg.maxXtcpClients) (id : ℤ) (e : EventType) :
    enqueueEventAndNotify cfg q c id e = (q, .einval) := by
  simp [enqueueEventAndNotify, hc]

/-- `enqueue_event_and_notify` rejects an event when the queue is full. -/
theorem enqueue_of_full (hq : QueueOk cfg q) {c : ℕ} (hc : c < cfg.maxXtcpClients)
    (hfull : ¬ (contents cfg q c).length < cfg.clientQueueSize) (id : ℤ) (e : EventType) :
    enqueueEventAndNotify cfg q c id e = (q, .enomem) := by
  have hn : ¬ q.clientNumEvents c < cfg.clientQueueSize := by
    rw [← length_contents hq]; exact_mod_cast hfull
  simp [enqueueEventAndNotify, hc, hn]

/-- Otherwise it is accepted. -/
theorem enqueue_success (hq : QueueOk cfg q) {c : ℕ} (hc : c < cfg.maxXtcpClients)
    (hroom : (contents cfg q c).length < cfg.clientQueueSize) (id : ℤ) (e : EventType) :
    (enqueueEventAndNotify cfg q c id e).2 = .success := by
  have hn : q.clientNumEvents c < cfg.clientQueueSize := by
    rw [← length_contents hq]; exact_mod_cast hroom
  simp [enqueueEventAndNotify, hc, hn]

/-- An accepted event found a valid client number and room in its queue. -/
theorem enqueue_success_iff (hq : QueueOk cfg q) {c : ℕ} {id : ℤ} {e : EventType} :
    (enqueueEventAndNotify cfg q c id e).2 = .success ↔
      c < cfg.maxXtcpClients ∧ (contents cfg q c).length < cfg.clientQueueSize := by
  constructor
  · intro h
    by_cases hc : c < cfg.maxXtcpClients
    · refine ⟨hc, ?_⟩
      by_contra hfull
      rw [enqueue_of_full hq hc hfull] at h
      cases h
    · rw [enqueue_of_not_lt hc] at h
      cases h
  · rintro ⟨hc, hroom⟩
    exact enqueue_success hq hc hroom id e

/-- A rejected event changes nothing. -/
theorem enqueue_of_ne_success {c : ℕ} {id : ℤ} {e : EventType}
    (h : (enqueueEventAndNotify cfg q c id e).2 ≠ .success) :
    (enqueueEventAndNotify cfg q c id e).1 = q := by
  unfold enqueueEventAndNotify at h ⊢
  split
  · next hc =>
    rw [if_pos hc] at h
    split
    · next hn => rw [if_pos hn] at h; exact absurd rfl h
    · rfl
  · rfl

/-- **An accepted event goes to the end of the client's list**; the other lists
are untouched. -/
theorem contents_enqueue (hq : QueueOk cfg q) {c : ℕ} {id : ℤ} {e : EventType}
    (h : (enqueueEventAndNotify cfg q c id e).2 = .success) (d : ℕ) :
    contents cfg (enqueueEventAndNotify cfg q c id e).1 d
      = if d = c then contents cfg q c ++ [⟨e, id⟩] else contents cfg q d := by
  obtain ⟨hc, hroom⟩ := (enqueue_success_iff hq).mp h
  have hn : q.clientNumEvents c < cfg.clientQueueSize := by
    rw [← length_contents hq]; exact_mod_cast hroom
  simp only [enqueueEventAndNotify, hc, hn, if_true, contents_notify]
  split
  · next hd =>
    subst hd
    have hnum : ((q.clientNumEvents d).toNat : ℤ) = q.clientNumEvents d :=
      Int.toNat_of_nonneg (hq.num_nonneg d)
    have hsucc : (q.clientNumEvents d + 1).toNat = (q.clientNumEvents d).toNat + 1 := by omega
    simp only [contents, Function.update_self, hsucc]
    rw [← Cyclic.read_push (q.clientQueue d) (by omega), hnum]
  · next hd =>
    exact contents_congr (Function.update_of_ne hd _ _) rfl (Function.update_of_ne hd _ _)

/-- Queueing an event that is not looked for. -/
theorem filter_enqueue (hq : QueueOk cfg q) {P : ClientEvent → Bool} {c : ℕ} {id : ℤ}
    {e : EventType} (h : P ⟨e, id⟩ = false) (d : ℕ) :
    (contents cfg (enqueueEventAndNotify cfg q c id e).1 d).filter P
      = (contents cfg q d).filter P := by
  by_cases hsucc : (enqueueEventAndNotify cfg q c id e).2 = .success
  · rw [contents_enqueue hq hsucc]
    split
    · next hd => subst hd; simp [h]
    · rfl
  · rw [enqueue_of_ne_success hsucc]

theorem queueOk_enqueue (hq : QueueOk cfg q) (c : ℕ) (id : ℤ) (e : EventType) :
    QueueOk cfg (enqueueEventAndNotify cfg q c id e).1 := by
  unfold enqueueEventAndNotify
  split
  · split
    · next hn =>
      refine queueOk_notify ?_ c
      have h := hq.update c (Function.update q.clientQueue c
        (Function.update (q.clientQueue c)
          ((q.clientHeads c + q.clientNumEvents c) % cfg.clientQueueSize) ⟨e, id⟩))
        (q.clientHeads c) (q.clientNumEvents c + 1) (hq.head_nonneg c) (hq.head_lt c)
        (by have := hq.num_nonneg c; omega) (by omega)
      rwa [Function.update_eq_self] at h
    · exact hq
  · exact hq

/-- `dequeue_event` on an empty queue, or for an invalid client number. -/
theorem dequeue_of_empty (hq : QueueOk cfg q) {c : ℕ}
    (h : ¬ c < cfg.maxXtcpClients ∨ contents cfg q c = []) :
    dequeueEvent cfg q c = (q, ⟨.none, -1⟩) := by
  have hcond : ¬ (c < cfg.maxXtcpClients ∧ q.clientNumEvents c > 0) := by
    rintro ⟨hc, hn⟩
    rcases h with h | h
    · exact h hc
    · have := length_contents hq c
      rw [h] at this
      simp only [List.length_nil, Nat.cast_zero] at this
      omega
  simp [dequeueEvent, hcond]

/-- **`dequeue_event` takes the first event of the client's list**; the other
lists are untouched. -/
theorem contents_dequeue (hq : QueueOk cfg q) {c : ℕ} {x : ClientEvent} {l : List ClientEvent}
    (hc : c < cfg.maxXtcpClients) (h : contents cfg q c = x :: l) :
    (dequeueEvent cfg q c).2 = x ∧
      ∀ d, contents cfg (dequeueEvent cfg q c).1 d = if d = c then l else contents cfg q d := by
  have hlen := length_contents hq c
  rw [h, List.length_cons] at hlen
  have hpos : q.clientNumEvents c > 0 := by omega
  have hsucc : (q.clientNumEvents c).toNat = (q.clientNumEvents c - 1).toNat + 1 := by omega
  have hhead : q.clientHeads c % cfg.clientQueueSize = q.clientHeads c :=
    Int.emod_eq_of_lt (hq.head_nonneg c) (hq.head_lt c)
  have hsplit := h
  rw [contents, hsucc, Cyclic.read_pop, hhead, List.cons.injEq] at hsplit
  simp only [dequeueEvent, hc, hpos, and_self, if_true]
  refine ⟨hsplit.1, fun d => ?_⟩
  split
  · next hd =>
    subst hd
    simp only [contents, Function.update_self]
    exact hsplit.2
  · next hd =>
    exact contents_congr rfl (Function.update_of_ne hd _ _) (Function.update_of_ne hd _ _)

theorem queueOk_dequeue (hq : QueueOk cfg q) (c : ℕ) : QueueOk cfg (dequeueEvent cfg q c).1 := by
  unfold dequeueEvent
  split
  · next h =>
    have hsize : (0 : ℤ) < cfg.clientQueueSize := Int.natCast_pos.mpr cfg.size_pos
    exact hq.update _ _ _ _ (Int.emod_nonneg _ hsize.ne') (Int.emod_lt_of_pos _ hsize) (by omega)
      (by have := hq.num_le c; omega)
  · exact hq

/-! ### Removing the events of a connection -/

/-- The event is not one with the given id. -/
def ClientEvent.notFor (id : ℤ) (e : ClientEvent) : Bool := decide (e.id ≠ id)

theorem ClientEvent.notFor_eq_true {id : ℤ} {e : ClientEvent} : e.notFor id = true ↔ e.id ≠ id :=
  decide_eq_true_iff

theorem ClientEvent.notFor_eq_false {id : ℤ} {e : ClientEvent} : e.notFor id = false ↔ e.id = id :=
  by simp [ClientEvent.notFor]

/-- The cells of a client's row, with the cursors of the loop. -/
def FreeLoop.cursors (st : FreeLoop) (c : ℕ) : Cyclic.Cursors ClientEvent :=
  ⟨st.queue.clientQueue c, st.writeIndex, st.readIndex⟩

/-- The loop of `free_notifications_on_queue` compacts the client's row. -/
theorem cursors_freeLoopBody (c : ℕ) (id : ℤ) (st : FreeLoop) :
    (freeLoopBody cfg c id st).cursors c
      = Cyclic.compactStep cfg.clientQueueSize (ClientEvent.notFor id) (st.cursors c) := by
  by_cases hid : (st.queue.clientQueue c st.readIndex).id = id
  · have hk : ¬ ClientEvent.notFor id ((st.cursors c).cells (st.cursors c).read) = true :=
      fun h => ClientEvent.notFor_eq_true.mp h hid
    rw [Cyclic.compactStep, if_neg hk]
    simp only [freeLoopBody, FreeLoop.cursors, hid, if_true]
    rfl
  · have hk : ClientEvent.notFor id ((st.cursors c).cells (st.cursors c).read) = true :=
      ClientEvent.notFor_eq_true.mpr hid
    rw [Cyclic.compactStep, if_pos hk]
    by_cases hw : st.writeIndex = st.readIndex <;>
      simp [freeLoopBody, FreeLoop.cursors, hid, hw, Cyclic.wrap]

/-- Where the loop of `free_notifications_on_queue` stands after `j` events. -/
structure Freed (cfg : Config) (q : ClientQueue) (c : ℕ) (id : ℤ) (j : ℕ) (st : FreeLoop) :
    Prop where
  /-- The kept events have been moved to the front of the row. -/
  compacted : Cyclic.Compacted (q.clientQueue c) cfg.clientQueueSize (q.clientHeads c)
    (ClientEvent.notFor id) (q.clientNumEvents c).toNat j (st.cursors c)
  /-- `result` counts the others. -/
  result : st.result + ((Cyclic.read (q.clientQueue c) cfg.clientQueueSize
    (q.clientHeads c) j).filter (ClientEvent.notFor id)).length = j
  /-- The count has gone down by as many. -/
  num : st.queue.clientNumEvents
    = Function.update q.clientNumEvents c (q.clientNumEvents c - st.result)
  /-- The heads have not moved. -/
  heads : st.queue.clientHeads = q.clientHeads
  /-- No notification has been raised. -/
  ready : st.queue.eventReady = q.eventReady
  /-- The other rows are untouched. -/
  rows : ∀ d, d ≠ c → st.queue.clientQueue d = q.clientQueue d

/-- One iteration of the loop. -/
theorem Freed.step {c : ℕ} {id : ℤ} {j : ℕ} {st : FreeLoop} (hq : QueueOk cfg q)
    (h : Freed cfg q c id j st) (hj : j < (q.clientNumEvents c).toNat) :
    Freed cfg q c id (j + 1) (freeLoopBody cfg c id st) := by
  have hsize : (0 : ℤ) < cfg.clientQueueSize := Int.natCast_pos.mpr cfg.size_pos
  have hcount : ((q.clientNumEvents c).toNat : ℤ) ≤ cfg.clientQueueSize := by
    rw [Int.toNat_of_nonneg (hq.num_nonneg c)]; exact hq.num_le c
  have hcell : (st.queue.clientQueue c st.readIndex)
      = q.clientQueue c ((q.clientHeads c + j) % cfg.clientQueueSize) := by
    have hread : st.readIndex = _ := h.compacted.read
    rw [hread]
    exact h.compacted.rest j le_rfl hj
  have hcomp := h.compacted.step hsize hcount hj
  rw [← cursors_freeLoopBody] at hcomp
  have hres := h.result
  have hread : Cyclic.read (q.clientQueue c) cfg.clientQueueSize (q.clientHeads c) (j + 1)
      = Cyclic.read (q.clientQueue c) cfg.clientQueueSize (q.clientHeads c) j
        ++ [st.queue.clientQueue c st.readIndex] := by
    rw [Cyclic.read_succ, hcell]
  by_cases hid : (st.queue.clientQueue c st.readIndex).id = id
  · -- a match: only the count and the result change
    have hbody : freeLoopBody cfg c id st =
        ⟨{ st.queue with
            clientNumEvents :=
              Function.update st.queue.clientNumEvents c (st.queue.clientNumEvents c - 1) },
          st.writeIndex, Cyclic.wrap cfg.clientQueueSize st.readIndex, st.result + 1⟩ := by
      simp only [freeLoopBody, hid, if_true]
      rfl
    refine ⟨hcomp, ?_, ?_, ?_, ?_, ?_⟩ <;> rw [hbody]
    · rw [hread, List.filter_append, List.filter_singleton, ClientEvent.notFor_eq_false.mpr hid]
      simp only [cond_false, List.append_nil]
      push_cast
      omega
    · simp only [h.num, Function.update_self, Function.update_idem]
      congr 1
      ring
    · exact h.heads
    · exact h.ready
    · exact h.rows
  · -- no match: at most the client's row changes
    have hbody : ∃ row, freeLoopBody cfg c id st =
        ⟨{ st.queue with clientQueue := Function.update st.queue.clientQueue c row },
          Cyclic.wrap cfg.clientQueueSize st.writeIndex,
          Cyclic.wrap cfg.clientQueueSize st.readIndex, st.result⟩ := by
      by_cases hw : st.writeIndex = st.readIndex
      · refine ⟨st.queue.clientQueue c, ?_⟩
        rw [Function.update_eq_self]
        simp only [freeLoopBody, hid, hw, ne_eq, not_true_eq_false, if_false]
        rfl
      · refine ⟨Function.update (st.queue.clientQueue c) st.writeIndex
          (st.queue.clientQueue c st.readIndex), ?_⟩
        simp only [freeLoopBody, hid, hw, ne_eq, not_false_eq_true, if_true, if_false]
        rfl
    obtain ⟨row, hbody⟩ := hbody
    refine ⟨hcomp, ?_, ?_, ?_, ?_, ?_⟩ <;> rw [hbody]
    · rw [hread, List.filter_append, List.filter_singleton, ClientEvent.notFor_eq_true.mpr hid]
      simp only [cond_true, List.length_append, List.length_singleton]
      push_cast
      omega
    · exact h.num
    · exact h.heads
    · exact h.ready
    · intro d hd
      exact (Function.update_of_ne hd _ _).trans (h.rows d hd)

/-- The loop after `j` iterations. -/
theorem freed_iterate (hq : QueueOk cfg q) (c : ℕ) (id : ℤ) :
    ∀ j, j ≤ (q.clientNumEvents c).toNat →
      Freed cfg q c id j ((freeLoopBody cfg c id)^[j]
        ⟨q, q.clientHeads c, q.clientHeads c, 0⟩) := by
  intro j
  induction j with
  | zero =>
    intro _
    have hcount : ((q.clientNumEvents c).toNat : ℤ) ≤ cfg.clientQueueSize := by
      rw [Int.toNat_of_nonneg (hq.num_nonneg c)]; exact hq.num_le c
    refine ⟨Cyclic.compacted_compact (q.clientQueue c) _ (hq.head_nonneg c) (hq.head_lt c)
      hcount 0 (Nat.zero_le _), by simp, ?_, rfl, rfl, fun _ _ => rfl⟩
    simp
  | succ j ih =>
    intro hj
    rw [Function.iterate_succ_apply']
    exact (ih (by omega)).step hq (by omega)

/-- `free_notifications_on_queue` at the end of its loop. -/
theorem freed_free (hq : QueueOk cfg q) {c : ℕ} (hc : c < cfg.maxXtcpClients) (id : ℤ) :
    ∃ st : FreeLoop, freeNotificationsOnQueue cfg q c id = (st.queue, st.result) ∧
      Freed cfg q c id (q.clientNumEvents c).toNat st :=
  ⟨_, by simp only [freeNotificationsOnQueue, hc, if_true], freed_iterate hq c id _ le_rfl⟩

/-- **`free_notifications_on_queue` leaves the events of the other
connections**, in their order, and the lists of the other clients. -/
theorem contents_free (hq : QueueOk cfg q) {c : ℕ} (hc : c < cfg.maxXtcpClients) (id : ℤ)
    (d : ℕ) :
    contents cfg (freeNotificationsOnQueue cfg q c id).1 d
      = if d = c then (contents cfg q c).filter (ClientEvent.notFor id)
        else contents cfg q d := by
  obtain ⟨st, heq, h⟩ := freed_free hq hc id
  rw [heq]
  have hcnt : ((q.clientNumEvents c).toNat : ℤ) = q.clientNumEvents c :=
    Int.toNat_of_nonneg (hq.num_nonneg c)
  split
  · next hd =>
    subst hd
    have hkept := h.compacted.kept
    have hlen : (q.clientNumEvents d - st.result).toNat
        = ((Cyclic.read (q.clientQueue d) cfg.clientQueueSize (q.clientHeads d)
          (q.clientNumEvents d).toNat).filter (ClientEvent.notFor id)).length := by
      have := h.result
      omega
    simp only [contents, h.num, h.heads, Function.update_self, hlen]
    exact hkept
  · next hd =>
    refine contents_congr (h.rows d hd) (by rw [h.heads]) ?_
    rw [h.num, Function.update_of_ne hd]

/-- `free_notifications_on_queue` returns the number of events removed. -/
theorem free_result (hq : QueueOk cfg q) {c : ℕ} (hc : c < cfg.maxXtcpClients) (id : ℤ) :
    (freeNotificationsOnQueue cfg q c id).2 = ((contents cfg q c).countP fun e => e.id = id) := by
  obtain ⟨st, heq, h⟩ := freed_free hq hc id
  rw [heq]
  have hres := h.result
  have hlen := List.length_eq_length_filter_add (l := contents cfg q c) (ClientEvent.notFor id)
  have hcount : (contents cfg q c).countP (fun e => e.id = id)
      = ((contents cfg q c).filter fun e => !e.notFor id).length := by
    rw [List.countP_eq_length_filter]
    congr 2
    funext e
    simp [ClientEvent.notFor]
  rw [hcount]
  simp only [contents, Cyclic.length_read] at hlen ⊢
  omega

theorem queueOk_free (hq : QueueOk cfg q) (c : ℕ) (id : ℤ) :
    QueueOk cfg (freeNotificationsOnQueue cfg q c id).1 := by
  by_cases hc : c < cfg.maxXtcpClients
  · obtain ⟨st, heq, h⟩ := freed_free hq hc id
    have hcnt : ((q.clientNumEvents c).toNat : ℤ) = q.clientNumEvents c :=
      Int.toNat_of_nonneg (hq.num_nonneg c)
    have hres := h.result
    have hle := List.length_filter_le (ClientEvent.notFor id)
      (Cyclic.read (q.clientQueue c) cfg.clientQueueSize (q.clientHeads c)
        (q.clientNumEvents c).toNat)
    rw [Cyclic.length_read] at hle
    have hmax := hq.num_le c
    have hup := hq.update c st.queue.clientQueue (q.clientHeads c)
      (q.clientNumEvents c - st.result) (hq.head_nonneg c) (hq.head_lt c) (by omega) (by omega)
    rw [Function.update_eq_self] at hup
    rw [heq]
    exact ⟨fun d => by rw [h.heads]; exact hup.head_nonneg d,
      fun d => by rw [h.heads]; exact hup.head_lt d,
      fun d => by rw [h.num]; exact hup.num_nonneg d,
      fun d => by rw [h.num]; exact hup.num_le d⟩
  · simpa [freeNotificationsOnQueue, hc] using hq

/-! ### Sequences of calls -/

/-- One list of events per client. -/
abbrev Fifo := ℕ → List ClientEvent

/-- A call of `client_queue.c`. -/
inductive QueueOp
  /-- `xtcp_init_queue()` -/
  | init
  /-- `enqueue_event_and_notify(client_num, id, xtcp_event)` -/
  | enqueue (clientNum : ℕ) (id : ℤ) (xtcpEvent : EventType)
  /-- `dequeue_event(client_num)` -/
  | dequeue (clientNum : ℕ)
  /-- `free_notifications_on_queue(client_num, id)` -/
  | free (clientNum : ℕ) (id : ℤ)

/-- What a call returns. -/
inductive QueueResult
  /-- Nothing. -/
  | unit
  /-- An error code. -/
  | code (code : ErrorCode)
  /-- An event. -/
  | event (event : ClientEvent)
  /-- A number of events. -/
  | count (count : ℤ)

/-- The client a call is for. -/
def QueueOp.client : QueueOp → Option ℕ
  | .init => none
  | .enqueue c _ _ | .dequeue c | .free c _ => some c

/-- A call on the arrays. -/
def QueueOp.run (cfg : Config) (q : ClientQueue) : QueueOp → ClientQueue × QueueResult
  | .init => (xtcpInitQueue q, .unit)
  | .enqueue c id e => ((enqueueEventAndNotify cfg q c id e).1,
      .code (enqueueEventAndNotify cfg q c id e).2)
  | .dequeue c => ((dequeueEvent cfg q c).1, .event (dequeueEvent cfg q c).2)
  | .free c id => ((freeNotificationsOnQueue cfg q c id).1,
      .count (freeNotificationsOnQueue cfg q c id).2)

/-- What a call is for, on the lists of the clients. -/
def QueueOp.spec (cfg : Config) (f : Fifo) : QueueOp → Fifo × QueueResult
  | .init => (fun _ => [], .unit)
  | .enqueue c id e =>
    if c < cfg.maxXtcpClients then
      if (f c).length < cfg.clientQueueSize then
        (Function.update f c (f c ++ [⟨e, id⟩]), .code .success)
      else (f, .code .enomem)
    else (f, .code .einval)
  | .dequeue c =>
    if c < cfg.maxXtcpClients then
      match f c with
      | x :: l => (Function.update f c l, .event x)
      | [] => (f, .event ⟨.none, -1⟩)
    else (f, .event ⟨.none, -1⟩)
  | .free c id =>
    if c < cfg.maxXtcpClients then
      (Function.update f c ((f c).filter fun e => e.id ≠ id),
        .count ((f c).countP fun e => e.id = id))
    else (f, .count 0)

/-- A sequence of calls on a state, with the results in order. -/
def runAll {σ : Type*} (op : σ → QueueOp → σ × QueueResult) (s : σ) :
    List QueueOp → σ × List QueueResult
  | [] => (s, [])
  | o :: os =>
    let (s', r) := op s o
    let (t, rs) := runAll op s' os
    (t, r :: rs)

theorem queueOk_run (hq : QueueOk cfg q) (op : QueueOp) : QueueOk cfg (op.run cfg q).1 := by
  cases op with
  | init => exact queueOk_init
  | enqueue c id e => exact queueOk_enqueue hq c id e
  | dequeue c => exact queueOk_dequeue hq c
  | free c id => exact queueOk_free hq c id

/-- **One call on the arrays is one call on the lists.** -/
theorem run_simulates (hq : QueueOk cfg q) (op : QueueOp) :
    (contents cfg (op.run cfg q).1, (op.run cfg q).2) = op.spec cfg (contents cfg q) := by
  cases op with
  | init => rfl
  | enqueue c id e =>
    simp only [QueueOp.run, QueueOp.spec]
    by_cases hc : c < cfg.maxXtcpClients
    · by_cases hroom : (contents cfg q c).length < cfg.clientQueueSize
      · have hok := enqueue_success hq hc hroom id e
        rw [if_pos hc, if_pos hroom, hok, Prod.mk.injEq]
        refine ⟨?_, rfl⟩
        funext d
        rw [contents_enqueue hq hok, Function.update_apply]
      · rw [if_pos hc, if_neg hroom, enqueue_of_full hq hc hroom]
    · rw [if_neg hc, enqueue_of_not_lt hc]
  | dequeue c =>
    simp only [QueueOp.run, QueueOp.spec]
    by_cases hc : c < cfg.maxXtcpClients
    · cases hlist : contents cfg q c with
      | nil => rw [if_pos hc, dequeue_of_empty hq (Or.inr hlist)]
      | cons x l =>
        obtain ⟨hres, hothers⟩ := contents_dequeue hq hc hlist
        rw [if_pos hc, hres, Prod.mk.injEq]
        refine ⟨?_, rfl⟩
        funext d
        rw [hothers d, Function.update_apply]
    · rw [if_neg hc, dequeue_of_empty hq (Or.inl hc)]
  | free c id =>
    simp only [QueueOp.run, QueueOp.spec]
    by_cases hc : c < cfg.maxXtcpClients
    · rw [if_pos hc, free_result hq hc, Prod.mk.injEq]
      refine ⟨?_, rfl⟩
      funext d
      rw [contents_free hq hc, Function.update_apply]
      rfl
    · rw [if_neg hc]
      simp [freeNotificationsOnQueue, hc]

/-- A sequence of calls from any state in bounds. -/
theorem runAll_simulates (cfg : Config) (ops : List QueueOp) : ∀ {q : ClientQueue}, QueueOk cfg q →
    QueueOk cfg (runAll (fun q op => op.run cfg q) q ops).1 ∧
      (contents cfg (runAll (fun q op => op.run cfg q) q ops).1,
        (runAll (fun q op => op.run cfg q) q ops).2)
      = runAll (fun f op => op.spec cfg f) (contents cfg q) ops := by
  induction ops with
  | nil => intro q hq; exact ⟨hq, rfl⟩
  | cons op ops ih =>
    intro q hq
    obtain ⟨hok, hsim⟩ := ih (queueOk_run hq op)
    have hstep := run_simulates hq op
    refine ⟨hok, ?_⟩
    rw [Prod.ext_iff] at hsim hstep
    simp only [runAll]
    rw [← hstep.1, ← hstep.2]
    exact Prod.ext hsim.1 (congrArg ((op.run cfg q).2 :: ·) hsim.2)

/-- A call for a client number that is out of range changes nothing. -/
theorem run_of_not_lt (op : QueueOp) {c : ℕ} (hop : op.client = some c)
    (hc : ¬ c < cfg.maxXtcpClients) : (op.run cfg q).1 = q := by
  cases op with
  | init => cases hop
  | enqueue c' id e =>
    obtain rfl : c' = c := Option.some.inj hop
    simp only [QueueOp.run, enqueue_of_not_lt hc]
  | dequeue c' =>
    obtain rfl : c' = c := Option.some.inj hop
    simp [QueueOp.run, dequeueEvent, hc]
  | free c' id =>
    obtain rfl : c' = c := Option.some.inj hop
    simp [QueueOp.run, freeNotificationsOnQueue, hc]

/-- A call for one client does not alter the list of another. -/
theorem contents_run_of_ne (hq : QueueOk cfg q) (op : QueueOp) {c d : ℕ}
    (hop : op.client = some c) (hd : d ≠ c) :
    contents cfg (op.run cfg q).1 d = contents cfg q d := by
  have hsim := congrFun (congrArg Prod.fst (run_simulates hq op)) d
  refine hsim.trans ?_
  cases op with
  | init => cases hop
  | enqueue c' id e =>
    obtain rfl : c' = c := Option.some.inj hop
    simp only [QueueOp.spec]
    split_ifs
    · exact Function.update_of_ne hd _ _
    · rfl
    · rfl
  | dequeue c' =>
    obtain rfl : c' = c := Option.some.inj hop
    simp only [QueueOp.spec]
    split_ifs
    · split
      · exact Function.update_of_ne hd _ _
      · rfl
    · rfl
  | free c' id =>
    obtain rfl : c' = c := Option.some.inj hop
    simp only [QueueOp.spec]
    split_ifs
    · exact Function.update_of_ne hd _ _
    · rfl

/-- **The event queues are FIFO lists.**  After any sequence of calls the rings
are in bounds, the calls have returned what they return on the lists, and the
rings hold those lists.  In the state reached, a call that is refused or finds
nothing changes nothing, and no call alters the list of another client. -/
theorem simulates_fifo (cfg : Config) (ops : List QueueOp) :
    let q := (runAll (fun q op => op.run cfg q) ClientQueue.static ops).1
    QueueOk cfg q ∧
      (contents cfg q, (runAll (fun q op => op.run cfg q) ClientQueue.static ops).2)
        = runAll (fun f op => op.spec cfg f) (fun _ => []) ops ∧
      (∀ c id e, (enqueueEventAndNotify cfg q c id e).2 ≠ .success →
        (enqueueEventAndNotify cfg q c id e).1 = q) ∧
      (∀ c, contents cfg q c = [] → dequeueEvent cfg q c = (q, ⟨.none, -1⟩)) ∧
      (∀ (op : QueueOp) c, op.client = some c → ¬ c < cfg.maxXtcpClients → (op.run cfg q).1 = q) ∧
      ∀ (op : QueueOp) c d, op.client = some c → d ≠ c →
        contents cfg (op.run cfg q).1 d = contents cfg q d := by
  obtain ⟨hok, hsim⟩ := runAll_simulates cfg ops queueOk_static
  exact ⟨hok, hsim, fun c id e => enqueue_of_ne_success,
    fun c hc => dequeue_of_empty hok (Or.inr hc), fun op c => run_of_not_lt op,
    fun op c d => contents_run_of_ne hok op⟩

end Xtcp
