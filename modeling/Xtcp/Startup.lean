import Xtcp.Notify

/-!
# The start of the server

The number of clients is a parameter of the task, and the arrays of `client_queue.c` have a size
of their own.  `client_init_notification` is there to check that the first is not larger than the
second, but it compares its static variable, which is still zero, and not its argument.  So the
server starts with any number of clients, and a client without a queue gets no event.

## Main definitions

* `clientInitNotification`, `startUp` — the start of `xtcp_lwip`.
* `NoneRejected` — events for attached clients are refused only when their queue is full.
* `EveryClientQueued` — so it is after every history of a server that has started.

## Main results

* `startUp_eq` — the assertion never fails.
* `every_client_queued_iff` — **every client has a queue exactly when there are enough of them**.
-/

namespace Xtcp

open Runs

variable {cfg : Config} {s : Server} {q : ClientQueue}

/-! ### The start -/

/-- `client_init_notification(n_xtcp_init, ...)`, where the static variable is `n_xtcp` so far:
the static variable afterwards; or the assertion fails. -/
def clientInitNotification (cfg : Config) (nXtcp nXtcpInit : ℕ) : Option ℕ :=
  if nXtcp ≤ cfg.maxXtcpClients then some nXtcpInit else none

/-- `xtcp_lwip` as far as its loop: the static variable `n_xtcp`, which is zero at first, and the
state. -/
def startUp (cfg : Config) : Option (ℕ × Server) :=
  (clientInitNotification cfg 0 cfg.nXtcp).map fun n => (n, init cfg)

/-- The assertion never fails. -/
theorem startUp_eq (cfg : Config) : startUp cfg = some (cfg.nXtcp, init cfg) := by
  simp [startUp, clientInitNotification]

/-! ### The queues -/

/-- The events that an input has for attached clients are not rejected with `XTCP_EINVAL`; they
are refused only when the queue of the client is full. -/
def NoneRejected (cfg : Config) (s : Server) (x : Input) : Prop :=
  ∀ before c id e after, x.queueCalls cfg s = before ++ .enqueue c id e :: after →
    c < cfg.nXtcp →
    (enqueueEventAndNotify cfg (runCalls cfg s.queue before) c id e).2 ≠ .einval ∧
      ((enqueueEventAndNotify cfg (runCalls cfg s.queue before) c id e).2 ≠ .success →
        (contents cfg (runCalls cfg s.queue before) c).length = cfg.clientQueueSize)

/-- When the server has started, events for attached clients are refused only when their queue is
full, in the whole run. -/
def EveryClientQueued (cfg : Config) : Prop :=
  ∀ n s₀, startUp cfg = some (n, s₀) → ∀ tr s,
    Run (feed cfg) (fun _ x => x.FromClients cfg) s₀ tr s →
    ∀ x : Input, x.FromClients cfg → NoneRejected cfg s x

theorem queueOk_runCalls (hq : QueueOk cfg q) (calls : List QueueCall) :
    QueueOk cfg (runCalls cfg q calls) := by
  induction calls generalizing q with
  | nil => exact hq
  | cons call calls ih => exact ih (call.queueOk_run hq)

/-- An event for a client with a queue is refused only when the queue is full. -/
theorem enqueue_of_lt (hq : QueueOk cfg q) {c : ℕ} (hc : c < cfg.maxXtcpClients) (id : ℤ)
    (e : EventType) :
    (enqueueEventAndNotify cfg q c id e).2 ≠ .einval ∧
      ((enqueueEventAndNotify cfg q c id e).2 ≠ .success →
        (contents cfg q c).length = cfg.clientQueueSize) := by
  by_cases hroom : (contents cfg q c).length < cfg.clientQueueSize
  · have hok := enqueue_success hq hc hroom id e
    rw [hok]
    exact ⟨by decide, fun h => absurd rfl h⟩
  · rw [enqueue_of_full hq hc hroom]
    refine ⟨by simp, fun _ => ?_⟩
    have hlen := length_contents hq c
    have hle := hq.num_le c
    omega

/-- A client without a queue gets no event when the interface comes up. -/
theorem not_noneRejected (h : cfg.maxXtcpClients < cfg.nXtcp) :
    ¬ NoneRejected cfg (init cfg) (.timeout 0 true true) := by
  intro hnone
  have hcalls : (Input.timeout 0 true true).queueCalls cfg (init cfg)
      = (List.range cfg.nXtcp).map fun i => .enqueue i 0 .ifup := rfl
  have hmem : QueueCall.enqueue cfg.maxXtcpClients 0 .ifup
      ∈ (List.range cfg.nXtcp).map fun i => QueueCall.enqueue i 0 .ifup :=
    List.mem_map.mpr ⟨_, List.mem_range.mpr h, rfl⟩
  obtain ⟨before, after, hsplit⟩ := List.append_of_mem hmem
  refine (hnone before _ 0 .ifup after (hcalls.trans hsplit) h).1 ?_
  rw [enqueue_of_not_lt (lt_irrefl _)]

/-- **Every attached client has a queue exactly when there are no more clients than queues.** -/
theorem every_client_queued_iff (cfg : Config) :
    EveryClientQueued cfg ↔ cfg.nXtcp ≤ cfg.maxXtcpClients := by
  constructor
  · intro hqueued
    by_contra hle
    refine not_noneRejected (Nat.lt_of_not_le hle) ?_
    exact hqueued _ _ (startUp_eq cfg) [] _ .nil (.timeout 0 true true) trivial
  · intro hle n s₀ hstart tr s hrun x _ before c id e after _ hc
    rw [startUp_eq] at hstart
    cases hstart
    have hfed : Fed cfg tr s := hrun
    exact enqueue_of_lt (queueOk_runCalls hfed.eventsOk.queueOk before) (by omega) id e

/-- As `Config.small`, with three clients for two queues. -/
def Config.crowded : Config where
  __ := Config.small
  nXtcp := 3
  nXtcp_le := by decide

/-- The server starts with three clients and two queues. -/
theorem third_client_without_queue : ¬ ∀ cfg : Config, EveryClientQueued cfg := by
  intro hqueued
  have hlt : Config.crowded.maxXtcpClients < Config.crowded.nXtcp := by decide
  refine not_noneRejected hlt ?_
  exact hqueued .crowded _ _ (startUp_eq .crowded) [] _ .nil (.timeout 0 true true) trivial

end Xtcp
