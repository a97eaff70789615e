import Xtcp.Effects
import Xtcp.Hearing

/-!
# DNS requests

A `request_host_by_name` that lwIP cannot answer at once is under way until lwIP calls
`xtcp_dns_found`, with the number of the client as its argument.  The result is posted to that
client; the requests may be answered in any order, and their results have no connection to go with,
so all that ties a result to its client is that number.

A result is an event like any other, so it is lost when the queue of the client is full.  It is
also lost when the client closes slot 0 while a successful result is pending, as that has the
number 0.

## Main definitions

* `asksName`, `nameResults` — a request that is taken on, and the result of one.

## Main results

* `dns_results_heard` — **every request of a client is under way, or its result has been heard,
  once**.
-/

namespace Xtcp

open Runs

variable {cfg : Config} {s s' : Server} {c : ℕ}

/-- The result of a DNS request. -/
def ClientEvent.isName (e : ClientEvent) : Bool := decide (e.xtcpEvent = .dnsResult)

/-- A request of client `c` that lwIP takes on. -/
def asksName (c : ℕ) : Action → Bool
  | .call i (.requestHostByName hasGateway answer _) =>
    decide (i = c ∧ hasGateway = true ∧ answer = .inprogress)
  | _ => false

/-- The result that lwIP has for client `c`. -/
def nameResults (cfg : Config) (c : ℕ) : Action → List ClientEvent
  | .happens (.dnsFound hasName ipaddr arg) =>
    if arg = c then [⟨.dnsResult, (dnsResult cfg arg hasName ipaddr).toInt⟩] else []
  | _ => []

/-- Results are posted by `xtcp_dns_found` alone. -/
theorem postsTo_isName (s : Server) (a : Action) :
    (postsTo cfg c s a).filter ClientEvent.isName = nameResults cfg c a := by
  have hother : ∀ {d : ℕ} {e : ClientEvent}, e.xtcpEvent ≠ .dnsResult →
      (addressed c [(d, e)]).filter ClientEvent.isName = [] := by
    intro d e he
    rw [addressed_singleton]
    split
    · simp [ClientEvent.isName, he]
    · rfl
  have hlink : ∀ e : EventType, e ≠ .dnsResult →
      (addressed c ((List.range cfg.nXtcp).map fun i => (i, ⟨e, 0⟩))).filter ClientEvent.isName
        = [] := by
    intro e he
    rw [addressed_range]
    split
    · simp [ClientEvent.isName, he]
    · rfl
  cases a with
  | call i call => rfl
  | happens h =>
    cases h with
    | tcpEvent p arg callback =>
      by_cases hacc : callback = .accept
      · subst hacc
        cases hslot : acceptSlot cfg s arg with
        | some k =>
          simp only [postsTo, posts, hslot]
          exact hother (by simp)
        | none =>
          simp only [postsTo, posts, hslot]
          exact hother (by simp)
      · have hposts : posts cfg s (.happens (.tcpEvent p arg callback))
            = callback.queued.toList.map fun e => (getClientInfo cfg s arg, ⟨e, arg⟩) := by
          cases callback with
          | accept => exact absurd rfl hacc
          | _ => rfl
        rw [postsTo, hposts]
        cases hqueued : callback.queued with
        | none => rfl
        | some e =>
          refine hother ?_
          rintro rfl
          cases connectionless_of_queued (Option.mem_def.mpr hqueued)
    | udpRecv p arg cells addr port =>
      simp only [postsTo, posts]
      cases deliveredHead cells with
      | none => rfl
      | some q =>
        refine hother ?_
        simp only [udpRecvEvent]
        split <;> simp
    | dnsFound hasName ipaddr arg =>
      simp only [postsTo, posts, nameResults, addressed_singleton]
      split <;> rfl
    | linkStatus up =>
      cases up with
      | true => rfl
      | false => exact hlink .ifdown (by simp)
    | timeout timer hasIpAddress ifState =>
      simp only [postsTo, posts, announcement]
      by_cases hup : timer = 0 ∧ hasIpAddress ∧ s.netifNotifyState = false ∧ ifState
      · simp only [if_pos hup]
        exact hlink .ifup (by simp)
      · simp only [if_neg hup]
        rfl
    | syn | reap | dropRefused => rfl

/-- **What a step does to the requests of a client**: it takes one on, or it ends one with a
result. -/
theorem count_dnsRequests_step {a : Action} (hok : Allowed cfg s a) {r : Reply}
    (hs : step cfg s a = .ok (s', r)) :
    s'.dnsRequests.count c + (nameResults cfg c a).length
      = s.dnsRequests.count c + if asksName c a then 1 else 0 := by
  have hquiet : (∀ d, ¬ a.asks cfg s (.request d)) → (∀ d, ¬ a.asks cfg s (.answer d)) →
      s'.dnsRequests = s.dnsRequests := (effects_step hs).dnsRequests
  cases a with
  | call i call =>
    have hnone : nameResults cfg c (.call i call) = [] := rfl
    rw [hnone, List.length_nil, Nat.add_zero]
    by_cases hasks : ∃ ipaddr, call = .requestHostByName true .inprogress ipaddr
    · obtain ⟨ipaddr, rfl⟩ := hasks
      cases hs
      have hdns : (shimRequestHostByName s i .inprogress ipaddr).1.dnsRequests
          = s.dnsRequests ++ [i] := rfl
      rw [hdns, List.count_append, List.count_singleton]
      simp [asksName]
    · have hsame : s'.dnsRequests = s.dnsRequests := by
        refine hquiet (fun d hd => hasks ?_) (fun d hd => ?_)
        · cases call with
          | requestHostByName hasGateway answer ipaddr =>
            obtain ⟨rfl, rfl, -⟩ := hd
            exact ⟨ipaddr, rfl⟩
          | _ => cases hd
        · cases call <;> cases hd
      have hnot : asksName c (.call i call) = false := by
        cases call with
        | requestHostByName hasGateway answer ipaddr =>
          simp only [asksName, decide_eq_false_iff_not]
          rintro ⟨-, rfl, rfl⟩
          exact hasks ⟨ipaddr, rfl⟩
        | _ => rfl
      rw [hsame, hnot]
      rfl
  | happens h =>
    have hnone : asksName c (.happens h) = false := rfl
    rw [hnone, if_neg Bool.false_ne_true, Nat.add_zero]
    cases h with
    | dnsFound hasName ipaddr arg =>
      have hmem : arg ∈ s.dnsRequests := hok
      cases hs
      have hdns : (xtcpDnsFound cfg { s with dnsRequests := s.dnsRequests.erase arg } hasName ipaddr
          arg).dnsRequests = s.dnsRequests.erase arg := rfl
      simp only [hdns, nameResults]
      by_cases harg : arg = c
      · subst harg
        have hpos : 0 < s.dnsRequests.count arg := List.count_pos_iff.mpr hmem
        rw [List.count_erase_self, if_pos rfl, List.length_singleton]
        omega
      · rw [List.count_erase_of_ne (Ne.symm harg), if_neg harg, List.length_nil, Nat.add_zero]
    | _ =>
      have hsame : s'.dnsRequests = s.dnsRequests :=
        hquiet (fun d hd => by cases hd) (fun d hd => by cases hd)
      rw [hsame]
      rfl

/-- **Every request of a client is under way, or its result has been heard, once.**  Take a history
in which every result for client `c` finds room, and none is pending when the client closes the slot
with its number.  Then the results that the client has received or has in its queue are those that
lwIP has had for it, in their order; there are as many of them as the client has made requests that
lwIP took on, less those that are under way; and the next step keeps it so exactly if it
delivers. -/
theorem dns_results_heard {tr : List (Action × Reply)}
    (hrun : RunsTo cfg (Delivers cfg c ClientEvent.isName) tr s) :
    (heard cfg c tr s).filter ClientEvent.isName = tr.flatMap (fun x => nameResults cfg c x.1) ∧
      ((heard cfg c tr s).filter ClientEvent.isName).length + s.dnsRequests.count c
        = tr.countP (fun x => asksName c x.1) ∧
      ∀ a s' r, Allowed cfg s a → step cfg s a = .ok (s', r) →
        ((heard cfg c (tr ++ [(a, r)]) s').filter ClientEvent.isName
            = (tr ++ [(a, r)]).flatMap (fun x => nameResults cfg c x.1) ↔
          Delivers cfg c ClientEvent.isName s a) := by
  have hmain : (TableOk cfg s.table ∧ EventsOk cfg s.queue) ∧
      (heard cfg c tr s).filter ClientEvent.isName = tr.flatMap (fun x => nameResults cfg c x.1) ∧
      ((heard cfg c tr s).filter ClientEvent.isName).length + s.dnsRequests.count c
        = tr.countP (fun x => asksName c x.1) := by
    induction hrun with
    | nil => exact ⟨⟨tableOk_init, eventsOk_init⟩, rfl, rfl⟩
    | @snoc tr u v a r _ hok hs ih =>
      obtain ⟨⟨hT, hq⟩, hheard, hcount⟩ := ih
      have hstep := (heard_step_iff hT hq rfl hok.1 hs tr).mpr hok.2
      rw [postsTo_isName] at hstep
      refine ⟨⟨hT.step (step_table hT.cursor hok.1 hs), eventsOk_step hq hs⟩, ?_, ?_⟩
      · rw [hstep, hheard, List.flatMap_append, List.flatMap_singleton]
      · have hrequests := count_dnsRequests_step (c := c) hok.1 hs
        rw [hstep, List.length_append, List.countP_append, List.countP_singleton, ← hcount]
        dsimp only
        omega
  obtain ⟨⟨hT, hq⟩, hheard, hcount⟩ := hmain
  refine ⟨hheard, hcount, fun a s' r hok hs => ?_⟩
  have hposts : (postsTo cfg c s a).filter ClientEvent.isName = nameResults cfg c a :=
    postsTo_isName s a
  rw [List.flatMap_append, List.flatMap_singleton, ← hheard, ← hposts]
  exact heard_step_iff hT hq rfl hok hs tr

/-- Two requests of client 1: one has failed, and its result is in the queue; the other is under
way. -/
theorem dns_results_heard_two : ∃ tr s,
    RunsTo .roomy (Delivers .roomy 1 ClientEvent.isName) tr s ∧ s.dnsRequests = [1] ∧
      (heard .roomy 1 tr s).filter ClientEvent.isName = [⟨.dnsResult, -2⟩] := by
  have hrun : ∃ tr s, RunsTo .roomy (Delivers .roomy 1 ClientEvent.isName) tr s ∧
      s.dnsRequests = [1] ∧
      tr.flatMap (fun x => nameResults .roomy 1 x.1) = [⟨.dnsResult, -2⟩] := by
    refine Run.exists_of_replay
      [.call 1 (.requestHostByName true .inprogress {}), .call 0 (.socket .udp (some 10)),
        .call 1 (.requestHostByName true .inprogress {}), .happens (.dnsFound true none 1)] ?_
    decide
  obtain ⟨tr, s, hrun, hdns, hresults⟩ := hrun
  exact ⟨tr, s, hrun, hdns, (dns_results_heard hrun).1.trans hresults⟩

end Xtcp
