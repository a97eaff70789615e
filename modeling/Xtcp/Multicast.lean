import Xtcp.Calm

/-!
# The multicast filter

A client that joins a group has lwIP count one more join of it, and has the address of the group
added to the filter of the MAC; a client that leaves a group has the count decreased, and the
address deleted.  The counts are kept for each IP address, whereas 32 groups have one address at
the MAC, and the filter is written without a look at the counts.

So the filter covers the groups that are joined for as long as each client that leaves a group is
the last one in it, and in any other group with the same address at the MAC; and the first leave
which is not like that takes the address of a joined group from the filter.

## Main definitions

* `FilterCovers` — the frames of every joined group pass the filter.
* `LeavesLast` — nobody else is in the group that is left, or shares its address.
* `CoversExactly` — the filter covers the joined groups along the runs of a condition, and only
  along them.

## Main results

* `filterCovers_step_iff` — which steps keep the filter.
* `multicast_covered` — **the filter covers the groups exactly along such runs**.
-/

namespace Xtcp

open Runs

variable {cfg : Config} {s s' : Server}

/-- With a MAC to filter them, the frames of every group that is joined pass the filter. -/
def FilterCovers (cfg : Config) (s : Server) : Prop :=
  cfg.ethCfg = true → ∀ g, 0 < s.igmpJoins g → s.macFilter (ipv4MulticastToMac g) = true

/-- A group is left for the last time, and no other group has its address at the MAC. -/
def LeavesLast (cfg : Config) (s : Server) : Action → Prop
  | .call _ (.leaveMulticastGroup addr) => cfg.ethCfg = true → s.igmpJoins addr ≤ 1 ∧
    ∀ g, g ≠ addr → ipv4MulticastToMac g = ipv4MulticastToMac addr → s.igmpJoins g = 0
  | _ => True

/-- The filter covers the joined groups along the runs whose steps meet `C`, and it does not do so
after the first step that does not meet `C`. -/
def CoversExactly (cfg : Config) (C : Server → Action → Prop) : Prop :=
  ∀ tr s, RunsTo cfg C tr s → FilterCovers cfg s ∧
    ∀ a s' r, Allowed cfg s a → step cfg s a = .ok (s', r) → (FilterCovers cfg s' ↔ C s a)

/-! ### Steps -/

/-- After a join, the group passes the filter, and the others still do. -/
theorem filterCovers_join (h : FilterCovers cfg s) (addr : IpAddr) (answer : Err) :
    FilterCovers cfg (setMacaddrFilter cfg (shimJoinMulticastGroup s addr answer).1
      (ipv4MulticastToMac addr) true) := by
  intro heth g hg
  rw [setMacaddrFilter, if_pos heth] at hg ⊢
  dsimp only at hg ⊢
  by_cases hmac : ipv4MulticastToMac g = ipv4MulticastToMac addr
  · rw [hmac, Function.update_self]
  · have hne : g ≠ addr := fun hne => hmac (by rw [hne])
    rw [Function.update_of_ne hmac]
    unfold shimJoinMulticastGroup at hg ⊢
    split at hg
    · next hok =>
      rw [if_pos hok]
      dsimp only at hg
      rw [Function.update_of_ne hne] at hg
      exact h heth g hg
    · next hok =>
      rw [if_neg hok]
      exact h heth g hg

/-- The counts after a leave. -/
theorem igmpJoins_leave (s : Server) (addr : IpAddr) :
    (shimLeaveMulticastGroup s addr).1.igmpJoins
      = Function.update s.igmpJoins addr (s.igmpJoins addr - 1) := by
  unfold shimLeaveMulticastGroup
  split
  · rfl
  · next hzero =>
    have hzero : s.igmpJoins addr = 0 := not_not.mp hzero
    rw [hzero, Nat.zero_sub, ← hzero, Function.update_eq_self]

/-- **After a leave, the filter covers the groups if nobody is left** who needs the address. -/
theorem filterCovers_leave_iff (h : FilterCovers cfg s) (i : ℕ) (addr : IpAddr) :
    FilterCovers cfg (setMacaddrFilter cfg (shimLeaveMulticastGroup s addr).1
        (ipv4MulticastToMac addr) false) ↔
      LeavesLast cfg s (.call i (.leaveMulticastGroup addr)) := by
  refine forall_congr' fun heth => ?_
  have hfilter : (shimLeaveMulticastGroup s addr).1.macFilter = s.macFilter := by
    unfold shimLeaveMulticastGroup
    split <;> rfl
  rw [setMacaddrFilter, if_pos heth]
  dsimp only
  rw [igmpJoins_leave, hfilter]
  constructor
  · intro hcov
    -- a group that is still joined has lost its address
    have hleft : ∀ g, ipv4MulticastToMac g = ipv4MulticastToMac addr →
        Function.update s.igmpJoins addr (s.igmpJoins addr - 1) g = 0 := by
      intro g hmac
      by_contra hg
      have hfound := hcov g (Nat.pos_of_ne_zero hg)
      rw [hmac, Function.update_self] at hfound
      cases hfound
    refine ⟨?_, fun g hne hmac => ?_⟩
    · have haddr := hleft addr rfl
      rw [Function.update_self] at haddr
      omega
    · have hg := hleft g hmac
      rwa [Function.update_of_ne hne] at hg
  · rintro ⟨haddr, hothers⟩ g hg
    by_cases hne : g = addr
    · subst hne
      rw [Function.update_self] at hg
      omega
    · rw [Function.update_of_ne hne] at hg
      have hmac : ipv4MulticastToMac g ≠ ipv4MulticastToMac addr := by
        intro hmac
        rw [hothers g hne hmac] at hg
        exact absurd hg (lt_irrefl 0)
      rw [Function.update_of_ne hmac]
      exact h heth g hg

/-- **Which steps keep the filter**: every step but a leave of a group whose address is still
needed. -/
theorem filterCovers_step_iff (h : FilterCovers cfg s) {a : Action} {r : Reply}
    (hs : step cfg s a = .ok (s', r)) : FilterCovers cfg s' ↔ LeavesLast cfg s a := by
  have hcalm := calm_step hs
  have hiff : FilterCovers cfg s' ↔ FilterCovers cfg (aside cfg s a) := by
    unfold FilterCovers
    rw [hcalm.joins, hcalm.macFilter]
  rw [hiff]
  unfold aside
  split
  · next addr answer => exact iff_of_true (filterCovers_join h addr answer) trivial
  · next i addr => exact filterCovers_leave_iff h i addr
  · next hjoin hleave =>
    have hlast : LeavesLast cfg s a := by
      unfold LeavesLast
      split
      · next i addr => exact absurd rfl (hleave i addr)
      · trivial
    refine iff_of_true ?_ hlast
    split <;> exact h

/-! ### Runs -/

theorem filterCovers_init : FilterCovers cfg (init cfg) :=
  fun _ _ hg => absurd hg (lt_irrefl 0)

/-- **The filter covers the joined groups exactly along the runs in which each group is left by the
last that needs its address.** -/
theorem multicast_covered (cfg : Config) : CoversExactly cfg (LeavesLast cfg) := by
  intro tr s hrun
  have hcov : FilterCovers cfg s := by
    refine Run.invariant hrun filterCovers_init ?_
    intro t a t' r hcov hok hs
    exact (filterCovers_step_iff hcov hs).mpr hok.2
  exact ⟨hcov, fun a s' r _ hs => filterCovers_step_iff hcov hs⟩

/-- Two joins of 224.0.0.251 and one leave: the group is still joined, and its frames do not pass
the filter any more. -/
theorem leave_unfilters_joined_group :
    ¬ ∀ tr s, RunsTo .onMac (fun _ _ => True) tr s → FilterCovers .onMac s := by
  intro hall
  have hrun : ∃ tr s, RunsTo .onMac (fun _ _ => True) tr s ∧
      s.igmpJoins ⟨224, 0, 0, 251⟩ = 1 ∧
      s.macFilter (ipv4MulticastToMac ⟨224, 0, 0, 251⟩) = false := by
    refine Run.exists_of_replay
      [.call 0 (.joinMulticastGroup ⟨224, 0, 0, 251⟩ .ok),
        .call 1 (.joinMulticastGroup ⟨224, 0, 0, 251⟩ .ok),
        .call 0 (.leaveMulticastGroup ⟨224, 0, 0, 251⟩)] ?_
    decide
  obtain ⟨tr, s, hrun, hjoined, hfilter⟩ := hrun
  have hfound := hall tr s hrun rfl ⟨224, 0, 0, 251⟩ (by rw [hjoined]; exact Nat.one_pos)
  rw [hfilter] at hfound
  cases hfound

end Xtcp
