import Xtcp.Send
import Xtcp.Library.Chains

/-!
# Chains of received pbufs

Every slot holds a chain of pbufs linked through `next`, and lwIP holds the ones it keeps to
deliver them again.  As long as these are disjoint chains of pbufs that exist, with one
reference each, the walks of `connection.c` come to their ends and `pbuf_free` releases
exactly one chain.

## Main definitions

* `Holder`, `rxHead` — who holds a chain, and where it starts.
* `RxOk` — the chains are the given lists, and share no pbuf.

## Main results

* `lastPbuf_eq`, `findPbuf_eq`, `pbufFreeLoop_eq` — the walks.
* `RxOk.setRemote`, `RxOk.unlinkRemote`, `RxOk.freeRemoteData`, `RxOk.clearPending` — what the
  operations of `connection.c` do to the chains.
-/

namespace Xtcp

open Runs LinkedChain

variable {cfg : Config} {s s' : Server} {m m' : Pbufs}

/-! ### Links -/

/-- Writing a pbuf writes its link. -/
theorem nxt_update (m : Pbufs) (p : Ptr) (b : Pbuf) :
    Pbufs.nxt (Function.update m p (some b)) = Function.update m.nxt p (some b.next) := by
  funext q
  by_cases hq : q = p
  · subst hq; simp [Pbufs.nxt]
  · simp [Pbufs.nxt, hq]

theorem nxt_eq_some {p : Ptr} {x : Option Ptr} :
    m.nxt p = some x ↔ ∃ b, m p = some b ∧ b.next = x := by
  simp only [Pbufs.nxt, Option.map_eq_some_iff]

/-- Writing a pbuf without changing its link. -/
theorem nxt_update_same {p : Ptr} {b c : Pbuf} (hb : m p = some b) (h : c.next = b.next) :
    Pbufs.nxt (Function.update m p (some c)) = m.nxt := by
  rw [nxt_update, h, Function.update_eq_self_iff]
  exact (nxt_eq_some.mpr ⟨b, hb, rfl⟩).symm

/-- The store has room for so many pbufs only. -/
theorem length_le_addressSpace {l : List Ptr} (h : l.Nodup) : l.length ≤ addressSpace := by
  have hmap : (l.map BitVec.toFin).Nodup := h.map fun _ _ => BitVec.toFin_inj.mp
  have hle := hmap.length_le_card
  rwa [List.length_map, Fintype.card_fin] at hle

/-! ### Walks -/

/-- The walk of `set_remote` comes to the last pbuf. -/
theorem lastPbuf_eq {l : List Ptr} {q : Ptr} : ∀ {n : ℕ} {p : Ptr},
    IsChain m.nxt (some p) (l ++ [q]) → l.length < n → lastPbuf n m p = .ok q := by
  induction l with
  | nil =>
    intro n p h hn
    obtain ⟨n, rfl⟩ := Nat.exists_eq_add_one_of_ne_zero (by omega : n ≠ 0)
    obtain ⟨hp, x, hx, hnil⟩ := IsChain.cons_iff.mp h
    obtain rfl : p = q := Option.some.inj hp
    obtain ⟨b, hb, hnext⟩ := nxt_eq_some.mp hx
    obtain rfl := IsChain.nil_iff.mp hnil
    simp only [lastPbuf, hb, hnext]
  | cons a l ih =>
    intro n p h hn
    obtain ⟨n, rfl⟩ := Nat.exists_eq_add_one_of_ne_zero (by omega : n ≠ 0)
    obtain ⟨hp, x, hx, hl⟩ := IsChain.cons_iff.mp h
    obtain rfl : p = a := Option.some.inj hp
    obtain ⟨b, hb, hnext⟩ := nxt_eq_some.mp hx
    -- the chain goes on, so there is a next pbuf
    obtain ⟨r, rfl⟩ : ∃ r, x = some r := by
      cases l with
      | nil => exact ⟨q, hl.head_eq⟩
      | cons c l => exact ⟨c, hl.head_eq⟩
    simp only [lastPbuf, hb, hnext]
    refine ih hl ?_
    simp only [List.length_cons] at hn
    omega

/-- The walk of `unlink_remote` comes to the pbuf it looks for. -/
theorem findPbuf_eq {l r : List Ptr} {p : Ptr} : ∀ {n : ℕ} {prev x : Option Ptr},
    IsChain m.nxt x (l ++ p :: r) → l.length < n →
      findPbuf n m p prev x = .ok (some (l.getLast?.or prev)) := by
  induction l with
  | nil =>
    intro n prev x h hn
    obtain ⟨n, rfl⟩ := Nat.exists_eq_add_one_of_ne_zero (by omega : n ≠ 0)
    obtain ⟨rfl, -⟩ := IsChain.cons_iff.mp h
    simp [findPbuf]
  | cons a l ih =>
    intro n prev x h hn
    obtain ⟨n, rfl⟩ := Nat.exists_eq_add_one_of_ne_zero (by omega : n ≠ 0)
    have hap : a ≠ p := by
      rintro rfl
      simpa using h.nodup
    obtain ⟨rfl, y, hy, hl⟩ := IsChain.cons_iff.mp h
    obtain ⟨b, hb, hnext⟩ := nxt_eq_some.mp hy
    simp only [List.length_cons] at hn
    simp only [findPbuf, if_neg hap, hb, hnext, ih hl (by omega : l.length < n)]
    rw [List.getLast?_cons]
    cases l.getLast? <;> rfl

/-- The walk of `unlink_remote` comes to the end when the pbuf is not there. -/
theorem findPbuf_notMem {l : List Ptr} {p : Ptr} : ∀ {n : ℕ} {prev x : Option Ptr},
    IsChain m.nxt x l → p ∉ l → l.length ≤ n → findPbuf n m p prev x = .ok none := by
  induction l with
  | nil =>
    intro n prev x h _ _
    obtain rfl := IsChain.nil_iff.mp h
    simp only [findPbuf]
  | cons a l ih =>
    intro n prev x h hp hn
    simp only [List.length_cons] at hn
    obtain ⟨n, rfl⟩ := Nat.exists_eq_add_one_of_ne_zero (by omega : n ≠ 0)
    rw [List.mem_cons, not_or] at hp
    obtain ⟨hpa, hpl⟩ := hp
    obtain ⟨rfl, y, hy, hl⟩ := IsChain.cons_iff.mp h
    obtain ⟨b, hb, hnext⟩ := nxt_eq_some.mp hy
    simp only [findPbuf, if_neg (Ne.symm hpa), hb, hnext]
    exact ih hl hpl (by omega)

/-- `pbuf_free` of a chain releases its pbufs and nothing else. -/
theorem pbufFreeLoop_eq {l : List Ptr} : ∀ {n : ℕ} {m : Pbufs} {x : Option Ptr},
    IsChain m.nxt x l → (∀ p ∈ l, ∃ b, m p = some b ∧ b.ref = 1) → l.length ≤ n →
      ∃ m', pbufFreeLoop n m x = .ok m' ∧ ∀ q, m' q = if q ∈ l then none else m q := by
  induction l with
  | nil =>
    intro n m x h _ _
    obtain rfl := IsChain.nil_iff.mp h
    exact ⟨m, by simp only [pbufFreeLoop], fun q => by simp⟩
  | cons p l ih =>
    intro n m x h href hn
    obtain ⟨n, rfl⟩ := Nat.exists_eq_add_one_of_ne_zero
      (by simp only [List.length_cons] at hn; omega : n ≠ 0)
    have hpl : p ∉ l := (List.nodup_cons.mp h.nodup).1
    obtain ⟨rfl, y, hy, hl⟩ := IsChain.cons_iff.mp h
    obtain ⟨b, hb, hone⟩ := href p List.mem_cons_self
    obtain ⟨b', hb', hnext⟩ := nxt_eq_some.mp hy
    obtain rfl : b = b' := Option.some.inj (hb.symm.trans hb')
    have hagree : ∀ q ∈ l, Function.update m p none q = m q := fun q hq =>
      Function.update_of_ne (ne_of_mem_of_not_mem hq hpl) _ _
    obtain ⟨m', hm', heq⟩ := ih (n := n) (m := Function.update m p none) (x := y)
      (hl.congr fun q hq => by simp only [Pbufs.nxt, hagree q hq])
      (fun q hq => by rw [hagree q hq]; exact href q (List.mem_cons_of_mem p hq))
      (by simpa using hn)
    refine ⟨m', ?_, fun q => ?_⟩
    · simp only [pbufFreeLoop, hb, hone, le_refl, if_true, hnext, hm']
    · rw [heq q]
      by_cases hq : q = p
      · subst hq; simp
      · simp [hq]

/-- `pbuf_free` of a chain comes to an end, whoever else has references to its pbufs. -/
theorem pbufFreeLoop_returns {l : List Ptr} : ∀ {n : ℕ} {m : Pbufs} {x : Option Ptr},
    IsChain m.nxt x l → l.length ≤ n → ∃ m', pbufFreeLoop n m x = .ok m' := by
  induction l with
  | nil =>
    intro n m x h _
    obtain rfl := IsChain.nil_iff.mp h
    exact ⟨m, by simp only [pbufFreeLoop]⟩
  | cons p l ih =>
    intro n m x h hn
    simp only [List.length_cons] at hn
    obtain ⟨n, rfl⟩ := Nat.exists_eq_add_one_of_ne_zero (by omega : n ≠ 0)
    have hpl : p ∉ l := (List.nodup_cons.mp h.nodup).1
    obtain ⟨rfl, y, hy, hl⟩ := IsChain.cons_iff.mp h
    obtain ⟨b, hb, rfl⟩ := nxt_eq_some.mp hy
    by_cases href : b.ref ≤ 1
    · have hrest : IsChain (Pbufs.nxt (Function.update m p none)) b.next l := by
        refine hl.congr fun q hq => ?_
        simp only [Pbufs.nxt, Function.update_of_ne (ne_of_mem_of_not_mem hq hpl)]
      obtain ⟨m', hm'⟩ := ih hrest (by omega : l.length ≤ n)
      exact ⟨m', by simp only [pbufFreeLoop, hb, if_pos href, hm']⟩
    · exact ⟨_, by simp only [pbufFreeLoop, hb, if_neg href]; rfl⟩

theorem pbufFree_returns {l : List Ptr} {p : Ptr} (h : IsChain m.nxt (some p) l) :
    ∃ m', pbufFree m p = .ok m' :=
  pbufFreeLoop_returns h (length_le_addressSpace h.nodup)

/-- `pbuf_free` of a pbuf that is linked to no other leaves the others alone, whoever else has
references to it. -/
theorem pbufFree_last {p : Ptr} {b : Pbuf} (hb : m p = some b) (hnext : b.next = none) :
    ∃ m', pbufFree m p = .ok m' ∧ ∀ q, q ≠ p → m' q = m q := by
  by_cases href : b.ref ≤ 1
  · exact ⟨_, pbufFree_single hb href hnext, fun q hq => Function.update_of_ne hq _ _⟩
  · exact ⟨_, pbufFree_shared hb href, fun q hq => Function.update_of_ne hq _ _⟩

/-- `free_remote_data` takes the first pbuf off the chain, and leaves the others alone. -/
theorem freeRemoteData_head {k : ℤ} {p : Ptr} {b : Pbuf} (hk : cfg.InRange k)
    (hhead : (s.connections k).pbuf = some p) (hb : s.pbufs p = some b) :
    ∃ t, freeRemoteData cfg s k = .ok (t, .success) ∧
      t.connections = Function.update s.connections k { s.connections k with pbuf := b.next } ∧
      ∀ q, q ≠ p → t.pbufs q = s.pbufs q := by
  have hload : s.pbufs.load p = .ok b := Pbufs.load_eq_ok.mpr hb
  -- the pbuf is released by itself
  have hlast : Function.update s.pbufs p (some { b with next := none }) p
      = some { b with next := none } := Function.update_self _ _ _
  obtain ⟨m, hm, hoff⟩ := pbufFree_last hlast rfl
  rw [freeRemoteData_eq hk hhead]
  simp only [hload, hm, Bind.bind, Except.bind]
  refine ⟨_, rfl, Server.connections_consumed _ k b.len, fun q hq => ?_⟩
  rw [Server.pbufs_consumed]
  exact (hoff q hq).trans (Function.update_of_ne hq _ _)

/-! ### The links of a slot -/

/-- Write the link behind `prev` in the chain of slot `k`: the one of the pbuf `prev`, or the one
of the slot itself. -/
def Server.setLink (s : Server) (k : ℤ) (prev x : Option Ptr) : Server :=
  match prev with
  | none => s.setEntry k { s.connections k with pbuf := x }
  | some q =>
    { s with pbufs := Function.update s.pbufs q ((s.pbufs q).map fun b => { b with next := x }) }

section setLink

variable {k : ℤ} {l r : List Ptr} {x : Option Ptr}

theorem setLink_connections_of_ne {j : ℤ} (hj : j ≠ k) (prev : Option Ptr) :
    (s.setLink k prev x).connections j = s.connections j := by
  cases prev with
  | none => exact Function.update_of_ne hj _ _
  | some q => rfl

/-- Only the pbufs of the chain before it are written. -/
theorem setLink_pbufs {q : Ptr} (hq : q ∉ l) :
    (s.setLink k l.getLast? x).pbufs q = s.pbufs q := by
  rcases List.eq_nil_or_concat l with rfl | ⟨l', p, rfl⟩
  · rfl
  · have hqp : q ≠ p := fun hqp => hq (by simp [hqp])
    simp [Server.setLink, hqp]

/-- A chain with one of its links written. -/
theorem isChain_setLink (h : IsChain s.pbufs.nxt (s.connections k).pbuf (l ++ r)) {c : List Ptr}
    (hc : IsChain s.pbufs.nxt x c) (hd : List.Disjoint l c) :
    IsChain (s.setLink k l.getLast? x).pbufs.nxt ((s.setLink k l.getLast? x).connections k).pbuf
      (l ++ c) := by
  rcases List.eq_nil_or_concat l with rfl | ⟨l', q, hl⟩
  · simpa [Server.setLink, Server.setEntry] using hc
  · rw [List.concat_eq_append] at hl
    subst hl
    rw [List.append_assoc, List.singleton_append] at h
    -- the last pbuf before the link exists
    obtain ⟨-, y, hy, -⟩ := IsChain.cons_iff.mp h.drop
    obtain ⟨b, hb, -⟩ := nxt_eq_some.mp hy
    have hlast : (l' ++ [q]).getLast? = some q := by simp
    simp only [hlast, Server.setLink, hb, Option.map_some]
    rw [nxt_update, List.append_assoc, List.singleton_append]
    exact h.relink hc hd

/-- `set_remote` writes the link behind the last pbuf. -/
theorem setRemote_eq (hk : cfg.InRange k) (hl : IsChain s.pbufs.nxt (s.connections k).pbuf l)
    {p : Ptr} {b : Pbuf} (hb : s.pbufs p = some b) (hpl : p ∉ l) (remote : Option IpAddr)
    (port : UInt16) :
    setRemote cfg s k remote port (some p) = .ok
      ((withPbuf s p (some { b with remote := ⟨remote.getD {}, port⟩ })).setLink k l.getLast?
        (some p), .success) := by
  have hload : s.pbufs.load p = .ok b := Pbufs.load_eq_ok.mpr hb
  rcases List.eq_nil_or_concat l with rfl | ⟨l', q, hq⟩
  · have hhead : (s.connections k).pbuf = none := IsChain.nil_iff.mp hl
    simp only [Xtcp.setRemote, if_pos hk, hload, Bind.bind, Except.bind, hhead]
    rfl
  · rw [List.concat_eq_append] at hq
    subst hq
    -- the walk is not disturbed by the address that has been written
    have hnxt := nxt_update_same (c := { b with remote := ⟨remote.getD {}, port⟩ }) hb rfl
    obtain ⟨head, hhead⟩ : ∃ head, (s.connections k).pbuf = some head := by
      cases l' with
      | nil => exact ⟨q, hl.head_eq⟩
      | cons a l' => exact ⟨a, hl.head_eq⟩
    obtain ⟨-, y, hy, -⟩ := IsChain.cons_iff.mp hl.drop
    obtain ⟨lb, hlb, -⟩ := nxt_eq_some.mp hy
    have hqp : q ≠ p := fun hqp => hpl (by simp [hqp])
    have hmq : Function.update s.pbufs p (some { b with remote := ⟨remote.getD {}, port⟩ }) q
        = some lb := (Function.update_of_ne hqp _ _).trans hlb
    have hlen := length_le_addressSpace hl.nodup
    rw [List.length_append, List.length_singleton] at hlen
    rw [hhead] at hl
    have hlast := lastPbuf_eq (by rw [hnxt]; exact hl) (show l'.length < addressSpace by omega)
    have hget : (l' ++ [q]).getLast? = some q := by simp
    simp only [Xtcp.setRemote, if_pos hk, hload, Bind.bind, Except.bind, hhead, hlast,
      Pbufs.load_eq_ok.mpr hmq, hget, Server.setLink, withPbuf, hmq, Option.map_some]

/-- `unlink_remote` writes the link before the pbuf, and then the one behind it. -/
theorem unlinkRemote_eq (hk : cfg.InRange k) {p : Ptr}
    (hl : IsChain s.pbufs.nxt (s.connections k).pbuf (l ++ p :: r)) {b : Pbuf}
    (hb : s.pbufs p = some b) :
    unlinkRemote cfg s k (some p) = .ok
      (withPbuf (s.setLink k l.getLast? b.next) p (some { b with next := none }), .success) := by
  have hload : s.pbufs.load p = .ok b := Pbufs.load_eq_ok.mpr hb
  have hfind : findPbuf addressSpace s.pbufs p none (s.connections k).pbuf
      = .ok (some l.getLast?) := by
    have hlen := length_le_addressSpace hl.nodup
    rw [List.length_append, List.length_cons] at hlen
    rw [findPbuf_eq hl (by omega), Option.or_none]
  simp only [Xtcp.unlinkRemote, if_pos hk, hfind, hload, Bind.bind, Except.bind]
  rcases List.eq_nil_or_concat l with rfl | ⟨l', q, hq⟩
  · rfl
  · rw [List.concat_eq_append] at hq
    subst hq
    rw [List.append_assoc, List.singleton_append] at hl
    obtain ⟨-, y, hy, -⟩ := IsChain.cons_iff.mp hl.drop
    obtain ⟨rb, hrb, -⟩ := nxt_eq_some.mp hy
    have hget : (l' ++ [q]).getLast? = some q := by simp
    simp only [hget, Pbufs.load_eq_ok.mpr hrb, Server.setLink, withPbuf, hrb, Option.map_some]

/-- The chain with a chain behind it, as `set_remote` leaves it. -/
theorem isChain_setRemote {p : Ptr} {b : Pbuf} {c : List Ptr} {remote : Host}
    (hl : IsChain s.pbufs.nxt (s.connections k).pbuf l) (hb : s.pbufs p = some b)
    (hc : IsChain s.pbufs.nxt (some p) c) (hd : List.Disjoint l c) {t : Server}
    (ht : t = (withPbuf s p (some { b with remote := remote })).setLink k l.getLast? (some p)) :
    IsChain t.pbufs.nxt (t.connections k).pbuf (l ++ c) := by
  subst ht
  -- the address that has been written is no link
  have hnxt : (withPbuf s p (some { b with remote := remote })).pbufs.nxt = s.pbufs.nxt :=
    nxt_update_same (c := { b with remote := remote }) hb rfl
  refine isChain_setLink (r := []) ?_ ?_ hd
  · rw [hnxt, List.append_nil]
    exact hl
  · rw [hnxt]
    exact hc

/-- The chain without a pbuf, as `unlink_remote` leaves it. -/
theorem isChain_unlinkRemote {p : Ptr} {b : Pbuf}
    (hl : IsChain s.pbufs.nxt (s.connections k).pbuf (l ++ p :: r)) (hb : s.pbufs p = some b)
    {t : Server}
    (ht : t = withPbuf (s.setLink k l.getLast? b.next) p (some { b with next := none })) :
    IsChain t.pbufs.nxt (t.connections k).pbuf (l ++ r) ∧ t.pbufs.nxt p = some none ∧
      ∀ q, q ∉ l ++ p :: r → t.pbufs q = s.pbufs q := by
  subst ht
  have hnd := List.nodup_middle.mp hl.nodup
  have hbehind : IsChain s.pbufs.nxt b.next r := hl.behind (nxt_eq_some.mpr ⟨b, hb, rfl⟩)
  refine ⟨?_, by rw [withPbuf, nxt_update, Function.update_self], fun q hq => ?_⟩
  · rw [withPbuf, nxt_update]
    exact (isChain_setLink hl hbehind (List.disjoint_of_nodup_append hnd.of_cons)).update
      hnd.notMem _
  · have hqp : q ≠ p := fun hqp => hq (by simp [hqp])
    have hql : q ∉ l := fun hql => hq (List.mem_append_left _ hql)
    exact (Function.update_of_ne hqp _ _).trans (setLink_pbufs hql)

/-- `unlink_remote` of a pbuf that is not in the chain. -/
theorem unlinkRemote_notMem (hk : cfg.InRange k) {p : Ptr}
    (hl : IsChain s.pbufs.nxt (s.connections k).pbuf l) (hp : p ∉ l) :
    unlinkRemote cfg s k (some p) = .ok (s, .einval) := by
  have hfind : findPbuf addressSpace s.pbufs p none (s.connections k).pbuf = .ok none :=
    findPbuf_notMem hl hp (length_le_addressSpace hl.nodup)
  simp only [Xtcp.unlinkRemote, if_pos hk, hfind, Bind.bind, Except.bind]

end setLink

/-! ### Holders -/

/-- Who holds a chain: a slot, or lwIP, which holds a chain by its first pbuf. -/
abbrev Holder := ℤ ⊕ Ptr

/-- Where the chain of a holder starts, when lwIP keeps the pbufs `kept`. -/
def rxHead (s : Server) (kept : Ptr → Bool) : Holder → Option Ptr
  | .inl k => (s.connections k).pbuf
  | .inr p => if kept p then some p else none

/-- The chains of the slots, and of the pbufs lwIP keeps, are the lists `ch`; no two of them
share a pbuf, and each pbuf has one reference. -/
structure RxOk (s : Server) (kept : Ptr → Bool) (ch : Holder → List Ptr) : Prop where
  /-- The chains are disjoint chains of pbufs that exist. -/
  chains : Chains s.pbufs.nxt (rxHead s kept) ch
  /-- Each pbuf has one reference. -/
  ref : ∀ h, ∀ p ∈ ch h, ∃ b, s.pbufs p = some b ∧ b.ref = 1

/-- The payloads, the references and the fields `tot_len` of the pbufs are as before. -/
def SameData (m m' : Pbufs) : Prop :=
  ∀ q, (m' q).map (fun b => (b.payload, b.ref, b.totLen))
    = (m q).map fun b => (b.payload, b.ref, b.totLen)

theorem SameData.refl (m : Pbufs) : SameData m m := fun _ => rfl

theorem SameData.trans {m'' : Pbufs} (h : SameData m m') (h' : SameData m' m'') :
    SameData m m'' := fun q => (h' q).trans (h q)

/-- Writing other fields of a pbuf. -/
theorem SameData.update {p : Ptr} {b b' : Pbuf} (hb : m p = some b)
    (hpayload : b'.payload = b.payload) (href : b'.ref = b.ref) (htot : b'.totLen = b.totLen) :
    SameData m (Function.update m p (some b')) := by
  intro q
  by_cases hq : q = p
  · subst hq; simp [hb, hpayload, href, htot]
  · simp [hq]

theorem SameData.setLink (s : Server) (k : ℤ) (prev x : Option Ptr) :
    SameData s.pbufs (s.setLink k prev x).pbufs := by
  cases prev with
  | none => exact .refl _
  | some q =>
    intro r
    by_cases hr : r = q
    · subst hr
      cases hb : s.pbufs r <;> simp [Server.setLink, hb]
    · simp [Server.setLink, hr]

theorem SameData.ref_eq (h : SameData m m') {p : Ptr} (hp : ∃ b, m p = some b ∧ b.ref = 1) :
    ∃ b, m' p = some b ∧ b.ref = 1 := by
  obtain ⟨b, hb, href⟩ := hp
  have hq := h p
  rw [hb, Option.map_some, Option.map_eq_some_iff] at hq
  obtain ⟨b', hb', heq⟩ := hq
  exact ⟨b', hb', (congrArg (fun x => x.2.1) heq).trans href⟩

/-- Only the chain of one slot has changed, if any. -/
def Spares (j : Option ℤ) (m m' : Pbufs) (ch ch' : Holder → List Ptr) : Prop :=
  ∀ k, j ≠ some k → ch' (.inl k) = ch (.inl k) ∧ ∀ q ∈ ch (.inl k), m' q = m q

theorem Spares.refl (j : Option ℤ) (m : Pbufs) (ch : Holder → List Ptr) : Spares j m m ch ch :=
  fun _ _ => ⟨rfl, fun _ _ => rfl⟩

namespace RxOk

variable {kept : Ptr → Bool} {ch : Holder → List Ptr}

/-- The chain of a slot. -/
theorem isChain (h : RxOk s kept ch) (k : ℤ) :
    IsChain s.pbufs.nxt (s.connections k).pbuf (ch (.inl k)) := h.chains.isChain (.inl k)

/-- The chain of a pbuf that lwIP keeps. -/
theorem kept_isChain (h : RxOk s kept ch) {p : Ptr} (hp : kept p = true) :
    IsChain s.pbufs.nxt (some p) (ch (.inr p)) := by
  have hchain := h.chains.isChain (.inr p)
  rwa [rxHead, if_pos hp] at hchain

/-- A pbuf of a chain exists. -/
theorem ne_none (h : RxOk s kept ch) {i : Holder} {p : Ptr} (hp : p ∈ ch i) : s.pbufs p ≠ none := by
  obtain ⟨b, hb, -⟩ := h.ref i p hp
  rw [hb]
  exact Option.some_ne_none b

/-- A pbuf is in one chain only. -/
theorem notMem (h : RxOk s kept ch) {i j : Holder} {p : Ptr} (hp : p ∈ ch i) (hij : i ≠ j) :
    p ∉ ch j := h.chains.disjoint i j hij hp

/-- The pbufs that exist are as before, and the chains start where they did. -/
theorem frame (h : RxOk s kept ch) (hhead : ∀ k, (s'.connections k).pbuf = (s.connections k).pbuf)
    (hpbufs : ∀ q, s.pbufs q ≠ none → s'.pbufs q = s.pbufs q) : RxOk s' kept ch := by
  have hagree : ∀ i, ∀ p ∈ ch i, s'.pbufs p = s.pbufs p := fun i p hp => hpbufs p (h.ne_none hp)
  constructor
  · refine h.chains.congr (fun i => ?_) fun i p hp => by simp only [Pbufs.nxt, hagree i p hp]
    cases i with
    | inl k => exact hhead k
    | inr p => rfl
  · intro i p hp
    rw [hagree i p hp]
    exact h.ref i p hp

/-- The chain of one holder has changed. -/
theorem replace (h : RxOk s kept ch) (i : Holder) {kept' : Ptr → Bool} {l : List Ptr}
    (hhead : ∀ j, j ≠ i → rxHead s' kept' j = rxHead s kept j)
    (hchain : IsChain s'.pbufs.nxt (rxHead s' kept' i) l)
    (hagree : ∀ j, j ≠ i → ∀ p ∈ ch j, s'.pbufs p = s.pbufs p)
    (hdisj : ∀ j, j ≠ i → List.Disjoint l (ch j))
    (href : ∀ p ∈ l, ∃ b, s'.pbufs p = some b ∧ b.ref = 1) :
    RxOk s' kept' (Function.update ch i l) := by
  constructor
  · exact h.chains.replace i hhead hchain
      (fun j hj p hp => by simp only [Pbufs.nxt, hagree j hj p hp]) hdisj
  · intro j p hp
    by_cases hj : j = i
    · subst hj
      rw [Function.update_self] at hp
      exact href p hp
    · rw [Function.update_of_ne hj] at hp
      rw [hagree j hj p hp]
      exact h.ref j p hp

/-- lwIP gives up a pbuf. -/
theorem drop (h : RxOk s kept ch) (p : Ptr) :
    RxOk s (Function.update kept p false) (Function.update ch (.inr p) []) := by
  refine h.replace (.inr p) (fun j hj => ?_) ?_ (fun _ _ _ _ => rfl) (fun _ _ => by simp) (by simp)
  · cases j with
    | inl k => rfl
    | inr q =>
      have hqp : q ≠ p := fun hqp => hj (by rw [hqp])
      simp [rxHead, hqp]
  · simp [rxHead]

/-- A pbuf that lwIP keeps is the first of its chain. -/
theorem exists_kept (h : RxOk s kept ch) {p : Ptr} (hp : kept p = true) :
    ∃ l, ch (.inr p) = p :: l := (h.kept_isChain hp).exists_cons

/-- The chain of a delivered pbuf goes to the end of the chain of a slot. -/
theorem append (h : RxOk s kept ch) {p : Ptr} (hp : kept p = true) {k : ℤ} {t : Server}
    (hhead : ∀ j, j ≠ k → (t.connections j).pbuf = (s.connections j).pbuf)
    (hchain : IsChain t.pbufs.nxt (t.connections k).pbuf (ch (.inl k) ++ ch (.inr p)))
    (hsame : SameData s.pbufs t.pbufs)
    (hagree : ∀ q, q ≠ p → q ∉ ch (.inl k) → t.pbufs q = s.pbufs q) :
    RxOk t (Function.update kept p false)
        (Function.update (Function.update ch (.inr p) []) (.inl k) (ch (.inl k) ++ ch (.inr p))) ∧
      ∀ j, j ≠ k → ∀ q ∈ ch (.inl j), t.pbufs q = s.pbufs q := by
  have hpmem : p ∈ ch (.inr p) := by
    obtain ⟨l, hl⟩ := h.exists_kept hp
    rw [hl]
    exact List.mem_cons_self
  -- the chains of the others have no part in it
  have hother : ∀ j, j ≠ .inl k → j ≠ .inr p → ∀ q ∈ ch j, t.pbufs q = s.pbufs q := by
    intro j hjk hjp q hq
    refine hagree q ?_ (h.notMem hq hjk)
    rintro rfl
    exact h.notMem hq hjp hpmem
  refine ⟨(h.drop p).replace (.inl k) (fun j hj => ?_) hchain (fun j hj q hq => ?_) (fun j hj => ?_)
    (fun q hq => ?_), fun j hj => hother (.inl j) (by simpa using hj) (by simp)⟩
  · cases j with
    | inl j => exact hhead j fun hjk => hj (by rw [hjk])
    | inr q => rfl
  · by_cases hjp : j = .inr p
    · subst hjp; simp at hq
    · rw [Function.update_of_ne hjp] at hq
      exact hother j hj hjp q hq
  · by_cases hjp : j = .inr p
    · subst hjp; simp
    · rw [Function.update_of_ne hjp, List.disjoint_append_left]
      exact ⟨h.chains.disjoint _ _ (Ne.symm hj), h.chains.disjoint _ _ (Ne.symm hjp)⟩
  · rcases List.mem_append.mp hq with hq | hq
    · exact hsame.ref_eq (h.ref _ q hq)
    · exact hsame.ref_eq (h.ref _ q hq)

/-- **`set_remote`** moves the chain of a delivered pbuf to the end of the chain of a slot. -/
theorem setRemote (h : RxOk s kept ch) {p : Ptr} (hp : kept p = true) {k : ℤ} (hk : cfg.InRange k)
    (remote : Option IpAddr) (port : UInt16) :
    ∃ t, setRemote cfg s k remote port (some p) = .ok (t, .success) ∧
      RxOk t (Function.update kept p false)
        (Function.update (Function.update ch (.inr p) []) (.inl k) (ch (.inl k) ++ ch (.inr p))) ∧
      SameData s.pbufs t.pbufs ∧ ∀ j, j ≠ k → ∀ q ∈ ch (.inl j), t.pbufs q = s.pbufs q := by
  have hpchain := h.kept_isChain hp
  obtain ⟨l', hl'⟩ := h.exists_kept hp
  have hpmem : p ∈ ch (.inr p) := by rw [hl']; exact List.mem_cons_self
  have hpk : p ∉ ch (.inl k) := h.notMem hpmem (by simp)
  obtain ⟨b, hb, -⟩ := h.ref _ p hpmem
  set u := withPbuf s p (some { b with remote := ⟨remote.getD {}, port⟩ }) with hu
  have hsame : SameData s.pbufs (u.setLink k (ch (.inl k)).getLast? (some p)).pbufs := by
    have hwrite : SameData s.pbufs u.pbufs := .update hb rfl rfl rfl
    exact hwrite.trans (.setLink u k _ _)
  have hchain : IsChain (u.setLink k (ch (.inl k)).getLast? (some p)).pbufs.nxt
      ((u.setLink k (ch (.inl k)).getLast? (some p)).connections k).pbuf
      (ch (.inl k) ++ ch (.inr p)) :=
    isChain_setRemote (h.isChain k) hb hpchain (h.chains.disjoint _ _ (by simp)) rfl
  have hhead : ∀ j, j ≠ k →
      ((u.setLink k (ch (.inl k)).getLast? (some p)).connections j).pbuf = (s.connections j).pbuf :=
    fun j hj => congrArg ConnectionEntry.pbuf (setLink_connections_of_ne hj _)
  obtain ⟨hrx, hother⟩ := h.append hp hhead hchain hsame
    fun q hqp hqk => (setLink_pbufs hqk).trans (Function.update_of_ne hqp _ _)
  exact ⟨_, setRemote_eq hk (h.isChain k) hb hpk remote port, hrx, hsame, hother⟩

/-- A pbuf of the chain of a slot goes to lwIP. -/
theorem takeOut (h : RxOk s kept ch) {k : ℤ} {p : Ptr} {l r : List Ptr}
    (hch : ch (.inl k) = l ++ p :: r) {t : Server}
    (hhead : ∀ j, j ≠ k → (t.connections j).pbuf = (s.connections j).pbuf)
    (hchain : IsChain t.pbufs.nxt (t.connections k).pbuf (l ++ r)) (hp : t.pbufs.nxt p = some none)
    (hsame : SameData s.pbufs t.pbufs) (hagree : ∀ q, q ∉ ch (.inl k) → t.pbufs q = s.pbufs q) :
    RxOk t (Function.update kept p true)
        (Function.update (Function.update ch (.inl k) (l ++ r)) (.inr p) [p]) ∧
      ∀ j, j ≠ k → ∀ q ∈ ch (.inl j), t.pbufs q = s.pbufs q := by
  have hsub : l ++ r ⊆ ch (.inl k) := by
    rw [hch]
    intro q hq
    rcases List.mem_append.mp hq with hq | hq
    · exact List.mem_append_left _ hq
    · exact List.mem_append_right _ (List.mem_cons_of_mem p hq)
  have hpmem : p ∈ ch (.inl k) := by rw [hch]; simp
  have hplr : p ∉ l ++ r := by
    have hnd := (h.isChain k).nodup
    rw [hch] at hnd
    exact (List.nodup_middle.mp hnd).notMem
  have hother : ∀ j, j ≠ .inl k → ∀ q ∈ ch j, t.pbufs q = s.pbufs q := fun j hj q hq =>
    hagree q (h.notMem hq hj)
  -- first the slot loses the pbuf
  have hslot : RxOk t kept (Function.update ch (.inl k) (l ++ r)) := by
    refine h.replace (.inl k) (fun j hj => ?_) hchain hother
      (fun j hj => List.disjoint_of_subset_left hsub (h.chains.disjoint _ j (Ne.symm hj)))
      fun q hq => hsame.ref_eq (h.ref _ q (hsub hq))
    cases j with
    | inl j => exact hhead j fun hjk => hj (by rw [hjk])
    | inr q => rfl
  refine ⟨hslot.replace (.inr p) (fun j hj => ?_) ?_ (fun _ _ _ _ => rfl) (fun j hj => ?_)
    (fun q hq => ?_), fun j hj => hother (.inl j) (by simpa using hj)⟩
  · cases j with
    | inl j => rfl
    | inr q =>
      have hqp : q ≠ p := fun hqp => hj (by rw [hqp])
      simp [rxHead, hqp]
  · rw [rxHead, if_pos (Function.update_self _ _ _)]
    exact .cons hp .nil
  · rw [List.singleton_disjoint]
    by_cases hjk : j = .inl k
    · subst hjk; rwa [Function.update_self]
    · rw [Function.update_of_ne hjk]
      exact h.notMem hpmem (Ne.symm hjk)
  · obtain rfl := List.mem_singleton.mp hq
    exact hsame.ref_eq (h.ref _ q hpmem)

/-- **`unlink_remote`** takes a pbuf out of the chain of a slot, for lwIP to keep. -/
theorem unlinkRemote (h : RxOk s kept ch) {k : ℤ} (hk : cfg.InRange k) {p : Ptr} {l r : List Ptr}
    (hch : ch (.inl k) = l ++ p :: r) :
    ∃ t, unlinkRemote cfg s k (some p) = .ok (t, .success) ∧
      RxOk t (Function.update kept p true)
        (Function.update (Function.update ch (.inl k) (l ++ r)) (.inr p) [p]) ∧
      SameData s.pbufs t.pbufs ∧ ∀ j, j ≠ k → ∀ q ∈ ch (.inl j), t.pbufs q = s.pbufs q := by
  have hchain := h.isChain k
  have hpmem : p ∈ ch (.inl k) := by rw [hch]; simp
  obtain ⟨b, hb, -⟩ := h.ref _ p hpmem
  rw [hch] at hchain
  set u := s.setLink k l.getLast? b.next with hu
  obtain ⟨hrest, hnext, hagree⟩ := isChain_unlinkRemote hchain hb rfl
  have hlink : u.pbufs p = some b := by
    have hpl : p ∉ l := fun hpl =>
      (List.nodup_middle.mp hchain.nodup).notMem (List.mem_append_left r hpl)
    exact (setLink_pbufs hpl).trans hb
  have hsame : SameData s.pbufs (withPbuf u p (some { b with next := none })).pbufs :=
    (SameData.setLink s k l.getLast? b.next).trans (.update hlink rfl rfl rfl)
  have hhead : ∀ j, j ≠ k → (u.connections j).pbuf = (s.connections j).pbuf :=
    fun j hj => congrArg ConnectionEntry.pbuf (setLink_connections_of_ne hj _)
  rw [← hch] at hagree
  obtain ⟨hrx, hother⟩ := h.takeOut hch (t := withPbuf u p (some { b with next := none })) hhead
    hrest hnext hsame hagree
  exact ⟨_, unlinkRemote_eq hk hchain hb, hrx, hsame, hother⟩

/-- **`free_remote_data`** releases the first pbuf of the chain of a slot. -/
theorem freeRemoteData (h : RxOk s kept ch) {k : ℤ} (hk : cfg.InRange k) {p : Ptr} {l : List Ptr}
    (hch : ch (.inl k) = p :: l) :
    ∃ t, freeRemoteData cfg s k = .ok (t, .success) ∧
      RxOk t kept (Function.update ch (.inl k) l) ∧ ∀ q, q ≠ p → t.pbufs q = s.pbufs q := by
  have hchain := h.isChain k
  have hpmem : p ∈ ch (.inl k) := by rw [hch]; exact List.mem_cons_self
  obtain ⟨b, hb, -⟩ := h.ref _ p hpmem
  rw [hch] at hchain
  have hlmem : ∀ q ∈ l, q ≠ p := fun q hq =>
    ne_of_mem_of_not_mem hq (List.nodup_cons.mp hchain.nodup).1
  have hl : IsChain s.pbufs.nxt b.next l :=
    hchain.behind (l := []) (nxt_eq_some.mpr ⟨b, hb, rfl⟩)
  obtain ⟨t, ht, hconn, hoff⟩ := freeRemoteData_head hk hchain.head_eq hb
  refine ⟨t, ht, h.replace (.inl k) (fun j hj => ?_) ?_ (fun j hj q hq => ?_) (fun j hj => ?_)
    (fun q hq => ?_), hoff⟩
  · cases j with
    | inl j =>
      have hjk : j ≠ k := fun hjk => hj (by rw [hjk])
      simp [rxHead, hconn, hjk]
    | inr q => rfl
  · simp only [rxHead, hconn, Function.update_self]
    exact hl.congr fun q hq => by simp only [Pbufs.nxt, hoff q (hlmem q hq)]
  · exact hoff q fun hqp => h.notMem hq hj (hqp ▸ hpmem)
  · refine List.disjoint_of_subset_left ?_ (h.chains.disjoint (.inl k) j (Ne.symm hj))
    rw [hch]
    exact List.subset_cons_self p l
  · rw [hoff q (hlmem q hq)]
    exact h.ref (.inl k) q (by rw [hch]; exact List.mem_cons_of_mem p hq)

theorem freeRemoteData_nil (h : RxOk s kept ch) {k : ℤ} (hch : ch (.inl k) = []) :
    Xtcp.freeRemoteData cfg s k = .ok (s, .einval) := by
  have hhead : (s.connections k).pbuf = none := by
    have hchain := h.isChain k
    rwa [hch, IsChain.nil_iff] at hchain
  exact freeRemoteData_of_none fun _ => hhead

/-- `pbuf_free` of the chain of a holder. -/
theorem pbufFree (h : RxOk s kept ch) {i : Holder} {p : Ptr} (hp : rxHead s kept i = some p) :
    ∃ m, pbufFree s.pbufs p = .ok m ∧ ∀ q, m q = if q ∈ ch i then none else s.pbufs q := by
  have hchain := h.chains.isChain i
  rw [hp] at hchain
  exact pbufFreeLoop_eq hchain (h.ref i) (length_le_addressSpace hchain.nodup)

/-- The chain of a holder has been released. -/
theorem release (h : RxOk s kept ch) (i : Holder) {kept' : Ptr → Bool} {t : Server}
    (hhead : ∀ j, j ≠ i → rxHead t kept' j = rxHead s kept j) (hnone : rxHead t kept' i = none)
    (hpbufs : ∀ q, t.pbufs q = if q ∈ ch i then none else s.pbufs q) :
    RxOk t kept' (Function.update ch i []) := by
  refine h.replace i hhead (by rw [hnone]; exact .nil) (fun j hj q hq => ?_) (by simp) (by simp)
  rw [hpbufs, if_neg (h.notMem hq hj)]

/-- **`clear_pending_rx_data_on_connection`** releases the chain of a slot. -/
theorem clearPending (h : RxOk s kept ch) {k : ℤ} (hk : cfg.InRange k) :
    ∃ t, clearPendingRxDataOnConnection cfg s k = .ok t ∧
      RxOk t kept (Function.update ch (.inl k) []) ∧
      ∀ q, q ∉ ch (.inl k) → t.pbufs q = s.pbufs q := by
  cases hhead : (s.connections k).pbuf with
  | none =>
    have hch : ch (.inl k) = [] := by
      have hchain := h.isChain k
      rwa [hhead, IsChain.none_iff] at hchain
    refine ⟨s, ?_, ?_, fun _ _ => rfl⟩
    · simp only [clearPendingRxDataOnConnection, if_pos hk, hhead]
    · rw [← hch, Function.update_eq_self]
      exact h
  | some p =>
    obtain ⟨m, hm, hpbufs⟩ := h.pbufFree (i := .inl k) hhead
    have hpmem : p ∈ ch (.inl k) := by
      have hchain := h.isChain k
      rw [hhead] at hchain
      obtain ⟨l, hl⟩ := hchain.exists_cons
      rw [hl]
      exact List.mem_cons_self
    obtain ⟨b, hb, -⟩ := h.ref _ p hpmem
    have hload : s.pbufs.load p = .ok b := Pbufs.load_eq_ok.mpr hb
    -- what lwIP is told is no matter here
    have hrx : ∀ t : Server, t.connections
          = Function.update s.connections k { s.connections k with pbuf := none } → t.pbufs = m →
        RxOk t kept (Function.update ch (.inl k) []) ∧
          ∀ q, q ∉ ch (.inl k) → t.pbufs q = s.pbufs q := by
      intro t hconn hm'
      refine ⟨h.release (.inl k) (fun j hj => ?_) (by simp [rxHead, hconn]) fun q => ?_,
        fun q hq => ?_⟩
      · cases j with
        | inl j =>
          have hjk : j ≠ k := fun hjk => hj (by rw [hjk])
          simp [rxHead, hconn, hjk]
        | inr q => rfl
      · rw [hm']; exact hpbufs q
      · rw [hm', hpbufs q, if_neg hq]
    rw [clearPending_eq hk hhead]
    simp only [hload, hm, Bind.bind, Except.bind]
    refine ⟨_, rfl, hrx _ ?_ rfl⟩
    simp only [Server.setEntry, Server.connections_consumed]

end RxOk

end Xtcp
