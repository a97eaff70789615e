import Xtcp.TableRefine

/-!
# Socket options

Every option is a field of the control block of its socket, so a `setsockopt` writes one cell and a
`getsockopt` reads one.  Both decide in the same way whether they do so.  One of the cells does
not take what is written to it: `XTCP_IP_SOCKET_OPTION_MULTICAST_LOOP` sets its flag whatever the
value is, and nothing clears it again.

## Main definitions

* `optionStatus` — the status of both calls.
* `cell` — what `getsockopt` reads.
* `OptionCall`, `setAll` — a sequence of `setsockopt` calls.
* `lastSet` — the value given in the last one of a socket and an option that succeeded.
* `LastWriterWins` — what one may expect of the calls.

## Main results

* `map_shimSetsockopt` — the two calls answer with the same status.
* `cell_setAll` — what is in a cell after a sequence of calls.
* `last_writer_wins_iff` — **exactly when the last writer wins**.
-/

namespace Xtcp

open Runs

variable {cfg : Config} {s t : Server} {a id : ℤ}

/-! ### The status -/

/-- The status of a `setsockopt` and of a `getsockopt` for a socket with a given protocol. -/
def optionStatus (protocol : Protocol) (option length : ℕ) : ErrorCode :=
  if protocol = .none then .einval
  else
    match IpSocketOption.decode option with
    | none => .einval
    | some o =>
      if length < 1 then .einval
      else if o.udpOnly ∧ protocol ≠ .udp then .eprotonosupport
      else .success

/-- What `getsockopt` reads in a control block. -/
def IpSocketOption.reads (o : IpSocketOption) (b : IpPcb) : UInt8 :=
  match o with
  | .tos => b.tos
  | .ttl => b.ttl
  | .multicastTtl => b.mcastTtl
  | .multicastIf => b.mcastIfindex
  | .multicastLoop => if b.multicastLoop then 1 else 0

/-- A socket with a given protocol has the option. -/
def Accepts (protocol : Protocol) (o : IpSocketOption) : Prop :=
  protocol ≠ .none ∧ ¬ (o.udpOnly = true ∧ protocol ≠ .udp)

instance (protocol : Protocol) (o : IpSocketOption) : Decidable (Accepts protocol o) :=
  inferInstanceAs (Decidable (_ ∧ _))

/-- What an accepted request needs. -/
theorem optionStatus_eq_success {protocol : Protocol} {option length : ℕ} :
    optionStatus protocol option length = .success ↔
      1 ≤ length ∧ ∃ o, IpSocketOption.decode option = some o ∧ Accepts protocol o := by
  constructor
  · intro h
    unfold optionStatus at h
    split at h
    · cases h
    · next hproto =>
      split at h
      · cases h
      · next o ho =>
        split at h
        · cases h
        · next hlen =>
          split at h
          · cases h
          · next hudp => exact ⟨by omega, o, ho, hproto, hudp⟩
  · rintro ⟨hlen, o, ho, hproto, hudp⟩
    have hlen' : ¬ length < 1 := by omega
    simp only [optionStatus, if_neg hproto, ho, if_neg hlen', if_neg hudp]

theorem shimIpGetsockopt_of_refused {option length : ℕ}
    (h : optionStatus (getProtocol cfg s id) option length ≠ .success) :
    shimIpGetsockopt cfg s id option length
      = .ok (optionStatus (getProtocol cfg s id) option length, 0) := by
  by_cases hproto : getProtocol cfg s id = .none
  · simp only [shimIpGetsockopt, optionStatus, if_pos hproto]
  · cases ho : IpSocketOption.decode option with
    | none => simp only [shimIpGetsockopt, optionStatus, if_neg hproto, ho]
    | some o =>
      simp only [optionStatus, if_neg hproto, ho] at h ⊢
      simp only [shimIpGetsockopt, if_neg hproto, ho]
      by_cases hlen : length < 1
      · simp only [if_pos hlen]
      · simp only [if_neg hlen] at h ⊢
        by_cases hudp : o.udpOnly = true ∧ getProtocol cfg s id ≠ .udp
        · rw [if_pos hudp]
          cases o with
          | tos | ttl => exact absurd hudp.1 Bool.false_ne_true
          | multicastTtl | multicastIf | multicastLoop => exact if_pos hudp.2
        · exact absurd (if_neg hudp) h

theorem shimIpGetsockopt_of_accepted {option length : ℕ}
    (h : optionStatus (getProtocol cfg s id) option length = .success) {o : IpSocketOption}
    (ho : IpSocketOption.decode option = some o) :
    shimIpGetsockopt cfg s id option length
      = (loadIpPcb cfg s id).map fun b => (.success, o.reads b) := by
  obtain ⟨hlen, o', ho', hproto, hudp⟩ := optionStatus_eq_success.mp h
  obtain rfl : o = o' := Option.some.inj (ho.symm.trans ho')
  have hlen' : ¬ length < 1 := by omega
  unfold shimIpGetsockopt
  simp only [if_neg hproto, ho, if_neg hlen']
  cases o with
  | tos | ttl => rfl
  | multicastTtl | multicastIf | multicastLoop =>
    have hp : getProtocol cfg s id = .udp := not_not.mp fun h => hudp ⟨rfl, h⟩
    simp only [hp, ne_eq, not_true_eq_false, if_false]
    rfl

theorem shimIpSetsockopt_of_refused {option : ℕ} {value : List UInt8}
    (h : optionStatus (getProtocol cfg s id) option value.length ≠ .success) :
    shimIpSetsockopt cfg s id option value
      = .ok (s, optionStatus (getProtocol cfg s id) option value.length) := by
  by_cases hproto : getProtocol cfg s id = .none
  · simp only [shimIpSetsockopt, optionStatus, if_pos hproto]
  · cases ho : IpSocketOption.decode option with
    | none => simp only [shimIpSetsockopt, optionStatus, if_neg hproto, ho]
    | some o =>
      simp only [optionStatus, if_neg hproto, ho] at h ⊢
      simp only [shimIpSetsockopt, if_neg hproto, ho]
      cases value with
      | nil => rfl
      | cons v l =>
        have hlen : ¬ (v :: l).length < 1 := by simp
        simp only [if_neg hlen] at h ⊢
        by_cases hudp : o.udpOnly = true ∧ getProtocol cfg s id ≠ .udp
        · simp only [if_pos hudp]
        · exact absurd (if_neg hudp) h

theorem shimIpSetsockopt_of_accepted {option : ℕ} {v : UInt8} {l : List UInt8}
    (h : optionStatus (getProtocol cfg s id) option (v :: l).length = .success)
    {o : IpSocketOption} (ho : IpSocketOption.decode option = some o) :
    shimIpSetsockopt cfg s id option (v :: l)
      = (storeIpPcb cfg s id (o.writes v).1 (o.writes v).2).map fun t => (t, .success) := by
  obtain ⟨-, o', ho', hproto, hudp⟩ := optionStatus_eq_success.mp h
  obtain rfl : o = o' := Option.some.inj (ho.symm.trans ho')
  unfold shimIpSetsockopt
  simp only [if_neg hproto, ho, if_neg hudp]
  rfl

/-- Reading and writing go wrong alike. -/
theorem map_storeIpPcb (cfg : Config) (s : Server) (id : ℤ) (f : TcpPcb → TcpPcb)
    (g : UdpPcb → UdpPcb) :
    ((storeIpPcb cfg s id f g).map fun _ => ()) = (loadIpPcb cfg s id).map fun _ => () := by
  unfold storeIpPcb loadIpPcb
  split
  · split <;> rfl
  · split <;> rfl

/-- **The two calls answer with the same status.** -/
theorem map_shimSetsockopt (cfg : Config) (s : Server) (i : ℕ) (id : ℤ) (level : SocketLevel)
    (option : ℕ) (value : List UInt8) :
    (shimSetsockopt cfg s i id level option value).map Prod.snd
      = (shimGetsockopt cfg s i id level option value.length).map Prod.fst := by
  unfold shimSetsockopt shimGetsockopt
  dsimp only
  split
  · rfl
  · split
    · by_cases h : optionStatus (getProtocol cfg s id) option value.length = .success
      · obtain ⟨hlen, o, ho, -⟩ := optionStatus_eq_success.mp h
        cases value with
        | nil => cases hlen
        | cons v l =>
          have hmap := map_storeIpPcb cfg s id (o.writes v).1 (o.writes v).2
          rw [shimIpSetsockopt_of_accepted h ho, shimIpGetsockopt_of_accepted h ho]
          cases hs : storeIpPcb cfg s id (o.writes v).1 (o.writes v).2 with
          | error e =>
            cases hl : loadIpPcb cfg s id with
            | error e' => rw [hs, hl] at hmap; cases hmap; rfl
            | ok b => rw [hs, hl] at hmap; cases hmap
          | ok u =>
            cases hl : loadIpPcb cfg s id with
            | error e' => rw [hs, hl] at hmap; cases hmap
            | ok b => rfl
      · rw [shimIpSetsockopt_of_refused h, shimIpGetsockopt_of_refused h]
        rfl
    · rfl

/-! ### The cells -/

/-- What `getsockopt` reads for an option of a socket. -/
def cell (cfg : Config) (s : Server) (a : ℤ) (o : IpSocketOption) : UInt8 :=
  match loadIpPcb cfg s a with
  | .ok b => o.reads b
  | .error _ => 0

/-- The control block of a socket exists. -/
def LivePcb (cfg : Config) (s : Server) (a : ℤ) : Prop :=
  (getProtocol cfg s a = .udp → ∃ p, getUdpPcb cfg s a = some p ∧ (s.udp p).isSome = true) ∧
    (getProtocol cfg s a = .tcp → ∃ p, getTcpPcb cfg s a = some p ∧ (s.tcp p).isSome = true)

/-- No other slot has the control block of slot `a`. -/
def OwnPcb (cfg : Config) (s : Server) (a : ℤ) : Prop :=
  ∀ k, k ≠ a → (∀ p, getUdpPcb cfg s a = some p → getUdpPcb cfg s k ≠ some p) ∧
    ∀ p, getTcpPcb cfg s a = some p → getTcpPcb cfg s k ≠ some p

/-- The sockets are the same, and so are the control blocks that exist. -/
structure SameSockets (s t : Server) : Prop where
  /-- The table. -/
  connections : t.connections = s.connections
  /-- The UDP control blocks. -/
  udp : ∀ p, (t.udp p).isSome = (s.udp p).isSome
  /-- The TCP control blocks. -/
  tcp : ∀ p, (t.tcp p).isSome = (s.tcp p).isSome

namespace SameSockets

theorem refl (s : Server) : SameSockets s s := ⟨rfl, fun _ => rfl, fun _ => rfl⟩

theorem trans {u : Server} (h : SameSockets s t) (h' : SameSockets t u) : SameSockets s u :=
  ⟨h'.connections.trans h.connections, fun p => (h'.udp p).trans (h.udp p),
    fun p => (h'.tcp p).trans (h.tcp p)⟩

theorem getProtocol (h : SameSockets s t) (a : ℤ) :
    getProtocol cfg t a = getProtocol cfg s a := by
  simp only [Xtcp.getProtocol, h.connections]

theorem getUdpPcb (h : SameSockets s t) (a : ℤ) : getUdpPcb cfg t a = getUdpPcb cfg s a := by
  simp only [Xtcp.getUdpPcb, h.connections]

theorem getTcpPcb (h : SameSockets s t) (a : ℤ) : getTcpPcb cfg t a = getTcpPcb cfg s a := by
  simp only [Xtcp.getTcpPcb, h.connections]

theorem find (h : SameSockets s t) (i : ℕ) (a : ℤ) :
    findClientConnection cfg t i a = findClientConnection cfg s i a := by
  simp only [findClientConnection, h.connections]

theorem livePcb (h : SameSockets s t) (ha : LivePcb cfg s a) : LivePcb cfg t a := by
  unfold LivePcb at ha ⊢
  simp only [h.getProtocol, h.getUdpPcb, h.getTcpPcb, h.udp, h.tcp]
  exact ha

theorem ownPcb (h : SameSockets s t) (ha : OwnPcb cfg s a) : OwnPcb cfg t a := by
  unfold OwnPcb at ha ⊢
  simp only [h.getUdpPcb, h.getTcpPcb]
  exact ha

theorem modifyUdp (s : Server) (p : Ptr) (f : UdpPcb → UdpPcb) :
    SameSockets s (s.modifyUdp p f) := by
  refine ⟨rfl, fun q => ?_, fun _ => rfl⟩
  by_cases hq : q = p
  · subst hq
    simp [Server.modifyUdp]
  · simp [Server.modifyUdp, hq]

theorem modifyTcp (s : Server) (p : Ptr) (f : TcpPcb → TcpPcb) :
    SameSockets s (s.modifyTcp p f) := by
  refine ⟨rfl, fun _ => rfl, fun q => ?_⟩
  by_cases hq : q = p
  · subst hq
    simp [Server.modifyTcp]
  · simp [Server.modifyTcp, hq]

end SameSockets

/-- What a cell holds after a value has been written to it. -/
def IpSocketOption.written (o : IpSocketOption) (v : UInt8) : UInt8 :=
  if o = .multicastLoop then 1 else v

theorem cell_modifyUdp {p : Ptr} (hproto : getProtocol cfg s a = .udp)
    (hget : getUdpPcb cfg s a = some p) (hp : (s.udp p).isSome = true) (o o' : IpSocketOption)
    (v : UInt8) : cell cfg (s.modifyUdp p (o.writes v).2) a o'
      = if o' = o then o.written v else cell cfg s a o' := by
  obtain ⟨b, hb⟩ := Option.isSome_iff_exists.mp hp
  have hproto' : getProtocol cfg (s.modifyUdp p (o.writes v).2) a = .udp := hproto
  have hget' : getUdpPcb cfg (s.modifyUdp p (o.writes v).2) a = some p := hget
  have hb' : (s.modifyUdp p (o.writes v).2).udp p = some ((o.writes v).2 b) := by
    simp [Server.modifyUdp, hb]
  simp only [cell, loadIpPcb, hproto, hproto', hget, hget', hb, hb', Option.getD_some]
  cases o <;> cases o' <;> rfl

theorem cell_modifyTcp {p : Ptr} (hproto : getProtocol cfg s a = .tcp)
    (hget : getTcpPcb cfg s a = some p) (hp : (s.tcp p).isSome = true) {o : IpSocketOption}
    (ho : o.udpOnly = false) (o' : IpSocketOption) (v : UInt8) :
    cell cfg (s.modifyTcp p (o.writes v).1) a o'
      = if o' = o then o.written v else cell cfg s a o' := by
  obtain ⟨b, hb⟩ := Option.isSome_iff_exists.mp hp
  have hproto' : getProtocol cfg (s.modifyTcp p (o.writes v).1) a = .tcp := hproto
  have hget' : getTcpPcb cfg (s.modifyTcp p (o.writes v).1) a = some p := hget
  have hb' : (s.modifyTcp p (o.writes v).1).tcp p = some ((o.writes v).1 b) := by
    simp [Server.modifyTcp, hb]
  simp only [cell, loadIpPcb, hproto, hproto', hget, hget', hb, hb', Option.getD_some]
  cases o with
  | tos | ttl => cases o' <;> rfl
  | multicastTtl | multicastIf | multicastLoop => cases ho

/-- A cell depends on the control block of its socket only. -/
theorem cell_congr (hsame : SameSockets s t)
    (hudp : ∀ p, getUdpPcb cfg s a = some p → t.udp p = s.udp p)
    (htcp : ∀ p, getTcpPcb cfg s a = some p → t.tcp p = s.tcp p) (o : IpSocketOption) :
    cell cfg t a o = cell cfg s a o := by
  have hload : loadIpPcb cfg t a = loadIpPcb cfg s a := by
    simp only [loadIpPcb, hsame.getProtocol, hsame.getUdpPcb, hsame.getTcpPcb]
    split
    · split
      · rfl
      · next p hp => rw [hudp p hp]
    · split
      · rfl
      · next p hp => rw [htcp p hp]
  rw [cell, cell, hload]

/-- **One write.**  It changes one cell of one socket. -/
theorem cell_storeIpPcb (ha : OwnPcb cfg s a) (hid : LivePcb cfg s id) {o : IpSocketOption}
    (hacc : Accepts (getProtocol cfg s id) o) (v : UInt8) :
    ∃ t, storeIpPcb cfg s id (o.writes v).1 (o.writes v).2 = .ok t ∧ SameSockets s t ∧
      ∀ o', cell cfg t a o' = if id = a ∧ o' = o then o.written v else cell cfg s a o' := by
  obtain ⟨hproto, hudp⟩ := hacc
  have hne : ∀ {u : Server} {o' : IpSocketOption}, id ≠ a → cell cfg u a o' = cell cfg s a o' →
      cell cfg u a o' = if id = a ∧ o' = o then o.written v else cell cfg s a o' := by
    intro u o' h hcell
    rw [if_neg fun h' => h h'.1, hcell]
  cases hp : getProtocol cfg s id with
  | none => exact absurd hp hproto
  | udp =>
    obtain ⟨p, hget, hlive⟩ := hid.1 hp
    have hsame := SameSockets.modifyUdp s p (o.writes v).2
    refine ⟨s.modifyUdp p (o.writes v).2, by simp only [storeIpPcb, hp, hget], hsame,
      fun o' => ?_⟩
    by_cases hida : id = a
    · subst hida
      rw [cell_modifyUdp hp hget hlive]
      simp only [true_and]
    · refine hne hida (cell_congr hsame (fun q hq => ?_) (fun _ _ => rfl) o')
      have hqp : q ≠ p := by
        rintro rfl
        exact (ha id hida).1 q hq hget
      exact Function.update_of_ne hqp _ _
  | tcp =>
    obtain ⟨p, hget, hlive⟩ := hid.2 hp
    have ho : o.udpOnly = false := by
      cases h : o.udpOnly with
      | false => rfl
      | true => exact absurd ⟨h, by rw [hp]; decide⟩ hudp
    have hsame := SameSockets.modifyTcp s p (o.writes v).1
    refine ⟨s.modifyTcp p (o.writes v).1, by simp only [storeIpPcb, hp, hget], hsame,
      fun o' => ?_⟩
    by_cases hida : id = a
    · subst hida
      rw [cell_modifyTcp hp hget hlive ho]
      simp only [true_and]
    · refine hne hida (cell_congr hsame (fun _ _ => rfl) (fun q hq => ?_) o')
      have hqp : q ≠ p := by
        rintro rfl
        exact (ha id hida).2 q hq hget
      exact Function.update_of_ne hqp _ _

/-! ### Sequences of calls -/

/-- A `setsockopt` at the level of IP. -/
structure OptionCall where
  /-- The caller. -/
  client : ℕ
  /-- The socket. -/
  id : ℤ
  /-- The option. -/
  option : ℕ
  /-- The value. -/
  value : List UInt8

/-- The call. -/
def OptionCall.call (c : OptionCall) : Call := .setsockopt c.id .ip c.option c.value

/-- The call is for a socket of the caller that has a control block, and comes with a value. -/
structure OptionCall.Proper (cfg : Config) (s : Server) (c : OptionCall) : Prop where
  /-- The caller owns the socket. -/
  owned : (findClientConnection cfg s c.client c.id).status = .success
  /-- The socket has a control block. -/
  livePcb : LivePcb cfg s c.id
  /-- There is a value. -/
  value_ne : c.value ≠ []

/-- Calls one after the other, and what they return. -/
def setAll (cfg : Config) : Server → List OptionCall →
    Except Fault (Server × List (OptionCall × Reply))
  | s, [] => .ok (s, [])
  | s, c :: cs => do
    let (s, r) ← stepCall cfg s c.client c.call
    let (s, tr) ← setAll cfg s cs
    .ok (s, (c, r) :: tr)

/-- What a call gives for option `o` of socket `a`. -/
def OptionCall.gives (o : IpSocketOption) (a : ℤ) (c : OptionCall) : Option UInt8 :=
  if c.id = a ∧ IpSocketOption.decode c.option = some o then c.value.head? else none

/-- The value given in the last call for option `o` of socket `a`. -/
def lastGiven (o : IpSocketOption) (a : ℤ) (cs : List OptionCall) : Option UInt8 :=
  (cs.filterMap (OptionCall.gives o a)).getLast?

/-- The value given in the last of these calls that has succeeded. -/
def lastSet (o : IpSocketOption) (a : ℤ) (tr : List (OptionCall × Reply)) : Option UInt8 :=
  lastGiven o a ((tr.filter fun x => decide (x.2 = .code .success)).map Prod.fst)

theorem lastGiven_cons (o : IpSocketOption) (a : ℤ) (c : OptionCall) (cs : List OptionCall) :
    lastGiven o a (c :: cs) = (lastGiven o a cs).or (c.gives o a) := by
  unfold lastGiven
  cases h : c.gives o a with
  | none => rw [List.filterMap_cons_none h, Option.or_none]
  | some v =>
    rw [List.filterMap_cons_some h, List.getLast?_cons]
    cases (cs.filterMap (OptionCall.gives o a)).getLast? <;> rfl

/-- **One call.**  It answers with the status of the request, and changes the cell it is for. -/
theorem setsockopt_step {c : OptionCall} (hc : c.Proper cfg s) (ha : OwnPcb cfg s a) :
    ∃ t, stepCall cfg s c.client c.call
        = .ok (t, .code (optionStatus (getProtocol cfg s c.id) c.option c.value.length)) ∧
      SameSockets s t ∧
      ∀ o, cell cfg t a o = if Accepts (getProtocol cfg s a) o
        then ((c.gives o a).map o.written).getD (cell cfg s a o) else cell cfg s a o := by
  have hstep : stepCall cfg s c.client c.call
      = (shimIpSetsockopt cfg s c.id c.option c.value).map fun x => (x.1, .code x.2) := by
    have hfind := hc.owned
    simp only [OptionCall.call, stepCall, shimSetsockopt, hfind, ne_eq, not_true_eq_false, if_false]
    cases shimIpSetsockopt cfg s c.id c.option c.value <;> rfl
  obtain ⟨v, l, hv⟩ := List.exists_cons_of_ne_nil hc.value_ne
  rw [hstep]
  by_cases h : optionStatus (getProtocol cfg s c.id) c.option c.value.length = .success
  · obtain ⟨-, o, ho, hacc⟩ := optionStatus_eq_success.mp h
    obtain ⟨t, ht, hsame, hcell⟩ := cell_storeIpPcb ha hc.livePcb hacc v
    refine ⟨t, ?_, hsame, fun o' => ?_⟩
    · rw [h]
      rw [hv] at h ⊢
      rw [shimIpSetsockopt_of_accepted h ho, ht]
      rfl
    · rw [hcell]
      by_cases hcond : c.id = a ∧ o' = o
      · obtain ⟨hida, rfl⟩ := hcond
        rw [hida] at hacc
        rw [if_pos ⟨hida, rfl⟩, if_pos hacc, OptionCall.gives, if_pos ⟨hida, ho⟩, hv]
        rfl
      · have hgives : c.gives o' a = none := by
          rw [OptionCall.gives, if_neg]
          rintro ⟨hida, ho'⟩
          exact hcond ⟨hida, Option.some.inj (ho'.symm.trans ho)⟩
        rw [if_neg hcond, hgives]
        split <;> rfl
  · refine ⟨s, by rw [shimIpSetsockopt_of_refused h]; rfl, .refl s, fun o => ?_⟩
    split
    · next hacc =>
      -- the call is not for an option that the socket has
      have hgives : c.gives o a = none := by
        rw [OptionCall.gives, if_neg]
        rintro ⟨hida, ho⟩
        refine h (optionStatus_eq_success.mpr ⟨?_, o, ho, by rw [hida]; exact hacc⟩)
        exact List.length_pos_iff.mpr hc.value_ne
      rw [hgives]
      rfl
    · rfl

/-- The calls for an option that the socket has are the ones that succeed. -/
theorem gives_of_success {c : OptionCall} (hc : c.Proper cfg s) (o : IpSocketOption) (a : ℤ) :
    (if optionStatus (getProtocol cfg s c.id) c.option c.value.length = .success
      then c.gives o a else none)
      = if Accepts (getProtocol cfg s a) o then c.gives o a else none := by
  cases h : c.gives o a with
  | none => simp only [ite_self]
  | some v =>
    rw [OptionCall.gives, Option.ite_none_right_eq_some] at h
    obtain ⟨⟨rfl, ho⟩, -⟩ := h
    have hlen : 1 ≤ c.value.length := List.length_pos_iff.mpr hc.value_ne
    have hiff : optionStatus (getProtocol cfg s c.id) c.option c.value.length = .success ↔
        Accepts (getProtocol cfg s c.id) o := by
      rw [optionStatus_eq_success]
      constructor
      · rintro ⟨-, o', ho', hacc⟩
        rw [Option.some.inj (ho.symm.trans ho')]
        exact hacc
      · intro hacc
        exact ⟨hlen, o, ho, hacc⟩
    simp only [hiff]

theorem lastSet_cons (o : IpSocketOption) (a : ℤ) (c : OptionCall) (e : ErrorCode)
    (tr : List (OptionCall × Reply)) : lastSet o a ((c, .code e) :: tr)
      = (lastSet o a tr).or (if e = .success then c.gives o a else none) := by
  unfold lastSet
  by_cases he : e = .success
  · rw [List.filter_cons_of_pos (by simp [he]), List.map_cons, lastGiven_cons, if_pos he]
  · rw [List.filter_cons_of_neg (by simp [he]), if_neg he, Option.or_none]

/-- **What is in a cell after a sequence of calls**, and which of them have succeeded. -/
theorem cell_setAll {cs : List OptionCall} (ha : OwnPcb cfg s a)
    (hcs : ∀ c ∈ cs, c.Proper cfg s) :
    ∃ t tr, setAll cfg s cs = .ok (t, tr) ∧ SameSockets s t ∧
      ∀ o, (lastSet o a tr = if Accepts (getProtocol cfg s a) o then lastGiven o a cs else none) ∧
        cell cfg t a o = ((lastSet o a tr).map o.written).getD (cell cfg s a o) := by
  induction cs generalizing s with
  | nil =>
    refine ⟨s, [], rfl, .refl s, fun o => ⟨?_, rfl⟩⟩
    split <;> rfl
  | cons c cs ih =>
    have hc := hcs c List.mem_cons_self
    obtain ⟨u, hstep, hsame, hcell⟩ := setsockopt_step hc ha
    have hcs' : ∀ c' ∈ cs, c'.Proper cfg u := by
      intro c' hc'
      obtain ⟨howned, hpcb, hvalue⟩ := hcs c' (List.mem_cons_of_mem c hc')
      exact ⟨by rw [hsame.find]; exact howned, hsame.livePcb hpcb, hvalue⟩
    obtain ⟨t, tr, hall, hsame', hlast⟩ := ih (hsame.ownPcb ha) hcs'
    refine ⟨t, (c, _) :: tr, by simp only [setAll, hstep, hall, Bind.bind, Except.bind]; rfl,
      hsame.trans hsame', fun o => ?_⟩
    obtain ⟨hset, hcell'⟩ := hlast o
    rw [hsame.getProtocol] at hset
    rw [lastSet_cons, gives_of_success hc, hcell', hcell, hset, lastGiven_cons]
    by_cases hacc : Accepts (getProtocol cfg s a) o
    · simp only [if_pos hacc]
      refine ⟨trivial, ?_⟩
      cases lastGiven o a cs <;> cases c.gives o a <;> rfl
    · simp only [if_neg hacc]
      exact ⟨rfl, rfl⟩

/-! ### The last writer -/

/-- The status in the reply to a `setsockopt` or a `getsockopt`. -/
def Reply.status : Reply → Option ErrorCode
  | .code result => some result
  | .sockopt error _ => some error.status
  | _ => none

/-- A value as an option takes it: as a truth value, if the option is a flag. -/
def IpSocketOption.truth (o : IpSocketOption) (v : UInt8) : UInt8 :=
  if o = .multicastLoop then if v = 0 then 0 else 1 else v

/-- A sequence of `setsockopt` calls returns; a `getsockopt` of client `i` for an option of socket
`a` then returns the value given in the last successful call for it; and both calls accept and
reject the same requests. -/
def LastWriterWins (cfg : Config) (s : Server) (i : ℕ) (a : ℤ) (cs : List OptionCall) : Prop :=
  (∃ t tr, setAll cfg s cs = .ok (t, tr) ∧ ∀ o v, lastSet o a tr = some v →
    ∀ option length, IpSocketOption.decode option = some o → 1 ≤ length →
      stepCall cfg t i (.getsockopt a .ip option length)
        = .ok (t, .sockopt ⟨.success, 1⟩ (o.truth v))) ∧
  ∀ t j id level option value,
    (stepCall cfg t j (.setsockopt id level option value)).map (fun x => x.2.status)
      = (stepCall cfg t j (.getsockopt id level option value.length)).map fun x => x.2.status

/-- A `getsockopt` for an option that the socket has. -/
theorem stepCall_getsockopt {i : ℕ} (hfind : (findClientConnection cfg s i a).status = .success)
    (hpcb : LivePcb cfg s a) {o : IpSocketOption} (hacc : Accepts (getProtocol cfg s a) o)
    {option length : ℕ} (ho : IpSocketOption.decode option = some o) (hlen : 1 ≤ length) :
    stepCall cfg s i (.getsockopt a .ip option length)
      = .ok (s, .sockopt ⟨.success, 1⟩ (cell cfg s a o)) := by
  obtain ⟨b, hb⟩ : ∃ b, loadIpPcb cfg s a = .ok b := by
    cases hp : getProtocol cfg s a with
    | none => exact absurd hp hacc.1
    | udp =>
      obtain ⟨p, hget, -⟩ := hpcb.1 hp
      exact ⟨_, by simp only [loadIpPcb, hp, hget]; rfl⟩
    | tcp =>
      obtain ⟨p, hget, -⟩ := hpcb.2 hp
      exact ⟨_, by simp only [loadIpPcb, hp, hget]; rfl⟩
  have hstatus := optionStatus_eq_success.mpr ⟨hlen, o, ho, hacc⟩
  have hget := shimIpGetsockopt_of_accepted hstatus ho
  simp only [hb, Except.map] at hget
  simp only [stepCall, shimGetsockopt, hfind, ne_eq, not_true_eq_false, if_false, hget, Bind.bind,
    Except.bind, if_true, cell, hb]

/-- The status of the replies. -/
theorem map_stepCall_setsockopt (cfg : Config) (t : Server) (j : ℕ) (id : ℤ) (level : SocketLevel)
    (option : ℕ) (value : List UInt8) :
    (stepCall cfg t j (.setsockopt id level option value)).map (fun x => x.2.status)
      = (stepCall cfg t j (.getsockopt id level option value.length)).map fun x =>
        x.2.status := by
  have hmap := map_shimSetsockopt cfg t j id level option value
  simp only [stepCall]
  cases hset : shimSetsockopt cfg t j id level option value with
  | error e =>
    cases hget : shimGetsockopt cfg t j id level option value.length with
    | error e' => rw [hset, hget] at hmap; cases hmap; rfl
    | ok x => rw [hset, hget] at hmap; cases hmap
  | ok x =>
    cases hget : shimGetsockopt cfg t j id level option value.length with
    | error e' => rw [hset, hget] at hmap; cases hmap
    | ok y =>
      rw [hset, hget] at hmap
      have hstatus : x.2 = y.1 := Except.ok.inj hmap
      simp only [Bind.bind, Except.bind, Except.map, Reply.status, hstatus]

/-- What is written is what was given, unless a flag was to be cleared. -/
theorem written_eq_truth {o : IpSocketOption} {v : UInt8} :
    o.written v = o.truth v ↔ (o = .multicastLoop → v ≠ 0) := by
  unfold IpSocketOption.written IpSocketOption.truth
  split
  · next ho =>
    simp only [ho, true_implies]
    split
    · next hv => simp [hv]
    · next hv => simp [hv]
  · next ho => simp [ho]

section

variable {i : ℕ} {cs : List OptionCall}

/-- **What a `getsockopt` returns after a sequence of calls.** -/
theorem getsockopt_setAll (hfind : (findClientConnection cfg s i a).status = .success)
    (hpcb : LivePcb cfg s a) (hown : OwnPcb cfg s a) (hcs : ∀ c ∈ cs, c.Proper cfg s) :
    ∃ t tr, setAll cfg s cs = .ok (t, tr) ∧
      (∀ o, lastSet o a tr
        = if Accepts (getProtocol cfg s a) o then lastGiven o a cs else none) ∧
      ∀ o v, lastSet o a tr = some v →
        ∀ option length, IpSocketOption.decode option = some o → 1 ≤ length →
          stepCall cfg t i (.getsockopt a .ip option length)
            = .ok (t, .sockopt ⟨.success, 1⟩ (o.written v)) := by
  obtain ⟨t, tr, hall, hsame, hlast⟩ := cell_setAll hown hcs
  refine ⟨t, tr, hall, fun o => (hlast o).1, fun o v h option length ho hlen => ?_⟩
  have hfind' : (findClientConnection cfg t i a).status = .success := by
    rw [hsame.find]
    exact hfind
  have hacc : Accepts (getProtocol cfg t a) o := by
    have hset := h
    rw [(hlast o).1, Option.ite_none_right_eq_some] at hset
    rw [hsame.getProtocol]
    exact hset.1
  have hcell := (hlast o).2
  rw [h, Option.map_some, Option.getD_some] at hcell
  rw [stepCall_getsockopt hfind' (hsame.livePcb hpcb) hacc ho hlen, hcell]

/-- Multicast loops cannot be switched off. -/
theorem not_lastWriterWins (hfind : (findClientConnection cfg s i a).status = .success)
    (hpcb : LivePcb cfg s a) (hown : OwnPcb cfg s a) (hcs : ∀ c ∈ cs, c.Proper cfg s)
    (hudp : getProtocol cfg s a = .udp) (hzero : lastGiven .multicastLoop a cs = some 0) :
    ¬ LastWriterWins cfg s i a cs := by
  rintro ⟨⟨t', tr', hall', hwins⟩, -⟩
  obtain ⟨t, tr, hall, hlast, hget⟩ := getsockopt_setAll hfind hpcb hown hcs
  obtain ⟨rfl, rfl⟩ : t = t' ∧ tr = tr' := by simpa using hall.symm.trans hall'
  have hacc : Accepts (getProtocol cfg s a) .multicastLoop := by
    rw [hudp]
    decide
  have hset : lastSet .multicastLoop a tr = some 0 := by rw [hlast, if_pos hacc, hzero]
  -- one is read, and zero was given
  have hread := (hget _ _ hset 7 1 rfl le_rfl).symm.trans (hwins _ _ hset 7 1 rfl le_rfl)
  cases hread

/-- **Exactly when the last writer wins**: when it has not tried to switch off multicast loops. -/
theorem last_writer_wins_iff (hfind : (findClientConnection cfg s i a).status = .success)
    (hpcb : LivePcb cfg s a) (hown : OwnPcb cfg s a) (hcs : ∀ c ∈ cs, c.Proper cfg s) :
    LastWriterWins cfg s i a cs ↔
      (getProtocol cfg s a = .udp → lastGiven .multicastLoop a cs ≠ some 0) := by
  constructor
  · intro hwins hudp hzero
    exact not_lastWriterWins hfind hpcb hown hcs hudp hzero hwins
  · intro hcond
    obtain ⟨t, tr, hall, hlast, hget⟩ := getsockopt_setAll hfind hpcb hown hcs
    refine ⟨⟨t, tr, hall, fun o v h option length ho hlen => ?_⟩, map_stepCall_setsockopt cfg⟩
    rw [hget o v h option length ho hlen, written_eq_truth.mpr]
    rintro rfl rfl
    rw [hlast, Option.ite_none_right_eq_some] at h
    refine hcond ?_ h.2
    exact not_not.mp fun hne => h.1.2 ⟨rfl, hne⟩

end

/-- A UDP socket in slot 0. -/
theorem exists_udp : ∃ s, Reachable .small s ∧
    (findClientConnection .small s 0 0).status = .success ∧ getProtocol .small s 0 = .udp ∧
    LivePcb .small s 0 ∧ OwnPcb .small s 0 := by
  have hrun : ∃ tr s, RunsTo .small (fun _ _ => True) tr s ∧
      ((findClientConnection .small s 0 0).status = .success ∧ getProtocol .small s 0 = .udp) ∧
      (getUdpPcb .small s 0 = some 10 ∧ (s.udp 10).isSome = true) ∧
      getTcpPcb .small s 0 = none ∧ getUdpPcb .small s 1 = none := by
    refine Run.exists_of_replay [.call 0 (.socket .udp (some 10))] ?_
    decide
  obtain ⟨tr, s, hrun, ⟨hfind, hproto⟩, ⟨hget, hlive⟩, htcp, hother⟩ := hrun
  refine ⟨s, ⟨tr, hrun⟩, hfind, hproto, ⟨fun _ => ⟨10, hget, hlive⟩, fun h => ?_⟩, fun k hk => ?_⟩
  · rw [hproto] at h
    cases h
  · refine ⟨fun p _ hp => ?_, fun p hp => ?_⟩
    · -- there are two slots
      by_cases hin : Config.small.InRange k
      · obtain ⟨h0, h1⟩ := hin
        have hsmall : (Config.small.maxOpenSockets : ℤ) = 2 := rfl
        obtain rfl : k = 1 := by omega
        rw [hother] at hp
        cases hp
      · rw [getUdpPcb, if_neg fun h => hin h.1] at hp
        cases hp
    · rw [htcp] at hp
      cases hp

/-- `XTCP_IP_SOCKET_OPTION_TOS` is written, and multicast loops are switched on. -/
theorem last_writer_wins_on : ∃ s, Reachable .small s ∧
    LastWriterWins .small s 0 0 [⟨0, 0, 1, [16]⟩, ⟨0, 0, 7, [0]⟩, ⟨0, 0, 7, [1]⟩] := by
  obtain ⟨s, hs, hfind, hproto, hpcb, hown⟩ := exists_udp
  refine ⟨s, hs, (last_writer_wins_iff hfind hpcb hown fun c hc => ?_).mpr fun _ => by decide⟩
  simp only [List.mem_cons, List.not_mem_nil, or_false] at hc
  obtain rfl | rfl | rfl := hc
  · exact ⟨hfind, hpcb, by simp⟩
  · exact ⟨hfind, hpcb, by simp⟩
  · exact ⟨hfind, hpcb, by simp⟩

/-- Multicast loops are switched on, and off again. -/
theorem multicast_loop_stays_on : ¬ ∀ s i a cs, Reachable .small s →
    (findClientConnection .small s i a).status = .success → LivePcb .small s a →
    OwnPcb .small s a → (∀ c ∈ cs, OptionCall.Proper .small s c) →
    LastWriterWins .small s i a cs := by
  intro hwins
  obtain ⟨s, hs, hfind, hproto, hpcb, hown⟩ := exists_udp
  have hcs : ∀ c ∈ [⟨0, 0, 7, [1]⟩, ⟨0, 0, 7, [0]⟩], OptionCall.Proper .small s c := by
    intro c hc
    simp only [List.mem_cons, List.not_mem_nil, or_false] at hc
    obtain rfl | rfl := hc
    · exact ⟨hfind, hpcb, by simp⟩
    · exact ⟨hfind, hpcb, by simp⟩
  exact not_lastWriterWins hfind hpcb hown hcs hproto rfl (hwins s 0 0 _ hs hfind hpcb hown hcs)

end Xtcp
