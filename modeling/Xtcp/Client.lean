import Xtcp.Library.Programs
import Xtcp.QueueStep

/-!
# Client tasks

A client task holds its end of `xtcp_if`: it makes one call at a time and waits for its result.  So
it is a program that asks questions of the server, and the calls of client `c` in a history of the
server are the answers to the questions of its task.

`event_ready` is a notification that the client may call `get_event`; here a client may call it at
any time.  A call of the model has lwIP's answers with it; a request has none, and it has the
arguments that the model of the call leaves out.

## Main definitions

* `Request`, `Request.Answer` — the calls, as a client makes them, and their results.
* `Request.reply` — the result of a request, read off the call that has been carried out.
* `CarriedOut` — the calls that have been carried out, by request.
* `ownCalls` — the calls of one client in a history.
-/

namespace Xtcp

open Programs

/-- A call of `xtcp_if`, as a client task makes it. -/
inductive Request
  /-- `get_event(id)` -/
  | getEvent
  /-- `socket(protocol)` -/
  | socket (protocol : Protocol)
  /-- `close(id)` -/
  | close (id : ℤ)
  /-- `listen(id, port_number, ipaddr)` -/
  | listen (id : ℤ) (portNumber : UInt16) (ipaddr : IpAddr)
  /-- `send(id, buffer, length)` -/
  | send (id : ℤ) (buffer : List UInt8)
  /-- `sendto(id, buffer, length, remote_addr, remote_port)` -/
  | sendto (id : ℤ) (buffer : List UInt8) (remoteAddr : IpAddr) (remotePort : UInt16)
  /-- `recv(id, buffer, length)` -/
  | recv (id : ℤ) (length : UInt32)
  /-- `recvfrom(id, buffer, length, ipaddr, port_number)` -/
  | recvfrom (id : ℤ) (length : UInt32)
  /-- `request_host_by_name(hostname, name_len, dns_server)` -/
  | requestHostByName (hostname : String) (dnsServer : IpAddr)
  /-- `get_ipconfig_remote(id)` -/
  | getIpconfigRemote (id : ℤ)

/-- What a call comes back with: its result, and what it has written to its arguments. -/
def Request.Answer : Request → Type
  | .getEvent => ClientEvent
  | .socket _ => ℤ
  | .close _ => Unit
  | .listen _ _ _ => ErrorCode
  | .send _ _ => ℤ
  | .sendto _ _ _ _ => ℤ
  | .recv _ _ => ℤ × List UInt8
  | .recvfrom _ _ => ℤ × List UInt8 × Host
  | .requestHostByName _ _ => Host
  | .getIpconfigRemote _ => Host

/-- The result of a request, if the call that has been carried out is this request. -/
def Request.reply : (q : Request) → Call × Reply → Option q.Answer
  | .getEvent, (.getEvent, .event event) => some event
  | .socket protocol, (.socket protocol' _, .int result) =>
    if protocol = protocol' then some result else none
  | .close id, (.close id' _, .unit) => if id = id' then some () else none
  | .listen id portNumber ipaddr, (.listen id' portNumber' ipaddr' _, .code result) =>
    if id = id' ∧ portNumber = portNumber' ∧ ipaddr = ipaddr' then some result else none
  | .send id buffer, (.send id' buffer' false _, .sent result _ _) =>
    if id = id' ∧ buffer = buffer' then some result else none
  | .sendto id buffer _ _, (.sendto id' buffer' false _, .sent result _ _) =>
    if id = id' ∧ buffer = buffer' then some result else none
  | .recv id length, (.recv id' length' false, .received result data _ _) =>
    if id = id' ∧ length = length' then some (result, data) else none
  | .recvfrom id length, (.recvfrom id' length' false, .received result data remote _) =>
    if id = id' ∧ length = length' then some (result, data, remote) else none
  | .requestHostByName _ _, (.requestHostByName _ _ _, .host host) => some host
  | .getIpconfigRemote id, (.getIpconfigRemote id', .host host) =>
    if id = id' then some host else none
  | _, _ => none

/-- A client task: a program that makes calls. -/
abbrev Client : Type → Type := Program Request Request.Answer

namespace Client

/-- `get_event(id)` -/
def getEvent : Client ClientEvent := perform Request.getEvent

/-- `socket(protocol)` -/
def socket (protocol : Protocol) : Client ℤ := perform (Request.socket protocol)

/-- `close(id)` -/
def close (id : ℤ) : Client Unit := perform (Request.close id)

/-- `listen(id, port_number, ipaddr)` -/
def listen (id : ℤ) (portNumber : UInt16) (ipaddr : IpAddr) : Client ErrorCode :=
  perform (Request.listen id portNumber ipaddr)

/-- `send(id, buffer, length)` -/
def send (id : ℤ) (buffer : List UInt8) : Client ℤ := perform (Request.send id buffer)

/-- `sendto(id, buffer, length, remote_addr, remote_port)` -/
def sendto (id : ℤ) (buffer : List UInt8) (remoteAddr : IpAddr) (remotePort : UInt16) : Client ℤ :=
  perform (Request.sendto id buffer remoteAddr remotePort)

/-- `recv(id, buffer, length)`: the result, and what has been written to the buffer. -/
def recv (id : ℤ) (length : UInt32) : Client (ℤ × List UInt8) := perform (Request.recv id length)

/-- `recvfrom(id, buffer, length, ipaddr, port_number)`: the result, what has been written to the
buffer, and the address and the port. -/
def recvfrom (id : ℤ) (length : UInt32) : Client (ℤ × List UInt8 × Host) :=
  perform (Request.recvfrom id length)

/-- `request_host_by_name(hostname, name_len, dns_server)` -/
def requestHostByName (hostname : String) (dnsServer : IpAddr) : Client Host :=
  perform (Request.requestHostByName hostname dnsServer)

/-- `get_ipconfig_remote(id)` -/
def getIpconfigRemote (id : ℤ) : Client Host := perform (Request.getIpconfigRemote id)

end Client

/-- A call with its result. -/
abbrev ClientCall : Type := Exchange Request Request.Answer

/-- The call that has been carried out for a request, and the reply to it. -/
inductive CarriedOut : ClientCall → Call → Reply → Prop
  | getEvent {event : ClientEvent} : CarriedOut ⟨.getEvent, event⟩ .getEvent (.event event)
  | socket {protocol : Protocol} {answer : Option Ptr} {result : ℤ} :
      CarriedOut ⟨.socket protocol, result⟩ (.socket protocol answer) (.int result)
  | close {id : ℤ} {lingers : Bool} : CarriedOut ⟨.close id, ()⟩ (.close id lingers) .unit
  | listen {id : ℤ} {portNumber : UInt16} {ipaddr : IpAddr} {answer : ListenAnswer}
      {result : ErrorCode} : CarriedOut ⟨.listen id portNumber ipaddr, result⟩
        (.listen id portNumber ipaddr answer) (.code result)
  | send {id : ℤ} {buffer : List UInt8} {answer : SendAnswer} {result : ℤ}
      {timestamp : Option UInt32} {reads : List PbufRead} : CarriedOut ⟨.send id buffer, result⟩
        (.send id buffer false answer) (.sent result timestamp reads)
  | sendto {id : ℤ} {buffer : List UInt8} {remoteAddr : IpAddr} {remotePort : UInt16}
      {answer : SendAnswer} {result : ℤ} {timestamp : Option UInt32} {reads : List PbufRead} :
      CarriedOut ⟨.sendto id buffer remoteAddr remotePort, result⟩
        (.sendto id buffer false answer) (.sent result timestamp reads)
  | recv {id : ℤ} {length : UInt32} {result : ℤ} {data : List UInt8} {remote : Host}
      {timestamp : UInt32} : CarriedOut ⟨.recv id length, (result, data)⟩ (.recv id length false)
        (.received result data remote timestamp)
  | recvfrom {id : ℤ} {length : UInt32} {result : ℤ} {data : List UInt8} {remote : Host}
      {timestamp : UInt32} : CarriedOut ⟨.recvfrom id length, (result, data, remote)⟩
        (.recvfrom id length false) (.received result data remote timestamp)
  | requestHostByName {hostname : String} {dnsServer ipaddr : IpAddr} {hasGateway : Bool}
      {answer : Err} {host : Host} : CarriedOut ⟨.requestHostByName hostname dnsServer, host⟩
        (.requestHostByName hasGateway answer ipaddr) (.host host)
  | getIpconfigRemote {id : ℤ} {host : Host} :
      CarriedOut ⟨.getIpconfigRemote id, host⟩ (.getIpconfigRemote id) (.host host)

/-- A reply is the reply to the call that has been carried out for the request. -/
theorem carriedOut_of_reply {e : ClientCall} {call : Call} {r : Reply}
    (h : e.1.reply (call, r) = some e.2) : CarriedOut e call r := by
  obtain ⟨q, a⟩ := e
  dsimp only at h
  generalize hx : (call, r) = x at h
  unfold Request.reply at h
  split at h
  · cases hx
    cases h
    exact .getEvent
  · obtain ⟨rfl, heq⟩ := Option.ite_none_right_eq_some.mp h
    cases hx
    cases heq
    exact .socket
  · obtain ⟨rfl, heq⟩ := Option.ite_none_right_eq_some.mp h
    cases hx
    cases heq
    exact .close
  · obtain ⟨⟨rfl, rfl, rfl⟩, heq⟩ := Option.ite_none_right_eq_some.mp h
    cases hx
    cases heq
    exact .listen
  · obtain ⟨⟨rfl, rfl⟩, heq⟩ := Option.ite_none_right_eq_some.mp h
    cases hx
    cases heq
    exact .send
  · obtain ⟨⟨rfl, rfl⟩, heq⟩ := Option.ite_none_right_eq_some.mp h
    cases hx
    cases heq
    exact .sendto
  · obtain ⟨⟨rfl, rfl⟩, heq⟩ := Option.ite_none_right_eq_some.mp h
    cases hx
    cases heq
    exact .recv
  · obtain ⟨⟨rfl, rfl⟩, heq⟩ := Option.ite_none_right_eq_some.mp h
    cases hx
    cases heq
    exact .recvfrom
  · cases hx
    cases h
    exact .requestHostByName
  · obtain ⟨rfl, heq⟩ := Option.ite_none_right_eq_some.mp h
    cases hx
    cases heq
    exact .getIpconfigRemote
  · cases h

/-- A call of client `c`, with its result. -/
def ownCall (c : ℕ) : Action × Reply → Option (Call × Reply)
  | (.call i call, r) => if i = c then some (call, r) else none
  | (.happens _, _) => none

/-- The calls of client `c`, with their results. -/
def ownCalls (c : ℕ) (tr : List (Action × Reply)) : List (Call × Reply) := tr.filterMap (ownCall c)

/-- Client `c` is a task that repeats `body`, and that has come from `p` to `p'` with the calls
`w`. -/
def Obeys {σ : Type} (c : ℕ) (body : σ → Client σ) (p : Client σ) (tr : List (Action × Reply))
    (w : List ClientCall) (p' : Client σ) : Prop :=
  follow Request.reply body p (ownCalls c tr) = some (w, p')

/-- An event is the one of slot `k`. -/
def ClientEvent.isEvent (event : EventType) (k : ℤ) (e : ClientEvent) : Bool :=
  decide (e = ⟨event, k⟩)

/-- The client is given an event of slot `k`. -/
def toldOn (event : EventType) (k : ℤ) : ClientCall → Bool
  | ⟨.getEvent, e⟩ => ClientEvent.isEvent event k e
  | _ => false

theorem ownCall_eq_some {c : ℕ} {x : Action × Reply} {y : Call × Reply} :
    ownCall c x = some y ↔ x = (.call c y.1, y.2) := by
  obtain ⟨a, r⟩ := x
  constructor
  · intro h
    cases a with
    | call i call =>
      obtain ⟨rfl, heq⟩ := Option.ite_none_right_eq_some.mp h
      cases heq
      rfl
    | happens => cases h
  · intro h
    cases h
    exact if_pos rfl

theorem ownCall_eq_none {c : ℕ} {a : Action} {r : Reply} (h : ownCall c (a, r) = none)
    (call : Call) : a ≠ .call c call := by
  rintro rfl
  have hsome : ownCall c (.call c call, r) = some (call, r) := if_pos rfl
  rw [hsome] at h
  cases h

theorem mem_ownCalls {c : ℕ} {tr : List (Action × Reply)} {y : Call × Reply} :
    y ∈ ownCalls c tr ↔ (.call c y.1, y.2) ∈ tr := by
  simp [ownCalls, List.mem_filterMap, ownCall_eq_some]

section Obeys

variable {σ : Type} {c : ℕ} {body : σ → Client σ} {p p' : Client σ} {tr tr' : List (Action × Reply)}
  {w : List ClientCall}

/-- A task can be followed in two parts. -/
theorem Obeys.of_append (h : Obeys c body p (tr ++ tr') w p') :
    ∃ u v q, Obeys c body p tr u q ∧ Obeys c body q tr' v p' ∧ w = u ++ v := by
  rw [Obeys, ownCalls, List.filterMap_append] at h
  exact follow_append h

/-- Every call of the client is one of its task. -/
theorem Obeys.mem (h : Obeys c body p tr w p') {call : Call} {r : Reply}
    (hmem : (.call c call, r) ∈ tr) : ∃ e ∈ w, CarriedOut e call r := by
  have hown : (call, r) ∈ ownCalls c tr := mem_ownCalls.mpr hmem
  obtain ⟨e, he, hreply⟩ := follow_mem h hown
  exact ⟨e, he, carriedOut_of_reply hreply⟩

/-- What the task has done can be read off the history. -/
theorem Obeys.flatMap {β : Type*} {f : ClientCall → List β} {g : Action × Reply → List β}
    (h : Obeys c body p tr w p')
    (hfg : ∀ e call r, (.call c call, r) ∈ tr → CarriedOut e call r → f e = g (.call c call, r))
    (hother : ∀ x ∈ tr, ownCall c x = none → g x = []) : w.flatMap f = tr.flatMap g := by
  have hmap : w.map f = (ownCalls c tr).map fun x => g (.call c x.1, x.2) :=
    follow_map (fun e x hx hreply =>
      hfg e x.1 x.2 (mem_ownCalls.mp hx) (carriedOut_of_reply hreply)) h
  rw [List.flatMap_def, hmap, ← List.flatMap_def]
  clear h hmap hfg
  induction tr with
  | nil => rfl
  | cons x tr ih =>
    have ih := ih fun y hy => hother y (List.mem_cons_of_mem x hy)
    rw [List.flatMap_cons, ← ih, ownCalls]
    cases hx : ownCall c x with
    | none => rw [hother x List.mem_cons_self hx, List.filterMap_cons_none hx, List.nil_append]; rfl
    | some y => rw [List.filterMap_cons_some hx, List.flatMap_cons, ownCall_eq_some.mp hx]; rfl

/-- What the task has done, counted. -/
theorem Obeys.countP {P : ClientCall → Bool} {P' : Action × Reply → Bool}
    (h : Obeys c body p tr w p')
    (hP : ∀ e call r, CarriedOut e call r → P e = P' (.call c call, r))
    (hother : ∀ x ∈ tr, ownCall c x = none → P' x = false) : w.countP P = tr.countP P' := by
  have hmap : w.map P = (ownCalls c tr).map fun x => P' (.call c x.1, x.2) :=
    follow_map (fun e x _ hreply => hP e x.1 x.2 (carriedOut_of_reply hreply)) h
  calc
    w.countP P = (w.map P).countP id := by rw [List.countP_map]; rfl
    _ = (ownCalls c tr).countP fun x => P' (.call c x.1, x.2) := by
      rw [hmap, List.countP_map]; rfl
    _ = tr.countP P' := by
      rw [ownCalls, List.countP_filterMap]
      refine List.countP_congr fun x hx => ?_
      cases hown : ownCall c x with
      | none => simp [hother x hx hown]
      | some y => rw [ownCall_eq_some.mp hown]; rfl

/-- How often the task has been given an event. -/
theorem Obeys.events (h : Obeys c body p tr w p') (event : EventType) (k : ℤ) :
    w.countP (toldOn event k) = (receivedBy c tr).countP (ClientEvent.isEvent event k) := by
  rw [receivedBy, List.countP_filterMap]
  refine h.countP (fun e call r hdone => ?_) fun x _ hx => ?_
  · cases hdone with
    | getEvent => simp [toldOn]
    | _ => rfl
  · obtain ⟨a, r⟩ := x
    split
    · next i e heq =>
      cases heq
      have hi : i ≠ c := fun hi => ownCall_eq_none hx .getEvent (by rw [hi])
      rw [if_neg hi]
      rfl
    · rfl

end Obeys

/-! ### The bytes of a receive -/

/-- The pbufs that a TCP delivery brings for slot `k`. -/
def deliveredOn (k : ℤ) : Action → List (Ptr × Pbuf)
  | .happens (.tcpEvent _ arg (.recv cells)) => if arg = k then cells else []
  | _ => []

variable {cfg : Config} {s s' : Server}

/-- `toupper`, in the locale of C. -/
def toupper (x : UInt8) : UInt8 := if 0x61 ≤ x ∧ x ≤ 0x7a then x - 0x20 else x

/-- `get_remote_data` says how many bytes there are, or there are none. -/
theorem getRemoteData_data {index length : ℤ} {copy : RemoteData}
    (h : getRemoteData cfg s index length = .ok copy) :
    copy.result.status = .success ∧ copy.result.value = copy.data.length ∨ copy.data = [] := by
  unfold getRemoteData at h
  split at h
  · split at h
    · obtain ⟨b, -, h⟩ := Runs.bind_eq_ok.mp h
      split at h
      · cases h
        exact .inr rfl
      · cases h
        exact .inl ⟨rfl, rfl⟩
    · cases h
      exact .inr rfl
  · cases h
    exact .inr rfl

/-- What a receive writes to the buffer is as long as it says. -/
theorem take_receive {id : ℤ} {length : UInt32} {timed : Bool} {remote remote' : Host} {result : ℤ}
    {data : List UInt8} {timestamp : UInt32}
    (h : receive cfg s id length timed remote = .ok (s', .received result data remote' timestamp)) :
    data.take result.toNat = data := by
  obtain ⟨copy, hcopy, h⟩ := Runs.bind_eq_ok.mp h
  obtain ⟨⟨t, e⟩, -, h⟩ := Runs.bind_eq_ok.mp h
  cases h
  rcases getRemoteData_data hcopy with ⟨hstatus, hvalue⟩ | hnil
  · simp [hstatus, hvalue]
  · simp [hnil]

end Xtcp
