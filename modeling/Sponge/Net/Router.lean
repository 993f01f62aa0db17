import Sponge.Net.Interface
import Sponge.Net.Trie

/-!
The router of `router.{hh,cc}`.

An `AsyncNetworkInterface` is a network interface that keeps the datagrams it receives in a
queue, `datagrams_out`. The router holds its interfaces and a routing table (`Trie`).
`route_one_datagram` drops a datagram whose TTL would run out, else decrements the TTL and
sends the datagram on the interface of the route the table matches, to the route's next hop
or, for a direct route, to the datagram's destination; `route` does this for every queued
datagram, interface by interface, popping each one after it.

`routeSpec` says what routing is for: the queued datagrams in turn, each popped and, where its
TTL and the reference selection `bestRoute` allow (`forwarding`), handed with its TTL
decremented to the chosen interface's `send_datagram`. A router whose table was built by
`add_route` calls with prefix lengths of at most 32 routes exactly so
(`route_by_longest_prefix`): the nested loops of `route` take the queued datagrams in that
order (`routeFrom_eq`), and the table's longest-prefix match is the reference. Whatever the
table, a `route` in which no send throws leaves every queue empty (`route_empties_queues`): the
inner loop has a turn for each queued datagram and routing one adds to no queue.
-/

namespace Sponge

/-- `Address::from_ipv4_numeric(ip_address)`. -/
def Address.fromIpv4Numeric (ipAddress : UInt32) : Address := { ipv4Numeric := ipAddress }

/-- `AsyncNetworkInterface`: a network interface and the queue of datagrams it received. -/
structure AsyncNetworkInterface extends NetworkInterface.State where
  datagramsOut : List IPv4Datagram := []

/-- `AsyncNetworkInterface::recv_frame(frame)`: a datagram the interface returns is queued. -/
def AsyncNetworkInterface.recvFrame (a : AsyncNetworkInterface) (frame : EthernetFrame) :
    EStateM.Result String AsyncNetworkInterface Unit :=
  match a.toState.recvFrame frame with
  | .ok (some dgram) s => .ok () { a with toState := s, datagramsOut := a.datagramsOut ++ [dgram] }
  | .ok none s => .ok () { a with toState := s }
  | .error e s => .error e { a with toState := s }

/-- The queue grows by the datagram the interface returns, if any. -/
theorem AsyncNetworkInterface.recvFrame_datagramsOut (a : AsyncNetworkInterface) (frame : EthernetFrame)
    {a' : AsyncNetworkInterface} (h : a.recvFrame frame = .ok () a') :
    a'.datagramsOut = a.datagramsOut ++ (a.toNetworkInterface.recvFrame frame).toList := by
  unfold recvFrame at h
  cases hr : a.toState.recvFrame frame with
  | ok v s =>
    have hv := NetworkInterface.State.recvFrame_value a.toState frame hr
    rw [hr] at h
    rw [← hv]
    cases v with
    | some dgram => cases h; rfl
    | none => cases h; simp
  | error e s =>
    rw [hr] at h
    cases h

/-- `Router`: the interfaces and the routing table. -/
structure Router where
  interfaces : List AsyncNetworkInterface := []
  routeTable : Trie := {}

namespace Router

/-- The router a call leaves, whether it returns or throws. -/
def after : EStateM.Result String Router Unit → Router
  | .ok _ r => r
  | .error _ r => r

/-- `add_interface(interface)`: the new interface's index, and the router. -/
def addInterface (r : Router) (interface : AsyncNetworkInterface) : Nat × Router :=
  (r.interfaces.length, { r with interfaces := r.interfaces ++ [interface] })

/-- `add_route(route_prefix, prefix_length, next_hop, interface_num)`. -/
def addRoute (r : Router) (routePrefix : UInt32) (prefixLength : UInt8) (nextHop : Option Address)
    (interfaceNum : Nat) : Router :=
  { r with routeTable := r.routeTable.insert { routePrefix, prefixLength, nextHop, interfaceNum } }

/-- The queue of interface `i`. -/
def datagramsOut (r : Router) (i : Nat) : List IPv4Datagram :=
  (r.interfaces[i]?.map (·.datagramsOut)).getD []

/-- Interface `i`'s queue, changed by `f`. -/
def modifyDatagramsOut (r : Router) (i : Nat) (f : List IPv4Datagram → List IPv4Datagram) : Router :=
  { r with interfaces := r.interfaces.modify i fun a => { a with datagramsOut := f a.datagramsOut } }

/-- `_interfaces[i].send_datagram(dgram, next_hop)`. -/
def sendOn (r : Router) (i : Nat) (dgram : IPv4Datagram) (nextHop : Address) : EStateM.Result String Router Unit :=
  match r.interfaces[i]? with
  -- `operator[]` past the end is undefined; the model leaves the router as it is
  | none => .ok () r
  | some a =>
    let put (s : NetworkInterface.State) : Router := { r with interfaces := r.interfaces.set i { a with toState := s } }
    match a.toState.sendDatagram dgram nextHop with
    | .ok () s => .ok () (put s)
    | .error e s => .error e (put s)

/-- `route_one_datagram(dgram)`: the datagram as the call leaves it, and the outcome. -/
def routeOneDatagram (r : Router) (dgram : IPv4Datagram) : IPv4Datagram × EStateM.Result String Router Unit :=
  if dgram.header.ttl ≤ 1 then (dgram, .ok () r)
  else
    let dgram := { dgram with header := { dgram.header with ttl := dgram.header.ttl - 1 } }
    let dst := dgram.header.dst
    match r.routeTable.longestPrefixMatch dst with
    | none => (dgram, .ok () r)
    | some entry =>
      match entry.nextHop with
      | some nextHop => (dgram, r.sendOn entry.interfaceNum dgram nextHop)
      | none => (dgram, r.sendOn entry.interfaceNum dgram (Address.fromIpv4Numeric dgram.header.dst))

/-- The loop of `route` over interface `i`'s queue, for at most `fuel` turns: route the
front, then pop it. -/
def routeQueue (i : Nat) : Nat → Router → EStateM.Result String Router Unit
  | 0, r => .ok () r
  | fuel + 1, r =>
    match r.datagramsOut i with
    | [] => .ok () r
    | d :: _ =>
      match r.routeOneDatagram d with
      | (_, .ok () r) => routeQueue i fuel (r.modifyDatagramsOut i List.tail)
      -- a throw leaves the front as `route_one_datagram` changed it
      | (d, .error e r) => .error e (r.modifyDatagramsOut i fun q => d :: q.tail)

/-- The loop of `route` over the interfaces `is`. -/
def routeFrom : List Nat → Router → EStateM.Result String Router Unit
  | [], r => .ok () r
  | i :: is, r =>
    match routeQueue i (r.datagramsOut i).length r with
    | .ok () r => routeFrom is r
    | .error e r => .error e r

/-- `Router::route()`. -/
def route (r : Router) : EStateM.Result String Router Unit :=
  routeFrom (List.range r.interfaces.length) r

/-! ## Routing as it should be -/

/-- The queued datagrams in the order `route` takes them, each with its interface. -/
def queued (r : Router) : List (Nat × IPv4Datagram) :=
  (List.range r.interfaces.length).flatMap fun i => (r.datagramsOut i).map fun d => (i, d)

/-- `dgram` with its TTL decremented. -/
def decrementTtl (dgram : IPv4Datagram) : IPv4Datagram :=
  { dgram with header := { dgram.header with ttl := dgram.header.ttl - 1 } }

/-- Where the reference sends a datagram: nowhere if its TTL runs out or no route applies,
else to the chosen route's interface, with its TTL decremented, to the route's next hop or,
for a direct route, to its destination. -/
def forwarding (routes : List Entry) (dgram : IPv4Datagram) : Option (Nat × IPv4Datagram × Address) :=
  if dgram.header.ttl ≤ 1 then none
  else (bestRoute routes dgram.header.dst).map fun e =>
    (e.interfaceNum, decrementTtl dgram, e.nextHop.getD (Address.fromIpv4Numeric dgram.header.dst))

/-- Routing the datagrams `qs` in turn: each is popped from its queue and, where `forwarding`
says, handed to that interface's `send_datagram`. -/
def routeSpec (routes : List Entry) : List (Nat × IPv4Datagram) → Router → EStateM.Result String Router Unit
  | [], r => .ok () r
  | (i, d) :: qs, r =>
    match forwarding routes d with
    | none => routeSpec routes qs (r.modifyDatagramsOut i List.tail)
    | some (k, d', h) =>
      match r.sendOn k d' h with
      | .ok () r => routeSpec routes qs (r.modifyDatagramsOut i List.tail)
      | .error e r => .error e (r.modifyDatagramsOut i fun q => d' :: q.tail)

/-! ## What the steps leave alone -/

@[simp] theorem routeTable_modifyDatagramsOut (r : Router) (i : Nat) (f : List IPv4Datagram → List IPv4Datagram) :
    (r.modifyDatagramsOut i f).routeTable = r.routeTable := rfl

@[simp] theorem length_modifyDatagramsOut (r : Router) (i : Nat) (f : List IPv4Datagram → List IPv4Datagram) :
    (r.modifyDatagramsOut i f).interfaces.length = r.interfaces.length := List.length_modify _ _ _

theorem datagramsOut_modify_self (r : Router) {i : Nat} (hi : i < r.interfaces.length)
    (f : List IPv4Datagram → List IPv4Datagram) : (r.modifyDatagramsOut i f).datagramsOut i = f (r.datagramsOut i) := by
  simp [modifyDatagramsOut, datagramsOut, List.getElem?_modify_eq, List.getElem?_eq_getElem hi]

theorem datagramsOut_modify_ne (r : Router) {i j : Nat} (hij : i ≠ j) (f : List IPv4Datagram → List IPv4Datagram) :
    (r.modifyDatagramsOut i f).datagramsOut j = r.datagramsOut j := by
  simp [modifyDatagramsOut, datagramsOut, List.getElem?_modify_ne _ _ hij]

/-- What sending on an interface leaves alone: the table, the number of interfaces and every
queue. -/
structure Frame (r r' : Router) : Prop where
  routeTable : r'.routeTable = r.routeTable
  length : r'.interfaces.length = r.interfaces.length
  datagramsOut : ∀ j, r'.datagramsOut j = r.datagramsOut j

theorem Frame.refl (r : Router) : Frame r r := ⟨rfl, rfl, fun _ => rfl⟩

theorem sendOn_frame (r : Router) (i : Nat) (dgram : IPv4Datagram) (nextHop : Address) :
    Frame r (after (r.sendOn i dgram nextHop)) := by
  unfold sendOn
  cases ha : r.interfaces[i]? with
  | none => exact Frame.refl r
  | some a =>
    -- the interface is replaced by one with the same queue
    have hput : ∀ s : NetworkInterface.State,
        Frame r { r with interfaces := r.interfaces.set i { a with toState := s } } := by
      intro s
      refine ⟨rfl, List.length_set, fun j => ?_⟩
      by_cases hij : i = j
      · subst hij
        have hlt : i < r.interfaces.length := (List.getElem?_eq_some_iff.mp ha).1
        simp [datagramsOut, List.getElem?_set_self hlt, ha]
      · simp [datagramsOut, List.getElem?_set_ne hij]
    dsimp only
    cases a.toState.sendDatagram dgram nextHop with
    | ok u s => exact hput s
    | error e s => exact hput s

/-! ## One datagram -/

section Table

variable {routes : List Entry} {r : Router} (hr : ∀ ip, r.routeTable.longestPrefixMatch ip = bestRoute routes ip)
include hr

theorem routeOneDatagram_of_none {d : IPv4Datagram} (hf : forwarding routes d = none) :
    ∃ d', r.routeOneDatagram d = (d', .ok () r) := by
  unfold forwarding at hf
  unfold routeOneDatagram
  by_cases ht : d.header.ttl ≤ 1
  · exact ⟨d, if_pos ht⟩
  rw [if_neg ht] at hf
  rw [if_neg ht]
  dsimp only
  rw [hr, Option.map_eq_none_iff.mp hf]
  exact ⟨_, rfl⟩

theorem routeOneDatagram_of_some {d d' : IPv4Datagram} {k : Nat} {h : Address}
    (hf : forwarding routes d = some (k, d', h)) : r.routeOneDatagram d = (d', r.sendOn k d' h) := by
  unfold forwarding at hf
  unfold routeOneDatagram
  by_cases ht : d.header.ttl ≤ 1
  · rw [if_pos ht] at hf
    cases hf
  rw [if_neg ht] at hf
  rw [if_neg ht]
  dsimp only
  rw [hr]
  obtain ⟨e, he, hfe⟩ := Option.map_eq_some_iff.mp hf
  rw [he]
  rw [Prod.mk.injEq, Prod.mk.injEq] at hfe
  obtain ⟨rfl, rfl, rfl⟩ := hfe
  dsimp only
  cases e.nextHop <;> rfl

/-- The loop over one queue routes its datagrams in turn, as `routeSpec` does. -/
theorem routeQueue_eq {i : Nat} (hi : i < r.interfaces.length) {ds : List IPv4Datagram}
    (hq : r.datagramsOut i = ds) : routeQueue i ds.length r = routeSpec routes (ds.map fun d => (i, d)) r := by
  induction ds generalizing r with
  | nil => rfl
  | cons d ds ih =>
    rw [List.length_cons, routeQueue, hq, List.map_cons, routeSpec]
    dsimp only
    -- after routing the front, the queue holds the rest behind it, and the table is the same
    have hnext : ∀ r', Frame r r' → r'.datagramsOut i = d :: ds →
        routeQueue i ds.length (r'.modifyDatagramsOut i List.tail) =
          routeSpec routes (ds.map fun d => (i, d)) (r'.modifyDatagramsOut i List.tail) := by
      intro r' hfr hq'
      refine ih (fun ip => ?_) (by rw [length_modifyDatagramsOut, hfr.length]; exact hi) ?_
      · rw [routeTable_modifyDatagramsOut, hfr.routeTable, hr]
      · rw [datagramsOut_modify_self _ (hfr.length ▸ hi), hq', List.tail_cons]
    rcases hf : forwarding routes d with _ | ⟨k, d', h⟩
    · obtain ⟨d'', hd⟩ := routeOneDatagram_of_none hr hf
      rw [hd]
      exact hnext r (Frame.refl r) hq
    · rw [routeOneDatagram_of_some hr hf]
      dsimp only
      have hfr := sendOn_frame r k d' h
      cases hs : r.sendOn k d' h with
      | ok u r' =>
        rw [hs] at hfr
        exact hnext r' hfr ((hfr.datagramsOut i).trans hq)
      | error e r' => rfl

end Table

/-- Routing two lists in turn. -/
theorem routeSpec_append (routes : List Entry) (qs qs' : List (Nat × IPv4Datagram)) (r : Router) :
    routeSpec routes (qs ++ qs') r = match routeSpec routes qs r with
      | .ok () r' => routeSpec routes qs' r'
      | .error e r' => .error e r' := by
  induction qs generalizing r with
  | nil => rfl
  | cons q qs ih =>
    obtain ⟨i, d⟩ := q
    rw [List.cons_append, routeSpec, routeSpec]
    rcases forwarding routes d with _ | ⟨k, d', h⟩
    · exact ih _
    · dsimp only
      cases r.sendOn k d' h with
      | ok u r' => exact ih _
      | error e r' => rfl

/-- A run of `routeSpec` that returns went through its first datagram: a send that keeps every
queue, then a pop of the datagram's queue. -/
theorem routeSpec_cons_ok {routes : List Entry} {i : Nat} {d : IPv4Datagram} {qs : List (Nat × IPv4Datagram)}
    {r r' : Router} (h : routeSpec routes ((i, d) :: qs) r = .ok () r') :
    ∃ r₁, Frame r r₁ ∧ routeSpec routes qs (r₁.modifyDatagramsOut i List.tail) = .ok () r' := by
  rw [routeSpec] at h
  rcases hf : forwarding routes d with _ | ⟨k, d', hop⟩
  · rw [hf] at h
    exact ⟨r, Frame.refl r, h⟩
  · rw [hf] at h
    have hfr := sendOn_frame r k d' hop
    dsimp only at h
    cases hs : r.sendOn k d' hop with
    | ok u r₁ =>
      rw [hs] at h hfr
      exact ⟨r₁, hfr, h⟩
    | error e r₁ =>
      rw [hs] at h
      cases h

/-- Routing some datagrams keeps the table, the interfaces, and the queues they are not in. -/
theorem routeSpec_frame {routes : List Entry} {qs : List (Nat × IPv4Datagram)} {r r' : Router}
    (h : routeSpec routes qs r = .ok () r') :
    r'.routeTable = r.routeTable ∧ r'.interfaces.length = r.interfaces.length ∧
      ∀ j, (∀ q ∈ qs, q.1 ≠ j) → r'.datagramsOut j = r.datagramsOut j := by
  induction qs generalizing r with
  | nil =>
    cases h
    exact ⟨rfl, rfl, fun _ _ => rfl⟩
  | cons q qs ih =>
    obtain ⟨i, d⟩ := q
    obtain ⟨r₁, hfr, hrest⟩ := routeSpec_cons_ok h
    obtain ⟨ht, hl, hq⟩ := ih hrest
    refine ⟨by rw [ht, routeTable_modifyDatagramsOut, hfr.routeTable],
      by rw [hl, length_modifyDatagramsOut, hfr.length], fun j hj => ?_⟩
    -- queue `j` is neither popped now nor later
    rw [hq j fun q hq => hj q (List.mem_cons_of_mem _ hq),
      datagramsOut_modify_ne _ (hj (i, d) List.mem_cons_self), hfr.datagramsOut]

/-- The loop of `route` over distinct interfaces routes their queues one after the other. -/
theorem routeFrom_eq {routes : List Entry} {r : Router}
    (hr : ∀ ip, r.routeTable.longestPrefixMatch ip = bestRoute routes ip) {is : List Nat} (hnd : is.Nodup)
    (hlt : ∀ i ∈ is, i < r.interfaces.length) :
    routeFrom is r = routeSpec routes (is.flatMap fun i => (r.datagramsOut i).map fun d => (i, d)) r := by
  induction is generalizing r with
  | nil => rfl
  | cons i is ih =>
    rw [routeFrom, routeQueue_eq hr (hlt i List.mem_cons_self) rfl, List.flatMap_cons, routeSpec_append]
    cases hq : routeSpec routes ((r.datagramsOut i).map fun d => (i, d)) r with
    | ok u r' =>
      obtain ⟨ht, hl, hout⟩ := routeSpec_frame hq
      have hi : i ∉ is := (List.nodup_cons.mp hnd).1
      dsimp only
      rw [ih (fun ip => by rw [ht, hr]) (List.nodup_cons.mp hnd).2 fun j hj => hl ▸ hlt j (List.mem_cons_of_mem _ hj)]
      -- the later interfaces' queues are as they were
      congr 1
      refine List.flatMap_congr fun j hj => ?_
      rw [hout j fun q hq' => ?_]
      obtain ⟨d, _, rfl⟩ := List.mem_map.mp hq'
      exact fun hij => hi (by rw [show i = j from hij]; exact hj)
    | error e r' => rfl

/-- `route` routes the queued datagrams in turn, as `routeSpec` does. -/
theorem route_eq {routes : List Entry} {r : Router}
    (hr : ∀ ip, r.routeTable.longestPrefixMatch ip = bestRoute routes ip) : r.route = routeSpec routes r.queued r :=
  routeFrom_eq hr List.nodup_range fun _ hi => List.mem_range.mp hi

theorem routeTable_foldl_addRoute (routes : List Entry) (r₀ : Router) :
    (routes.foldl (fun r e => r.addRoute e.routePrefix e.prefixLength e.nextHop e.interfaceNum) r₀).routeTable =
      routes.foldl Trie.insert r₀.routeTable := by
  induction routes generalizing r₀ with
  | nil => rfl
  | cons e routes ih => exact ih _

/-! ## Every queue drained -/

/-- Only an interface that exists has datagrams queued. -/
theorem lt_length_of_datagramsOut_ne_nil {r : Router} {i : Nat} (h : r.datagramsOut i ≠ []) :
    i < r.interfaces.length := by
  unfold datagramsOut at h
  cases ha : r.interfaces[i]? with
  | none =>
    rw [ha] at h
    exact absurd rfl h
  | some a => exact (List.getElem?_eq_some_iff.mp ha).1

/-- Routing one datagram leaves the table and every queue as they are. -/
theorem routeOneDatagram_frame (r : Router) (d : IPv4Datagram) : Frame r (after (r.routeOneDatagram d).2) := by
  unfold routeOneDatagram
  split
  · exact Frame.refl r
  · dsimp only
    split
    · exact Frame.refl r
    · split
      · exact sendOn_frame _ _ _ _
      · exact sendOn_frame _ _ _ _

/-- The loop over queue `i`, with a turn for each datagram in it, pops them all and leaves
every other queue as it is, unless a send throws. -/
theorem routeQueue_ok {i : Nat} {ds : List IPv4Datagram} : ∀ {r r' : Router}, r.datagramsOut i = ds →
    routeQueue i ds.length r = .ok () r' →
      r'.interfaces.length = r.interfaces.length ∧ r'.datagramsOut i = [] ∧
        ∀ j, j ≠ i → r'.datagramsOut j = r.datagramsOut j := by
  induction ds with
  | nil =>
    intro r r' hq h
    cases h
    exact ⟨rfl, hq, fun _ _ => rfl⟩
  | cons d ds ih =>
    intro r r' hq h
    have hi : i < r.interfaces.length := lt_length_of_datagramsOut_ne_nil (by rw [hq]; exact List.cons_ne_nil d ds)
    have hfr := routeOneDatagram_frame r d
    rw [List.length_cons, routeQueue, hq] at h
    dsimp only at h
    cases hres : r.routeOneDatagram d with
    | mk d' res =>
      rw [hres] at h hfr
      cases res with
      | ok u r₁ =>
        have hfr : Frame r r₁ := hfr
        -- the rest of the queue is left behind the popped front
        have hq' : (r₁.modifyDatagramsOut i List.tail).datagramsOut i = ds := by
          rw [datagramsOut_modify_self _ (hfr.length ▸ hi), hfr.datagramsOut i, hq, List.tail_cons]
        obtain ⟨hl, he, hj⟩ := ih hq' h
        refine ⟨by rw [hl, length_modifyDatagramsOut, hfr.length], he, fun j hji => ?_⟩
        rw [hj j hji, datagramsOut_modify_ne _ (Ne.symm hji), hfr.datagramsOut]
      | error e r₁ => cases h

/-- The loop over the interfaces `is` empties their queues and leaves the others as they are,
unless a send throws. -/
theorem routeFrom_ok {is : List Nat} : ∀ {r r' : Router}, routeFrom is r = .ok () r' →
    r'.interfaces.length = r.interfaces.length ∧
      ∀ j, r'.datagramsOut j = if j ∈ is then [] else r.datagramsOut j := by
  induction is with
  | nil =>
    intro r r' h
    cases h
    exact ⟨rfl, fun j => by simp⟩
  | cons i is ih =>
    intro r r' h
    rw [routeFrom] at h
    cases hq : routeQueue i (r.datagramsOut i).length r with
    | ok u r₁ =>
      rw [hq] at h
      obtain ⟨hl₁, hi₁, hj₁⟩ := routeQueue_ok rfl hq
      obtain ⟨hl, hj⟩ := ih h
      refine ⟨hl.trans hl₁, fun j => ?_⟩
      rw [hj j]
      -- queue `j` was emptied now, or later, or never touched
      by_cases hji : j = i
      · subst hji
        simp [hi₁]
      · by_cases hjs : j ∈ is
        · simp [hjs]
        · simp [hjs, hji, hj₁ j hji]
    | error e r₁ =>
      rw [hq] at h
      cases h

/-- **`route` empties every queue.** When no `send_datagram` throws, every datagram queued on
any interface has been taken off its queue. -/
theorem route_empties_queues (r r' : Router) (h : r.route = .ok () r') (i : Nat) : r'.datagramsOut i = [] := by
  have h' : routeFrom (List.range r.interfaces.length) r = .ok () r' := h
  obtain ⟨-, hq⟩ := routeFrom_ok h'
  rw [hq i]
  split
  · rfl
  · next hi =>
    -- past the last interface there is no queue
    by_contra hne
    exact hi (List.mem_range.mpr (lt_length_of_datagramsOut_ne_nil hne))

/-- **The router forwards by longest-prefix match.** For a table built by `add_route` calls
with prefix lengths of at most 32, `route` pops every queued datagram, in the order of the
interfaces and of their queues, and hands it to `send_datagram` exactly where `forwarding`
says, with the route the reference selection chooses; and the table's longest-prefix match
is that reference for every address. -/
theorem route_by_longest_prefix (r₀ : Router) (h₀ : r₀.routeTable = {}) (routes : List Entry)
    (h32 : ∀ e ∈ routes, e.prefixLength ≤ 32) :
    let r := routes.foldl (fun r e => r.addRoute e.routePrefix e.prefixLength e.nextHop e.interfaceNum) r₀
    r.route = routeSpec routes r.queued r ∧ ∀ ip, r.routeTable.longestPrefixMatch ip = bestRoute routes ip := by
  intro r
  have hr : ∀ ip, r.routeTable.longestPrefixMatch ip = bestRoute routes ip := by
    intro ip
    rw [routeTable_foldl_addRoute, h₀]
    exact Trie.longestPrefixMatch_build routes h32 ip
  exact ⟨route_eq hr, hr⟩

/-- The simulator's route `128.30.76.255/16`, host bits set beyond its prefix, to interface 1
of a router with two interfaces, and a datagram for `128.30.76.1` queued on interface 0: it
goes to interface 1 with its TTL decremented, where it waits for the address of its
destination, the route being direct. -/
theorem route_by_longest_prefix_simulator :
    let d : IPv4Datagram := { header := { ttl := 64, dst := 0x801e4c01, len := 20 } }
    let a₀ : AsyncNetworkInterface :=
      { toState := NetworkInterface.State.init [2, 0, 0, 0, 0, 1] ⟨0x0a000001, 0⟩, datagramsOut := [d] }
    let a₁ : AsyncNetworkInterface := { toState := NetworkInterface.State.init [2, 0, 0, 0, 0, 2] ⟨0x801e0001, 0⟩ }
    let routes : List Entry := [{ routePrefix := 0x801e4cff, prefixLength := 16, interfaceNum := 1 }]
    let r := routes.foldl (fun r e => r.addRoute e.routePrefix e.prefixLength e.nextHop e.interfaceNum)
      ({ interfaces := [a₀, a₁] } : Router)
    (after r.route).interfaces.map (fun a => a.dgramPending.map Prod.fst) =
        [[], [{ d with header := { d.header with ttl := 63 } }]] ∧
      r.route = routeSpec routes r.queued r ∧ ∀ ip, r.routeTable.longestPrefixMatch ip = bestRoute routes ip := by
  intro d a₀ a₁ routes r
  exact ⟨by decide +kernel, route_by_longest_prefix _ rfl routes (by decide)⟩

end Router

end Sponge
