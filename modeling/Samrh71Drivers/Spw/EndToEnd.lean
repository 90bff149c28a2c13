import Samrh71Drivers.Spw.StartUp
import Samrh71Drivers.Spw.RxRound

/-!
# From one node to the other

Two nodes whose links are connected, each initialised with its own configuration and the
other's. A packet leaves a node with the router byte in front, goes through the router of
that node to its link, crosses the link, and goes through the router of the other node to its
receiver. The entries of the two tables add and take away nothing but the router byte.

What is handed over at the other end is the message, once and in order, unless
`remove_prot_id` is set: then `process_rx_packets` takes the first byte of the message, which
the sender has not added. This holds in the runs in which each poll task sees its buffer
before the receiver deactivates it (`seesBuffers`).

## Main definitions

* `forward` — one router.
* `Station`, `Node` — what the sending and the receiving depend on, and a node after its
  initialisation.
* `State`, `next`, `network` — two nodes and the link.
* `NetStep` — the same steps, as an inversion principle.
* `seesBuffers` — the condition on the runs.
* `NetInv` — what has crossed the link is what the receiver has stored.
* `end_to_end` — what is handed over at the other end.
-/

namespace Samrh71Drivers.Spw.EndToEnd

open Transition

universe u

/-- `SPW_PKTRX_ROUTER_PORT`. -/
def spwPktrxRouterPort : UInt8 := 9

/-- A router: the entry for the first byte says where the packet goes, and whether that byte
is deleted. -/
def forward (r : Init.Router) : List UInt8 → Option (UInt8 × List UInt8)
  | [] => none
  | header :: bytes =>
    if r.isLogicalAddressRoutingEnabled then
      (r.table header).map fun e =>
        (e.address, if e.deleteHeaderByte then bytes else header :: bytes)
    else none

/-- What sending to and receiving from a node depends on: its private data and its router. -/
structure Station where
  linkId : UInt8
  remoteNodeId : UInt8
  removeProtId : Bool
  router : Init.Router

/-- A node after `samrh71_rtems_spacewire_init` on its one instance. -/
structure Node where
  setup : Init.Setup Unit
  state : Init.State Unit
  reachable : (Init.system setup).Reachable state
  finished : state.pc () = .finished

/-- The configuration of a node. -/
def Node.conf (n : Node) : Init.Conf := (n.setup.args ()).deviceConfiguration

/-- The configuration a node has for the other one. -/
def Node.remoteConf (n : Node) : Init.Conf := (n.setup.args ()).remoteDeviceConfiguration

/-- What the initialisation has set. -/
def Node.station (n : Node) : Station where
  linkId := (n.state.device ()).linkId
  remoteNodeId := (n.state.device ()).remoteNodeId
  removeProtId := (n.state.device ()).removeProtId
  router := n.state.router

/-- The two ends of the link. -/
inductive Side
  | a
  | b
  deriving DecidableEq

/-- The other end. -/
def Side.other : Side → Side
  | a => b
  | b => a

@[simp] theorem Side.other_other (x : Side) : x.other.other = x := by cases x <;> rfl

section Network

variable {τ : Type u}

/-- What the receiver of `dst` gets of a packet that `src` has sent, where the routers take it
to the link and to the receiver. -/
def route (src dst : Station) (p : Packet τ) : Option (List UInt8) :=
  (forward src.router (p.routerByte :: p.data)).bind fun r =>
    if r.1 = src.linkId then
      (forward dst.router r.2).bind fun r' =>
        if r'.1 = spwPktrxRouterPort then some r'.2 else none
    else none

/-- The two nodes, and the packets of each side that have crossed the link: whether they came
with EOP and with EEP. -/
structure State (τ : Type u) where
  tx : Side → Spw.State τ
  rx : Side → Rx.State
  crossed : Side → List (Bool × Bool)

/-- The choices of the environment. -/
inductive Label (τ : Type u)
  /-- A step of the sending on one side. -/
  | tx (x : Side) (l : Spw.Label τ)
  /-- A step of the receiving on one side. -/
  | rx (x : Side) (l : Rx.Label)
  /-- The next packet of one side crosses the link. -/
  | cross (x : Side) (eop eep : Bool)

variable [DecidableEq τ]

/-- One step of the two nodes. A receiver stores what has crossed the link and nothing else. -/
def next (n : Side → Station) (rxDataSize : ℕ) (s : State τ) : Label τ → Option (State τ)
  | .tx x l => (Spw.next (n x).remoteNodeId (s.tx x) l).map fun t =>
      { s with tx := Function.update s.tx x t }
  | .rx x l =>
    if Rx.isStore l then none
    else (Rx.next (n x).removeProtId rxDataSize (s.rx x) l).map fun t =>
      { s with rx := Function.update s.rx x t }
  | .cross x eop eep =>
    match (s.tx x).left[(s.crossed x).length]? with
    | none => none
    | some p =>
      let crossed := Function.update s.crossed x (s.crossed x ++ [(eop, eep)])
      match route (n x) (n x.other) p with
      | none => some { s with crossed := crossed }
      | some bytes =>
        (Rx.next (n x.other).removeProtId rxDataSize (s.rx x.other)
            (.store ⟨eop, eep, bytes⟩)).map fun t =>
          { s with rx := Function.update s.rx x.other t, crossed := crossed }

/-- The system of two stations and their callers, from what `Init.init_returned` says the
initialisation leaves. -/
def network (n : Side → Station) (mem : Side → τ → ℕ → UInt8)
    (prog : Side → τ → List CallerOp) (rxDataSize : ℕ) : System (State τ) (Label τ) where
  init := ⟨fun x => Spw.initial (mem x) (prog x), fun _ => Rx.initial, fun _ => []⟩
  next := next n rxDataSize

/-- Every step of the two nodes, with what it needs and what it does. -/
inductive NetStep (n : Side → Station) (rxDataSize : ℕ) (s : State τ) : Label τ → State τ → Prop
  | tx {x l t} : Spw.next (n x).remoteNodeId (s.tx x) l = some t →
      NetStep n rxDataSize s (.tx x l) { s with tx := Function.update s.tx x t }
  | rx {x l t} : Rx.isStore l = false →
      Rx.next (n x).removeProtId rxDataSize (s.rx x) l = some t →
      NetStep n rxDataSize s (.rx x l) { s with rx := Function.update s.rx x t }
  | lost {x eop eep p} : (s.tx x).left[(s.crossed x).length]? = some p →
      route (n x) (n x.other) p = none →
      NetStep n rxDataSize s (.cross x eop eep)
        { s with crossed := Function.update s.crossed x (s.crossed x ++ [(eop, eep)]) }
  | cross {x eop eep p bytes t} : (s.tx x).left[(s.crossed x).length]? = some p →
      route (n x) (n x.other) p = some bytes →
      Rx.next (n x.other).removeProtId rxDataSize (s.rx x.other) (.store ⟨eop, eep, bytes⟩) =
        some t →
      NetStep n rxDataSize s (.cross x eop eep) { s with
        rx := Function.update s.rx x.other t
        crossed := Function.update s.crossed x (s.crossed x ++ [(eop, eep)]) }

/-- **Inversion.** Every step of the two nodes is one of the cases of `NetStep`. -/
theorem netStep_of_next {n : Side → Station} {rxDataSize : ℕ} {s s' : State τ} {l : Label τ}
    (h : next n rxDataSize s l = some s') : NetStep n rxDataSize s l s' := by
  cases l with
  | tx x l =>
    obtain ⟨t, ht, rfl⟩ := Option.map_eq_some_iff.mp h
    exact .tx ht
  | rx x l =>
    by_cases hl : Rx.isStore l = true
    · simp [next, hl] at h
    · simp only [next, hl, Bool.false_eq_true, if_false] at h
      obtain ⟨t, ht, rfl⟩ := Option.map_eq_some_iff.mp h
      exact .rx (Bool.eq_false_iff.mpr hl) ht
  | cross x eop eep =>
    cases hp : (s.tx x).left[(s.crossed x).length]? with
    | none => simp [next, hp] at h
    | some p =>
      cases hroute : route (n x) (n x.other) p with
      | none =>
        simp only [next, hp, hroute, Option.some.injEq] at h
        exact h ▸ .lost hp hroute
      | some bytes =>
        simp only [next, hp, hroute] at h
        obtain ⟨t, ht, rfl⟩ := Option.map_eq_some_iff.mp h
        exact .cross hp hroute ht

/-- The condition on a step: a buffer is deactivated only when its poll task has seen it. -/
def seesBuffers (s : State τ) : Label τ → Prop
  | .rx x l => Rx.deactivatesWhenSeen (s.rx x) l
  | .tx _ _ | .cross _ _ _ => True

omit [DecidableEq τ] in
instance (s : State τ) : (l : Label τ) → Decidable (seesBuffers s l)
  | .rx x l => inferInstanceAs (Decidable (Rx.deactivatesWhenSeen (s.rx x) l))
  | .tx _ _ | .cross _ _ _ => isTrue trivial

end Network

/-! ## What the initialisation has set -/

/-- The phase of a node with one instance. -/
theorem Node.progress (n : Node) : Init.Progress n.setup n.state () := by
  have hone : ¬ ∃ i j : Unit, j ≠ i := fun ⟨_, _, hne⟩ => hne rfl
  rcases Init.phase_of_reachable (fun h => absurd h hone) n.reachable with
    hinit | ⟨i, hfirst⟩ | ⟨i, j, hlater⟩
  · have hpc := n.finished
    rw [hinit] at hpc
    cases hpc
  · exact hfirst.progress
  · exact absurd ⟨i, j, hlater.ne⟩ hone

/-- The two nodes have distinct logical addresses, and each has the configuration of the
other as its remote configuration. -/
structure Peers (n : Side → Node) : Prop where
  remote : ∀ x, (n x).remoteConf = (n x.other).conf
  distinct : ∀ x, (n x).conf.nodeId ≠ (n x.other).conf.nodeId

variable {n : Side → Node}

theorem remoteNodeId_eq (h : Peers n) (x : Side) :
    (n x).station.remoteNodeId = (n x.other).conf.nodeId := by
  have hconf := (n x).progress.configured (by rw [(n x).finished]; decide)
  rw [← h.remote x]
  exact hconf.remoteNodeId

/-- The router of a node takes a packet with the address of the other node to the link, as
it is. -/
theorem forward_out (x : Side) (bytes : List UInt8) :
    forward (n x).station.router ((n x).station.remoteNodeId :: bytes) =
      some ((n x).station.linkId, (n x).station.remoteNodeId :: bytes) := by
  have hp := (n x).progress
  have hlogical := hp.logical (by rw [(n x).finished]; decide)
  have hconf := hp.configured (by rw [(n x).finished]; decide)
  have hentry := hp.remoteEntry (by rw [(n x).finished]; decide)
  rw [← hconf.remoteNodeId, ← hconf.linkId] at hentry
  simp only [forward, Node.station, hlogical, if_true, hentry, Option.map_some, Bool.false_eq_true,
    if_false]

/-- The router of a node takes a packet with its own address to the receiver, without the
address. -/
theorem forward_in (h : Peers n) (x : Side) (bytes : List UInt8) :
    forward (n x).station.router ((n x).conf.nodeId :: bytes) =
      some (spwPktrxRouterPort, bytes) := by
  have hp := (n x).progress
  have hlogical := hp.logical (by rw [(n x).finished]; decide)
  have hne : (n x).conf.nodeId ≠ (n x).remoteConf.nodeId := by
    rw [h.remote x]
    exact h.distinct x
  have hentry := hp.ownEntry hne (by rw [(n x).finished]; decide)
  have hentry' : (n x).state.router.table (n x).conf.nodeId = some ⟨true, 9⟩ := hentry
  simp only [forward, Node.station, hlogical, if_true, hentry', Option.map_some]
  rfl

/-- **The two tables.** A packet with the router byte of its sender gets to the receiver of
the other node without that byte. -/
theorem route_eq {τ : Type u} (h : Peers n) (x : Side) {p : Packet τ}
    (hp : p.routerByte = (n x).station.remoteNodeId) :
    route (n x).station (n x.other).station p = some p.data := by
  have hin := forward_in h x.other p.data
  rw [← remoteNodeId_eq h x] at hin
  simp [route, hp, forward_out x, hin]

/-! ## The packets that leave a node -/

/-- A call is not empty, and its record has as many bytes. -/
def Proper {τ : Type u} (c : Call τ) : Prop := 0 < c.length ∧ c.content.length = c.length

/-- Every call that is under way is proper, and every list and packet has the router byte of
the instance. -/
structure PacketInv {τ : Type u} (remoteNodeId : UInt8) (s : Spw.State τ) : Prop where
  pc : ∀ t c, (s.pc t = .obtain c ∨ s.pc t = .setEntry c ∨ s.pc t = .setList c) → Proper c
  queued : ∀ list, s.queued = some list → list.routerByte = remoteNodeId ∧ Proper list.call
  active : ∀ tr, s.active = some tr → tr.routerByte = remoteNodeId ∧ Proper tr.call
  left : ∀ p ∈ s.left, p.routerByte = remoteNodeId ∧ Proper p.call

section Packets

variable {τ : Type u} [DecidableEq τ] {remoteNodeId : UInt8} {s s' : Spw.State τ}

/-- A task that gets to another point with a proper call, or leaves its call. -/
private theorem pc_update {t : τ} {pc : Spw.Pc τ} (h : PacketInv remoteNodeId s)
    (hpc : ∀ c, (pc = .obtain c ∨ pc = .setEntry c ∨ pc = .setList c) → Proper c) :
    ∀ t' c, (Function.update s.pc t pc t' = .obtain c ∨ Function.update s.pc t pc t' = .setEntry c ∨
      Function.update s.pc t pc t' = .setList c) → Proper c :=
  (Function.forall_update_iff s.pc fun _ q =>
    ∀ c, (q = .obtain c ∨ q = .setEntry c ∨ q = .setList c) → Proper c).mpr
      ⟨hpc, fun t' _ => h.pc t'⟩

/-- **One step keeps the packet invariant.** -/
theorem PacketInv.step {l : Spw.Label τ} (h : PacketInv remoteNodeId s)
    (hs : Spw.Step remoteNodeId s l s') : PacketInv remoteNodeId s' := by
  cases hs with
  | callerWrite => exact { h with }
  | @call t data length ops hpc hops hlen =>
    refine ⟨pc_update h ?_, h.queued, h.active, h.left⟩
    rintro c (hc | hc | hc)
    · cases hc
      exact ⟨hlen, Lending.Store.length_bytes _ _ _ _⟩
    · cases hc
    · cases hc
  | callEmpty | timeoutCallback | timeout =>
    refine ⟨pc_update h ?_, h.queued, h.active, h.left⟩
    rintro c (hc | hc | hc) <;> cases hc
  | @obtain t c hpc =>
    refine ⟨pc_update h ?_, h.queued, h.active, h.left⟩
    rintro c' (hc | hc | hc) <;> cases hc
    exact h.pc t c (.inl hpc)
  | @setEntry t c hpc =>
    refine ⟨pc_update h ?_, h.queued, h.active, h.left⟩
    rintro c' (hc | hc | hc) <;> cases hc
    exact h.pc t c (.inr (.inl hpc))
  | @setList t c hpc =>
    refine ⟨pc_update h ?_, ?_, h.active, h.left⟩
    · rintro c' (hc | hc | hc) <;> cases hc
    · intro list hq
      cases hq
      exact ⟨rfl, h.pc t c (.inr (.inr hpc))⟩
  | @start list entry hq =>
    refine ⟨h.pc, nofun, ?_, h.left⟩
    intro tr htr
    cases htr
    exact h.queued list hq
  | @read tr b data ha =>
    refine ⟨h.pc, h.queued, ?_, h.left⟩
    intro tr' htr
    cases htr
    exact h.active tr ha
  | @deactivate tr ha =>
    refine ⟨h.pc, h.queued, nofun, ?_⟩
    intro p hp
    rcases List.mem_append.mp hp with hp | hp
    · exact h.left p hp
    · rw [List.mem_singleton.mp hp]
      exact h.active tr ha
  | interrupt | release | setTxTimeoutCallback => exact { h with }

theorem packetInv {mem : τ → ℕ → UInt8} {prog : τ → List CallerOp}
    (h : (Spw.system remoteNodeId mem prog).Reachable s) : PacketInv remoteNodeId s := by
  refine System.Reachable.invariant (P := PacketInv remoteNodeId) ?_ ?_ h
  · refine ⟨?_, nofun, nofun, nofun⟩
    rintro t c (hc | hc | hc) <;> cases hc
  · intro s l s' hi hs
    exact hi.step (Spw.step_of_next hs)

/-- Packets that have left the node stay so. -/
theorem left_prefix {l : Spw.Label τ} (hs : Spw.Step remoteNodeId s l s') :
    s.left <+: s'.left := by
  cases hs with
  | deactivate => exact List.prefix_append _ _
  | _ => exact List.prefix_rfl

end Packets

/-! ## What the receiver stores and hands over -/

section Stored

variable {τ : Type u}

/-- What the receiver stores of the packets that have crossed the link. -/
def storedOf (crossed : List (Bool × Bool)) (left : List (Packet τ)) : List Rx.StoredPacket :=
  List.zipWith (fun flags p => ⟨flags.1, flags.2, p.data⟩) crossed left

/-- More packets leave, and none of them has crossed the link. -/
theorem storedOf_eq_of_left {crossed : List (Bool × Bool)} {left left' : List (Packet τ)}
    (h : left <+: left') (hle : crossed.length ≤ left.length) :
    storedOf crossed left' = storedOf crossed left := by
  rcases h with ⟨more, rfl⟩
  induction crossed generalizing left with
  | nil => simp [storedOf]
  | cons flags crossed ih =>
    cases left with
    | nil => simp at hle
    | cons p left =>
      simp only [storedOf, List.cons_append, List.zipWith_cons_cons, List.cons.injEq, true_and]
      exact ih (Nat.le_of_succ_le_succ hle)

/-- One more packet crosses the link. -/
theorem storedOf_append {crossed : List (Bool × Bool)} {left : List (Packet τ)} {p : Packet τ}
    (flags : Bool × Bool) (hp : left[crossed.length]? = some p) :
    storedOf (crossed ++ [flags]) left =
      storedOf crossed left ++ [⟨flags.1, flags.2, p.data⟩] := by
  induction crossed generalizing left with
  | nil =>
    cases left with
    | nil => simp at hp
    | cons q left =>
      obtain rfl : q = p := by simpa using hp
      simp [storedOf]
  | cons f crossed ih =>
    cases left with
    | nil => simp at hp
    | cons q left =>
      simp only [storedOf, List.cons_append, List.zipWith_cons_cons, List.cons.injEq, true_and]
      exact ih (by simpa using hp)

/-- What is handed over of a message. -/
def received (removeProtId : Bool) (message : List UInt8) : Option (List UInt8) :=
  if removeProtId then (if message.length ≤ 1 then none else some (message.drop 1))
  else some message

/-- What is handed over of the messages of `x` that have crossed the link with EOP and
without EEP. -/
def messages (removeProtId : Bool) (s : State τ) (x : Side) : List (List UInt8) :=
  ((s.crossed x).zip (s.tx x).left).filterMap fun c =>
    if c.1 = (true, false) then received removeProtId c.2.call.content else none

/-- A stored packet with data is dropped if it came without EOP or with EEP, and else it is
handed over as a message is. -/
theorem survivor_eq (removeProtId : Bool) (flags : Bool × Bool) {data : List UInt8}
    (hdata : 0 < data.length) : Rx.survivor removeProtId ⟨flags.1, flags.2, data⟩ =
      if flags = (true, false) then received removeProtId data else none := by
  rcases flags with ⟨eop, eep⟩
  have hne : data ≠ [] := List.length_pos_iff.mp hdata
  have htail : data.tail = [] ↔ data.length ≤ 1 := by rw [← List.drop_one, List.drop_eq_nil_iff]
  cases eop <;> cases eep <;> cases removeProtId <;> simp [Rx.survivor, received, hne, htail]

/-- Where every packet carries its message, what is handed over of the stored packets is what
is handed over of the messages. -/
theorem filterMap_storedOf (removeProtId : Bool) {s : State τ} {x : Side}
    (hpackets : ∀ p ∈ (s.tx x).left, p.data = p.call.content ∧ Proper p.call) :
    (storedOf (s.crossed x) (s.tx x).left).filterMap (Rx.survivor removeProtId) =
      messages removeProtId s x := by
  rw [storedOf, ← List.map_uncurry_zip_eq_zipWith, List.filterMap_map, messages]
  refine List.filterMap_congr fun c hc => ?_
  rcases hpackets c.2 (List.of_mem_zip hc).2 with ⟨hdata, hpos, hlen⟩
  have hcontent : 0 < c.2.call.content.length := hlen ▸ hpos
  simp only [Function.comp_apply, Function.uncurry, hdata]
  exact survivor_eq removeProtId c.1 hcontent

end Stored

/-! ## The two nodes -/

section EndToEnd

variable {τ : Type u} [DecidableEq τ] {mem : Side → τ → ℕ → UInt8}
  {prog : Side → τ → List CallerOp} {rxDataSize : ℕ} {s s' : State τ}

/-- The stations of the two nodes. -/
def stations (n : Side → Node) (x : Side) : Station := (n x).station

/-- Each node runs as it does alone, and the receiver has stored what has crossed the link. -/
structure NetInv (n : Side → Node) (mem : Side → τ → ℕ → UInt8) (prog : Side → τ → List CallerOp)
    (rxDataSize : ℕ) (s : State τ) : Prop where
  tx : ∀ x, (Spw.system (n x).station.remoteNodeId (mem x) (prog x)).Reachable (s.tx x)
  rx : ∀ x, (Rx.rxSystem (n x).station.removeProtId rxDataSize).Reachable (s.rx x)
  le : ∀ x, (s.crossed x).length ≤ (s.tx x).left.length
  stored : ∀ x, (s.rx x.other).stored = storedOf (s.crossed x) (s.tx x).left

/-- **One step keeps the network invariant.** -/
theorem NetInv.step (hpeers : Peers n) {l : Label τ} (h : NetInv n mem prog rxDataSize s)
    (hs : NetStep (stations n) rxDataSize s l s') : NetInv n mem prog rxDataSize s' := by
  have hrouted : ∀ x p, (s.tx x).left[(s.crossed x).length]? = some p →
      route (n x).station (n x.other).station p = some p.data := fun x p hp =>
    route_eq hpeers x ((packetInv (h.tx x)).left p (List.mem_of_getElem? hp)).1
  cases hs with
  | @tx x l t ht =>
    have hprefix : (s.tx x).left <+: t.left := left_prefix (Spw.step_of_next ht)
    constructor
    case tx => exact System.ReachableWhen.update h.tx trivial ht
    case rx => exact h.rx
    case le =>
      refine (Function.forall_update_iff s.tx fun y r =>
        (s.crossed y).length ≤ r.left.length).mpr ⟨?_, ?_⟩
      · exact Nat.le_trans (h.le x) hprefix.length_le
      · exact fun y _ => h.le y
    case stored =>
      refine (Function.forall_update_iff s.tx fun y r =>
        (s.rx y.other).stored = storedOf (s.crossed y) r.left).mpr ⟨?_, ?_⟩
      · exact (h.stored x).trans (storedOf_eq_of_left hprefix (h.le x)).symm
      · exact fun y _ => h.stored y
  | @rx x l t hl ht =>
    have hstored : t.stored = (s.rx x).stored := Rx.stored_of_not_store hl (Rx.rxStep_of_next ht)
    constructor
    case tx => exact h.tx
    case rx => exact System.ReachableWhen.update h.rx trivial ht
    case le => exact h.le
    case stored =>
      have hsame : ∀ y, (Function.update s.rx x t y).stored = (s.rx y).stored :=
        (Function.forall_update_iff s.rx fun y r => r.stored = (s.rx y).stored).mpr
          ⟨hstored, fun _ _ => rfl⟩
      exact fun y => (hsame y.other).trans (h.stored y)
  | lost hp hroute =>
    -- the two tables lose no packet
    have hsome := hrouted _ _ hp
    simp only [stations] at hroute
    rw [hroute] at hsome
    cases hsome
  | @cross x eop eep p bytes t hp hroute ht =>
    obtain rfl : p.data = bytes := Option.some.inj ((hrouted x p hp).symm.trans hroute)
    have hlt : (s.crossed x).length < (s.tx x).left.length :=
      (List.getElem?_eq_some_iff.mp hp).1
    have hstored : t.stored = (s.rx x.other).stored ++ [⟨eop, eep, p.data⟩] := by
      have hstep : Rx.RxStep (n x.other).station.removeProtId rxDataSize (s.rx x.other)
          (.store ⟨eop, eep, p.data⟩) t := Rx.rxStep_of_next ht
      cases hstep with
      | store => rfl
    constructor
    case tx => exact h.tx
    case rx =>
      exact System.ReachableWhen.update (l := Rx.Label.store ⟨eop, eep, p.data⟩) h.rx trivial ht
    case le =>
      refine (Function.forall_update_iff s.crossed fun y c =>
        c.length ≤ (s.tx y).left.length).mpr ⟨?_, ?_⟩
      · simpa [Nat.succ_le_iff] using hlt
      · exact fun y _ => h.le y
    case stored =>
      intro y
      by_cases hy : y = x
      · subst hy
        simp [hstored, h.stored y, storedOf_append (eop, eep) hp]
      · have hother : y.other ≠ x.other := by
          intro heq
          exact hy (by rw [← Side.other_other y, heq, Side.other_other])
        simpa [Function.update_of_ne hy, Function.update_of_ne hother] using h.stored y

theorem netInv (hpeers : Peers n)
    (h : (network (stations n) mem prog rxDataSize).Reachable s) :
    NetInv n mem prog rxDataSize s := by
  refine System.Reachable.invariant (P := NetInv n mem prog rxDataSize) ?_ ?_ h
  · exact ⟨fun _ => .init, fun _ => .init, fun _ => Nat.le_refl _, fun _ => rfl⟩
  · intro s l s' hi hs
    exact hi.step hpeers (netStep_of_next hs)

/-- The receiver of a node in a run of the network that sees its buffers. -/
theorem rx_of_network
    (h : (network (stations n) mem prog rxDataSize).ReachableWhen seesBuffers s) (x : Side) :
    (Rx.rxSystem (n x).station.removeProtId rxDataSize).ReachableWhen Rx.deactivatesWhenSeen
      (s.rx x) := by
  refine System.ReachableWhen.invariant (P := fun s => ∀ x,
    (Rx.rxSystem (n x).station.removeProtId rxDataSize).ReachableWhen Rx.deactivatesWhenSeen
      (s.rx x)) (fun _ => .init) ?_ h x
  intro s l s' _ hr hok hs
  cases netStep_of_next hs with
  | tx | lost => exact hr
  | rx _ ht => exact System.ReachableWhen.update hr hok ht
  | @cross x eop eep p bytes t _ _ ht =>
    exact System.ReachableWhen.update (l := Rx.Label.store ⟨eop, eep, bytes⟩) hr trivial ht

/-- What the receiver on one side can do alone it can do in the network. -/
theorem exec_rx {x : Side} {ls : List Rx.Label} {t : Rx.State}
    (hls : ∀ l ∈ ls, Rx.isStore l = false)
    (h : (Rx.rxSystem (n x).station.removeProtId rxDataSize).exec (s.rx x) ls = some t) :
    (network (stations n) mem prog rxDataSize).exec s (ls.map (.rx x)) =
      some { s with rx := Function.update s.rx x t } := by
  induction ls generalizing s with
  | nil =>
    obtain rfl : s.rx x = t := by simpa using h
    simp
  | cons l ls ih =>
    rw [System.exec_cons, Option.bind_eq_some_iff] at h
    obtain ⟨r, hr, h⟩ := h
    obtain ⟨hl, hls⟩ := List.forall_mem_cons.mp hls
    have hr' : Rx.next (stations n x).removeProtId rxDataSize (s.rx x) l = some r := hr
    have hstep : (network (stations n) mem prog rxDataSize).next s (.rx x l) =
        some { s with rx := Function.update s.rx x r } := by
      simp only [network, next, hl, Bool.false_eq_true, if_false, hr', Option.map_some]
    rw [List.map_cons, System.exec_cons, hstep, Option.bind_some,
      ih hls (by simpa using h), Function.update_idem]

/-- What the receiver has handed over and what it has still to hand over are the messages that
have crossed the link. -/
theorem delivered_append_toDeliver (hnet : NetInv n mem prog rxDataSize s) (x : Side)
    (hdata : ∀ p ∈ (s.tx x).left, p.data = p.call.content) :
    (s.rx x.other).delivered ++ (Rx.toDeliver (s.rx x.other)).filterMap
        (Rx.survivor (n x.other).station.removeProtId) =
      messages ((n x.other).conf.removeProtId.getD false) s x := by
  have hpackets := packetInv (hnet.tx x)
  have hflag : (n x.other).station.removeProtId = (n x.other).conf.removeProtId.getD false :=
    ((n x.other).progress.configured (by rw [(n x.other).finished]; decide)).removeProtId
  rw [(Rx.deliveryInv (hnet.rx x.other)).delivered, hnet.stored x, hflag]
  exact filterMap_storedOf _ fun p hp => ⟨hdata p hp, (hpackets.left p hp).2⟩

/-- Once nothing is left to hand over, all messages that have crossed the link have been. -/
theorem delivered_of_toDeliver (hnet : NetInv n mem prog rxDataSize s) {x : Side}
    (hdata : ∀ p ∈ (s.tx x).left, p.data = p.call.content)
    (hdone : Rx.toDeliver (s.rx x.other) = []) :
    (s.rx x.other).delivered = messages ((n x.other).conf.removeProtId.getD false) s x := by
  rw [← delivered_append_toDeliver hnet x hdata, hdone, List.filterMap_nil, List.append_nil]

/-- **End to end.** For two nodes that are initialised for each other, in every state of the
runs in which the poll tasks see their buffers before they are deactivated, where the
transmitter has emitted the bytes of the messages: what a node has handed over is a beginning
of the messages of the other node that have crossed the link with EOP and without EEP, in
order, each once, and whole or, where `remove_prot_id` is set, less its first byte. It is all
of them once the receiver has nothing to do, and whenever the poll task is back at
`arm_rx_buffer`; and the receiver gets to such a state without another packet, where
`process_rx_packets` returns. -/
theorem end_to_end (hpeers : Peers n)
    (h : (network (stations n) mem prog rxDataSize).ReachableWhen seesBuffers s) (x : Side)
    (hemit : ∀ p ∈ (s.tx x).left, p.data = p.call.content) :
    (s.rx x.other).delivered <+: messages ((n x.other).conf.removeProtId.getD false) s x ∧
    (Rx.Idle (n x.other).station.removeProtId rxDataSize (s.rx x.other) ∨
        (s.rx x.other).pc = .arm →
      (s.rx x.other).delivered = messages ((n x.other).conf.removeProtId.getD false) s x) ∧
    ∃ t, (network (stations n) mem prog rxDataSize).Leads s t ∧ t.tx = s.tx ∧
      t.crossed = s.crossed ∧
      (t.rx x.other).delivered = messages ((n x.other).conf.removeProtId.getD false) s x ∧
      ((s.rx x.other).pc = .previous → (t.rx x.other).pc = .arm) := by
  have hnet := netInv hpeers h.reachable
  have hrx := rx_of_network h x.other
  refine ⟨⟨_, delivered_append_toDeliver hnet x hemit⟩, ?_, ?_⟩
  · rintro (hidle | hpc)
    · exact delivered_of_toDeliver hnet hemit (hidle.ready hrx).2
    · exact delivered_of_toDeliver hnet hemit (by simp [Rx.toDeliver, Rx.Pc.done, hpc])
  · obtain ⟨ls, r, hls, hr, hdone, harm⟩ := Rx.handsOver hrx
    have hleads : (network (stations n) mem prog rxDataSize).Leads s
        { s with rx := Function.update s.rx x.other r } := ⟨_, exec_rx hls hr⟩
    have hnet' := netInv hpeers (h.reachable.leads hleads)
    refine ⟨_, hleads, rfl, rfl, ?_, by simpa using harm⟩
    exact delivered_of_toDeliver hnet' hemit (by simpa using hdone)

end EndToEnd

/-! ## Two nodes -/

/-- Node 50 on link 1 and node 51 on link 2. -/
def conf (removeProtId : Bool) : Side → Init.Conf
  | .a => ⟨.spw0, 50, some 2, some removeProtId, by decide⟩
  | .b => ⟨.spw1, 51, some 10, some removeProtId, by decide⟩

/-- Their calls, with clocks of 100 MHz and blocks that raise no interrupt from before. -/
def setup (removeProtId : Bool) (x : Side) : Init.Setup Unit where
  args _ := ⟨1, conf removeProtId x, conf removeProtId x.other⟩
  masterClock _ := 100000000
  accepts := not
  line
    | .link0 | .link1 => .irq0
    | .tx | .rx => .irq1
  stale _ := false
  pending _ := false
  irqEnabled := true

/-- The call for the one instance, from its beginning to its return. -/
def wholeCall : List (Init.Label Unit) := .begin () :: List.replicate 29 (.init true)

/-- The call returns. -/
theorem isSome_wholeCall (removeProtId : Bool) (x : Side) :
    ((Init.system (setup removeProtId x)).exec (Init.system (setup removeProtId x)).init
      wholeCall).isSome := by
  cases removeProtId <;> cases x <;> decide

/-- The two nodes after their initialisation. -/
def twoNodes (removeProtId : Bool) (x : Side) : Node where
  setup := setup removeProtId x
  state := ((Init.system (setup removeProtId x)).exec _ wholeCall).get
    (isSome_wholeCall removeProtId x)
  reachable := System.reachable_get _ _ (isSome_wholeCall removeProtId x)
  finished := by cases removeProtId <;> cases x <;> rfl

theorem peers_twoNodes (removeProtId : Bool) : Peers (twoNodes removeProtId) where
  remote _ := rfl
  distinct x := by
    cases x with
    | a => exact (by decide : (50 : UInt8) ≠ 51)
    | b => exact (by decide : (51 : UInt8) ≠ 50)

/-- Side `a` sends `length` bytes, and side `b` sends nothing. -/
def oneSend (length : ℕ) : Side → Unit → List CallerOp
  | .a, _ => [.send 0 length]
  | .b, _ => []

/-- The bytes to send. -/
def sendData (_ : Side) (_ : Unit) (a : ℕ) : UInt8 := UInt8.ofNat (a + 7)

/-- The message goes from `a` to `b`, and the poll task takes `polls` steps after that. -/
def oneMessage (length polls : ℕ) : List (Label Unit) :=
  List.flatten [
    List.replicate 4 (.tx .a (.task ())), [.tx .a .start], List.replicate length (.tx .a .read),
    [.tx .a .deactivate, .rx .b .poll, .rx .b .poll, .rx .b .activate, .rx .b .poll,
      .cross .a true false, .rx .b .deactivate, .rx .b .interrupt, .rx .b .release],
    List.replicate polls (.rx .b .poll)]

/-- Three bytes are handed over as they are, by a poll task that is back at `arm_rx_buffer`; one
that waits while they are in its buffer gets to hand them over. -/
theorem threeBytes_received :
    (∃ s : State Unit,
      (network (stations (twoNodes false)) sendData (oneSend 3) 16).ReachableWhen seesBuffers s ∧
      (s.rx .b).pc = .arm ∧ (s.rx .b).delivered = [[7, 8, 9]]) ∧
    ∃ s t : State Unit, (s.rx .b).pc = .wait ∧ (s.rx .b).delivered = [] ∧
      (network (stations (twoNodes false)) sendData (oneSend 3) 16).Leads s t ∧
      (t.rx .b).delivered = [[7, 8, 9]] := by
  constructor
  · have h := (network (stations (twoNodes false)) sendData (oneSend 3) 16).reachableWhen_get
      seesBuffers (oneMessage 3 6) (by decide)
    exact ⟨_, h, rfl, (end_to_end (peers_twoNodes false) h .a (by decide)).2.1 (.inr rfl)⟩
  · have h := (network (stations (twoNodes false)) sendData (oneSend 3) 16).reachableWhen_get
      seesBuffers (oneMessage 3 0) (by decide)
    obtain ⟨t, hleads, -, -, hdelivered, -⟩ :=
      (end_to_end (peers_twoNodes false) h .a (by decide)).2.2
    exact ⟨_, t, rfl, rfl, hleads, hdelivered⟩

/-- Where `remove_prot_id` is set on both nodes, a message of one byte that has crossed the
link is not handed over. -/
theorem oneByte_removed : ¬ ∀ (n : Side → Node), Peers n →
    (n .a).conf.removeProtId = (n .b).conf.removeProtId →
    ∀ (mem : Side → Unit → ℕ → UInt8) (prog : Side → Unit → List CallerOp) (rxDataSize : ℕ)
      (s : State Unit) (x : Side), (network (stations n) mem prog rxDataSize).Reachable s →
      (∀ p ∈ (s.tx x).left, p.data = p.call.content) → (s.rx x.other).pc = .arm →
      (s.rx x.other).delivered = messages false s x := by
  intro h
  have hs := (network (stations (twoNodes true)) sendData (oneSend 1) 16).reachable_get
    (oneMessage 1 5) (by decide)
  have hdelivered := h (twoNodes true) (peers_twoNodes true) rfl sendData (oneSend 1) 16 _ .a hs
    (by decide) rfl
  exact absurd hdelivered (by decide)

end Samrh71Drivers.Spw.EndToEnd
