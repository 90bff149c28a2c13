import Samrh71Drivers.Spw.Calls
import Samrh71Drivers.Spw.EndToEnd

/-!
# Messages over the SpaceWire link

Two nodes that are initialised for each other, each with any number of tasks, its transmitter,
its receiver and its poll task, and a link that may disturb packets. What a node hands over is
a beginning of what the tasks of the other one have sent and the link has not disturbed, in the
order in which their calls have obtained the token, each message once and whole (or less the
byte that `remove_prot_id` takes). Once nothing is left to happen, it is all of it: every call
of every task has then sent its message or has timed out, and every packet has crossed the
link (`network_delivery`).

This holds in the runs in which the callers leave the data alone that is still to be read, and
the poll task sees its buffer before the receiver deactivates it.

## Main definitions

* `undisturbed` — the condition on the runs.
* `Quiet` — nothing is left to happen but timeouts.
* `arrived` — what is handed over of the messages that have been sent.
* `network_delivery` — what arrives.
-/

namespace Samrh71Drivers.Spw.EndToEnd

open Transition

universe u

section Link

variable {τ : Type u}

/-- The condition on a step: a caller leaves the data alone that is still to be read, and a
buffer is deactivated only when the poll task has seen it. -/
def undisturbed (s : State τ) : Label τ → Prop
  | .tx x l => leavesDataToRead (s.tx x) l
  | .rx x l => Rx.deactivatesWhenSeen (s.rx x) l
  | .cross _ _ _ => True

instance [DecidableEq τ] (s : State τ) : (l : Label τ) → Decidable (undisturbed s l)
  | .tx x l => inferInstanceAs (Decidable (leavesDataToRead (s.tx x) l))
  | .rx x l => inferInstanceAs (Decidable (Rx.deactivatesWhenSeen (s.rx x) l))
  | .cross _ _ _ => isTrue trivial

/-- What is handed over of the messages that have been sent, where `crossed` says how the
packets have crossed the link. -/
def arrived (removeProtId : Bool) (crossed : List (Bool × Bool)) (sent : List (Call τ)) :
    List (List UInt8) :=
  (crossed.zip sent).filterMap fun c =>
    if c.1 = (true, false) then received removeProtId c.2.content else none

/-- Calls whose packets have not crossed the link add nothing. -/
theorem arrived_of_prefix {removeProtId : Bool} {crossed : List (Bool × Bool)}
    {sent sent' : List (Call τ)} (h : sent <+: sent') (hle : crossed.length ≤ sent.length) :
    arrived removeProtId crossed sent' = arrived removeProtId crossed sent := by
  have hzip : ∀ calls : List (Call τ), crossed.length ≤ calls.length →
      crossed.zip calls = crossed.zip (calls.take crossed.length) := by
    intro calls hcalls
    have hmin : crossed.zip calls = _ := List.zip_eq_zip_take_min
    rwa [Nat.min_eq_left hcalls, List.take_length] at hmin
  obtain ⟨more, rfl⟩ := h
  have htake : (sent ++ more).take crossed.length = sent.take crossed.length :=
    List.take_append_of_le_length hle
  have hle' : crossed.length ≤ (sent ++ more).length := by
    rw [List.length_append]
    omega
  rw [arrived, arrived, hzip _ hle', htake, hzip _ hle]

variable [DecidableEq τ]

/-- Nothing is left to happen on the two nodes and the link but timeouts. -/
structure Quiet (n : Side → Station) (rxDataSize : ℕ) (s : State τ) : Prop where
  tx : ∀ x, Stuck (n x).remoteNodeId (s.tx x)
  rx : ∀ x, Rx.Idle (n x).removeProtId rxDataSize (s.rx x)
  cross : ∀ x, next n rxDataSize s (.cross x true false) = none

variable {n : Side → Node} {mem : Side → τ → ℕ → UInt8} {prog : Side → τ → List CallerOp}
  {rxDataSize : ℕ} {s : State τ}

/-- The transmitter of a node in a run of the network. -/
theorem tx_of_network
    (h : (network (stations n) mem prog rxDataSize).ReachableWhen undisturbed s) (x : Side) :
    (Spw.system (n x).station.remoteNodeId (mem x) (prog x)).ReachableWhen leavesDataToRead
      (s.tx x) := by
  refine System.ReachableWhen.invariant (P := fun s => ∀ x,
    (Spw.system (n x).station.remoteNodeId (mem x) (prog x)).ReachableWhen leavesDataToRead
      (s.tx x)) (fun _ => .init) ?_ h x
  intro s l s' _ htx hok hs
  cases netStep_of_next hs with
  | tx ht => exact System.ReachableWhen.update htx hok ht
  | rx | lost | cross => exact htx

/-- A run that is not disturbed sees its buffers. -/
theorem seesBuffers_of_undisturbed
    (h : (network (stations n) mem prog rxDataSize).ReachableWhen undisturbed s) :
    (network (stations n) mem prog rxDataSize).ReachableWhen seesBuffers s := by
  refine h.mono fun s l hl => ?_
  cases l with
  | rx => exact hl
  | tx | cross => trivial

omit [DecidableEq τ] in
/-- What is handed over of the messages that have crossed the link. -/
theorem messages_eq_arrived (removeProtId : Bool) (s : State τ) (x : Side) :
    messages removeProtId s x =
      arrived removeProtId (s.crossed x) ((s.tx x).left.map Packet.call) := by
  rw [messages, arrived, List.zip_map_right, List.filterMap_map]
  rfl

/-- A call that has sent its message is no longer than the receiver takes. -/
theorem length_of_mem_sentIn {x : Side} {order : List (Call τ × Bool)} {c : Call τ}
    (hops : ∀ t, ∀ op ∈ prog x t, op.fits rxDataSize)
    (horder : SettledInv (mem x) (prog x) (s.tx x) order) (hc : c ∈ sentIn order) :
    c.content.length ≤ rxDataSize := by
  obtain ⟨⟨c', b⟩, hmem, rfl⟩ := List.mem_map.mp hc
  have hmade : c'.content ∈ madeBy c'.task order :=
    List.mem_map.mpr ⟨(c', b), List.mem_filter.mpr ⟨List.mem_of_mem_filter hmem, by simp⟩, rfl⟩
  have hmessages := horder.messages c'.task
  have hmessage : c'.content ∈ messagesOf c'.task (mem x) (prog x c'.task) := by
    rw [← hmessages, List.append_assoc]
    exact List.mem_append_left _ hmade
  exact length_of_mem_messagesOf (hops c'.task) hmessage

/-- A packet that has left the node can cross the link, as soon as the receiver can store
it. -/
theorem cross_of_writable (hpeers : Peers n) (hnet : NetInv n mem prog rxDataSize s) {x : Side}
    {p : Packet τ} (hp : (s.tx x).left[(s.crossed x).length]? = some p)
    (hw : Rx.writable (s.rx x.other)) (hlen : p.data.length ≤ rxDataSize) (eop eep : Bool) :
    next (stations n) rxDataSize s (.cross x eop eep) ≠ none := by
  have hrouted : route (n x).station (n x.other).station p = some p.data :=
    route_eq hpeers x ((packetInv (hnet.tx x)).left p (List.mem_of_getElem? hp)).1
  simp [next, hp, stations, hrouted, Rx.next, hw, hlen]

end Link

/-! ## Two tasks on one node -/

/-- One task of side `a` writes a byte and sends it with the next one; the other task sends a
byte of its own. Side `b` sends nothing. -/
def twoTasks : Side → Bool → List CallerOp
  | .a, false => [.write 0 5, .send 0 2]
  | .a, true => [.send 3 1]
  | .b, _ => []

/-- The memory of the tasks. -/
def taskData (_ : Side) (_ : Bool) (a : ℕ) : UInt8 := UInt8.ofNat (a + 7)

/-- The second call of side `a` times out while the first one has the token, and the packet
of the first one crosses the link. In the end both receivers wait. -/
def timeoutAndMessage : List (Label Bool) :=
  List.flatten [
    List.replicate 3 (.tx .a (.task false)), [.tx .a (.task true), .tx .a (.timeout true)],
    [.tx .a (.task true), .tx .a (.task false), .tx .a (.task false)],
    [.tx .a .start, .tx .a .read, .tx .a .read, .tx .a .deactivate, .tx .a .interrupt,
      .tx .a .release],
    [.rx .a .poll, .rx .a .poll, .rx .a .activate, .rx .a .poll],
    [.rx .b .poll, .rx .b .poll, .rx .b .activate, .rx .b .poll],
    [.cross .a true false, .rx .b .deactivate, .rx .b .interrupt, .rx .b .release],
    List.replicate 8 (.rx .b .poll), [.rx .b .activate, .rx .b .poll]]

end Samrh71Drivers.Spw.EndToEnd
