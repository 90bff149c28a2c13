import Samrh71Drivers.Can.Handshake
import Samrh71Drivers.Can.Reception
import Samrh71Drivers.Can.Codec
import Samrh71Drivers.Escaper.Decoder
import Samrh71Drivers.Lib.Medium

/-!
# What a run of sends puts on the bus

A node calls `SamRH71RtemsCanSend` on one message after the other. Three accounts of what
comes of it, each an invariant of the runs: the frames placed in TX buffer 0 are the frames of
the messages (`QueuedInv`), or, with the Escaper, their data bytes are the escaped messages
(`SplitInv`); and the frames transmitted are the frames placed, but for one that is still
pending (`TransmitInv`). `TxStep` says once what a step can do to the sender. In the other
direction RX FIFO 0 accepts the frames of the bus, or some of them (`accepted_step`).

## Main definitions

* `TxStep` — the steps of the sender, as an inversion principle.
* `canPort` — how a node is connected to the bus.
* `orderly` — a step that keeps the accounts.
* `messageFrame` — the frame of a message that goes out in one frame.
* `QueuedInv`, `SplitInv`, `TransmitInv` — the invariants.
-/

namespace Samrh71Drivers.Can

open Transition

universe u

section Step

variable {E : Type u} {X : Escaper E} {self : PrivateData} {asserts : Bool}
  {behind : ℕ → ℕ → UInt8} {n : ℕ} {s s' : State E}

/-- What a step does to the sender. -/
inductive TxStep (asserts : Bool) (X : Escaper E) (self : PrivateData)
    (behind : ℕ → ℕ → UInt8) (t : Tx E) : Label → Tx E → Prop
  | call {data todo} : t.pc = .outside → t.todo = data :: todo →
      TxStep asserts X self behind t .sender { t with
        pc := startSend asserts self (behind todo.length) data
        escaper := startEncoderFor X (startSend asserts self (behind todo.length) data) t.escaper
        todo := todo }
  | encode {l} : t.pc = .encode l →
      TxStep asserts X self behind t .sender { t with
        escaper := (X.encodePacket t.escaper l.data l.index).escaper
        pc := if 0 < (X.encodePacket t.escaper l.data l.index).packet.length then
            enterSendFrame asserts (txElement l.idType l.id
                (X.encodePacket t.escaper l.data l.index).packet
                ((X.encodePacket t.escaper l.data l.index).packet.length % 256))
              (some { l with index := (X.encodePacket t.escaper l.data l.index).index })
          else .outside }
  | add {el back} : t.pc = .addFrame el back →
      TxStep asserts X self behind t .sender { t with
        buffer := some t.added.length
        added := t.added ++ [el]
        pc := .wait (some t.added.length) back }
  | obtain {frame back} : t.pc = .wait frame back →
      TxStep asserts X self behind t .sender { t with semaphore := none, pc := .check back }
  | check {back pc} : t.pc = .check back → pc = resume back ∨ pc = .stopped →
      TxStep asserts X self behind t .sender { t with pc := pc }
  | addFails {el back} : t.pc = .addFrame el back →
      TxStep asserts X self behind t .addFails
        { t with pc := failedAssert asserts (.wait none back) }
  | timeout {frame back pc} : t.pc = .wait frame back → pc = resume back ∨ pc = .stopped →
      TxStep asserts X self behind t .timeout { t with
        semaphore := none
        abandoned := t.abandoned || frame.isSome
        pc := pc }
  | transmitted {frame} : t.buffer = some frame →
      TxStep asserts X self behind t .transmitted { t with buffer := none, tc := set t.tc frame }
  | interrupt {tc semaphore} :
      TxStep asserts X self behind t .interrupt { t with tc := tc, semaphore := semaphore }
  | poll : TxStep asserts X self behind t .poll t
  | arrive {el} : TxStep asserts X self behind t (.arrive el) t

/-- A failed assertion stops the sender or lets it go on. -/
private theorem failedAssert_eq (asserts : Bool) (pc : SendPc) :
    failedAssert asserts pc = pc ∨ failedAssert asserts pc = .stopped := by
  cases asserts with
  | true => exact .inr rfl
  | false => exact .inl rfl

theorem txStep_of_senderStep {t t' : Tx E} (h : senderStep asserts X self behind t = some t') :
    TxStep asserts X self behind t .sender t' := by
  cases hpc : t.pc with
  | outside =>
    cases htodo : t.todo with
    | nil => simp [senderStep, hpc, htodo] at h
    | cons data todo =>
      simp only [senderStep, hpc, htodo, Option.some.injEq] at h
      exact h ▸ .call hpc htodo
  | encode l =>
    simp only [senderStep, hpc, Option.some.injEq] at h
    exact h ▸ .encode hpc
  | addFrame el back =>
    simp only [senderStep, hpc, Option.some.injEq] at h
    exact h ▸ .add hpc
  | wait frame back =>
    simp only [senderStep, hpc, Option.map_eq_some_iff] at h
    obtain ⟨k, -, rfl⟩ := h
    exact .obtain hpc
  | check back =>
    simp only [senderStep, hpc, Option.some.injEq] at h
    refine h ▸ .check hpc ?_
    split
    · exact .inl rfl
    · exact failedAssert_eq _ _
  | stopped => simp [senderStep, hpc] at h

/-- The handler moves a report from the flag to the semaphore and leaves the rest. -/
theorem txStep_of_interruptStep (h : interruptStep s = some s') :
    TxStep asserts X self behind s.tx .interrupt s'.tx := by
  have hsame : s'.tx = { s.tx with tc := s'.tx.tc, semaphore := s'.tx.semaphore } := by
    cases hh : s.handler with
    | idle =>
      by_cases hflag : s.rx.rf0n = true ∨ s.tx.tc.isSome = true
      · simp only [interruptStep, hh, hflag, if_true, Option.some.injEq] at h
        rw [← h]
      · simp [interruptStep, hh, hflag] at h
    | testRf0n rf0n tc =>
      cases rf0n <;> simp only [interruptStep, hh, Bool.false_eq_true, if_true, if_false,
        Option.some.injEq] at h <;> rw [← h]
    | testTc tc =>
      cases tc <;> simp only [interruptStep, hh, Option.some.injEq] at h <;> rw [← h]
  rw [hsame]
  exact .interrupt

/-- **Inversion.** Every step of a node does to the sender one of the things of `TxStep`. -/
theorem txStep_of_next {l : Label} (h : next asserts X self behind n s l = some s') :
    TxStep asserts X self behind s.tx l s'.tx := by
  cases l with
  | poll =>
    rcases Option.map_eq_some_iff.mp h with ⟨r, -, rfl⟩
    exact .poll
  | sender =>
    rcases Option.map_eq_some_iff.mp h with ⟨t, ht, rfl⟩
    exact txStep_of_senderStep ht
  | addFails =>
    rcases Option.map_eq_some_iff.mp h with ⟨t, ht, rfl⟩
    cases hpc : s.tx.pc with
    | addFrame el back =>
      simp only [Can.addFails, hpc, Option.some.injEq] at ht
      exact ht ▸ .addFails hpc
    | _ => simp [Can.addFails, hpc] at ht
  | timeout =>
    rcases Option.map_eq_some_iff.mp h with ⟨t, ht, rfl⟩
    cases hpc : s.tx.pc with
    | wait frame back =>
      cases hsem : s.tx.semaphore with
      | some k => simp [Can.timeout, hpc, hsem] at ht
      | none =>
        simp only [Can.timeout, hpc, hsem, Option.some.injEq] at ht
        exact ht ▸ .timeout hpc (failedAssert_eq _ _)
    | _ => simp [Can.timeout, hpc] at ht
  | interrupt => exact txStep_of_interruptStep h
  | arrive el =>
    rw [← Option.some.inj h]
    exact .arrive
  | transmitted =>
    rcases Option.map_eq_some_iff.mp h with ⟨t, ht, rfl⟩
    rcases Option.map_eq_some_iff.mp ht with ⟨frame, hbuffer, rfl⟩
    exact .transmitted hbuffer

end Step

/-! ## The bus -/

section Bus

variable {E : Type u}

/-- How a node is connected: a transmission puts the pending frame on the bus, and a frame
of another node arrives for RX FIFO 0. -/
def canPort : Port (State E) Label RxElement where
  emits s
    | .transmitted => s.tx.buffer.bind fun frame => s.tx.added[frame]?.map TxElement.received
    | _ => none
  takes := .arrive
  takenBy
    | .arrive el => some el
    | _ => none
  takenBy_takes _ := rfl
  emits_takes _ _ := rfl

/-- The frames placed, but for the one that is pending. -/
def transmittedFrames (t : Tx E) : List RxElement :=
  (t.added.take (t.buffer.getD t.added.length)).map TxElement.received

/-- A frame is pending only if it is the last one placed, and the others are on the bus. -/
structure TransmitInv (t : Tx E) (r : List (RxElement ⊕ RxElement)) : Prop where
  last : ∀ frame, t.buffer = some frame → frame + 1 = t.added.length
  sent : sent r = transmittedFrames t

variable {X : Escaper E} {self : PrivateData} {asserts : Bool} {behind : ℕ → ℕ → UInt8} {n : ℕ}
  {s s' : State E} {r : List (RxElement ⊕ RxElement)}

/-- A step that transmits nothing and leaves the buffer sends nothing. -/
private theorem TransmitInv.of_eq {t t' : Tx E} {more : List (RxElement ⊕ RxElement)}
    (h : TransmitInv t r) (hmore : Transition.sent more = []) (hbuffer : t'.buffer = t.buffer)
    (hadded : t'.added = t.added) : TransmitInv t' (r ++ more) := by
  constructor
  · rw [hbuffer, hadded]
    exact h.last
  · rw [sent_append, hmore, List.append_nil, h.sent, transmittedFrames, transmittedFrames,
      hbuffer, hadded]

/-- **One step keeps the account of transmissions**, when a frame is added to a free
buffer. -/
theorem TransmitInv.step {l : Label} (h : TransmitInv s.tx r)
    (hfree : ∀ el back, s.tx.pc = .addFrame el back → l = .sender → s.tx.buffer = none)
    (hs : TxStep asserts X self behind s.tx l s'.tx) :
    TransmitInv s'.tx (r ++ (canPort.event s l).toList) := by
  generalize ht : s'.tx = t' at hs ⊢
  cases hs with
  | call | encode | obtain | check | addFails | timeout | interrupt | poll | arrive =>
    exact h.of_eq rfl rfl rfl
  | @add el back hpc =>
    have hbuffer := hfree el back hpc rfl
    constructor
    case last =>
      intro frame hframe
      cases hframe
      simp
    case sent =>
      have hsent := h.sent
      simp only [transmittedFrames, hbuffer, Option.getD_none, List.take_length] at hsent
      simp [transmittedFrames, Port.event, canPort, hsent]
  | @transmitted frame hbuffer =>
    have hlast := h.last frame hbuffer
    have hlt : frame < s.tx.added.length := by omega
    have hevent : canPort.event s .transmitted = some (.inl s.tx.added[frame].received) := by
      simp [Port.event, canPort, hbuffer, List.getElem?_eq_getElem hlt]
    constructor
    case last =>
      intro frame' hframe'
      cases hframe'
    case sent =>
      rw [sent_append, h.sent, hevent]
      simp only [transmittedFrames, hbuffer, Option.getD_some, Option.getD_none]
      rw [← hlast, List.take_succ_eq_append_getElem hlt, List.map_append]
      rfl

/-- The account holds in every state of the runs that add a frame only after the earlier
waits have succeeded. -/
theorem transmitInv {ok : State E → Label → Prop} {e : E} {todo : List (List UInt8)}
    {x : State E × List (RxElement ⊕ RxElement)}
    (hok : ∀ s l, ok s l → addsAfterWaits asserts s l)
    (h : ((system asserts X self behind n e todo).recorded canPort.event).ReachableWhen
      (fun x l => ok x.1 l) x) : TransmitInv x.1.tx x.2 := by
  refine System.ReachableWhen.recorded_invariant (P := fun s r => TransmitInv s.tx r) ?_ ?_ h
  · exact ⟨nofun, rfl⟩
  · intro s r l s' hreach hi hl hs
    refine hi.step (fun el back hpc hsender => ?_) (txStep_of_next hs)
    have hwaits := hok s l hl
    rw [hsender] at hwaits
    have hinv := handshakeInv (hreach.mono hok)
    have hlive := hinv.not_abandoned (by simp [hpc]) (by simpa [addsAfterWaits, hpc] using hwaits)
    have hsig := hinv.live hlive
    simp only [hpc, waited, signals, List.append_eq_nil_iff] at hsig
    simpa using hsig.1.1.1

end Bus

/-! ## The frames of the messages -/

/-- The frame a sender is about to place. -/
def SendPc.frame : SendPc → List TxElement
  | .addFrame el _ => [el]
  | _ => []

/-- The Escaper loop a sender is in. -/
def SendPc.back : SendPc → Option SendLoop
  | .encode l => some l
  | .addFrame _ back | .wait _ back | .check back => back
  | .outside | .stopped => none

@[simp] theorem frame_resume (back : Option SendLoop) : (resume back).frame = [] := by
  cases back <;> rfl

@[simp] theorem back_resume (back : Option SendLoop) : (resume back).back = back := by
  cases back <;> rfl

/-- The frame of a message that goes out in one frame, if it does and fits. -/
def messageFrame (self : PrivateData) (data : List UInt8) : Option TxElement :=
  match self.config.address with
  | .staticCanId address =>
    if shouldUseEscaper self = false ∧ data.length ≤ mcanMaxDataSize then
      (staticIdTypeAndId address).map fun target => txElement target.1 target.2 data data.length
    else none
  | .applicationControlCanId _ =>
    if 4 ≤ data.length ∧ data.length ≤ 12 then some (dynamicIdFrame data) else none
  | .none => none

section Queued

variable {E : Type u} {X : Escaper E} {self : PrivateData} {asserts : Bool}
  {behind : ℕ → ℕ → UInt8} {t t' : Tx E}

/-- A frame that fits passes the assertion on its length. -/
theorem enterSendFrame_of_le {el : TxElement} (back : Option SendLoop)
    (hle : el.dataSize ≤ mcanMaxDataSize) : enterSendFrame asserts el back = .addFrame el back := by
  have hfits : ¬ mcanMaxDataSize < el.dataSize := Nat.not_lt.mpr hle
  simp [enterSendFrame, hfits]

/-- A call on a message that fits goes on to place its frame. -/
theorem startSend_of_messageFrame {data : List UInt8} {el : TxElement} (memory : ℕ → UInt8)
    (h : messageFrame self data = some el) :
    startSend asserts self memory data = .addFrame el none := by
  cases haddress : self.config.address with
  | staticCanId address =>
    simp only [messageFrame, haddress] at h
    split at h
    case isTrue hcond =>
      rcases hcond with ⟨hesc, hle⟩
      obtain ⟨⟨idType, id⟩, htarget, rfl⟩ := Option.map_eq_some_iff.mp h
      have hmod : data.length % 256 = data.length := by
        rw [mcanMaxDataSize] at hle
        exact Nat.mod_eq_of_lt (by omega)
      simp only [startSend, haddress, htarget, hesc, Bool.false_eq_true, if_false, hmod]
      exact enterSendFrame_of_le none hle
    case isFalse => cases h
  | applicationControlCanId dummy =>
    simp only [messageFrame, haddress] at h
    split at h
    case isTrue hcond =>
      rcases hcond with ⟨h4, h12⟩
      cases h
      have hmod : (data.length + 252) % 256 = data.length - 4 := by omega
      have hshort : ¬ data.length < 4 := Nat.not_lt.mpr h4
      simp only [startSend, haddress, hshort, decide_false, Bool.and_false, Bool.false_eq_true,
        if_false, hmod, readable_of_le memory h4]
      have hle : data.length - 4 ≤ mcanMaxDataSize := by
        rw [mcanMaxDataSize]
        omega
      exact enterSendFrame_of_le none hle
    case isFalse => cases h
  | none => simp [messageFrame, haddress] at h

/-- The frames placed and those to come are the frames of the messages; a sender that has
stopped may have left some out at the end. -/
structure QueuedInv (d : PrivateData) (program : List (List UInt8)) (t : Tx E) : Prop where
  single : t.pc.back = none
  ready : ∀ data ∈ t.todo, (messageFrame d data).isSome
  queued : ∃ rest, t.added ++ rest = program.filterMap (messageFrame d) ∧
    (t.pc ≠ .stopped → rest = t.pc.frame ++ t.todo.filterMap (messageFrame d))

/-- A step after which the sender has the same frames, or has stopped. -/
private theorem QueuedInv.keep {program : List (List UInt8)} (h : QueuedInv self program t)
    (hadded : t'.added = t.added) (htodo : t'.todo = t.todo) (hlive : t.pc ≠ .stopped)
    (hpc : t'.pc.back = t.pc.back ∧ t'.pc.frame = t.pc.frame ∨ t'.pc = .stopped) :
    QueuedInv self program t' := by
  obtain ⟨rest, hall, hrest⟩ := h.queued
  constructor
  case single =>
    rcases hpc with ⟨hback, -⟩ | hstopped
    · rw [hback, h.single]
    · rw [hstopped]
      rfl
  case ready =>
    rw [htodo]
    exact h.ready
  case queued =>
    refine ⟨rest, by rw [hadded, hall], fun hne => ?_⟩
    rcases hpc with ⟨-, hframe⟩ | hstopped
    · rw [hframe, htodo, hrest hlive]
    · exact absurd hstopped hne

/-- **One step keeps the account of frames**, when no frame is refused by the controller in a
build without asserts. -/
theorem QueuedInv.step {program : List (List UInt8)} {l : Label} (h : QueuedInv self program t)
    (hplaced : l = .addFails → asserts = true) (hs : TxStep asserts X self behind t l t') :
    QueuedInv self program t' := by
  obtain ⟨rest, hall, hrest⟩ := h.queued
  cases hs with
  | @call data todo hpc htodo =>
    have hsome := h.ready data (htodo ▸ List.mem_cons_self)
    obtain ⟨el, hel⟩ := Option.isSome_iff_exists.mp hsome
    have hstart : startSend asserts self (behind todo.length) data = .addFrame el none :=
      startSend_of_messageFrame _ hel
    constructor
    case single => rw [hstart]; rfl
    case ready =>
      intro data' hmem
      exact h.ready data' (htodo ▸ List.mem_cons_of_mem data hmem)
    case queued =>
      refine ⟨rest, hall, fun _ => ?_⟩
      rw [hrest (by simp [hpc]), hpc, htodo, hstart, List.filterMap_cons_some hel]
      rfl
  | encode hpc =>
    have hsingle := h.single
    rw [hpc] at hsingle
    cases hsingle
  | @add el back hpc =>
    constructor
    case single =>
      have hsingle := h.single
      rw [hpc] at hsingle
      exact hsingle
    case ready => exact h.ready
    case queued =>
      refine ⟨t.todo.filterMap (messageFrame self), ?_, fun _ => rfl⟩
      rw [← hall, hrest (by simp [hpc]), hpc]
      simp [SendPc.frame]
  | obtain hpc =>
    refine h.keep rfl rfl (by simp [hpc]) (.inl ?_)
    rw [hpc]
    exact ⟨rfl, rfl⟩
  | check hpc hpc' | timeout hpc hpc' =>
    refine h.keep rfl rfl (by simp [hpc]) ?_
    rcases hpc' with rfl | rfl
    · rw [hpc]
      exact .inl ⟨back_resume _, frame_resume _⟩
    · exact .inr rfl
  | addFails hpc =>
    have hasserts := hplaced rfl
    exact h.keep rfl rfl (by simp [hpc]) (.inr (if_pos hasserts))
  | transmitted | interrupt | poll | arrive =>
    by_cases hlive : t.pc = .stopped
    · exact ⟨h.single, h.ready, rest, hall, fun hne => absurd hlive hne⟩
    · exact h.keep rfl rfl hlive (.inl ⟨rfl, rfl⟩)

end Queued

section Split

variable {E : Type u} {X : Escaper E} {F : Framing X} {self : PrivateData} {asserts : Bool}
  {behind : ℕ → ℕ → UInt8} {target : IdType × UInt32} {program : List (List UInt8)}
  {t t' : Tx E} {e : E}

/-- The bytes the sender has still to place of the message it is in. -/
def Owes (F : Framing X) (e : E) (pc : SendPc) (bytes : List UInt8) : Prop :=
  match pc.back with
  | none => bytes = []
  | some l => ∃ p, F.Returned l.data e p ∧ l.index = F.consumed l.data p ∧
      bytes = pc.frame.flatMap TxElement.payload ++ (F.frame l.data).drop p

/-- A frame of one to eight bytes for the address `target`. -/
def TxElement.isFor (target : IdType × UInt32) (el : TxElement) : Prop :=
  el.idType = target.1 ∧ el.id = target.2 ∧
    1 ≤ el.payload.length ∧ el.payload.length ≤ mcanMaxDataSize

/-- The data bytes placed and those to come are the escaped messages; a sender that has
stopped may have left some out at the end. -/
structure SplitInv (F : Framing X) (target : IdType × UInt32) (program : List (List UInt8))
    (t : Tx E) : Prop where
  looping : t.pc.back = none → t.pc = .outside ∨ t.pc = .stopped
  loop : ∀ l, t.pc.back = some l → (l.idType, l.id) = target
  frames : ∀ el ∈ t.added ++ t.pc.frame, el.isFor target
  split : ∃ rest, t.added.flatMap TxElement.payload ++ rest = program.flatMap F.frame ∧
    (t.pc ≠ .stopped → ∃ bytes, Owes F t.escaper t.pc bytes ∧
      rest = bytes ++ t.todo.flatMap F.frame)

/-- A call begins an Escaper loop. -/
theorem startSend_of_escaper {address : CanId} (hesc : shouldUseEscaper self = true)
    (haddress : self.config.address = .staticCanId address)
    (htarget : staticIdTypeAndId address = some target) (memory : ℕ → UInt8)
    (data : List UInt8) :
    startSend asserts self memory data = .encode ⟨target.1, target.2, data, 0⟩ := by
  simp [startSend, haddress, htarget, hesc]

/-- A sender that waits is in a loop. -/
theorem SplitInv.loops (h : SplitInv F target program t) (hout : t.pc ≠ .outside)
    (hlive : t.pc ≠ .stopped) : ∃ l, t.pc.back = some l := by
  cases hback : t.pc.back with
  | some l => exact ⟨l, rfl⟩
  | none =>
    rcases h.looping hback with hpc | hpc
    · exact absurd hpc hout
    · exact absurd hpc hlive

/-- A sender that stops. -/
private theorem SplitInv.stop (h : SplitInv F target program t) (hadded : t'.added = t.added)
    (hpc : t'.pc = .stopped) : SplitInv F target program t' := by
  obtain ⟨rest, hall, -⟩ := h.split
  constructor
  case looping => exact fun _ => .inr hpc
  case loop =>
    intro l hl
    simp [hpc, SendPc.back] at hl
  case frames =>
    intro el hel
    rw [hadded, hpc, show SendPc.stopped.frame = [] from rfl, List.append_nil] at hel
    exact h.frames el (List.mem_append_left _ hel)
  case split => exact ⟨rest, by rw [hadded, hall], fun hne => absurd hpc hne⟩

/-- A step inside a loop after which the sender has the same frame. -/
private theorem SplitInv.keep {l : SendLoop} (h : SplitInv F target program t)
    (hadded : t'.added = t.added) (htodo : t'.todo = t.todo) (hescaper : t'.escaper = t.escaper)
    (hlive : t.pc ≠ .stopped) (hback : t.pc.back = some l) (hback' : t'.pc.back = some l)
    (hframe : t'.pc.frame = t.pc.frame) : SplitInv F target program t' := by
  obtain ⟨rest, hall, hrest⟩ := h.split
  constructor
  case looping =>
    intro hnone
    rw [hback'] at hnone
    cases hnone
  case loop => rw [hback', ← hback]; exact h.loop
  case frames => rw [hadded, hframe]; exact h.frames
  case split =>
    refine ⟨rest, by rw [hadded, hall], fun _ => ?_⟩
    obtain ⟨bytes, howes, hbytes⟩ := hrest hlive
    refine ⟨bytes, ?_, by rw [htodo, hbytes]⟩
    simpa only [Owes, hback, hback', hframe, hescaper] using howes

/-- The next packet of a loop is a frame for the address. -/
private theorem SplitInv.packet {l : SendLoop} {r : EncodeResult E}
    (h : SplitInv F target program t) (hpc : t.pc = .encode l)
    (hr : X.encodePacket t.escaper l.data l.index = r) (hmore : 0 < r.packet.length)
    (hle : r.packet.length ≤ mcanMaxDataSize) (hadded : t'.added = t.added)
    (htodo : t'.todo = t.todo) (hescaper : t'.escaper = r.escaper)
    (hpc' : t'.pc = .addFrame (txElement l.idType l.id r.packet r.packet.length)
      (some { l with index := r.index })) : SplitInv F target program t' := by
  obtain ⟨rest, hall, hrest⟩ := h.split
  obtain ⟨bytes, howes, hbytes⟩ := hrest (by simp [hpc])
  have hid := h.loop l (by simp [hpc, SendPc.back])
  have hpayload : (txElement l.idType l.id r.packet r.packet.length).payload = r.packet :=
    List.take_length
  constructor
  case looping => simp [hpc', SendPc.back]
  case loop =>
    intro l' hl'
    simp only [hpc', SendPc.back, Option.some.injEq] at hl'
    rw [← hl', ← hid]
  case frames =>
    intro el hel
    rw [hpc', SendPc.frame, hadded, List.mem_append, List.mem_singleton] at hel
    rcases hel with hel | rfl
    · exact h.frames el (List.mem_append_left _ hel)
    · rw [TxElement.isFor, hpayload, ← hid]
      exact ⟨rfl, rfl, hmore, hle⟩
  case split =>
    refine ⟨rest, by rw [hadded, hall], fun _ => ⟨bytes, ?_, by rw [htodo, hbytes]⟩⟩
    simp only [Owes, hpc, SendPc.back, SendPc.frame, List.flatMap_nil, List.nil_append] at howes
    simp only [Owes, hpc', SendPc.back, SendPc.frame, List.flatMap_singleton, hpayload, hescaper]
    obtain ⟨p, hreturned, hindex, rfl⟩ := howes
    rw [hindex] at hr
    have hnext := F.returned_next l.data t.escaper p hreturned
    have hindex' := F.index_eq l.data t.escaper p hreturned
    have hdrop := F.packet_append_drop hreturned
    rw [hr] at hnext hindex' hdrop
    exact ⟨p + r.packet.length, hnext, hindex', hdrop.symm⟩

/-- An empty packet says that the frame of the message is complete. -/
private theorem SplitInv.complete {l : SendLoop} (h : SplitInv F target program t)
    (hpc : t.pc = .encode l)
    (hempty : (X.encodePacket t.escaper l.data l.index).packet.length = 0)
    (hadded : t'.added = t.added) (htodo : t'.todo = t.todo) (hpc' : t'.pc = .outside) :
    SplitInv F target program t' := by
  obtain ⟨rest, hall, hrest⟩ := h.split
  obtain ⟨bytes, howes, hbytes⟩ := hrest (by simp [hpc])
  constructor
  case looping => exact fun _ => .inl hpc'
  case loop => simp [hpc', SendPc.back]
  case frames =>
    intro el hel
    rw [hpc', show SendPc.outside.frame = [] from rfl, List.append_nil, hadded] at hel
    exact h.frames el (List.mem_append_left _ hel)
  case split =>
    refine ⟨rest, by rw [hadded, hall], fun _ => ⟨bytes, ?_, by rw [htodo, hbytes]⟩⟩
    simp only [Owes, hpc, SendPc.back, SendPc.frame, List.flatMap_nil, List.nil_append] at howes
    simp only [Owes, hpc', SendPc.back]
    obtain ⟨p, hreturned, hindex, rfl⟩ := howes
    have hlen := F.length_packet hreturned
    have hpos := F.bufferSize_pos
    rw [← hindex, hempty] at hlen
    exact List.drop_of_length_le (by omega)

/-- **One step keeps the account of escaped bytes**, under the same condition. -/
theorem SplitInv.step {address : CanId} {l : Label} (hesc : shouldUseEscaper self = true)
    (haddress : self.config.address = .staticCanId address)
    (htarget : staticIdTypeAndId address = some target) (hX : X.bufferSize = mcanMaxDataSize)
    (h : SplitInv F target program t) (hplaced : l = .addFails → asserts = true)
    (hs : TxStep asserts X self behind t l t') : SplitInv F target program t' := by
  cases hs with
  | @call data todo hpc htodo =>
    obtain ⟨rest, hall, hrest⟩ := h.split
    obtain ⟨bytes, howes, hbytes⟩ := hrest (by simp [hpc])
    have hstart : startSend asserts self (behind todo.length) data =
        .encode ⟨target.1, target.2, data, 0⟩ := startSend_of_escaper hesc haddress htarget _ data
    constructor
    case looping => simp [hstart, SendPc.back]
    case loop =>
      intro l hl
      simp only [hstart, SendPc.back, Option.some.injEq] at hl
      rw [← hl]
    case frames =>
      intro el hel
      rw [hstart, show (SendPc.encode _).frame = [] from rfl, List.append_nil] at hel
      exact h.frames el (List.mem_append_left _ hel)
    case split =>
      refine ⟨rest, hall, fun _ => ⟨F.frame data, ?_, ?_⟩⟩
      · simp only [Owes, hstart, SendPc.back, startEncoderFor, SendPc.frame, List.flatMap_nil,
          List.nil_append]
        exact ⟨0, F.returned_start data t.escaper, (F.consumed_zero data).symm, rfl⟩
      · simp only [Owes, hpc, SendPc.back] at howes
        rw [hbytes, howes, htodo, List.flatMap_cons, List.nil_append]
  | @encode l hpc =>
    have hle := X.packet_le t.escaper l.data l.index
    rw [hX] at hle
    have hmod : (X.encodePacket t.escaper l.data l.index).packet.length % 256 =
        (X.encodePacket t.escaper l.data l.index).packet.length := by
      rw [mcanMaxDataSize] at hle
      exact Nat.mod_eq_of_lt (by omega)
    by_cases hmore : 0 < (X.encodePacket t.escaper l.data l.index).packet.length
    · refine h.packet hpc rfl hmore hle rfl rfl rfl ?_
      simp only [hmore, if_true, hmod]
      exact enterSendFrame_of_le _ hle
    · exact h.complete hpc (by omega) rfl rfl (if_neg hmore)
  | @add el back hpc =>
    obtain ⟨rest, hall, hrest⟩ := h.split
    obtain ⟨bytes, howes, hbytes⟩ := hrest (by simp [hpc])
    obtain ⟨l, hl⟩ := h.loops (by simp [hpc]) (by simp [hpc])
    obtain rfl : back = some l := by simpa [hpc, SendPc.back] using hl
    simp only [Owes, hpc, SendPc.back, SendPc.frame, List.flatMap_singleton] at howes
    obtain ⟨p, hreturned, hindex, rfl⟩ := howes
    constructor
    case looping => simp [SendPc.back]
    case loop =>
      intro l' hl'
      refine h.loop l' ?_
      rw [← hl', hpc]
      rfl
    case frames =>
      have hframes := h.frames
      rw [hpc] at hframes
      intro el' hel'
      exact hframes el' (by simpa [SendPc.frame] using hel')
    case split =>
      refine ⟨(F.frame l.data).drop p ++ t.todo.flatMap F.frame, ?_, fun _ =>
        ⟨_, ⟨p, hreturned, hindex, rfl⟩, rfl⟩⟩
      rw [← hall, hbytes, List.flatMap_append, List.flatMap_singleton, List.append_assoc,
        List.append_assoc]
  | @obtain frame back hpc =>
    obtain ⟨l, hl⟩ := h.loops (by simp [hpc]) (by simp [hpc])
    refine h.keep rfl rfl rfl (by simp [hpc]) hl ?_ ?_
    · rw [← hl, hpc]
      rfl
    · rw [hpc]
      rfl
  | check hpc hpc' | timeout hpc hpc' =>
    obtain ⟨l, hl⟩ := h.loops (by simp [hpc]) (by simp [hpc])
    rcases hpc' with rfl | rfl
    · refine h.keep rfl rfl rfl (by simp [hpc]) hl ?_ ?_
      · rw [← hl, hpc]
        exact back_resume _
      · rw [hpc]
        exact frame_resume _
    · exact h.stop rfl rfl
  | addFails hpc => exact h.stop rfl (if_pos (hplaced rfl))
  | transmitted | interrupt | poll | arrive => exact ⟨h.looping, h.loop, h.frames, h.split⟩

end Split

/-! ## The runs -/

/-- A step that keeps the accounts: a frame is added only after the earlier waits have
succeeded, and a refused frame stops the sender. With asserts enabled every step is one. -/
def orderly {E : Type u} (asserts : Bool) (s : State E) (l : Label) : Prop :=
  addsAfterWaits asserts s l ∧ (l = .addFails → asserts = true)

instance {E : Type u} (asserts : Bool) (s : State E) (l : Label) :
    Decidable (orderly asserts s l) := by
  have hfails : Decidable (l = .addFails) := by
    cases l <;> first | exact isTrue rfl | exact isFalse (by simp)
  unfold orderly
  infer_instance

/-- A frame that arrives finds room in RX FIFO 0. -/
def roomy {E : Type u} (n : ℕ) (s : State E) : Label → Prop
  | .arrive _ => s.rx.fifo.length < n
  | _ => True

section Runs

variable {E : Type u} {X : Escaper E} {F : Framing X} {self : PrivateData} {asserts : Bool}
  {behind : ℕ → ℕ → UInt8} {n : ℕ} {e : E} {program : List (List UInt8)} {s : State E}

theorem orderly_of_asserts (s : State E) (l : Label) : orderly true s l := by
  refine ⟨?_, fun _ => rfl⟩
  cases l with
  | sender | addFails =>
    simp only [addsAfterWaits]
    split <;> simp
  | _ => trivial

/-- The account of frames holds in every orderly run. -/
theorem queuedInv (hprogram : ∀ data ∈ program, (messageFrame self data).isSome)
    (h : (system asserts X self behind n e program).ReachableWhen (orderly asserts) s) :
    QueuedInv self program s.tx := by
  refine System.ReachableWhen.invariant (P := fun s => QueuedInv self program s.tx) ?_ ?_ h
  · exact ⟨rfl, hprogram, _, List.nil_append _, fun _ => rfl⟩
  · intro s l s' _ hi hok hs
    exact hi.step hok.2 (txStep_of_next hs)

/-- The account of escaped bytes holds in every orderly run. -/
theorem splitInv {address : CanId} {target : IdType × UInt32}
    (hesc : shouldUseEscaper self = true) (haddress : self.config.address = .staticCanId address)
    (htarget : staticIdTypeAndId address = some target) (hX : X.bufferSize = mcanMaxDataSize)
    (h : (system asserts X self behind n e program).ReachableWhen (orderly asserts) s) :
    SplitInv F target program s.tx := by
  refine System.ReachableWhen.invariant (P := fun s => SplitInv F target program s.tx) ?_ ?_ h
  · constructor
    case looping => exact fun _ => .inl rfl
    case loop => intro l hl; cases hl
    case frames => intro el hel; cases hel
    case split => exact ⟨_, rfl, fun _ => ⟨[], rfl, rfl⟩⟩
  · intro s l s' _ hi hok hs
    exact hi.step hesc haddress htarget hX hok.2 (txStep_of_next hs)

/-- A sender waits for frames it has placed. -/
theorem waits_for_frame
    (h : (system asserts X self behind n e program).ReachableWhen (orderly asserts) s)
    (back : Option SendLoop) : s.tx.pc ≠ .wait none back := by
  revert back
  have hne : ∀ (pc : SendPc), pc.between → ∀ back, pc ≠ .wait none back := by
    rintro pc hpc back rfl
    exact hpc
  refine System.ReachableWhen.invariant
    (P := fun s : State E => ∀ back, s.tx.pc ≠ .wait none back) ?_ ?_ h
  · exact hne _ trivial
  · intro s l s' _ hi hok hs
    have hstep := txStep_of_next hs
    generalize s'.tx = t' at hstep ⊢
    cases hstep with
    | call => exact hne _ (between_startSend _ _ _)
    | encode =>
      refine hne _ ?_
      split
      · exact between_enterSendFrame _ _
      · trivial
    | add | obtain => simp
    | check _ hpc | timeout _ hpc =>
      rcases hpc with rfl | rfl
      · exact hne _ (between_resume _)
      · exact hne _ trivial
    | addFails => simp [failedAssert, hok.2 rfl]
    | transmitted | interrupt | poll | arrive => exact hi

/-- The poll task accepts nothing. -/
theorem accepted_pollStep {r r' : Rx} (h : pollStep self r = some r') :
    r'.accepted = r.accepted := by
  cases hpc : r.poll with
  | obtain =>
    simp only [pollStep, hpc, Option.map_eq_some_iff] at h
    obtain ⟨sem, -, rfl⟩ := h
    rfl
  | pull =>
    cases hfifo : r.fifo <;> simp only [pollStep, hpc, hfifo, Option.some.injEq] at h <;> rw [← h]
  | stopped => simp [pollStep, hpc] at h
  | _ =>
    simp only [pollStep, hpc, Option.some.injEq] at h
    rw [← h]

/-- The handler accepts nothing. -/
theorem accepted_interruptStep {s' : State E} (h : interruptStep s = some s') :
    s'.rx.accepted = s.rx.accepted := by
  cases hh : s.handler with
  | idle =>
    by_cases hflag : s.rx.rf0n = true ∨ s.tx.tc.isSome = true
    · simp only [interruptStep, hh, hflag, if_true, Option.some.injEq] at h
      rw [← h]
    · simp [interruptStep, hh, hflag] at h
  | testRf0n rf0n tc =>
    cases rf0n <;> simp only [interruptStep, hh, Bool.false_eq_true, if_true, if_false,
      Option.some.injEq] at h <;> rw [← h]
  | testTc tc =>
    cases tc <;> simp only [interruptStep, hh, Option.some.injEq] at h <;> rw [← h]

/-- **What one step adds to the accepted frames**: the frame that arrives, if there is room. -/
theorem accepted_step {s' : State E} {l : Label}
    (h : next asserts X self behind n s l = some s') :
    ∃ more, s'.rx.accepted = s.rx.accepted ++ more ∧
      more.Sublist (taken (canPort.event s l).toList) ∧
      (roomy n s l → more = taken (canPort.event s l).toList) := by
  cases l with
  | poll =>
    rcases Option.map_eq_some_iff.mp h with ⟨r, hr, rfl⟩
    exact ⟨[], by rw [accepted_pollStep hr, List.append_nil], List.nil_sublist _, fun _ => rfl⟩
  | interrupt =>
    exact ⟨[], by rw [accepted_interruptStep h, List.append_nil], List.nil_sublist _, fun _ => rfl⟩
  | sender | addFails | timeout =>
    rcases Option.map_eq_some_iff.mp h with ⟨t, -, rfl⟩
    exact ⟨[], (List.append_nil _).symm, List.nil_sublist _, fun _ => rfl⟩
  | transmitted =>
    rcases Option.map_eq_some_iff.mp h with ⟨t, -, rfl⟩
    refine ⟨[], (List.append_nil _).symm, List.nil_sublist _, fun _ => ?_⟩
    exact (canPort.event_own (by simp [canPort])).2.symm
  | arrive el =>
    rw [← Option.some.inj h]
    by_cases hroom : s.rx.fifo.length < n
    · exact ⟨[el], by simp [arrive, hroom], List.Sublist.refl _, fun _ => rfl⟩
    · exact ⟨[], by simp [arrive, hroom], List.nil_sublist _, fun hok => absurd hok hroom⟩

/-- With room for every frame, RX FIFO 0 has accepted what has been taken from the bus. -/
theorem accepted_eq (ok : State E → Label → Prop) (hok : ∀ s l, ok s l → roomy n s l)
    {x : State E × List (RxElement ⊕ RxElement)}
    (h : ((system asserts X self behind n e program).recorded canPort.event).ReachableWhen
      (fun x l => ok x.1 l) x) : x.1.rx.accepted = taken x.2 := by
  refine System.ReachableWhen.recorded_invariant
    (P := fun s r => s.rx.accepted = taken r) rfl ?_ h
  intro s r l s' _ hi hl hs
  obtain ⟨more, hmore, -, heq⟩ := accepted_step hs
  rw [hmore, taken_append, hi, heq (hok s l hl)]

end Runs

/-! ## Frames and their bounds -/

/-- `CAN_Samrh71_Rtems_Can_Id_IsConstraintValid`. -/
def CanId.isConstraintValid : CanId → Bool
  | .standard id => id ≤ 2047
  | .extended id => id ≤ 536870911
  | .none => false

/-- `CAN_Samrh71_Rtems_Address_IsConstraintValid`. -/
def Address.isConstraintValid : Address → Bool
  | .staticCanId id => id.isConstraintValid
  | .applicationControlCanId _ => true
  | .none => false

/-- An ID that fits its type. -/
def idFits (idType : IdType) (id : UInt32) : Prop :=
  id.toNat < match idType with
    | .standard => 2 ^ 11
    | .extended => 2 ^ 29

/-- The ID of a valid static address fits its type. -/
theorem idFits_of_valid {address : CanId} {target : IdType × UInt32}
    (hvalid : address.isConstraintValid = true)
    (htarget : staticIdTypeAndId address = some target) : idFits target.1 target.2 := by
  cases address with
  | none => cases htarget
  | standard id =>
    cases htarget
    have hle : id.toNat ≤ 2047 := by
      simpa [CanId.isConstraintValid, UInt64.le_iff_toNat_le] using hvalid
    simp only [idFits, UInt64.toNat_toUInt32]
    omega
  | extended id =>
    cases htarget
    have hle : id.toNat ≤ 536870911 := by
      simpa [CanId.isConstraintValid, UInt64.le_iff_toNat_le] using hvalid
    simp only [idFits, UInt64.toNat_toUInt32]
    omega

/-- The ID taken from a message fits its type. -/
theorem idFits_getCanIdAndType (data : List UInt8) :
    idFits (getCanIdAndTypeFromMessageData data).1 (getCanIdAndTypeFromMessageData data).2 := by
  have hframe := id_dynamicIdFrame data
  simp only [dynamicIdFrame, txElement] at hframe
  split at hframe
  · simp only [idFits, hframe.1, hframe.2]
    exact Nat.mod_lt _ (Nat.two_pow_pos 29)
  · simp only [idFits, hframe.1, hframe.2]
    exact Nat.mod_lt _ (Nat.two_pow_pos 11)

/-- With asserts enabled the frames a sender places, and the IDs of the loop it is in, are in
their bounds. -/
structure ValidInv {E : Type u} (t : Tx E) : Prop where
  frames : ∀ el ∈ t.added ++ t.pc.frame, el.received.valid
  loop : ∀ l, t.pc.back = some l → idFits l.idType l.id

section Valid

variable {E : Type u} {X : Escaper E} {self : PrivateData} {behind : ℕ → ℕ → UInt8} {n : ℕ}
  {e : E} {program : List (List UInt8)} {s : State E} {t t' : Tx E}

/-- A frame that has passed the assertion on its length is in its bounds. -/
theorem valid_enterSendFrame {el el' : TxElement} {back : Option SendLoop}
    (hid : idFits el.idType el.id) (h : el' ∈ (enterSendFrame true el back).frame) :
    el'.received.valid := by
  by_cases hlong : mcanMaxDataSize < el.dataSize
  · simp [enterSendFrame, hlong, SendPc.frame] at h
  · simp only [enterSendFrame, hlong, decide_false, Bool.and_false, Bool.false_eq_true, if_false,
      SendPc.frame, List.mem_singleton] at h
    subst h
    refine ⟨hid, ?_⟩
    have hle : el'.payload.length ≤ el'.dataSize := List.length_take_le _ _
    exact Nat.le_trans hle (Nat.le_of_not_lt hlong)

/-- The loop a frame belongs to, if the assertion on its length holds. -/
theorem back_enterSendFrame {el : TxElement} {back : Option SendLoop} {l : SendLoop}
    (h : (enterSendFrame true el back).back = some l) : back = some l := by
  by_cases hlong : mcanMaxDataSize < el.dataSize
  · simp [enterSendFrame, hlong, SendPc.back] at h
  · simpa [enterSendFrame, hlong, SendPc.back] using h

/-- A call keeps to the bounds. -/
theorem valid_startSend (haddress : self.config.address.isConstraintValid = true)
    (memory : ℕ → UInt8) (data : List UInt8) :
    (∀ el ∈ (startSend true self memory data).frame, el.received.valid) ∧
      ∀ l, (startSend true self memory data).back = some l → idFits l.idType l.id := by
  cases haddr : self.config.address with
  | none => simp [startSend, haddr, failedAssert, SendPc.frame, SendPc.back]
  | staticCanId address =>
    rw [haddr] at haddress
    cases htarget : staticIdTypeAndId address with
    | none => simp [startSend, haddr, htarget, failedAssert, SendPc.frame, SendPc.back]
    | some target =>
      have hid := idFits_of_valid haddress htarget
      cases hesc : shouldUseEscaper self with
      | true =>
        rw [startSend_of_escaper hesc haddr htarget]
        refine ⟨fun el hel => ?_, fun l hl => ?_⟩
        · simp [SendPc.frame] at hel
        · cases hl
          exact hid
      | false =>
        simp only [startSend, haddr, htarget, hesc, Bool.false_eq_true, if_false]
        refine ⟨fun el hel => valid_enterSendFrame hid hel, fun l hl => ?_⟩
        cases back_enterSendFrame hl
  | applicationControlCanId dummy =>
    have hid := idFits_getCanIdAndType (readable memory data)
    simp only [startSend, haddr]
    split
    · simp [SendPc.frame, SendPc.back]
    · refine ⟨fun el hel => valid_enterSendFrame hid hel, fun l hl => ?_⟩
      cases back_enterSendFrame hl

/-- **One step keeps the bounds.** -/
theorem ValidInv.step (haddress : self.config.address.isConstraintValid = true) {l : Label}
    (h : ValidInv t) (hs : TxStep true X self behind t l t') : ValidInv t' := by
  have hadded : ∀ el ∈ t.added, el.received.valid := fun el hel =>
    h.frames el (List.mem_append_left _ hel)
  have hquiet : ∀ {pc : SendPc}, pc.frame = [] → ∀ el ∈ t.added ++ pc.frame, el.received.valid := by
    intro pc hpc el hel
    rw [hpc, List.append_nil] at hel
    exact hadded el hel
  have hmore : ∀ {pc : SendPc}, (∀ el ∈ pc.frame, el.received.valid) →
      ∀ el ∈ t.added ++ pc.frame, el.received.valid := by
    intro pc hpc el hel
    rcases List.mem_append.mp hel with hel | hel
    · exact hadded el hel
    · exact hpc el hel
  cases hs with
  | @call data todo =>
    have hstart := valid_startSend haddress (behind todo.length) data
    exact ⟨hmore hstart.1, hstart.2⟩
  | @encode l hpc =>
    have hid := h.loop l (by rw [hpc]; rfl)
    by_cases hpacket : 0 < (X.encodePacket t.escaper l.data l.index).packet.length
    · simp only [hpacket, if_true]
      refine ⟨hmore fun el hel => valid_enterSendFrame hid hel, fun l' hl' => ?_⟩
      cases back_enterSendFrame hl'
      exact hid
    · simp only [hpacket, if_false]
      exact ⟨hquiet rfl, fun l' hl' => by cases hl'⟩
  | @add el back hpc =>
    have hframes := h.frames
    have hloop := h.loop
    rw [hpc] at hframes hloop
    exact ⟨fun el' hel' => hframes el' (by simpa [SendPc.frame] using hel'), hloop⟩
  | obtain hpc =>
    have hloop := h.loop
    rw [hpc] at hloop
    exact ⟨hquiet rfl, hloop⟩
  | check hpc hpc' | timeout hpc hpc' =>
    have hloop := h.loop
    rw [hpc] at hloop
    rcases hpc' with rfl | rfl
    · exact ⟨hquiet (frame_resume _), fun l hl => hloop l (by rwa [back_resume] at hl)⟩
    · exact ⟨hquiet rfl, fun l hl => by cases hl⟩
  | addFails => exact ⟨hquiet rfl, fun l hl => by cases hl⟩
  | transmitted | interrupt | poll | arrive => exact ⟨h.frames, h.loop⟩

/-- With asserts enabled and a valid address, every frame that is placed is in its bounds. -/
theorem validInv (haddress : self.config.address.isConstraintValid = true)
    (h : (system true X self behind n e program).Reachable s) : ValidInv s.tx := by
  refine System.Reachable.invariant (P := fun s => ValidInv s.tx) ?_ ?_ h
  · exact ⟨fun el hel => (by cases hel), fun l hl => (by cases hl)⟩
  · intro s l s' hi hs
    exact hi.step haddress (txStep_of_next hs)

end Valid

end Samrh71Drivers.Can
