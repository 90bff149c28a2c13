import Samrh71Drivers.Lib.Transition
import Samrh71Drivers.Rtems
import Samrh71Drivers.Spw.Dividers

/-!
# Initialisation of the SpaceWire driver

`samrh71_rtems_spacewire_init` on any number of instances, one call after the other, with
the interrupts of the SpaceWire block and the use of the instances in between. One label is
one call of the initialisation to a driver of the hardware or to RTEMS, one step of a task
on an instance, one step of the block, or one interrupt.

There is one block. The instances share its transmitter and its receiver, the interrupt
vectors and `g_spw_irq_self`; each has its own private data. The block may raise interrupts
from before, with each of its parts on one of the two lines, until that part is reset.

## Main definitions

* `Conf`, `Args`, `Setup` — the arguments of the calls, and what they find.
* `PrivateData`, `State` — an instance, and all of them with the block.
* `Pc`, `initEffect`, `initAssert` — the steps of the initialisation, in source order.
* `irqCalls`, `irqHandler` — what an interrupt does.
* `next`, `system`, `Step` — the transition system, and its steps as an inversion principle.
-/

namespace Samrh71Drivers.Spw.Init

open Transition

universe u

/-- `SAMRH71_SPW_NVIC_IRQ0` and `SAMRH71_SPW_NVIC_IRQ1`. -/
inductive Vector
  | irq0
  | irq1
  deriving DecidableEq

/-- The parts of the block that raise interrupts and are reset one by one. -/
inductive Part
  | link0
  | link1
  | tx
  | rx
  deriving DecidableEq

/-- `link-id`. -/
inductive LinkId
  | spw0
  | spw1
  deriving DecidableEq

/-- The index of a link in the arrays of the block, which is its value in the
configuration. -/
def LinkId.index : LinkId → Fin 2
  | spw0 => 0
  | spw1 => 1

/-- `self->link_id`: hardware link numbering is 1-indexed. -/
def LinkId.number (l : LinkId) : UInt8 := UInt8.ofNat l.index + 1

/-- `Spw_SamRH71_Rtems_Conf_T`; a logical address is at least 32. -/
structure Conf where
  linkId : LinkId
  nodeId : UInt8
  linkSpeed : Option UInt32
  removeProtId : Option Bool
  nodeId_ge : 32 ≤ nodeId

/-- The arguments of a call: `bus_id` and the two configurations. -/
structure Args where
  busId : ℕ
  deviceConfiguration : Conf
  remoteDeviceConfiguration : Conf

/-- What the calls find. The instances are those of `κ`. -/
structure Setup (κ : Type u) where
  args : κ → Args
  /-- What `SamRH71Core_GetMasterClockFrequency` returns to the call for an instance. -/
  masterClock : κ → UInt64
  /-- Whether `rtems_interrupt_handler_install` can succeed, where the same handler with the
  same argument is installed on the vector already, and where it is not. -/
  accepts : Bool → Bool
  /-- The line a part of the block raises its interrupts on. -/
  line : Part → Vector
  /-- The parts that raise interrupts from before. -/
  stale : Part → Bool
  /-- What is pending from before. -/
  pending : Vector → Bool
  /-- Interrupts are enabled from before. -/
  irqEnabled : Bool

/-- An `Spw` object after `Spw_init`: the arguments of the registered handlers. -/
structure SpwObject (κ : Type u) where
  txHandler : Option κ
  rxHandler : Option κ

/-- The poll task: not there, constructed, or where it is in `samrh71_rtems_spacewire_poll`. -/
inductive Task
  | absent
  | constructed
  /-- Before `arm_rx_buffer`. -/
  | arm
  /-- In the loop on `isCurrentReceiveBufferActive`. -/
  | spin
  /-- In `wait_for_rx_deactivation`. -/
  | wait
  /-- In `process_rx_packets`. -/
  | process
  deriving DecidableEq

/-- `samrh71_rtems_spw_private_data`, less the buffers. -/
structure PrivateData (κ : Type u) where
  /-- `none` before `Spw_init`. -/
  spw : Option (SpwObject κ)
  ipDeviceBusId : ℕ
  linkId : UInt8
  nodeId : UInt8
  remoteNodeId : UInt8
  removeProtId : Bool
  txSemaphore : Option Semaphore
  rxSemaphore : Option Semaphore
  task : Task
  /-- A callback is registered in `on_tx_timeout`. -/
  onTxTimeout : Bool
  rxDeactivated : Bool
  initOk : Bool

/-- `Spw_Router_TableEntry`. -/
structure TableEntry where
  deleteHeaderByte : Bool
  address : UInt8
  deriving DecidableEq

/-- `Spw_Router_Config`, and the table. -/
structure Router where
  isTimeoutDisabled : Bool
  isFallbackRoutingEnabled : Bool
  isLogicalAddressRoutingEnabled : Bool
  table : UInt8 → Option TableEntry

/-- The fields of `Spw_Link_Config` that depend on the call. -/
structure LinkConfig where
  txInitDiv : UInt8
  txOperDiv : UInt8
  command : UInt8
  deriving DecidableEq

/-- The steps of `samrh71_rtems_spacewire_init`, in source order. -/
inductive Pc
  /-- Not called yet. -/
  | outside
  | configure
  | readMasterClock
  | computeDividers
  | initPmc
  | setIrqSelf
  | clearPending0
  | clearPending1
  | installIrq0
  | installIrq1
  | enableIrq
  | spwInit
  | routerConfig
  | ownTableEntry
  | remoteTableEntry
  | linkReset0
  | linkReset1
  | txReset
  | rxReset
  | setConfig
  | checkInitOk
  | registerTxHandler
  | registerRxHandler
  | txUnmask
  | rxUnmask
  | clearFlags
  | createTxSemaphore
  | createRxSemaphore
  | constructTask
  | startTask
  /-- The call has returned. -/
  | finished
  deriving DecidableEq

namespace Pc

/-- The step after a step. -/
def succ : Pc → Pc
  | outside => configure
  | configure => readMasterClock
  | readMasterClock => computeDividers
  | computeDividers => initPmc
  | initPmc => setIrqSelf
  | setIrqSelf => clearPending0
  | clearPending0 => clearPending1
  | clearPending1 => installIrq0
  | installIrq0 => installIrq1
  | installIrq1 => enableIrq
  | enableIrq => spwInit
  | spwInit => routerConfig
  | routerConfig => ownTableEntry
  | ownTableEntry => remoteTableEntry
  | remoteTableEntry => linkReset0
  | linkReset0 => linkReset1
  | linkReset1 => txReset
  | txReset => rxReset
  | rxReset => setConfig
  | setConfig => checkInitOk
  | checkInitOk => registerTxHandler
  | registerTxHandler => registerRxHandler
  | registerRxHandler => txUnmask
  | txUnmask => rxUnmask
  | rxUnmask => clearFlags
  | clearFlags => createTxSemaphore
  | createTxSemaphore => createRxSemaphore
  | createRxSemaphore => constructTask
  | constructTask => startTask
  | startTask => finished
  | finished => finished

theorem succ_ne_outside (p : Pc) : p.succ ≠ outside := by cases p <;> exact nofun

/-- The step `a` comes before the step `p`. -/
instance : LT Pc := ⟨fun a p => a.ctorIdx < p.ctorIdx⟩

instance (a p : Pc) : Decidable (a < p) := inferInstanceAs (Decidable (a.ctorIdx < p.ctorIdx))

theorem lt_iff {a p : Pc} : a < p ↔ a.ctorIdx < p.ctorIdx := Iff.rfl

theorem ctorIdx_injective {a p : Pc} (h : a.ctorIdx = p.ctorIdx) : a = p := by
  rw [← Pc.ofNat_ctorIdx a, h, Pc.ofNat_ctorIdx]

theorem ctorIdx_succ {p : Pc} (h : p ≠ finished) : p.succ.ctorIdx = p.ctorIdx + 1 := by
  cases p <;> first | rfl | exact absurd rfl h

/-- What comes before the next step comes before this one, or is this one. -/
theorem lt_succ_iff {a p : Pc} (h : p ≠ finished) : a < p.succ ↔ a < p ∨ a = p := by
  rw [lt_iff, lt_iff, ctorIdx_succ h]
  constructor
  · intro hlt
    rcases Nat.lt_succ_iff_lt_or_eq.mp hlt with hlt | heq
    · exact .inl hlt
    · exact .inr (ctorIdx_injective heq)
  · rintro (hlt | rfl)
    · omega
    · omega

end Pc

/-- The instances and the block. -/
structure State (κ : Type u) where
  /-- `g_spw_irq_self`. -/
  irqSelf : Option κ
  /-- `master_clock_frequency`. -/
  masterClockFrequency : UInt64
  /-- The local variables `txInitDiv` and `txOperDiv`. -/
  dividers : UInt8 × UInt8
  device : κ → PrivateData κ
  peripheralClock : Fin 2 → Bool
  pending : Vector → Bool
  /-- The vectors with `samrh71_spw_irq_handler` and the argument `NULL`. -/
  installed : Vector → Bool
  irqEnabled : Bool
  router : Router
  /-- The configuration of the links, `none` for one that is as after its reset. -/
  links : Fin 2 → Option LinkConfig
  /-- The parts that still raise interrupts from before. -/
  stale : Part → Bool
  txMask : Bool
  rxMask : Bool
  /-- The instances whose send list is with the transmitter, in order. -/
  txLists : List κ
  /-- The instance whose send list is deactivated and its status still locked. -/
  txDeactivated : Option κ
  rxQueued : Option κ
  rxActive : Option κ
  /-- The instance whose RX buffer is deactivated and not announced yet. -/
  rxFinished : Option κ
  pc : κ → Pc
  /-- The instance whose initialisation is under way. -/
  running : Option κ
  /-- An assertion has failed, and the program has stopped. -/
  stopped : Bool

/-- The choices of the environment. -/
inductive Label (κ : Type u)
  /-- The initialisation of an instance is called. -/
  | begin (i : κ)
  /-- The next step of the initialisation. `rc` is that the RTEMS call in it succeeds or, in
  `check_spw_is_init_ok`, that the link gets ready in time. -/
  | init (rc : Bool)
  /-- A task sends through an instance. -/
  | send (i : κ)
  /-- The transmitter deactivates a send list. -/
  | txDeactivate
  /-- The next step of the poll task of an instance. -/
  | poll (i : κ)
  /-- The receiver activates the queued buffer. -/
  | rxActivate
  /-- The receiver deactivates the active buffer. -/
  | rxDeactivate
  /-- An interrupt is taken. -/
  | interrupt (v : Vector)

section Model

variable {κ : Type u} [DecidableEq κ]

/-- Change the private data of an instance. -/
def State.setDevice (s : State κ) (i : κ) (d : PrivateData κ) : State κ :=
  { s with device := Function.update s.device i d }

@[simp] theorem device_setDevice_self (s : State κ) (i : κ) (d : PrivateData κ) :
    (s.setDevice i d).device i = d := Function.update_self _ _ _

theorem device_setDevice_of_ne (s : State κ) {i j : κ} (d : PrivateData κ) (h : j ≠ i) :
    (s.setDevice i d).device j = s.device j := Function.update_of_ne h _ _

/-! ## The initialisation -/

/-- The configuration of a link in `Spw_setConfig`: only the configured one is started. -/
def linkConfig (dividers : UInt8 × UInt8) (linkId : UInt8) (l : Fin 2) : LinkConfig :=
  ⟨dividers.1, dividers.2, if linkId = UInt8.ofNat l + 1 then 3 else 0⟩

/-- What a step of the initialisation of `i` does where its assertion holds. -/
def initEffect (E : Setup κ) (s : State κ) (i : κ) (rc : Bool) : Pc → State κ
  | .outside | .finished => s
  | .configure => s.setDevice i { s.device i with
      ipDeviceBusId := (E.args i).busId
      linkId := (E.args i).deviceConfiguration.linkId.number
      nodeId := (E.args i).deviceConfiguration.nodeId
      remoteNodeId := (E.args i).remoteDeviceConfiguration.nodeId
      removeProtId := (E.args i).deviceConfiguration.removeProtId.getD false }
  | .readMasterClock => { s with masterClockFrequency := E.masterClock i }
  | .computeDividers =>
    let dividers := txDividers s.masterClockFrequency (E.args i).deviceConfiguration.linkSpeed
    { s with dividers := dividers.toOption.getD s.dividers }
  | .initPmc => { s with
      peripheralClock := fun l => l = 0 || (s.device i).linkId = 2 || s.peripheralClock l }
  | .setIrqSelf => { s with irqSelf := some i }
  | .clearPending0 => { s with pending := Function.update s.pending .irq0 false }
  | .clearPending1 => { s with pending := Function.update s.pending .irq1 false }
  | .installIrq0 => { s with installed := Function.update s.installed .irq0 true }
  | .installIrq1 => { s with installed := Function.update s.installed .irq1 true }
  | .enableIrq => { s with irqEnabled := true }
  | .spwInit => s.setDevice i { s.device i with spw := some ⟨none, none⟩ }
  | .routerConfig => { s with router := ⟨true, false, true, s.router.table⟩ }
  | .ownTableEntry => { s with router := { s.router with
      table := Function.update s.router.table (s.device i).nodeId (some ⟨true, 9⟩) } }
  | .remoteTableEntry => { s with router := { s.router with
      table := Function.update s.router.table (s.device i).remoteNodeId
        (some ⟨false, (s.device i).linkId⟩) } }
  | .linkReset0 => { s with
      links := Function.update s.links 0 none
      stale := Function.update s.stale .link0 false }
  | .linkReset1 => { s with
      links := Function.update s.links 1 none
      stale := Function.update s.stale .link1 false }
  | .txReset => { s with
      txLists := []
      txDeactivated := none
      txMask := false
      stale := Function.update s.stale .tx false }
  | .rxReset => { s with
      rxQueued := none
      rxActive := none
      rxFinished := none
      rxMask := false
      stale := Function.update s.stale .rx false }
  | .setConfig => { s with links := fun l => some (linkConfig s.dividers (s.device i).linkId l) }
  | .checkInitOk => s.setDevice i { s.device i with initOk := rc }
  | .registerTxHandler => s.setDevice i { s.device i with
      spw := (s.device i).spw.map fun o => { o with txHandler := some i } }
  | .registerRxHandler => s.setDevice i { s.device i with
      spw := (s.device i).spw.map fun o => { o with rxHandler := some i } }
  | .txUnmask => { s with txMask := true }
  | .rxUnmask => { s with rxMask := true }
  | .clearFlags => s.setDevice i { s.device i with rxDeactivated := false, onTxTimeout := false }
  | .createTxSemaphore => s.setDevice i { s.device i with
      txSemaphore := some (Semaphore.create 1) }
  | .createRxSemaphore => s.setDevice i { s.device i with
      rxSemaphore := some (Semaphore.create 0) }
  | .constructTask => s.setDevice i { s.device i with task := .constructed }
  | .startTask => s.setDevice i { s.device i with task := .arm }

/-- The assertion of a step: on the bit rates, or that the RTEMS call has succeeded. -/
def initAssert (E : Setup κ) (s : State κ) (i : κ) (rc : Bool) : Pc → Bool
  | .computeDividers =>
    (txDividers s.masterClockFrequency (E.args i).deviceConfiguration.linkSpeed).isOk
  | .installIrq0 | .installIrq1 | .createTxSemaphore | .createRxSemaphore | .constructTask
  | .startTask => rc
  | _ => true

/-- RTEMS can give the answer `rc` to the call in a step. -/
def mayAnswer (E : Setup κ) (s : State κ) (rc : Bool) : Pc → Bool
  | .installIrq0 => !rc || E.accepts (s.installed .irq0)
  | .installIrq1 => !rc || E.accepts (s.installed .irq1)
  | _ => true

/-- Call the initialisation of `i`. -/
def State.call (s : State κ) (i : κ) : State κ :=
  { s with running := some i, pc := Function.update s.pc i .configure }

@[simp] theorem pc_call_self (s : State κ) (i : κ) : (s.call i).pc i = .configure :=
  Function.update_self _ _ _

theorem pc_call_of_ne (s : State κ) {i j : κ} (h : j ≠ i) : (s.call i).pc j = s.pc j :=
  Function.update_of_ne h _ _

/-- Go on to the next step of the initialisation of `i`, and return after the last one. -/
def State.advance (s : State κ) (i : κ) : State κ := { s with
  pc := Function.update s.pc i (s.pc i).succ
  running := if (s.pc i).succ = .finished then none else some i }

@[simp] theorem pc_advance_self (s : State κ) (i : κ) : (s.advance i).pc i = (s.pc i).succ :=
  Function.update_self _ _ _

theorem pc_advance_of_ne (s : State κ) {i j : κ} (h : j ≠ i) : (s.advance i).pc j = s.pc j :=
  Function.update_of_ne h _ _

/-- Only the call that has gone on is under way. -/
theorem eq_of_running_advance {s : State κ} {i j : κ} (h : (s.advance i).running = some j) :
    j = i := by
  simp only [State.advance] at h
  split at h
  · cases h
  · exact (Option.some.inj h).symm

/-! ## The interrupts -/

/-- The part of the block raises an interrupt. -/
def raises (s : State κ) : Part → Bool
  | .link0 => s.stale .link0
  | .link1 => s.stale .link1
  | .tx => s.stale .tx || s.txMask && s.txDeactivated.isSome
  | .rx => s.stale .rx || s.rxMask && s.rxFinished.isSome

/-- Some part of the block raises an interrupt on the line. -/
def raised (E : Setup κ) (s : State κ) (v : Vector) : Bool :=
  [Part.link0, .link1, .tx, .rx].any fun p => E.line p = v && raises s p

/-- An interrupt can be taken: its handler is installed, interrupts are enabled, and it is
pending or raised. -/
def takeable (E : Setup κ) (s : State κ) (v : Vector) : Bool :=
  s.installed v && s.irqEnabled && (s.pending v || raised E s v)

/-- A call that `samrh71_spw_irq_handler` and the callbacks make. -/
inductive Call (κ : Type u)
  /-- `Spw_handleInterrupt` on the object of an instance. -/
  | handleInterrupt (i : κ)
  | releaseTxSemaphore (i : κ)
  | releaseRxSemaphore (i : κ)

/-- The calls of an interrupt. `Spw_handleInterrupt` runs the handlers registered in the
object it is given; on an object that is not initialised nothing is known of it. -/
def irqCalls (s : State κ) : List (Call κ) :=
  match s.irqSelf with
  | none => []
  | some self =>
    .handleInterrupt self ::
      match (s.device self).spw with
      | none => []
      | some o =>
        (if raises s .tx then (o.txHandler.map .releaseTxSemaphore).toList else []) ++
          if raises s .rx then (o.rxHandler.map .releaseRxSemaphore).toList else []

/-- `spw_tx_callback` for a deactivated send list: the status is unlocked and the semaphore
of the instance it was registered for released. -/
def spwTxCallback (s : State κ) (arg : κ) : State κ :=
  { s with txDeactivated := none }.setDevice arg { s.device arg with
    txSemaphore := (s.device arg).txSemaphore.map Semaphore.release }

/-- `spw_rx_callback` for a deactivated RX buffer. -/
def spwRxCallback (s : State κ) (arg : κ) : State κ :=
  { s with rxFinished := none }.setDevice arg { s.device arg with
    rxDeactivated := true
    rxSemaphore := (s.device arg).rxSemaphore.map Semaphore.release }

/-- Run a handler, where its part raises an interrupt and it is registered. -/
def runHandler (raised : Bool) (handler : Option κ) (callback : State κ → κ → State κ)
    (s : State κ) : State κ :=
  match raised, handler with
  | true, some arg => callback s arg
  | _, _ => s

/-- `samrh71_spw_irq_handler`. -/
def irqHandler (s : State κ) : State κ :=
  match s.irqSelf with
  | none => s
  | some self =>
    match (s.device self).spw with
    | none => s
    | some o => runHandler (raises s .rx) o.rxHandler spwRxCallback
        (runHandler (raises s .tx) o.txHandler spwTxCallback s)

/-- Take the interrupt on a vector. -/
def State.interrupt (s : State κ) (v : Vector) : State κ :=
  irqHandler { s with pending := Function.update s.pending v false }

/-! ## The system -/

/-- The next step of the poll task of `i`. -/
def pollStep (s : State κ) (i : κ) : Option (State κ) :=
  match (s.device i).task with
  | .absent | .constructed => none
  | .arm => some ({ s with rxQueued := some i }.setDevice i
      { s.device i with rxDeactivated := false, task := .spin })
  | .spin => some (if s.rxActive.isSome then s.setDevice i { s.device i with task := .wait } else s)
  | .wait => (s.device i).rxSemaphore.bind fun sem => sem.obtain.map fun sem' =>
      s.setDevice i { s.device i with rxSemaphore := some sem', task := .process }
  | .process => some (s.setDevice i { s.device i with task := .arm })

/-- One step, where no assertion has failed. -/
def step (E : Setup κ) (s : State κ) : Label κ → Option (State κ)
  | .begin i =>
    if s.running = none ∧ s.pc i = .outside then some (s.call i) else none
  | .init rc =>
    match s.running with
    | none => none
    | some i =>
      if mayAnswer E s rc (s.pc i) then
        if initAssert E s i rc (s.pc i) then some ((initEffect E s i rc (s.pc i)).advance i)
        else some { s with stopped := true }
      else none
  | .send i =>
    if s.pc i = .finished then
      (s.device i).txSemaphore.bind fun sem => sem.obtain.map fun sem' =>
        { s with txLists := s.txLists ++ [i] }.setDevice i
          { s.device i with txSemaphore := some sem' }
    else none
  | .txDeactivate =>
    match s.txLists, s.txDeactivated with
    | i :: rest, none => some { s with txLists := rest, txDeactivated := some i }
    | _, _ => none
  | .poll i => pollStep s i
  | .rxActivate =>
    match s.rxQueued, s.rxActive with
    | some i, none => some { s with rxQueued := none, rxActive := some i }
    | _, _ => none
  | .rxDeactivate =>
    match s.rxActive, s.rxFinished with
    | some i, none => some { s with rxActive := none, rxFinished := some i }
    | _, _ => none
  | .interrupt v => if takeable E s v then some (s.interrupt v) else none

/-- One step of the system: none after a failed assertion. -/
def next (E : Setup κ) (s : State κ) (l : Label κ) : Option (State κ) :=
  if s.stopped then none else step E s l

/-- The private data before the call. -/
def PrivateData.zero : PrivateData κ :=
  ⟨none, 0, 0, 0, 0, false, none, none, .absent, false, false, false⟩

/-- The state before the first call. -/
def initial (E : Setup κ) : State κ where
  irqSelf := none
  masterClockFrequency := 0
  dividers := (0, 0)
  device _ := .zero
  peripheralClock _ := false
  pending := E.pending
  installed _ := false
  irqEnabled := E.irqEnabled
  router := ⟨false, false, false, fun _ => none⟩
  links _ := none
  stale := E.stale
  txMask := false
  rxMask := false
  txLists := []
  txDeactivated := none
  rxQueued := none
  rxActive := none
  rxFinished := none
  pc _ := .outside
  running := none
  stopped := false

/-- The transition system of the instances `κ`. -/
def system (E : Setup κ) : System (State κ) (Label κ) where
  init := initial E
  next := next E

/-- Every step of the system, with what it needs and what it does. -/
inductive Step (E : Setup κ) (s : State κ) : Label κ → State κ → Prop
  | begin {i} : s.running = none → s.pc i = .outside → Step E s (.begin i) (s.call i)
  | init {i rc} : s.running = some i → mayAnswer E s rc (s.pc i) = true →
      initAssert E s i rc (s.pc i) = true →
      Step E s (.init rc) ((initEffect E s i rc (s.pc i)).advance i)
  | refuse {i rc} : s.running = some i → mayAnswer E s rc (s.pc i) = true →
      initAssert E s i rc (s.pc i) = false → Step E s (.init rc) { s with stopped := true }
  | send {i sem} : s.pc i = .finished → (s.device i).txSemaphore = some sem →
      sem.available = true →
      Step E s (.send i) ({ s with txLists := s.txLists ++ [i] }.setDevice i
        { s.device i with txSemaphore := some ⟨false⟩ })
  | txDeactivate {i rest} : s.txLists = i :: rest → s.txDeactivated = none →
      Step E s .txDeactivate { s with txLists := rest, txDeactivated := some i }
  | arm {i} : (s.device i).task = .arm →
      Step E s (.poll i) ({ s with rxQueued := some i }.setDevice i
        { s.device i with rxDeactivated := false, task := .spin })
  | spinActive {i} : (s.device i).task = .spin → s.rxActive.isSome = true →
      Step E s (.poll i) (s.setDevice i { s.device i with task := .wait })
  | spin {i} : (s.device i).task = .spin → s.rxActive.isSome = false → Step E s (.poll i) s
  | wait {i sem} : (s.device i).task = .wait → (s.device i).rxSemaphore = some sem →
      sem.available = true →
      Step E s (.poll i) (s.setDevice i
        { s.device i with rxSemaphore := some ⟨false⟩, task := .process })
  | process {i} : (s.device i).task = .process →
      Step E s (.poll i) (s.setDevice i { s.device i with task := .arm })
  | rxActivate {i} : s.rxQueued = some i → s.rxActive = none →
      Step E s .rxActivate { s with rxQueued := none, rxActive := some i }
  | rxDeactivate {i} : s.rxActive = some i → s.rxFinished = none →
      Step E s .rxDeactivate { s with rxActive := none, rxFinished := some i }
  | interrupt {v} : takeable E s v = true → Step E s (.interrupt v) (s.interrupt v)

variable {E : Setup κ} {s s' : State κ}

omit [DecidableEq κ] in
/-- A part of the block that raises an interrupt raises its line. -/
theorem raised_of_raises {q : Part} (h : raises s q = true) : raised E s (E.line q) = true := by
  simp only [raised, List.any_eq_true, Bool.and_eq_true]
  exact ⟨q, by cases q <;> decide, by simp, h⟩

/-- An interrupt that can be taken is taken. -/
theorem next_interrupt {v : Vector} (hstopped : s.stopped = false)
    (htake : takeable E s v = true) : next E s (.interrupt v) = some (s.interrupt v) := by
  simp only [next, hstopped, Bool.false_eq_true, if_false, step, htake, if_true]

theorem step_of_pollStep {i : κ} (h : pollStep s i = some s') : Step E s (.poll i) s' := by
  cases htask : (s.device i).task with
  | absent => simp [pollStep, htask] at h
  | constructed => simp [pollStep, htask] at h
  | arm =>
    simp only [pollStep, htask, Option.some.injEq] at h
    exact h ▸ .arm htask
  | spin =>
    simp only [pollStep, htask, Option.some.injEq] at h
    split at h
    case isTrue hactive => exact h ▸ .spinActive htask hactive
    case isFalse hactive => exact h ▸ .spin htask (Bool.not_eq_true _ ▸ hactive)
  | wait =>
    simp only [pollStep, htask, Option.bind_eq_some_iff, Option.map_eq_some_iff,
      Semaphore.obtain_eq_some_iff] at h
    rcases h with ⟨sem, hsem, sem', ⟨hav, rfl⟩, rfl⟩
    exact .wait htask hsem hav
  | process =>
    simp only [pollStep, htask, Option.some.injEq] at h
    exact h ▸ .process htask

/-- **Inversion.** A step is taken where no assertion has failed, and is one of the cases of
`Step`. -/
theorem step_of_next {l : Label κ} (h : next E s l = some s') :
    s.stopped = false ∧ Step E s l s' := by
  have hrun : s.stopped = false := by
    cases hstopped : s.stopped with
    | false => rfl
    | true => simp [next, hstopped] at h
  refine ⟨hrun, ?_⟩
  simp only [next, hrun, Bool.false_eq_true, if_false] at h
  cases l with
  | begin i =>
    by_cases hc : s.running = none ∧ s.pc i = .outside
    · simp only [step, hc, and_self, if_true, Option.some.injEq] at h
      exact h ▸ .begin hc.1 hc.2
    · simp [step, hc] at h
  | init rc =>
    cases hrunning : s.running with
    | none => simp [step, hrunning] at h
    | some i =>
      cases hmay : mayAnswer E s rc (s.pc i) with
      | false => simp [step, hrunning, hmay] at h
      | true =>
        cases hassert : initAssert E s i rc (s.pc i) with
        | true =>
          simp only [step, hrunning, hmay, hassert, if_true, Option.some.injEq] at h
          exact h ▸ .init hrunning hmay hassert
        | false =>
          simp only [step, hrunning, hmay, hassert, if_true, Bool.false_eq_true, if_false,
            Option.some.injEq] at h
          rw [← hrunning] at h
          exact h ▸ .refuse hrunning hmay hassert
  | send i =>
    by_cases hpc : s.pc i = .finished
    · simp only [step, hpc, if_true, Option.bind_eq_some_iff, Option.map_eq_some_iff,
        Semaphore.obtain_eq_some_iff] at h
      rcases h with ⟨sem, hsem, sem', ⟨hav, rfl⟩, rfl⟩
      exact .send hpc hsem hav
    · simp [step, hpc] at h
  | txDeactivate =>
    cases hlists : s.txLists with
    | nil => simp [step, hlists] at h
    | cons i rest =>
      cases hdone : s.txDeactivated with
      | some j => simp [step, hlists, hdone] at h
      | none =>
        simp only [step, hlists, hdone, Option.some.injEq] at h
        exact h ▸ .txDeactivate hlists hdone
  | poll i => exact step_of_pollStep h
  | rxActivate =>
    cases hqueued : s.rxQueued with
    | none => simp [step, hqueued] at h
    | some i =>
      cases hactive : s.rxActive with
      | some j => simp [step, hqueued, hactive] at h
      | none =>
        simp only [step, hqueued, hactive, Option.some.injEq] at h
        exact h ▸ .rxActivate hqueued hactive
  | rxDeactivate =>
    cases hactive : s.rxActive with
    | none => simp [step, hactive] at h
    | some i =>
      cases hdone : s.rxFinished with
      | some j => simp [step, hactive, hdone] at h
      | none =>
        simp only [step, hactive, hdone, Option.some.injEq] at h
        exact h ▸ .rxDeactivate hactive hdone
  | interrupt v =>
    cases htake : takeable E s v with
    | false => simp [step, htake] at h
    | true =>
      simp only [step, htake, if_true, Option.some.injEq] at h
      exact h ▸ .interrupt htake

end Model
end Samrh71Drivers.Spw.Init
