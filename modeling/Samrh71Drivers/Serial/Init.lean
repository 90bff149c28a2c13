import Samrh71Drivers.Lib.Transition
import Samrh71Drivers.Outcome
import Samrh71Drivers.Serial.Rx

/-!
# Initialisation and interrupt dispatch of the serial driver

`Samrh71RtemsSerialInit` for any number of devices. The interrupt handlers have no argument
that tells them which private data to use: handler `n` goes through the file-level variable
`uartNhandle`, which `uartInitHandle` sets, and the ten handlers are subscribed once, by the
first initialisation. A run is a sequence of initialisations and interrupts; it ends where
an initialisation stops at an assertion.

The Flexcom, PIO and clock registers are written and never read, and are left out.

## Main definitions

* `Conf`, `PrivateData` — the configuration, and what is set up for a device.
* `Handles`, `Globals` — the file-level variables and the calls to the NVIC.
* `samrh71RtemsSerialInit` — the initialisation of one device.
* `dispatch` — what an interrupt calls.
* `system` — the runs of initialisations and interrupts.
* `dispatch_latest` — an interrupt serves the device that was initialised last.
-/

namespace Samrh71Drivers.Serial.Init

open Transition

universe u v w

/-- `Serial_SamRH71_Rtems_Device_T`. -/
inductive Device
  | uart0 | uart1 | uart2 | uart3 | uart4 | uart5 | uart6 | uart7 | uart8 | uart9
  deriving DecidableEq

/-- `Uart_Id`. -/
inductive UartId
  | id0 | id1 | id2 | id3 | id4 | id5 | id6 | id7 | id8 | id9
  deriving DecidableEq

/-- `Nvic_Irq`, as far as the driver uses it. -/
inductive Irq
  | flexcom0 | flexcom1 | flexcom2 | flexcom3 | flexcom4 | flexcom5 | flexcom6 | flexcom7
  | flexcom8 | flexcom9
  deriving DecidableEq

/-- `Serial_SamRH71_Rtems_Parity_T`. -/
inductive Parity
  | even | odd | none
  deriving DecidableEq

/-- `Serial_SamRH71_Rtems_Baudrate_T`. -/
inductive Baudrate
  | b9600 | b19200 | b38400 | b57600 | b115200 | b230400
  deriving DecidableEq

/-- `Serial_SamRH71_Rtems_Conf_T`. -/
structure Conf where
  devname : Device
  speed : Baudrate
  parity : Parity
  mode : Mode
  deriving DecidableEq

/-- `Samrh71RtemsSerial_Uart_Config`. -/
structure UartConfig where
  id : UartId
  parity : Parity
  baudrate : ℕ
  deriving DecidableEq

/-- The private data of a device, as far as `Samrh71RtemsSerialInit` sets it up. -/
structure PrivateData where
  busId : ℕ
  device : Device
  halUartConfig : UartConfig
  mode : Mode
  rxHandler : Rx.RxHandler
  txSemaphore : Option Semaphore
  /-- The sizes of the encode and the decode buffer given to `Escaper_init`. -/
  escaper : Option (ℕ × ℕ)
  taskStarted : Bool
  deriving DecidableEq

/-! ## The file-level variables -/

/-- `uart0handle` to `uart9handle`. -/
structure Handles (P : Type u) where
  uart0handle : Option P
  uart1handle : Option P
  uart2handle : Option P
  uart3handle : Option P
  uart4handle : Option P
  uart5handle : Option P
  uart6handle : Option P
  uart7handle : Option P
  uart8handle : Option P
  uart9handle : Option P

/-- An interrupt handler, as the calls of `Uart_handleInterrupt` it makes. -/
abbrev InterruptHandler (P : Type u) := Handles P → List P

/-- A call to the NVIC or to the interrupt table of the runtime. -/
inductive NvicCall (P : Type u)
  | clearInterruptPending (irq : Irq)
  | setInterruptPriority (irq : Irq) (priority : ℕ)
  | interruptSubscribe (irq : Irq) (name : String) (handler : InterruptHandler P)

/-- The file-level variables, and the calls made so far. -/
structure Globals (P : Type u) where
  /-- `SamRH71RtemsSerial_inited`. -/
  inited : Bool
  handles : Handles P
  nvic : List (NvicCall P)

section Model

variable {P : Type u}

/-- The body of each of the ten handlers. -/
def uartHandler (handle : Handles P → Option P) : InterruptHandler P := fun h =>
  match handle h with
  | some uart => [uart]
  | none => []

def uart0Handler : InterruptHandler P := uartHandler Handles.uart0handle
def uart1Handler : InterruptHandler P := uartHandler Handles.uart1handle
def uart2Handler : InterruptHandler P := uartHandler Handles.uart2handle
def uart3Handler : InterruptHandler P := uartHandler Handles.uart3handle
def uart4Handler : InterruptHandler P := uartHandler Handles.uart4handle
def uart5Handler : InterruptHandler P := uartHandler Handles.uart5handle
def uart6Handler : InterruptHandler P := uartHandler Handles.uart6handle
def uart7Handler : InterruptHandler P := uartHandler Handles.uart7handle
def uart8Handler : InterruptHandler P := uartHandler Handles.uart8handle
def uart9Handler : InterruptHandler P := uartHandler Handles.uart9handle

/-- `UART_INTERRUPT_PRIORITY`. -/
def uartInterruptPriority : ℕ := 4

def initUartIrq (irq : Irq) (handlerName : String) (handler : InterruptHandler P)
    (nvic : List (NvicCall P)) : List (NvicCall P) :=
  nvic ++ [.clearInterruptPending irq, .setInterruptPriority irq uartInterruptPriority,
    .interruptSubscribe irq handlerName handler]

def uartLowLevelInit (g : Globals P) : Globals P :=
  if g.inited then g
  else { g with
    inited := true
    nvic := g.nvic
      |> initUartIrq .flexcom0 "uart0" uart0Handler
      |> initUartIrq .flexcom1 "uart1" uart1Handler
      |> initUartIrq .flexcom2 "uart2" uart2Handler
      |> initUartIrq .flexcom3 "uart3" uart3Handler
      |> initUartIrq .flexcom4 "uart4" uart4Handler
      |> initUartIrq .flexcom5 "uart5" uart5Handler
      |> initUartIrq .flexcom6 "uart6" uart6Handler
      |> initUartIrq .flexcom7 "uart7" uart7Handler
      |> initUartIrq .flexcom8 "uart8" uart8Handler
      |> initUartIrq .flexcom9 "uart9" uart9Handler }

def getUartId : Device → UartId
  | .uart0 => .id0
  | .uart1 => .id1
  | .uart2 => .id2
  | .uart3 => .id3
  | .uart4 => .id4
  | .uart5 => .id5
  | .uart6 => .id6
  | .uart7 => .id7
  | .uart8 => .id8
  | .uart9 => .id9

def uartInitHandle (uart : P) (id : UartId) (h : Handles P) : Handles P :=
  match id with
  | .id0 => { h with uart0handle := some uart }
  | .id1 => { h with uart1handle := some uart }
  | .id2 => { h with uart2handle := some uart }
  | .id3 => { h with uart3handle := some uart }
  | .id4 => { h with uart4handle := some uart }
  | .id5 => { h with uart5handle := some uart }
  | .id6 => { h with uart6handle := some uart }
  | .id7 => { h with uart7handle := some uart }
  | .id8 => { h with uart8handle := some uart }
  | .id9 => { h with uart9handle := some uart }

/-! ## Initialisation -/

/-- The assertions of `Samrh71RtemsSerialInit` that can fail on a configuration. -/
inductive InitAssertion
  | txSemaphoreCreate
  | taskConstruct
  | taskStart
  deriving DecidableEq

/-- What RTEMS returns during an initialisation. -/
structure InitCalls where
  txSemaphoreCreate : Bool
  taskConstruct : Bool
  taskStart : Bool

/-- `initUartBaudrate`. -/
def uartBaudrate : Baudrate → ℕ
  | .b9600 => 9600
  | .b19200 => 19200
  | .b38400 => 38400
  | .b57600 => 57600
  | .b115200 => 115200
  | .b230400 => 230400

/-- `Serial_SAMRH71_RTEMS_ENCODED_PACKET_MAX_SIZE`. -/
def encodedPacketMaxSize : ℕ := 256

/-- The file-level variables, and the private data that is being set up. -/
structure Boot (P : Type u) where
  globals : Globals P
  self : PrivateData

/-- `initUartHardware` on the UART `uart`. -/
def initUartHardware (uart : P) (b : Boot P) : Boot P :=
  let g := uartLowLevelInit b.globals
  { b with globals := { g with handles := uartInitHandle uart b.self.halUartConfig.id g.handles } }

/-- `initUart`: the Uart_Id, the parity and the baud rate, then the hardware. -/
def initUart (uart : P) (config : Conf) (b : Boot P) : Boot P :=
  initUartHardware uart { b with
    self.device := config.devname
    self.halUartConfig := ⟨getUartId config.devname, config.parity, uartBaudrate config.speed⟩ }

/-- `initUartTxHandler`. -/
def initUartTxHandler (calls : InitCalls) (b : Boot P) : Outcome InitAssertion (Boot P) :=
  Outcome.assert .txSemaphoreCreate calls.txSemaphoreCreate
    { b with self.txSemaphore := some (Semaphore.create 1) }

/-- `Samrh71RtemsSerialInit` on the private data `self`, whose UART is `uart`. `stopByte` is
`STOP_BYTE`, and `decodedPacketMaxSize` is `BROKER_BUFFER_SIZE`. -/
def samrh71RtemsSerialInit (calls : InitCalls) (stopByte : UInt8) (decodedPacketMaxSize : ℕ)
    (globals : Globals P) (uart : P) (self : PrivateData) (busId : ℕ) (config : Conf) :
    Outcome InitAssertion (Boot P) :=
  let b := initUart uart config ⟨globals, { self with busId := busId, mode := config.mode }⟩
  let b := { b with self.rxHandler := Rx.initUartRxHandler stopByte b.self.mode b.self.rxHandler }
  (initUartTxHandler calls b).andThen fun b =>
  let b := if rawModeEnabled b.self.mode then b
    else { b with self.escaper := some (encodedPacketMaxSize, decodedPacketMaxSize) }
  (Outcome.assert .taskConstruct calls.taskConstruct b).andThen fun b =>
  Outcome.assert .taskStart calls.taskStart { b with self.taskStarted := true }

/-- **An initialisation that returns leaves the device ready**: the transmission starts in
`Serial.initial`, where the TX semaphore has its token, and the reception with the handler
of the mode. -/
theorem init_returned {E : Type v} {τ : Type w} {calls : InitCalls} {stopByte : UInt8}
    {decodedPacketMaxSize : ℕ} {g : Globals P} {uart : P} {self : PrivateData} {busId : ℕ}
    {config : Conf} {b : Boot P} (mem : τ → ℕ → UInt8) (prog : τ → List CallerOp) (e : E)
    (h : samrh71RtemsSerialInit calls stopByte decodedPacketMaxSize g uart self busId config =
      .returned b) :
    b.self.mode = config.mode ∧ b.self.txSemaphore = some (initial mem prog e).txSemaphore ∧
      b.self.rxHandler = Rx.initUartRxHandler stopByte config.mode self.rxHandler ∧
      b.self.taskStarted = true := by
  rcases Outcome.andThen_eq_returned.mp h with ⟨b₁, h₁, h₂⟩
  rcases Outcome.andThen_eq_returned.mp h₂ with ⟨b₂, h₃, h₄⟩
  rw [(Outcome.assert_eq_returned.mp h₄).2, (Outcome.assert_eq_returned.mp h₃).2,
    (Outcome.assert_eq_returned.mp h₁).2]
  split <;> exact ⟨rfl, rfl, rfl, rfl⟩

/-! ## Interrupts -/

/-- The handlers subscribed for an interrupt. -/
def subscribed (irq : Irq) (nvic : List (NvicCall P)) : List (InterruptHandler P) :=
  nvic.filterMap fun
    | .interruptSubscribe irq' _ handler => if irq' = irq then some handler else none
    | _ => none

/-- The calls of `Uart_handleInterrupt` that an interrupt leads to. -/
def dispatch (g : Globals P) (irq : Irq) : List P :=
  (subscribed irq g.nvic).flatMap fun handler => handler g.handles

/-! ## Runs -/

/-- The file-level variables, with a record of the initialisations, each with the private
data it has left, and of the calls of `Uart_handleInterrupt`. -/
structure State (P : Type u) where
  globals : Globals P
  inits : List (P × PrivateData)
  handled : List (Irq × P)
  /-- Stopped at a failed assertion. -/
  stopped : Bool

/-- The next thing to happen. -/
inductive Label (P : Type u)
  /-- `Samrh71RtemsSerialInit` on the private data `self` of `uart`. -/
  | init (calls : InitCalls) (uart : P) (self : PrivateData) (busId : ℕ) (config : Conf)
  | interrupt (irq : Irq)

/-- One step of a run. -/
def next (stopByte : UInt8) (decodedPacketMaxSize : ℕ) (s : State P) :
    Label P → Option (State P)
  | .init calls uart self busId config =>
    if s.stopped then none
    else match samrh71RtemsSerialInit calls stopByte decodedPacketMaxSize s.globals uart self busId
        config with
      | .returned b => some { s with globals := b.globals, inits := s.inits ++ [(uart, b.self)] }
      | .asserted _ b => some { s with
          globals := b.globals
          inits := s.inits ++ [(uart, b.self)]
          stopped := true }
      | .outOfFuel => none
  | .interrupt irq =>
    if s.stopped then none
    else some { s with handled := s.handled ++ (dispatch s.globals irq).map (irq, ·) }

/-- The state in which the program starts. -/
def initial : State P where
  globals := ⟨false, ⟨none, none, none, none, none, none, none, none, none, none⟩, []⟩
  inits := []
  handled := []
  stopped := false

/-- The runs of initialisations and interrupts. -/
def system (P : Type u) (stopByte : UInt8) (decodedPacketMaxSize : ℕ) :
    System (State P) (Label P) where
  init := initial
  next := next stopByte decodedPacketMaxSize

/-! ## Which device an interrupt serves -/

/-- The variable that belongs to a `Uart_Id`. -/
def Handles.get (h : Handles P) : UartId → Option P
  | .id0 => h.uart0handle
  | .id1 => h.uart1handle
  | .id2 => h.uart2handle
  | .id3 => h.uart3handle
  | .id4 => h.uart4handle
  | .id5 => h.uart5handle
  | .id6 => h.uart6handle
  | .id7 => h.uart7handle
  | .id8 => h.uart8handle
  | .id9 => h.uart9handle

/-- The interrupt of a device: UART `n` is on Flexcom `n`. -/
def Device.irq : Device → Irq
  | .uart0 => .flexcom0
  | .uart1 => .flexcom1
  | .uart2 => .flexcom2
  | .uart3 => .flexcom3
  | .uart4 => .flexcom4
  | .uart5 => .flexcom5
  | .uart6 => .flexcom6
  | .uart7 => .flexcom7
  | .uart8 => .flexcom8
  | .uart9 => .flexcom9

/-- **The handle tables agree**: `uartInitHandle` sets the variable of its `Uart_Id`. -/
theorem get_uartInitHandle (uart : P) (id id' : UartId) (h : Handles P) :
    (uartInitHandle uart id h).get id' = if id' = id then some uart else h.get id' := by
  cases id <;> cases id' <;> rfl

theorem getUartId_injective {d d' : Device} (h : getUartId d = getUartId d') : d = d' := by
  cases d <;> cases d' <;> first | rfl | cases h

/-- `initUartIrq` subscribes one handler, for its own interrupt. -/
theorem subscribed_initUartIrq (irq irq' : Irq) (name : String) (handler : InterruptHandler P)
    (nvic : List (NvicCall P)) : subscribed irq (initUartIrq irq' name handler nvic) =
      subscribed irq nvic ++ if irq' = irq then [handler] else [] := by
  by_cases h : irq' = irq
  · simp [subscribed, initUartIrq, h]
  · simp [subscribed, initUartIrq, h]

/-- What the first initialisation tells the NVIC. -/
def lowLevelCalls : List (NvicCall P) := (uartLowLevelInit (initial (P := P)).globals).nvic

/-- **The handler and subscription tables agree**: the interrupt of a device has one handler,
and it goes through the variable of the device. -/
theorem subscribed_lowLevelCalls (d : Device) :
    subscribed d.irq (lowLevelCalls (P := P)) =
      [uartHandler fun h => h.get (getUartId d)] := by
  rw [lowLevelCalls, uartLowLevelInit, if_neg (by simp [initial])]
  simp only [subscribed_initUartIrq]
  cases d <;> rfl

/-- The uart of the private data initialised last with device `d`. -/
def latest (inits : List (P × PrivateData)) (d : Device) : Option P :=
  (inits.filter fun i => i.2.device = d).getLast?.map Prod.fst

theorem latest_append_self (inits : List (P × PrivateData)) (uart : P) (self : PrivateData) :
    latest (inits ++ [(uart, self)]) self.device = some uart := by
  simp [latest, List.filter_append]

theorem latest_append_of_ne {inits : List (P × PrivateData)} {uart : P} {self : PrivateData}
    {d : Device} (h : self.device ≠ d) : latest (inits ++ [(uart, self)]) d = latest inits d := by
  simp [latest, List.filter_append, h]

section Invariant

variable {stopByte : UInt8} {decodedPacketMaxSize : ℕ} {s s' : State P} {calls : InitCalls}
  {g : Globals P} {uart : P} {self : PrivateData} {busId : ℕ} {config : Conf} {b : Boot P}

/-- **What an initialisation does to the file-level variables**, whether it returns or stops
at an assertion: the low-level part if it is the first one, and the variable of the device. -/
theorem init_final (h : (samrh71RtemsSerialInit calls stopByte decodedPacketMaxSize g uart self
    busId config).final = some b) :
    b.globals = { uartLowLevelInit g with
        handles := uartInitHandle uart (getUartId config.devname) (uartLowLevelInit g).handles } ∧
      b.self.device = config.devname := by
  simp only [samrh71RtemsSerialInit, initUartTxHandler, Outcome.final_assert_andThen,
    Outcome.final_assert] at h
  split at h
  · split at h
    all_goals
      rw [← Option.some.inj h]
      constructor
      · split <;> rfl
      · split <;> rfl
  · rw [← Option.some.inj h]
    exact ⟨rfl, rfl⟩

/-- A step of a run initialises a device or changes nothing but the record of interrupts. -/
theorem next_init {l : Label P} (h : next stopByte decodedPacketMaxSize s l = some s') :
    (∃ calls uart self busId config b, l = .init calls uart self busId config ∧
      (samrh71RtemsSerialInit calls stopByte decodedPacketMaxSize s.globals uart self busId
        config).final = some b ∧
      s'.globals = b.globals ∧ s'.inits = s.inits ++ [(uart, b.self)]) ∨
    ((∃ irq, l = .interrupt irq) ∧ s'.globals = s.globals ∧ s'.inits = s.inits) := by
  cases l with
  | init calls uart self busId config =>
    left
    simp only [next] at h
    split at h
    · cases h
    · split at h
      case h_1 b hb =>
        cases h
        exact ⟨_, _, _, _, _, b, rfl, by rw [hb]; rfl, rfl, rfl⟩
      case h_2 b hb =>
        cases h
        exact ⟨_, _, _, _, _, b, rfl, by rw [hb]; rfl, rfl, rfl⟩
      case h_3 => cases h
  | interrupt irq =>
    right
    simp only [next] at h
    split at h
    · cases h
    · rw [← Option.some.inj h]
      exact ⟨⟨irq, rfl⟩, rfl, rfl⟩

/-- The invariant of the file-level variables. -/
structure DispatchInv (s : State P) : Prop where
  inited : s.globals.inited = true ↔ s.inits ≠ []
  nvic : s.globals.nvic = if s.inits = [] then [] else lowLevelCalls
  handles : ∀ d, s.globals.handles.get (getUartId d) = latest s.inits d

/-- After the low-level part the interrupts are subscribed, and the variables are as before. -/
private theorem DispatchInv.lowLevel (h : DispatchInv s) :
    (uartLowLevelInit s.globals).inited = true ∧
      (uartLowLevelInit s.globals).nvic = lowLevelCalls ∧
      (uartLowLevelInit s.globals).handles = s.globals.handles := by
  have hnvic := h.nvic
  by_cases hfirst : s.globals.inited = true
  · rw [if_neg (h.inited.mp hfirst)] at hnvic
    rw [uartLowLevelInit, if_pos hfirst]
    exact ⟨hfirst, hnvic, rfl⟩
  · have hnone : s.inits = [] := by
      by_contra hne
      exact hfirst (h.inited.mpr hne)
    rw [if_pos hnone] at hnvic
    rw [uartLowLevelInit, if_neg hfirst, hnvic]
    exact ⟨rfl, rfl, rfl⟩

/-- **One step keeps the invariant.** -/
theorem DispatchInv.step {l : Label P} (h : DispatchInv s)
    (hs : next stopByte decodedPacketMaxSize s l = some s') : DispatchInv s' := by
  rcases next_init hs with ⟨calls, uart, self, busId, config, b, -, hb, hg, hi⟩ | ⟨-, hg, hi⟩
  · rcases init_final hb with ⟨hglobals, hdevice⟩
    rcases h.lowLevel with ⟨hinited, hnvic, hhandles⟩
    constructor
    case inited =>
      rw [hg, hglobals, hi]
      simp [hinited]
    case nvic =>
      rw [hg, hglobals, hi, if_neg (by simp)]
      exact hnvic
    case handles =>
      intro d
      rw [hg, hglobals, hi, hhandles, get_uartInitHandle]
      by_cases hd : d = config.devname
      · rw [if_pos (congrArg getUartId hd), hd, ← hdevice, latest_append_self]
      · rw [if_neg fun hid => hd (getUartId_injective hid), h.handles d,
          latest_append_of_ne (by rw [hdevice]; exact Ne.symm hd)]
  · constructor
    case inited =>
      rw [hg, hi]
      exact h.inited
    case nvic =>
      rw [hg, hi]
      exact h.nvic
    case handles =>
      rw [hg, hi]
      exact h.handles

/-- The invariant holds in every reachable state. -/
theorem dispatchInv (h : (system P stopByte decodedPacketMaxSize).Reachable s) :
    DispatchInv s := by
  refine System.Reachable.invariant ?_ (fun s l s' hinv hs => hinv.step hs) h
  constructor
  case inited => simp [system, initial]
  case nvic => rfl
  case handles =>
    intro d
    cases d <;> rfl

/-- What an interrupt calls, from the variable of its device. -/
theorem DispatchInv.dispatch (h : DispatchInv s) (d : Device) :
    dispatch s.globals d.irq = (latest s.inits d).toList := by
  rw [Init.dispatch, h.nvic]
  by_cases hnone : s.inits = []
  · rw [if_pos hnone, hnone]
    rfl
  · rw [if_neg hnone, subscribed_lowLevelCalls, List.flatMap_singleton, uartHandler, h.handles d]
    cases latest s.inits d <;> rfl

end Invariant

/-- **Interrupt dispatch.** After any sequence of initialisations the handler of a device's
interrupt calls `Uart_handleInterrupt` on the UART of the private data that was initialised
last with this device, and does nothing if there is none; an initialisation leaves what the
interrupts of the other devices call; and every interrupt is subscribed once, by the first
initialisation. -/
theorem dispatch_latest (stopByte : UInt8) (decodedPacketMaxSize : ℕ) (s : State P)
    (h : (system P stopByte decodedPacketMaxSize).Reachable s) :
    (∀ d : Device, dispatch s.globals d.irq = (latest s.inits d).toList) ∧
    (∀ calls uart self busId config s',
      next stopByte decodedPacketMaxSize s (.init calls uart self busId config) = some s' →
      dispatch s'.globals config.devname.irq = [uart] ∧
        ∀ d : Device, d ≠ config.devname → dispatch s'.globals d.irq = dispatch s.globals d.irq) ∧
    (∀ d : Device, (subscribed d.irq s.globals.nvic).length = if s.inits = [] then 0 else 1) := by
  have hinv := dispatchInv h
  refine ⟨hinv.dispatch, ?_, ?_⟩
  · intro calls uart self busId config s' hs
    have hinv' := hinv.step hs
    rcases next_init hs with ⟨_, _, _, _, _, b, hl, hb, -, hi⟩ | ⟨⟨irq, hl⟩, -⟩
    · cases hl
      have hdevice := (init_final hb).2
      constructor
      · rw [hinv'.dispatch, hi, ← hdevice, latest_append_self]
        rfl
      · intro d hd
        rw [hinv'.dispatch, hinv.dispatch, hi,
          latest_append_of_ne (by rw [hdevice]; exact Ne.symm hd)]
    · cases hl
  · intro d
    rw [hinv.nvic]
    by_cases hnone : s.inits = []
    · rw [if_pos hnone, if_pos hnone]
      rfl
    · rw [if_neg hnone, if_neg hnone, subscribed_lowLevelCalls]
      rfl

/-- Two devices and a second private data for the first of them. -/
theorem dispatch_latest_three_inits :
    ∃ s, (system ℕ 0xFF 256).Reachable s ∧
      dispatch s.globals .flexcom3 = [12] ∧ dispatch s.globals .flexcom7 = [11] ∧
      dispatch s.globals .flexcom0 = [] := by
  let conf (d : Device) : Conf := ⟨d, .b9600, .none, ⟨.raw .singleByte, .blocking⟩⟩
  let self : PrivateData :=
    ⟨0, .uart0, ⟨.id0, .none, 0⟩, ⟨.escapedPackets, .blocking⟩, ⟨false, false, 0, 0⟩, none, none,
      false⟩
  let ls : List (Label ℕ) := [.init ⟨true, true, true⟩ 10 self 0 (conf .uart3),
    .init ⟨true, true, true⟩ 11 self 1 (conf .uart7), .interrupt .flexcom3,
    .init ⟨true, true, true⟩ 12 self 2 (conf .uart3)]
  have hr := System.reachable_get (system ℕ 0xFF 256) ls rfl
  have hdispatch := (dispatch_latest _ _ _ hr).1
  exact ⟨_, hr, hdispatch .uart3, hdispatch .uart7, hdispatch .uart0⟩

end Model
end Samrh71Drivers.Serial.Init
