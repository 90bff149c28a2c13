import Samrh71Drivers.Outcome
import Samrh71Drivers.Rtems
import Mathlib.Data.Int.Notation

/-!
# Configuration and initialisation of the CAN driver

`SamRH71RtemsCanInit` with the assertions on its way, for one device. What the HAL and
RTEMS return is a parameter; the bus message size is the entry of `bus_message_size`
for the bus of the device.

`canInit_returned` says what an initialisation that has returned leaves, and which
bounds on the message size its assertions have established.

## Main definitions

* `Conf` — `CAN_SamRH71_Rtems_Conf_T`.
* `PrivateData` — what `SamRH71RtemsCanInit` stores for the other driver functions.
* `shouldUseEscaper` — whether messages are cut into frames by the Escaper.
* `samRH71RtemsCanInit` — the initialisation.
-/

namespace Samrh71Drivers.Can

/-- `MCAN_MAX_DATA_SIZE`. -/
def mcanMaxDataSize : ℕ := 8

/-- `CAN_Samrh71_Rtems_Interface_T`, with the values outside the enumeration. -/
inductive Interface
  | mcan0
  | mcan1
  | other (value : ℕ)
  deriving DecidableEq

/-- `CAN_Samrh71_Rtems_PCK_Clock_Source`, with the values outside the enumeration. -/
inductive PckClockSource
  | mainClock
  | pllaClock
  | pllbClock
  | masterClock
  | rc2Clock
  | other (value : ℕ)
  deriving DecidableEq

/-- `CAN_Samrh71_Rtems_Can_Id`, a CHOICE whose selection may be `NONE`. -/
inductive CanId
  | none
  | standard (id : UInt64)
  | extended (id : UInt64)
  deriving DecidableEq

/-- `CAN_Samrh71_Rtems_Address`, a CHOICE whose selection may be `NONE`. -/
inductive Address
  | none
  | staticCanId (id : CanId)
  | applicationControlCanId (dummy : Bool)
  deriving DecidableEq

/-- The fields of `CAN_SamRH71_Rtems_Conf_T` that the driver decides on. -/
structure Conf where
  canInterface : Interface
  pckSource : PckClockSource
  pckPrescaler : UInt64
  address : Address
  deriving DecidableEq

/-- `Pmc_GclkSrc`. -/
inductive GclkSrc
  | mainck
  | pllack
  | pllbck
  | masterck
  | rc2ck
  deriving DecidableEq

/-- The two peripherals `getMcanPeripheralId` names. -/
inductive PeripheralId
  | mcan0
  | mcan1
  deriving DecidableEq

/-- The assertions of `SamRH71RtemsCanInit` and of the functions it calls. -/
inductive InitAssertion
  | pio
  | firstConfig
  | pckSourceDiffers
  | pckPrescalerDiffers
  | unknownPckSource
  | unknownInterface
  | rxSemaphoreCreate
  | txSemaphoreCreate
  | setConfig
  | decodingBufferSize
  | dynamicIdMessageSize
  | taskConstruct
  | taskStart
  deriving DecidableEq

/-- The result and the error code of a HAL function. -/
structure HalResult where
  result : Bool
  noError : Bool

/-- The PIO calls of `configurePioCan0` and of `configurePioCan1`, in call order. -/
structure PioCalls where
  init : HalResult
  setTxConfig : HalResult
  setRxConfig : HalResult
  standbyInit : HalResult
  setStandbyConfig : HalResult

/-- What the HAL and RTEMS return during an initialisation. -/
structure InitCalls where
  pio : PioCalls
  rxSemaphoreCreate : Bool
  txSemaphoreCreate : Bool
  setConfig : HalResult
  taskConstruct : Bool
  taskStart : Bool

/-- `isMcanPckConfigured` and `firstConfig`, which all devices share. -/
structure Globals where
  isMcanPckConfigured : Bool
  firstConfig : Option Conf

/-- The private data of a device, as far as `SamRH71RtemsCanInit` sets it up. -/
structure PrivateData where
  config : Conf
  /-- `bus_message_size[m_bus_id]`. -/
  busMessageSize : Int32
  rxSemaphore : Option Semaphore
  txSemaphore : Option Semaphore
  /-- The encode and decode buffer sizes given to `Escaper_init`. -/
  escaper : Option (ℕ × ℕ)
  taskStarted : Bool

/-- What an initialisation works on: the shared variables, the private data, and the
clock configurations given to `Pmc_setPeripheralClkConfig`. -/
structure Boot where
  globals : Globals
  self : PrivateData
  clocks : List (PeripheralId × GclkSrc × UInt64)

/-- `getPckSource`; `none` where its assertion fails. -/
def getPckSource (config : Conf) : Option GclkSrc :=
  match config.pckSource with
  | .mainClock => some .mainck
  | .pllaClock => some .pllack
  | .pllbClock => some .pllbck
  | .masterClock => some .masterck
  | .rc2Clock => some .rc2ck
  | .other _ => none

/-- `getMcanPeripheralId`; `none` where its assertion fails. -/
def getMcanPeripheralId (config : Conf) : Option PeripheralId :=
  match config.canInterface with
  | .mcan0 => some .mcan0
  | .mcan1 => some .mcan1
  | .other _ => none

def ifaceUsesStaticId (self : PrivateData) : Bool :=
  match self.config.address with
  | .staticCanId _ => true
  | _ => false

def ifaceUsesDynamicId (self : PrivateData) : Bool :=
  match self.config.address with
  | .applicationControlCanId _ => true
  | _ => false

def maxMessageSize (self : PrivateData) : Int32 := self.busMessageSize

/-- The conversion of an `int` to `size_t`. -/
def toSizeT (n : Int32) : ℕ := n.toUInt32.toNat

def shouldUseEscaper (self : PrivateData) : Bool :=
  ifaceUsesStaticId self && decide ((mcanMaxDataSize : ℤ) < (maxMessageSize self).toInt)

/-- `assert` on the result and the error code of a HAL call. -/
def assertHal (a : InitAssertion) (r : HalResult) (b : Boot) : Outcome InitAssertion Boot :=
  (Outcome.assert a r.result b).andThen (Outcome.assert a r.noError)

/-- `configurePioCan0` and `configurePioCan1`. -/
def configurePio (calls : PioCalls) (b : Boot) : Outcome InitAssertion Boot :=
  (assertHal .pio calls.init b).andThen fun b =>
  (assertHal .pio calls.setTxConfig b).andThen fun b =>
  (assertHal .pio calls.setRxConfig b).andThen fun b =>
  (assertHal .pio calls.standbyInit b).andThen fun b =>
  assertHal .pio calls.setStandbyConfig b

/-- `configureMcanPck`: every device has to ask for the clock of the first one. -/
def configureMcanPck (b : Boot) : Outcome InitAssertion Boot :=
  let config := b.self.config
  let sameClock : Outcome InitAssertion Boot :=
    if b.globals.isMcanPckConfigured then
      match b.globals.firstConfig with
      | none => .asserted .firstConfig b
      | some first =>
        (Outcome.assert .pckSourceDiffers (first.pckSource = config.pckSource) b).andThen
          (Outcome.assert .pckPrescalerDiffers (first.pckPrescaler = config.pckPrescaler))
    else .returned { b with globals := ⟨true, some config⟩ }
  sameClock.andThen fun b =>
    match getPckSource config, getMcanPeripheralId config with
    | none, _ => .asserted .unknownPckSource b
    | some _, none => .asserted .unknownInterface b
    | some src, some id =>
      .returned { b with clocks := b.clocks ++ [(id, src, config.pckPrescaler)] }

/-- `configureMcan0` and `configureMcan1`. -/
def configureMcan (calls : InitCalls) (b : Boot) : Outcome InitAssertion Boot :=
  (configurePio calls.pio b).andThen configureMcanPck

/-- The choice of the interface in `SamRH71RtemsCanInit`. -/
def configureInterface (calls : InitCalls) (b : Boot) : Outcome InitAssertion Boot :=
  match b.self.config.canInterface with
  | .mcan0 | .mcan1 => configureMcan calls b
  | .other _ => .asserted .unknownInterface b

/-- The two calls of `rtems_semaphore_create`. Both semaphores start without a token. -/
def createSemaphores (calls : InitCalls) (b : Boot) : Outcome InitAssertion Boot :=
  (Outcome.assert .rxSemaphoreCreate calls.rxSemaphoreCreate
    { b with self.rxSemaphore := some (Semaphore.create 0) }).andThen fun b =>
  Outcome.assert .txSemaphoreCreate calls.txSemaphoreCreate
    { b with self.txSemaphore := some (Semaphore.create 0) }

/-- `Escaper_init` where the Escaper is used. -/
def initEscaper (b : Boot) : Boot :=
  if shouldUseEscaper b.self then
    { b with self.escaper := some (mcanMaxDataSize, toSizeT (maxMessageSize b.self)) }
  else b

/-- The checks of the bus message size: the decoding buffer holds a message, and in
dynamic-ID mode a message is at most a frame with its ID and a length byte. -/
def checkMessageSize (decodingBufferSize : ℕ) (b : Boot) : Outcome InitAssertion Boot :=
  (Outcome.assert .decodingBufferSize
    (decide (toSizeT (maxMessageSize b.self) ≤ decodingBufferSize)) b).andThen fun b =>
  let b := initEscaper b
  if ifaceUsesDynamicId b.self then
    Outcome.assert .dynamicIdMessageSize
      (decide (toSizeT (maxMessageSize b.self) ≤ mcanMaxDataSize + 4 + 1)) b
  else .returned b

/-- Construction and start of the poll task. -/
def startTask (calls : InitCalls) (b : Boot) : Outcome InitAssertion Boot :=
  (Outcome.assert .taskConstruct calls.taskConstruct b).andThen fun b =>
  Outcome.assert .taskStart calls.taskStart { b with self.taskStarted := true }

/-- `SamRH71RtemsCanInit` for a device on a bus with messages of at most
`busMessageSize` bytes; `decodingBufferSize` is `BROKER_BUFFER_SIZE`. -/
def samRH71RtemsCanInit (calls : InitCalls) (decodingBufferSize : ℕ) (globals : Globals)
    (busMessageSize : Int32) (config : Conf) : Outcome InitAssertion Boot :=
  (configureInterface calls ⟨globals, ⟨config, busMessageSize, none, none, none, false⟩, []⟩).andThen
    fun b => (createSemaphores calls b).andThen fun b =>
    (assertHal .setConfig calls.setConfig b).andThen fun b =>
    (checkMessageSize decodingBufferSize b).andThen fun b =>
    startTask calls b

/-! ## What an initialisation leaves -/

/-- The private data of a device that is ready to send and to receive. -/
structure Ready (decodingBufferSize : ℕ) (busMessageSize : Int32) (config : Conf)
    (d : PrivateData) : Prop where
  config_eq : d.config = config
  busMessageSize_eq : d.busMessageSize = busMessageSize
  rxSemaphore_eq : d.rxSemaphore = some ⟨false⟩
  txSemaphore_eq : d.txSemaphore = some ⟨false⟩
  escaper_eq : d.escaper =
    if shouldUseEscaper d then some (mcanMaxDataSize, toSizeT busMessageSize) else none
  decodingBuffer_le : toSizeT busMessageSize ≤ decodingBufferSize
  dynamicId_le : ifaceUsesDynamicId d = true → toSizeT busMessageSize ≤ 13
  taskStarted_eq : d.taskStarted = true

variable {calls : InitCalls} {b b' : Boot} {n : ℕ}

theorem assertHal_returned {a : InitAssertion} {r : HalResult}
    (h : assertHal a r b = .returned b') : b' = b := by
  rcases Outcome.andThen_eq_returned.mp h with ⟨c, hc, h⟩
  rw [(Outcome.assert_eq_returned.mp h).2, (Outcome.assert_eq_returned.mp hc).2]

theorem configurePio_returned {p : PioCalls} (h : configurePio p b = .returned b') : b' = b := by
  rcases Outcome.andThen_eq_returned.mp h with ⟨c₁, h₁, h⟩
  rcases Outcome.andThen_eq_returned.mp h with ⟨c₂, h₂, h⟩
  rcases Outcome.andThen_eq_returned.mp h with ⟨c₃, h₃, h⟩
  rcases Outcome.andThen_eq_returned.mp h with ⟨c₄, h₄, h⟩
  rw [assertHal_returned h, assertHal_returned h₄, assertHal_returned h₃,
    assertHal_returned h₂, assertHal_returned h₁]

/-- The clock configuration leaves the private data. -/
theorem configureMcanPck_returned (h : configureMcanPck b = .returned b') : b'.self = b.self := by
  rcases Outcome.andThen_eq_returned.mp h with ⟨c, hc, h⟩
  have hself : c.self = b.self := by
    by_cases hconf : b.globals.isMcanPckConfigured
    · cases hfirst : b.globals.firstConfig with
      | none => simp [hconf, hfirst] at hc
      | some first =>
        simp only [hconf, hfirst, if_true] at hc
        rcases Outcome.andThen_eq_returned.mp hc with ⟨d, hd, hc⟩
        rw [(Outcome.assert_eq_returned.mp hc).2, (Outcome.assert_eq_returned.mp hd).2]
    · simp only [hconf] at hc
      rw [← Outcome.returned.inj hc]
  rw [← hself]
  cases hsrc : getPckSource b.self.config with
  | none => simp [hsrc] at h
  | some src =>
    cases hid : getMcanPeripheralId b.self.config with
    | none => simp [hsrc, hid] at h
    | some id =>
      simp only [hsrc, hid] at h
      rw [← Outcome.returned.inj h]

theorem configureInterface_returned (h : configureInterface calls b = .returned b') :
    b'.self = b.self := by
  have hmcan : configureMcan calls b = .returned b' := by
    cases hi : b.self.config.canInterface with
    | mcan0 | mcan1 => simpa only [configureInterface, hi] using h
    | other value => simp [configureInterface, hi] at h
  rcases Outcome.andThen_eq_returned.mp hmcan with ⟨c, hc, h⟩
  rw [configureMcanPck_returned h, configurePio_returned hc]

theorem createSemaphores_returned (h : createSemaphores calls b = .returned b') :
    b'.self = { b.self with rxSemaphore := some ⟨false⟩, txSemaphore := some ⟨false⟩ } := by
  rcases Outcome.andThen_eq_returned.mp h with ⟨c, hc, h⟩
  rw [(Outcome.assert_eq_returned.mp h).2, (Outcome.assert_eq_returned.mp hc).2]
  rfl

/-- The Escaper is initialised where it is used, and nothing else changes. -/
theorem initEscaper_self (b : Boot) : (initEscaper b).self = { b.self with
    escaper := if shouldUseEscaper b.self then
      some (mcanMaxDataSize, toSizeT b.self.busMessageSize) else b.self.escaper } := by
  cases hesc : shouldUseEscaper b.self <;> simp [initEscaper, hesc, maxMessageSize]

theorem checkMessageSize_returned (h : checkMessageSize n b = .returned b') :
    b' = initEscaper b ∧ toSizeT b.self.busMessageSize ≤ n ∧
      (ifaceUsesDynamicId b.self = true → toSizeT b.self.busMessageSize ≤ 13) := by
  rcases Outcome.andThen_eq_returned.mp h with ⟨c, hc, h⟩
  have hfit := Outcome.assert_eq_returned.mp hc
  rw [hfit.2] at h
  have hdyn : ifaceUsesDynamicId (initEscaper b).self = ifaceUsesDynamicId b.self := by
    rw [initEscaper_self]
    rfl
  have hsize : maxMessageSize (initEscaper b).self = b.self.busMessageSize := by
    rw [initEscaper_self]
    rfl
  simp only [hdyn, hsize] at h
  cases hd : ifaceUsesDynamicId b.self with
  | false =>
    simp only [hd] at h
    exact ⟨(Outcome.returned.inj h).symm, of_decide_eq_true hfit.1, by simp⟩
  | true =>
    simp only [hd, if_true] at h
    have hsmall := Outcome.assert_eq_returned.mp h
    exact ⟨hsmall.2, of_decide_eq_true hfit.1, fun _ => of_decide_eq_true hsmall.1⟩

theorem startTask_returned (h : startTask calls b = .returned b') :
    b'.self = { b.self with taskStarted := true } := by
  rcases Outcome.andThen_eq_returned.mp h with ⟨c, hc, h⟩
  rw [(Outcome.assert_eq_returned.mp h).2, (Outcome.assert_eq_returned.mp hc).2]

/-- **An initialisation that returns leaves the device ready.** -/
theorem canInit_returned {globals : Globals} {busMessageSize : Int32} {config : Conf}
    (h : samRH71RtemsCanInit calls n globals busMessageSize config = .returned b) :
    Ready n busMessageSize config b.self := by
  rcases Outcome.andThen_eq_returned.mp h with ⟨b₁, h₁, h⟩
  rcases Outcome.andThen_eq_returned.mp h with ⟨b₂, h₂, h⟩
  rcases Outcome.andThen_eq_returned.mp h with ⟨b₃, h₃, h⟩
  rcases Outcome.andThen_eq_returned.mp h with ⟨b₄, h₄, h⟩
  have hself : b₃.self = ⟨config, busMessageSize, some ⟨false⟩, some ⟨false⟩, none, false⟩ := by
    rw [assertHal_returned h₃, createSemaphores_returned h₂, configureInterface_returned h₁]
  rcases checkMessageSize_returned h₄ with ⟨rfl, hfit, hdyn⟩
  have hb := startTask_returned h
  rw [initEscaper_self, hself] at hb
  rw [hself] at hfit hdyn
  have hesc : shouldUseEscaper b.self = shouldUseEscaper b₃.self := by
    rw [hb, hself]
    rfl
  constructor
  case escaper_eq => rw [hesc, hb, hself]
  case dynamicId_le =>
    intro hd
    rw [hb] at hd
    exact hdyn hd
  case decodingBuffer_le => exact hfit
  all_goals rw [hb]

end Samrh71Drivers.Can
