import Samrh71Drivers.Lib.Settings
import Samrh71Drivers.Serial.Init
import Samrh71Drivers.Can.Init

/-!
# The pins and clocks of a board

Both drivers configure pins and peripheral clocks, the serial driver also the mode of its
Flexcom. Nothing is read back, and an initialisation does not know of the others. On this
board UART 6 and CAN 0 are on one pair of pins, and UART 7 and CAN 1 on another.

Whatever devices are initialised, in any order and any number of times, a device has its pins,
its clock and its mode at the end exactly if no initialisation after its own was one of its
rival's; and all of them have exactly if no two rivals are on the board (`configured_iff`).

The HAL functions do what they are documented to do, and the assertions on their results hold.
The SpaceWire driver configures no pins.

## Main definitions

* `Register`, `Value` — what is set.
* `initUartHardware`, `configureMcan0`, `configureMcan1` — the initialisations.
* `settings`, `plan` — what each device sets.
* `rival` — the device on the same pins.
-/

namespace Samrh71Drivers.Board

open Settings

/-! ## Registers -/

/-- `Pio_Port`, as far as the drivers use it. -/
inductive PioPort
  | a | b | c | f | g
  deriving DecidableEq

/-- `Pio_Control`, as far as the drivers use it. -/
inductive PioControl
  | pio | peripheralA | peripheralC
  deriving DecidableEq

/-- `Pio_Direction`. -/
inductive PioDirection
  | input | output
  deriving DecidableEq

/-- `Pio_Pull`, as far as the drivers use it. -/
inductive PioPull
  | none | up
  deriving DecidableEq

/-- `Pio_Irq`, as far as the drivers use it. -/
inductive PioIrq
  | edgeFalling | edgeBoth
  deriving DecidableEq

/-- `Pio_Current`, as far as the drivers use it. -/
inductive PioCurrent
  | mA2 | mA8
  deriving DecidableEq

/-- `Pio_Pin_Config`. -/
structure PinsConfig where
  control : PioControl
  direction : PioDirection
  pull : PioPull
  isOpenDrainEnabled : Bool
  irq : PioIrq
  isIrqEnabled : Bool
  driveStrength : PioCurrent
  isSchmittTriggerDisabled : Bool
  deriving DecidableEq

/-- `Pmc_PeripheralId`, as far as the drivers use it. -/
inductive PmcPeripheralId
  | flexcom0 | flexcom1 | flexcom2 | flexcom3 | flexcom4 | flexcom5 | flexcom6 | flexcom7
  | flexcom8 | flexcom9 | mcan0 | mcan1
  deriving DecidableEq

/-- What the drivers set: the configuration of a pin and the level it drives, a peripheral
clock, and a word in the address space. -/
inductive Register
  | pin (port : PioPort) (pin : ℕ)
  | level (port : PioPort) (pin : ℕ)
  | clock (id : PmcPeripheralId)
  | word (address : ℕ)
  deriving DecidableEq

/-- What a register is set to. -/
inductive Value
  | config (c : PinsConfig)
  | low
  | enabled
  | word (value : ℕ)
  deriving DecidableEq

/-- The hardware, as what has been set. -/
abbrev Hardware := Registers Register Value

/-- A call of `Pio_setPortConfig` for the pin `PIO_PIN_n`: only the last one for each pin is
recorded, not what the HAL does with it. The debounce filter of the port, which is always 0, is
left out. -/
def pioSetPortConfig (port : PioPort) (n : ℕ) (c : PinsConfig) (h : Hardware) : Hardware :=
  Function.update h (.pin port n) (some (.config c))

/-- A call of `Pio_resetPins` for the pin `PIO_PIN_n`, recorded as the last one that sets the
level of that pin. -/
def pioResetPins (port : PioPort) (n : ℕ) (h : Hardware) : Hardware :=
  Function.update h (.level port n) (some .low)

/-- A call of `SamRH71Core_EnablePeripheralClock`, recorded as the last one for that clock. -/
def enablePeripheralClock (id : PmcPeripheralId) (h : Hardware) : Hardware :=
  Function.update h (.clock id) (some .enabled)

/-! ## The serial driver -/

/-- `Samrh71RtemsSerial_UartPinConfig`; the mask is `PIO_PIN_n` for the pin `n`. -/
structure UartPinConfig where
  port : PioPort
  peripheralId : PmcPeripheralId
  pin : ℕ
  control : PioControl
  deriving DecidableEq

def getUartTxPinConfig : Serial.Init.Device → UartPinConfig
  | .uart0 => ⟨.c, .flexcom0, 21, .peripheralA⟩
  | .uart1 => ⟨.f, .flexcom1, 30, .peripheralA⟩
  | .uart2 => ⟨.a, .flexcom2, 2, .peripheralA⟩
  | .uart3 => ⟨.a, .flexcom3, 20, .peripheralA⟩
  | .uart4 => ⟨.c, .flexcom4, 0, .peripheralA⟩
  | .uart5 => ⟨.c, .flexcom5, 9, .peripheralA⟩
  | .uart6 => ⟨.b, .flexcom6, 6, .peripheralA⟩
  | .uart7 => ⟨.b, .flexcom7, 4, .peripheralA⟩
  | .uart8 => ⟨.a, .flexcom8, 27, .peripheralA⟩
  | .uart9 => ⟨.a, .flexcom9, 25, .peripheralA⟩

def getUartRxPinConfig : Serial.Init.Device → UartPinConfig
  | .uart0 => ⟨.c, .flexcom0, 22, .peripheralA⟩
  | .uart1 => ⟨.f, .flexcom1, 29, .peripheralA⟩
  | .uart2 => ⟨.a, .flexcom2, 6, .peripheralA⟩
  | .uart3 => ⟨.a, .flexcom3, 19, .peripheralA⟩
  | .uart4 => ⟨.c, .flexcom4, 1, .peripheralA⟩
  | .uart5 => ⟨.c, .flexcom5, 10, .peripheralA⟩
  | .uart6 => ⟨.b, .flexcom6, 7, .peripheralA⟩
  | .uart7 => ⟨.b, .flexcom7, 5, .peripheralA⟩
  | .uart8 => ⟨.a, .flexcom8, 28, .peripheralA⟩
  | .uart9 => ⟨.a, .flexcom9, 26, .peripheralA⟩

/-- The pin configuration of `initUartPin`. -/
def uartPinsConfig (c : UartPinConfig) (direction : PioDirection) : PinsConfig where
  control := c.control
  direction := direction
  pull := .up
  isOpenDrainEnabled := false
  irq := .edgeBoth
  isIrqEnabled := false
  driveStrength := .mA2
  isSchmittTriggerDisabled := false

def initUartPin (c : UartPinConfig) (direction : PioDirection) : Hardware → Hardware :=
  pioSetPortConfig c.port c.pin (uartPinsConfig c direction)

def initUartPio (device : Serial.Init.Device) (h : Hardware) : Hardware :=
  h |> initUartPin (getUartTxPinConfig device) .output
    |> initUartPin (getUartRxPinConfig device) .input

def getUartPeripheralId : Serial.Init.UartId → PmcPeripheralId
  | .id0 => .flexcom0
  | .id1 => .flexcom1
  | .id2 => .flexcom2
  | .id3 => .flexcom3
  | .id4 => .flexcom4
  | .id5 => .flexcom5
  | .id6 => .flexcom6
  | .id7 => .flexcom7
  | .id8 => .flexcom8
  | .id9 => .flexcom9

def initUartPmc (device : Serial.Init.Device) (h : Hardware) : Hardware :=
  let txPinConfig := getUartTxPinConfig device
  let rxPinConfig := getUartRxPinConfig device
  let h := enablePeripheralClock txPinConfig.peripheralId h
  let h := if rxPinConfig.peripheralId ≠ txPinConfig.peripheralId then
    enablePeripheralClock rxPinConfig.peripheralId h else h
  enablePeripheralClock (getUartPeripheralId (Serial.Init.getUartId device)) h

/-- `getFlexcomId`, as the value of the enumeration. -/
def getFlexcomId : Serial.Init.Device → ℕ
  | .uart0 => 0
  | .uart1 => 1
  | .uart2 => 2
  | .uart3 => 3
  | .uart4 => 4
  | .uart5 => 5
  | .uart6 => 6
  | .uart7 => 7
  | .uart8 => 8
  | .uart9 => 9

/-- `FLEXCOM_ADDRESS_BASE`. -/
def flexcomAddressBase : ℕ := 0x40010000

/-- `FLEXCOM_ADDRESS_OFFSET`. -/
def flexcomAddressOffset : ℕ := 0x4000

/-- `FLEXCOM_MODE_USART`. -/
def flexcomModeUsart : ℕ := 1

def uartInitFlexcom (device : Serial.Init.Device) (h : Hardware) : Hardware :=
  Function.update h (.word (flexcomAddressBase + flexcomAddressOffset * getFlexcomId device))
    (some (.word flexcomModeUsart))

/-- `initUartHardware`, as far as the registers are concerned. -/
def initUartHardware (device : Serial.Init.Device) (h : Hardware) : Hardware :=
  h |> initUartPmc device |> uartInitFlexcom device |> initUartPio device

/-! ## The CAN driver -/

/-- The configuration of the pins in `configurePioCan0` and `configurePioCan1`. -/
def canPinsConfig (control : PioControl) (direction : PioDirection) (pull : PioPull) :
    PinsConfig where
  control := control
  direction := direction
  pull := pull
  isOpenDrainEnabled := false
  irq := .edgeFalling
  isIrqEnabled := false
  driveStrength := .mA8
  isSchmittTriggerDisabled := false

/-- The body of `configurePioCan0` and of `configurePioCan1`: the pins of the controller are
on port B, and the standby pin of the transceiver is driven low. -/
def configurePioCan (tx rx : ℕ) (standbyPort : PioPort) (standby : ℕ) (h : Hardware) : Hardware :=
  h |> pioSetPortConfig .b tx (canPinsConfig .peripheralC .output .up)
    |> pioSetPortConfig .b rx (canPinsConfig .peripheralC .input .up)
    |> pioSetPortConfig standbyPort standby (canPinsConfig .pio .output .none)
    |> pioResetPins standbyPort standby

def configurePioCan0 : Hardware → Hardware := configurePioCan 6 7 .c 7

def configurePioCan1 : Hardware → Hardware := configurePioCan 4 5 .g 30

/-- `configureMcan0`, as far as these registers are concerned. -/
def configureMcan0 (h : Hardware) : Hardware :=
  h |> configurePioCan0 |> enablePeripheralClock .mcan0

/-- `configureMcan1`, as far as these registers are concerned. -/
def configureMcan1 (h : Hardware) : Hardware :=
  h |> configurePioCan1 |> enablePeripheralClock .mcan1

/-! ## The devices -/

/-- A device on the board. -/
inductive Device
  | uart (d : Serial.Init.Device)
  | can (i : Can.PeripheralId)
  deriving DecidableEq

/-- The initialisation of a device. -/
def initDevice (h : Hardware) : Device → Hardware
  | .uart d => initUartHardware d h
  | .can .mcan0 => configureMcan0 h
  | .can .mcan1 => configureMcan1 h

/-- The hardware after the initialisation of some devices. -/
def initDevices (ds : List Device) : Hardware := ds.foldl initDevice fun _ => none

/-- What a CAN controller needs to be set. -/
def canSettings (tx rx : ℕ) (standbyPort : PioPort) (standby : ℕ) (id : PmcPeripheralId) :
    List (Register × Value) :=
  [(.pin .b tx, .config (canPinsConfig .peripheralC .output .up)),
    (.pin .b rx, .config (canPinsConfig .peripheralC .input .up)),
    (.pin standbyPort standby, .config (canPinsConfig .pio .output .none)),
    (.level standbyPort standby, .low), (.clock id, .enabled)]

/-- What a device needs to be set. -/
def settings : Device → List (Register × Value)
  | .uart d => [
      (.clock (getUartPeripheralId (Serial.Init.getUartId d)), .enabled),
      (.word (flexcomAddressBase + flexcomAddressOffset * getFlexcomId d), .word flexcomModeUsart),
      (.pin (getUartTxPinConfig d).port (getUartTxPinConfig d).pin,
        .config (uartPinsConfig (getUartTxPinConfig d) .output)),
      (.pin (getUartRxPinConfig d).port (getUartRxPinConfig d).pin,
        .config (uartPinsConfig (getUartRxPinConfig d) .input))]
  | .can .mcan0 => canSettings 6 7 .c 7 .mcan0
  | .can .mcan1 => canSettings 4 5 .g 30 .mcan1

/-- A device has its pins, its clock and its mode. -/
def Configured (h : Hardware) (d : Device) : Prop := ∀ s ∈ settings d, h s.1 = some s.2

/-- The device on the same pins. -/
def rival : Device → Option Device
  | .uart .uart6 => some (.can .mcan0)
  | .can .mcan0 => some (.uart .uart6)
  | .uart .uart7 => some (.can .mcan1)
  | .can .mcan1 => some (.uart .uart7)
  | _ => none

/-- The pins of a UART share its clock. -/
theorem peripheralId_eq (d : Serial.Init.Device) :
    (getUartTxPinConfig d).peripheralId = getUartPeripheralId (Serial.Init.getUartId d) ∧
      (getUartRxPinConfig d).peripheralId = getUartPeripheralId (Serial.Init.getUartId d) := by
  cases d <;> exact ⟨rfl, rfl⟩

/-- **The initialisation of a device** sets what it needs, and nothing else. -/
theorem initDevice_eq_write (h : Hardware) (d : Device) :
    initDevice h d = write h (settings d) := by
  cases d with
  | uart d =>
    obtain ⟨htx, hrx⟩ := peripheralId_eq d
    simp only [initDevice, initUartHardware, initUartPmc, htx, hrx, ne_eq, not_true_eq_false,
      if_false, enablePeripheralClock, Function.update_idem]
    rfl
  | can i => cases i <;> rfl

/-! ## Who meets whom -/

/-- All devices. -/
def devices : List Device :=
  [.uart .uart0, .uart .uart1, .uart .uart2, .uart .uart3, .uart .uart4, .uart .uart5,
    .uart .uart6, .uart .uart7, .uart .uart8, .uart .uart9, .can .mcan0, .can .mcan1]

theorem mem_devices (d : Device) : d ∈ devices := by
  cases d with
  | uart d => cases d <;> decide
  | can i => cases i <;> decide

/-- **The tables.** No device sets a register twice, and no register gets one value from two
devices. -/
def plan : Plan Device Register Value where
  settings := settings
  ne_nil d := by
    cases d with
    | uart d => nofun
    | can i => cases i <;> nofun
  nodup d := (by decide : ∀ d ∈ devices, ((settings d).map Prod.fst).Nodup) d (mem_devices d)
  exclusive d d' := (by decide : ∀ d ∈ devices, ∀ d' ∈ devices, ∀ s ∈ settings d,
      s ∈ settings d' → d = d') d (mem_devices d) d' (mem_devices d')

/-- **The pins.** A device meets no other one than its rival. -/
theorem meets_iff (d d' : Device) : plan.Meets d d' ↔ d' = d ∨ rival d = some d' :=
  (by decide : ∀ d ∈ devices, ∀ d' ∈ devices, plan.Meets d d' ↔ d' = d ∨ rival d = some d')
    d (mem_devices d) d' (mem_devices d')

/-- The initialisations set up the plan. -/
theorem initDevices_eq_setUp (ds : List Device) : initDevices ds = plan.setUp ds := by
  have hinit : initDevice = fun h d => write h (settings d) := by
    funext h d
    exact initDevice_eq_write h d
  rw [initDevices, hinit]
  rfl

/-- No device is its own rival. -/
theorem rival_ne_self (d : Device) : rival d ≠ some d :=
  (by decide : ∀ d ∈ devices, rival d ≠ some d) d (mem_devices d)

/-- A device is configured exactly if what it has set is in force. -/
theorem configured_iff_inForce (ds : List Device) (d : Device) :
    Configured (initDevices ds) d ↔ plan.InForce (plan.setUp ds) d := by
  rw [initDevices_eq_setUp]
  rfl

/-- **The pins of a board.** After any initialisations, a device is configured exactly if it
has been initialised and its rival has not been since; and all devices are exactly if no two
of them are rivals. -/
theorem configured_iff (ds : List Device) :
    (∀ d, Configured (initDevices ds) d ↔
      (ds.filter fun d' => d' = d ∨ rival d = some d').getLast? = some d) ∧
    ((∀ d ∈ ds, Configured (initDevices ds) d) ↔ ∀ d ∈ ds, ∀ d' ∈ ds, rival d ≠ some d') := by
  constructor
  · intro d
    rw [configured_iff_inForce, Plan.inForce_iff]
    simp only [meets_iff]
  · simp only [configured_iff_inForce]
    rw [Plan.all_inForce_iff]
    simp only [meets_iff]
    constructor
    · intro h d hd d' hd' hrival
      obtain rfl := h d hd d' hd' (Or.inr hrival)
      exact rival_ne_self d hrival
    · rintro h d hd d' hd' (rfl | hrival)
      · rfl
      · exact absurd hrival (h d hd d' hd')

/-- Whichever of a UART and the controller on its pins comes last has them. -/
example : ¬ Configured (initDevices [.uart .uart6, .can .mcan0]) (.uart .uart6) ∧
    Configured (initDevices [.uart .uart6, .can .mcan0]) (.can .mcan0) := by
  constructor <;> simp only [Configured] <;> decide

end Samrh71Drivers.Board
