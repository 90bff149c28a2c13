import Samrh71Drivers.Can.Init
import Samrh71Drivers.Escaper.SendLoops

/-!
# Sending a message on the CAN bus

`SamRH71RtemsCanSend` and the functions it calls, as one call runs from its beginning to
its end or to a failed assertion. What the HAL and the wait for the TX semaphore return is
a parameter.

Initialisation bounds the message size, and `SamRH71RtemsCanSendFrame` bounds the length
of a frame. In dynamic-ID mode the first bound leaves room for a length byte which the
frame does not have: `frameLength_holds_iff` is the exact condition under which an
admitted message passes the second bound.

## Main definitions

* `Hal` — the calls of the HAL and of RTEMS.
* `samRH71RtemsCanSendFrame`, `samRH71RtemsCanSend` — the functions of the driver.
* `frameLength_holds_iff` — when an admitted message fits its frame.
-/

namespace Samrh71Drivers.Can

universe u v

/-- The assertions of `SamRH71RtemsCanSend` and of the functions it calls. -/
inductive SendAssertion
  | frameLength
  | push
  | transmissionFinished
  | unknownStaticId
  | dynamicIdLength
  | canIdLength
  | unknownAddress
  deriving DecidableEq

/-- `Mcan_IdType`. -/
inductive IdType
  | standard
  | extended
  deriving DecidableEq

/-- `Mcan_TxElement`, less the flags that are the same for every frame of the driver.
`data` is what can be read at the pointer, of which `dataSize` bytes are the frame. -/
structure TxElement where
  idType : IdType
  id : UInt32
  marker : ℕ
  isTxEventStored : Bool
  dataSize : ℕ
  data : List UInt8
  isInterruptEnabled : Bool
  deriving DecidableEq

/-- The data bytes of the frame. -/
def TxElement.payload (el : TxElement) : List UInt8 := el.data.take el.dataSize

/-- The HAL and RTEMS, as a send uses them, with their own state `H`. -/
structure Hal (H : Type v) where
  /-- `Mcan_txBufferAdd`. -/
  txBufferAdd : H → TxElement → ℕ → HalResult × H
  /-- `rtems_semaphore_obtain` on `m_tx_semaphore`, which may time out. -/
  obtainTxSemaphore : H → Bool × H
  /-- `Mcan_txBufferIsTransmissionFinished`. -/
  txBufferIsTransmissionFinished : H → ℕ → Bool

/-- What a send changes: the HAL, the frames given to `Mcan_txBufferAdd`, and the calls of
the user's error callback. -/
structure SendState (H : Type v) where
  hal : H
  added : List TxElement
  userErrors : ℕ

section Model

variable {E : Type u} {H : Type v}

/-- The element `SamRH71RtemsCanSendFrame` builds. -/
def txElement (idType : IdType) (id : UInt32) (data : List UInt8) (length : ℕ) : TxElement where
  idType := idType
  id := id
  marker := 1
  isTxEventStored := false
  dataSize := length
  data := data
  isInterruptEnabled := true

/-- `waitForTransmissionFinished`; `userErrorCallback` says whether one is registered. -/
def waitForTransmissionFinished (hal : Hal H) (userErrorCallback : Bool) (index : ℕ)
    (s : SendState H) : Bool × SendState H :=
  let (obtained, h) := hal.obtainTxSemaphore s.hal
  if obtained then (hal.txBufferIsTransmissionFinished h index, { s with hal := h })
  else (false, { s with
    hal := h
    userErrors := if userErrorCallback then s.userErrors + 1 else s.userErrors })

/-- `SamRH71RtemsCanSendFrame`, whose `length` parameter is a `uint8_t`. -/
def samRH71RtemsCanSendFrame (hal : Hal H) (userErrorCallback : Bool) (idType : IdType)
    (id : UInt32) (data : List UInt8) (length : ℕ) (s : SendState H) :
    Outcome SendAssertion (SendState H) :=
  let length := length % 256
  (Outcome.assert .frameLength (decide (length ≤ mcanMaxDataSize)) s).andThen fun s =>
  let el := txElement idType id data length
  let (pushed, h) := hal.txBufferAdd s.hal el 0
  (Outcome.assert .push (pushed.result && pushed.noError)
    { s with hal := h, added := s.added ++ [el] }).andThen fun s =>
  let (result, s) := waitForTransmissionFinished hal userErrorCallback 0 s
  Outcome.assert .transmissionFinished result s

/-- The ID type and the ID of a static address; `none` where the assertion on its kind
fails. -/
def staticIdTypeAndId : CanId → Option (IdType × UInt32)
  | .standard id => some (.standard, id.toUInt32)
  | .extended id => some (.extended, id.toUInt32)
  | .none => none

/-- The first four bytes as a `uint32_t`, least significant byte first; there are always four
bytes to read. -/
def nativeUInt32 : List UInt8 → UInt32
  | b₀ :: b₁ :: b₂ :: b₃ :: _ =>
    b₀.toUInt32 ||| b₁.toUInt32 <<< 8 ||| b₂.toUInt32 <<< 16 ||| b₃.toUInt32 <<< 24
  | _ => 0

/-- `CAN_EXTENDED_ID_BIT`. -/
def canExtendedIdBit : UInt32 := 0x20000000

/-- `getCanIdAndTypeFromMessageData`, after its assertion on the length. -/
def getCanIdAndTypeFromMessageData (data : List UInt8) : IdType × UInt32 :=
  let address := nativeUInt32 data
  if address &&& canExtendedIdBit ≠ 0 then (.extended, address &&& 0x1fffffff)
  else (.standard, address &&& 0x000007ff)

/-- `SamRH71RtemsCanSend`, with at most `fuel` tests of the loop over escaped packets. -/
def samRH71RtemsCanSend (X : Escaper E) (hal : Hal H) (userErrorCallback : Bool)
    (self : PrivateData) (data : List UInt8) (fuel : ℕ) (e : E) (s : SendState H) :
    Outcome SendAssertion (SendState H) :=
  match self.config.address with
  | .staticCanId address =>
    match staticIdTypeAndId address with
    | none => .asserted .unknownStaticId s
    | some (idType, id) =>
      if shouldUseEscaper self then
        sendEscapedFrames X data (fun s packet =>
          samRH71RtemsCanSendFrame hal userErrorCallback idType id packet packet.length s) fuel e s
      else samRH71RtemsCanSendFrame hal userErrorCallback idType id data data.length s
  | .applicationControlCanId _ =>
    (Outcome.assert .dynamicIdLength (decide (4 ≤ data.length)) s).andThen fun s =>
    (Outcome.assert .canIdLength (decide (4 ≤ data.length)) s).andThen fun s =>
    let (idType, id) := getCanIdAndTypeFromMessageData data
    samRH71RtemsCanSendFrame hal userErrorCallback idType id (data.drop 4) (data.length - 4) s
  | .none => .asserted .unknownAddress s

end Model

/-! ## The length of a frame -/

section FrameLength

variable {E : Type u} {H : Type v} {X : Escaper E} {hal : Hal H} {userErrorCallback : Bool}
  {self : PrivateData} {data : List UInt8} {fuel : ℕ} {e : E} {s : SendState H}

/-- The assertion of `SamRH71RtemsCanSendFrame` fails exactly when the length, as it
arrives there, is more than a frame holds. -/
theorem sendFrame_fails_frameLength {idType : IdType} {id : UInt32} {length : ℕ} :
    (samRH71RtemsCanSendFrame hal userErrorCallback idType id data length s).fails .frameLength ↔
      mcanMaxDataSize < length % 256 := by
  unfold samRH71RtemsCanSendFrame
  rw [Outcome.fails_andThen]
  constructor
  · rintro (h | ⟨t, -, h⟩)
    · simpa using h
    · -- no later assertion has this name
      rw [Outcome.fails_andThen] at h
      simp at h
  · intro h
    exact .inl (by simpa using h)

/-- A non-negative `int` is the same number as a `size_t`. -/
theorem toSizeT_of_nonneg {m : Int32} (h : 0 ≤ m.toInt) : (toSizeT m : ℤ) = m.toInt := by
  change ((m.toBitVec.toNat : ℕ) : ℤ) = m.toBitVec.toInt
  change 0 ≤ m.toBitVec.toInt at h
  rw [BitVec.toInt_eq_toNat_cond] at h ⊢
  split at h
  case isTrue hlt => rw [if_pos hlt]
  case isFalse => omega

variable (hal userErrorCallback fuel e s) in
/-- In static-ID mode a message that the bus admits goes out in frames that fit: the
Escaper takes over where it does not fit in one. -/
theorem static_not_fails_frameLength {address : CanId} (haddress : self.config.address =
    .staticCanId address) (hX : shouldUseEscaper self = true → X.bufferSize = mcanMaxDataSize)
    (hn : (data.length : ℤ) ≤ self.busMessageSize.toInt) :
    ¬ (samRH71RtemsCanSend X hal userErrorCallback self data fuel e s).fails .frameLength := by
  have hstatic : ifaceUsesStaticId self = true := by simp [ifaceUsesStaticId, haddress]
  simp only [samRH71RtemsCanSend, haddress]
  cases staticIdTypeAndId address with
  | none => simp
  | some target =>
    by_cases hesc : shouldUseEscaper self = true
    · simp only [hesc, if_true]
      refine sendEscapedFrames_not_fails (fun s packet hp => ?_) fuel e s
      rw [hX hesc] at hp
      rw [sendFrame_fails_frameLength, Nat.not_lt]
      exact Nat.le_trans (Nat.mod_le _ _) hp
    · have hsize : ¬ (mcanMaxDataSize : ℤ) < self.busMessageSize.toInt := by
        intro hlt
        exact hesc (by simp [shouldUseEscaper, hstatic, maxMessageSize, hlt])
      simp only [hesc]
      intro hf
      have hlt := sendFrame_fails_frameLength.mp hf
      have hmod := Nat.mod_le data.length 256
      omega

/-- In dynamic-ID mode the frame is the message without its first four bytes. -/
theorem dynamic_fails_frameLength {dummy : Bool}
    (haddress : self.config.address = .applicationControlCanId dummy) (h4 : 4 ≤ data.length) :
    (samRH71RtemsCanSend X hal userErrorCallback self data fuel e s).fails .frameLength ↔
      mcanMaxDataSize < (data.length - 4) % 256 := by
  simp only [samRH71RtemsCanSend, haddress, h4, decide_true, Outcome.assert_true,
    Outcome.andThen_returned]
  exact sendFrame_fails_frameLength

/-- **When a message fits its frame.** On a device whose initialisation has returned, a
message that the bus admits never fails the assertion on the frame length, except in
dynamic-ID mode, where it has to be one byte shorter than initialisation allows. -/
theorem frameLength_holds_iff {calls : InitCalls} {n : ℕ} {globals : Globals}
    {busMessageSize : Int32} {config : Conf} {b : Boot}
    (hinit : samRH71RtemsCanInit calls n globals busMessageSize config = .returned b)
    (hX : ∀ encoded decoded, b.self.escaper = some (encoded, decoded) → X.bufferSize = encoded)
    (hn : (data.length : ℤ) ≤ busMessageSize.toInt)
    (h4 : ifaceUsesDynamicId b.self = true → 4 ≤ data.length) :
    ¬ (samRH71RtemsCanSend X hal userErrorCallback b.self data fuel e s).fails .frameLength ↔
      (ifaceUsesDynamicId b.self = true → data.length ≤ 12) := by
  have hready := canInit_returned hinit
  rw [← hready.busMessageSize_eq] at hn
  cases haddress : b.self.config.address with
  | none => simp [samRH71RtemsCanSend, ifaceUsesDynamicId, haddress]
  | staticCanId address =>
    have hbuf : shouldUseEscaper b.self = true → X.bufferSize = mcanMaxDataSize := by
      intro hesc
      have hinited := hready.escaper_eq
      rw [if_pos hesc] at hinited
      exact hX _ _ hinited
    have hfits := static_not_fails_frameLength hal userErrorCallback fuel e s haddress hbuf hn
    simp [ifaceUsesDynamicId, haddress, hfits]
  | applicationControlCanId dummy =>
    have hdyn : ifaceUsesDynamicId b.self = true := by simp [ifaceUsesDynamicId, haddress]
    have hmax := hready.dynamicId_le hdyn
    have hsize := toSizeT_of_nonneg (m := b.self.busMessageSize) (by omega)
    rw [← hready.busMessageSize_eq] at hmax
    rw [dynamic_fails_frameLength haddress (h4 hdyn), mcanMaxDataSize]
    -- at most nine bytes are left, so the conversion to `uint8_t` changes nothing
    have hmod : (data.length - 4) % 256 = data.length - 4 := Nat.mod_eq_of_lt (by omega)
    rw [hmod]
    constructor
    · intro h _
      omega
    · intro h
      have := h hdyn
      omega

end FrameLength

/-! ## A message of thirteen bytes in dynamic-ID mode -/

/-- Every call during initialisation succeeds. -/
def initSucceeds : InitCalls :=
  ⟨⟨⟨true, true⟩, ⟨true, true⟩, ⟨true, true⟩, ⟨true, true⟩, ⟨true, true⟩⟩, true, true,
    ⟨true, true⟩, true, true⟩

/-- Every call during a send succeeds. -/
def sendSucceeds : Hal Unit :=
  ⟨fun _ _ _ => (⟨true, true⟩, ()), fun _ => (true, ()), fun _ _ => true⟩

/-- `mcan0` with an ID chosen by the application. -/
def dynamicIdConf : Conf := ⟨.mcan0, .pllaClock, 14, .applicationControlCanId true⟩

/-- The device after an initialisation on a bus with messages of up to 13 bytes. -/
def dynamicIdDevice : Outcome InitAssertion Boot :=
  samRH71RtemsCanInit initSucceeds 256 ⟨false, none⟩ 13 dynamicIdConf

/-- Twelve bytes are sent. -/
theorem twelve_bytes_fit : ∃ b, dynamicIdDevice = .returned b ∧
    ifaceUsesDynamicId b.self = true ∧
    ¬ (samRH71RtemsCanSend (stuffingEscaper byteStuffing 8) sendSucceeds false b.self
      (List.replicate 12 0) 0 0 ⟨(), [], 0⟩).fails .frameLength := by
  have hinit : dynamicIdDevice = .returned
      ⟨⟨true, some dynamicIdConf⟩, ⟨dynamicIdConf, 13, some ⟨false⟩, some ⟨false⟩, none, true⟩,
        [(.mcan0, .pllack, 14)]⟩ := rfl
  refine ⟨_, hinit, rfl, ?_⟩
  refine (frameLength_holds_iff hinit ?_ ?_ ?_).mpr ?_
  · intro encoded decoded h
    cases h
  · decide
  · intro _
    decide
  · intro _
    decide

/-- Initialisation admits messages of thirteen bytes and a send of one stops at the
assertion. -/
theorem thirteen_bytes_fail : ∃ b, dynamicIdDevice = .returned b ∧
    ¬ ∀ data : List UInt8, (data.length : ℤ) ≤ b.self.busMessageSize.toInt → 4 ≤ data.length →
      ¬ (samRH71RtemsCanSend (stuffingEscaper byteStuffing 8) sendSucceeds false b.self
        data 0 0 ⟨(), [], 0⟩).fails .frameLength := by
  refine ⟨_, rfl, fun h => ?_⟩
  refine h (List.replicate 13 0) ?_ ?_ ?_
  · decide
  · decide
  · exact rfl

end Samrh71Drivers.Can
