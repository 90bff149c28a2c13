import Samrh71Drivers.Lib.Loan
import Samrh71Drivers.Can.System
import Mathlib.Data.Nat.Bitwise

/-!
# Messages with an application-controlled ID

With application-controlled IDs a message begins with a header of four bytes, from which
`SamRH71RtemsCanSend` takes the type and the ID of the frame and which
`SamRH71RtemsCanPoll` builds from them. The header has more values than there are IDs:
sending and receiving makes it canonical, and a canonical header comes back unchanged.

The bit masks of the two functions are remainders and sums of powers of two, which is how
the two directions are compared.

## Main definitions

* `canonicalHeader` — a header with the bits cleared that no ID has.
* `storeValueBuffer` — the message as it is put together in `m_value_buffer`.
* `TxElement.received` — the frame at the other node.
* `dynamicId_codec`, `dynamicId_codec_received` — the two round trips.
-/

namespace Samrh71Drivers.Can

open Lending

universe u v

/-! ## A word and its bytes -/

/-- A disjunction of bits that do not overlap is a sum. -/
private theorem or_shiftLeft {a i : ℕ} (h : a < 2 ^ i) (b : ℕ) : a ||| b <<< i = a + b * 2 ^ i := by
  rw [Nat.or_comm, ← Nat.shiftLeft_add_eq_or_of_lt h, Nat.shiftLeft_eq, Nat.add_comm]

/-- The value of a word in memory. -/
theorem toNat_nativeUInt32 (b₀ b₁ b₂ b₃ : UInt8) (bs : List UInt8) :
    (nativeUInt32 (b₀ :: b₁ :: b₂ :: b₃ :: bs)).toNat =
      b₀.toNat + b₁.toNat * 2 ^ 8 + b₂.toNat * 2 ^ 16 + b₃.toNat * 2 ^ 24 := by
  have h₀ := b₀.toNat_lt
  have h₁ := b₁.toNat_lt
  have h₂ := b₂.toNat_lt
  have h₃ := b₃.toNat_lt
  -- no byte is shifted out of the word
  have hshift : ∀ (b : UInt8) (i : ℕ), i ≤ 24 → b.toNat <<< i % 2 ^ 32 = b.toNat <<< i := by
    intro b i hi
    rw [Nat.shiftLeft_eq]
    apply Nat.mod_eq_of_lt
    calc b.toNat * 2 ^ i
        < 2 ^ 8 * 2 ^ i := Nat.mul_lt_mul_of_pos_right b.toNat_lt (Nat.two_pow_pos i)
      _ ≤ 2 ^ 8 * 2 ^ 24 := Nat.mul_le_mul_left _ (Nat.pow_le_pow_right (by omega) hi)
  simp only [nativeUInt32, UInt32.toNat_or, UInt32.toNat_shiftLeft, UInt8.toNat_toUInt32,
    UInt32.reduceToNat, Nat.reduceMod]
  rw [hshift _ _ (by omega), hshift _ _ (by omega), hshift _ _ (by omega)]
  have hor₁ := or_shiftLeft h₀ b₁.toNat
  have hor₂ := or_shiftLeft (a := b₀.toNat + b₁.toNat * 2 ^ 8) (i := 16) (by omega) b₂.toNat
  have hor₃ := or_shiftLeft (a := b₀.toNat + b₁.toNat * 2 ^ 8 + b₂.toNat * 2 ^ 16) (i := 24)
    (by omega) b₃.toNat
  rw [hor₁, hor₂, hor₃]

/-- The bytes of a word, as numbers. -/
private theorem toNat_nativeBytes (w : UInt32) : (nativeBytes w).map UInt8.toNat =
    [w.toNat % 2 ^ 8, w.toNat / 2 ^ 8 % 2 ^ 8, w.toNat / 2 ^ 16 % 2 ^ 8,
      w.toNat / 2 ^ 24 % 2 ^ 8] := by
  simp only [nativeBytes, List.map_cons, List.map_nil, UInt32.toNat_toUInt8,
    UInt32.toNat_shiftRight, Nat.shiftRight_eq_div_pow, UInt32.reduceToNat, Nat.reduceMod]

/-- Reading back the bytes of a word. -/
theorem nativeUInt32_nativeBytes (w : UInt32) (bs : List UInt8) :
    nativeUInt32 (nativeBytes w ++ bs) = w := by
  apply UInt32.toNat_inj.mp
  have hw := w.toNat_lt
  have hbytes := toNat_nativeBytes w
  simp only [nativeBytes, List.map_cons, List.map_nil, List.cons.injEq, and_true] at hbytes
  rcases hbytes with ⟨h₀, h₁, h₂, h₃⟩
  simp only [nativeBytes, List.cons_append, toNat_nativeUInt32, h₀, h₁, h₂, h₃]
  omega

/-- The bytes of the word that was read. -/
theorem nativeBytes_nativeUInt32 {data : List UInt8} (h4 : 4 ≤ data.length) :
    nativeBytes (nativeUInt32 data) ++ data.drop 4 = data := by
  match data, h4 with
  | b₀ :: b₁ :: b₂ :: b₃ :: bs, _ =>
    have hw := toNat_nativeUInt32 b₀ b₁ b₂ b₃ bs
    have h₀ := b₀.toNat_lt
    have h₁ := b₁.toNat_lt
    have h₂ := b₂.toNat_lt
    have h₃ := b₃.toNat_lt
    have hbytes : nativeBytes (nativeUInt32 (b₀ :: b₁ :: b₂ :: b₃ :: bs)) = [b₀, b₁, b₂, b₃] := by
      apply List.map_injective_iff.mpr fun _ _ => UInt8.toNat_inj.mp
      rw [toNat_nativeBytes, hw]
      simp only [List.map_cons, List.map_nil, List.cons.injEq, and_true]
      omega
    rw [hbytes]
    rfl

@[simp] theorem length_nativeBytes (w : UInt32) : (nativeBytes w).length = 4 := rfl

/-! ## Headers -/

/-- The header with bits 30 and 31 cleared, and bits 11 to 28 where bit 29 is clear. -/
def canonicalHeader (h : UInt32) : UInt32 :=
  if h &&& canExtendedIdBit ≠ 0 then h &&& 0x3fffffff else h &&& 0x3fffffff &&& 0xe00007ff

/-- A mask of the low bits is a remainder. -/
private theorem toNat_and_mask {h mask : UInt32} {n : ℕ} (hm : mask.toNat = 2 ^ n - 1) :
    (h &&& mask).toNat = h.toNat % 2 ^ n := by
  rw [UInt32.toNat_and, hm, Nat.and_two_pow_sub_one_eq_mod]

private theorem toNat_and_canExtendedIdBit (h : UInt32) :
    (h &&& canExtendedIdBit).toNat = (h.toNat.testBit 29).toNat * 2 ^ 29 := by
  rw [UInt32.toNat_and, show canExtendedIdBit.toNat = 2 ^ 29 from rfl, Nat.and_two_pow]

/-- The extended-ID flag is bit 29. -/
theorem and_canExtendedIdBit (h : UInt32) :
    h &&& canExtendedIdBit ≠ 0 ↔ h.toNat.testBit 29 = true := by
  rw [ne_eq, ← UInt32.toNat_inj, toNat_and_canExtendedIdBit, UInt32.toNat_zero]
  cases h.toNat.testBit 29 <;> simp

/-- What the sender makes of a header. -/
theorem getCanId_of_flag {data : List UInt8} (hf : (nativeUInt32 data).toNat.testBit 29 = true) :
    getCanIdAndTypeFromMessageData data = (.extended, nativeUInt32 data &&& 0x1fffffff) :=
  if_pos ((and_canExtendedIdBit _).mpr hf)

theorem getCanId_of_no_flag {data : List UInt8}
    (hf : (nativeUInt32 data).toNat.testBit 29 = false) :
    getCanIdAndTypeFromMessageData data = (.standard, nativeUInt32 data &&& 0x7ff) := by
  refine if_neg fun hc => ?_
  rw [(and_canExtendedIdBit _).mp hc] at hf
  cases hf

/-- With the flag the canonical header is the extended ID and the flag. -/
theorem canonicalHeader_of_flag {h : UInt32} (hf : h.toNat.testBit 29 = true) :
    canonicalHeader h = (h &&& 0x1fffffff) ||| canExtendedIdBit := by
  rw [canonicalHeader, if_pos ((and_canExtendedIdBit h).mpr hf)]
  apply UInt32.toNat_inj.mp
  have hor := or_shiftLeft (a := h.toNat % 2 ^ 29) (i := 29) (Nat.mod_lt _ (Nat.two_pow_pos 29)) 1
  rw [toNat_and_mask (n := 30) rfl, UInt32.toNat_or, toNat_and_mask (n := 29) rfl,
    show canExtendedIdBit.toNat = 1 <<< 29 from rfl, hor]
  rw [Nat.testBit_eq_decide_div_mod_eq, decide_eq_true_iff] at hf
  omega

/-- Without the flag the canonical header is the standard ID. -/
theorem canonicalHeader_of_no_flag {h : UInt32} (hf : h.toNat.testBit 29 = false) :
    canonicalHeader h = h &&& 0x7ff := by
  have hzero : h &&& canExtendedIdBit = 0 := by
    by_contra hc
    rw [(and_canExtendedIdBit h).mp hc] at hf
    cases hf
  rw [canonicalHeader, if_neg (not_not.mpr hzero), UInt32.and_assoc,
    show (0x3fffffff : UInt32) &&& 0xe00007ff = canExtendedIdBit ||| 0x7ff from rfl]
  have hdistrib : h &&& (canExtendedIdBit ||| 0x7ff) = h &&& canExtendedIdBit ||| h &&& 0x7ff :=
    UInt32.toBitVec_inj.mp BitVec.and_or_distrib_left
  rw [hdistrib, hzero, UInt32.zero_or]

/-! ## The receiver's buffer -/

/-- `m_value_buffer`, seen through `m_data`: the header is written through `m_address`, and
the data bytes are copied behind it. -/
def storeValueBuffer (m : Store Unit UInt8) (el : RxElement) : Store Unit UInt8 :=
  let canId := if el.idType = .extended then el.id ||| canExtendedIdBit else el.id
  (m.copy () 0 (nativeBytes canId)).copy () 4 el.data

/-- The two writes do not overlap, and the Broker reads what they have written. -/
theorem bytes_storeValueBuffer (m : Store Unit UInt8) (el : RxElement) :
    (storeValueBuffer m el).bytes () 0 (4 + el.data.length) = valueBuffer el := by
  simp only [storeValueBuffer, valueBuffer]
  rw [Store.bytes_add, Nat.zero_add, Store.bytes_copy, Store.bytes_copy_of_le _ _ _ (Nat.le_refl 4)]
  congr 1

/-- The frame as the other node receives it. -/
def TxElement.received (el : TxElement) : RxElement := ⟨el.idType, el.id, el.payload⟩

/-- A frame an `Mcan` can receive: the ID fits its type, and there are at most eight bytes. -/
def RxElement.valid (el : RxElement) : Prop :=
  el.id.toNat < (match el.idType with
    | .standard => 2 ^ 11
    | .extended => 2 ^ 29) ∧ el.data.length ≤ mcanMaxDataSize

/-! ## The sender -/

section Codec

variable {E : Type u} {H : Type v} {X : Escaper E} {hal : Hal H} {userErrorCallback : Bool}
  {self : PrivateData} {data : List UInt8} {fuel : ℕ} {e : E} {s : SendState H}

/-- Waiting for the end of a transmission queues nothing. -/
@[simp] theorem added_waitForTransmissionFinished (hal : Hal H) (userErrorCallback : Bool)
    (index : ℕ) (s : SendState H) :
    (waitForTransmissionFinished hal userErrorCallback index s).2.added = s.added := by
  simp only [waitForTransmissionFinished]
  split <;> rfl

/-- **What `SamRH71RtemsCanSendFrame` queues**: the frame, if its length passes the assertion
as the `uint8_t` it arrives as, and nothing otherwise. -/
theorem sendFrame_added (hal : Hal H) (userErrorCallback : Bool) (idType : IdType) (id : UInt32)
    (data : List UInt8) (length : ℕ) (s : SendState H) :
    ∃ s', (samRH71RtemsCanSendFrame hal userErrorCallback idType id data length s).final =
        some s' ∧ s'.added = if length % 256 ≤ mcanMaxDataSize then
          s.added ++ [txElement idType id data (length % 256)] else s.added := by
  simp only [samRH71RtemsCanSendFrame, Outcome.final_assert_andThen, Outcome.final_assert,
    decide_eq_true_eq]
  by_cases hle : length % 256 ≤ mcanMaxDataSize
  · rw [if_pos hle, if_pos hle]
    split
    · exact ⟨_, rfl, added_waitForTransmissionFinished _ _ _ _⟩
    · exact ⟨_, rfl, rfl⟩
  · rw [if_neg hle, if_neg hle]
    exact ⟨s, rfl, rfl⟩

/-- The frame of a message with an application-controlled ID. -/
def dynamicIdFrame (data : List UInt8) : TxElement :=
  txElement (getCanIdAndTypeFromMessageData data).1 (getCanIdAndTypeFromMessageData data).2
    (data.drop 4) (data.length - 4)

variable (X hal userErrorCallback fuel e s) in
/-- A message of four to twelve bytes is queued as one frame. -/
theorem dynamicId_added (hself : ifaceUsesDynamicId self = true) (h4 : 4 ≤ data.length)
    (h12 : data.length ≤ 12) :
    ∃ s', (samRH71RtemsCanSend X hal userErrorCallback self data fuel e s).final = some s' ∧
      s'.added = s.added ++ [dynamicIdFrame data] := by
  have hmod : (data.length - 4) % 256 = data.length - 4 := Nat.mod_eq_of_lt (by omega)
  have hfits : data.length - 4 ≤ mcanMaxDataSize := by
    rw [mcanMaxDataSize]
    omega
  cases haddress : self.config.address with
  | none => simp [ifaceUsesDynamicId, haddress] at hself
  | staticCanId address => simp [ifaceUsesDynamicId, haddress] at hself
  | applicationControlCanId dummy =>
    simp only [samRH71RtemsCanSend, haddress, h4, decide_true, Outcome.assert_true,
      Outcome.andThen_returned]
    have hframe := sendFrame_added hal userErrorCallback (getCanIdAndTypeFromMessageData data).1
      (getCanIdAndTypeFromMessageData data).2 (data.drop 4) (data.length - 4) s
    rwa [hmod, if_pos hfits] at hframe

/-- The data bytes of that frame are the message without its header. -/
theorem payload_dynamicIdFrame (data : List UInt8) :
    (dynamicIdFrame data).payload = data.drop 4 := by
  simp [dynamicIdFrame, txElement, TxElement.payload]

/-- The type and the ID of that frame. -/
theorem id_dynamicIdFrame (data : List UInt8) :
    if (nativeUInt32 data).toNat.testBit 29 then
      (dynamicIdFrame data).idType = .extended ∧
        (dynamicIdFrame data).id.toNat = (nativeUInt32 data).toNat % 2 ^ 29
    else
      (dynamicIdFrame data).idType = .standard ∧
        (dynamicIdFrame data).id.toNat = (nativeUInt32 data).toNat % 2 ^ 11 := by
  cases hf : (nativeUInt32 data).toNat.testBit 29 with
  | true =>
    rw [if_pos rfl, dynamicIdFrame, getCanId_of_flag hf]
    exact ⟨rfl, toNat_and_mask rfl⟩
  | false =>
    rw [if_neg Bool.false_ne_true, dynamicIdFrame, getCanId_of_no_flag hf]
    exact ⟨rfl, toNat_and_mask rfl⟩

/-! ## The round trips -/

/-- **From the message to the frame and back**: the header becomes canonical. -/
theorem valueBuffer_received (data : List UInt8) :
    valueBuffer (dynamicIdFrame data).received =
      nativeBytes (canonicalHeader (nativeUInt32 data)) ++ data.drop 4 := by
  simp only [valueBuffer, TxElement.received, payload_dynamicIdFrame]
  congr 2
  cases hf : (nativeUInt32 data).toNat.testBit 29 with
  | true =>
    rw [dynamicIdFrame, getCanId_of_flag hf, canonicalHeader_of_flag hf]
    rfl
  | false =>
    rw [dynamicIdFrame, getCanId_of_no_flag hf, canonicalHeader_of_no_flag hf]
    rfl

/-- **From the frame to the message and back.** -/
theorem received_valueBuffer {el : RxElement} (hel : el.valid) :
    (dynamicIdFrame (valueBuffer el)).received = el := by
  rcases el with ⟨idType, id, bytes⟩
  have hdrop : (valueBuffer ⟨idType, id, bytes⟩).drop 4 = bytes := rfl
  cases idType with
  | extended =>
    have hid : id.toNat < 2 ^ 29 := hel.1
    have hor := or_shiftLeft (a := id.toNat) (i := 29) hid 1
    have hword : (id ||| canExtendedIdBit).toNat = id.toNat + 2 ^ 29 := by
      rw [UInt32.toNat_or, show canExtendedIdBit.toNat = 1 <<< 29 from rfl, hor, Nat.one_mul]
    have hnative : nativeUInt32 (valueBuffer ⟨.extended, id, bytes⟩) = id ||| canExtendedIdBit :=
      nativeUInt32_nativeBytes _ _
    have hf : (nativeUInt32 (valueBuffer ⟨.extended, id, bytes⟩)).toNat.testBit 29 = true := by
      rw [hnative, hword, Nat.testBit_eq_decide_div_mod_eq, decide_eq_true_iff]
      omega
    have hback : (id ||| canExtendedIdBit) &&& 0x1fffffff = id := by
      apply UInt32.toNat_inj.mp
      rw [toNat_and_mask (n := 29) rfl, hword]
      omega
    simp only [TxElement.received, payload_dynamicIdFrame, hdrop]
    rw [dynamicIdFrame, getCanId_of_flag hf, hnative, hback]
    rfl
  | standard =>
    have hid : id.toNat < 2 ^ 11 := hel.1
    have hnative : nativeUInt32 (valueBuffer ⟨.standard, id, bytes⟩) = id :=
      nativeUInt32_nativeBytes _ _
    have hf : (nativeUInt32 (valueBuffer ⟨.standard, id, bytes⟩)).toNat.testBit 29 = false := by
      rw [hnative, Nat.testBit_eq_decide_div_mod_eq, decide_eq_false_iff_not]
      omega
    have hback : id &&& 0x7ff = id := by
      apply UInt32.toNat_inj.mp
      rw [toNat_and_mask (n := 11) rfl]
      exact Nat.mod_eq_of_lt hid
    simp only [TxElement.received, payload_dynamicIdFrame, hdrop]
    rw [dynamicIdFrame, getCanId_of_no_flag hf, hnative, hback]
    rfl

/-- A node with application-controlled IDs passes the message in `m_value_buffer` on. -/
theorem handOver_of_dynamicId (hself : ifaceUsesDynamicId self = true) (el : RxElement) :
    handOver self el = .receivePacket (valueBuffer el) := by
  have hesc : shouldUseEscaper self = false := by
    cases haddress : self.config.address <;>
      simp_all [shouldUseEscaper, ifaceUsesStaticId, ifaceUsesDynamicId]
  rw [handOver, if_neg (by simp [hesc]), if_pos hself]

/-- The message of a frame is four to twelve bytes long. -/
theorem length_valueBuffer {el : RxElement} (hel : el.valid) :
    4 ≤ (valueBuffer el).length ∧ (valueBuffer el).length ≤ 12 := by
  have hlen := hel.2
  rw [mcanMaxDataSize] at hlen
  simp only [valueBuffer, List.length_append, length_nativeBytes]
  omega

variable (X hal userErrorCallback fuel e s) in
/-- **The two codecs are inverse to each other**, for two nodes with application-controlled
IDs. A message of four to twelve bytes is queued as one frame, from which the receiver
builds the message with its header made canonical; and the message built from a frame is
queued as that frame. -/
theorem dynamicId_codec {self' : PrivateData} (hself : ifaceUsesDynamicId self = true)
    (hself' : ifaceUsesDynamicId self' = true) (m : Store Unit UInt8) :
    (∀ data : List UInt8, 4 ≤ data.length → data.length ≤ 12 →
      ∃ s' el, (samRH71RtemsCanSend X hal userErrorCallback self data fuel e s).final = some s' ∧
        s'.added = s.added ++ [el] ∧
        (if (nativeUInt32 data).toNat.testBit 29 then
          el.idType = .extended ∧ el.id.toNat = (nativeUInt32 data).toNat % 2 ^ 29
        else el.idType = .standard ∧ el.id.toNat = (nativeUInt32 data).toNat % 2 ^ 11) ∧
        el.payload = data.drop 4 ∧
        handOver self' el.received = .receivePacket
          ((storeValueBuffer m el.received).bytes () 0 (4 + el.received.data.length)) ∧
        (storeValueBuffer m el.received).bytes () 0 (4 + el.received.data.length) =
          nativeBytes (canonicalHeader (nativeUInt32 data)) ++ data.drop 4 ∧
        (canonicalHeader (nativeUInt32 data) = nativeUInt32 data →
          handOver self' el.received = .receivePacket data)) ∧
    (∀ el : RxElement, el.valid →
      ∃ message s' el', handOver self' el = .receivePacket message ∧
        (samRH71RtemsCanSend X hal userErrorCallback self message fuel e s).final = some s' ∧
        s'.added = s.added ++ [el'] ∧ el'.received = el) := by
  constructor
  · intro data h4 h12
    obtain ⟨s', hfinal, hadded⟩ := dynamicId_added X hal userErrorCallback fuel e s hself h4 h12
    refine ⟨s', dynamicIdFrame data, hfinal, hadded, id_dynamicIdFrame data,
      payload_dynamicIdFrame data, ?_, ?_, ?_⟩
    · rw [handOver_of_dynamicId hself', bytes_storeValueBuffer]
    · rw [bytes_storeValueBuffer, valueBuffer_received]
    · intro hcanonical
      rw [handOver_of_dynamicId hself', valueBuffer_received, hcanonical,
        nativeBytes_nativeUInt32 h4]
  · intro el hel
    rcases length_valueBuffer hel with ⟨h4, h12⟩
    obtain ⟨s', hfinal, hadded⟩ := dynamicId_added X hal userErrorCallback fuel e s hself h4 h12
    exact ⟨valueBuffer el, s', dynamicIdFrame (valueBuffer el), handOver_of_dynamicId hself' el,
      hfinal, hadded, received_valueBuffer hel⟩

end Codec

/-- A device with IDs chosen by the application. -/
def dynamicIdNode : PrivateData :=
  ⟨dynamicIdConf, 12, some ⟨false⟩, some ⟨false⟩, none, true⟩

/-- A message whose header has bit 31 and the flag set, and an extended frame. -/
theorem dynamicId_codec_extended :
    (∃ s' el, (samRH71RtemsCanSend (stuffingEscaper byteStuffing 8) sendSucceeds false
        dynamicIdNode [1, 2, 3, 0xa4, 5] 0 0 ⟨(), [], 0⟩).final = some s' ∧ s'.added = [el] ∧
        handOver dynamicIdNode el.received = .receivePacket [1, 2, 3, 0x24, 5]) ∧
    ∃ message s' el', handOver dynamicIdNode ⟨.extended, 0x1fffffff, [7]⟩ =
        .receivePacket message ∧
      (samRH71RtemsCanSend (stuffingEscaper byteStuffing 8) sendSucceeds false dynamicIdNode
        message 0 0 ⟨(), [], 0⟩).final = some s' ∧
      s'.added = [el'] ∧ el'.received = ⟨.extended, 0x1fffffff, [7]⟩ := by
  have hself : ifaceUsesDynamicId dynamicIdNode = true := rfl
  rcases dynamicId_codec (stuffingEscaper byteStuffing 8) sendSucceeds false 0 0 ⟨(), [], 0⟩
    hself hself (fun _ _ => 0) with ⟨hsend, hpoll⟩
  constructor
  · obtain ⟨s', el, hfinal, hadded, -, -, hover, hbytes, -⟩ :=
      hsend [1, 2, 3, 0xa4, 5] (by decide) (by decide)
    exact ⟨s', el, hfinal, hadded, by rw [hover, hbytes]; rfl⟩
  · exact hpoll ⟨.extended, 0x1fffffff, [7]⟩ ⟨by decide, by decide⟩

end Samrh71Drivers.Can
