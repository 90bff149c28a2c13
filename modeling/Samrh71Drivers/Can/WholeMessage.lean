import Samrh71Drivers.Can.Codec

/-!
# Whole messages or none

`SamRH71RtemsCanSend` is to queue a message as a whole or to refuse it. With the Escaper it
does. Without it the length is converted to the `uint8_t` parameter of
`SamRH71RtemsCanSendFrame` before that function asserts that it is at most eight, so a long
message whose length is small modulo 256 passes the assertion and loses its end:
`send_whole_iff` has the exact condition.

## Main definitions

* `Hal.Succeeds` — the transmission of every frame succeeds.
* `Carries` — the frames carry the whole message.
* `WholeOrRefused` — what a call is to do.
* `frameLength` — the length a call passes to `SamRH71RtemsCanSendFrame`.
* `send_whole_iff` — when a call does what it is to do.
-/

namespace Samrh71Drivers.Can

universe u v

variable {E : Type u} {H : Type v}

/-- Every frame is taken and transmitted. -/
structure Hal.Succeeds (hal : Hal H) : Prop where
  txBufferAdd : ∀ h el index, (hal.txBufferAdd h el index).1 = ⟨true, true⟩
  obtainTxSemaphore : ∀ h, (hal.obtainTxSemaphore h).1 = true
  transmissionFinished : ∀ h index, hal.txBufferIsTransmissionFinished h index = true

/-- The frames carry the whole message: one frame with the message, or with all but its
header; or, with the Escaper, frames of one to eight bytes that make up the escaped
message. -/
def Carries {X : Escaper E} (F : Framing X) (self : PrivateData) (data : List UInt8)
    (frames : List TxElement) : Prop :=
  if shouldUseEscaper self then
    (∀ el ∈ frames, 1 ≤ el.payload.length ∧ el.payload.length ≤ mcanMaxDataSize) ∧
      (frames.map TxElement.payload).flatten = F.frame data
  else ∃ el, frames = [el] ∧
    el.payload = if ifaceUsesDynamicId self then data.drop 4 else data

/-- A call stops at an assertion and has queued nothing, or returns and has queued the whole
message. -/
def WholeOrRefused {X : Escaper E} (F : Framing X) (hal : Hal H) (userErrorCallback : Bool)
    (self : PrivateData) (data : List UInt8) (e : E) (s : SendState H) : Prop :=
  ∃ enough, ∀ fuel ≥ enough,
    (∃ a s', samRH71RtemsCanSend X hal userErrorCallback self data fuel e s = .asserted a s' ∧
      s'.added = s.added) ∨
    (∃ s' frames, samRH71RtemsCanSend X hal userErrorCallback self data fuel e s = .returned s' ∧
      s'.added = s.added ++ frames ∧ Carries F self data frames)

/-- The length a call passes to `SamRH71RtemsCanSendFrame` for a message that is to go out in
one frame, before the conversion to `uint8_t`. -/
def frameLength (self : PrivateData) (data : List UInt8) : Option ℕ :=
  match self.config.address with
  | .staticCanId address =>
    if (staticIdTypeAndId address).isSome ∧ shouldUseEscaper self = false then some data.length
    else none
  | .applicationControlCanId _ => if 4 ≤ data.length then some (data.length - 4) else none
  | .none => none

/-! ## One frame -/

section Frame

variable {hal : Hal H} {userErrorCallback : Bool} {idType : IdType} {id : UInt32}
  {data : List UInt8} {length : ℕ} {s : SendState H}

/-- A frame whose length passes the assertion is queued, and the call returns. -/
theorem sendFrame_returned (hhal : hal.Succeeds) (hle : length % 256 ≤ mcanMaxDataSize) :
    ∃ s', samRH71RtemsCanSendFrame hal userErrorCallback idType id data length s = .returned s' ∧
      s'.added = s.added ++ [txElement idType id data (length % 256)] := by
  simp only [samRH71RtemsCanSendFrame, hle, decide_true, Outcome.assert_true,
    Outcome.andThen_returned, hhal.txBufferAdd, Bool.and_self, waitForTransmissionFinished,
    hhal.obtainTxSemaphore, if_true, hhal.transmissionFinished]
  exact ⟨_, rfl, rfl⟩

/-- A frame whose length does not pass is refused. -/
theorem sendFrame_asserted (hlt : mcanMaxDataSize < length % 256) :
    samRH71RtemsCanSendFrame hal userErrorCallback idType id data length s =
      .asserted .frameLength s := by
  simp only [samRH71RtemsCanSendFrame, Nat.not_le.mpr hlt, decide_false, Outcome.assert_false,
    Outcome.andThen_asserted]

/-- The data bytes of a frame are the whole of what it was given, or the length was reduced. -/
theorem payload_txElement (idType : IdType) (id : UInt32) (data : List UInt8) :
    (txElement idType id data (data.length % 256)).payload = data ↔ data.length < 256 := by
  rw [TxElement.payload, txElement, List.take_eq_self_iff]
  constructor
  · intro h
    exact Nat.lt_of_le_of_lt h (Nat.mod_lt _ (by decide))
  · intro h
    rw [Nat.mod_eq_of_lt h]

/-- **One frame is queued whole or refused** exactly when its length is not reduced, or is
still refused after it has been. -/
theorem sendFrame_whole_iff (hhal : hal.Succeeds) :
    ((∃ a s', samRH71RtemsCanSendFrame hal userErrorCallback idType id data data.length s =
        .asserted a s' ∧ s'.added = s.added) ∨
      (∃ s' el, samRH71RtemsCanSendFrame hal userErrorCallback idType id data data.length s =
        .returned s' ∧ s'.added = s.added ++ [el] ∧ el.payload = data)) ↔
      data.length < 256 ∨ mcanMaxDataSize < data.length % 256 := by
  by_cases hle : data.length % 256 ≤ mcanMaxDataSize
  · have hqueued : ∃ s', samRH71RtemsCanSendFrame hal userErrorCallback idType id data data.length
        s = .returned s' ∧ s'.added = s.added ++ [txElement idType id data (data.length % 256)] :=
      sendFrame_returned hhal hle
    obtain ⟨s', hret, hadded⟩ := hqueued
    rw [hret]
    constructor
    · rintro (⟨a, t, h, -⟩ | ⟨t, el, h, hel, hpayload⟩)
      · cases h
      · cases h
        rw [hadded, List.append_cancel_left_eq, List.singleton_inj] at hel
        rw [← hel] at hpayload
        exact .inl ((payload_txElement idType id data).mp hpayload)
    · rintro (hlt | hlt)
      · exact .inr ⟨s', _, rfl, hadded, (payload_txElement idType id data).mpr hlt⟩
      · omega
  · have hlt := Nat.lt_of_not_le hle
    rw [sendFrame_asserted hlt]
    exact ⟨fun _ => .inr hlt, fun _ => .inl ⟨_, s, rfl, rfl⟩⟩

end Frame

/-! ## The call -/

section Call

variable {X : Escaper E} {F : Framing X} {hal : Hal H} {userErrorCallback : Bool}
  {self : PrivateData} {data : List UInt8} {e : E} {s : SendState H}

/-- With the Escaper the message is queued as a whole. -/
theorem whole_of_escaper (hhal : hal.Succeeds) (hesc : shouldUseEscaper self = true)
    (hX : X.bufferSize = mcanMaxDataSize) {address : CanId} {idType : IdType} {id : UInt32}
    (haddress : self.config.address = .staticCanId address)
    (htarget : staticIdTypeAndId address = some (idType, id)) :
    WholeOrRefused F hal userErrorCallback self data e s := by
  have hsend : ∀ (s : SendState H) (packet : List UInt8), packet.length ≤ X.bufferSize →
      ∃ s', samRH71RtemsCanSendFrame hal userErrorCallback idType id packet packet.length s =
        .returned s' ∧
          s'.added = s.added ++ [txElement idType id packet (packet.length % 256)] := by
    intro s packet hle
    rw [hX] at hle
    exact sendFrame_returned hhal (Nat.le_trans (Nat.mod_le _ _) hle)
  obtain ⟨enough, cs, s', hrun, hadded, hflat, hlen⟩ :=
    can_logs F (d := data) (e := e) (s := s) hsend
  have hpayload : ∀ c ∈ cs, (txElement idType id c (c.length % 256)).payload = c := by
    intro c hc
    have hle := (hlen c hc).2
    rw [hX, mcanMaxDataSize] at hle
    exact (payload_txElement idType id c).mpr (by omega)
  refine ⟨enough, ?_⟩
  intro fuel hfuel
  right
  refine ⟨s', cs.map fun c => txElement idType id c (c.length % 256), ?_, hadded, ?_⟩
  · simp only [samRH71RtemsCanSend, haddress, htarget, hesc, if_true]
    exact hrun fuel hfuel
  · rw [Carries, if_pos hesc]
    constructor
    · intro el hel
      obtain ⟨c, hc, rfl⟩ := List.mem_map.mp hel
      rw [hpayload c hc, ← hX]
      exact hlen c hc
    · rw [List.map_map, ← hflat]
      congr 1
      calc cs.map (TxElement.payload ∘ fun c => txElement idType id c (c.length % 256))
          = cs.map fun c => c := List.map_congr_left hpayload
        _ = cs := List.map_id' cs

/-- A call that ends as `o`, whatever fuel it has, and whose frames carry the message when
there is one of them with the data bytes `bytes`. -/
private theorem wholeOrRefused_iff {o : Outcome SendAssertion (SendState H)} {bytes : List UInt8}
    (ho : ∀ fuel, samRH71RtemsCanSend X hal userErrorCallback self data fuel e s = o)
    (hesc : shouldUseEscaper self = false)
    (hbytes : (if ifaceUsesDynamicId self then data.drop 4 else data) = bytes) :
    WholeOrRefused F hal userErrorCallback self data e s ↔
      (∃ a s', o = .asserted a s' ∧ s'.added = s.added) ∨
        ∃ s' el, o = .returned s' ∧ s'.added = s.added ++ [el] ∧ el.payload = bytes := by
  simp only [WholeOrRefused, ho, Carries, hesc, Bool.false_eq_true, if_false, hbytes]
  constructor
  · rintro ⟨enough, h⟩
    rcases h enough (Nat.le_refl _) with hrefused | ⟨s', frames, hret, hadded, el, rfl, hel⟩
    · exact .inl hrefused
    · exact .inr ⟨s', el, hret, hadded, hel⟩
  · rintro (hrefused | ⟨s', el, hret, hadded, hel⟩)
    · exact ⟨0, fun _ _ => .inl hrefused⟩
    · exact ⟨0, fun _ _ => .inr ⟨s', [el], hret, hadded, el, rfl, hel⟩⟩

/-- A call that stops at an assertion at once has refused the message. -/
private theorem wholeOrRefused_of_asserted {a : SendAssertion}
    (h : ∀ fuel, samRH71RtemsCanSend X hal userErrorCallback self data fuel e s = .asserted a s) :
    WholeOrRefused F hal userErrorCallback self data e s :=
  ⟨0, fun fuel _ => .inl ⟨a, s, h fuel, rfl⟩⟩

/-- In static-ID mode. -/
private theorem static_whole_iff {address : CanId} (hhal : hal.Succeeds)
    (haddress : self.config.address = .staticCanId address)
    (hX : shouldUseEscaper self = true → X.bufferSize = mcanMaxDataSize) :
    WholeOrRefused F hal userErrorCallback self data e s ↔
      ∀ k, frameLength self data = some k → k < 256 ∨ mcanMaxDataSize < k % 256 := by
  have hdyn : ifaceUsesDynamicId self = false := by simp [ifaceUsesDynamicId, haddress]
  cases htarget : staticIdTypeAndId address with
  | none =>
    have hrefused : WholeOrRefused F hal userErrorCallback self data e s :=
      wholeOrRefused_of_asserted (a := .unknownStaticId) fun fuel => by
        simp only [samRH71RtemsCanSend, haddress, htarget]
    simp [hrefused, frameLength, haddress, htarget]
  | some target =>
    cases hesc : shouldUseEscaper self with
    | true =>
      have hwhole : WholeOrRefused F hal userErrorCallback self data e s :=
        whole_of_escaper hhal hesc (hX hesc) haddress htarget
      simp [hwhole, frameLength, haddress, hesc]
    | false =>
      rw [wholeOrRefused_iff (o := samRH71RtemsCanSendFrame hal userErrorCallback target.1
          target.2 data data.length s) (fun fuel => by
            simp only [samRH71RtemsCanSend, haddress, htarget, hesc]
            rfl) hesc (if_neg (by simp [hdyn])), sendFrame_whole_iff hhal]
      simp [frameLength, haddress, htarget, hesc]

/-- With an application-controlled ID. -/
private theorem dynamic_whole_iff {dummy : Bool} (hhal : hal.Succeeds)
    (haddress : self.config.address = .applicationControlCanId dummy) :
    WholeOrRefused F hal userErrorCallback self data e s ↔
      ∀ k, frameLength self data = some k → k < 256 ∨ mcanMaxDataSize < k % 256 := by
  have hdyn : ifaceUsesDynamicId self = true := by simp [ifaceUsesDynamicId, haddress]
  have hesc : shouldUseEscaper self = false := by
    simp [shouldUseEscaper, ifaceUsesStaticId, haddress]
  by_cases h4 : 4 ≤ data.length
  · have hdrop : (data.drop 4).length = data.length - 4 := List.length_drop
    rw [wholeOrRefused_iff (o := samRH71RtemsCanSendFrame hal userErrorCallback
        (getCanIdAndTypeFromMessageData data).1 (getCanIdAndTypeFromMessageData data).2
        (data.drop 4) (data.drop 4).length s) (fun fuel => by
          simp only [samRH71RtemsCanSend, haddress, h4, decide_true, Outcome.assert_true,
            Outcome.andThen_returned, hdrop]) hesc (if_pos hdyn), sendFrame_whole_iff hhal, hdrop]
    simp [frameLength, haddress, h4]
  · have hrefused : WholeOrRefused F hal userErrorCallback self data e s :=
      wholeOrRefused_of_asserted (a := .dynamicIdLength) fun fuel => by
        simp only [samRH71RtemsCanSend, haddress, h4, decide_false, Outcome.assert_false,
          Outcome.andThen_asserted]
    simp [hrefused, frameLength, haddress, h4]

/-- **When a message is queued whole or refused.** On a device whose initialisation has
returned, where frames are transmitted, a call queues the whole message or refuses it
exactly when the length it passes on for a single frame is not reduced by the conversion to
`uint8_t`, or is refused all the same. -/
theorem send_whole_iff {calls : InitCalls} {n : ℕ} {globals : Globals} {busMessageSize : Int32}
    {config : Conf} {b : Boot}
    (hinit : samRH71RtemsCanInit calls n globals busMessageSize config = .returned b)
    (hX : ∀ encoded decoded, b.self.escaper = some (encoded, decoded) → X.bufferSize = encoded)
    (hhal : hal.Succeeds) :
    WholeOrRefused F hal userErrorCallback b.self data e s ↔
      ∀ k, frameLength b.self data = some k → k < 256 ∨ mcanMaxDataSize < k % 256 := by
  cases haddress : b.self.config.address with
  | none =>
    have hrefused : WholeOrRefused F hal userErrorCallback b.self data e s :=
      wholeOrRefused_of_asserted (a := .unknownAddress) fun fuel => by
        simp only [samRH71RtemsCanSend, haddress]
    simp [hrefused, frameLength, haddress]
  | staticCanId address =>
    refine static_whole_iff hhal haddress ?_
    intro hesc
    have hinited := (canInit_returned hinit).escaper_eq
    rw [if_pos hesc] at hinited
    exact hX _ _ hinited
  | applicationControlCanId dummy => exact dynamic_whole_iff hhal haddress

end Call

/-! ## A message of 256 bytes -/

theorem sendSucceeds_succeeds : sendSucceeds.Succeeds :=
  ⟨fun _ _ _ => rfl, fun _ => rfl, fun _ _ => rfl⟩

/-- `mcan0` with a static standard ID. -/
def staticIdConf : Conf := ⟨.mcan0, .pllaClock, 14, .staticCanId (.standard 5)⟩

/-- The device after an initialisation on a bus with messages of up to eight bytes. -/
def staticIdBoot : Outcome InitAssertion Boot :=
  samRH71RtemsCanInit initSucceeds 256 ⟨false, none⟩ 8 staticIdConf

/-- Messages of eight and of nine bytes: the first is queued, the second refused. -/
theorem send_whole_eight_nine : ∃ b, staticIdBoot = .returned b ∧
    WholeOrRefused (stuffingFraming byteStuffing 8 (by decide)) sendSucceeds false b.self
      (List.replicate 8 0) 0 ⟨(), [], 0⟩ ∧
    WholeOrRefused (stuffingFraming byteStuffing 8 (by decide)) sendSucceeds false b.self
      (List.replicate 9 0) 0 ⟨(), [], 0⟩ := by
  have hinit : staticIdBoot = .returned
      ⟨⟨true, some staticIdConf⟩, ⟨staticIdConf, 8, some ⟨false⟩, some ⟨false⟩, none, true⟩,
        [(.mcan0, .pllack, 14)]⟩ := rfl
  refine ⟨_, hinit, ?_, ?_⟩
  · refine (send_whole_iff hinit (by intro _ _ h; cases h) sendSucceeds_succeeds).mpr ?_
    intro k hk
    cases hk
    decide
  · refine (send_whole_iff hinit (by intro _ _ h; cases h) sendSucceeds_succeeds).mpr ?_
    intro k hk
    cases hk
    decide

/-- A message of 256 bytes is queued as an empty frame. -/
theorem send_256_bytes : ∃ b, staticIdBoot = .returned b ∧
    ¬ WholeOrRefused (stuffingFraming byteStuffing 8 (by decide)) sendSucceeds false b.self
      (List.replicate 256 0) 0 ⟨(), [], 0⟩ := by
  refine ⟨⟨⟨true, some staticIdConf⟩,
    ⟨staticIdConf, 8, some ⟨false⟩, some ⟨false⟩, none, true⟩, [(.mcan0, .pllack, 14)]⟩, rfl, ?_⟩
  intro h
  rw [static_whole_iff sendSucceeds_succeeds rfl (fun h => by cases h)] at h
  have hlen : ∀ data : List UInt8, frameLength
      ⟨staticIdConf, 8, some ⟨false⟩, some ⟨false⟩, none, true⟩ data = some data.length :=
    fun _ => rfl
  have hreduced := h 256 (by rw [hlen, List.length_replicate])
  exact absurd hreduced (by decide)

end Samrh71Drivers.Can
