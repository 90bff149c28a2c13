import Samrh71Drivers.Lib.Stuffing

/-!
# The Escaper, as the drivers use it

The Escaper is a library of the runtime. The drivers give it an encode buffer in
`Escaper_init`, begin a message with `Escaper_start_encoder` and then call
`Escaper_encode_packet` repeatedly; each call puts the next piece of the escaped
message in the buffer, returns its length and moves the input index.

`Escaper` is that interface and nothing more: a piece fits the buffer. `Framing` adds
what the two send loops rely on: the pieces are the successive buffer-sized pieces of
one frame.

## Main definitions

* `Escaper E` — the encoder, with its own state `E`.
* `Framing X` — `X` cuts the frame of each message wherever the buffer is full.
* `stuffingEscaper` — an encoder that satisfies `Framing`, for any stuffing code.
-/

namespace Samrh71Drivers

universe u

/-- What one call of `Escaper_encode_packet` leaves: the bytes it has put in the encode
buffer, the input index, and the encoder. -/
structure EncodeResult (E : Type u) where
  packet : List UInt8
  index : ℕ
  escaper : E

/-- The encoder half of the Escaper after `Escaper_init` with an encode buffer of
`bufferSize` bytes. -/
structure Escaper (E : Type u) where
  bufferSize : ℕ
  /-- `Escaper_start_encoder`. -/
  startEncoder : E → E
  /-- `Escaper_encode_packet` on the message `data` from the input index `index`. -/
  encodePacket : E → (data : List UInt8) → (index : ℕ) → EncodeResult E
  packet_le : ∀ e data index, (encodePacket e data index).packet.length ≤ bufferSize

/-- The encoder `X` returns the frame of each message in order, a buffer at a time.
`Returned d e p` says that `e` has returned the first `p` bytes of the frame of `d`,
and `consumed d p` is the input index at that point. -/
structure Framing {E : Type u} (X : Escaper E) where
  startByte : UInt8
  stopByte : UInt8
  /-- The escaped message between the two delimiters. -/
  body : List UInt8 → List UInt8
  consumed : List UInt8 → ℕ → ℕ
  Returned : List UInt8 → E → ℕ → Prop
  bufferSize_pos : 0 < X.bufferSize
  consumed_zero : ∀ d, consumed d 0 = 0
  /-- Input is left as long as more than the stop byte has to be returned. -/
  consumed_lt : ∀ d p, d ≠ [] → p < (body d).length + 1 → consumed d p < d.length
  /-- All input is consumed once at most the stop byte is left. -/
  consumed_eq : ∀ d p, (body d).length + 1 ≤ p → consumed d p = d.length
  returned_start : ∀ d e, Returned d (X.startEncoder e) 0
  packet_eq : ∀ d e p, Returned d e p → (X.encodePacket e d (consumed d p)).packet =
    ((startByte :: body d ++ [stopByte]).drop p).take X.bufferSize
  index_eq : ∀ d e p, Returned d e p → (X.encodePacket e d (consumed d p)).index =
    consumed d (p + (X.encodePacket e d (consumed d p)).packet.length)
  returned_next : ∀ d e p, Returned d e p → Returned d
    (X.encodePacket e d (consumed d p)).escaper
    (p + (X.encodePacket e d (consumed d p)).packet.length)

namespace Framing

variable {E : Type u} {X : Escaper E} (F : Framing X)

/-- The framed message: the start byte, the escaped message, the stop byte. -/
def frame (d : List UInt8) : List UInt8 := F.startByte :: F.body d ++ [F.stopByte]

theorem length_frame (d : List UInt8) : (F.frame d).length = (F.body d).length + 2 := by
  simp [frame]

theorem length_packet {d : List UInt8} {e : E} {p : ℕ} (h : F.Returned d e p) :
    (X.encodePacket e d (F.consumed d p)).packet.length =
      min X.bufferSize ((F.frame d).length - p) := by
  rw [F.packet_eq d e p h, List.length_take, List.length_drop]
  rfl

end Framing

/-- An encoder that keeps its position in the frame of a stuffing code. -/
def stuffingEscaper (c : Stuffing UInt8) (bufferSize : ℕ) : Escaper ℕ where
  bufferSize := bufferSize
  startEncoder _ := 0
  encodePacket p data _ :=
    let packet := ((c.frame data).drop p).take bufferSize
    ⟨packet, c.consumed data (p + packet.length), p + packet.length⟩
  packet_le p data index := by
    simp only [List.length_take]
    exact Nat.min_le_left _ _

/-- Cutting a stuffed frame wherever the buffer is full satisfies the interface. -/
def stuffingFraming (c : Stuffing UInt8) (bufferSize : ℕ) (h : 0 < bufferSize) :
    Framing (stuffingEscaper c bufferSize) where
  startByte := c.start
  stopByte := c.stop
  body := c.body
  consumed := c.consumed
  Returned _ e p := e = p
  bufferSize_pos := h
  consumed_zero d := c.complete_zero d
  consumed_lt d p hd hp := by
    by_cases hb : p - 1 < (c.body d).length
    · exact c.complete_lt_length hb
    · -- only the start byte is out and the body is empty, so there is no input
      cases d with
      | nil => exact absurd rfl hd
      | cons b d =>
        have := List.length_pos_iff.mpr (c.word_ne_nil b)
        simp only [Stuffing.body_cons, List.length_append] at hp hb
        omega
  consumed_eq d p hp := c.complete_eq_length (by omega)
  returned_start _ _ := rfl
  packet_eq d e p he := by subst he; rfl
  index_eq d e p he := by subst he; rfl
  returned_next d e p he := by subst he; rfl

/-- The stuffing code with the delimiters `0x00` and `0xFF` and the escape `0xFE`. -/
def byteStuffing : Stuffing UInt8 where
  start := 0x00
  stop := 0xFF
  word b := if b = 0x00 ∨ b = 0xFE ∨ b = 0xFF then [0xFE, b] else [b]
  word_ne_nil b := by split <;> simp

end Samrh71Drivers
