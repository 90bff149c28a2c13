import Samrh71Drivers.Escaper.SendLoops
import Samrh71Drivers.Lib.Destuffing
import Mathlib.Data.List.Induction

/-!
# The decoder of the Escaper, as the drivers use it

The drivers give the Escaper a decode buffer in `Escaper_init`, call `Escaper_start_decoder`
once, and then call `Escaper_decode_packet` on every piece of the stream they receive; it
calls `Broker_receive_packet` on each message that is complete.

`Unescaper` is that interface. `Unframing` adds what a receiver relies on: how the stream is
cut into pieces does not matter, and from the place after `Escaper_start_decoder`, or after
another frame, a frame is decoded to its message. A frame that has lost its stop byte hands
nothing over, and the start byte of the next frame begins a new message.

`received_of_stream` is what follows for a whole stream: a receiver that has been given a
beginning of what stands for some messages has handed over a beginning of the messages.

## Main definitions

* `Unescaper D` — the decoder, with its own state `D`.
* `Unframing F Y` — `Y` decodes the frames of the encoder.
* `received` — the messages handed over for a list of pieces.
* `destuffingUnescaper`, `destuffingUnframing` — a decoder that satisfies `Unframing`.
-/

namespace Samrh71Drivers

universe u v

/-- The decoder half of the Escaper after `Escaper_init` with a decode buffer of
`bufferSize` bytes. -/
structure Unescaper (D : Type v) where
  bufferSize : ℕ
  /-- `Escaper_start_decoder`. -/
  startDecoder : D → D
  /-- `Escaper_decode_packet`, with the messages it passes to its callback. -/
  decodePacket : D → List UInt8 → D × List (List UInt8)

/-- The decoder `Y` decodes the frames of the encoder `X`. `Ready e` says that the next byte
is read for what it is. -/
structure Unframing {E : Type u} {X : Escaper E} {D : Type v} (F : Framing X)
    (Y : Unescaper D) where
  Ready : D → Prop
  ready_start : ∀ e, Ready (Y.startDecoder e)
  decode_nil : ∀ e, Y.decodePacket e [] = (e, [])
  /-- A stream may be cut anywhere. -/
  decode_append : ∀ e bs bs', Y.decodePacket e (bs ++ bs') =
    ((Y.decodePacket (Y.decodePacket e bs).1 bs').1,
      (Y.decodePacket e bs).2 ++ (Y.decodePacket (Y.decodePacket e bs).1 bs').2)
  /-- A frame hands its message over. -/
  decode_frame : ∀ e d, Ready e → d.length ≤ Y.bufferSize →
    (Y.decodePacket e (F.frame d)).2 = [d] ∧ Ready (Y.decodePacket e (F.frame d)).1
  /-- A frame without its stop byte hands nothing over. -/
  decode_unfinished : ∀ e d, Ready e → d.length ≤ Y.bufferSize →
    (Y.decodePacket e (F.startByte :: F.body d)).2 = [] ∧
      Ready (Y.decodePacket e (F.startByte :: F.body d)).1

/-- The decoder after some pieces, and the messages it has handed over. -/
def received {D : Type v} (Y : Unescaper D) (e : D) (pieces : List (List UInt8)) :
    D × List (List UInt8) :=
  pieces.foldl (fun r piece =>
    ((Y.decodePacket r.1 piece).1, r.2 ++ (Y.decodePacket r.1 piece).2)) (e, [])

section Received

variable {D : Type v} {Y : Unescaper D} {e : D}

@[simp] theorem received_nil : received Y e [] = (e, []) := rfl

theorem received_append_singleton (pieces : List (List UInt8)) (piece : List UInt8) :
    received Y e (pieces ++ [piece]) =
      ((Y.decodePacket (received Y e pieces).1 piece).1,
        (received Y e pieces).2 ++ (Y.decodePacket (received Y e pieces).1 piece).2) := by
  rw [received, List.foldl_append]
  rfl

variable {E : Type u} {X : Escaper E} {F : Framing X} (U : Unframing F Y)

include U in
/-- **Pieces.** What has been handed over depends on the stream alone. -/
theorem received_eq (pieces : List (List UInt8)) :
    received Y e pieces = Y.decodePacket e pieces.flatten := by
  induction pieces using List.reverseRecOn with
  | nil => exact (U.decode_nil e).symm
  | append_singleton pieces piece ih =>
    rw [received_append_singleton, ih, List.flatten_append, List.flatten_singleton,
      U.decode_append]

variable {bytes : List UInt8 → List UInt8} {keep : List UInt8 → Prop} [DecidablePred keep]
  {ds : List (List UInt8)}

/-- The decoder takes the bytes that stand for a message, and hands the message over where it
is to be kept. -/
def Decodes (U : Unframing F Y) (bytes : List UInt8 → List UInt8) (keep : List UInt8 → Prop)
    [DecidablePred keep] (d : List UInt8) : Prop :=
  ∀ e, U.Ready e → (Y.decodePacket e (bytes d)).2 = (if keep d then [d] else []) ∧
    U.Ready (Y.decodePacket e (bytes d)).1

/-- **Some messages**, one after the other. -/
theorem decode_messages (he : U.Ready e) (hds : ∀ d ∈ ds, Decodes U bytes keep d) :
    (Y.decodePacket e (ds.flatMap bytes)).2 = ds.filter (keep ·) := by
  induction ds generalizing e with
  | nil => simp [U.decode_nil]
  | cons d ds ih =>
    have hhead := hds d List.mem_cons_self e he
    have htail := ih hhead.2 fun d' hd' => hds d' (List.mem_cons_of_mem d hd')
    rw [List.flatMap_cons, U.decode_append, hhead.1, htail, List.filter_cons]
    by_cases hk : keep d <;> simp [hk]

/-- **A stream.** Where the pieces make up a beginning of the bytes that stand for some
messages, what has been handed over is a beginning of the messages to be kept; where they make
up all of them, all of these have been handed over. -/
theorem received_of_stream {pieces : List (List UInt8)} (he : U.Ready e)
    (hds : ∀ d ∈ ds, Decodes U bytes keep d) (hpieces : pieces.flatten <+: ds.flatMap bytes) :
    (received Y e pieces).2 <+: ds.filter (keep ·) ∧
      (pieces.flatten = ds.flatMap bytes → (received Y e pieces).2 = ds.filter (keep ·)) := by
  have hall := decode_messages U he hds
  rw [received_eq U]
  obtain ⟨rest, hrest⟩ := hpieces
  constructor
  · rw [← hrest, U.decode_append] at hall
    rw [← hall]
    exact List.prefix_append _ _
  · intro heq
    rw [heq, hall]

end Received

/-! ## A decoder -/

/-- The code with the delimiters `0x00` and `0xFF` and the escape `0xFE`. -/
def escapeCode : EscapeCode UInt8 :=
  ⟨0x00, 0xFE, 0xFF, by decide, by decide, by decide⟩

/-- The decoder of a code with an escape symbol. -/
def destuffingUnescaper (c : EscapeCode UInt8) (bufferSize : ℕ) : Unescaper (Place UInt8) where
  bufferSize := bufferSize
  startDecoder _ := .idle
  decodePacket := c.feed bufferSize

/-- It decodes the frames of the encoder of the same code. -/
def destuffingUnframing (c : EscapeCode UInt8) (encoded decoded : ℕ) (h : 0 < encoded) :
    Unframing (stuffingFraming c.stuffing encoded h) (destuffingUnescaper c decoded) where
  Ready := Place.ready
  ready_start _ := trivial
  decode_nil _ := rfl
  decode_append _ bs bs' := EscapeCode.feed_append bs bs'
  decode_frame e d he hd := by
    have hframe : (destuffingUnescaper c decoded).decodePacket e (c.stuffing.frame d) =
        (.idle, [d]) := EscapeCode.feed_frame he hd
    exact ⟨congrArg Prod.snd hframe, congrArg Prod.fst hframe ▸ trivial⟩
  decode_unfinished e d he hd := by
    have hcut : (destuffingUnescaper c decoded).decodePacket e
        (c.start :: c.stuffing.body d) = (.inside d, []) := EscapeCode.feed_unfinished he hd
    exact ⟨congrArg Prod.snd hcut, congrArg Prod.fst hcut ▸ trivial⟩

end Samrh71Drivers
