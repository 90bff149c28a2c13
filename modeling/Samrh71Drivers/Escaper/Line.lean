import Samrh71Drivers.Escaper.Decoder

/-!
# The serial loop and the decoder

The loop of the serial driver does not always send the stop byte of a message, and sends
nothing at all for the empty message (`lineBytes`). What that means for a receiver on the line:
the decoder hands over the messages that survive, which are those whose stop byte has been
sent, each whole and in order, and a message that does not survive takes no other with it
(`received_of_line`). A receiver that is woken by stop bytes has handed over all of them when
no stop byte is left to read.

## Main definitions

* `lineBytes` — what a message stands for on the line.
* `Reached` — the positions the loop gets to.
* `Survives` — the messages that are recovered.
-/

namespace Samrh71Drivers

universe u v

section LineBytes

variable {E : Type u} {X : Escaper E} (F : Framing X) {d : List UInt8} {e : E} {p : ℕ}

/-- What the serial loop puts on the line for a message. -/
def lineBytes (d : List UInt8) : List UInt8 :=
  if d = [] then [] else (F.frame d).take (serialReach F d)

/-- A position the serial loop gets to: a packet boundary, or the end of the frame. -/
structure Reached (d : List UInt8) (p : ℕ) : Prop where
  le : p ≤ serialReach F d
  boundary : p < (F.frame d).length → X.bufferSize ∣ p

theorem reached_zero (d : List UInt8) : Reached F d 0 := ⟨Nat.zero_le _, fun _ => Nat.dvd_zero _⟩

variable {F}

/-- Another packet does not go past the end of what the loop sends. -/
theorem Reached.next (h : Reached F d p) (hr : F.Returned d e p)
    (hlt : F.consumed d p < d.length) :
    Reached F d (p + (X.encodePacket e d (F.consumed d p)).packet.length) := by
  have hlen := F.length_frame d
  have hpk := F.length_packet hr
  have hmore : p < (F.body d).length + 1 := by
    by_contra hge
    have hcon := F.consumed_eq d p (by omega)
    omega
  have hdvd := h.boundary (by omega)
  constructor
  case le =>
    unfold serialReach
    split
    case isTrue hstop =>
      by_contra hgt
      have hdiff : X.bufferSize ∣ (F.frame d).length - 1 - p := Nat.dvd_sub hstop hdvd
      have hle := Nat.le_of_dvd (by omega) hdiff
      omega
    case isFalse => omega
  case boundary =>
    intro hlt'
    have hfull : (X.encodePacket e d (F.consumed d p)).packet.length = X.bufferSize := by omega
    rw [hfull]
    exact Nat.dvd_add hdvd (Nat.dvd_refl _)

/-- The loop ends where nothing of the line bytes is left. -/
theorem Reached.drop_eq_nil (h : Reached F d p) (hend : ¬ F.consumed d p < d.length) :
    (lineBytes F d).drop p = [] := by
  by_cases hd : d = []
  · simp [lineBytes, hd]
  · have hlen := F.length_frame d
    have hreach := h.le
    have hlast : (F.body d).length + 1 ≤ p := by
      by_contra hlt
      exact hend (F.consumed_lt d p hd (by omega))
    have heq : serialReach F d = p := by
      unfold serialReach at hreach ⊢
      split at hreach
      case isTrue hstop =>
        rw [if_pos hstop]
        omega
      case isFalse hstop =>
        rw [if_neg hstop]
        by_contra hne
        have hp1 : p = (F.frame d).length - 1 := by omega
        exact hstop (hp1 ▸ h.boundary (by omega))
    rw [lineBytes, if_neg hd, heq, List.drop_eq_nil_iff, List.length_take]
    exact Nat.min_le_left _ _

/-- A packet is the beginning of the line bytes that are left. -/
theorem Reached.packet_append_drop (h : Reached F d p) (hr : F.Returned d e p)
    (hlt : F.consumed d p < d.length) :
    (X.encodePacket e d (F.consumed d p)).packet ++
      (lineBytes F d).drop (p + (X.encodePacket e d (F.consumed d p)).packet.length) =
      (lineBytes F d).drop p := by
  have hd : d ≠ [] := by
    rintro rfl
    simp at hlt
  have hle := (h.next hr hlt).le
  have hpacket : (X.encodePacket e d (F.consumed d p)).packet =
      ((lineBytes F d).drop p).take (X.encodePacket e d (F.consumed d p)).packet.length := by
    have hframe := F.packet_append_drop hr
    rw [lineBytes, if_neg hd, List.drop_take, List.take_take, ← hframe, Nat.min_eq_left (by omega),
      List.take_left]
  rw [← List.drop_drop]
  exact List.prefix_iff_eq_append.mp (by rw [hpacket]; exact List.take_prefix _ _)

end LineBytes

section Line

variable {E : Type u} {X : Escaper E} {F : Framing X} {D : Type v} {Y : Unescaper D} {e : D}
  {d : List UInt8} {ds : List (List UInt8)}

/-- The stop byte of a message is sent. -/
def Survives (F : Framing X) (d : List UInt8) : Prop :=
  d ≠ [] ∧ ¬ X.bufferSize ∣ (F.frame d).length - 1

instance (F : Framing X) (d : List UInt8) : Decidable (Survives F d) :=
  inferInstanceAs (Decidable (_ ∧ _))

/-- A message that survives is sent with its stop byte. -/
theorem lineBytes_of_survives (h : Survives F d) : lineBytes F d = F.frame d := by
  rw [lineBytes, if_neg h.1, serialReach, if_neg h.2, List.take_length]

/-- Any other message is sent without its stop byte, or not at all. -/
theorem lineBytes_of_not_survives (h : ¬ Survives F d) :
    lineBytes F d = [] ∨ lineBytes F d = F.startByte :: F.body d := by
  by_cases hd : d = []
  · exact .inl (by rw [lineBytes, if_pos hd])
  · right
    have hcut : X.bufferSize ∣ (F.frame d).length - 1 := by
      by_contra hne
      exact h ⟨hd, hne⟩
    have hlen : (F.frame d).length - 1 = (F.startByte :: F.body d).length := by
      rw [F.length_frame, List.length_cons]
      rfl
    rw [lineBytes, if_neg hd, serialReach, if_pos hcut, hlen, Framing.frame, List.take_left]

variable (U : Unframing F Y)

/-- **One message on the line.** -/
theorem decodes_lineBytes (hd : d.length ≤ Y.bufferSize) :
    Decodes U (lineBytes F) (Survives F) d := by
  intro e he
  by_cases hs : Survives F d
  · rw [lineBytes_of_survives hs, if_pos hs]
    exact U.decode_frame e d he hd
  · rw [if_neg hs]
    rcases lineBytes_of_not_survives hs with hnil | hcut
    · rw [hnil, U.decode_nil]
      exact ⟨rfl, he⟩
    · rw [hcut]
      exact U.decode_unfinished e d he hd

/-- A message that survives ends with the stop byte. -/
theorem stopByte_mem_of_suffix {s c : List UInt8} (hs : Survives F d)
    (h : lineBytes F d = s ++ c) (hc : c ≠ []) : F.stopByte ∈ c := by
  have hlast : (s ++ c).getLast? = some F.stopByte := by
    rw [← h, lineBytes_of_survives hs, Framing.frame, List.getLast?_concat]
  rw [List.getLast?_append_of_ne_nil s hc] at hlast
  exact List.mem_of_getLast? hlast

include U in
/-- Where no stop byte is left to read, everything that survives has been handed over. -/
theorem decode_of_no_stopByte {s rest : List UInt8} (he : U.Ready e)
    (hds : ∀ d ∈ ds, d.length ≤ Y.bufferSize) (h : s ++ rest = ds.flatMap (lineBytes F))
    (hrest : F.stopByte ∉ rest) :
    (Y.decodePacket e s).2 = ds.filter (Survives F ·) := by
  induction ds generalizing e s with
  | nil =>
    have hs : s = [] := by
      rw [List.flatMap_nil, List.append_eq_nil_iff] at h
      exact h.1
    simp [hs, U.decode_nil]
  | cons d ds ih =>
    rw [List.flatMap_cons] at h
    have hhead := decodes_lineBytes U (hds d List.mem_cons_self) e he
    have htail : ∀ d' ∈ ds, d'.length ≤ Y.bufferSize := fun d' hd' =>
      hds d' (List.mem_cons_of_mem d hd')
    rcases List.append_eq_append_iff.mp h with ⟨c, hc, hr⟩ | ⟨a, ha, hr⟩
    · -- the reader is within the bytes of this message, or at their end
      have hnone : ds.filter (Survives F ·) = [] := by
        rw [List.filter_eq_nil_iff]
        intro d' hd' hs
        have hs' : Survives F d' := of_decide_eq_true hs
        have hstop : F.stopByte ∈ lineBytes F d' :=
          stopByte_mem_of_suffix hs' (List.nil_append _).symm (by
            rw [lineBytes_of_survives hs', Framing.frame]
            simp)
        apply hrest
        rw [hr]
        exact List.mem_append_right _ (List.mem_flatMap.mpr ⟨d', hd', hstop⟩)
      rw [List.filter_cons, hnone]
      by_cases hnil : c = []
      · rw [hnil, List.append_nil] at hc
        rw [← hc, hhead.1]
        by_cases hs : Survives F d <;> simp [hs]
      · have hs : ¬ Survives F d := by
          intro hs
          apply hrest
          rw [hr]
          exact List.mem_append_left _ (stopByte_mem_of_suffix hs hc hnil)
        have hall := hhead.1
        rw [if_neg hs, hc, U.decode_append] at hall
        simpa [hs] using (List.append_eq_nil_iff.mp hall).1
    · -- the bytes of this message have been read
      rw [ha, U.decode_append, hhead.1, ih hhead.2 htail hr.symm, List.filter_cons]
      by_cases hs : Survives F d <;> simp [hs]

/-- **A receiver on the line.** Whatever the pieces in which a beginning of the line bytes of
some messages is given to the decoder, it has handed over a beginning of the messages that
survive; and all of them, where no stop byte is left to read. -/
theorem received_of_line {pieces : List (List UInt8)} {rest : List UInt8} (he : U.Ready e)
    (hds : ∀ d ∈ ds, d.length ≤ Y.bufferSize)
    (h : pieces.flatten ++ rest = ds.flatMap (lineBytes F)) :
    (received Y e pieces).2 <+: ds.filter (Survives F ·) ∧
      (F.stopByte ∉ rest → (received Y e pieces).2 = ds.filter (Survives F ·)) := by
  have hdecodes : ∀ d ∈ ds, Decodes U (lineBytes F) (Survives F) d := fun d hd =>
    decodes_lineBytes U (hds d hd)
  refine ⟨(received_of_stream U he hdecodes ⟨rest, h⟩).1, ?_⟩
  rw [received_eq U]
  exact decode_of_no_stopByte U he hds h

end Line
end Samrh71Drivers
