import Samrh71Drivers.Outcome
import Samrh71Drivers.Escaper.Interface

/-!
# The two loops that send an escaped message

The serial driver and the CAN driver cut an escaped message into packets with the same
encoder and different loops. `sendEscapedPackets` of the serial driver goes on while
input is left; the loop in `SamRH71RtemsCanSend` goes on until the encoder returns an
empty packet, which is how the encoder says that it has returned the whole frame.

The two end at different points when a packet boundary falls between the last escaped
input byte and the stop byte, and on the empty message. `serial_flatten` and
`can_flatten` say what each loop sends; `loops_agree_iff` is the exact condition under
which the serial loop sends the whole frame.

## Main definitions

* `sendEscapedPackets` — the serial loop, over its `writePacket` callback.
* `sendEscapedFrames` — the CAN loop, over `SamRH71RtemsCanSendFrame`.
* `Sends` — a loop returns, having passed on these packets.
-/

namespace Samrh71Drivers

universe u v w

section Loops

variable {E : Type u} {A : Type v} {S : Type w}

/-- `while (index < length)` in `sendEscapedPackets`, for at most `fuel` tests. -/
def sendEscapedLoop (X : Escaper E) (data : List UInt8)
    (writePacket : S → List UInt8 → Outcome A S) : ℕ → E → ℕ → S → Outcome A S
  | 0, _, _, _ => .outOfFuel
  | fuel + 1, e, index, s =>
    if index < data.length then
      let r := X.encodePacket e data index
      (writePacket s r.packet).andThen
        (sendEscapedLoop X data writePacket fuel r.escaper r.index)
    else .returned s

/-- `sendEscapedPackets`: start the encoder and call `writePacket` for every packet. -/
def sendEscapedPackets (X : Escaper E) (data : List UInt8)
    (writePacket : S → List UInt8 → Outcome A S) (fuel : ℕ) (e : E) (s : S) : Outcome A S :=
  sendEscapedLoop X data writePacket fuel (X.startEncoder e) 0 s

/-- `while (packet_length > 0)` in `SamRH71RtemsCanSend`, for at most `fuel` tests, where
`r` is the packet to be tested. -/
def sendEscapedFramesLoop (X : Escaper E) (data : List UInt8)
    (sendFrame : S → List UInt8 → Outcome A S) : ℕ → EncodeResult E → S → Outcome A S
  | 0, _, _ => .outOfFuel
  | fuel + 1, r, s =>
    if 0 < r.packet.length then
      (sendFrame s r.packet).andThen
        (sendEscapedFramesLoop X data sendFrame fuel (X.encodePacket r.escaper data r.index))
    else .returned s

/-- The Escaper branch of `SamRH71RtemsCanSend`: start the encoder, encode the first
packet, and send a frame for every packet that is not empty. -/
def sendEscapedFrames (X : Escaper E) (data : List UInt8)
    (sendFrame : S → List UInt8 → Outcome A S) (fuel : ℕ) (e : E) (s : S) : Outcome A S :=
  sendEscapedFramesLoop X data sendFrame fuel (X.encodePacket (X.startEncoder e) data 0) s

/-- A loop that has returned returns the same with more tests allowed. -/
theorem sendEscapedLoop_add {X : Escaper E} {data : List UInt8}
    {writePacket : S → List UInt8 → Outcome A S} {t : S} (k : ℕ) :
    ∀ fuel e index s, sendEscapedLoop X data writePacket fuel e index s = .returned t →
      sendEscapedLoop X data writePacket (fuel + k) e index s = .returned t := by
  intro fuel
  induction fuel with
  | zero => intro e index s h; simp [sendEscapedLoop] at h
  | succ fuel ih =>
    intro e index s h
    rw [Nat.succ_add]
    by_cases hlt : index < data.length
    · simp only [sendEscapedLoop, hlt, if_true] at h ⊢
      cases hw : writePacket s (X.encodePacket e data index).packet with
      | returned s' =>
        rw [hw, Outcome.andThen_returned] at h
        exact ih _ _ _ h
      | asserted a s' => simp [hw] at h
      | outOfFuel => simp [hw] at h
    · simpa [sendEscapedLoop, hlt] using h

theorem sendEscapedFramesLoop_add {X : Escaper E} {data : List UInt8}
    {sendFrame : S → List UInt8 → Outcome A S} {t : S} (k : ℕ) :
    ∀ fuel r s, sendEscapedFramesLoop X data sendFrame fuel r s = .returned t →
      sendEscapedFramesLoop X data sendFrame (fuel + k) r s = .returned t := by
  intro fuel
  induction fuel with
  | zero => intro r s h; simp [sendEscapedFramesLoop] at h
  | succ fuel ih =>
    intro r s h
    rw [Nat.succ_add]
    by_cases hlt : 0 < r.packet.length
    · simp only [sendEscapedFramesLoop, hlt, if_true] at h ⊢
      cases hw : sendFrame s r.packet with
      | returned s' =>
        rw [hw, Outcome.andThen_returned] at h
        exact ih _ _ h
      | asserted a s' => simp [hw] at h
      | outOfFuel => simp [hw] at h
    · simpa [sendEscapedFramesLoop, hlt] using h

/-- An assertion that fails for no packet of the encoder does not fail in the loop. -/
theorem sendEscapedFramesLoop_not_fails {X : Escaper E} {data : List UInt8} {a : A}
    {sendFrame : S → List UInt8 → Outcome A S}
    (h : ∀ s packet, packet.length ≤ X.bufferSize → ¬ (sendFrame s packet).fails a) :
    ∀ fuel r s, r.packet.length ≤ X.bufferSize →
      ¬ (sendEscapedFramesLoop X data sendFrame fuel r s).fails a := by
  intro fuel
  induction fuel with
  | zero => intro r s _; exact id
  | succ fuel ih =>
    intro r s hr
    by_cases hlt : 0 < r.packet.length
    · simp only [sendEscapedFramesLoop, hlt, if_true]
      rw [Outcome.fails_andThen]
      rintro (hf | ⟨s', -, hf⟩)
      · exact h s r.packet hr hf
      · exact ih _ s' (X.packet_le _ _ _) hf
    · simp [sendEscapedFramesLoop, hlt]

theorem sendEscapedFrames_not_fails {X : Escaper E} {data : List UInt8} {a : A}
    {sendFrame : S → List UInt8 → Outcome A S}
    (h : ∀ s packet, packet.length ≤ X.bufferSize → ¬ (sendFrame s packet).fails a)
    (fuel : ℕ) (e : E) (s : S) : ¬ (sendEscapedFrames X data sendFrame fuel e s).fails a :=
  sendEscapedFramesLoop_not_fails h fuel _ s (X.packet_le _ _ _)

end Loops

/-- A callback that keeps the packets in order. -/
def collect (packets : List (List UInt8)) (packet : List UInt8) :
    Outcome Empty (List (List UInt8)) := .returned (packets ++ [packet])

/-- The loop `run` returns within some number of tests, having passed on `packets`. -/
def Sends (run : ℕ → Outcome Empty (List (List UInt8))) (packets : List (List UInt8)) : Prop :=
  ∃ fuel, run fuel = .returned packets

/-- A loop whose result stays once it has returned sends one list of packets. -/
theorem Sends.unique {run : ℕ → Outcome Empty (List (List UInt8))} {cs cs' : List (List UInt8)}
    (hrun : ∀ fuel k t, run fuel = .returned t → run (fuel + k) = .returned t)
    (h : Sends run cs) (h' : Sends run cs') : cs = cs' := by
  obtain ⟨n, hn⟩ := h
  obtain ⟨m, hm⟩ := h'
  have h1 := hrun n m cs hn
  have h2 := hrun m n cs' hm
  rw [Nat.add_comm m n, h1] at h2
  exact Outcome.returned.inj h2

variable {E : Type u} {X : Escaper E} (F : Framing X)

theorem serial_unique {e : E} {d : List UInt8} {cs cs' : List (List UInt8)}
    (h : Sends (fun fuel => sendEscapedPackets X d collect fuel e []) cs)
    (h' : Sends (fun fuel => sendEscapedPackets X d collect fuel e []) cs') : cs = cs' :=
  h.unique (fun fuel k _ hf => sendEscapedLoop_add k fuel _ _ _ hf) h'

theorem can_unique {e : E} {d : List UInt8} {cs cs' : List (List UInt8)}
    (h : Sends (fun fuel => sendEscapedFrames X d collect fuel e []) cs)
    (h' : Sends (fun fuel => sendEscapedFrames X d collect fuel e []) cs') : cs = cs' :=
  h.unique (fun fuel k _ hf => sendEscapedFramesLoop_add k fuel _ _ hf) h'

/-- The number of frame bytes the serial loop sends: it stops before the stop byte when
a packet boundary falls exactly there. -/
def serialReach (d : List UInt8) : ℕ :=
  if X.bufferSize ∣ (F.frame d).length - 1 then (F.frame d).length - 1 else (F.frame d).length

/-- One more packet extends what has been sent to the next packet boundary. -/
theorem flatten_append_packet {d : List UInt8} {e : E} {p : ℕ} {packets : List (List UInt8)}
    (hr : F.Returned d e p) (hp : packets.flatten = (F.frame d).take p) :
    (packets ++ [(X.encodePacket e d (F.consumed d p)).packet]).flatten =
      (F.frame d).take (p + (X.encodePacket e d (F.consumed d p)).packet.length) := by
  rw [F.length_packet hr, List.flatten_append, hp, List.flatten_singleton, F.packet_eq d e p hr]
  change (F.frame d).take p ++ ((F.frame d).drop p).take X.bufferSize = _
  rw [← List.take_add]
  by_cases hb : X.bufferSize ≤ (F.frame d).length - p
  · rw [Nat.min_eq_left hb]
  · rw [Nat.min_eq_right (by omega), List.take_of_length_le (by omega),
      List.take_of_length_le (by omega)]

/-- A packet is the beginning of what the encoder has still to return. -/
theorem Framing.packet_append_drop {d : List UInt8} {e : E} {p : ℕ} (hr : F.Returned d e p) :
    (X.encodePacket e d (F.consumed d p)).packet ++
      (F.frame d).drop (p + (X.encodePacket e d (F.consumed d p)).packet.length) =
      (F.frame d).drop p := by
  have hpacket : (X.encodePacket e d (F.consumed d p)).packet =
      ((F.frame d).drop p).take X.bufferSize := F.packet_eq d e p hr
  rw [← List.drop_drop, hpacket]
  exact List.prefix_iff_eq_append.mp (List.take_prefix _ _)

/-- A multiple of `b` strictly between two consecutive multiples does not exist. -/
private theorem not_dvd_of_between {b p n : ℕ} (hp : b ∣ p) (hlt : p < n) (hn : n < p + b) :
    ¬ b ∣ n := by
  intro h
  have hdvd : b ∣ n - p := Nat.dvd_sub h hp
  have hle := Nat.le_of_dvd (by omega) hdvd
  omega

/-- The serial loop from a packet boundary `p`. While more than the stop byte is left
the encoder is called again; the loop ends at the first boundary where at most the stop
byte is left. -/
private theorem serial_loop {d : List UInt8} (hd : d ≠ []) :
    ∀ n p e packets, (F.frame d).length - p ≤ n → p ≤ serialReach F d →
      (p < (F.frame d).length → X.bufferSize ∣ p) → F.Returned d e p →
      packets.flatten = (F.frame d).take p →
      ∃ cs, sendEscapedLoop X d collect (n + 1) e (F.consumed d p) packets = .returned cs ∧
        cs.flatten = (F.frame d).take (serialReach F d) := by
  have hlen := F.length_frame d
  have hpos := F.bufferSize_pos
  intro n
  induction n with
  | zero =>
    intro p e packets hn hreach _ _ hp
    have hcon : F.consumed d p = d.length := F.consumed_eq d p (by omega)
    refine ⟨packets, by simp [sendEscapedLoop, hcon], ?_⟩
    have hle : serialReach F d ≤ (F.frame d).length := by unfold serialReach; split <;> omega
    rw [hp, Nat.le_antisymm hreach (by omega)]
  | succ n ih =>
    intro p e packets hn hreach hdvd hr hp
    by_cases hmore : p < (F.body d).length + 1
    · -- more than the stop byte is left: one more packet
      have hlt := F.consumed_lt d p hd hmore
      have hpk := F.length_packet hr
      have hdvd' := hdvd (by omega)
      simp only [sendEscapedLoop, hlt, if_true, collect, Outcome.andThen_returned]
      rw [F.index_eq d e p hr]
      apply ih
      · omega
      · unfold serialReach
        split
        case isTrue hstop =>
          by_contra hgt
          exact not_dvd_of_between hdvd' (by omega) (by omega) hstop
        case isFalse => omega
      · intro hlt'
        have hfull : (X.encodePacket e d (F.consumed d p)).packet.length = X.bufferSize := by
          omega
        rw [hfull]
        exact Nat.dvd_add hdvd' (Nat.dvd_refl _)
      · exact F.returned_next d e p hr
      · exact flatten_append_packet F hr hp
    · -- at most the stop byte is left: the loop ends
      have hcon : F.consumed d p = d.length := F.consumed_eq d p (by omega)
      refine ⟨packets, by simp [sendEscapedLoop, hcon], ?_⟩
      have heq : p = serialReach F d := by
        unfold serialReach at hreach ⊢
        split at hreach
        case isTrue hstop => rw [if_pos hstop]; omega
        case isFalse hstop =>
          rw [if_neg hstop]
          by_contra hne
          have hp1 : p = (F.frame d).length - 1 := by omega
          exact hstop (hp1 ▸ hdvd (by omega))
      rw [hp, ← heq]

/-- **What the serial loop sends.** It returns, having sent nothing for the empty message
and the frame up to `serialReach` for any other. -/
theorem serial_flatten (e : E) (d : List UInt8) :
    ∃ cs, Sends (fun fuel => sendEscapedPackets X d collect fuel e []) cs ∧
      cs.flatten = if d = [] then [] else (F.frame d).take (serialReach F d) := by
  by_cases hd : d = []
  · subst hd
    exact ⟨[], ⟨1, rfl⟩, rfl⟩
  · have hstart := F.returned_start d e
    obtain ⟨cs, hcs, hflat⟩ := serial_loop F hd (F.frame d).length 0 (X.startEncoder e) []
      (by omega) (Nat.zero_le _) (fun _ => Nat.dvd_zero _) hstart rfl
    rw [F.consumed_zero] at hcs
    exact ⟨cs, ⟨_, hcs⟩, by rw [hflat, if_neg hd]⟩

/-- The CAN loop, with the packet from position `p` about to be tested. -/
private theorem can_loop (d : List UInt8) :
    ∀ n p e packets, (F.frame d).length - p ≤ n → F.Returned d e p →
      packets.flatten = (F.frame d).take p →
      ∃ cs, sendEscapedFramesLoop X d collect (n + 1)
          (X.encodePacket e d (F.consumed d p)) packets = .returned cs ∧
        cs.flatten = F.frame d := by
  have hpos := F.bufferSize_pos
  intro n
  induction n with
  | zero =>
    intro p e packets hn hr hp
    have hpk := F.length_packet hr
    refine ⟨packets, ?_, by rw [hp, List.take_of_length_le (by omega)]⟩
    rw [sendEscapedFramesLoop, if_neg (by omega)]
  | succ n ih =>
    intro p e packets hn hr hp
    have hpk := F.length_packet hr
    by_cases hmore : 0 < (X.encodePacket e d (F.consumed d p)).packet.length
    · simp only [sendEscapedFramesLoop, hmore, if_true, collect, Outcome.andThen_returned]
      rw [F.index_eq d e p hr]
      apply ih
      · omega
      · exact F.returned_next d e p hr
      · exact flatten_append_packet F hr hp
    · refine ⟨packets, ?_, by rw [hp, List.take_of_length_le (by omega)]⟩
      rw [sendEscapedFramesLoop, if_neg hmore]

/-- **What the CAN loop sends.** It returns, having sent the whole frame. -/
theorem can_flatten (e : E) (d : List UInt8) :
    ∃ cs, Sends (fun fuel => sendEscapedFrames X d collect fuel e []) cs ∧
      cs.flatten = F.frame d := by
  obtain ⟨cs, hcs, hflat⟩ := can_loop F d (F.frame d).length 0 (X.startEncoder e) []
    (by omega) (F.returned_start d e) rfl
  rw [F.consumed_zero] at hcs
  exact ⟨cs, ⟨_, hcs⟩, hflat⟩

/-- The CAN loop over a callback that returns for every packet of the encoder and logs it:
it logs the packets that `collect` keeps, none of them empty. -/
private theorem can_loop_logs {A : Type v} {S : Type w} {β : Type*} {d : List UInt8}
    {sendFrame : S → List UInt8 → Outcome A S} {log : S → List β} {entry : List UInt8 → β}
    (hsend : ∀ s packet, packet.length ≤ X.bufferSize →
      ∃ s', sendFrame s packet = .returned s' ∧ log s' = log s ++ [entry packet]) :
    ∀ fuel r packets cs s, r.packet.length ≤ X.bufferSize →
      sendEscapedFramesLoop X d collect fuel r packets = .returned cs →
      ∃ more s', cs = packets ++ more ∧
        (∀ c ∈ more, 0 < c.length ∧ c.length ≤ X.bufferSize) ∧
        sendEscapedFramesLoop X d sendFrame fuel r s = .returned s' ∧
        log s' = log s ++ more.map entry := by
  intro fuel
  induction fuel with
  | zero =>
    intro r packets cs s _ h
    cases h
  | succ fuel ih =>
    intro r packets cs s hr h
    by_cases hmore : 0 < r.packet.length
    · obtain ⟨t, ht, hlog⟩ := hsend s r.packet hr
      simp only [sendEscapedFramesLoop, hmore, if_true, collect, Outcome.andThen_returned] at h
      obtain ⟨more, s', rfl, hlen, hrun, hlog'⟩ := ih _ _ cs t (X.packet_le _ _ _) h
      refine ⟨r.packet :: more, s', by simp, ?_, ?_, ?_⟩
      · intro c hc
        rcases List.mem_cons.mp hc with rfl | hc
        · exact ⟨hmore, hr⟩
        · exact hlen c hc
      · simp only [sendEscapedFramesLoop, hmore, if_true, ht, Outcome.andThen_returned]
        exact hrun
      · rw [hlog', hlog, List.append_assoc, List.map_cons, List.singleton_append]
    · simp only [sendEscapedFramesLoop, hmore, if_false] at h ⊢
      cases h
      exact ⟨[], s, by simp, by simp, rfl, by simp⟩

/-- **What the CAN loop logs.** With a callback that returns for every packet, the loop
returns once enough tests are allowed, and has logged non-empty packets that make up the
whole frame. -/
theorem can_logs {A : Type v} {S : Type w} {β : Type*} {d : List UInt8} {e : E} {s : S}
    {sendFrame : S → List UInt8 → Outcome A S} {log : S → List β} {entry : List UInt8 → β}
    (hsend : ∀ s packet, packet.length ≤ X.bufferSize →
      ∃ s', sendFrame s packet = .returned s' ∧ log s' = log s ++ [entry packet]) :
    ∃ (enough : ℕ) (cs : List (List UInt8)) (s' : S),
      (∀ fuel ≥ enough, sendEscapedFrames X d sendFrame fuel e s = .returned s') ∧
      log s' = log s ++ cs.map entry ∧ cs.flatten = F.frame d ∧
      ∀ c ∈ cs, 0 < c.length ∧ c.length ≤ X.bufferSize := by
  obtain ⟨cs, ⟨fuel, hcs⟩, hflat⟩ := can_flatten F e d
  obtain ⟨more, s', hmore, hlen, hrun, hlog⟩ :=
    can_loop_logs hsend fuel _ [] cs s (X.packet_le _ _ _) hcs
  rw [List.nil_append] at hmore
  subst hmore
  refine ⟨fuel, cs, s', ?_, hlog, hflat, hlen⟩
  intro fuel' hfuel'
  obtain ⟨k, rfl⟩ := Nat.exists_eq_add_of_le hfuel'
  exact sendEscapedFramesLoop_add k fuel _ s hrun

/-- Both loops return, and the packets of each, put together, are the whole frame. -/
def LoopsAgree (e e' : E) (d : List UInt8) : Prop :=
  ∃ cs cc, Sends (fun fuel => sendEscapedPackets X d collect fuel e []) cs ∧
    Sends (fun fuel => sendEscapedFrames X d collect fuel e' []) cc ∧
    cs.flatten = cc.flatten ∧ cs.flatten = F.frame d ∧ cc.flatten = F.frame d

/-- **When the loops agree.** The message has to be non-empty, and no packet boundary may
fall right before the stop byte. -/
theorem loops_agree_iff (e e' : E) (d : List UInt8) :
    LoopsAgree F e e' d ↔ d ≠ [] ∧ ¬ X.bufferSize ∣ (F.frame d).length - 1 := by
  have hlen := F.length_frame d
  obtain ⟨cs, hcs, hserial⟩ := serial_flatten F e d
  obtain ⟨cc, hcc, hcan⟩ := can_flatten F e' d
  constructor
  · rintro ⟨cs', -, hcs', -, -, hflat, -⟩
    rw [serial_unique hcs' hcs, hserial] at hflat
    have hsize := congrArg List.length hflat
    by_cases hd : d = []
    · rw [if_pos hd, List.length_nil] at hsize
      omega
    · refine ⟨hd, fun hdvd => ?_⟩
      rw [if_neg hd, serialReach, if_pos hdvd, List.length_take] at hsize
      omega
  · rintro ⟨hd, hdvd⟩
    have hflat : cs.flatten = F.frame d := by
      rw [hserial, if_neg hd, serialReach, if_neg hdvd, List.take_length]
    exact ⟨cs, cc, hcs, hcc, by rw [hflat, hcan], hflat, hcan⟩

/-- Seven plain bytes in packets of eight: the start byte and the message fill the first
packet, the input is used up, and the serial loop ends before the stop byte. -/
theorem loops_disagree_at_boundary :
    ¬ LoopsAgree (stuffingFraming byteStuffing 8 (by decide)) 0 0 [1, 2, 3, 4, 5, 6, 7] := by
  rintro ⟨cs, cc, hcs, hcc, heq, -, -⟩
  have hserial : cs = [[0x00, 1, 2, 3, 4, 5, 6, 7]] := serial_unique hcs ⟨2, rfl⟩
  have hcan : cc = [[0x00, 1, 2, 3, 4, 5, 6, 7], [0xFF]] := can_unique hcc ⟨3, rfl⟩
  rw [hserial, hcan] at heq
  exact absurd heq (by decide)

end Samrh71Drivers
