import Mathlib.Algebra.Order.Floor.Div
import Mathlib.Order.Bounds.Basic

/-!
# The bit-rate dividers of the SpaceWire driver

`samrh71_rtems_spacewire_init` computes two dividers from the master clock frequency `f`:
the transmitter runs at `2 f / (d + 1)`, so the right divider for a bit rate `b` is the
least `d` with `2 f ≤ b (d + 1)`. The computation is a ceiling division in `uint64_t` whose
result is converted to `uint8_t`. The assertions keep `b` from being larger than `2 f`, and
nothing keeps the result below 256: `txDividers_isLeast_iff` says when it is.

## Main definitions

* `txDiv`, `txDividers` — the computation, with its assertions.
* `requestedBitrate` — the bit rate a configuration asks for.
* `isLeast_txDiv_iff` — when one divider is the right one.
* `txDividers_isLeast_iff` — when both are, wherever the assertions hold.
-/

namespace Samrh71Drivers.Spw

/-- `MEGA_HZ`. -/
def megaHz : UInt64 := 1000000

/-- The two assertions on the bit rates. -/
inductive DividerAssertion
  | initBitrate
  | operBitrate
  deriving DecidableEq

/-- `ceil(2 * fMaster / bitrate) - 1` in `uint64_t`, converted to `uint8_t`. -/
def txDiv (masterClockFrequency bitrate : UInt64) : UInt8 :=
  ((2 * masterClockFrequency + bitrate - 1) / bitrate - 1).toUInt8

/-- The dividers `samrh71_rtems_spacewire_init` passes to `init_spw_driver`: `txInitDiv` and
`txOperDiv`. `linkSpeed` is the optional `link_speed`. -/
def txDividers (masterClockFrequency : UInt64) (linkSpeed : Option UInt32) :
    Except DividerAssertion (UInt8 × UInt8) :=
  let initBitrate := 10 * megaHz
  if initBitrate ≤ 2 * masterClockFrequency then
    let txInitDiv := txDiv masterClockFrequency initBitrate
    match linkSpeed with
    | none => .ok (txInitDiv, txInitDiv)
    | some speed =>
      if 0 < speed then
        let operBitrate := speed.toUInt64 * megaHz
        if operBitrate ≤ 2 * masterClockFrequency then
          .ok (txInitDiv, txDiv masterClockFrequency operBitrate)
        else .error .operBitrate
      else .ok (txInitDiv, txInitDiv)
  else .error .initBitrate

/-- The bit rate a configuration asks for. -/
def requestedBitrate : Option UInt32 → ℕ
  | none => 10 ^ 7
  | some speed => if 0 < speed then speed.toNat * 10 ^ 6 else 10 ^ 7

/-! ## One divider -/

/-- The right divider is a ceiling division, less one. -/
theorem isLeast_ceilDiv_sub_one {a b : ℕ} (ha : 0 < a) (hb : 0 < b) :
    IsLeast {d | a ≤ b * (d + 1)} (a ⌈/⌉ b - 1) := by
  have hpos : 0 < a ⌈/⌉ b := by
    by_contra hzero
    have hle := (ceilDiv_le_iff_le_mul hb).mp (Nat.le_of_not_lt hzero)
    omega
  constructor
  · rw [Set.mem_ofPred_eq, Nat.sub_add_cancel hpos]
    exact (ceilDiv_le_iff_le_mul hb).mp (Nat.le_refl _)
  · intro d hd
    have hle := (ceilDiv_le_iff_le_mul hb).mpr hd
    omega

/-- **What the right divider means**: the rate does not exceed the requested one, and with
the next smaller divider it would. -/
theorem rate_of_isLeast {a b d : ℕ} (h : IsLeast {d | a ≤ b * (d + 1)} d) :
    a ≤ b * (d + 1) ∧ ∀ d' < d, b * (d' + 1) < a := by
  refine ⟨h.1, ?_⟩
  intro d' hd'
  by_contra hle
  exact absurd (h.2 (Nat.le_of_not_lt hle)) (by omega)

variable {f b : UInt64}

private theorem toNat_two_mul (hf : 2 * f.toNat < 2 ^ 64) : (2 * f).toNat = 2 * f.toNat := by
  rw [UInt64.toNat_mul]
  exact Nat.mod_eq_of_lt hf

/-- The value of the divider, where no operation wraps around. -/
theorem toNat_txDiv (hf : 2 * f.toNat + b.toNat < 2 ^ 64) (hb : 0 < b.toNat)
    (hle : b.toNat ≤ 2 * f.toNat) :
    (txDiv f b).toNat = ((2 * f.toNat) ⌈/⌉ b.toNat - 1) % 256 := by
  have hsum : (2 * f + b).toNat = 2 * f.toNat + b.toNat := by
    rw [UInt64.toNat_add, toNat_two_mul (by omega)]
    exact Nat.mod_eq_of_lt hf
  have hpred : (2 * f + b - 1).toNat = 2 * f.toNat + b.toNat - 1 := by
    rw [UInt64.toNat_sub_of_le _ _ (UInt64.le_iff_toNat_le.mpr (by rw [hsum]; simp; omega)), hsum]
    rfl
  have hquot : 1 ≤ (2 * f.toNat + b.toNat - 1) / b.toNat :=
    (Nat.one_le_div_iff hb).mpr (by omega)
  have hdiv : ((2 * f + b - 1) / b - 1).toNat = (2 * f.toNat + b.toNat - 1) / b.toNat - 1 := by
    have hval : ((2 * f + b - 1) / b).toNat = (2 * f.toNat + b.toNat - 1) / b.toNat := by
      rw [UInt64.toNat_div, hpred]
    rw [UInt64.toNat_sub_of_le _ _ (UInt64.le_iff_toNat_le.mpr (by rw [hval]; exact hquot)), hval]
    rfl
  rw [txDiv, UInt64.toNat_toUInt8, hdiv]
  rfl

/-- **When a divider is the right one**: exactly when the right one fits a byte. -/
theorem isLeast_txDiv_iff (hf : 2 * f.toNat < 2 ^ 64) (hb : 0 < b.toNat)
    (hb' : b.toNat ≤ 2 ^ 54) (hle : b.toNat ≤ 2 * f.toNat) :
    IsLeast {d | 2 * f.toNat ≤ b.toNat * (d + 1)} (txDiv f b).toNat ↔
      2 * f.toNat ≤ 256 * b.toNat := by
  have hbyte := (txDiv f b).toNat_lt
  constructor
  · intro h
    calc 2 * f.toNat ≤ b.toNat * ((txDiv f b).toNat + 1) := h.1
      _ ≤ b.toNat * 256 := Nat.mul_le_mul_left _ (by omega)
      _ = 256 * b.toNat := Nat.mul_comm _ _
  · intro h
    have hceil : (2 * f.toNat) ⌈/⌉ b.toNat ≤ 256 :=
      (ceilDiv_le_iff_le_mul hb).mpr (by omega)
    rw [toNat_txDiv (by omega) hb hle, Nat.mod_eq_of_lt (by omega)]
    exact isLeast_ceilDiv_sub_one (by omega) hb

/-! ## Both dividers -/

/-- Both dividers are the right ones. -/
def RightDividers (f : ℕ) (linkSpeed : Option UInt32) (d : UInt8 × UInt8) : Prop :=
  IsLeast {i | 2 * f ≤ 10 ^ 7 * (i + 1)} d.1.toNat ∧
    IsLeast {o | 2 * f ≤ requestedBitrate linkSpeed * (o + 1)} d.2.toNat

/-- The bit rate of the operational divider, in `uint64_t`. -/
def operBitrate : Option UInt32 → UInt64
  | none => 10 * megaHz
  | some speed => if 0 < speed then speed.toUInt64 * megaHz else 10 * megaHz

theorem toNat_operBitrate (linkSpeed : Option UInt32) :
    (operBitrate linkSpeed).toNat = requestedBitrate linkSpeed := by
  cases linkSpeed with
  | none => rfl
  | some speed =>
    have hspeed := speed.toNat_lt
    by_cases hpos : 0 < speed
    · rw [operBitrate, if_pos hpos, requestedBitrate, if_pos hpos, UInt64.toNat_mul,
        UInt32.toNat_toUInt64, show megaHz.toNat = 10 ^ 6 from rfl]
      exact Nat.mod_eq_of_lt (by omega)
    · rw [operBitrate, if_neg hpos, requestedBitrate, if_neg hpos]
      rfl

/-- A requested bit rate is positive and far from wrapping around. -/
theorem requestedBitrate_bounds (linkSpeed : Option UInt32) :
    0 < requestedBitrate linkSpeed ∧ requestedBitrate linkSpeed ≤ 2 ^ 54 := by
  cases linkSpeed with
  | none => decide
  | some speed =>
    have hspeed := speed.toNat_lt
    rw [requestedBitrate]
    split
    case isTrue hpos =>
      have hpos' : 0 < speed.toNat := UInt32.lt_iff_toNat_lt.mp hpos
      omega
    case isFalse => omega

/-- **What `txDividers` returns**: both dividers, where neither bit rate is above `2 f`. -/
theorem txDividers_eq_ok (hf : 2 * f.toNat < 2 ^ 64) {linkSpeed : Option UInt32}
    {d : UInt8 × UInt8} : txDividers f linkSpeed = .ok d ↔
      10 ^ 7 ≤ 2 * f.toNat ∧ requestedBitrate linkSpeed ≤ 2 * f.toNat ∧
        d = (txDiv f (10 * megaHz), txDiv f (operBitrate linkSpeed)) := by
  have hinit : 10 * megaHz ≤ 2 * f ↔ 10 ^ 7 ≤ 2 * f.toNat := by
    rw [UInt64.le_iff_toNat_le, toNat_two_mul hf]
    rfl
  have hoper : operBitrate linkSpeed ≤ 2 * f ↔ requestedBitrate linkSpeed ≤ 2 * f.toNat := by
    rw [UInt64.le_iff_toNat_le, toNat_two_mul hf, toNat_operBitrate]
  rw [← hinit, ← hoper, txDividers]
  by_cases h : 10 * megaHz ≤ 2 * f
  · cases linkSpeed with
    | none => simp [h, operBitrate, eq_comm]
    | some speed =>
      by_cases hpos : 0 < speed
      · by_cases hle : speed.toUInt64 * megaHz ≤ 2 * f
        · simp [h, hpos, hle, operBitrate, eq_comm]
        · simp [h, hpos, hle, operBitrate]
      · simp [h, hpos, operBitrate, eq_comm]
  · simp [h]

/-- **When the dividers are the right ones.** For every clock frequency and every configured
speed: where the assertions let the initialisation pass, both dividers are the right ones
exactly when both fit a byte. -/
theorem txDividers_isLeast_iff (f : UInt64) (linkSpeed : Option UInt32)
    (hf : 2 * f.toNat < 2 ^ 64) :
    (∀ d, txDividers f linkSpeed = .ok d → RightDividers f.toNat linkSpeed d) ↔
      (10 ^ 7 ≤ 2 * f.toNat → requestedBitrate linkSpeed ≤ 2 * f.toNat →
        2 * f.toNat ≤ 256 * 10 ^ 7 ∧ 2 * f.toNat ≤ 256 * requestedBitrate linkSpeed) := by
  have hbounds := requestedBitrate_bounds linkSpeed
  have hinit (h : 10 ^ 7 ≤ 2 * f.toNat) :
      IsLeast {d | 2 * f.toNat ≤ 10 ^ 7 * (d + 1)} (txDiv f (10 * megaHz)).toNat ↔
        2 * f.toNat ≤ 256 * 10 ^ 7 :=
    isLeast_txDiv_iff (b := 10 * megaHz) hf (by decide) (by decide) h
  have hoper (h : requestedBitrate linkSpeed ≤ 2 * f.toNat) :
      IsLeast {d | 2 * f.toNat ≤ requestedBitrate linkSpeed * (d + 1)}
          (txDiv f (operBitrate linkSpeed)).toNat ↔
        2 * f.toNat ≤ 256 * requestedBitrate linkSpeed := by
    rw [← toNat_operBitrate] at h hbounds ⊢
    exact isLeast_txDiv_iff hf hbounds.1 hbounds.2 h
  constructor
  · intro h h7 hb
    rcases h _ ((txDividers_eq_ok hf).mpr ⟨h7, hb, rfl⟩) with ⟨hleast, hleast'⟩
    exact ⟨(hinit h7).mp hleast, (hoper hb).mp hleast'⟩
  · intro h d hd
    rcases (txDividers_eq_ok hf).mp hd with ⟨h7, hb, rfl⟩
    exact ⟨(hinit h7).mpr (h h7 hb).1, (hoper hb).mpr (h h7 hb).2⟩

/-- A clock of 100 MHz and a link of 2 Mbit/s: the dividers 19 and 99. -/
theorem txDividers_100_MHz : txDividers 100000000 (some 2) = .ok (19, 99) ∧
    RightDividers 100000000 (some 2) (19, 99) :=
  ⟨by decide, (txDividers_isLeast_iff 100000000 (some 2) (by decide)).mpr
    (fun _ _ => ⟨by decide, by decide⟩) _ (by decide)⟩

/-- A clock of 300 MHz and a link of 2 Mbit/s pass the assertions with the divider 43 in
place of 299, which makes the link run at more than 13 Mbit/s. -/
theorem txDividers_300_MHz : txDividers 300000000 (some 2) = .ok (59, 43) ∧
    ¬ ∀ d, txDividers 300000000 (some 2) = .ok d → RightDividers 300000000 (some 2) d := by
  have hdividers : txDividers 300000000 (some 2) = .ok (59, 43) := by decide
  refine ⟨hdividers, ?_⟩
  intro h
  have hrate := (rate_of_isLeast (h _ hdividers).2).1
  exact absurd hrate (by decide)

end Samrh71Drivers.Spw
