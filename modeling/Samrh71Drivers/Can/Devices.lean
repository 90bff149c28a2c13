import Samrh71Drivers.Can.Init
import Mathlib.Data.List.Forall2

/-!
# Several CAN devices on one board

`SamRH71RtemsCanInit` runs once for each device, and the initialisations share the two
variables `isMcanPckConfigured` and `firstConfig`: the peripheral clock of the controllers is
the one the first device has asked for. A board gets through the initialisation of all its
devices, in whatever order, exactly when each of them can be initialised alone and all of them
ask for one clock (`devices_init_iff`); then both controllers run on that clock. The assertion
that `firstConfig` is set never fails.

## Main definitions

* `Device`, `Board` — what is to be initialised, and what has been.
* `initDevices` — the initialisations one after the other.
* `Device.Ok` — a device that can be initialised alone.
* `SamePck` — two configurations that ask for the same clock.
-/

namespace Samrh71Drivers.Can

/-- A device to be initialised, with what the HAL and RTEMS return meanwhile. -/
structure Device where
  calls : InitCalls
  busMessageSize : Int32
  config : Conf

/-- The shared variables, the calls of `Pmc_setPeripheralClkConfig` and the private data of
the devices, in call order. -/
structure Board where
  globals : Globals
  clocks : List (PeripheralId × GclkSrc × UInt64)
  devices : List PrivateData

/-- What one more initialisation leaves on the board. -/
def Board.add (x : Board) (b : Boot) : Board :=
  ⟨b.globals, x.clocks ++ b.clocks, x.devices ++ [b.self]⟩

/-- One call of `SamRH71RtemsCanInit`. -/
def initDevice (n : ℕ) (d : Device) (x : Board) : Outcome InitAssertion Board :=
  match samRH71RtemsCanInit d.calls n x.globals d.busMessageSize d.config with
  | .returned b => .returned (x.add b)
  | .asserted a b => .asserted a (x.add b)
  | .outOfFuel => .outOfFuel

/-- The calls for all devices. -/
def initDevices (n : ℕ) : List Device → Board → Outcome InitAssertion Board
  | [], x => .returned x
  | d :: ds, x => (initDevice n d x).andThen (initDevices n ds)

/-- The static variables before the first call. -/
def Board.initial : Board := ⟨⟨false, none⟩, [], []⟩

/-! ## When one initialisation returns -/

/-- The HAL reports success. -/
def HalResult.ok (r : HalResult) : Prop := r.result = true ∧ r.noError = true

/-- All calls of a PIO configuration succeed. -/
structure PioCalls.Ok (p : PioCalls) : Prop where
  init : p.init.ok
  setTxConfig : p.setTxConfig.ok
  setRxConfig : p.setRxConfig.ok
  standbyInit : p.standbyInit.ok
  setStandbyConfig : p.setStandbyConfig.ok

/-- All calls of an initialisation succeed. -/
structure InitCalls.Ok (c : InitCalls) : Prop where
  pio : c.pio.Ok
  rxSemaphoreCreate : c.rxSemaphoreCreate = true
  txSemaphoreCreate : c.txSemaphoreCreate = true
  setConfig : c.setConfig.ok
  taskConstruct : c.taskConstruct = true
  taskStart : c.taskStart = true

/-- The clock configuration a device gives to the PMC, where both its values are known. -/
def clockOf (config : Conf) : Option (PeripheralId × GclkSrc × UInt64) :=
  (getPckSource config).bind fun src =>
    (getMcanPeripheralId config).map fun id => (id, src, config.pckPrescaler)

/-- Two devices ask for the same clock. -/
def SamePck (c c' : Conf) : Prop :=
  c.pckSource = c'.pckSource ∧ c.pckPrescaler = c'.pckPrescaler

/-- A device that can be initialised alone: its calls succeed, its clock source and its
interface are known, and its messages fit the decoding buffer and, in dynamic-ID mode, a
frame with its ID and a length byte. -/
structure Device.Ok (n : ℕ) (d : Device) : Prop where
  calls : d.calls.Ok
  clock : (clockOf d.config).isSome
  decodingBuffer : toSizeT d.busMessageSize ≤ n
  dynamicId : (∃ dummy, d.config.address = .applicationControlCanId dummy) →
    toSizeT d.busMessageSize ≤ 13

/-- The shared variables let a device through. -/
def Globals.agrees (g : Globals) (config : Conf) : Prop :=
  g.isMcanPckConfigured = true → ∃ first, g.firstConfig = some first ∧ SamePck first config

/-- The shared variables after a device. -/
def Globals.after (g : Globals) (config : Conf) : Globals :=
  if g.isMcanPckConfigured then g else ⟨true, some config⟩

section Returns

variable {calls : InitCalls} {b b' : Boot} {n : ℕ}

theorem assertHal_eq_returned {a : InitAssertion} {r : HalResult} :
    assertHal a r b = .returned b' ↔ r.ok ∧ b' = b := by
  constructor
  · intro h
    rcases Outcome.andThen_eq_returned.mp h with ⟨c, hc, hb⟩
    rcases Outcome.assert_eq_returned.mp hc with ⟨hresult, rfl⟩
    rcases Outcome.assert_eq_returned.mp hb with ⟨herror, hb⟩
    exact ⟨⟨hresult, herror⟩, hb⟩
  · rintro ⟨⟨hresult, herror⟩, rfl⟩
    simp [assertHal, hresult, herror]

theorem configurePio_eq_returned {p : PioCalls} :
    configurePio p b = .returned b' ↔ p.Ok ∧ b' = b := by
  constructor
  · intro h
    rcases Outcome.andThen_eq_returned.mp h with ⟨c₁, h₁, hrest₁⟩
    rcases Outcome.andThen_eq_returned.mp hrest₁ with ⟨c₂, h₂, hrest₂⟩
    rcases Outcome.andThen_eq_returned.mp hrest₂ with ⟨c₃, h₃, hrest₃⟩
    rcases Outcome.andThen_eq_returned.mp hrest₃ with ⟨c₄, h₄, h₅⟩
    rcases assertHal_eq_returned.mp h₁ with ⟨hinit, rfl⟩
    rcases assertHal_eq_returned.mp h₂ with ⟨htx, rfl⟩
    rcases assertHal_eq_returned.mp h₃ with ⟨hrx, rfl⟩
    rcases assertHal_eq_returned.mp h₄ with ⟨hstandby, rfl⟩
    rcases assertHal_eq_returned.mp h₅ with ⟨hset, hb⟩
    exact ⟨⟨hinit, htx, hrx, hstandby, hset⟩, hb⟩
  · rintro ⟨h, rfl⟩
    have hok : ∀ r : HalResult, r.ok → assertHal .pio r b' = .returned b' :=
      fun r hr => assertHal_eq_returned.mpr ⟨hr, rfl⟩
    simp only [configurePio, hok _ h.init, hok _ h.setTxConfig, hok _ h.setRxConfig,
      hok _ h.standbyInit, hok _ h.setStandbyConfig, Outcome.andThen_returned]

/-- The call of `Pmc_setPeripheralClkConfig`, for known values. -/
private theorem setClock_eq_returned (b : Boot) (config : Conf) :
    (match getPckSource config, getMcanPeripheralId config with
      | none, _ => Outcome.asserted InitAssertion.unknownPckSource b
      | some _, none => .asserted .unknownInterface b
      | some src, some id =>
        .returned { b with clocks := b.clocks ++ [(id, src, config.pckPrescaler)] }) =
      .returned b' ↔
    ∃ clock, clockOf config = some clock ∧ b' = { b with clocks := b.clocks ++ [clock] } := by
  cases hsrc : getPckSource config with
  | none => simp [clockOf, hsrc]
  | some src =>
    cases hid : getMcanPeripheralId config with
    | none => simp [clockOf, hsrc, hid]
    | some id => simp [clockOf, hsrc, hid, eq_comm]

/-- The clock configuration returns for a known clock that the shared variables let through. -/
theorem configureMcanPck_eq_returned : configureMcanPck b = .returned b' ↔
    b.globals.agrees b.self.config ∧ ∃ clock, clockOf b.self.config = some clock ∧
      b' = { b with
        globals := b.globals.after b.self.config
        clocks := b.clocks ++ [clock] } := by
  cases hconf : b.globals.isMcanPckConfigured with
  | false =>
    simp only [configureMcanPck, Globals.agrees, Globals.after, hconf, Bool.false_eq_true,
      if_false, Outcome.andThen_returned, false_implies, true_and]
    exact setClock_eq_returned { b with globals := ⟨true, some b.self.config⟩ } b.self.config
  | true =>
    simp only [configureMcanPck, Globals.agrees, Globals.after, hconf, if_true, true_implies]
    cases hfirst : b.globals.firstConfig with
    | none => simp
    | some first =>
      by_cases hsource : first.pckSource = b.self.config.pckSource
      · by_cases hprescaler : first.pckPrescaler = b.self.config.pckPrescaler
        · simp only [hsource, hprescaler, decide_true, Outcome.assert_true,
            Outcome.andThen_returned, Option.some.injEq, exists_eq_left', SamePck, and_self,
            true_and]
          exact setClock_eq_returned b b.self.config
        · simp [SamePck, hsource, hprescaler]
      · simp [SamePck, hsource]

/-- A known clock has a known interface. -/
theorem configureInterface_eq_returned : configureInterface calls b = .returned b' ↔
    calls.pio.Ok ∧ b.globals.agrees b.self.config ∧ ∃ clock,
      clockOf b.self.config = some clock ∧
      b' = { b with
        globals := b.globals.after b.self.config
        clocks := b.clocks ++ [clock] } := by
  have hmcan : configureMcan calls b = .returned b' ↔ calls.pio.Ok ∧
      b.globals.agrees b.self.config ∧ ∃ clock, clockOf b.self.config = some clock ∧
      b' = { b with
        globals := b.globals.after b.self.config
        clocks := b.clocks ++ [clock] } := by
    rw [configureMcan, Outcome.andThen_eq_returned]
    constructor
    · rintro ⟨c, hpio, hpck⟩
      rcases configurePio_eq_returned.mp hpio with ⟨hok, rfl⟩
      exact ⟨hok, configureMcanPck_eq_returned.mp hpck⟩
    · rintro ⟨hok, hpck⟩
      exact ⟨b, configurePio_eq_returned.mpr ⟨hok, rfl⟩, configureMcanPck_eq_returned.mpr hpck⟩
  cases hi : b.self.config.canInterface with
  | mcan0 | mcan1 => simpa only [configureInterface, hi] using hmcan
  | other value =>
    have hclock : clockOf b.self.config = none := by
      simp [clockOf, getMcanPeripheralId, hi]
    simp [configureInterface, hi, hclock]

theorem createSemaphores_eq_returned : createSemaphores calls b = .returned b' ↔
    (calls.rxSemaphoreCreate = true ∧ calls.txSemaphoreCreate = true) ∧
      b' = { b with
        self.rxSemaphore := some ⟨false⟩
        self.txSemaphore := some ⟨false⟩ } := by
  simp only [createSemaphores, Outcome.andThen_eq_returned, Outcome.assert_eq_returned]
  constructor
  · rintro ⟨c, ⟨hrx, rfl⟩, htx, rfl⟩
    exact ⟨⟨hrx, htx⟩, rfl⟩
  · rintro ⟨⟨hrx, htx⟩, rfl⟩
    exact ⟨_, ⟨hrx, rfl⟩, htx, rfl⟩

theorem checkMessageSize_eq_returned : checkMessageSize n b = .returned b' ↔
    (toSizeT b.self.busMessageSize ≤ n ∧
      (ifaceUsesDynamicId b.self = true → toSizeT b.self.busMessageSize ≤ 13)) ∧
      b' = initEscaper b := by
  constructor
  · intro h
    rcases checkMessageSize_returned h with ⟨hb, hfit, hdyn⟩
    exact ⟨⟨hfit, hdyn⟩, hb⟩
  · rintro ⟨⟨hfit, hdyn⟩, rfl⟩
    have hsize : maxMessageSize (initEscaper b).self = b.self.busMessageSize := by
      rw [initEscaper_self]
      rfl
    have huses : ifaceUsesDynamicId (initEscaper b).self = ifaceUsesDynamicId b.self := by
      rw [initEscaper_self]
      rfl
    have hfit' : decide (toSizeT (maxMessageSize b.self) ≤ n) = true := decide_eq_true hfit
    rw [checkMessageSize, hfit', Outcome.assert_true, Outcome.andThen_returned]
    cases hd : ifaceUsesDynamicId b.self with
    | false => simp [huses, hd]
    | true =>
      have hsmall : toSizeT (maxMessageSize (initEscaper b).self) ≤ mcanMaxDataSize + 4 + 1 := by
        rw [hsize]
        exact hdyn hd
      simp [huses, hd, hsmall]

theorem startTask_eq_returned : startTask calls b = .returned b' ↔
    (calls.taskConstruct = true ∧ calls.taskStart = true) ∧
      b' = { b with self.taskStarted := true } := by
  simp only [startTask, Outcome.andThen_eq_returned, Outcome.assert_eq_returned]
  constructor
  · rintro ⟨c, ⟨hconstruct, rfl⟩, hstart, rfl⟩
    exact ⟨⟨hconstruct, hstart⟩, rfl⟩
  · rintro ⟨⟨hconstruct, hstart⟩, rfl⟩
    exact ⟨_, ⟨hconstruct, rfl⟩, hstart, rfl⟩

variable {g : Globals} {d : Device}

/-- The address decides on dynamic-ID mode. -/
theorem ifaceUsesDynamicId_iff {p : PrivateData} :
    ifaceUsesDynamicId p = true ↔ ∃ dummy, p.config.address = .applicationControlCanId dummy := by
  cases h : p.config.address <;> simp [ifaceUsesDynamicId, h]

/-- **What an initialisation that returns has met**, and what it leaves to the next one. -/
theorem canInit_ok
    (h : samRH71RtemsCanInit d.calls n g d.busMessageSize d.config = .returned b) :
    d.Ok n ∧ g.agrees d.config ∧ b.globals = g.after d.config ∧
      b.clocks = (clockOf d.config).toList := by
  rcases Outcome.andThen_eq_returned.mp h with ⟨b₁, h₁, hrest₁⟩
  rcases Outcome.andThen_eq_returned.mp hrest₁ with ⟨b₂, h₂, hrest₂⟩
  rcases Outcome.andThen_eq_returned.mp hrest₂ with ⟨b₃, h₃, hrest₃⟩
  rcases Outcome.andThen_eq_returned.mp hrest₃ with ⟨b₄, h₄, h₅⟩
  rcases configureInterface_eq_returned.mp h₁ with ⟨hpio, hagrees, clock, hclock, rfl⟩
  rcases createSemaphores_eq_returned.mp h₂ with ⟨⟨hrx, htx⟩, rfl⟩
  rcases assertHal_eq_returned.mp h₃ with ⟨hset, rfl⟩
  rcases checkMessageSize_eq_returned.mp h₄ with ⟨⟨hfit, hdyn⟩, rfl⟩
  rcases startTask_eq_returned.mp h₅ with ⟨⟨hconstruct, hstart⟩, rfl⟩
  have hesc : ∀ b : Boot, (initEscaper b).globals = b.globals ∧
      (initEscaper b).clocks = b.clocks := by
    intro b
    unfold initEscaper
    split <;> exact ⟨rfl, rfl⟩
  refine ⟨⟨⟨hpio, hrx, htx, hset, hconstruct, hstart⟩, ?_, hfit, ?_⟩, hagrees, ?_, ?_⟩
  · rw [hclock]
    rfl
  · intro huses
    exact hdyn (ifaceUsesDynamicId_iff.mpr huses)
  · exact (hesc _).1
  · rw [hclock]
    exact (hesc _).2

/-- A device that can be initialised alone is, where the shared variables let it through. -/
theorem canInit_of_ok (hok : d.Ok n) (hagrees : g.agrees d.config) :
    ∃ b, samRH71RtemsCanInit d.calls n g d.busMessageSize d.config = .returned b := by
  obtain ⟨clock, hclock⟩ := Option.isSome_iff_exists.mp hok.clock
  have huses : ∀ p : PrivateData, p.config = d.config → ifaceUsesDynamicId p = true →
      toSizeT d.busMessageSize ≤ 13 := by
    intro p hp huses
    rw [ifaceUsesDynamicId_iff, hp] at huses
    exact hok.dynamicId huses
  rw [samRH71RtemsCanInit,
    configureInterface_eq_returned.mpr ⟨hok.calls.pio, hagrees, clock, hclock, rfl⟩,
    Outcome.andThen_returned, createSemaphores_eq_returned.mpr
      ⟨⟨hok.calls.rxSemaphoreCreate, hok.calls.txSemaphoreCreate⟩, rfl⟩,
    Outcome.andThen_returned, assertHal_eq_returned.mpr ⟨hok.calls.setConfig, rfl⟩,
    Outcome.andThen_returned, checkMessageSize_eq_returned.mpr
      ⟨⟨hok.decodingBuffer, huses _ rfl⟩, rfl⟩,
    Outcome.andThen_returned, startTask_eq_returned.mpr
      ⟨⟨hok.calls.taskConstruct, hok.calls.taskStart⟩, rfl⟩]
  exact ⟨_, rfl⟩

end Returns

/-! ## When the board gets through -/

section Boards

variable {n : ℕ} {g : Globals} {d : Device} {ds : List Device} {x y : Board} {c c' c'' : Conf}

theorem SamePck.refl (c : Conf) : SamePck c c := ⟨rfl, rfl⟩

theorem SamePck.symm (h : SamePck c c') : SamePck c' c := ⟨h.1.symm, h.2.symm⟩

theorem SamePck.trans (h : SamePck c c') (h' : SamePck c' c'') : SamePck c c'' :=
  ⟨h.1.trans h'.1, h.2.trans h'.2⟩

/-- All configurations ask for one clock. -/
def OneClock (cs : List Conf) : Prop := ∀ c ∈ cs, ∀ c' ∈ cs, SamePck c c'

/-- The clock is set as soon as the first device has asked for it. -/
def Globals.WellFormed (g : Globals) : Prop :=
  g.isMcanPckConfigured = true → g.firstConfig.isSome

/-- The configuration the clock has been set for. -/
def Globals.asked (g : Globals) : List Conf :=
  if g.isMcanPckConfigured then g.firstConfig.toList else []

theorem Globals.WellFormed.after (h : g.WellFormed) (c : Conf) : (g.after c).WellFormed := by
  unfold Globals.after
  split
  · exact h
  · exact fun _ => rfl

/-- One more device keeps to one clock exactly when the shared variables let it through and
the rest keeps to the clock they then show. -/
theorem oneClock_cons (h : g.WellFormed) (c : Conf) (cs : List Conf) :
    OneClock (g.asked ++ c :: cs) ↔ g.agrees c ∧ OneClock ((g.after c).asked ++ cs) := by
  cases hconf : g.isMcanPckConfigured with
  | false => simp [Globals.asked, Globals.agrees, Globals.after, hconf]
  | true =>
    obtain ⟨first, hfirst⟩ := Option.isSome_iff_exists.mp (h hconf)
    have hasked : g.asked = [first] := by simp [Globals.asked, hconf, hfirst]
    have hafter : g.after c = g := by simp [Globals.after, hconf]
    have hagrees : g.agrees c ↔ SamePck first c := by simp [Globals.agrees, hconf, hfirst]
    rw [hafter, hasked, hagrees]
    constructor
    · intro hone
      have hmem : ∀ a ∈ [first] ++ cs, a ∈ [first] ++ c :: cs := by
        intro a ha
        simp only [List.singleton_append, List.mem_cons] at ha ⊢
        exact ha.imp_right .inr
      exact ⟨hone first (by simp) c (by simp), fun a ha b hb => hone a (hmem a ha) b (hmem b hb)⟩
    · rintro ⟨hsame, hone⟩
      have hall : ∀ a ∈ [first] ++ c :: cs, SamePck first a := by
        intro a ha
        rcases List.mem_cons.mp ha with rfl | ha
        · exact SamePck.refl _
        · rcases List.mem_cons.mp ha with rfl | ha
          · exact hsame
          · exact hone first (by simp) a (by simp [ha])
      exact fun a ha b hb => (hall a ha).symm.trans (hall b hb)

/-- What one more device does to the board. -/
theorem initDevice_eq_returned : initDevice n d x = .returned y ↔
    ∃ b, samRH71RtemsCanInit d.calls n x.globals d.busMessageSize d.config = .returned b ∧
      y = x.add b := by
  unfold initDevice
  cases samRH71RtemsCanInit d.calls n x.globals d.busMessageSize d.config <;> simp [eq_comm]

/-- **What the remaining devices need**, by induction on them. -/
theorem initDevices_returns_iff (h : x.globals.WellFormed) :
    (∃ y, initDevices n ds x = .returned y) ↔
      (∀ d ∈ ds, d.Ok n) ∧ OneClock (x.globals.asked ++ ds.map Device.config) := by
  induction ds generalizing x with
  | nil =>
    refine ⟨fun _ => ⟨by simp, ?_⟩, fun _ => ⟨x, rfl⟩⟩
    intro a ha b hb
    simp only [List.map_nil, List.append_nil, Globals.asked] at ha hb
    cases hconf : x.globals.isMcanPckConfigured with
    | false => simp [hconf] at ha
    | true =>
      simp only [hconf, if_true, Option.mem_toList] at ha hb
      rw [Option.some.inj (ha.symm.trans hb)]
      exact SamePck.refl b
  | cons d ds ih =>
    rw [List.map_cons, oneClock_cons h, List.forall_mem_cons]
    constructor
    · rintro ⟨y, hy⟩
      obtain ⟨z, hz, hy⟩ := Outcome.andThen_eq_returned.mp hy
      obtain ⟨b, hb, rfl⟩ := initDevice_eq_returned.mp hz
      obtain ⟨hok, hagrees, hglobals, -⟩ := canInit_ok hb
      have hafter : (x.add b).globals = x.globals.after d.config := hglobals
      obtain ⟨hrest, hone⟩ := (ih (x := x.add b) (hafter ▸ h.after d.config)).mp ⟨y, hy⟩
      rw [hafter] at hone
      exact ⟨⟨hok, hrest⟩, hagrees, hone⟩
    · rintro ⟨⟨hok, hrest⟩, hagrees, hone⟩
      obtain ⟨b, hb⟩ := canInit_of_ok hok hagrees
      have hafter : (x.add b).globals = x.globals.after d.config := (canInit_ok hb).2.2.1
      obtain ⟨y, hy⟩ := (ih (x := x.add b) (hafter ▸ h.after d.config)).mpr
        ⟨hrest, by rwa [hafter]⟩
      exact ⟨y, Outcome.andThen_eq_returned.mpr
        ⟨x.add b, initDevice_eq_returned.mpr ⟨b, hb, rfl⟩, hy⟩⟩

/-- What the board shows after the initialisations. -/
theorem initDevices_returned (hy : initDevices n ds x = .returned y) :
    y.clocks = x.clocks ++ ds.flatMap (fun d => (clockOf d.config).toList) ∧
      ∃ ps, y.devices = x.devices ++ ps ∧
        List.Forall₂ (fun d p => Ready n d.busMessageSize d.config p) ds ps := by
  induction ds generalizing x with
  | nil =>
    cases hy
    exact ⟨by simp, [], by simp, .nil⟩
  | cons d ds ih =>
    obtain ⟨z, hz, hy⟩ := Outcome.andThen_eq_returned.mp hy
    obtain ⟨b, hb, rfl⟩ := initDevice_eq_returned.mp hz
    obtain ⟨hclocks, ps, hps, hready⟩ := ih hy
    have hclock : b.clocks = (clockOf d.config).toList := (canInit_ok hb).2.2.2
    refine ⟨?_, b.self :: ps, ?_, .cons (canInit_returned hb) hready⟩
    · rw [hclocks]
      simp [Board.add, hclock]
    · rw [hps]
      simp [Board.add]

/-- The known clocks of devices which all have one. -/
private theorem map_some_flatMap (h : ∀ d ∈ ds, (clockOf d.config).isSome) :
    (ds.flatMap fun d => (clockOf d.config).toList).map some =
      ds.map fun d => clockOf d.config := by
  induction ds with
  | nil => rfl
  | cons d ds ih =>
    obtain ⟨k, hk⟩ := Option.isSome_iff_exists.mp (h d List.mem_cons_self)
    rw [List.flatMap_cons, List.map_append, ih fun d hd => h d (List.mem_cons_of_mem _ hd),
      List.map_cons, hk]
    rfl

/-- Two devices that ask for one clock give it to the PMC. -/
theorem SamePck.clock_eq {k k' : PeripheralId × GclkSrc × UInt64} (h : SamePck c c')
    (hk : clockOf c = some k) (hk' : clockOf c' = some k') : k.2 = k'.2 := by
  obtain ⟨src, hsrc, hid⟩ := Option.bind_eq_some_iff.mp hk
  obtain ⟨src', hsrc', hid'⟩ := Option.bind_eq_some_iff.mp hk'
  obtain ⟨id, -, rfl⟩ := Option.map_eq_some_iff.mp hid
  obtain ⟨id', -, rfl⟩ := Option.map_eq_some_iff.mp hid'
  have hsources : getPckSource c = getPckSource c' := by
    unfold getPckSource
    rw [h.1]
  rw [hsrc, hsrc'] at hsources
  rw [Option.some.inj hsources, h.2]

/-! ### The assertion on `firstConfig` -/

theorem assertHal_fails {a a' : InitAssertion} {r : HalResult} {b : Boot}
    (h : (assertHal a' r b).fails a) : a' = a := by
  simp only [assertHal, Outcome.fails_andThen, Outcome.fails_assert] at h
  rcases h with ⟨-, ha⟩ | ⟨b', -, -, ha⟩ <;> exact ha

theorem configurePio_fails {a : InitAssertion} {p : PioCalls} {b : Boot}
    (h : (configurePio p b).fails a) : a = .pio := by
  simp only [configurePio, Outcome.fails_andThen] at h
  rcases h with h | ⟨b₁, -, h | ⟨b₂, -, h | ⟨b₃, -, h | ⟨b₄, -, h⟩⟩⟩⟩ <;>
    exact (assertHal_fails h).symm

/-- The clock configuration does not find the clock set without its configuration. -/
theorem configureMcanPck_not_fails {b : Boot} (h : b.globals.WellFormed) :
    ¬ (configureMcanPck b).fails .firstConfig := by
  intro hfails
  simp only [configureMcanPck, Outcome.fails_andThen] at hfails
  rcases hfails with hfails | ⟨b', -, hfails⟩
  · cases hconf : b.globals.isMcanPckConfigured with
    | false => simp [hconf] at hfails
    | true =>
      obtain ⟨first, hfirst⟩ := Option.isSome_iff_exists.mp (h hconf)
      simp [hconf, hfirst, Outcome.fails_andThen] at hfails
  · cases hsrc : getPckSource b.self.config with
    | none => simp [hsrc] at hfails
    | some src =>
      cases hid : getMcanPeripheralId b.self.config <;> simp [hsrc, hid] at hfails

theorem canInit_not_fails (h : g.WellFormed) :
    ¬ (samRH71RtemsCanInit d.calls n g d.busMessageSize d.config).fails .firstConfig := by
  have hmcan : ∀ b : Boot, b.globals.WellFormed →
      ¬ (configureMcan d.calls b).fails .firstConfig := by
    intro b hb hfails
    rw [configureMcan, Outcome.fails_andThen] at hfails
    rcases hfails with hfails | ⟨b', hb', hfails⟩
    · cases configurePio_fails hfails
    · rw [configurePio_returned hb'] at hfails
      exact configureMcanPck_not_fails hb hfails
  intro hfails
  simp only [samRH71RtemsCanInit, Outcome.fails_andThen] at hfails
  rcases hfails with hfails | ⟨b₁, -, hfails | ⟨b₂, -, hfails | ⟨b₃, -, hfails | ⟨b₄, -, hfails⟩⟩⟩⟩
  · cases hi : d.config.canInterface with
    | mcan0 | mcan1 =>
      simp only [configureInterface, hi] at hfails
      exact hmcan _ h hfails
    | other value => simp [configureInterface, hi] at hfails
  · simp [createSemaphores, Outcome.fails_andThen] at hfails
  · cases assertHal_fails hfails
  · simp only [checkMessageSize, Outcome.fails_andThen, Outcome.fails_assert] at hfails
    rcases hfails with ⟨-, hne⟩ | ⟨b', -, hfails⟩
    · cases hne
    · split at hfails <;> simp at hfails
  · simp [startTask, Outcome.fails_andThen] at hfails

theorem initDevices_not_fails (h : x.globals.WellFormed) :
    ¬ (initDevices n ds x).fails .firstConfig := by
  induction ds generalizing x with
  | nil => exact id
  | cons d ds ih =>
    intro hfails
    rw [initDevices, Outcome.fails_andThen] at hfails
    rcases hfails with hfails | ⟨z, hz, hfails⟩
    · refine canInit_not_fails (n := n) (d := d) h ?_
      unfold initDevice at hfails
      cases hcall : samRH71RtemsCanInit d.calls n x.globals d.busMessageSize d.config with
      | returned b => simp [hcall] at hfails
      | asserted a b => simpa [hcall] using hfails
      | outOfFuel => simp [hcall] at hfails
    · obtain ⟨b, hb, rfl⟩ := initDevice_eq_returned.mp hz
      have hafter : (x.add b).globals = x.globals.after d.config := (canInit_ok hb).2.2.1
      exact ih (x := x.add b) (hafter ▸ h.after d.config) hfails

/-- **The devices of a board share one clock.** The initialisations of any devices in any
order all return exactly when each device can be initialised alone and no two of them ask for
different clocks. Then every device is ready, and every clock configuration given to the PMC
is the one clock. The assertion on `firstConfig` does not fail in any case. -/
theorem devices_init_iff (n : ℕ) (ds : List Device) :
    ((∃ y, initDevices n ds .initial = .returned y) ↔
      (∀ d ∈ ds, d.Ok n) ∧ OneClock (ds.map Device.config)) ∧
    (∀ y, initDevices n ds .initial = .returned y →
      List.Forall₂ (fun d p => Ready n d.busMessageSize d.config p) ds y.devices ∧
      y.clocks.map some = ds.map (fun d => clockOf d.config) ∧
      ∀ c ∈ y.clocks, ∀ c' ∈ y.clocks, c.2 = c'.2) ∧
    ¬ (initDevices n ds .initial).fails .firstConfig := by
  have hinitial : Board.initial.globals.WellFormed := nofun
  have hiff : (∃ y, initDevices n ds .initial = .returned y) ↔
      (∀ d ∈ ds, d.Ok n) ∧ OneClock (ds.map Device.config) := initDevices_returns_iff hinitial
  refine ⟨hiff, fun y hy => ?_, initDevices_not_fails hinitial⟩
  obtain ⟨hok, hone⟩ := hiff.mp ⟨y, hy⟩
  obtain ⟨hclocks, ps, hps, hready⟩ := initDevices_returned hy
  have hclock : ∀ c ∈ y.clocks, ∃ d ∈ ds, clockOf d.config = some c := by
    intro c hc
    rw [hclocks] at hc
    simpa [Board.initial] using hc
  refine ⟨?_, ?_, fun c hc c' hc' => ?_⟩
  · rw [hps]
    exact hready
  · rw [hclocks]
    exact map_some_flatMap fun d hd => (hok d hd).clock
  · obtain ⟨d, hd, hk⟩ := hclock c hc
    obtain ⟨d', hd', hk'⟩ := hclock c' hc'
    exact (hone _ (List.mem_map_of_mem hd) _ (List.mem_map_of_mem hd')).clock_eq hk hk'

end Boards

/-- Calls that all succeed. -/
def successful : InitCalls where
  pio := ⟨⟨true, true⟩, ⟨true, true⟩, ⟨true, true⟩, ⟨true, true⟩, ⟨true, true⟩⟩
  rxSemaphoreCreate := true
  txSemaphoreCreate := true
  setConfig := ⟨true, true⟩
  taskConstruct := true
  taskStart := true

/-- A device on each controller, one with a fixed identifier and long messages, the other in
dynamic-ID mode. -/
def bothControllers (prescaler prescaler' : UInt64) : List Device :=
  [⟨successful, 40, ⟨.mcan0, .pllaClock, prescaler, .staticCanId (.standard 5)⟩⟩,
    ⟨successful, 13, ⟨.mcan1, .pllaClock, prescaler', .applicationControlCanId true⟩⟩]

/-- The two controllers on one clock. -/
theorem bothControllers_init : ∃ y, initDevices 64 (bothControllers 4 4) .initial = .returned y ∧
    y.clocks = [(.mcan0, .pllack, 4), (.mcan1, .pllack, 4)] := by
  have hok : (∀ d ∈ bothControllers 4 4, d.Ok 64) ∧
      OneClock ((bothControllers 4 4).map Device.config) := by
    constructor
    · have hcalls : successful.Ok :=
        ⟨⟨⟨rfl, rfl⟩, ⟨rfl, rfl⟩, ⟨rfl, rfl⟩, ⟨rfl, rfl⟩, ⟨rfl, rfl⟩⟩, rfl, rfl, ⟨rfl, rfl⟩, rfl, rfl⟩
      intro d hd
      simp only [bothControllers, List.mem_cons, List.not_mem_nil, or_false] at hd
      rcases hd with rfl | rfl
      · exact ⟨hcalls, rfl, by decide, by simp⟩
      · exact ⟨hcalls, rfl, by decide, fun _ => by decide⟩
    · intro c hc c' hc'
      simp only [bothControllers, List.map_cons, List.map_nil, List.mem_cons, List.not_mem_nil,
        or_false] at hc hc'
      rcases hc with rfl | rfl <;> rcases hc' with rfl | rfl <;> exact ⟨rfl, rfl⟩
  obtain ⟨y, hy⟩ := (devices_init_iff 64 (bothControllers 4 4)).1.mpr hok
  refine ⟨y, hy, ?_⟩
  have hrun : initDevices 64 (bothControllers 4 4) .initial = .returned _ := rfl
  rw [hrun] at hy
  cases hy
  rfl

end Samrh71Drivers.Can
