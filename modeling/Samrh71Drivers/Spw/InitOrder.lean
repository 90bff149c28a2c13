import Samrh71Drivers.Spw.Init

/-!
# What the initialisation of the first instance has done

Every step of `samrh71_rtems_spacewire_init` sets something that no later step of the same
call takes back, so how far the call of the first instance has come says what holds:
`Progress` has one line for each of these. The use of the instances and the interrupts
leave it alone (`Frame`).

## Main definitions

* `installPc`, `clearPc`, `resetPc` — the steps for a vector and for a part of the block.
* `Progress`, `Progress.init` — what the first call has done, and its next step.
* `Frame`, `Used` — what the steps of the others leave alone.
* `users` — the instances whose lists and buffers are with the block.
* `Step.cases_on_call` — a step goes on with a call, or uses the instances.
-/

namespace Samrh71Drivers.Spw.Init

open Transition

universe u

/-- The step that installs the handler on a vector. -/
def installPc : Vector → Pc
  | .irq0 => .installIrq0
  | .irq1 => .installIrq1

/-- The step that clears what is pending on a vector. -/
def clearPc : Vector → Pc
  | .irq0 => .clearPending0
  | .irq1 => .clearPending1

/-- The step that resets a part of the block. -/
def resetPc : Part → Pc
  | .link0 => .linkReset0
  | .link1 => .linkReset1
  | .tx => .txReset
  | .rx => .rxReset

/-- The poll task has been started. -/
def Task.started : Task → Bool
  | .absent | .constructed => false
  | _ => true

section

variable {κ : Type u} [DecidableEq κ]

/-! ## The effect of a step on each component -/

section Effect

variable (E : Setup κ) (s : State κ) (i : κ) (rc : Bool) (p : Pc)

@[simp] theorem pc_initEffect : (initEffect E s i rc p).pc = s.pc := by cases p <;> rfl

@[simp] theorem running_initEffect : (initEffect E s i rc p).running = s.running := by
  cases p <;> rfl

@[simp] theorem stopped_initEffect : (initEffect E s i rc p).stopped = s.stopped := by
  cases p <;> rfl

theorem irqSelf_initEffect :
    (initEffect E s i rc p).irqSelf = if p = .setIrqSelf then some i else s.irqSelf := by
  cases p <;> rfl

theorem installed_initEffect (v : Vector) :
    (initEffect E s i rc p).installed v = if p = installPc v then true else s.installed v := by
  cases p <;> cases v <;> rfl

theorem pending_initEffect (v : Vector) :
    (initEffect E s i rc p).pending v = if p = clearPc v then false else s.pending v := by
  cases p <;> cases v <;> rfl

theorem irqEnabled_initEffect :
    (initEffect E s i rc p).irqEnabled = if p = .enableIrq then true else s.irqEnabled := by
  cases p <;> rfl

theorem stale_initEffect (q : Part) :
    (initEffect E s i rc p).stale q = if p = resetPc q then false else s.stale q := by
  cases p <;> cases q <;> rfl

theorem txMask_initEffect : (initEffect E s i rc p).txMask =
    if p = .txUnmask then true else if p = .txReset then false else s.txMask := by
  cases p <;> rfl

theorem rxMask_initEffect : (initEffect E s i rc p).rxMask =
    if p = .rxUnmask then true else if p = .rxReset then false else s.rxMask := by
  cases p <;> rfl

theorem router_initEffect_table : (initEffect E s i rc p).router.table =
    if p = .ownTableEntry then
      Function.update s.router.table (s.device i).nodeId (some ⟨true, 9⟩)
    else if p = .remoteTableEntry then
      Function.update s.router.table (s.device i).remoteNodeId
        (some ⟨false, (s.device i).linkId⟩)
    else s.router.table := by
  cases p <;> rfl

theorem router_initEffect_logical : (initEffect E s i rc p).router.isLogicalAddressRoutingEnabled =
    if p = .routerConfig then true else s.router.isLogicalAddressRoutingEnabled := by
  cases p <;> rfl

theorem links_initEffect (l : Fin 2) (hp0 : p ≠ .linkReset0) (hp1 : p ≠ .linkReset1) :
    (initEffect E s i rc p).links l =
      if p = .setConfig then some (linkConfig s.dividers (s.device i).linkId l) else s.links l := by
  cases p <;> first | rfl | exact absurd rfl hp0 | exact absurd rfl hp1

theorem device_initEffect_of_ne {j : κ} (h : j ≠ i) :
    (initEffect E s i rc p).device j = s.device j := by
  cases p <;> first | rfl | exact device_setDevice_of_ne s _ h

theorem spw_initEffect : ((initEffect E s i rc p).device i).spw =
    if p = .spwInit then some ⟨none, none⟩
    else if p = .registerTxHandler then
      (s.device i).spw.map fun o => { o with txHandler := some i }
    else if p = .registerRxHandler then
      (s.device i).spw.map fun o => { o with rxHandler := some i }
    else (s.device i).spw := by
  cases p <;> simp [initEffect]

theorem txSemaphore_initEffect : ((initEffect E s i rc p).device i).txSemaphore =
    if p = .createTxSemaphore then some (Semaphore.create 1) else (s.device i).txSemaphore := by
  cases p <;> simp [initEffect]

theorem rxSemaphore_initEffect : ((initEffect E s i rc p).device i).rxSemaphore =
    if p = .createRxSemaphore then some (Semaphore.create 0) else (s.device i).rxSemaphore := by
  cases p <;> simp [initEffect]

theorem flags_initEffect : ((initEffect E s i rc p).device i).rxDeactivated =
      (if p = .clearFlags then false else (s.device i).rxDeactivated) ∧
    ((initEffect E s i rc p).device i).onTxTimeout =
      if p = .clearFlags then false else (s.device i).onTxTimeout := by
  cases p <;> simp [initEffect]

theorem task_initEffect : ((initEffect E s i rc p).device i).task =
    if p = .constructTask then .constructed else if p = .startTask then .arm
    else (s.device i).task := by
  cases p <;> simp [initEffect]

end Effect

/-! ## Progress of the first call -/

/-- The private data has the values of the configurations. -/
structure Configured (a : Args) (d : PrivateData κ) : Prop where
  ipDeviceBusId : d.ipDeviceBusId = a.busId
  linkId : d.linkId = a.deviceConfiguration.linkId.number
  nodeId : d.nodeId = a.deviceConfiguration.nodeId
  remoteNodeId : d.remoteNodeId = a.remoteDeviceConfiguration.nodeId
  removeProtId : d.removeProtId = a.deviceConfiguration.removeProtId.getD false

/-- The object of `i` when its call has come to `p`. -/
def objectAt (i : κ) (p : Pc) : Option (SpwObject κ) :=
  if .spwInit < p then
    some ⟨if .registerTxHandler < p then some i else none,
      if .registerRxHandler < p then some i else none⟩
  else none

/-- What the call for `i` has done, where it is the first one. -/
structure Progress (E : Setup κ) (s : State κ) (i : κ) : Prop where
  configured : .configure < s.pc i → Configured (E.args i) (s.device i)
  irqSelf : .setIrqSelf < s.pc i → s.irqSelf = some i
  pending : ∀ v, clearPc v < s.pc i → s.pending v = false
  installed : ∀ v, s.installed v = true ↔ installPc v < s.pc i
  enabled : .enableIrq < s.pc i → s.irqEnabled = true
  object : (s.device i).spw = objectAt i (s.pc i)
  logical : .routerConfig < s.pc i → s.router.isLogicalAddressRoutingEnabled = true
  ownEntry : (E.args i).deviceConfiguration.nodeId ≠ (E.args i).remoteDeviceConfiguration.nodeId →
    .ownTableEntry < s.pc i →
      s.router.table (E.args i).deviceConfiguration.nodeId = some ⟨true, 9⟩
  remoteEntry : .remoteTableEntry < s.pc i →
    s.router.table (E.args i).remoteDeviceConfiguration.nodeId =
      some ⟨false, (E.args i).deviceConfiguration.linkId.number⟩
  stale : ∀ q, s.stale q = true ↔ E.stale q = true ∧ ¬ resetPc q < s.pc i
  link : .setConfig < s.pc i → ∃ c, s.links (E.args i).deviceConfiguration.linkId.index = some c ∧
    c.command = 3
  txMask : .txUnmask < s.pc i → s.txMask = true
  rxMask : .rxUnmask < s.pc i → s.rxMask = true
  txSemaphore : .createTxSemaphore < s.pc i → (s.device i).txSemaphore.isSome = true
  rxSemaphore : .createRxSemaphore < s.pc i → (s.device i).rxSemaphore.isSome = true

variable {E : Setup κ} {s s' : State κ} {i : κ} {rc : Bool}

/-- A step that is not between the two does not lie behind the first. -/
theorem Pc.ne_of_lt {a p b : Pc} (h : a < p) (hb : ¬ a < b) : p ≠ b := by
  rintro rfl
  exact hb h

theorem configured_initEffect {a : Args} (p : Pc) (ha : E.args i = a)
    (h : p = .configure ∨ Configured a (s.device i)) :
    Configured a ((initEffect E s i rc p).device i) := by
  subst ha
  by_cases hp : p = .configure
  · subst hp
    constructor <;> simp [initEffect]
  · have hold := h.resolve_left hp
    cases p
    case configure => exact absurd rfl hp
    all_goals first
      | exact hold
      | (simp only [initEffect, device_setDevice_self]; exact { hold with })

/-- What a call has passed after a step other than this one, it had passed before. -/
theorem lt_of_lt_advance {a : Pc} (hp : s.pc i ≠ .finished)
    (hpassed : a < ((initEffect E s i rc (s.pc i)).advance i).pc i) (hne : s.pc i ≠ a) :
    a < s.pc i := by
  rw [pc_advance_self, pc_initEffect, Pc.lt_succ_iff hp] at hpassed
  exact hpassed.resolve_right (Ne.symm hne)

/-- **The next step of the first call.** It does what its line says and takes nothing
back. -/
theorem Progress.init (h : Progress E s i) (hp : s.pc i ≠ .finished) :
    Progress E ((initEffect E s i rc (s.pc i)).advance i) i := by
  have hpc : ((initEffect E s i rc (s.pc i)).advance i).pc i = (s.pc i).succ := by simp
  have hlt (a : Pc) : a < ((initEffect E s i rc (s.pc i)).advance i).pc i ↔
      a < s.pc i ∨ a = s.pc i := by
    rw [hpc, Pc.lt_succ_iff hp]
  constructor
  case configured =>
    intro hpassed
    rcases (hlt _).mp hpassed with hold | heq
    · exact configured_initEffect _ rfl (.inr (h.configured hold))
    · exact configured_initEffect _ rfl (.inl heq.symm)
  case irqSelf =>
    intro hpassed
    change (initEffect E s i rc (s.pc i)).irqSelf = some i
    rw [irqSelf_initEffect]
    split
    case isTrue => rfl
    case isFalse hne => exact h.irqSelf (lt_of_lt_advance hp hpassed hne)
  case pending =>
    intro v hpassed
    change (initEffect E s i rc (s.pc i)).pending v = false
    rw [pending_initEffect]
    split
    case isTrue => rfl
    case isFalse hne => exact h.pending v (lt_of_lt_advance hp hpassed hne)
  case installed =>
    intro v
    change (initEffect E s i rc (s.pc i)).installed v = true ↔ _
    rw [installed_initEffect, hlt]
    split
    case isTrue heq => simp [heq]
    case isFalse hne => simp [h.installed, Ne.symm hne]
  case enabled =>
    intro hpassed
    change (initEffect E s i rc (s.pc i)).irqEnabled = true
    rw [irqEnabled_initEffect]
    split
    case isTrue => rfl
    case isFalse hne => exact h.enabled (lt_of_lt_advance hp hpassed hne)
  case object =>
    change ((initEffect E s i rc (s.pc i)).device i).spw = _
    rw [spw_initEffect, h.object]
    simp only [objectAt, hlt]
    split
    case isTrue heq => simp +decide [heq]
    split
    case isTrue heq => simp +decide [heq]
    split
    case isTrue heq => simp +decide [heq]
    case isFalse h1 h2 h3 => simp [Ne.symm h1, Ne.symm h2, Ne.symm h3]
  case logical =>
    intro hpassed
    change (initEffect E s i rc (s.pc i)).router.isLogicalAddressRoutingEnabled = true
    rw [router_initEffect_logical]
    split
    case isTrue => rfl
    case isFalse hne => exact h.logical (lt_of_lt_advance hp hpassed hne)
  case ownEntry =>
    intro hne hpassed
    change (initEffect E s i rc (s.pc i)).router.table _ = _
    rw [router_initEffect_table]
    split
    case isTrue heq =>
      have hconf := h.configured (by rw [heq]; decide)
      rw [hconf.nodeId, Function.update_self]
    case isFalse hown =>
      have hold := h.ownEntry hne (lt_of_lt_advance hp hpassed hown)
      split
      case isTrue heq =>
        have hconf := h.configured (by rw [heq]; decide)
        rw [hconf.remoteNodeId, Function.update_of_ne hne]
        exact hold
      case isFalse => exact hold
  case remoteEntry =>
    intro hpassed
    change (initEffect E s i rc (s.pc i)).router.table _ = _
    rw [router_initEffect_table]
    rcases (hlt _).mp hpassed with hold | heq
    · rw [if_neg (Pc.ne_of_lt hold (by decide)), if_neg (Pc.ne_of_lt hold (by decide))]
      exact h.remoteEntry hold
    · have hconf := h.configured (by rw [← heq]; decide)
      rw [if_neg (by rw [← heq]; decide), if_pos heq.symm, hconf.remoteNodeId, hconf.linkId,
        Function.update_self]
  case stale =>
    intro q
    change (initEffect E s i rc (s.pc i)).stale q = true ↔ _
    rw [stale_initEffect, hlt]
    split
    case isTrue heq => simp [heq]
    case isFalse hne => simp [h.stale, Ne.symm hne]
  case link =>
    intro hpassed
    change ∃ c, (initEffect E s i rc (s.pc i)).links _ = some c ∧ _
    have hconf := h.configured (((hlt _).mp hpassed).elim
      (fun hold => by
        rw [Pc.lt_iff] at hold ⊢
        exact Nat.lt_trans (by decide) hold)
      (fun heq => by rw [← heq]; decide))
    rcases (hlt _).mp hpassed with hold | heq
    · rw [links_initEffect _ _ _ _ _ _ (Pc.ne_of_lt hold (by decide))
        (Pc.ne_of_lt hold (by decide)), if_neg (Pc.ne_of_lt hold (by decide))]
      exact h.link hold
    · rw [links_initEffect _ _ _ _ _ _ (by rw [← heq]; decide) (by rw [← heq]; decide),
        if_pos heq.symm]
      refine ⟨_, rfl, ?_⟩
      simp [linkConfig, hconf.linkId, LinkId.number]
  case txMask =>
    intro hpassed
    change (initEffect E s i rc (s.pc i)).txMask = true
    rw [txMask_initEffect]
    split
    case isTrue => rfl
    case isFalse hne =>
      have hold := lt_of_lt_advance hp hpassed hne
      rw [if_neg (Pc.ne_of_lt hold (by decide))]
      exact h.txMask hold
  case rxMask =>
    intro hpassed
    change (initEffect E s i rc (s.pc i)).rxMask = true
    rw [rxMask_initEffect]
    split
    case isTrue => rfl
    case isFalse hne =>
      have hold := lt_of_lt_advance hp hpassed hne
      rw [if_neg (Pc.ne_of_lt hold (by decide))]
      exact h.rxMask hold
  case txSemaphore =>
    intro hpassed
    change ((initEffect E s i rc (s.pc i)).device i).txSemaphore.isSome = true
    rw [txSemaphore_initEffect]
    split
    case isTrue => rfl
    case isFalse hne => exact h.txSemaphore (lt_of_lt_advance hp hpassed hne)
  case rxSemaphore =>
    intro hpassed
    change ((initEffect E s i rc (s.pc i)).device i).rxSemaphore.isSome = true
    rw [rxSemaphore_initEffect]
    split
    case isTrue => rfl
    case isFalse hne => exact h.rxSemaphore (lt_of_lt_advance hp hpassed hne)

end

/-! ## What the others leave alone -/

section Others

variable {κ : Type u} {E : Setup κ} {s s' : State κ} {i : κ}

/-- From `s` to `s'` nothing of what the call for `i` has done is lost. -/
structure Frame (s s' : State κ) (i : κ) : Prop where
  pc : s'.pc i = s.pc i
  configured : ∀ a, Configured a (s.device i) → Configured a (s'.device i)
  irqSelf : s'.irqSelf = s.irqSelf
  pending : ∀ v, s.pending v = false → s'.pending v = false
  installed : s'.installed = s.installed
  irqEnabled : s'.irqEnabled = s.irqEnabled
  spw : (s'.device i).spw = (s.device i).spw
  router : s'.router = s.router
  stale : s'.stale = s.stale
  links : s'.links = s.links
  txMask : s'.txMask = s.txMask
  rxMask : s'.rxMask = s.rxMask
  txSemaphore : (s'.device i).txSemaphore.isSome = (s.device i).txSemaphore.isSome
  rxSemaphore : (s'.device i).rxSemaphore.isSome = (s.device i).rxSemaphore.isSome

theorem Progress.frame (h : Progress E s i) (hf : Frame s s' i) : Progress E s' i := by
  constructor
  case configured =>
    rw [hf.pc]
    exact fun hpassed => hf.configured _ (h.configured hpassed)
  case pending =>
    rw [hf.pc]
    exact fun v hpassed => hf.pending v (h.pending v hpassed)
  case irqSelf => rw [hf.pc, hf.irqSelf]; exact h.irqSelf
  case installed => rw [hf.pc, hf.installed]; exact h.installed
  case enabled => rw [hf.pc, hf.irqEnabled]; exact h.enabled
  case object => rw [hf.pc, hf.spw]; exact h.object
  case logical => rw [hf.pc, hf.router]; exact h.logical
  case ownEntry => rw [hf.pc, hf.router]; exact h.ownEntry
  case remoteEntry => rw [hf.pc, hf.router]; exact h.remoteEntry
  case stale => rw [hf.pc, hf.stale]; exact h.stale
  case link => rw [hf.pc, hf.links]; exact h.link
  case txMask => rw [hf.pc, hf.txMask]; exact h.txMask
  case rxMask => rw [hf.pc, hf.rxMask]; exact h.rxMask
  case txSemaphore => rw [hf.pc, hf.txSemaphore]; exact h.txSemaphore
  case rxSemaphore => rw [hf.pc, hf.rxSemaphore]; exact h.rxSemaphore

/-- Two records of private data differ at most in what the use of an instance changes. -/
structure SameDevice (d d' : PrivateData κ) : Prop where
  configured : ∀ a, Configured a d → Configured a d'
  spw : d'.spw = d.spw
  txSemaphore : d'.txSemaphore.isSome = d.txSemaphore.isSome
  rxSemaphore : d'.rxSemaphore.isSome = d.rxSemaphore.isSome
  started : d'.task.started = d.task.started

theorem SameDevice.refl (d : PrivateData κ) : SameDevice d d :=
  ⟨fun _ h => h, rfl, rfl, rfl, rfl⟩

theorem SameDevice.trans {d d' d'' : PrivateData κ} (h : SameDevice d d')
    (h' : SameDevice d' d'') : SameDevice d d'' :=
  ⟨fun a ha => h'.configured a (h.configured a ha), h'.spw.trans h.spw,
    h'.txSemaphore.trans h.txSemaphore, h'.rxSemaphore.trans h.rxSemaphore,
    h'.started.trans h.started⟩

/-- From `s` to `s'` the instances and the block have been used, or the program has stopped. -/
structure Used (s s' : State κ) : Prop where
  device : ∀ j, SameDevice (s.device j) (s'.device j)
  pending : ∀ v, s.pending v = false → s'.pending v = false
  rest : s' = { s with
    device := s'.device, pending := s'.pending, txLists := s'.txLists
    txDeactivated := s'.txDeactivated, rxQueued := s'.rxQueued, rxActive := s'.rxActive
    rxFinished := s'.rxFinished, stopped := s'.stopped }

theorem Used.refl (s : State κ) : Used s s := ⟨fun _ => .refl _, fun _ h => h, rfl⟩

theorem Used.trans {s'' : State κ} (h : Used s s') (h' : Used s' s'') : Used s s'' := by
  refine ⟨fun j => (h.device j).trans (h'.device j), fun v hv => h'.pending v (h.pending v hv), ?_⟩
  rw [h'.rest, h.rest]

theorem Used.pc (h : Used s s') : s'.pc = s.pc := by rw [h.rest]

theorem Used.running (h : Used s s') : s'.running = s.running := by rw [h.rest]

theorem Used.frame (h : Used s s') (i : κ) : Frame s s' i := by
  have hd := h.device i
  have hp := h.pending
  rw [h.rest] at hd hp ⊢
  exact ⟨rfl, hd.configured, rfl, hp, rfl, rfl, hd.spw, rfl, rfl, rfl, rfl, rfl, hd.txSemaphore,
    hd.rxSemaphore⟩

theorem used_runHandler {callback : State κ → κ → State κ}
    (h : ∀ s arg, Used s (callback s arg)) (raised : Bool) (handler : Option κ) (s : State κ) :
    Used s (runHandler raised handler callback s) := by
  unfold runHandler
  split
  · exact h _ _
  · exact .refl _

/-- The instances whose send lists and RX buffers are with the block. -/
def users (s : State κ) : List κ :=
  s.txLists ++ s.txDeactivated.toList ++ s.rxQueued.toList ++ s.rxActive.toList ++
    s.rxFinished.toList

/-- A callback gives nothing to the block. -/
theorem users_runHandler {callback : State κ → κ → State κ} {j : κ}
    (h : ∀ s arg, j ∈ users (callback s arg) → j ∈ users s) (raised : Bool) (handler : Option κ)
    (s : State κ) (hj : j ∈ users (runHandler raised handler callback s)) : j ∈ users s := by
  unfold runHandler at hj
  split at hj
  · exact h _ _ hj
  · exact hj

variable [DecidableEq κ]

/-- A change of one record that keeps what the calls have set. -/
theorem Used.setDevice {j : κ} {d : PrivateData κ} (h : SameDevice (s.device j) d) :
    Used s (s.setDevice j d) := by
  refine ⟨fun i => ?_, fun _ hv => hv, rfl⟩
  by_cases hi : i = j
  · rw [hi, device_setDevice_self]
    exact h
  · rw [device_setDevice_of_ne s d hi]
    exact .refl _

theorem used_spwTxCallback (s : State κ) (arg : κ) : Used s (spwTxCallback s arg) := by
  have hclear : Used s { s with txDeactivated := none } := ⟨fun _ => .refl _, fun _ h => h, rfl⟩
  refine hclear.trans (.setDevice ⟨fun _ ha => { ha with }, rfl, ?_, rfl, rfl⟩)
  simp

theorem used_spwRxCallback (s : State κ) (arg : κ) : Used s (spwRxCallback s arg) := by
  have hclear : Used s { s with rxFinished := none } := ⟨fun _ => .refl _, fun _ h => h, rfl⟩
  refine hclear.trans (.setDevice ⟨fun _ ha => { ha with }, rfl, rfl, ?_, rfl⟩)
  simp

theorem used_irqHandler (s : State κ) : Used s (irqHandler s) := by
  rw [irqHandler]
  split
  · exact .refl _
  · split
    · exact .refl _
    · exact (used_runHandler used_spwTxCallback _ _ _).trans
        (used_runHandler used_spwRxCallback _ _ _)

theorem used_interrupt (s : State κ) (v : Vector) : Used s (s.interrupt v) := by
  have hclear : Used s { s with pending := Function.update s.pending v false } := by
    refine ⟨fun _ => .refl _, ?_, rfl⟩
    intro w hw
    by_cases hv : w = v
    · exact hv ▸ Function.update_self _ _ _
    · exact (Function.update_of_ne hv _ _).trans hw
  exact hclear.trans (used_irqHandler _)

/-- An interrupt gives nothing to the block. -/
theorem users_interrupt {v : Vector} {j : κ} (h : j ∈ users (s.interrupt v)) : j ∈ users s := by
  have htx (t : State κ) (arg : κ) (hj : j ∈ users (spwTxCallback t arg)) : j ∈ users t := by
    simp only [users, spwTxCallback, State.setDevice, List.mem_append, Option.toList_none,
      List.not_mem_nil, or_false] at hj ⊢
    tauto
  have hrx (t : State κ) (arg : κ) (hj : j ∈ users (spwRxCallback t arg)) : j ∈ users t := by
    simp only [users, spwRxCallback, State.setDevice, List.mem_append, Option.toList_none,
      List.not_mem_nil, or_false] at hj ⊢
    tauto
  unfold State.interrupt irqHandler at h
  split at h
  · exact h
  split at h
  · exact h
  have hbefore := users_runHandler htx _ _ _ (users_runHandler hrx _ _ _ h)
  exact hbefore

/-- The initialisation gives nothing to the block. -/
theorem users_initEffect {rc : Bool} {k : κ} (p : Pc)
    (h : k ∈ users (initEffect E s i rc p)) : k ∈ users s := by
  cases p
  case txReset | rxReset =>
    simp only [users, initEffect, List.mem_append, Option.toList_none, List.not_mem_nil, or_false,
      false_or] at h ⊢
    tauto
  all_goals exact h

/-- **The steps**: a call begins or goes on, or the instances are used, or a call is refused,
which changes nothing but that the program has stopped. -/
theorem Step.cases_on_call {l : Label κ} (hs : Step E s l s') :
    (∃ i, s.running = none ∧ s.pc i = .outside ∧ s' = s.call i) ∨
    (∃ i rc, s.running = some i ∧ l = .init rc ∧ mayAnswer E s rc (s.pc i) = true ∧
      initAssert E s i rc (s.pc i) = true ∧ s' = (initEffect E s i rc (s.pc i)).advance i) ∨
    Used s s' ∧ ∀ j ∈ users s', j ∈ users s ∨ s.pc j = .finished ∨
      (s.device j).task.started = true := by
  cases hs with
  | begin hrun hpc => exact .inl ⟨_, hrun, hpc, rfl⟩
  | init hrun hmay hassert => exact .inr (.inl ⟨_, _, hrun, rfl, hmay, hassert, rfl⟩)
  | refuse =>
    exact .inr (.inr ⟨⟨fun _ => .refl _, fun _ h => h, rfl⟩, fun _ hj => .inl hj⟩)
  | @send i sem hpc hsem hav =>
    refine .inr (.inr ⟨?_, ?_⟩)
    · have hlist : Used s { s with txLists := s.txLists ++ [i] } :=
        ⟨fun _ => .refl _, fun _ h => h, rfl⟩
      exact hlist.trans (.setDevice ⟨fun _ ha => { ha with }, rfl, by simp [hsem], rfl, rfl⟩)
    · intro j hj
      by_cases hji : j = i
      · exact .inr (.inl (hji ▸ hpc))
      · simp only [users, State.setDevice, List.mem_append, List.mem_singleton, hji,
          or_false] at hj ⊢
        exact .inl hj
  | @txDeactivate i rest hlists =>
    refine .inr (.inr ⟨⟨fun _ => .refl _, fun _ h => h, rfl⟩, ?_⟩)
    intro j hj
    simp only [users, hlists, List.mem_append, List.mem_cons, Option.toList_some,
      List.not_mem_nil, or_false] at hj ⊢
    tauto
  | @arm i htask =>
    refine .inr (.inr ⟨?_, ?_⟩)
    · have hqueue : Used s { s with rxQueued := some i } := ⟨fun _ => .refl _, fun _ h => h, rfl⟩
      exact hqueue.trans
        (.setDevice ⟨fun _ ha => { ha with }, rfl, rfl, rfl, by simp [htask, Task.started]⟩)
    · intro j hj
      by_cases hji : j = i
      · exact .inr (.inr (by simp [hji, htask, Task.started]))
      · simp only [users, State.setDevice, List.mem_append, Option.toList_some,
          List.mem_singleton, hji, or_false] at hj ⊢
        tauto
  | spinActive htask =>
    exact .inr (.inr ⟨.setDevice ⟨fun _ ha => { ha with }, rfl, rfl, rfl,
      by simp [htask, Task.started]⟩, fun _ hj => .inl hj⟩)
  | spin => exact .inr (.inr ⟨.refl _, fun _ hj => .inl hj⟩)
  | wait htask hsem =>
    exact .inr (.inr ⟨.setDevice ⟨fun _ ha => { ha with }, rfl, rfl, by simp [hsem],
      by simp [htask, Task.started]⟩, fun _ hj => .inl hj⟩)
  | process htask =>
    exact .inr (.inr ⟨.setDevice ⟨fun _ ha => { ha with }, rfl, rfl, rfl,
      by simp [htask, Task.started]⟩, fun _ hj => .inl hj⟩)
  | @rxActivate i hqueued =>
    refine .inr (.inr ⟨⟨fun _ => .refl _, fun _ h => h, rfl⟩, ?_⟩)
    intro j hj
    simp only [users, hqueued, List.mem_append, Option.toList_some, Option.toList_none,
      List.mem_singleton, List.not_mem_nil, or_false] at hj ⊢
    tauto
  | @rxDeactivate i hactive =>
    refine .inr (.inr ⟨⟨fun _ => .refl _, fun _ h => h, rfl⟩, ?_⟩)
    intro j hj
    simp only [users, hactive, List.mem_append, Option.toList_some, Option.toList_none,
      List.mem_singleton, List.not_mem_nil, or_false] at hj ⊢
    tauto
  | interrupt => exact .inr (.inr ⟨used_interrupt _ _, fun _ hj => .inl (users_interrupt hj)⟩)

end Others

end Samrh71Drivers.Spw.Init
