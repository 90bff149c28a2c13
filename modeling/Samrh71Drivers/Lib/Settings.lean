import Mathlib.Data.List.Induction
import Mathlib.Logic.Function.Basic

/-!
# Registers that several clients set

Clients that are set up one after the other write their settings to registers, and nobody
reads what was there before. Where no register gets one value from two clients, the settings
of a client are in force at the end exactly if the last one of the clients that write to one
of its registers is the client itself (`Plan.inForce_iff`), and the settings of all of them
are exactly if no two of them meet at a register (`Plan.all_inForce_iff`).

## Main definitions

* `Registers`, `write` — registers, and settings written in order.
* `Plan` — the settings of each client.
* `Plan.Meets`, `Plan.InForce` — two clients write to one register; a client has what it set.
-/

namespace Settings

universe u v w

/-- The value each register has been set to. -/
abbrev Registers (κ : Type u) (ν : Type v) := κ → Option ν

section Write

variable {κ : Type u} {ν : Type v} [DecidableEq κ]

/-- Write settings in order. -/
def write (r : Registers κ ν) (settings : List (κ × ν)) : Registers κ ν :=
  settings.foldl (fun r s => Function.update r s.1 (some s.2)) r

variable {r : Registers κ ν} {settings : List (κ × ν)} {k : κ} {a : ν}

@[simp] theorem write_nil : write r [] = r := rfl

@[simp] theorem write_cons (s : κ × ν) :
    write r (s :: settings) = write (Function.update r s.1 (some s.2)) settings := rfl

/-- A register that is not written to keeps its value. -/
theorem write_of_not_mem (h : k ∉ settings.map Prod.fst) : write r settings k = r k := by
  induction settings generalizing r with
  | nil => rfl
  | cons s settings ih =>
    rw [List.map_cons, List.mem_cons, not_or] at h
    rw [write_cons, ih h.2, Function.update_of_ne h.1]

/-- A register that is written to once has the value that is written to it. -/
theorem write_of_mem (hnodup : (settings.map Prod.fst).Nodup) (h : (k, a) ∈ settings) :
    write r settings k = some a := by
  induction settings generalizing r with
  | nil => cases h
  | cons s settings ih =>
    rw [List.map_cons, List.nodup_cons] at hnodup
    rw [write_cons]
    rcases List.mem_cons.mp h with rfl | h
    · rw [write_of_not_mem hnodup.1, Function.update_self]
    · exact ih hnodup.2 h

end Write

/-- The settings of each client. No client writes to a register twice, and no register gets
one value from two clients. -/
structure Plan (δ : Type w) (κ : Type u) (ν : Type v) where
  settings : δ → List (κ × ν)
  ne_nil : ∀ d, settings d ≠ []
  nodup : ∀ d, ((settings d).map Prod.fst).Nodup
  exclusive : ∀ d d' s, s ∈ settings d → s ∈ settings d' → d = d'

namespace Plan

variable {δ : Type w} {κ : Type u} {ν : Type v} (P : Plan δ κ ν)

/-- Two clients write to one register. -/
def Meets (d d' : δ) : Prop :=
  ∃ k ∈ (P.settings d).map Prod.fst, k ∈ (P.settings d').map Prod.fst

/-- The registers of a client have the values it has set. -/
def InForce (r : Registers κ ν) (d : δ) : Prop := ∀ s ∈ P.settings d, r s.1 = some s.2

instance [DecidableEq κ] (d d' : δ) : Decidable (P.Meets d d') :=
  inferInstanceAs (Decidable (∃ k ∈ _, _))

variable {P} {d d' : δ} {ds : List δ} {r : Registers κ ν}

theorem Meets.refl (d : δ) : P.Meets d d := by
  obtain ⟨s, hs⟩ := List.exists_mem_of_ne_nil _ (P.ne_nil d)
  exact ⟨s.1, List.mem_map_of_mem hs, List.mem_map_of_mem hs⟩

/-- Two clients that meet are not both in force. -/
theorem InForce.eq_of_meets (h : P.InForce r d) (h' : P.InForce r d') (hmeets : P.Meets d d') :
    d = d' := by
  obtain ⟨k, hk, hk'⟩ := hmeets
  obtain ⟨⟨_, a⟩, hs, rfl⟩ := List.mem_map.mp hk
  obtain ⟨⟨k', a'⟩, hs', hkey⟩ := List.mem_map.mp hk'
  obtain rfl : k' = _ := hkey
  have hvalue : some a = some a' := (h _ hs).symm.trans (h' _ hs')
  obtain rfl := Option.some.inj hvalue
  exact P.exclusive d d' _ hs hs'

variable [DecidableEq κ]

/-- A client that is set up is in force. -/
theorem inForce_write (r : Registers κ ν) (d : δ) : P.InForce (write r (P.settings d)) d :=
  fun _ hs => write_of_mem (P.nodup d) hs

/-- A client that does not meet another one leaves it as it is. -/
theorem inForce_write_iff (h : ¬ P.Meets d d') :
    P.InForce (write r (P.settings d')) d ↔ P.InForce r d := by
  refine forall₂_congr fun s hs => ?_
  rw [write_of_not_mem]
  exact fun hmem => h ⟨s.1, List.mem_map_of_mem hs, hmem⟩

variable (P) in
/-- Set the clients up one after the other. -/
def setUp (ds : List δ) : Registers κ ν :=
  ds.foldl (fun r d => write r (P.settings d)) fun _ => none

theorem setUp_append (ds : List δ) (d : δ) :
    P.setUp (ds ++ [d]) = write (P.setUp ds) (P.settings d) := by
  rw [setUp, List.foldl_append]
  rfl

/-- **The last one counts.** A client is in force at the end exactly if it is the last one of
those that meet it. -/
theorem inForce_iff : P.InForce (P.setUp ds) d ↔ (ds.filter (P.Meets d ·)).getLast? = some d := by
  induction ds using List.reverseRecOn with
  | nil =>
    obtain ⟨s, hs⟩ := List.exists_mem_of_ne_nil _ (P.ne_nil d)
    constructor
    · intro h
      cases h s hs
    · nofun
  | append_singleton ds d' ih =>
    rw [setUp_append, List.filter_append]
    by_cases hmeets : P.Meets d d'
    · have hlast : [d'].filter (P.Meets d ·) = [d'] := by simp [hmeets]
      rw [hlast, List.getLast?_append, List.getLast?_singleton, Option.some_or,
        Option.some.injEq]
      constructor
      · intro h
        exact (h.eq_of_meets (inForce_write _ _) hmeets).symm
      · rintro rfl
        exact inForce_write _ _
    · have hnone : [d'].filter (P.Meets d ·) = [] := by simp [hmeets]
      rw [hnone, List.append_nil, inForce_write_iff hmeets, ih]

/-- **No two clients meet** exactly if all of them are in force at the end. -/
theorem all_inForce_iff : (∀ d ∈ ds, P.InForce (P.setUp ds) d) ↔
    ∀ d ∈ ds, ∀ d' ∈ ds, P.Meets d d' → d = d' := by
  constructor
  · intro h d hd d' hd' hmeets
    exact (h d hd).eq_of_meets (h d' hd') hmeets
  · intro h d hd
    rw [inForce_iff]
    have hmem : d ∈ ds.filter (P.Meets d ·) :=
      List.mem_filter.mpr ⟨hd, decide_eq_true (Meets.refl d)⟩
    obtain ⟨e, he⟩ := Option.isSome_iff_exists.mp
      (List.getLast?_isSome.mpr (List.ne_nil_of_mem hmem))
    have hlast := List.mem_filter.mp (List.mem_of_getLast? he)
    rw [he, h d hd e hlast.1 (of_decide_eq_true hlast.2)]

end Plan
end Settings
