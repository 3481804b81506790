import TraceLedger.Proofs.Method.Tables

/-! # Methods from release to release

The releases that have a method are an interval: from the one that added it to the one before it
was retired. A method that was never retired is marked as retired in the last release that there
is a number for. So it is in all later releases but that one, whose table has every actor and no
method. -/

namespace TraceLedger

namespace MethodDef

/-- No release was named that retires the method. -/
def IsUnretired (d : MethodDef) : Prop := d.retired = lastRelease

instance (d : MethodDef) : Decidable d.IsUnretired := inferInstanceAs (Decidable (_ = _))

/-- A method stays until it is retired. -/
theorem isActive_iff_lt_retired {d : MethodDef} {earlier later : UInt32} (hle : earlier ≤ later)
    (h : d.isActive earlier = true) : d.isActive later = true ↔ later < d.retired := by
  have hadded := UInt32.le_trans (isActive_iff.mp h).1 hle
  rw [isActive_iff]
  exact and_iff_right hadded

theorem le_lastRelease (release : UInt32) : release ≤ lastRelease := by
  have hlt := release.toNat_lt
  exact UInt32.le_iff_toNat_le.mpr (Nat.le_of_lt_succ hlt)

theorem lt_lastRelease_iff {release : UInt32} : release < lastRelease ↔ release ≠ lastRelease := by
  constructor
  · rintro hlt rfl
    exact UInt32.lt_irrefl _ hlt
  · exact fun hne => UInt32.lt_of_le_of_ne (le_lastRelease release) hne

/-- No method is in the last release, not even one that was never retired. -/
theorem isActive_lastRelease (d : MethodDef) : d.isActive lastRelease = false := by
  rw [Bool.eq_false_iff, ne_eq, isActive_iff, not_and, UInt32.not_lt]
  exact fun _ => le_lastRelease d.retired

end MethodDef

namespace MethodTable

open MethodDef

/-- A table defines a method of an actor if its name and its number are found by each other. -/
structure Defines (t : MethodTable) (actor : ActorKind) (number : UInt64) (name : String) :
    Prop where
  method_eq : t.method actor number = .ok name
  number?_eq : t.number? actor name = some number

variable {actor : ActorKind} {d : MethodDef} {number : UInt64} {release earlier later : UInt32}

theorem isIn_of_method_eq_ok {name : String}
    (h : (ofRelease release).method actor number = .ok name) : actor.IsIn release := by
  have hmem := mem_of_method_eq_ok h
  rw [actor?_ofRelease] at hmem
  split at hmem
  next hactor => exact ⟨ActorKind.mem_all_iff.mp hactor.1, hactor.2⟩
  next => cases hmem

/-- The table of a release defines exactly the active methods of the actors in it. -/
theorem defines_ofRelease_iff (hd : d ∈ ofActor actor) :
    (ofRelease release).Defines actor number d.name ↔
      actor.IsIn release ∧ d.isActive release = true ∧ d.number? = some number := by
  constructor
  · intro h
    obtain ⟨-, e, he, hactive, hnumber, hname⟩ := exists_definition h.method_eq
    obtain rfl := eq_of_name_eq he hd hname
    exact ⟨isIn_of_method_eq_ok h.method_eq, hactive, hnumber⟩
  · rintro ⟨hactor, hactive, hnumber⟩
    have hmethod := (method_ofRelease_eq_ok_iff hactor).mpr ⟨d, hd, hactive, hnumber, rfl⟩
    obtain ⟨hsend, hconstruct⟩ := (isOwn_of_mem actor d hd).1
    exact ⟨hmethod, (number?_ofRelease_eq_some_iff hactor hsend hconstruct).mpr hmethod⟩

/-- A method that a release defines is defined in the same way until it is retired. -/
theorem defines_iff_lt_retired (hd : d ∈ ofActor actor) (hle : earlier ≤ later)
    (h : (ofRelease earlier).Defines actor number d.name) :
    (ofRelease later).Defines actor number d.name ↔ later < d.retired := by
  obtain ⟨hactor, hactive, hnumber⟩ := (defines_ofRelease_iff hd).mp h
  have hactor' : actor.IsIn later := ⟨hactor.1, UInt32.le_trans hactor.2 hle⟩
  rw [defines_ofRelease_iff hd, isActive_iff_lt_retired hle hactive]
  exact ⟨fun hlater => hlater.2.1, fun hlt => ⟨hactor', hlt, hnumber⟩⟩

/-- The last release has all actors, and no number of a method has a name in it. -/
theorem method_ofRelease_lastRelease (actor : ActorKind) (number : UInt64) :
    (ofRelease lastRelease).method actor number = .error (.unknownMethod actor.name number) := by
  cases h : (ofRelease lastRelease).method actor number with
  | ok name =>
      obtain ⟨-, d, -, hactive, -⟩ := exists_definition h
      rw [isActive_lastRelease] at hactive
      cases hactive
  | error e =>
      rw [method] at h
      split at h
      next => cases h
      next => exact h.symm

/-- A method that was never retired stays: what defines it in one release defines it in all later
ones under the same number and name, up to the last release and not in it. -/
theorem unretired_methods_stay (hd : d ∈ ofActor actor) (hunretired : d.IsUnretired)
    (hle : earlier ≤ later) (h : (ofRelease earlier).Defines actor number d.name) :
    (ofRelease later).Defines actor number d.name ↔ later ≠ lastRelease := by
  rw [defines_iff_lt_retired hd hle h, hunretired, lt_lastRelease_iff]

/-! ## Calls of contracts -/

theorem defines_invokeContract (h : 10 ≤ release) (hlast : release ≠ lastRelease) :
    (ofRelease release).Defines .evm 3844450837 "InvokeContract" := by
  have hmem : exported "InvokeEVM" "InvokeContract" ∈ ofActor .evm := by decide
  have hactive : (exported "InvokeEVM" "InvokeContract").isActive release = true :=
    isActive_iff.mpr ⟨h, lt_lastRelease_iff.mpr hlast⟩
  exact (defines_ofRelease_iff hmem).mpr ⟨⟨by decide, h⟩, hactive, number?_of_listed? rfl⟩

/-- Calls of contracts are defined from the release that brought contracts to the last but one. -/
theorem unretired_methods_stay_invokeContract :
    exported "InvokeEVM" "InvokeContract" ∈ ofActor .evm ∧
      (exported "InvokeEVM" "InvokeContract").IsUnretired ∧ (10 : UInt32) ≤ 0xfffffffe ∧
      (ofRelease 10).Defines .evm 3844450837 "InvokeContract" ∧
      (ofRelease 0xfffffffe).Defines .evm 3844450837 "InvokeContract" := by
  have hmem : exported "InvokeEVM" "InvokeContract" ∈ ofActor .evm := by decide
  have hunretired : (exported "InvokeEVM" "InvokeContract").IsUnretired := rfl
  have hle : (10 : UInt32) ≤ 0xfffffffe := by decide
  have hfirst : (ofRelease 10).Defines .evm 3844450837 "InvokeContract" :=
    defines_invokeContract (by decide) (by decide)
  exact ⟨hmem, hunretired, hle, hfirst,
    (unretired_methods_stay hmem hunretired hle hfirst).mpr (by decide)⟩

/-- Calls of contracts were never retired and are in release 16, but the last release has contracts
and no calls of them. -/
theorem lastRelease_loses_invokeContract :
    exported "InvokeEVM" "InvokeContract" ∈ ofActor .evm ∧
      (exported "InvokeEVM" "InvokeContract").IsUnretired ∧ (16 : UInt32) ≤ lastRelease ∧
      (ofRelease 16).Defines .evm 3844450837 "InvokeContract" ∧
      (ofRelease lastRelease).hasActor .evm = true ∧
      (ofRelease lastRelease).method .evm 3844450837 =
        .error (.unknownMethod "evm" 3844450837) ∧
      ¬(ofRelease lastRelease).Defines .evm 3844450837 "InvokeContract" := by
  have hmethod := method_ofRelease_lastRelease .evm 3844450837
  refine ⟨by decide, rfl, by decide, defines_invokeContract (by decide) (by decide),
    hasActor_ofRelease_iff.mpr ⟨by decide, by decide⟩, hmethod, fun h => ?_⟩
  have hfound := h.method_eq
  rw [hmethod] at hfound
  cases hfound

end MethodTable
end TraceLedger
