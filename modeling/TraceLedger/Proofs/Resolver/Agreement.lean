import TraceLedger.Node.Resolver

/-! # What resolving leaves behind

What is kept of an address is what the node would answer again, so a resolver that keeps its
answers tells the same as one that asks every time. Only the failures differ: they are told once
for each address that was not known. -/

namespace TraceLedger

namespace ResolverState

/-- An entry in front is found first. -/
theorem find?_cons (entry : (Address × TipsetKey) × AddressInfo) (s : ResolverState)
    (queries : List Query) (address : Address) (tipset : TipsetKey) :
    find? ⟨entry :: s.cache, queries⟩ address tipset =
      if entry.1 = (address, tipset) then some entry.2 else s.find? address tipset := by
  by_cases h : entry.1 = (address, tipset)
  · simp [find?, h]
  · simp [find?, h]

theorem find?_clear_of_ne (s : ResolverState) (address : Address) {tipset other : TipsetKey}
    (h : tipset ≠ other) : (s.clear other).find? address tipset = s.find? address tipset := by
  simp only [find?, clear]
  induction s.cache with
  | nil => rfl
  | cons entry cache ih =>
      by_cases he : entry.1 = (address, tipset)
      · simp [he, h]
      · by_cases ho : entry.1.2 = other
        · simpa [he, ho] using ih
        · simpa [he, ho] using ih

theorem tipset_ne_of_mem_clear {s : ResolverState} {tipset : TipsetKey}
    {entry : (Address × TipsetKey) × AddressInfo} (h : entry ∈ (s.clear tipset).cache) :
    entry.1.2 ≠ tipset := by
  simpa using (List.mem_filter.mp h).2

/-- Nothing is known at a tipset that no entry is about. -/
theorem find?_eq_none_of_ne {s : ResolverState} {tipset : TipsetKey}
    (h : ∀ entry ∈ s.cache, entry.1.2 ≠ tipset) (address : Address) :
    s.find? address tipset = none := by
  simp only [find?, Option.map_eq_none_iff, List.find?_eq_none, decide_eq_true_eq]
  intro entry hentry hkey
  exact h entry hentry (Prod.mk.inj hkey).2

theorem find?_clear_self (s : ResolverState) (address : Address) (tipset : TipsetKey) :
    (s.clear tipset).find? address tipset = none := by
  exact find?_eq_none_of_ne (fun _ hentry => tipset_ne_of_mem_clear hentry) address

/-- Two states know the same of every address at a tipset. -/
def AgreeAt (tipset : TipsetKey) (s t : ResolverState) : Prop :=
  ∀ address, s.find? address tipset = t.find? address tipset

/-- Two states have the same entries, in the same order, at all tipsets but one. -/
def AgreeBeside (tipset : TipsetKey) (s t : ResolverState) : Prop :=
  (s.clear tipset).cache = (t.clear tipset).cache

theorem AgreeBeside.find?_eq {tipset other : TipsetKey} {s t : ResolverState}
    (h : AgreeBeside tipset s t) (ho : other ≠ tipset) (address : Address) :
    s.find? address other = t.find? address other := by
  rw [← find?_clear_of_ne s address ho, ← find?_clear_of_ne t address ho]
  unfold AgreeBeside at h
  simp only [find?]
  rw [h]

theorem AgreeBeside.clear {tipset : TipsetKey} {s t : ResolverState}
    (h : AgreeBeside tipset s t) (other : TipsetKey) :
    AgreeBeside tipset (s.clear other) (t.clear other) := by
  have hcomm (u : ResolverState) :
      ((u.clear other).clear tipset).cache = ((u.clear tipset).clear other).cache := by
    simp only [ResolverState.clear, List.filter_filter, Bool.and_comm]
  unfold AgreeBeside at h ⊢
  rw [hcomm, hcomm]
  simp only [ResolverState.clear] at h ⊢
  rw [h]

end ResolverState

namespace Resolver

open ResolverState

/-- Everything that is known is what the node would answer again. -/
def Sound (r : Resolver) (s : ResolverState) : Prop :=
  ∀ address tipset info, s.find? address tipset = some info →
    info = (r.lookup address tipset).info

theorem resolve_of_find?_eq_some {r : Resolver} {address : Address} {tipset : TipsetKey}
    {s : ResolverState} {info : AddressInfo} (h : s.find? address tipset = some info) :
    r.resolve address tipset s = (⟨info, []⟩, s) := by
  simp [resolve, h]

theorem resolve_of_find?_eq_none {r : Resolver} {address : Address} {tipset : TipsetKey}
    {s : ResolverState} (h : s.find? address tipset = none) :
    r.resolve address tipset s = (r.lookup address tipset, {
      cache := ((address, tipset), (r.lookup address tipset).info) :: s.cache
      queries := (r.questions address tipset).reverse ++ s.queries }) := by
  simp [resolve, h, inquire_eq]

theorem sound_of_cache_eq_nil (r : Resolver) {s : ResolverState} (h : s.cache = []) :
    r.Sound s := by
  intro address tipset info hfind
  simp [find?, h] at hfind

/-- Resolving tells what asking the node would tell. -/
theorem Sound.info_resolve {r : Resolver} {s : ResolverState} (h : r.Sound s)
    (address : Address) (tipset : TipsetKey) :
    (r.resolve address tipset s).1.info = (r.lookup address tipset).info := by
  cases hfind : s.find? address tipset with
  | none => rw [resolve_of_find?_eq_none hfind]
  | some info =>
      rw [resolve_of_find?_eq_some hfind]
      exact h address tipset info hfind

theorem Sound.resolve {r : Resolver} {s : ResolverState} (h : r.Sound s)
    (address : Address) (tipset : TipsetKey) : r.Sound (r.resolve address tipset s).2 := by
  cases hfind : s.find? address tipset with
  | some info =>
      rw [resolve_of_find?_eq_some hfind]
      exact h
  | none =>
      rw [resolve_of_find?_eq_none hfind]
      intro address' tipset' info' hinfo
      rw [find?_cons] at hinfo
      split at hinfo
      next heq =>
        cases heq
        exact (Option.some.inj hinfo).symm
      next => exact h address' tipset' info' hinfo

theorem Sound.clear {r : Resolver} {s : ResolverState} (h : r.Sound s) (tipset : TipsetKey) :
    r.Sound (s.clear tipset) := by
  intro address other info hinfo
  by_cases ho : other = tipset
  · rw [ho, find?_clear_self] at hinfo
    cases hinfo
  · rw [find?_clear_of_ne s address ho] at hinfo
    exact h address other info hinfo

/-- Resolving depends on what is known at the tipset only, and adds to that alone. -/
theorem resolve_agreeAt {r : Resolver} {tipset : TipsetKey} {s t : ResolverState}
    (h : AgreeAt tipset s t) (address : Address) :
    (r.resolve address tipset s).1 = (r.resolve address tipset t).1 ∧
      AgreeAt tipset (r.resolve address tipset s).2 (r.resolve address tipset t).2 := by
  cases hfind : s.find? address tipset with
  | some info =>
      rw [resolve_of_find?_eq_some hfind, resolve_of_find?_eq_some ((h address).symm.trans hfind)]
      exact ⟨rfl, h⟩
  | none =>
      rw [resolve_of_find?_eq_none hfind, resolve_of_find?_eq_none ((h address).symm.trans hfind)]
      refine ⟨rfl, ?_⟩
      intro address'
      rw [find?_cons, find?_cons, h address']

/-- Resolving at one tipset does not show at another one. -/
theorem find?_resolve_of_ne (r : Resolver) (address asked : Address) {tipset other : TipsetKey}
    (h : tipset ≠ other) (s : ResolverState) :
    (r.resolve asked other s).2.find? address tipset = s.find? address tipset := by
  cases hfind : s.find? asked other with
  | some info => rw [resolve_of_find?_eq_some hfind]
  | none =>
      rw [resolve_of_find?_eq_none hfind, find?_cons, if_neg]
      intro heq
      exact h (Prod.mk.inj heq).2.symm

/-- Resolving at a tipset leaves all entries at other tipsets as they are. -/
theorem resolve_agreeBeside_self (r : Resolver) (address : Address) (tipset : TipsetKey)
    (s : ResolverState) : AgreeBeside tipset (r.resolve address tipset s).2 s := by
  cases hfind : s.find? address tipset with
  | some info => rw [resolve_of_find?_eq_some hfind]; rfl
  | none => rw [resolve_of_find?_eq_none hfind]; simp [AgreeBeside, ResolverState.clear]

theorem resolve_agreeBeside {r : Resolver} {tipset : TipsetKey} {s t : ResolverState}
    (h : AgreeBeside tipset s t) (address : Address) (other : TipsetKey) :
    AgreeBeside tipset (r.resolve address other s).2 (r.resolve address other t).2 := by
  by_cases ho : other = tipset
  · subst ho
    exact (resolve_agreeBeside_self r address other s).trans
      (h.trans (resolve_agreeBeside_self r address other t).symm)
  · have hfind := h.find?_eq ho address
    cases hs : s.find? address other with
    | some info =>
        rw [resolve_of_find?_eq_some hs, resolve_of_find?_eq_some (hfind.symm.trans hs)]
        exact h
    | none =>
        rw [resolve_of_find?_eq_none hs, resolve_of_find?_eq_none (hfind.symm.trans hs)]
        simp only [AgreeBeside, ResolverState.clear] at h ⊢
        rw [List.filter_cons_of_pos (by simp [ho]), List.filter_cons_of_pos (by simp [ho]), h]

/-! ## Several addresses -/

/-- Resolves addresses at one tipset, one after the other. Gives their failures in order. -/
def resolveAll (r : Resolver) (tipset : TipsetKey) :
    List Address → ResolverState → List LookupFailure × ResolverState
  | [], s => ([], s)
  | address :: rest, s =>
    let (resolved, s) := r.resolve address tipset s
    let (failures, s) := resolveAll r tipset rest s
    (resolved.failures ++ failures, s)

theorem resolveAll_append (r : Resolver) (tipset : TipsetKey) (first second : List Address)
    (s : ResolverState) :
    r.resolveAll tipset (first ++ second) s =
      ((r.resolveAll tipset first s).1 ++
          (r.resolveAll tipset second (r.resolveAll tipset first s).2).1,
        (r.resolveAll tipset second (r.resolveAll tipset first s).2).2) := by
  induction first generalizing s with
  | nil => rfl
  | cons address rest ih => simp [resolveAll, ih]

theorem Sound.resolveAll {r : Resolver} {s : ResolverState} (h : r.Sound s)
    (tipset : TipsetKey) (addresses : List Address) :
    r.Sound (r.resolveAll tipset addresses s).2 := by
  induction addresses generalizing s with
  | nil => exact h
  | cons address rest ih => exact ih (h.resolve address tipset)

theorem resolveAll_agreeAt {r : Resolver} {tipset : TipsetKey} {s t : ResolverState}
    (h : AgreeAt tipset s t) (addresses : List Address) :
    (r.resolveAll tipset addresses s).1 = (r.resolveAll tipset addresses t).1 ∧
      AgreeAt tipset (r.resolveAll tipset addresses s).2 (r.resolveAll tipset addresses t).2 := by
  induction addresses generalizing s t with
  | nil => exact ⟨rfl, h⟩
  | cons address rest ih =>
      obtain ⟨hfirst, hafter⟩ := resolve_agreeAt (r := r) h address
      obtain ⟨hrest, hlast⟩ := ih hafter
      exact ⟨by simp only [resolveAll, hfirst, hrest], hlast⟩

theorem resolveAll_agreeBeside_self (r : Resolver) (tipset : TipsetKey)
    (addresses : List Address) (s : ResolverState) :
    AgreeBeside tipset (r.resolveAll tipset addresses s).2 s := by
  induction addresses generalizing s with
  | nil => rfl
  | cons address rest ih =>
      exact (ih _).trans (resolve_agreeBeside_self r address tipset s)

end Resolver
end TraceLedger
