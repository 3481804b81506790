import TraceLedger.Proofs.Address.Texts
import TraceLedger.Proofs.AddressBook.Contents
import TraceLedger.Proofs.Resolver.Agreement

/-! # What fails at one tipset

What is known at a tipset is told without failures. So where nothing was known, the failures of an
address are told when it first comes up, and never again. -/

namespace TraceLedger.Resolver

open ResolverState

/-! ## What is known at one tipset -/

/-- Everything that is known at a tipset is what the node would answer again. -/
def SoundAt (r : Resolver) (tipset : TipsetKey) (s : ResolverState) : Prop :=
  ∃ t, r.Sound t ∧ AgreeAt tipset s t

theorem soundAt_of_ne (r : Resolver) {tipset : TipsetKey} {s : ResolverState}
    (h : ∀ entry ∈ s.cache, entry.1.2 ≠ tipset) : r.SoundAt tipset s :=
  ⟨.empty, sound_of_cache_eq_nil r rfl, find?_eq_none_of_ne h⟩

theorem SoundAt.info_resolve {r : Resolver} {tipset : TipsetKey} {s : ResolverState}
    (h : r.SoundAt tipset s) (address : Address) :
    (r.resolve address tipset s).1.info = (r.lookup address tipset).info := by
  obtain ⟨t, ht, hagree⟩ := h
  rw [(resolve_agreeAt hagree address).1, ht.info_resolve]

theorem SoundAt.resolve {r : Resolver} {tipset : TipsetKey} {s : ResolverState}
    (h : r.SoundAt tipset s) (address : Address) :
    r.SoundAt tipset (r.resolve address tipset s).2 := by
  obtain ⟨t, ht, hagree⟩ := h
  exact ⟨_, ht.resolve address tipset, (resolve_agreeAt hagree address).2⟩

/-- Of an address at least its own text is known. -/
theorem short_ne_or_robust_ne (r : Resolver) (address : Address) (tipset : TipsetKey) :
    (r.lookup address tipset).info.short ≠ "" ∨ (r.lookup address tipset).info.robust ≠ "" := by
  unfold lookup
  split
  · exact .inl (address.toText_ne_empty r.network)
  · exact .inr (address.toText_ne_empty r.network)

/-! ## The failures of one address -/

theorem of_mem_attempt {α : Type} {r : Resolver} {address : Address} {lookup : Lookup}
    {answer : Except String (Option α)} {failure : LookupFailure}
    (h : failure ∈ (r.attempt address lookup answer).2) :
    failure.address = address.toText r.network ∧ failure.lookup = lookup := by
  cases answer with
  | ok value => cases h
  | error reason =>
      obtain rfl := List.mem_singleton.mp h
      exact ⟨rfl, rfl⟩

theorem nodup_attempt {α : Type} (r : Resolver) (address : Address) (lookup : Lookup)
    (answer : Except String (Option α)) : (r.attempt address lookup answer).2.Nodup := by
  cases answer with
  | ok value => exact List.nodup_nil
  | error reason => exact List.nodup_singleton _

/-- The failures of two different questions differ. -/
theorem nodup_attempts {α β : Type} (r : Resolver) (address : Address) {first second : Lookup}
    (h : first ≠ second) (answer : Except String (Option α)) (other : Except String (Option β)) :
    ((r.attempt address first answer).2 ++ (r.attempt address second other).2).Nodup := by
  refine List.nodup_append.mpr ⟨r.nodup_attempt _ _ _, r.nodup_attempt _ _ _, ?_⟩
  rintro failure hfirst _ hsecond rfl
  exact h ((of_mem_attempt hfirst).2.symm.trans (of_mem_attempt hsecond).2)

/-- The failures of an address name it. -/
theorem address_of_mem_failures {r : Resolver} {address : Address} {tipset : TipsetKey}
    {failure : LookupFailure} (h : failure ∈ (r.lookup address tipset).failures) :
    failure.address = address.toText r.network := by
  unfold lookup at h
  split at h
  all_goals
    rcases List.mem_append.mp h with h | h
    · exact (of_mem_attempt h).1
    · exact (of_mem_attempt h).1

theorem nodup_failures_lookup (r : Resolver) (address : Address) (tipset : TipsetKey) :
    (r.lookup address tipset).failures.Nodup := by
  unfold lookup
  split
  · exact r.nodup_attempts address (by decide) _ _
  · exact r.nodup_attempts address (by decide) _ _

/-! ## The failures of several addresses -/

/-- Where nothing was known at a tipset, addresses are known after they were resolved there, and
the failures are those of each address, in the order in which the addresses first came up. -/
theorem resolveAll_of_ne (r : Resolver) {tipset : TipsetKey} {s : ResolverState}
    (h : ∀ entry ∈ s.cache, entry.1.2 ≠ tipset) (addresses : List Address) :
    (r.resolveAll tipset addresses s).1 =
        addresses.eraseDups.flatMap (fun address => (r.lookup address tipset).failures) ∧
      ∀ address, (r.resolveAll tipset addresses s).2.find? address tipset =
        if address ∈ addresses then some (r.lookup address tipset).info else none := by
  induction addresses using List.reverseRecOn with
  | nil => exact ⟨rfl, fun address => by simpa [resolveAll] using find?_eq_none_of_ne h address⟩
  | append_singleton front last ih =>
      obtain ⟨hfailures, hknown⟩ := ih
      rw [resolveAll_append, eraseDups_concat, List.flatMap_append, hfailures]
      by_cases hlast : last ∈ front
      · have hfind := (hknown last).trans (if_pos hlast)
        simp only [resolveAll, resolve_of_find?_eq_some hfind, hlast, if_true, List.flatMap_nil,
          hknown, List.mem_append, List.mem_singleton]
        refine ⟨rfl, fun address => ?_⟩
        by_cases haddress : address = last
        · simp [haddress, hlast]
        · simp [haddress]
      · have hfind := (hknown last).trans (if_neg hlast)
        simp only [resolveAll, resolve_of_find?_eq_none hfind, hlast, if_false, List.append_nil,
          List.flatMap_singleton, List.mem_append, List.mem_singleton, true_and]
        intro address
        rw [find?_cons, hknown]
        by_cases haddress : address = last
        · simp [haddress]
        · simp [haddress, Ne.symm haddress]

/-- The failures of different addresses differ. -/
theorem nodup_failures (r : Resolver) (tipset : TipsetKey) {addresses : List Address}
    (h : addresses.Nodup) :
    (addresses.flatMap fun address => (r.lookup address tipset).failures).Nodup := by
  refine List.nodup_flatMap.mpr ⟨fun address _ => r.nodup_failures_lookup address tipset,
    h.imp fun hne failure hfirst hsecond => hne ?_⟩
  exact Address.toText_injective r.network
    ((address_of_mem_failures hfirst).symm.trans (address_of_mem_failures hsecond))

end TraceLedger.Resolver
