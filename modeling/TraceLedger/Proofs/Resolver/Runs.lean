import Mathlib.Data.List.Induction
import TraceLedger.Proofs.Resolver.Questions

/-! # Runs of a resolver

A resolver that keeps what it learnt tells the same as one that asks every time. It asks again
exactly about what was not resolved since its tipset was last cleared, and that is also what it
has an entry for. -/

namespace TraceLedger

namespace Resolver

open ResolverState

/-- A use of a resolver. -/
inductive Step where
  | resolve (address : Address) (tipset : TipsetKey)
  | actorAt (address : Address) (tipset : TipsetKey)
  | clear (tipset : TipsetKey)

namespace Step

/-- The state after a step. -/
def run (r : Resolver) : Step → ResolverState → ResolverState
  | resolve address tipset, s => (r.resolve address tipset s).2
  | actorAt address tipset, s => (r.actorAt address tipset s).2
  | clear tipset, s => s.clear tipset

/-- The state after steps in order. -/
def runAll (r : Resolver) (steps : List Step) (s : ResolverState) : ResolverState :=
  steps.foldl (fun s step => step.run r s) s

/-- What a step resolves. -/
def resolved? : Step → Option (Address × TipsetKey)
  | resolve address tipset => some (address, tipset)
  | actorAt address tipset => some (address, tipset)
  | clear _ => none

/-- An address was resolved at a tipset, and the tipset was not cleared since. -/
def ResolvedSince (steps : List Step) (pair : Address × TipsetKey) : Prop :=
  ∃ before step after, steps = before ++ step :: after ∧ step.resolved? = some pair ∧
    clear pair.2 ∉ after

theorem not_resolvedSince_nil (pair : Address × TipsetKey) : ¬ ResolvedSince [] pair := by
  rintro ⟨before, step, after, h, -, -⟩
  cases before <;> cases h

/-- The last step resolves the pair itself, or leaves it resolved. -/
theorem resolvedSince_concat_iff {steps : List Step} {step : Step} {pair : Address × TipsetKey} :
    ResolvedSince (steps ++ [step]) pair ↔
      step.resolved? = some pair ∨ (step ≠ clear pair.2 ∧ ResolvedSince steps pair) := by
  constructor
  · rintro ⟨before, first, after, hsteps, hfirst, hafter⟩
    rcases List.eq_nil_or_concat after with rfl | ⟨middle, last, rfl⟩
    · obtain ⟨-, hlast⟩ := List.append_inj' hsteps rfl
      cases hlast
      exact .inl hfirst
    · rw [List.concat_eq_append, ← List.cons_append, ← List.append_assoc] at hsteps
      obtain ⟨rfl, hlast⟩ := List.append_inj' hsteps rfl
      cases hlast
      simp only [List.concat_eq_append, List.mem_append, List.mem_singleton, not_or] at hafter
      exact .inr ⟨Ne.symm hafter.2, before, first, middle, rfl, hfirst, hafter.1⟩
  · rintro (hlast | ⟨hlast, before, first, after, rfl, hfirst, hafter⟩)
    · exact ⟨steps, step, [], rfl, hlast, List.not_mem_nil⟩
    · refine ⟨before, first, after ++ [step], by simp, hfirst, ?_⟩
      simp only [List.mem_append, List.mem_singleton, not_or]
      exact ⟨hafter, Ne.symm hlast⟩

theorem resolvedSince_clear_iff {steps : List Step} {tipset : TipsetKey}
    {pair : Address × TipsetKey} :
    ResolvedSince (steps ++ [clear tipset]) pair ↔
      pair.2 ≠ tipset ∧ ResolvedSince steps pair := by
  rw [resolvedSince_concat_iff]
  simp [resolved?, eq_comm]

theorem runAll_concat (r : Resolver) (steps : List Step) (step : Step) (s : ResolverState) :
    runAll r (steps ++ [step]) s = step.run r (runAll r steps s) := by
  simp [runAll]

end Step

/-- There are entries for exactly the pairs that a run has resolved and not cleared, one for
each, and they hold what the node would answer again. -/
structure Keeps (r : Resolver) (steps : List Step) (s : ResolverState) : Prop where
  nodup : (s.cache.map Prod.fst).Nodup
  mem_iff : ∀ pair, pair ∈ s.cache.map Prod.fst ↔ Step.ResolvedSince steps pair
  sound : r.Sound s

theorem find?_eq_none_iff {s : ResolverState} {address : Address} {tipset : TipsetKey} :
    s.find? address tipset = none ↔ (address, tipset) ∉ s.cache.map Prod.fst := by
  simp only [find?, Option.map_eq_none_iff, List.find?_eq_none, decide_eq_true_eq, List.mem_map,
    not_exists, not_and]

theorem Keeps.resolve {r : Resolver} {steps : List Step} {s : ResolverState}
    (h : r.Keeps steps s) {step : Step} {address : Address} {tipset : TipsetKey}
    (hstep : step.resolved? = some (address, tipset)) :
    r.Keeps (steps ++ [step]) (r.resolve address tipset s).2 := by
  have hclear (tipset : TipsetKey) : step ≠ .clear tipset := by
    rintro rfl
    cases hstep
  have hiff (pair : Address × TipsetKey) : Step.ResolvedSince (steps ++ [step]) pair ↔
      pair = (address, tipset) ∨ pair ∈ s.cache.map Prod.fst := by
    rw [Step.resolvedSince_concat_iff, h.mem_iff, hstep, Option.some.injEq]
    simp [hclear, eq_comm]
  cases hfind : s.find? address tipset with
  | some info =>
      have hmem : (address, tipset) ∈ s.cache.map Prod.fst := by
        refine Decidable.byContradiction fun hnot => ?_
        rw [find?_eq_none_iff.mpr hnot] at hfind
        cases hfind
      rw [resolve_of_find?_eq_some hfind]
      refine ⟨h.nodup, fun pair => ?_, h.sound⟩
      rw [hiff]
      refine ⟨.inr, ?_⟩
      rintro (rfl | hpair)
      · exact hmem
      · exact hpair
  | none =>
      have hsound := h.sound.resolve address tipset
      rw [resolve_of_find?_eq_none hfind] at hsound ⊢
      refine ⟨List.nodup_cons.mpr ⟨find?_eq_none_iff.mp hfind, h.nodup⟩, fun pair => ?_, hsound⟩
      rw [hiff, List.map_cons, List.mem_cons]

theorem Keeps.clear {r : Resolver} {steps : List Step} {s : ResolverState}
    (h : r.Keeps steps s) (tipset : TipsetKey) :
    r.Keeps (steps ++ [.clear tipset]) (s.clear tipset) := by
  have hmap : (s.clear tipset).cache.map Prod.fst =
      (s.cache.map Prod.fst).filter fun pair => pair.2 ≠ tipset := by
    rw [ResolverState.clear, List.filter_map]
    rfl
  refine ⟨?_, fun pair => ?_, h.sound.clear tipset⟩
  · rw [hmap]
    exact h.nodup.filter _
  · rw [hmap, List.mem_filter, h.mem_iff, Step.resolvedSince_clear_iff, decide_eq_true_eq]
    exact and_comm

/-- What a run keeps, by induction over its steps from the first one on. -/
theorem keeps_runAll (r : Resolver) (steps : List Step) (queries : List Query) :
    r.Keeps steps (Step.runAll r steps ⟨[], queries⟩) := by
  induction steps using List.reverseRecOn with
  | nil =>
      refine ⟨List.nodup_nil, fun pair => ?_, sound_of_cache_eq_nil r rfl⟩
      exact ⟨fun h => (List.not_mem_nil h).elim, fun h => (Step.not_resolvedSince_nil pair h).elim⟩
  | append_singleton steps step ih =>
      rw [Step.runAll_concat]
      cases step with
      | resolve address tipset => exact ih.resolve rfl
      | actorAt address tipset => exact ih.resolve rfl
      | clear tipset => exact ih.clear tipset

/-- What a resolver tells of an address after some steps, and what it asks the node for it. -/
structure Refines (r : Resolver) (steps : List Step) (s : ResolverState) (address : Address)
    (tipset : TipsetKey) : Prop where
  /-- A lookup that asks the node tells the same. -/
  info_eq : ∀ queries, (r.resolve address tipset s).1.info =
    (r.inquire address tipset queries).1.info
  actor_eq : ∀ queries, (r.actorAt address tipset s).1 =
    (r.inquire address tipset queries).1.actor
  actorAt_snd : (r.actorAt address tipset s).2 = (r.resolve address tipset s).2
  /-- What was not resolved, or was forgotten, is asked for by two questions. -/
  asks : ¬ Step.ResolvedSince steps (address, tipset) →
    (∃ first second, (r.resolve address tipset s).2.queries = second :: first :: s.queries) ∧
      ∀ queries, (r.resolve address tipset s).1.failures =
        (r.inquire address tipset queries).1.failures
  /-- What is known is told without a question. -/
  knows : Step.ResolvedSince steps (address, tipset) →
    (r.resolve address tipset s).2.queries = s.queries ∧
      (r.resolve address tipset s).1.failures = []

theorem Keeps.refines {r : Resolver} {steps : List Step} {s : ResolverState}
    (h : r.Keeps steps s) (address : Address) (tipset : TipsetKey) :
    r.Refines steps s address tipset := by
  have hinfo := h.sound.info_resolve address tipset
  refine ⟨fun queries => ?_, fun queries => ?_, rfl, fun hnew => ?_, fun hknown => ?_⟩
  · rw [hinfo, inquire_eq]
  · rw [inquire_eq, actorAt]
    simp only [ResolvedAddress.actor, hinfo]
  · have hfind := find?_eq_none_iff.mpr fun hmem => hnew ((h.mem_iff _).mp hmem)
    rw [resolve_of_find?_eq_none hfind]
    refine ⟨⟨formQuestion tipset address, r.codeQuestion tipset address, ?_⟩, fun queries => ?_⟩
    · rw [questions_eq]
      rfl
    · rw [inquire_eq]
  · cases hfind : s.find? address tipset with
    | none => exact (find?_eq_none_iff.mp hfind ((h.mem_iff _).mpr hknown)).elim
    | some info =>
        rw [resolve_of_find?_eq_some hfind]
        exact ⟨rfl, rfl⟩

/-- After any steps that began without entries, every address is told as the node would tell it.
The entries are those of the pairs that were resolved and not cleared, and to clear a tipset
leaves the entries of every other one in place. -/
theorem runAll_refines_lookup (r : Resolver) (steps : List Step) (queries : List Query) :
    let s := Step.runAll r steps ⟨[], queries⟩
    (∀ address tipset, r.Refines steps s address tipset) ∧
      (∃ pairs : List (Address × TipsetKey), pairs.Nodup ∧
        (∀ pair, pair ∈ pairs ↔ Step.ResolvedSince steps pair) ∧ s.cached = pairs.length) ∧
      ∀ tipset other, other ≠ tipset →
        (s.clear tipset).cache.filter (·.1.2 = other) = s.cache.filter (·.1.2 = other) := by
  intro s
  have hkeeps := keeps_runAll r steps queries
  refine ⟨hkeeps.refines, ⟨s.cache.map Prod.fst, hkeeps.nodup, hkeeps.mem_iff, ?_⟩, ?_⟩
  · rw [List.length_map, cached]
  · intro tipset other hother
    rw [ResolverState.clear, List.filter_filter]
    refine List.filter_congr fun entry _ => ?_
    by_cases hentry : entry.1.2 = other
    · simp [hentry, hother]
    · simp [hentry]

end Resolver
end TraceLedger
