import Mathlib.Algebra.GroupWithZero.Nat
import Mathlib.Data.List.Pairwise
import TraceLedger.Proofs.Walk.Journey
import TraceLedger.Proofs.Walk.Rules

/-! # No call is lost or counted twice

Every call of a trace has a record, or is left out with a call that has a note, or lies below a
call that has a record but did not succeed. Which stop of the walk decides this is told by the
place of the call. -/

namespace TraceLedger

namespace Trace

/-- The exit code of a call, if one was recorded. -/
def exitCode? (t : Trace) : Option UInt32 := t.outcome.bind (·.exitCode)

theorem isSuccess_iff {t : Trace} : t.isSuccess = true ↔ t.exitCode? = some 0 := by
  unfold isSuccess receipt exitCode?
  cases t.outcome with
  | none => simp
  | some outcome => cases h : outcome.exitCode <;> simp [h]

theorem callCount_pos (t : Trace) : 0 < t.callCount := by
  rw [callCount_eq_size, size_eq]
  exact Nat.succ_pos _

end Trace

/-- What becomes of a call on a walk. -/
inductive Fate where
  | recorded
  | skipped
  | reverted

namespace Stop

/-- A stop decides what becomes of the call at a path: of its own call, and of those below one
that was left out or that did not succeed. -/
inductive Decides (stop : Stop) : List Nat → Fate → Prop
  | recorded {e : Emitted} (hrecord : stop.record? = some e) : Decides stop stop.path .recorded
  | skipped (hrecord : stop.record? = none) (below : List Nat) :
      Decides stop (stop.path ++ below) .skipped
  | reverted {e : Emitted} (hrecord : stop.record? = some e)
      (hfailed : stop.trace.exitCode? ≠ some 0) {below : List Nat} (hbelow : below ≠ []) :
      Decides stop (stop.path ++ below) .reverted

/-- Whether the call of a stop has a record but did not succeed. -/
def isReverted (stop : Stop) : Bool :=
  stop.record?.isSome && stop.trace.exitCode? ≠ some 0

/-- The paths of the calls whose fate a stop decides. -/
def covered (stop : Stop) : List (List Nat) :=
  if stop.record?.isSome && stop.trace.isSuccess then [stop.path]
  else stop.trace.paths.map (stop.path ++ ·)

theorem covered_of_record?_eq_none {stop : Stop} (h : stop.record? = none) :
    stop.covered = stop.trace.paths.map (stop.path ++ ·) := by
  simp [covered, h]

theorem covered_of_isSuccess {stop : Stop} {e : Emitted} (h : stop.record? = some e)
    (hsuccess : stop.trace.isSuccess = true) : stop.covered = [stop.path] := by
  simp [covered, h, hsuccess]

theorem covered_of_not_isSuccess {stop : Stop} (hfailed : ¬ stop.trace.isSuccess = true) :
    stop.covered = stop.trace.paths.map (stop.path ++ ·) := by
  simp [covered, hfailed]

theorem path_mem_covered (stop : Stop) : stop.path ∈ stop.covered := by
  unfold covered
  split
  · exact List.mem_singleton_self _
  · simp [Trace.paths_eq]

theorem exists_decides_of_mem_covered {stop : Stop} {path : List Nat}
    (h : path ∈ stop.covered) : ∃ fate, stop.Decides path fate := by
  cases hrecord : stop.record? with
  | none =>
      rw [covered_of_record?_eq_none hrecord] at h
      obtain ⟨below, -, rfl⟩ := List.mem_map.mp h
      exact ⟨.skipped, .skipped hrecord below⟩
  | some e =>
      by_cases hsuccess : stop.trace.isSuccess = true
      · rw [covered_of_isSuccess hrecord hsuccess, List.mem_singleton] at h
        subst h
        exact ⟨.recorded, .recorded hrecord⟩
      · rw [covered_of_not_isSuccess hsuccess] at h
        obtain ⟨below, -, rfl⟩ := List.mem_map.mp h
        cases below with
        | nil =>
            rw [List.append_nil]
            exact ⟨.recorded, .recorded hrecord⟩
        | cons position below =>
            have hfailed := fun h => hsuccess (Trace.isSuccess_iff.mpr h)
            exact ⟨.reverted, .reverted hrecord hfailed (List.cons_ne_nil _ _)⟩

theorem mem_covered_of_decides {root : Trace} {stop : Stop} {path : List Nat} {fate : Fate}
    (hstop : root.at? stop.path = some stop.trace) (hpath : (root.at? path).isSome = true)
    (h : stop.Decides path fate) : path ∈ stop.covered := by
  have hbelow {below : List Nat} (hsome : (root.at? (stop.path ++ below)).isSome = true) :
      stop.path ++ below ∈ stop.trace.paths.map (stop.path ++ ·) := by
    rw [Trace.at?_append, hstop, Option.bind_some] at hsome
    exact List.mem_map_of_mem (Trace.mem_paths_iff.mpr hsome)
  cases h with
  | recorded => exact stop.path_mem_covered
  | skipped hrecord below =>
      rw [covered_of_record?_eq_none hrecord]
      exact hbelow hpath
  | reverted _ hfailed _ =>
      rw [covered_of_not_isSuccess fun h => hfailed (Trace.isSuccess_iff.mp h)]
      exact hbelow hpath

/-- A stop decides on one fate of a call. -/
theorem Decides.fate_eq {stop : Stop} {path : List Nat} {fate other : Fate}
    (h : stop.Decides path fate) (h' : stop.Decides path other) : fate = other := by
  have hself {below : List Nat} (hpath : stop.path = stop.path ++ below) : below = [] :=
    List.self_eq_append_right.mp hpath
  generalize hpath : path = p at h'
  cases h with
  | recorded hrecord =>
      cases h' with
      | recorded => rfl
      | skipped hnone => rw [hrecord] at hnone; cases hnone
      | reverted _ _ hbelow => exact (hbelow (hself hpath)).elim
  | skipped hrecord =>
      cases h' with
      | recorded hsome => rw [hrecord] at hsome; cases hsome
      | skipped => rfl
      | reverted hsome => rw [hrecord] at hsome; cases hsome
  | reverted hrecord _ hbelow =>
      cases h' with
      | recorded => exact (hbelow (hself hpath.symm)).elim
      | skipped hnone => rw [hrecord] at hnone; cases hnone
      | reverted => rfl

end Stop

namespace Site

/-- The paths of the calls that a walk would come to from a site. -/
def paths (site : Site) : List (List Nat) := site.trace.paths.map (site.path ++ ·)

theorem paths_of_isSuccess {site : Site} (h : site.trace.isSuccess = true) (id : String) :
    site.paths = site.path :: (site.below id).flatMap paths := by
  have hbelow : (site.below id).flatMap paths =
      (Trace.pathsFrom 0 site.trace.subcalls).map (site.path ++ ·) := by
    rw [below, if_pos h, List.flatMap_map, Trace.pathsFrom_eq, List.map_flatMap]
    simp [paths, Function.comp_def]
  rw [hbelow, paths, Trace.paths_eq]
  simp

theorem below_of_not_isSuccess {site : Site} (h : ¬ site.trace.isSuccess = true) (id : String) :
    site.below id = [] := if_neg h

end Site

namespace Walker

open Visit

/-- The stops of a walk decide on all calls that lie before it, in their order. -/
theorem flatMap_covered_journey (w : Walker) (scope : Scope) (s : WalkState)
    (sites : List Site) :
    (w.journey scope s sites).flatMap Stop.covered = sites.flatMap Site.paths := by
  induction s, sites using journey.induct with
  | case1 s =>
      rw [journey]
      rfl
  | case2 s site rest ihskip ihgo =>
      rw [journey, List.flatMap_cons, List.flatMap_cons]
      cases hvisit : w.visit scope site.frame s with
      | mk record? t =>
        cases record? with
        | none =>
            have hrecord := (follows_of_visit_eq_none hvisit).1
            simp only
            rw [ihskip t, Stop.covered_of_record?_eq_none hrecord]
            rfl
        | some emitted =>
            have hrecord := (follows_of_visit_eq_some hvisit).1
            simp only
            rw [ihgo emitted t, List.flatMap_append, ← List.append_assoc]
            congr 1
            by_cases hsuccess : site.trace.isSuccess = true
            · rw [Site.paths_of_isSuccess hsuccess emitted.transaction.id,
                Stop.covered_of_isSuccess hrecord hsuccess]
              rfl
            · rw [Site.below_of_not_isSuccess hsuccess, Stop.covered_of_not_isSuccess hsuccess,
                List.flatMap_nil, List.append_nil]
              rfl

theorem flatMap_covered_stops (w : Walker) (scope : Scope) (parent : String) (root : Trace)
    (ledger : Ledger) (resolver : ResolverState) :
    (w.stops scope parent root ledger resolver).flatMap Stop.covered = root.paths := by
  rw [stops, flatMap_covered_journey, List.flatMap_singleton, Site.paths]
  simp

/-- The calls that stops decide on, counted by what becomes of them. -/
theorem length_flatMap_covered (w : Walker) (scope : Scope) (stops : List Stop) :
    (stops.flatMap Stop.covered).length =
      (records (stops.map Stop.toVisit)).length +
        ((w.notes scope (stops.map Stop.toVisit)).map SkippedCall.calls).sum +
        ((stops.filter Stop.isReverted).map fun stop => stop.trace.callCount - 1).sum := by
  induction stops with
  | nil => rfl
  | cons stop rest ih =>
      rw [List.flatMap_cons, List.length_append, ih, List.map_cons]
      cases hrecord : stop.record? with
      | none =>
          obtain ⟨omission, homission⟩ := record?_eq_none_iff.mp hrecord
          have hnot : ¬ stop.isReverted = true := by simp [Stop.isReverted, hrecord]
          have hcalls : (w.skippedCall scope stop.frame (w.reason omission)).calls =
              stop.trace.callCount := rfl
          rw [records_cons_of_eq_none hrecord, notes_cons_of_outcome_eq_error homission,
            List.filter_cons_of_neg hnot, Stop.covered_of_record?_eq_none hrecord,
            List.length_map, Trace.length_paths_eq_callCount, List.map_cons, List.sum_cons, hcalls]
          omega
      | some e =>
          have hok := record?_eq_some_iff.mp hrecord
          rw [records_cons_of_eq_some hrecord, notes_cons_of_outcome_eq_ok hok, List.length_cons]
          by_cases hsuccess : stop.trace.isSuccess = true
          · have hnot : ¬ stop.isReverted = true := by
              simp [Stop.isReverted, Trace.isSuccess_iff.mp hsuccess]
            rw [List.filter_cons_of_neg hnot, Stop.covered_of_isSuccess hrecord hsuccess,
              List.length_singleton]
            omega
          · have hreverted : stop.isReverted = true := by
              simpa [Stop.isReverted, hrecord, Trace.isSuccess_iff] using hsuccess
            have hpos := stop.trace.callCount_pos
            rw [List.filter_cons_of_pos hreverted, Stop.covered_of_not_isSuccess hsuccess,
              List.length_map, Trace.length_paths_eq_callCount, List.map_cons, List.sum_cons]
            omega

/-- No two stops decide on the same call. -/
theorem pairwise_disjoint_covered (w : Walker) (scope : Scope) (parent : String) (root : Trace)
    (ledger : Ledger) (resolver : ResolverState) :
    (w.stops scope parent root ledger resolver).Pairwise
      (Function.onFun List.Disjoint Stop.covered) := by
  have hnodup := root.nodup_paths
  rw [← w.flatMap_covered_stops scope parent root ledger resolver, List.nodup_flatMap] at hnodup
  exact hnodup.2

theorem eq_of_mem_covered {w : Walker} {scope : Scope} {parent : String} {root : Trace}
    {ledger : Ledger} {resolver : ResolverState} {stop other : Stop} {path : List Nat}
    (hstop : stop ∈ w.stops scope parent root ledger resolver)
    (hother : other ∈ w.stops scope parent root ledger resolver)
    (h : path ∈ stop.covered) (h' : path ∈ other.covered) : stop = other := by
  have hsymm : Std.Symm (Function.onFun List.Disjoint Stop.covered) :=
    ⟨fun _ _ hdisjoint _ hsecond hfirst => hdisjoint hfirst hsecond⟩
  have hdisjoint := w.pairwise_disjoint_covered scope parent root ledger resolver
  by_contra hne
  exact hdisjoint.forall hstop hother hne h h'

theorem nodup_path_stops (w : Walker) (scope : Scope) (parent : String) (root : Trace)
    (ledger : Ledger) (resolver : ResolverState) :
    ((w.stops scope parent root ledger resolver).map Stop.path).Nodup := by
  have hdisjoint := w.pairwise_disjoint_covered scope parent root ledger resolver
  refine List.pairwise_map.mpr (hdisjoint.imp fun hcovered heq => ?_)
  exact hcovered (Stop.path_mem_covered _) (heq ▸ Stop.path_mem_covered _)

/-- The calls of a trace are as many as the records that a walk adds, the calls of its notes,
and the calls below those that have a record but did not succeed. Each call belongs to one of
these three kinds, by the decision of one stop. -/
theorem walk_accounts_for_calls (w : Walker) (scope : Scope) (parent : String) (root : Trace)
    (ledger : Ledger) (resolver : ResolverState) :
    let stops := w.stops scope parent root ledger resolver
    let result := (w.walk scope parent root ledger resolver).2.1
    ∃ added skipped,
      result.transactions = ledger.transactions ++ added ∧
      result.skipped = ledger.skipped ++ skipped ∧
      added.map Transaction.withoutMetadata =
        (records (stops.map Stop.toVisit)).map (·.transaction.withoutMetadata) ∧
      skipped = w.notes scope (stops.map Stop.toVisit) ∧
      (∀ stop ∈ stops, w.StopsAt scope root stop) ∧ (stops.map Stop.path).Nodup ∧
      root.callCount = added.length + (skipped.map SkippedCall.calls).sum +
        ((stops.filter Stop.isReverted).map fun stop => stop.trace.callCount - 1).sum ∧
      ∀ path, (root.at? path).isSome = true →
        ∃! decision : Fate × Stop, decision.2 ∈ stops ∧ decision.2.Decides path decision.1 := by
  intro stops result
  obtain ⟨htransactions, hskipped, -⟩ := w.walk_eq_stops scope parent root ledger resolver
  have hmetadata := Emitted.map_withoutMetadata_transactions
    (scope.ethLogs.ofMessage scope.messageCid) (w.recorded scope parent root ledger resolver)
  have hlength := congrArg List.length hmetadata
  rw [List.length_map, List.length_map] at hlength
  have hcovered := w.flatMap_covered_stops scope parent root ledger resolver
  refine ⟨_, _, htransactions, hskipped, hmetadata, rfl,
    fun stop hstop => stopsAt_of_mem_stops hstop,
    w.nodup_path_stops scope parent root ledger resolver, ?_, ?_⟩
  · rw [hlength, recorded, ← w.length_flatMap_covered scope, hcovered,
      Trace.length_paths_eq_callCount]
  · intro path hpath
    have hmem := Trace.mem_paths_iff.mpr hpath
    rw [← hcovered] at hmem
    obtain ⟨stop, hstop, hcover⟩ := List.mem_flatMap.mp hmem
    obtain ⟨fate, hfate⟩ := Stop.exists_decides_of_mem_covered hcover
    refine ⟨(fate, stop), ⟨hstop, hfate⟩, ?_⟩
    rintro ⟨other, u⟩ ⟨hu, hother⟩
    have hcover' := Stop.mem_covered_of_decides (stopsAt_of_mem_stops hu).trace hpath hother
    obtain rfl : u = stop := eq_of_mem_covered hu hstop hcover' hcover
    exact Prod.ext (hother.fate_eq hfate) rfl

end Walker
end TraceLedger
