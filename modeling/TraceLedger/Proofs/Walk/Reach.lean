import Mathlib.Data.List.Induction
import TraceLedger.Proofs.Walk.Accounting
import TraceLedger.Proofs.Walk.Traversal

/-! # The calls that a walk comes to

A walk comes to the root of a trace, and from a call that has a record and succeeded to all calls
that it made. So whether it comes to a call is told by the calls above that one. -/

namespace TraceLedger

theorem Trace.isSome_at?_of_prefix {root : Trace} {above path : List Nat} (h : above <+: path)
    (hpath : (root.at? path).isSome = true) : (root.at? above).isSome = true := by
  obtain ⟨below, rfl⟩ := h
  rw [at?_append] at hpath
  exact Option.isSome_of_isSome_bind hpath

namespace Stop

/-- The call has a record and succeeded, so that the walk goes on to the calls that it made. -/
def IsOpen (stop : Stop) : Prop := stop.record?.isSome = true ∧ stop.trace.exitCode? = some 0

theorem isOpen_iff {stop : Stop} :
    stop.IsOpen ↔ (stop.record?.isSome && stop.trace.isSuccess) = true := by
  rw [IsOpen, Bool.and_eq_true, Trace.isSuccess_iff]

theorem covered_of_isOpen {stop : Stop} (h : stop.IsOpen) : stop.covered = [stop.path] :=
  if_pos (isOpen_iff.mp h)

/-- A stop from which the walk does not go on decides on all calls below. -/
theorem mem_covered_iff_of_not_isOpen {root : Trace} {stop : Stop}
    (hat : root.at? stop.path = some stop.trace) (h : ¬ stop.IsOpen) {path : List Nat} :
    path ∈ stop.covered ↔ stop.path <+: path ∧ (root.at? path).isSome = true := by
  have hcovered : stop.covered = stop.trace.paths.map (stop.path ++ ·) :=
    if_neg fun hopen => h (isOpen_iff.mpr hopen)
  have hbelow (below : List Nat) :
      below ∈ stop.trace.paths ↔ (root.at? (stop.path ++ below)).isSome = true := by
    rw [Trace.mem_paths_iff, Trace.at?_append, hat, Option.bind_some]
  rw [hcovered, List.mem_map]
  constructor
  · rintro ⟨below, hmem, rfl⟩
    exact ⟨List.prefix_append _ _, (hbelow below).mp hmem⟩
  · rintro ⟨⟨below, rfl⟩, hpath⟩
    exact ⟨below, (hbelow below).mpr hpath, rfl⟩

end Stop

namespace Walker

variable {w : Walker} {scope : Scope} {parent : String} {root : Trace} {ledger : Ledger}
  {resolver : ResolverState}

/-- One of the stops decides on each call. -/
theorem exists_mem_covered (w : Walker) (scope : Scope) (parent : String) {root : Trace}
    (ledger : Ledger) (resolver : ResolverState) {path : List Nat}
    (h : (root.at? path).isSome = true) :
    ∃ stop ∈ w.stops scope parent root ledger resolver, path ∈ stop.covered := by
  have hmem := Trace.mem_paths_iff.mpr h
  rw [← w.flatMap_covered_stops scope parent root ledger resolver] at hmem
  exact List.mem_flatMap.mp hmem

/-- A walk comes to a call exactly if it goes on from the one that made it. -/
theorem exists_stop_concat_iff {path : List Nat} {position : Nat}
    (h : (root.at? (path ++ [position])).isSome = true) :
    (∃ stop ∈ w.stops scope parent root ledger resolver, stop.path = path ++ [position]) ↔
      ∃ stop ∈ w.stops scope parent root ledger resolver, stop.path = path ∧ stop.IsOpen := by
  have hprefix : path <+: path ++ [position] := List.prefix_append _ _
  have habove := Trace.isSome_at?_of_prefix hprefix h
  constructor
  · rintro ⟨stop, hstop, hpath⟩
    obtain ⟨up, hup, hcovered⟩ := w.exists_mem_covered scope parent ledger resolver habove
    by_cases hopen : up.IsOpen
    · rw [Stop.covered_of_isOpen hopen, List.mem_singleton] at hcovered
      exact ⟨up, hup, hcovered.symm, hopen⟩
    · -- Where the walk does not go on, it does not come to the call.
      have hat := (stopsAt_of_mem_stops hup).trace
      have hup_le := ((Stop.mem_covered_iff_of_not_isOpen hat hopen).mp hcovered).1
      have hcovered' : stop.path ∈ up.covered := by
        rw [Stop.mem_covered_iff_of_not_isOpen hat hopen, hpath]
        exact ⟨hup_le.trans hprefix, h⟩
      have heq := eq_of_mem_covered hup hstop hcovered' stop.path_mem_covered
      rw [heq, hpath] at hup_le
      have hle := hup_le.length_le
      rw [List.length_append, List.length_singleton] at hle
      omega
  · rintro ⟨up, hup, rfl, hopen⟩
    obtain ⟨stop, hstop, hcovered⟩ := w.exists_mem_covered scope parent ledger resolver h
    by_cases hstopOpen : stop.IsOpen
    · rw [Stop.covered_of_isOpen hstopOpen, List.mem_singleton] at hcovered
      exact ⟨stop, hstop, hcovered.symm⟩
    · have hat := (stopsAt_of_mem_stops hstop).trace
      have hiff {path : List Nat} :
          path ∈ stop.covered ↔ stop.path <+: path ∧ (root.at? path).isSome = true :=
        Stop.mem_covered_iff_of_not_isOpen hat hstopOpen
      rcases List.prefix_concat_iff.mp (hiff.mp hcovered).1 with hpath | hle
      · exact ⟨stop, hstop, hpath⟩
      · have heq := eq_of_mem_covered hup hstop up.path_mem_covered (hiff.mpr ⟨hle, habove⟩)
        exact absurd (heq ▸ hopen) hstopOpen

/-- A walk comes to a call exactly if it goes on from every call above. -/
theorem exists_stop_iff {path : List Nat} (h : (root.at? path).isSome = true) :
    (∃ stop ∈ w.stops scope parent root ledger resolver, stop.path = path) ↔
      ∀ above, above <+: path → above ≠ path →
        ∃ stop ∈ w.stops scope parent root ledger resolver, stop.path = above ∧ stop.IsOpen := by
  induction path using List.reverseRecOn with
  | nil =>
      constructor
      · exact fun _ above habove hne => absurd (List.prefix_nil.mp habove) hne
      · exact fun _ => ⟨_, w.stopAt_root_mem_stops scope parent root ledger resolver, rfl⟩
  | append_singleton path position ih =>
      have hprefix : path <+: path ++ [position] := List.prefix_append _ _
      have hne : path ≠ path ++ [position] := by simp
      rw [exists_stop_concat_iff h]
      constructor
      · rintro ⟨up, hup, hpath, hopen⟩ above habove habove'
        rcases eq_or_ne above path with rfl | habove_ne
        · exact ⟨up, hup, hpath, hopen⟩
        · refine (ih (Trace.isSome_at?_of_prefix hprefix h)).mp ⟨up, hup, hpath⟩ above ?_ habove_ne
          exact (List.prefix_concat_iff.mp habove).resolve_left habove'
      · exact fun hall => hall path hprefix hne

/-! ## The depth limit -/

theorem level_frame_of_mem_stops {stop : Stop}
    (h : stop ∈ w.stops scope parent root ledger resolver) :
    stop.frame.level = UInt16.ofNat stop.path.length := by
  rw [← (stopsAt_of_mem_stops h).depth]
  rfl

/-- A call that has a record is above the limit. -/
theorem level_lt_of_record? {stop : Stop} (h : stop ∈ w.stops scope parent root ledger resolver) :
    stop.record?.isSome = true → stop.frame.level.toUInt64 < w.config.maxDepth := by
  refine forall_mem_stops (P := fun stop => stop.record?.isSome = true →
    stop.frame.level.toUInt64 < w.config.maxDepth) (fun site s _ hrecord => ?_) h
  refine UInt64.not_le.mp fun hdeep => ?_
  have houtcome : (w.stopAt scope site s).outcome = .error .tooDeep := if_pos hdeep
  rw [Visit.record?_eq_none_iff.mpr ⟨_, houtcome⟩] at hrecord
  cases hrecord

/-- A walk does not go below the limit, if the limit is not too large for a level: the call at the
limit has no record. -/
theorem length_path_le_of_mem_stops (hlimit : w.config.maxDepth.toNat ≤ 65535) {stop : Stop}
    (h : stop ∈ w.stops scope parent root ledger resolver) :
    stop.path.length ≤ w.config.maxDepth.toNat := by
  refine Nat.le_of_not_lt fun hlt => ?_
  have hpath : (root.at? stop.path).isSome = true := by
    rw [(stopsAt_of_mem_stops h).trace]
    rfl
  have hlength : (stop.path.take w.config.maxDepth.toNat).length = w.config.maxDepth.toNat := by
    rw [List.length_take, Nat.min_eq_left (Nat.le_of_lt hlt)]
  obtain ⟨up, hup, hupPath, hopen⟩ := (exists_stop_iff hpath).mp ⟨stop, h, rfl⟩
    (stop.path.take w.config.maxDepth.toNat) (List.take_prefix _ _)
    fun heq => Nat.ne_of_lt hlt (by rw [← hlength, heq])
  have hlevel := level_lt_of_record? hup hopen.1
  rw [level_frame_of_mem_stops hup, hupPath, hlength] at hlevel
  exact UInt64.not_lt.mpr ((w.maxDepth_le_level_iff hlimit).mpr (Nat.le_refl _)) hlevel

end Walker
end TraceLedger
