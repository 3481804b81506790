import TraceLedger.Method.Resolver

/-! # Shared tables are the right ones

A resolver has one table for each release of its versions, and methods have the names that they
have by a table that is built each time. -/

namespace TraceLedger.MethodResolver

/-- Tables stand under their releases, each release once. -/
structure Shares (tables : List (UInt32 × MethodTable)) : Prop where
  eq_ofRelease : ∀ entry ∈ tables, entry.2 = .ofRelease entry.1
  nodup : (tables.map Prod.fst).Nodup

theorem Shares.addTable {tables : List (UInt32 × MethodTable)} (h : Shares tables)
    (release : UInt32) : Shares (addTable tables release) := by
  unfold MethodResolver.addTable
  split
  next => exact h
  next hnew =>
    constructor
    case eq_ofRelease =>
      intro entry hentry
      rcases List.mem_append.mp hentry with hold | hlast
      · exact h.eq_ofRelease entry hold
      · rw [List.mem_singleton.mp hlast]
    case nodup =>
      rw [List.map_append, List.nodup_append]
      refine ⟨h.nodup, List.nodup_cons.mpr ⟨List.not_mem_nil, List.nodup_nil⟩, ?_⟩
      rintro _ hold _ hlast rfl
      obtain ⟨entry, hentry, hrelease⟩ := List.mem_map.mp hold
      rw [List.map_singleton, List.mem_singleton] at hlast
      exact hnew (List.any_eq_true.mpr ⟨entry, hentry, by simpa [hrelease] using hlast⟩)

theorem shares_foldl {tables : List (UInt32 × MethodTable)} (h : Shares tables)
    (releases : List UInt32) : Shares (releases.foldl addTable tables) := by
  induction releases generalizing tables with
  | nil => exact h
  | cons release rest ih => exact ih (h.addTable release)

theorem mem_keys_addTable_iff {tables : List (UInt32 × MethodTable)} {release asked : UInt32} :
    asked ∈ (addTable tables release).map Prod.fst ↔
      asked ∈ tables.map Prod.fst ∨ asked = release := by
  unfold addTable
  split
  next hold =>
    obtain ⟨entry, hentry, hrelease⟩ := List.any_eq_true.mp hold
    refine ⟨.inl, Or.rec id ?_⟩
    rintro rfl
    exact List.mem_map.mpr ⟨entry, hentry, of_decide_eq_true hrelease⟩
  next => rw [List.map_append, List.mem_append, List.map_singleton, List.mem_singleton]

theorem mem_keys_foldl_iff {tables : List (UInt32 × MethodTable)} {releases : List UInt32}
    {asked : UInt32} :
    asked ∈ (releases.foldl addTable tables).map Prod.fst ↔
      asked ∈ tables.map Prod.fst ∨ asked ∈ releases := by
  induction releases generalizing tables with
  | nil => simp
  | cons release rest ih => rw [List.foldl_cons, ih, mem_keys_addTable_iff, List.mem_cons, or_assoc]

/-- There is one table for each release of the versions. -/
theorem shares_ofRegistry (r : VersionRegistry) :
    Shares (ofRegistry r).tables ∧ ∀ release,
      release ∈ (ofRegistry r).tables.map Prod.fst ↔ release ∈ r.versions.map Version.actors := by
  refine ⟨shares_foldl ⟨by simp, by simp⟩ _, fun release => ?_⟩
  rw [ofRegistry, mem_keys_foldl_iff]
  simp

/-- A shared table is the one that would be built. -/
theorem table_ofRegistry (r : VersionRegistry) (network : Network) (height : Int64) :
    (ofRegistry r).table network height = r.methodTable network height := by
  simp only [table]
  split
  next release table hfind =>
    have hrelease : release = (r.resolve network height).actors :=
      of_decide_eq_true (List.find?_some hfind :)
    have htable : table = .ofRelease release :=
      (shares_ofRegistry r).1.eq_ofRelease _ (List.mem_of_find?_eq_some hfind)
    rw [htable, hrelease]
    rfl
  next => rfl

/-- Methods have the names that the registry gives them. -/
theorem methodName_ofRegistry (r : VersionRegistry) (actor : ActorKind) (number : UInt64)
    (network : Network) (height : Int64) :
    (ofRegistry r).methodName actor number network height =
      r.methodName actor number network height := by
  rw [methodName, VersionRegistry.methodName, table_ofRegistry]

end TraceLedger.MethodResolver
