import TraceLedger.Method.Name
import TraceLedger.Transaction

/-! # The names that methods can have

Whatever release is active, a method has the name of one of its definitions, or one of the three
names that need no definition. None of these is the name of fees. -/

namespace TraceLedger

theorem MethodNames.mem_insert {number : UInt64} {name : String} {names : MethodNames}
    {entry : UInt64 × String} (h : entry ∈ names.insert number name) :
    entry = (number, name) ∨ entry ∈ names := by
  induction names with
  | nil => exact .inl (List.mem_singleton.mp h)
  | cons head rest ih =>
      obtain ⟨other, old⟩ := head
      rw [insert] at h
      split at h
      · rcases List.mem_cons.mp h with h | h
        · exact .inl h
        · exact .inr (List.mem_cons_of_mem _ h)
      · split at h
        · rcases List.mem_cons.mp h with h | h
          · exact .inl h
          · exact .inr h
        · rcases List.mem_cons.mp h with h | h
          · exact .inr (h ▸ List.mem_cons_self)
          · exact (ih h).imp_right (List.mem_cons_of_mem _)

namespace MethodTable

theorem mem_foldl_insert {methods : List NumberedMethod} {names : MethodNames}
    {entry : UInt64 × String}
    (h : entry ∈ methods.foldl (fun names m => names.insert m.number m.definition.name) names) :
    entry ∈ names ∨ ∃ m ∈ methods, entry = (m.number, m.definition.name) := by
  induction methods generalizing names with
  | nil => exact .inl h
  | cons m methods ih =>
      rcases ih h with h | ⟨m', hm', hentry⟩
      · rcases MethodNames.mem_insert h with rfl | h
        · exact .inr ⟨m, List.mem_cons_self, rfl⟩
        · exact .inl h
      · exact .inr ⟨m', List.mem_cons_of_mem _ hm', hentry⟩

/-- The methods of an actor are in the tables of all releases from the one on that introduced
it. -/
theorem actor?_ofRelease (release : UInt32) (actor : ActorKind) :
    (ofRelease release).actor? actor =
      if actor ∈ ActorKind.all ∧ actor.introducedIn ≤ release then
        some (namesOf release (NumberedMethod.ofActor actor))
      else none := by
  have hfind (kinds : List ActorKind) :
      (((kinds.map fun kind => (kind, NumberedMethod.ofActor kind)).filter
        (·.1.introducedIn ≤ release)).map fun entry =>
          (entry.1, namesOf release entry.2)).find? (·.1 = actor) =
        if actor ∈ kinds ∧ actor.introducedIn ≤ release then
          some (actor, namesOf release (NumberedMethod.ofActor actor))
        else none := by
    induction kinds with
    | nil => simp
    | cons kind kinds ih =>
        rw [List.map_cons]
        by_cases hkind : kind.introducedIn ≤ release
        · rw [List.filter_cons_of_pos (by simpa using hkind), List.map_cons]
          by_cases heq : kind = actor
          · simp [← heq, hkind]
          · rw [List.find?_cons_of_neg (by simpa using heq), ih]
            simp [Ne.symm heq]
        · rw [List.filter_cons_of_neg (by simpa using hkind), ih]
          have hne : actor.introducedIn ≤ release → actor ≠ kind := by
            rintro h rfl
            exact hkind h
          by_cases h : actor.introducedIn ≤ release
          · simp [h, hne h]
          · simp [h]
  have hactors := congrArg (Option.map Prod.snd) (hfind ActorKind.all)
  rw [apply_ite (Option.map Prod.snd)] at hactors
  exact hactors

/-- A row in the names of a release is that of an active definition. -/
theorem exists_definition_of_mem_namesOf {release : UInt32} {actor : ActorKind}
    {entry : UInt64 × String} (h : entry ∈ namesOf release (NumberedMethod.ofActor actor)) :
    ∃ d ∈ MethodDef.ofActor actor, d.isActive release = true ∧ d.number? = some entry.1 ∧
      d.name = entry.2 := by
  rcases mem_foldl_insert h with hnil | ⟨m, hm, rfl⟩
  · cases hnil
  · obtain ⟨hmem, hactive⟩ := List.mem_filter.mp hm
    obtain ⟨d, hd, hnumber⟩ := List.mem_filterMap.mp hmem
    obtain ⟨n, hn, rfl⟩ := Option.map_eq_some_iff.mp hnumber
    exact ⟨d, hd, hactive, hn, rfl⟩

/-- A number with a name is a row of the table. -/
theorem mem_of_method_eq_ok {t : MethodTable} {actor : ActorKind} {number : UInt64}
    {name : String} (h : t.method actor number = .ok name) :
    (number, name) ∈ (t.actor? actor).getD [] := by
  unfold method at h
  split at h
  next other _ hfind =>
    cases h
    have hother : other = number := by simpa using List.find?_some hfind
    exact hother ▸ List.mem_of_find?_eq_some hfind
  next => cases h

/-- A method of a release has the name of an active definition with its number. -/
theorem exists_definition {release : UInt32} {actor : ActorKind} {number : UInt64}
    {name : String} (h : (ofRelease release).method actor number = .ok name) :
    actor ∈ ActorKind.all ∧ ∃ d ∈ MethodDef.ofActor actor, d.isActive release = true ∧
      d.number? = some number ∧ d.name = name := by
  have hmem := mem_of_method_eq_ok h
  rw [actor?_ofRelease] at hmem
  split at hmem
  next hactor => exact ⟨hactor.1, exists_definition_of_mem_namesOf hmem⟩
  next => cases hmem

end MethodTable

namespace VersionRegistry

/-- The names that methods can have in any release. -/
def methodNames : List String :=
  "Send" :: "Constructor" :: unknownMethod ::
    ActorKind.all.flatMap fun actor => (MethodDef.ofActor actor).map MethodDef.name

theorem unknownMethod_mem_methodNames : unknownMethod ∈ methodNames :=
  List.mem_cons_of_mem _ (List.mem_cons_of_mem _ List.mem_cons_self)

theorem mem_methodNames_of_methodName_eq_ok {r : VersionRegistry} {actor : ActorKind}
    {number : UInt64} {network : Network} {height : Int64} {name : String}
    (h : r.methodName actor number network height = .ok name) : name ∈ methodNames := by
  unfold methodName at h
  split at h
  · cases h
    exact List.mem_cons_self
  · split at h
    · cases h
      exact List.mem_cons_of_mem _ List.mem_cons_self
    · cases htable : r.methodTable network height with
      | mk version table =>
        rw [htable] at h
        simp only [nameIn] at h
        split at h
        · split at h
          next hmethod =>
            cases h
            obtain ⟨-, rfl⟩ := Prod.mk.inj htable
            obtain ⟨hkind, d, hd, -, -, rfl⟩ := MethodTable.exists_definition hmethod
            refine List.mem_cons_of_mem _ (List.mem_cons_of_mem _ (List.mem_cons_of_mem _ ?_))
            exact List.mem_flatMap.mpr ⟨actor, hkind, List.mem_map_of_mem hd⟩
          next =>
            cases h
            exact unknownMethod_mem_methodNames
        · cases h

theorem feeType_not_mem_methodNames : Transaction.feeType ∉ methodNames := by decide

theorem length_encode_le_of_mem_methodNames {name : String} (h : name ∈ methodNames) :
    (Utf8.encode name).length ≤ 64 := by
  have hall : ∀ name ∈ methodNames, (Utf8.encode name).length ≤ 64 := by decide +kernel
  exact hall name h

end VersionRegistry
end TraceLedger
