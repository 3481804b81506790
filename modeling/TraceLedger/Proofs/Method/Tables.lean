import TraceLedger.Proofs.Method.Names
import TraceLedger.Proofs.Method.Numbers

/-! # What method tables hold

A table is filled by number, so a definition would be lost where another one has its number. None
is lost: an actor's definitions that stand in one release have different numbers, and all of them
have different names. So a table tells an actor's methods by number and by name, and the name of a
method at a height is that of the one definition that is active there. -/

namespace TraceLedger

/-- A release has an actor that it introduced or that was there before. -/
def ActorKind.IsIn (actor : ActorKind) (release : UInt32) : Prop :=
  actor ≠ .unknown ∧ actor.introducedIn ≤ release

theorem ActorKind.mem_all_iff {actor : ActorKind} : actor ∈ all ↔ actor ≠ .unknown := by
  cases actor <;> decide

namespace MethodDef

/-- Of the definitions that are active in a release no two have the same number. -/
theorem eq_of_number?_eq {actor : ActorKind} {release : UInt32} {d e : MethodDef}
    (hd : d ∈ ofActor actor) (he : e ∈ ofActor actor) (hactive : d.isActive release = true)
    (hactive' : e.isActive release = true) (h : d.number? = e.number?) : d = e := by
  by_contra hne
  have hsymm : Std.Symm fun d e : MethodDef => d.Overlaps e → d.listed? ≠ e.listed? :=
    ⟨fun _ _ hapart hoverlaps => (hapart hoverlaps.symm).symm⟩
  have hapart := (pairwise_apart actor).forall hd he hne (overlaps_of_isActive hactive hactive')
  rw [number?_eq_listed? hd, number?_eq_listed? he] at h
  exact hapart h

theorem nodup_names : ∀ actor, ((ofActor actor).map name).Nodup := by
  intro actor
  cases actor <;> decide +kernel

/-- No name is used again for another method of the actor, in whatever release. -/
theorem eq_of_name_eq {actor : ActorKind} {d e : MethodDef} (hd : d ∈ ofActor actor)
    (he : e ∈ ofActor actor) (h : d.name = e.name) : d = e :=
  List.inj_on_of_nodup_map (nodup_names actor) hd he h

end MethodDef

/-! ## Looking up -/

theorem MethodNames.find?_insert (number : UInt64) (name : String) (names : MethodNames)
    (asked : UInt64) :
    (names.insert number name).find? (·.1 = asked) =
      if number = asked then some (number, name) else names.find? (·.1 = asked) := by
  induction names with
  | nil => by_cases h : number = asked <;> simp [insert, h]
  | cons head rest ih =>
      obtain ⟨other, old⟩ := head
      by_cases heq : number = other
      · subst heq
        by_cases h : number = asked <;> simp [insert, h]
      · by_cases hlt : number < other
        · rw [insert, if_neg heq, if_pos hlt, List.find?_cons]
          by_cases h : number = asked <;> simp [h]
        · rw [insert, if_neg heq, if_neg hlt, List.find?_cons, List.find?_cons, ih]
          by_cases h : other = asked
          · have hne : number ≠ asked := h ▸ heq
            simp [h, hne]
          · simp [h]

namespace MethodTable

/-- Where no number is given twice, looking up a number gives the method that has it. -/
theorem find?_foldl_insert {methods : List NumberedMethod}
    (h : methods.Pairwise (·.number ≠ ·.number)) (asked : UInt64) :
    (methods.foldl (fun (names : MethodNames) m => names.insert m.number m.definition.name)
        []).find? (·.1 = asked) =
      (methods.find? (·.number = asked)).map fun m => (m.number, m.definition.name) := by
  induction methods using List.reverseRecOn with
  | nil => rfl
  | append_singleton front m ih =>
      obtain ⟨hfront, -, hlast⟩ := List.pairwise_append.mp h
      rw [List.foldl_append, List.foldl_cons, List.foldl_nil, MethodNames.find?_insert, ih hfront,
        List.find?_append]
      by_cases heq : m.number = asked
      · have hnone : front.find? (·.number = asked) = none := by
          refine List.find?_eq_none.mpr fun other hother hasked => ?_
          have hne := hlast other hother m (List.mem_singleton_self m)
          exact hne ((of_decide_eq_true hasked).trans heq.symm)
        rw [if_pos heq, hnone, Option.none_or, List.find?_cons_of_pos (by simpa using heq)]
        rfl
      · rw [if_neg heq, List.find?_cons_of_neg (by simpa using heq), List.find?_nil,
          Option.or_none]

/-- Where no number is given twice, a method is found by its number. -/
theorem find?_number_of_mem {methods : List NumberedMethod}
    (h : methods.Pairwise (·.number ≠ ·.number)) {m : NumberedMethod} (hm : m ∈ methods) :
    methods.find? (·.number = m.number) = some m := by
  induction methods with
  | nil => cases hm
  | cons first rest ih =>
      obtain ⟨hfirst, hrest⟩ := List.pairwise_cons.mp h
      rcases List.mem_cons.mp hm with rfl | hm
      · exact List.find?_cons_of_pos (decide_eq_true rfl)
      · rw [List.find?_cons_of_neg (by simpa using hfirst m hm), ih hrest hm]

/-- The active definitions of an actor have different numbers. -/
theorem pairwise_number (release : UInt32) (actor : ActorKind) :
    ((NumberedMethod.ofActor actor).filter (·.definition.isActive release)).Pairwise
      (·.number ≠ ·.number) := by
  rw [List.pairwise_filter, NumberedMethod.ofActor, List.pairwise_filterMap]
  refine (MethodDef.pairwise_apart actor).imp_of_mem ?_
  intro d e hd he hapart m hm m' hm' hactive hactive' hnumber
  obtain ⟨n, hn, rfl⟩ := Option.map_eq_some_iff.mp hm
  obtain ⟨n', hn', rfl⟩ := Option.map_eq_some_iff.mp hm'
  have hoverlaps := MethodDef.overlaps_of_isActive hactive hactive'
  rw [MethodDef.number?_eq_listed? hd] at hn
  rw [MethodDef.number?_eq_listed? he] at hn'
  exact hapart hoverlaps (hn.trans ((congrArg some hnumber).trans hn'.symm))

theorem hasActor_ofRelease_iff {release : UInt32} {actor : ActorKind} :
    (ofRelease release).hasActor actor = true ↔ actor.IsIn release := by
  rw [hasActor, actor?_ofRelease, ActorKind.IsIn, ← ActorKind.mem_all_iff]
  split
  next h => simpa using h
  next h => simpa using h

theorem actor?_ofRelease_of_isIn {release : UInt32} {actor : ActorKind} (h : actor.IsIn release) :
    (ofRelease release).actor? actor =
      some (namesOf release (NumberedMethod.ofActor actor)) := by
  rw [actor?_ofRelease, if_pos ⟨ActorKind.mem_all_iff.mpr h.1, h.2⟩]

/-- The methods of an actor in a release are the active definitions, each one under its own
number. -/
theorem method_ofRelease_eq_ok_iff {release : UInt32} {actor : ActorKind} (h : actor.IsIn release)
    {number : UInt64} {name : String} :
    (ofRelease release).method actor number = .ok name ↔
      ∃ d ∈ MethodDef.ofActor actor, d.isActive release = true ∧ d.number? = some number ∧
        d.name = name := by
  constructor
  · exact fun hmethod => (exists_definition hmethod).2
  · rintro ⟨d, hd, hactive, hnumber, rfl⟩
    have hm : (⟨number, d⟩ : NumberedMethod) ∈
        (NumberedMethod.ofActor actor).filter (·.definition.isActive release) := by
      refine List.mem_filter.mpr ⟨List.mem_filterMap.mpr ⟨d, hd, ?_⟩, hactive⟩
      rw [hnumber, Option.map_some]
    have hfind := find?_number_of_mem (pairwise_number release actor) hm
    rw [method, actor?_ofRelease_of_isIn h, Option.getD_some, namesOf,
      find?_foldl_insert (pairwise_number release actor), hfind]
    rfl

/-- What is found under a name is the number of a method of this name. -/
theorem number?_ofRelease_eq_some_iff {release : UInt32} {actor : ActorKind}
    (h : actor.IsIn release) {number : UInt64} {name : String} (hsend : name ≠ "Send")
    (hconstruct : name ≠ "Constructor") :
    (ofRelease release).number? actor name = some number ↔
      (ofRelease release).method actor number = .ok name := by
  have hnumber : (ofRelease release).number? actor name =
      ((namesOf release (NumberedMethod.ofActor actor)).find? (·.2 = name)).map Prod.fst := by
    rw [number?, if_neg hsend, if_neg hconstruct, actor?_ofRelease_of_isIn h]
  -- What is found is a row of this name, so it is one of an active definition of this name.
  have hfound {row : UInt64 × String}
      (hfind : (namesOf release (NumberedMethod.ofActor actor)).find? (·.2 = name) = some row) :
      ∃ d ∈ MethodDef.ofActor actor, d.isActive release = true ∧ d.number? = some row.1 ∧
        d.name = name := by
    have hname : row.2 = name := by simpa using List.find?_some hfind
    rw [← hname]
    exact exists_definition_of_mem_namesOf (List.mem_of_find?_eq_some hfind)
  rw [hnumber, method_ofRelease_eq_ok_iff h]
  constructor
  · intro hsome
    obtain ⟨row, hfind, rfl⟩ := Option.map_eq_some_iff.mp hsome
    exact hfound hfind
  · rintro ⟨d, hd, hactive, hn, hname⟩
    have hmethod := (method_ofRelease_eq_ok_iff h).mpr ⟨d, hd, hactive, hn, hname⟩
    have hmem := mem_of_method_eq_ok hmethod
    rw [actor?_ofRelease_of_isIn h, Option.getD_some] at hmem
    obtain ⟨row, hfind⟩ := Option.isSome_iff_exists.mp
      (List.find?_isSome (p := fun row : UInt64 × String => decide (row.2 = name)).mpr
        ⟨_, hmem, decide_eq_true rfl⟩)
    obtain ⟨e, he, -, hn', hname'⟩ := hfound hfind
    obtain rfl := MethodDef.eq_of_name_eq hd he (hname.trans hname'.symm)
    rw [hfind, Option.map_some, ← hn', hn]

/-- What the table of a release holds of the methods of an actor. -/
structure HoldsMethods (release : UInt32) (actor : ActorKind) : Prop where
  hasActor : (ofRelease release).hasActor actor = true
  /-- Under a number stands the name of the active definition that has this number. -/
  method_iff : ∀ number name, (ofRelease release).method actor number = .ok name ↔
    ∃ d ∈ MethodDef.ofActor actor, d.isActive release = true ∧ d.number? = some number ∧
      d.name = name
  /-- Every active definition has a number, and no other one has the same. -/
  exists_number : ∀ d ∈ MethodDef.ofActor actor, d.isActive release = true →
    ∃ number, d.number? = some number ∧ ∀ e ∈ MethodDef.ofActor actor,
      e.isActive release = true → e.number? = some number → e = d
  /-- The numbers of the methods that every actor has are free, -/
  two_le : ∀ d ∈ MethodDef.ofActor actor, ∀ number, d.number? = some number → 2 ≤ number
  /-- and those that were given by hand are apart from those that are derived from names. -/
  fixed_lt : ∀ d ∈ MethodDef.ofActor actor, ∀ number, d.numbering = .fixed number →
    number.toNat < 0x1000000
  hashed_ge : ∀ d ∈ MethodDef.ofActor actor, ∀ name number, d.numbering = .hashed name →
    d.number? = some number → 0x1000000 ≤ number.toNat
  /-- Names and numbers are found from each other. -/
  number?_iff : ∀ number name, name ≠ "Send" → name ≠ "Constructor" →
    ((ofRelease release).number? actor name = some number ↔
      (ofRelease release).method actor number = .ok name)
  name_ne : ∀ number name, (ofRelease release).method actor number = .ok name →
    name ≠ "Send" ∧ name ≠ "Constructor"

theorem holdsMethods {release : UInt32} {actor : ActorKind} (h : actor.IsIn release) :
    HoldsMethods release actor where
  hasActor := hasActor_ofRelease_iff.mpr h
  method_iff _ _ := method_ofRelease_eq_ok_iff h
  exists_number := by
    intro d hd hactive
    obtain ⟨number, hn⟩ := Option.isSome_iff_exists.mp (MethodDef.isSome_listed? actor d hd)
    rw [← MethodDef.number?_eq_listed? hd] at hn
    refine ⟨number, hn, fun e he hactive' hn' => ?_⟩
    exact MethodDef.eq_of_number?_eq he hd hactive' hactive (hn'.trans hn.symm)
  two_le _ hd _ := MethodDef.two_le_of_number? hd
  fixed_lt _ hd _ hn := (MethodDef.isManual_of_fixed hd hn).2
  hashed_ge _ hd _ _ hname := MethodDef.firstNumber_le_of_hashed hd hname
  number?_iff _ _ := number?_ofRelease_eq_some_iff h
  name_ne := by
    intro number name hmethod
    obtain ⟨d, hd, -, -, rfl⟩ := (method_ofRelease_eq_ok_iff h).mp hmethod
    exact (MethodDef.isOwn_of_mem actor d hd).1

end MethodTable

namespace VersionRegistry

/-- What the methods of an actor are called at a height, by the definitions that are active in the
release of the version there. -/
structure NamesMethods (r : VersionRegistry) (actor : ActorKind) (network : Network)
    (height : Int64) (version : Version) : Prop where
  send : r.methodName actor 0 network height = .ok "Send"
  construct : r.methodName actor 1 network height = .ok "Constructor"
  /-- Other methods have no name where the actor is not in the release, -/
  error_iff : ∀ number, number ≠ 0 → number ≠ 1 →
    (r.methodName actor number network height =
      .error (.unknownActor actor.name version.ordinal) ↔
        actor = .unknown ∨ version.actors < actor.introducedIn)
  /-- or else that of the definition with their number, -/
  defined : ∀ number, number ≠ 0 → number ≠ 1 → actor.IsIn version.actors →
    ∀ d ∈ MethodDef.ofActor actor, d.isActive version.actors = true →
      d.number? = some number → r.methodName actor number network height = .ok d.name
  /-- if there is one. -/
  undefined : ∀ number, number ≠ 0 → number ≠ 1 → actor.IsIn version.actors →
    (∀ d ∈ MethodDef.ofActor actor, d.isActive version.actors = true →
      d.number? ≠ some number) → r.methodName actor number network height = .ok "unknown"

theorem methodName_of_isIn {r : VersionRegistry} {actor : ActorKind} {network : Network}
    {height : Int64} (h : actor.IsIn (r.resolve network height).actors) {number : UInt64}
    (hsend : number ≠ MethodTable.send) (hconstruct : number ≠ MethodTable.construct) :
    r.methodName actor number network height =
      match (MethodTable.ofRelease (r.resolve network height).actors).method actor number with
      | .ok name => .ok name
      | .error _ => .ok unknownMethod := by
  have hactor := MethodTable.hasActor_ofRelease_iff.mpr h
  rw [methodName, if_neg hsend, if_neg hconstruct]
  exact if_pos hactor

theorem methodName_of_not_isIn {r : VersionRegistry} {actor : ActorKind} {network : Network}
    {height : Int64} (h : ¬ actor.IsIn (r.resolve network height).actors) {number : UInt64}
    (hsend : number ≠ MethodTable.send) (hconstruct : number ≠ MethodTable.construct) :
    r.methodName actor number network height =
      .error (.unknownActor actor.name (r.resolve network height).ordinal) := by
  have hactor : ¬ (MethodTable.ofRelease (r.resolve network height).actors).hasActor actor = true :=
    fun hactor => h (MethodTable.hasActor_ofRelease_iff.mp hactor)
  rw [methodName, if_neg hsend, if_neg hconstruct]
  exact if_neg hactor

/-- The table of every release holds all active definitions of the actors in it, each one under a
number of its own, and the names of methods at every height are read off these definitions. -/
theorem methods_named_by_definitions :
    (∀ release actor, actor.IsIn release → MethodTable.HoldsMethods release actor) ∧
      ∀ (r : VersionRegistry) actor network height,
        r.NamesMethods actor network height (r.resolve network height) := by
  refine ⟨fun release actor h => MethodTable.holdsMethods h, fun r actor network height => ?_⟩
  let version := r.resolve network height
  have hin : ¬ actor.IsIn version.actors ↔
      actor = .unknown ∨ version.actors < actor.introducedIn := by
    rw [ActorKind.IsIn, not_and_or, not_not, UInt32.not_le]
  constructor
  case send => rfl
  case construct => rfl
  case error_iff =>
    intro number hsend hconstruct
    rw [← hin]
    constructor
    · intro herror h
      rw [methodName_of_isIn h hsend hconstruct] at herror
      split at herror <;> cases herror
    · exact fun h => methodName_of_not_isIn h hsend hconstruct
  case defined =>
    intro number hsend hconstruct h d hd hactive hnumber
    have hmethod := (MethodTable.method_ofRelease_eq_ok_iff h).mpr ⟨d, hd, hactive, hnumber, rfl⟩
    rw [methodName_of_isIn h hsend hconstruct, hmethod]
  case undefined =>
    intro number hsend hconstruct h hnone
    rw [methodName_of_isIn h hsend hconstruct]
    split
    next name hmethod =>
      obtain ⟨d, hd, hactive, hnumber, -⟩ := (MethodTable.method_ofRelease_eq_ok_iff h).mp hmethod
      exact absurd hnumber (hnone d hd hactive)
    next => rfl

end VersionRegistry
end TraceLedger
