import Mathlib.Data.List.Basic
import TraceLedger.Version

/-! # Schedules of versions

A registry tells in several ways when a version is active: by the version at a height, by the
heights of a version, and by the list of those that are active at all. They agree on every
schedule, also where versions share an activation height. All is told by one fact: the version at
a height splits the schedule into those before it and those whose time has not come. -/

namespace TraceLedger

namespace Version

/-- A version may stand before another one in a schedule. -/
def Precedes (a b : Version) : Prop :=
  a.ordinal < b.ordinal ∧ ∀ network, a.activation network ≤ b.activation network

theorem Precedes.trans {a b c : Version} (hab : a.Precedes b) (hbc : b.Precedes c) :
    a.Precedes c :=
  ⟨UInt32.lt_trans hab.1 hbc.1, fun network => Int64.le_trans (hab.2 network) (hbc.2 network)⟩

theorem pairwise_precedes_iff {versions : List Version} :
    versions.Pairwise Precedes ↔ versions.Pairwise (·.ordinal < ·.ordinal) ∧
      ∀ network, versions.Pairwise (·.activation network ≤ ·.activation network) := by
  simp only [List.pairwise_iff_forall_sublist, Precedes]
  grind

theorem Precedes.ordinal_ne {a b : Version} (h : a.Precedes b) : a.ordinal ≠ b.ordinal :=
  UInt32.ne_of_lt h.1

theorem orderFault?_eq_none_iff {a b : Version} : orderFault? a b = none ↔ a.Precedes b := by
  unfold orderFault? Precedes
  by_cases hordinal : b.ordinal ≤ a.ordinal
  · simp [hordinal, UInt32.not_lt.mpr hordinal]
  · simp only [hordinal, if_false, Option.map_eq_none_iff, List.find?_eq_none, decide_eq_true_eq,
      Int64.not_lt, UInt32.not_le.mp hordinal, true_and]
    constructor
    · intro h network
      apply h
      cases network <;> decide
    · exact fun h network _ => h network

theorem scheduleFault?_cons_cons_eq_none_iff {a b : Version} {rest : List Version} :
    scheduleFault? (a :: b :: rest) = none ↔ a.Precedes b ∧ scheduleFault? (b :: rest) = none := by
  rw [scheduleFault?, ← orderFault?_eq_none_iff]
  cases orderFault? a b <;> simp

theorem scheduleFault?_eq_none_iff_isChain {versions : List Version} :
    scheduleFault? versions = none ↔ versions.IsChain Precedes := by
  induction versions with
  | nil => simp [scheduleFault?]
  | cons a rest ih =>
      cases rest with
      | nil => simp [scheduleFault?]
      | cons b rest =>
          rw [scheduleFault?_cons_cons_eq_none_iff, List.isChain_cons_cons]
          exact and_congr_right' ih

/-- If each two neighbours are in order then so are any two versions. -/
theorem scheduleFault?_eq_none_iff {versions : List Version} :
    scheduleFault? versions = none ↔ versions.Pairwise Precedes := by
  have : Trans Precedes Precedes Precedes := ⟨Precedes.trans⟩
  rw [scheduleFault?_eq_none_iff_isChain, List.isChain_iff_pairwise]

end Version

namespace VersionRegistry

open Version

theorem pairwise_versions (r : VersionRegistry) : r.versions.Pairwise Precedes :=
  scheduleFault?_eq_none_iff.mp r.ordered

/-- What a list of versions makes is the registry of these versions. -/
theorem ofList_eq_ok_iff {versions : List Version} {r : VersionRegistry} :
    ofList versions = .ok r ↔ r.versions = versions := by
  constructor
  · intro h
    unfold ofList at h
    split at h
    next => cases h
    next =>
      split at h
      next =>
        cases h
        rfl
      next => cases h
  · rintro rfl
    simp only [versions, ofList]
    split
    next => rfl
    next fault hfault => exact absurd (hfault.symm.trans r.ordered) (by simp)

theorem exists_ofList_eq_ok_iff {versions : List Version} :
    (∃ r, ofList versions = .ok r) ↔ versions ≠ [] ∧ versions.Pairwise Precedes := by
  simp only [ofList_eq_ok_iff, ← scheduleFault?_eq_none_iff]
  constructor
  · rintro ⟨r, rfl⟩
    exact ⟨List.cons_ne_nil _ _, r.ordered⟩
  · rintro ⟨hne, hordered⟩
    obtain ⟨first, rest, rfl⟩ := List.exists_cons_of_ne_nil hne
    exact ⟨⟨first, rest, hordered⟩, rfl⟩

/-! ## The version at a height -/

/-- A version of a schedule stands between those before it and those behind it, whose time has not
come at a height. Its own time has come, unless it is the first. -/
structure Splits (network : Network) (height : Int64) (versions before : List Version)
    (v : Version) (after : List Version) : Prop where
  eq_append : versions = before ++ v :: after
  reached : before = [] ∨ v.activation network ≤ height
  ahead : ∀ u ∈ after, height < u.activation network

variable {network : Network} {height : Int64}

theorem Splits.precedes_of_mem_before {versions before after : List Version} {u v : Version}
    (h : Splits network height versions before v after) (hp : versions.Pairwise Precedes)
    (hu : u ∈ before) : u.Precedes v := by
  rw [h.eq_append] at hp
  exact (List.pairwise_append.mp hp).2.2 u hu v List.mem_cons_self

theorem Splits.precedes_of_mem_after {versions before after : List Version} {u v : Version}
    (h : Splits network height versions before v after) (hp : versions.Pairwise Precedes)
    (hu : u ∈ after) : v.Precedes u := by
  rw [h.eq_append] at hp
  exact (List.pairwise_cons.mp (List.pairwise_append.mp hp).2.1).1 u hu

theorem Splits.mem {versions before after : List Version} {v : Version}
    (h : Splits network height versions before v after) : v ∈ versions := by
  simp [h.eq_append]

/-- The version at a later height is the same one or a later one. -/
theorem Splits.eq_or_precedes {versions before after before' after' : List Version}
    {v v' : Version} {low high : Int64} (hp : versions.Pairwise Precedes)
    (hv : Splits network low versions before v after)
    (hv' : Splits network high versions before' v' after') (hle : low ≤ high) :
    v = v' ∨ v.Precedes v' := by
  have hmem := hv'.mem
  rw [hv.eq_append, List.mem_append, List.mem_cons] at hmem
  rcases hmem with hbefore | rfl | hafter
  · -- The later height has an earlier version, so the time of the other one has come by both.
    have hback := hv.precedes_of_mem_before hp hbefore
    have hreached := hv.reached.resolve_left (List.ne_nil_of_mem hbefore)
    have hmem := hv.mem
    rw [hv'.eq_append, List.mem_append, List.mem_cons] at hmem
    rcases hmem with hbefore' | heq | hafter'
    · exact .inr (hv'.precedes_of_mem_before hp hbefore')
    · exact .inl heq
    · exact absurd (Int64.le_trans hreached hle) (Int64.not_le.mpr (hv'.ahead v hafter'))
  · exact .inl rfl
  · exact .inr (hv.precedes_of_mem_after hp hafter)

theorem Splits.unique {versions before after before' after' : List Version} {v v' : Version}
    (hp : versions.Pairwise Precedes) (hv : Splits network height versions before v after)
    (hv' : Splits network height versions before' v' after') : v = v' := by
  rcases hv.eq_or_precedes hp hv' (Int64.le_refl height) with heq | hlt
  · exact heq
  · rcases hv'.eq_or_precedes hp hv (Int64.le_refl height) with heq | hgt
    · exact heq.symm
    · exact absurd hgt.1 (UInt32.lt_asymm hlt.1)

theorem exists_splits_lastActive {current : Version} {rest : List Version}
    (h : (current :: rest).Pairwise Precedes) :
    ∃ before after, Splits network height (current :: rest) before
      (lastActive network height current rest) after := by
  induction rest generalizing current with
  | nil => exact ⟨[], [], rfl, .inl rfl, by simp⟩
  | cons v rest ih =>
      have hrest := (List.pairwise_cons.mp h).2
      by_cases hv : v.activation network ≤ height
      · obtain ⟨before, after, hsplit⟩ := ih hrest
        rw [lastActive, if_pos hv]
        refine ⟨current :: before, after, by rw [hsplit.eq_append, List.cons_append], .inr ?_,
          hsplit.ahead⟩
        rcases hsplit.reached with rfl | hreached
        · rw [← (List.cons.inj hsplit.eq_append).1]
          exact hv
        · exact hreached
      · rw [lastActive, if_neg hv]
        refine ⟨[], v :: rest, rfl, .inl rfl, List.forall_mem_cons.mpr ⟨Int64.not_le.mp hv, ?_⟩⟩
        intro u hu
        exact Int64.lt_of_lt_of_le (Int64.not_le.mp hv)
          (((List.pairwise_cons.mp hrest).1 u hu).2 network)

theorem exists_splits_resolve (r : VersionRegistry) (network : Network) (height : Int64) :
    ∃ before after,
      Splits network height r.versions before (r.resolve network height) after :=
  exists_splits_lastActive r.pairwise_versions

theorem Splits.resolve_eq {r : VersionRegistry} {before after : List Version} {v : Version}
    (h : Splits network height r.versions before v after) : r.resolve network height = v := by
  obtain ⟨_, _, hresolve⟩ := r.exists_splits_resolve network height
  exact hresolve.unique r.pairwise_versions h

/-- The version at a height is the last one whose time has come, or the first one. -/
theorem getElem?_resolve (r : VersionRegistry) (network : Network) (height : Int64) :
    r.versions[(r.versions.takeWhile (·.activation network ≤ height)).length - 1]? =
      some (r.resolve network height) := by
  obtain ⟨before, after, hsplit⟩ := r.exists_splits_resolve network height
  have hafter : after.takeWhile (·.activation network ≤ height) = [] := by
    cases after with
    | nil => rfl
    | cons next rest =>
        have hnext := Int64.not_le.mpr (hsplit.ahead next List.mem_cons_self)
        exact List.takeWhile_cons_of_neg (by simpa using hnext)
  by_cases hv : (r.resolve network height).activation network ≤ height
  · have hbefore : ∀ u ∈ before, decide (u.activation network ≤ height) = true := fun u hu =>
      decide_eq_true (Int64.le_trans
        ((hsplit.precedes_of_mem_before r.pairwise_versions hu).2 network) hv)
    rw [hsplit.eq_append, List.takeWhile_append_of_pos hbefore,
      List.takeWhile_cons_of_pos (by simpa using hv), hafter]
    simp
  · obtain rfl : before = [] := hsplit.reached.resolve_right hv
    rw [hsplit.eq_append, List.nil_append, List.takeWhile_cons_of_neg (by simpa using hv)]
    rfl

theorem resolve_of_lt_first (r : VersionRegistry) (h : height < r.first.activation network) :
    r.resolve network height = r.first := by
  obtain ⟨before, after, hsplit⟩ := r.exists_splits_resolve network height
  have heq := hsplit.eq_append
  cases before with
  | nil => exact (List.cons.inj heq).1.symm
  | cons u before =>
      -- The first one is in front of the version, and so its time has come.
      have hu : r.first = u := (List.cons.inj heq).1
      have hreached := hsplit.reached.resolve_left (List.cons_ne_nil u before)
      have hle := (hsplit.precedes_of_mem_before r.pairwise_versions List.mem_cons_self).2 network
      exact absurd h (Int64.not_lt.mpr (hu ▸ Int64.le_trans hle hreached))

theorem exists_versions_eq_concat_latest (r : VersionRegistry) :
    ∃ front, r.versions = front ++ [r.latest] := by
  rcases List.eq_nil_or_concat r.rest with hnil | ⟨front, last, hlast⟩
  · exact ⟨[], by simp [versions, latest, hnil]⟩
  · exact ⟨r.first :: front, by simp [versions, latest, hlast]⟩

theorem resolve_of_latest_le (r : VersionRegistry) (h : r.latest.activation network ≤ height) :
    r.resolve network height = r.latest := by
  obtain ⟨front, hfront⟩ := r.exists_versions_eq_concat_latest
  exact Splits.resolve_eq ⟨hfront, .inr h, by simp⟩

/-! ## The heights of a version -/

/-- The heights include a given one. -/
def Heights.Contains (heights : Heights) (height : Int64) : Prop :=
  heights.start ≤ height ∧ height < heights.stop

/-- The end of the heights of a version, by those behind it. -/
def endBefore (network : Network) : List Version → Int64
  | next :: _ => next.activation network
  | [] => noEnd

theorem rangeIn_cons_self (network : Network) (v : Version) (after : List Version) :
    rangeIn network v.ordinal (v :: after) =
      some ⟨v.activation network, endBefore network after⟩ := by
  cases after <;> simp [rangeIn, endBefore]

theorem rangeIn_eq_some_iff {versions : List Version} (hp : versions.Pairwise Precedes)
    {ordinal : UInt32} {heights : Heights} :
    rangeIn network ordinal versions = some heights ↔
      ∃ before v after, versions = before ++ v :: after ∧ v.ordinal = ordinal ∧
        heights = ⟨v.activation network, endBefore network after⟩ := by
  induction versions with
  | nil => simp [rangeIn]
  | cons u rest ih =>
      obtain ⟨hu, hrest⟩ := List.pairwise_cons.mp hp
      by_cases hordinal : u.ordinal = ordinal
      · rw [← hordinal, rangeIn_cons_self]
        constructor
        · intro h
          exact ⟨[], u, rest, rfl, rfl, (Option.some.inj h).symm⟩
        · rintro ⟨before, v, after, heq, hv, rfl⟩
          cases before with
          | nil =>
              obtain ⟨rfl, rfl⟩ := List.cons.inj heq
              rfl
          | cons u' before =>
              have hmem : v ∈ rest := by simp [(List.cons.inj heq).2]
              exact absurd hv.symm (hu v hmem).ordinal_ne
      · have hskip : rangeIn network ordinal (u :: rest) = rangeIn network ordinal rest := by
          rw [rangeIn.eq_def]
          exact if_neg hordinal
        rw [hskip, ih hrest]
        constructor
        · rintro ⟨before, v, after, rfl, hv, hheights⟩
          exact ⟨u :: before, v, after, rfl, hv, hheights⟩
        · rintro ⟨before, v, after, heq, hv, hheights⟩
          cases before with
          | nil => exact absurd ((List.cons.inj heq).1 ▸ hv) hordinal
          | cons u' before => exact ⟨before, v, after, (List.cons.inj heq).2, hv, hheights⟩

/-- A height is among those of a version exactly if it splits the schedule there. -/
theorem contains_iff_splits {r : VersionRegistry} {before after : List Version} {v : Version}
    (heq : r.versions = before ++ v :: after) (hfirst : r.first.activation network ≤ height)
    (hend : height < noEnd) :
    Heights.Contains ⟨v.activation network, endBefore network after⟩ height ↔
      Splits network height r.versions before v after := by
  constructor
  · rintro ⟨hstart, hstop⟩
    refine ⟨heq, .inr hstart, ?_⟩
    cases after with
    | nil => simp
    | cons next rest =>
        have hp := r.pairwise_versions
        rw [heq] at hp
        have hnext := (List.pairwise_cons.mp (List.pairwise_append.mp hp).2.1).2
        refine List.forall_mem_cons.mpr ⟨hstop, fun u hu => ?_⟩
        exact Int64.lt_of_lt_of_le hstop (((List.pairwise_cons.mp hnext).1 u hu).2 network)
  · intro h
    constructor
    · rcases h.reached with rfl | hreached
      · exact (List.cons.inj heq).1 ▸ hfirst
      · exact hreached
    · cases after with
      | nil => exact hend
      | cons next rest => exact h.ahead next List.mem_cons_self

theorem exists_range_contains_iff (r : VersionRegistry)
    (hfirst : r.first.activation network ≤ height) (hend : height < noEnd) (ordinal : UInt32) :
    (∃ heights, r.range network ordinal = some heights ∧ heights.Contains height) ↔
      ordinal = (r.resolve network height).ordinal := by
  constructor
  · rintro ⟨heights, hrange, hcontains⟩
    obtain ⟨before, v, after, heq, rfl, rfl⟩ := (rangeIn_eq_some_iff r.pairwise_versions).mp hrange
    rw [((contains_iff_splits heq hfirst hend).mp hcontains).resolve_eq]
  · rintro rfl
    obtain ⟨before, after, hsplit⟩ := r.exists_splits_resolve network height
    exact ⟨_, (rangeIn_eq_some_iff r.pairwise_versions).mpr
        ⟨before, _, after, hsplit.eq_append, rfl, rfl⟩,
      (contains_iff_splits hsplit.eq_append hfirst hend).mpr hsplit⟩

/-! ## The versions that are active at some height -/

theorem activeOf_sublist (network : Network) (versions : List Version) :
    (activeOf network versions).Sublist versions := by
  fun_induction activeOf network versions with
  | case1 => exact .slnil
  | case2 v => exact .refl _
  | case3 v next rest heq ih => exact ih.cons v
  | case4 v next rest hne ih => exact ih.cons_cons v

/-- A version in front of a schedule whose other versions are of later heights. -/
theorem splits_cons_iff {first u : Version} {rest : List Version}
    (hp : (first :: rest).Pairwise Precedes) :
    (∃ before after, Splits network (u.activation network) (first :: rest) before u after) ↔
      (u = first ∧ ∀ next ∈ rest, first.activation network < next.activation network) ∨
        ∃ before after, Splits network (u.activation network) rest before u after := by
  constructor
  · rintro ⟨before, after, heq, -, hahead⟩
    cases before with
    | nil =>
        obtain ⟨rfl, rfl⟩ := List.cons.inj heq
        exact .inl ⟨rfl, hahead⟩
    | cons _ before =>
        exact .inr ⟨before, after, (List.cons.inj heq).2, .inr (Int64.le_refl _), hahead⟩
  · rintro (⟨rfl, hahead⟩ | ⟨before, after, heq, -, hahead⟩)
    · exact ⟨[], rest, rfl, .inl rfl, hahead⟩
    · exact ⟨first :: before, after, by rw [heq, List.cons_append], .inr (Int64.le_refl _), hahead⟩

/-- The active versions are those that are not replaced at their own activation. -/
theorem mem_activeOf_iff {versions : List Version} (hp : versions.Pairwise Precedes)
    {u : Version} :
    u ∈ activeOf network versions ↔
      ∃ before after, Splits network (u.activation network) versions before u after := by
  fun_induction activeOf network versions with
  | case1 =>
      constructor
      · simp
      · rintro ⟨before, after, hsplit⟩
        exact hsplit.mem
  | case2 v =>
      constructor
      · rintro hu
        obtain rfl := List.mem_singleton.mp hu
        exact ⟨[], [], rfl, .inl rfl, by simp⟩
      · rintro ⟨before, after, hsplit⟩
        exact hsplit.mem
  | case3 v next rest heq ih =>
      rw [ih (List.pairwise_cons.mp hp).2, splits_cons_iff hp]
      constructor
      · exact .inr
      · rintro (⟨-, hahead⟩ | h)
        · exact absurd (hahead next List.mem_cons_self) (by simp [heq])
        · exact h
  | case4 v next rest hne ih =>
      obtain ⟨hv, hnext⟩ := List.pairwise_cons.mp hp
      have hlt : v.activation network < next.activation network :=
        Int64.lt_of_le_of_ne ((hv next List.mem_cons_self).2 network) (Ne.symm hne)
      have hahead : ∀ w ∈ next :: rest, v.activation network < w.activation network := by
        refine List.forall_mem_cons.mpr ⟨hlt, fun w hw => ?_⟩
        exact Int64.lt_of_lt_of_le hlt (((List.pairwise_cons.mp hnext).1 w hw).2 network)
      rw [List.mem_cons, ih hnext, splits_cons_iff hp]
      exact or_congr_left (and_iff_left hahead).symm

theorem splits_dropWhile_iff {versions : List Version} (hp : versions.Pairwise Precedes)
    {u : Version} (ordinal : UInt32) :
    (∃ before after, Splits network (u.activation network)
        (versions.dropWhile (·.ordinal < ordinal)) before u after) ↔
      ordinal ≤ u.ordinal ∧
        ∃ before after, Splits network (u.activation network) versions before u after := by
  induction versions with
  | nil =>
      refine ⟨?_, And.right⟩
      rintro ⟨before, after, hsplit⟩
      exact absurd hsplit.mem List.not_mem_nil
  | cons v rest ih =>
      obtain ⟨hv, hrest⟩ := List.pairwise_cons.mp hp
      by_cases hlt : v.ordinal < ordinal
      · rw [List.dropWhile_cons_of_pos (by simpa using hlt), ih hrest, splits_cons_iff hp]
        refine and_congr_right fun hle => (or_iff_right ?_).symm
        rintro ⟨rfl, -⟩
        exact UInt32.not_le.mpr hlt hle
      · rw [List.dropWhile_cons_of_neg (by simpa using hlt)]
        refine (and_iff_right_of_imp ?_).symm
        rintro ⟨before, after, hsplit⟩
        rcases List.mem_cons.mp hsplit.mem with rfl | hu
        · exact UInt32.not_lt.mp hlt
        · exact UInt32.le_trans (UInt32.not_lt.mp hlt) (UInt32.le_of_lt (hv u hu).1)

theorem mem_versions_and_resolve_eq_iff (r : VersionRegistry) (network : Network) (v : Version) :
    v ∈ r.versions ∧ r.resolve network (v.activation network) = v ↔
      ∃ before after, Splits network (v.activation network) r.versions before v after := by
  constructor
  · rintro ⟨-, hresolve⟩
    have hsplit := r.exists_splits_resolve network (v.activation network)
    rwa [hresolve] at hsplit
  · rintro ⟨before, after, hsplit⟩
    exact ⟨hsplit.mem, hsplit.resolve_eq⟩

/-! ## All together -/

/-- The ways in which a registry tells of a network when versions are active agree. -/
structure Consistent (r : VersionRegistry) (network : Network) : Prop where
  found : ∀ height,
    r.versions[(r.versions.takeWhile (·.activation network ≤ height)).length - 1]? =
      some (r.resolve network height)
  before : ∀ height < r.first.activation network, r.resolve network height = r.first
  /-- A height is among those of one version, the one that is active there. -/
  within : ∀ height, r.first.activation network ≤ height → height < noEnd → ∀ ordinal,
    (∃ heights, r.range network ordinal = some heights ∧ heights.Contains height) ↔
      ordinal = (r.resolve network height).ordinal
  behind : ∀ height, r.latest.activation network ≤ height → r.resolve network height = r.latest
  monotone : ∀ low high, low ≤ high →
    (r.resolve network low).ordinal ≤ (r.resolve network high).ordinal
  /-- The active versions are told by rising ordinals: -/
  rising : ∀ ordinal, (r.activeFrom ordinal network).Pairwise (·.ordinal < ·.ordinal)
  /-- they are those that are active at their own activation. -/
  mem_activeFrom_iff : ∀ ordinal v, v ∈ r.activeFrom ordinal network ↔
    v ∈ r.versions ∧ ordinal ≤ v.ordinal ∧ r.resolve network (v.activation network) = v

/-- A list of versions makes a registry, of these versions, exactly if there is one and ordinals
rise and activations never fall; and every registry tells consistently when its versions are
active. -/
theorem registry_consistent :
    (∀ versions, (∃ r, ofList versions = .ok r) ↔
      versions ≠ [] ∧ versions.Pairwise (·.ordinal < ·.ordinal) ∧
        ∀ network, versions.Pairwise (·.activation network ≤ ·.activation network)) ∧
    (∀ versions r, ofList versions = .ok r ↔ r.versions = versions) ∧
    ∀ (r : VersionRegistry) (network : Network), r.Consistent network := by
  refine ⟨fun versions => ?_, fun versions r => ofList_eq_ok_iff, fun r network => ?_⟩
  · rw [exists_ofList_eq_ok_iff]
    exact and_congr_right' pairwise_precedes_iff
  · have hp := r.pairwise_versions
    refine ⟨r.getElem?_resolve network, fun height => r.resolve_of_lt_first,
      fun height => r.exists_range_contains_iff, fun height => r.resolve_of_latest_le, ?_, ?_, ?_⟩
    · intro low high hle
      obtain ⟨before, after, hlow⟩ := r.exists_splits_resolve network low
      obtain ⟨before', after', hhigh⟩ := r.exists_splits_resolve network high
      rcases hlow.eq_or_precedes hp hhigh hle with heq | hlt
      · rw [heq]
        exact UInt32.le_refl _
      · exact UInt32.le_of_lt hlt.1
    · intro ordinal
      have hsublist := (activeOf_sublist network _).trans
        (List.dropWhile_sublist (·.ordinal < ordinal) (l := r.versions))
      exact (hp.sublist hsublist).imp And.left
    · intro ordinal v
      rw [activeFrom, mem_activeOf_iff (hp.sublist (List.dropWhile_sublist _)),
        splits_dropWhile_iff hp, ← mem_versions_and_resolve_eq_iff]
      exact and_left_comm

end VersionRegistry
end TraceLedger
