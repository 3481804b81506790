import Mathlib.Data.List.TakeWhile
import TraceLedger.Actor.Registry

/-! # What manifests say of a code

A registry is filled row by row, and a row that names an actor takes the place of earlier rows for
its code. So of the rows for a code the last one that names an actor counts. Where there is none,
the link may tell its actor itself, by a path that it holds in place of a hash. -/

namespace TraceLedger

theorem Utf8.decode?_eq_some_iff {bytes : List UInt8} {text : String} :
    decode? bytes = some text ↔ bytes = encode text := by
  refine ⟨fun h => ?_, fun h => h ▸ decode?_encode text⟩
  simp only [decode?, String.fromUTF8?] at h
  split at h
  · cases h
    rfl
  · cases h

namespace ActorKind

/-- An actor has the name. -/
def IsName (name : String) : Prop := ∃ kind ∈ all, kind.name = name

instance (name : String) : Decidable (IsName name) :=
  inferInstanceAs (Decidable (∃ kind ∈ all, kind.name = name))

theorem ofName_name (kind : ActorKind) : ofName kind.name = kind := by
  cases kind <;> rfl

theorem ofName_of_not_isName {name : String} (h : ¬IsName name) : ofName name = unknown := by
  have hnone : all.find? (·.name = name) = none :=
    List.find?_eq_none.mpr fun kind hkind hname => h ⟨kind, hkind, of_decide_eq_true hname⟩
  rw [ofName, hnone, Option.getD_none]

end ActorKind

namespace ActorRegistry

open ActorKind (IsName)

/-! ## Rows of manifests -/

/-- No row for the code names an actor. -/
def Unlisted (rows : Manifest) (code : Cid) : Prop := ∀ name, (name, code) ∈ rows → ¬IsName name

/-- The last row for the code that names an actor names this one. -/
def LastListed (rows : Manifest) (code : Cid) (kind : ActorKind) : Prop :=
  kind ∈ ActorKind.all ∧
    ∃ before after, rows = before ++ (kind.name, code) :: after ∧ Unlisted after code

theorem unlisted_cons_iff {row : String × Cid} {rows : Manifest} {code : Cid} :
    Unlisted (row :: rows) code ↔ (row.2 = code → ¬IsName row.1) ∧ Unlisted rows code := by
  obtain ⟨name, other⟩ := row
  refine ⟨fun h => ⟨fun heq => ?_, fun name' hmem => h name' (List.mem_cons_of_mem _ hmem)⟩,
    fun h name' hmem => ?_⟩
  · exact h name (by simp [← (heq : other = code)])
  · rcases List.mem_cons.mp hmem with heq | hmem
    · obtain ⟨rfl, rfl⟩ := Prod.mk.inj heq
      exact h.1 rfl
    · exact h.2 name' hmem

theorem LastListed.cons {rows : Manifest} {code : Cid} {kind : ActorKind}
    (h : LastListed rows code kind) (row : String × Cid) : LastListed (row :: rows) code kind := by
  obtain ⟨hkind, before, after, rfl, hafter⟩ := h
  exact ⟨hkind, row :: before, after, rfl, hafter⟩

theorem lastListed_or_unlisted (rows : Manifest) (code : Cid) :
    (∃ kind, LastListed rows code kind) ∨ Unlisted rows code := by
  induction rows with
  | nil => exact .inr (by simp [Unlisted])
  | cons row rest ih =>
      rcases ih with ⟨kind, hlast⟩ | hunlisted
      · exact .inl ⟨kind, hlast.cons row⟩
      · by_cases hrow : row.2 = code ∧ IsName row.1
        · obtain ⟨rfl, kind, hkind, hname⟩ := hrow
          exact .inl ⟨kind, hkind, [], rest, by rw [hname]; rfl, hunlisted⟩
        · exact .inr (unlisted_cons_iff.mpr ⟨not_and.mp hrow, hunlisted⟩)

/-! ## Filling a registry -/

/-- Setting a code leaves the codes of the entries as they are. -/
theorem find?_map_set (codes : List (Cid × ActorKind)) (code : Cid) (kind : ActorKind)
    (asked : Cid) :
    (codes.map fun entry => if entry.1 = code then (code, kind) else entry).find? (·.1 = asked) =
      (codes.find? (·.1 = asked)).map fun entry =>
        if entry.1 = code then (code, kind) else entry := by
  have hkey (entry : Cid × ActorKind) :
      (if entry.1 = code then (code, kind) else entry).1 = entry.1 := by
    split
    next h => exact h.symm
    next => rfl
  rw [List.find?_map]
  simp only [Function.comp_def, hkey]

theorem find?_insert (r : ActorRegistry) (code : Cid) (kind : ActorKind) (asked : Cid) :
    (r.insert code kind).codes.find? (·.1 = asked) =
      if code = asked then some (code, kind) else r.codes.find? (·.1 = asked) := by
  have hkey {found : Cid × ActorKind} (h : r.codes.find? (·.1 = asked) = some found) :
      found.1 = asked := by simpa using List.find?_some h
  unfold insert
  split
  next hany =>
    rw [find?_map_set]
    by_cases h : code = asked
    · subst h
      obtain ⟨found, hfound⟩ := Option.isSome_iff_exists.mp
        (List.find?_isSome.mpr (List.any_eq_true.mp hany))
      rw [if_pos rfl, hfound, Option.map_some, if_pos (hkey hfound)]
    · rw [if_neg h]
      cases hfound : r.codes.find? (·.1 = asked) with
      | none => rfl
      | some found => rw [Option.map_some, if_neg (hkey hfound ▸ Ne.symm h)]
  next hany =>
    rw [List.find?_append]
    by_cases h : code = asked
    · subst h
      have hnone : r.codes.find? (·.1 = code) = none :=
        List.find?_eq_none.mpr fun entry hmem hentry =>
          hany (List.any_eq_true.mpr ⟨entry, hmem, hentry⟩)
      rw [hnone, Option.none_or, if_pos rfl]
      exact List.find?_cons_of_pos (decide_eq_true rfl)
    · have hlast : [(code, kind)].find? (·.1 = asked) = none :=
        List.find?_cons_of_neg (by simpa using h)
      rw [if_neg h, hlast, Option.or_none]

theorem addManifest_append (r : ActorRegistry) (rows more : Manifest) :
    r.addManifest (rows ++ more) = (r.addManifest rows).addManifest more :=
  List.foldl_append

theorem addManifest_cons (r : ActorRegistry) (name : String) (code : Cid) (rows : Manifest) :
    r.addManifest ((name, code) :: rows) =
      (match ActorKind.ofName name with
        | .unknown => r
        | kind => r.insert code kind).addManifest rows := rfl

theorem addManifest_cons_of_mem {kind : ActorKind} (h : kind ∈ ActorKind.all) (r : ActorRegistry)
    (code : Cid) (rows : Manifest) :
    r.addManifest ((kind.name, code) :: rows) = (r.insert code kind).addManifest rows := by
  rw [addManifest_cons, ActorKind.ofName_name kind]
  cases kind <;> first | rfl | exact absurd h (by decide)

theorem addManifest_cons_of_not_isName {name : String} (h : ¬IsName name) (r : ActorRegistry)
    (code : Cid) (rows : Manifest) : r.addManifest ((name, code) :: rows) = r.addManifest rows := by
  rw [addManifest_cons, ActorKind.ofName_of_not_isName h]

/-- The rows that name an actor. -/
def namedRows (rows : Manifest) : Manifest := rows.filter (IsName ·.1)

/-- Rows that name no actor are as good as none. -/
theorem addManifest_namedRows (r : ActorRegistry) (rows : Manifest) :
    r.addManifest (namedRows rows) = r.addManifest rows := by
  unfold namedRows
  induction rows generalizing r with
  | nil => rfl
  | cons row rest ih =>
      obtain ⟨name, code⟩ := row
      by_cases h : IsName name
      · rw [List.filter_cons_of_pos (by simpa using h), addManifest_cons, addManifest_cons, ih]
      · rw [List.filter_cons_of_neg (by simpa using h), addManifest_cons_of_not_isName h, ih]

/-- Rows that do not list a code leave its entry as it is. -/
theorem find?_addManifest_of_unlisted {rows : Manifest} {code : Cid} (h : Unlisted rows code)
    (r : ActorRegistry) :
    (r.addManifest rows).codes.find? (·.1 = code) = r.codes.find? (·.1 = code) := by
  induction rows generalizing r with
  | nil => rfl
  | cons row rest ih =>
      obtain ⟨name, other⟩ := row
      obtain ⟨hrow, hrest⟩ := unlisted_cons_iff.mp h
      by_cases hname : IsName name
      · obtain ⟨kind, hkind, rfl⟩ := hname
        have hne : other ≠ code := fun heq => hrow heq ⟨kind, hkind, rfl⟩
        rw [addManifest_cons_of_mem hkind, ih hrest, find?_insert, if_neg hne]
      · rw [addManifest_cons_of_not_isName hname, ih hrest]

theorem find?_addManifest_of_lastListed {rows : Manifest} {code : Cid} {kind : ActorKind}
    (h : LastListed rows code kind) (r : ActorRegistry) :
    (r.addManifest rows).codes.find? (·.1 = code) = some (code, kind) := by
  obtain ⟨hkind, before, after, rfl, hafter⟩ := h
  rw [addManifest_append, addManifest_cons_of_mem hkind, find?_addManifest_of_unlisted hafter,
    find?_insert, if_pos rfl]

/-! ## Names in links -/

theorem cutAtSlash_eq_some_iff {text front rest : List Char} :
    cutAtSlash text = some (front, rest) ↔ '/' ∉ front ∧ text = front ++ '/' :: rest := by
  constructor
  · intro h
    have htext : text.takeWhile (· ≠ '/') ++ text.dropWhile (· ≠ '/') = text :=
      List.takeWhile_append_dropWhile
    have hhead := List.head?_dropWhile_not (· ≠ '/') text
    unfold cutAtSlash at h
    split at h
    next => cases h
    next c more hdrop =>
      cases h
      rw [hdrop] at htext hhead
      obtain rfl : c = '/' := by simpa using hhead
      refine ⟨fun hmem => ?_, htext.symm⟩
      simpa using List.mem_takeWhile_imp hmem
  · rintro ⟨hfront, rfl⟩
    have hpass : ∀ c ∈ front, decide (c ≠ '/') = true := fun c hc =>
      decide_eq_true fun heq => hfront (heq ▸ hc)
    have hdrop : (front ++ '/' :: rest).dropWhile (· ≠ '/') = '/' :: rest := by
      rw [List.dropWhile_append_of_pos hpass]
      rfl
    have htake : (front ++ '/' :: rest).takeWhile (· ≠ '/') = front := by
      rw [List.takeWhile_append_of_pos hpass]
      exact List.append_nil front
    simp only [cutAtSlash, hdrop, htake]

theorem nameInPath?_eq_some_iff {text : List Char} {name : String} :
    nameInPath? text = some name ↔
      ∃ version : String, '/' ∉ version.toList ∧
        text = ("fil/" ++ version ++ "/" ++ name).toList := by
  constructor
  · intro h
    unfold nameInPath? at h
    split at h
    next rest hcut =>
      split at h
      next version tail hrest =>
        cases h
        obtain ⟨-, rfl⟩ := cutAtSlash_eq_some_iff.mp hcut
        obtain ⟨hversion, rfl⟩ := cutAtSlash_eq_some_iff.mp hrest
        exact ⟨String.ofList version, by simpa using hversion, by simp⟩
      next => cases h
    next => cases h
  · rintro ⟨version, hversion, rfl⟩
    have hcut : cutAtSlash ("fil/" ++ version ++ "/" ++ name).toList =
        some (['f', 'i', 'l'], version.toList ++ '/' :: name.toList) :=
      cutAtSlash_eq_some_iff.mpr ⟨by decide, by simp⟩
    have hrest : cutAtSlash (version.toList ++ '/' :: name.toList) =
        some (version.toList, name.toList) := cutAtSlash_eq_some_iff.mpr ⟨hversion, rfl⟩
    simp only [nameInPath?, hcut, hrest, String.ofList_toList]

/-- The link holds a path in place of a hash, and behind its version the path has the name. -/
def HoldsName (code : Cid) (name : String) : Prop :=
  code.hashCode = Cid.identity ∧ ∃ version : String, '/' ∉ version.toList ∧
    code.digest = Utf8.encode ("fil/" ++ version ++ "/" ++ name)

theorem namedIn?_eq_some_iff {code : Cid} {kind : ActorKind} :
    namedIn? code = some kind ↔ ∃ name, HoldsName code name ∧ ActorKind.ofName name = kind := by
  unfold namedIn?
  constructor
  · intro h
    split at h
    next hidentity =>
      split at h
      next text htext =>
        obtain ⟨name, hname, hkind⟩ := Option.map_eq_some_iff.mp h
        obtain ⟨version, hversion, hpath⟩ := nameInPath?_eq_some_iff.mp hname
        have hdigest := Utf8.decode?_eq_some_iff.mp htext
        rw [String.toList_injective hpath] at hdigest
        exact ⟨name, ⟨hidentity, version, hversion, hdigest⟩, hkind⟩
      next => cases h
    next => cases h
  · rintro ⟨name, ⟨hidentity, version, hversion, hdigest⟩, rfl⟩
    have hname : nameInPath? ("fil/" ++ version ++ "/" ++ name).toList = some name :=
      nameInPath?_eq_some_iff.mpr ⟨version, hversion, rfl⟩
    simp only [if_pos hidentity, hdigest, Utf8.decode?_encode, hname, Option.map_some]

/-! ## The actor of a code -/

/-- The actor of a code, by rows of manifests and else by the link. -/
inductive IsKind (rows : Manifest) (code : Cid) : ActorKind → Prop
  | listed {kind : ActorKind} (h : LastListed rows code kind) : IsKind rows code kind
  | legacy {kind : ActorKind} (hrows : Unlisted rows code) (hkind : kind ∈ ActorKind.all)
    (h : HoldsName code kind.name) : IsKind rows code kind
  | unknown (hrows : Unlisted rows code) (h : ∀ kind ∈ ActorKind.all, ¬HoldsName code kind.name) :
    IsKind rows code .unknown

theorem kindOf_addManifest_of_lastListed {rows : Manifest} {code : Cid} {kind : ActorKind}
    (h : LastListed rows code kind) : (empty.addManifest rows).kindOf code = kind := by
  simp only [kindOf, find?_addManifest_of_lastListed h]

theorem kindOf_addManifest_of_unlisted {rows : Manifest} {code : Cid} (h : Unlisted rows code) :
    (empty.addManifest rows).kindOf code = (namedIn? code).getD .unknown := by
  simp only [kindOf, find?_addManifest_of_unlisted h, empty, List.find?_nil]

theorem namedIn?_of_holdsName {code : Cid} {kind : ActorKind} (h : HoldsName code kind.name) :
    namedIn? code = some kind :=
  namedIn?_eq_some_iff.mpr ⟨kind.name, h, kind.ofName_name⟩

theorem getD_namedIn?_of_forall {code : Cid}
    (h : ∀ kind ∈ ActorKind.all, ¬HoldsName code kind.name) :
    (namedIn? code).getD .unknown = .unknown := by
  cases hnamed : namedIn? code with
  | none => rfl
  | some kind =>
      obtain ⟨name, hholds, rfl⟩ := namedIn?_eq_some_iff.mp hnamed
      refine ActorKind.ofName_of_not_isName fun ⟨kind, hkind, hname⟩ => ?_
      exact h kind hkind (hname ▸ hholds)

theorem kindOf_of_isKind {rows : Manifest} {code : Cid} {kind : ActorKind}
    (h : IsKind rows code kind) : (empty.addManifest rows).kindOf code = kind := by
  cases h with
  | listed h => exact kindOf_addManifest_of_lastListed h
  | legacy hrows _ h =>
      rw [kindOf_addManifest_of_unlisted hrows, namedIn?_of_holdsName h, Option.getD_some]
  | unknown hrows h => rw [kindOf_addManifest_of_unlisted hrows, getD_namedIn?_of_forall h]

theorem exists_isKind (rows : Manifest) (code : Cid) : ∃ kind, IsKind rows code kind := by
  rcases lastListed_or_unlisted rows code with ⟨kind, h⟩ | hrows
  · exact ⟨kind, .listed h⟩
  · by_cases h : ∃ kind ∈ ActorKind.all, HoldsName code kind.name
    · obtain ⟨kind, hkind, hholds⟩ := h
      exact ⟨kind, .legacy hrows hkind hholds⟩
    · exact ⟨.unknown, .unknown hrows fun kind hkind hholds => h ⟨kind, hkind, hholds⟩⟩

/-- A registry that was filled from rows tells the actor of every code. -/
theorem kindOf_addManifest_iff {rows : Manifest} {code : Cid} {kind : ActorKind} :
    (empty.addManifest rows).kindOf code = kind ↔ IsKind rows code kind := by
  refine ⟨fun h => ?_, kindOf_of_isKind⟩
  obtain ⟨other, hother⟩ := exists_isKind rows code
  rwa [← h, kindOf_of_isKind hother]

end ActorRegistry
end TraceLedger
