import Mathlib.Data.List.Nodup
import TraceLedger.Trace.Listing

/-! # The places of calls

A call stands in a trace at the end of a path: the positions among the subcalls on the way down
to it. The paths of a trace name each of its calls once, so there are as many of them as the
count says. -/

namespace TraceLedger.Trace

mutual

/-- The paths of the calls of a trace, in the order in which the calls were made. -/
def paths : Trace → List (List Nat)
  | ⟨_, _, _, subcalls, _⟩ => [] :: pathsFrom 0 subcalls

/-- The paths through traces that stand side by side, the first one at the given position. -/
def pathsFrom (position : Nat) : List Trace → List (List Nat)
  | [] => []
  | t :: rest => (paths t).map (position :: ·) ++ pathsFrom (position + 1) rest

end

theorem paths_eq (t : Trace) : t.paths = [] :: pathsFrom 0 t.subcalls := by
  cases t
  rw [paths]

/-- The call at the end of a path. -/
def at? (t : Trace) : List Nat → Option Trace
  | [] => some t
  | position :: path =>
    match t.subcalls[position]? with
    | some subcall => subcall.at? path
    | none => none

@[simp] theorem at?_nil (t : Trace) : t.at? [] = some t := rfl

theorem at?_append (t : Trace) (first second : List Nat) :
    t.at? (first ++ second) = (t.at? first).bind fun t => t.at? second := by
  induction first generalizing t with
  | nil => rfl
  | cons position path ih =>
      simp only [List.cons_append, at?]
      cases t.subcalls[position]? with
      | none => rfl
      | some subcall => exact ih subcall

theorem at?_concat {root t subcall : Trace} {path : List Nat} {position : Nat}
    (ht : root.at? path = some t) (hsub : t.subcalls[position]? = some subcall) :
    root.at? (path ++ [position]) = some subcall := by
  simp [at?_append, ht, at?, hsub]

theorem pathsFrom_eq (position : Nat) (ts : List Trace) :
    pathsFrom position ts =
      (ts.zipIdx position).flatMap fun (t, position) => t.paths.map (position :: ·) := by
  induction ts generalizing position with
  | nil => rfl
  | cons t rest ih => rw [pathsFrom, ih, List.zipIdx_cons, List.flatMap_cons]

theorem mem_pathsFrom_iff {position : Nat} {ts : List Trace} {path : List Nat} :
    path ∈ pathsFrom position ts ↔
      ∃ i t rest, ts[i]? = some t ∧ path = (position + i) :: rest ∧ rest ∈ t.paths := by
  rw [pathsFrom_eq, List.mem_flatMap]
  constructor
  · rintro ⟨⟨t, j⟩, ht, hpath⟩
    obtain ⟨rest, hrest, rfl⟩ := List.mem_map.mp hpath
    obtain ⟨hle, hget⟩ := List.mem_zipIdx_iff_le_and_getElem?_sub.mp ht
    exact ⟨j - position, t, rest, hget, by rw [Nat.add_sub_cancel' hle], hrest⟩
  · rintro ⟨i, t, rest, hget, rfl, hrest⟩
    refine ⟨(t, position + i), ?_, List.mem_map_of_mem hrest⟩
    rw [List.mem_zipIdx_iff_le_and_getElem?_sub]
    exact ⟨Nat.le_add_right _ _, by rwa [Nat.add_sub_cancel_left]⟩

/-- A path belongs to a trace if it leads to a call. -/
theorem mem_paths_iff {t : Trace} {path : List Nat} :
    path ∈ t.paths ↔ (t.at? path).isSome = true := by
  induction path generalizing t with
  | nil => simp [paths_eq]
  | cons position path ih =>
      rw [paths_eq, List.mem_cons, mem_pathsFrom_iff, at?]
      simp only [reduceCtorEq, false_or, Nat.zero_add, List.cons.injEq]
      constructor
      · rintro ⟨i, subcall, rest, hget, ⟨rfl, rfl⟩, hrest⟩
        rw [hget]
        exact ih.mp hrest
      · intro h
        cases hget : t.subcalls[position]? with
        | none => simp [hget] at h
        | some subcall =>
            rw [hget] at h
            exact ⟨position, subcall, path, hget, ⟨rfl, rfl⟩, ih.mpr h⟩

mutual

theorem nodup_paths : ∀ t : Trace, t.paths.Nodup
  | ⟨_, _, _, subcalls, _⟩ => by
    rw [paths, List.nodup_cons]
    refine ⟨?_, nodup_pathsFrom 0 subcalls⟩
    rw [mem_pathsFrom_iff]
    rintro ⟨_, _, _, -, h, -⟩
    cases h

theorem nodup_pathsFrom (position : Nat) : ∀ ts : List Trace, (pathsFrom position ts).Nodup
  | [] => List.nodup_nil
  | t :: rest => by
    rw [pathsFrom, List.nodup_append]
    refine ⟨?_, nodup_pathsFrom (position + 1) rest, ?_⟩
    · exact (nodup_paths t).map fun _ _ heq => (List.cons.inj heq).2
    · -- The paths through later traces begin with later positions.
      intro first hfirst second hsecond heq
      obtain ⟨path, -, rfl⟩ := List.mem_map.mp hfirst
      obtain ⟨i, _, _, -, rfl, -⟩ := mem_pathsFrom_iff.mp hsecond
      have hposition := (List.cons.inj heq).1
      omega

end

mutual

theorem length_paths : ∀ t : Trace, t.paths.length = t.size
  | ⟨_, _, _, subcalls, _⟩ => by
    rw [paths, size, List.length_cons, length_pathsFrom 0 subcalls]

theorem length_pathsFrom (position : Nat) :
    ∀ ts : List Trace, (pathsFrom position ts).length = sizeList ts
  | [] => rfl
  | t :: rest => by
    rw [pathsFrom, sizeList, List.length_append, List.length_map, length_paths t,
      length_pathsFrom (position + 1) rest]

end

/-- Counting with a list of pending calls adds the size of each. -/
theorem countCalls_eq (count : Nat) (ts : List Trace) :
    countCalls count ts = count + sizeList ts := by
  induction count, ts using countCalls.induct with
  | case1 count => simp [countCalls, sizeList]
  | case2 count t rest ih =>
      rw [List.unattach_reverse, List.unattach_attach] at ih
      rw [countCalls, ih, sizeList_append, sizeList_reverse, sizeList, size_eq]
      omega

theorem callCount_eq_size (t : Trace) : t.callCount = t.size := by
  simp [callCount, countCalls_eq, sizeList]

theorem length_paths_eq_callCount (t : Trace) : t.paths.length = t.callCount := by
  rw [length_paths, callCount_eq_size]

end TraceLedger.Trace
