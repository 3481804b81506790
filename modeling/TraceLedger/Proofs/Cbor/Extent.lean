import Mathlib.Logic.Basic
import TraceLedger.Cbor.Item
import TraceLedger.Proofs.Wire.Fronts

/-! # Where an item ends

Reading an item takes its bytes off the input and looks at none behind them. Two steps for each byte
are enough. -/

namespace TraceLedger.Cbor

open Scanner (give? byte andThen lookFor)

variable {rate extra fuel : Nat}

theorem endsIn_number? (width : Nat) :
    EndsIn Anything rate extra (fun _ => number? width) fuel :=
  (endsIn_take? width).map fun bytes => UInt64.ofNat (BigEndian.decode bytes)

theorem endsIn_argument? (low : UInt8) :
    EndsIn Anything rate extra (fun _ => argument? low) fuel := by
  have hargument : argument? low =
      if low < 24 then give? (some low.toUInt64)
      else if low = 24 then number? 1
      else if low = 25 then number? 2
      else if low = 26 then number? 4
      else if low = 27 then number? 8
      else give? none := by
    funext input
    unfold argument?
    split_ifs <;> rfl
  rw [hargument]
  split_ifs
  · exact .give? _
  · exact endsIn_number? 1
  · exact endsIn_number? 2
  · exact endsIn_number? 4
  · exact endsIn_number? 8
  · exact .give? _

namespace Item

/-- What is read behind the first byte of chunks. -/
def chunksBehind (kind : Kind) (depth : Nat) (b : UInt8) : Nat → Scanner (List (List UInt8)) :=
  if b = breakByte then
    match depth with
    | 0 => fun _ => give? (some [])
    | depth + 1 => fun fuel => chunks kind fuel depth
  else if b = kind.openHead then fun fuel => chunks kind fuel (depth + 1)
  else if b >>> 5 = kind.code then fun fuel =>
    andThen (argument? (b &&& 0x1f)) fun size => andThen (Octets.take? size.toNat) fun chunk =>
      Scanner.map (chunk :: ·) (chunks kind fuel depth)
  else fun _ => give? none

theorem chunks_succ (kind : Kind) (fuel depth : Nat) :
    chunks kind (fuel + 1) depth = andThen byte fun b => chunksBehind kind depth b fuel := by
  funext input
  cases input with
  | nil => simp only [chunks, andThen, byte]
  | cons b rest =>
      cases depth
      all_goals
        simp only [chunks, andThen, byte, chunksBehind, ite_apply]
        refine ite_congr rfl (fun _ => rfl) fun _ => ?_
        refine ite_congr rfl (fun _ => rfl) fun _ => ?_
        refine ite_congr rfl (fun _ => ?_) fun _ => rfl
        cases argument? (b &&& 0x1f) rest with
        | none => rfl
        | some front =>
            simp only
            cases Octets.take? front.1.toNat front.2 <;> rfl

/-- Chunks end with their break, and each step takes a byte at least. -/
theorem endsIn_chunks (kind : Kind) (depth : Nat) :
    EndsIn Anything 1 0 (fun fuel => chunks kind fuel depth) fuel := by
  induction fuel generalizing depth with
  | zero =>
      intro input value rest h
      simp [chunks] at h
  | succ fuel ih =>
      have hbehind (b : UInt8) : EndsIn Anything 1 0 (chunksBehind kind depth b) fuel := by
        unfold chunksBehind
        split_ifs
        · cases depth with
          | zero => exact .give? _
          | succ depth => exact ih depth
        · exact ih (depth + 1)
        · refine (endsIn_argument? _).andThen extends_anything fun size => ?_
          refine (endsIn_take? _).andThen extends_anything fun chunk => ?_
          exact (ih depth).map _
        · exact .give? _
      have hbyte : EndsIn Anything 0 0 (fun _ => byte) fuel := .byte
      exact .step (fun fuel => chunks_succ kind fuel depth) hbyte (fun _ => rfl) hbehind
        (by decide) (by decide) (by decide)

/-- The chunks of a string of untold length. -/
def allChunks (kind : Kind) : Scanner (List (List UInt8)) := fun input =>
  chunks kind (input.length + 1) 0 input

theorem endsIn_allChunks (kind : Kind) :
    EndsIn Anything rate extra (fun _ => allChunks kind) fuel := by
  intro input value rest h
  obtain ⟨bytes, rfl, htakes⟩ := endsIn_chunks kind 0 _ _ _ h
  refine ⟨bytes, rfl, fun _ _ more _ => htakes _ ?_ more trivial⟩
  rw [List.length_append]
  omega

/-- What is read behind the first byte of an item of some kind. -/
def contentBehind (kind : UInt8) (n : UInt64) : Nat → Scanner Item :=
  if kind = Kind.unsigned.code then fun _ => give? (some (int n.toNat))
  else if kind = Kind.negative.code then fun _ => give? (some (int (-1 - (n.toNat : Int))))
  else if kind = Kind.bytes.code then fun _ => Scanner.map (bytes true) (Octets.take? n.toNat)
  else if kind = Kind.text.code then fun _ =>
    andThen (Octets.take? n.toNat) fun value => give? ((Utf8.decode? value).map (text true))
  else if kind = Kind.list.code then fun fuel => Scanner.map list (items fuel n.toNat)
  else if kind = Kind.map.code then fun fuel => Scanner.map map (entries fuel n.toNat)
  else fun fuel => Scanner.map (tag n) (read fuel)

/-- What is read behind the first byte of an item. -/
def itemBehind (b : UInt8) : Nat → Scanner Item :=
  if b = Kind.bytes.openHead then fun _ =>
    Scanner.map (fun chunks => bytes false chunks.flatten) (allChunks .bytes)
  else if b = Kind.text.openHead then fun _ =>
    andThen (allChunks .text) fun chunks => give? ((joinText chunks).map (text false))
  else if b = Kind.list.openHead then fun fuel => Scanner.map list (openItems fuel)
  else if b = Kind.map.openHead then fun fuel => Scanner.map map (openEntries fuel)
  else if b >>> 5 = 7 then
    if b &&& 0x1f = 24 then fun _ => andThen (number? 1) fun n => give? (simple? n)
    else if b &&& 0x1f = 25 then fun _ => Scanner.map (fun _ => float) (Octets.take? 2)
    else if b &&& 0x1f = 26 then fun _ => Scanner.map (fun _ => float) (Octets.take? 4)
    else if b &&& 0x1f = 27 then fun _ => Scanner.map (fun _ => float) (Octets.take? 8)
    else fun _ => give? (simple? (b &&& 0x1f).toUInt64)
  else fun fuel => andThen (argument? (b &&& 0x1f)) fun n => contentBehind (b >>> 5) n fuel

theorem contentBehind_apply (kind : UInt8) (n : UInt64) (fuel : Nat) (rest : Input) :
    contentBehind kind n fuel rest =
      if kind = Kind.unsigned.code then some (int n.toNat, rest)
      else if kind = Kind.negative.code then some (int (-1 - (n.toNat : Int)), rest)
      else if kind = Kind.bytes.code then
        (Octets.take? n.toNat rest).map fun (value, rest) => (bytes true value, rest)
      else if kind = Kind.text.code then
        match Octets.take? n.toNat rest with
        | none => none
        | some (value, rest) => (Utf8.decode? value).map fun value => (text true value, rest)
      else if kind = Kind.list.code then
        (items fuel n.toNat rest).map fun (items, rest) => (list items, rest)
      else if kind = Kind.map.code then
        (entries fuel n.toNat rest).map fun (entries, rest) => (map entries, rest)
      else (read fuel rest).map fun (item, rest) => (tag n item, rest) := by
  simp only [contentBehind, ite_apply]
  refine ite_congr rfl (fun _ => rfl) fun _ => ?_
  refine ite_congr rfl (fun _ => rfl) fun _ => ?_
  refine ite_congr rfl (fun _ => rfl) fun _ => ?_
  refine ite_congr rfl (fun _ => ?_) fun _ => rfl
  simp only [andThen]
  cases Octets.take? n.toNat rest with
  | none => rfl
  | some front => exact Option.map_map _ _ _

theorem read_succ (fuel : Nat) : read (fuel + 1) = andThen byte fun b => itemBehind b fuel := by
  funext input
  cases input with
  | nil => rfl
  | cons b rest =>
      simp only [read, andThen, byte, itemBehind, ite_apply]
      refine ite_congr rfl (fun _ => rfl) fun _ => ?_
      refine ite_congr rfl (fun _ => ?_) fun _ => ?_
      · simp only [allChunks]
        cases chunks .text (rest.length + 1) 0 rest with
        | none => rfl
        | some front =>
            exact (Option.map_map (·, front.2) (text false) (joinText front.1)).symm
      refine ite_congr rfl (fun _ => rfl) fun _ => ?_
      refine ite_congr rfl (fun _ => rfl) fun _ => ?_
      refine ite_congr rfl (fun _ => ?_) fun _ => ?_
      · refine ite_congr rfl (fun _ => ?_) fun _ => rfl
        cases number? 1 rest <;> rfl
      · cases argument? (b &&& 0x1f) rest with
        | none => rfl
        | some front => exact (contentBehind_apply _ _ _ _).symm

/-! ## Items inside one another -/

theorem read_nil (fuel : Nat) : read fuel [] = none := by
  cases fuel <;> rfl

theorem items_succ (fuel count : Nat) : items (fuel + 1) (count + 1) =
    andThen (read fuel) fun item => Scanner.map (item :: ·) (items fuel count) := by
  funext input
  simp only [items, andThen]
  cases read fuel input <;> rfl

theorem entries_succ (fuel count : Nat) : entries (fuel + 1) (count + 1) =
    andThen (read fuel) fun name => andThen (read fuel) fun item =>
      Scanner.map ((name, item) :: ·) (entries fuel count) := by
  funext input
  simp only [entries, andThen]
  cases read fuel input with
  | none => rfl
  | some front =>
      simp only
      cases read fuel front.2 <;> rfl

/-- The next item, or none at the break. -/
def itemOrBreak (fuel : Nat) : Scanner (Option Item) :=
  lookFor byte breakByte (give? (some none)) (Scanner.map some (read fuel))

theorem openItems_succ (fuel : Nat) : openItems (fuel + 1) =
    andThen (itemOrBreak fuel) fun
      | none => give? (some [])
      | some item => Scanner.map (item :: ·) (openItems fuel) := by
  funext input
  cases input with
  | nil => rfl
  | cons b rest =>
      simp only [openItems, andThen, itemOrBreak, lookFor, byte, Scanner.map]
      by_cases hbreak : b = breakByte
      · rw [if_pos hbreak, if_pos hbreak]
        rfl
      · rw [if_neg hbreak, if_neg hbreak]
        cases read fuel (b :: rest) <;> rfl

theorem openEntries_succ (fuel : Nat) : openEntries (fuel + 1) =
    andThen (itemOrBreak fuel) fun
      | none => give? (some [])
      | some name => andThen (read fuel) fun item =>
          Scanner.map ((name, item) :: ·) (openEntries fuel) := by
  funext input
  cases input with
  | nil => rfl
  | cons b rest =>
      simp only [openEntries, andThen, itemOrBreak, lookFor, byte, Scanner.map]
      by_cases hbreak : b = breakByte
      · rw [if_pos hbreak, if_pos hbreak]
        rfl
      · rw [if_neg hbreak, if_neg hbreak]
        cases read fuel (b :: rest) with
        | none => rfl
        | some front =>
            simp only [Option.map_some, andThen]
            cases read fuel front.2 <;> rfl

theorem endsIn_itemOrBreak (h : EndsIn Anything rate extra read fuel) :
    EndsIn Anything rate extra itemOrBreak fuel := by
  refine EndsIn.lookFor .byte breakByte (.give? _) (h.map some) ?_
  intro fuel input hnone
  cases input with
  | nil => rw [Scanner.map, read_nil, Option.map_none]
  | cons b rest => cases hnone

mutual

/-- An item ends behind its bytes, by induction over the steps of its reader. -/
theorem endsIn_read : ∀ fuel, EndsIn Anything 2 0 read fuel
  | 0 => by
    intro input item rest h
    simp [read] at h
  | fuel + 1 => by
    have hbehind (b : UInt8) : EndsIn Anything 2 1 (itemBehind b) fuel := by
      unfold itemBehind
      split_ifs
      · exact (endsIn_allChunks .bytes).map _
      · exact (endsIn_allChunks .text).andThen extends_anything fun _ => .give? _
      · exact (endsIn_openItems fuel).map _
      · exact (endsIn_openEntries fuel).map _
      · exact (endsIn_number? 1).andThen extends_anything fun _ => .give? _
      · exact (endsIn_take? 2).map _
      · exact (endsIn_take? 4).map _
      · exact (endsIn_take? 8).map _
      · exact .give? _
      · refine (endsIn_argument? _).andThen extends_anything fun n => ?_
        unfold contentBehind
        split_ifs
        · exact .give? _
        · exact .give? _
        · exact (endsIn_take? _).map _
        · exact (endsIn_take? _).andThen extends_anything fun _ => .give? _
        · exact (endsIn_items fuel _).map _
        · exact (endsIn_entries fuel _).map _
        · exact ((endsIn_read fuel).mono (Nat.le_refl 2) (Nat.zero_le 1)).map _
    have hbyte : EndsIn Anything 0 0 (fun _ => byte) fuel := .byte
    exact .step read_succ hbyte (fun _ => rfl) hbehind (by decide) (by decide) (by decide)

theorem endsIn_items : ∀ fuel count, EndsIn Anything 2 1 (fun fuel => items fuel count) fuel
  | 0, _ => by
    intro input value rest h
    simp [items] at h
  | fuel + 1, 0 => by
    intro input value rest h
    simp only [items, Option.some.injEq, Prod.mk.injEq] at h
    obtain ⟨rfl, rfl⟩ := h
    refine ⟨[], rfl, fun fuel hfuel more _ => ?_⟩
    obtain ⟨fuel, rfl⟩ : ∃ n, fuel = n + 1 := ⟨fuel - 1, by omega⟩
    rfl
  | fuel + 1, count + 1 => by
    have hrest (item : Item) :
        EndsIn Anything 2 1 (fun fuel => Scanner.map (item :: ·) (items fuel count)) fuel :=
      (endsIn_items fuel count).map _
    exact .step (fun fuel => items_succ fuel count) (endsIn_read fuel) read_nil hrest
      (by decide) (by decide) (by decide)

theorem endsIn_entries : ∀ fuel count, EndsIn Anything 2 1 (fun fuel => entries fuel count) fuel
  | 0, _ => by
    intro input value rest h
    simp [entries] at h
  | fuel + 1, 0 => by
    intro input value rest h
    simp only [entries, Option.some.injEq, Prod.mk.injEq] at h
    obtain ⟨rfl, rfl⟩ := h
    refine ⟨[], rfl, fun fuel hfuel more _ => ?_⟩
    obtain ⟨fuel, rfl⟩ : ∃ n, fuel = n + 1 := ⟨fuel - 1, by omega⟩
    rfl
  | fuel + 1, count + 1 => by
    have hrest (name : Item) : EndsIn Anything 2 1 (fun fuel => andThen (read fuel) fun item =>
        Scanner.map ((name, item) :: ·) (entries fuel count)) fuel := by
      refine EndsIn.andThen extends_anything ?_ fun item => (endsIn_entries fuel count).map _
      exact (endsIn_read fuel).mono (Nat.le_refl 2) (Nat.zero_le 1)
    exact .step (fun fuel => entries_succ fuel count) (endsIn_read fuel) read_nil hrest
      (by decide) (by decide) (by decide)

theorem endsIn_openItems : ∀ fuel, EndsIn Anything 2 1 openItems fuel
  | 0 => by
    intro input value rest h
    simp [openItems] at h
  | fuel + 1 => by
    refine .step openItems_succ (endsIn_itemOrBreak (endsIn_read fuel)) (fun _ => rfl) ?_
      (by decide) (by decide) (by decide : 1 < 2 + 1)
    intro item?
    cases item? with
    | none => exact .give? (some [])
    | some item => exact (endsIn_openItems fuel).map _

theorem endsIn_openEntries : ∀ fuel, EndsIn Anything 2 1 openEntries fuel
  | 0 => by
    intro input value rest h
    simp [openEntries] at h
  | fuel + 1 => by
    refine .step openEntries_succ (endsIn_itemOrBreak (endsIn_read fuel)) (fun _ => rfl) ?_
      (by decide) (by decide) (by decide : 1 < 2 + 1)
    intro name?
    cases name? with
    | none => exact .give? (some [])
    | some name =>
        refine EndsIn.andThen extends_anything ?_ fun item => (endsIn_openEntries fuel).map _
        exact (endsIn_read fuel).mono (Nat.le_refl 2) (Nat.zero_le 1)

end

end Item
end TraceLedger.Cbor
