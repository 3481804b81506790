import Mathlib.Data.List.DropRight
import TraceLedger.Proofs.Json.Tokens

/-! # Where a JSON value ends

A list and an object end with their last byte, as their parts do, but for a number at the end of a
document, which ends where the next byte is no part of it. Two steps for each byte are enough. -/

namespace TraceLedger.Json.Doc

open Scanner (give? byte andThen lookFor)

variable {α : Type} {rate extra fuel : Nat}

/-! ## Values inside one another -/

/-- What is read behind the brace of an object. -/
def objectBehind (fuel : Nat) : Scanner Doc :=
  lookFor mark 0x7d (give? (some (object []))) (Scanner.map object (fields fuel))

/-- What is read behind the bracket of a list. -/
def listBehind (fuel : Nat) : Scanner Doc :=
  lookFor mark 0x5d (give? (some (list []))) (Scanner.map list (items fuel))

/-- What is read behind the first byte of a value. -/
def valueBehind (b : UInt8) : Nat → Scanner Doc :=
  if b = 0x7b then objectBehind
  else if b = 0x5b then listBehind
  else if b = 0x22 then fun fuel => Scanner.map text (string fuel)
  else if b = 0x2d then fun _ => Scanner.map number (numeral true)
  else if isDigit b then fun _ => Scanner.map number fun input => numeral false (b :: input)
  else if b = 0x6e then fun _ => Scanner.map (fun _ => null) (word [0x75, 0x6c, 0x6c])
  else if b = 0x74 then fun _ => Scanner.map (fun _ => bool true) (word [0x72, 0x75, 0x65])
  else if b = 0x66 then fun _ =>
    Scanner.map (fun _ => bool false) (word [0x61, 0x6c, 0x73, 0x65])
  else fun _ => give? none

theorem skipSpace_skipSpace (input : Input) : skipSpace (skipSpace input) = skipSpace input :=
  List.dropWhile_idempotent isSpace input

theorem value_skipSpace (fuel : Nat) (input : Input) :
    value fuel (skipSpace input) = value fuel input := by
  cases fuel with
  | zero => simp only [value]
  | succ fuel => simp only [value, skipSpace_skipSpace]

theorem items_skipSpace (fuel : Nat) (input : Input) :
    items fuel (skipSpace input) = items fuel input := by
  cases fuel with
  | zero => simp only [items]
  | succ fuel => simp only [items, value_skipSpace]

theorem fields_skipSpace (fuel : Nat) (input : Input) :
    fields fuel (skipSpace input) = fields fuel input := by
  cases fuel with
  | zero => simp only [fields]
  | succ fuel => simp only [fields, skipSpace_skipSpace]

theorem map_items_of_mark_eq_none {input : Input} (f : List Doc → Doc)
    (h : mark input = none) : Scanner.map f (items fuel) input = none := by
  rw [Scanner.map, ← items_skipSpace, skipSpace_of_mark_eq_none h]
  rcases fuel with _ | _ | fuel <;> rfl

theorem map_fields_of_mark_eq_none {input : Input} (f : List (Option String × Doc) → Doc)
    (h : mark input = none) : Scanner.map f (fields fuel) input = none := by
  rw [Scanner.map, ← fields_skipSpace, skipSpace_of_mark_eq_none h]
  cases fuel <;> rfl

/-- Where the mark is not the one that is looked for, there may also be none. -/
theorem lookFor_mark_of_ne {sought : UInt8} {found other : Scanner Doc} {input : Input}
    (hne : ∀ rest, skipSpace input ≠ sought :: rest)
    (hnone : mark input = none → other input = none) :
    lookFor mark sought found other input = other input := by
  unfold lookFor
  split
  next hmark => exact (hnone hmark).symm
  next b rest hmark =>
    have hb : b ≠ sought := by
      rintro rfl
      exact hne rest (skipSpace_of_mark_eq_some hmark)
    rw [if_neg hb]

theorem map_word (doc : Doc) (bytes input : Input) :
    Scanner.map (fun _ => doc) (word bytes) input = (expect bytes input).map (doc, ·) :=
  Option.map_map _ _ _

theorem value_succ (fuel : Nat) :
    value (fuel + 1) = andThen mark fun b => valueBehind b fuel := by
  funext input
  simp only [value, andThen, mark]
  cases skipSpace input with
  | nil => rfl
  | cons b rest =>
      simp only [byte, valueBehind, ite_apply]
      refine ite_congr rfl (fun _ => ?_) fun _ => ?_
      · split
        next left heq => simp only [objectBehind, lookFor, mark, heq, byte]; rfl
        next hne =>
          have hbehind : objectBehind fuel rest = Scanner.map object (fields fuel) rest :=
            lookFor_mark_of_ne hne (map_fields_of_mark_eq_none object)
          rw [fields_skipSpace, hbehind]
          rfl
      refine ite_congr rfl (fun _ => ?_) fun _ => ?_
      · split
        next left heq => simp only [listBehind, lookFor, mark, heq, byte]; rfl
        next hne =>
          have hbehind : listBehind fuel rest = Scanner.map list (items fuel) rest :=
            lookFor_mark_of_ne hne (map_items_of_mark_eq_none list)
          rw [items_skipSpace, hbehind]
          rfl
      refine ite_congr rfl (fun _ => rfl) fun _ => ?_
      refine ite_congr rfl (fun _ => rfl) fun _ => ?_
      refine ite_congr rfl (fun _ => rfl) fun _ => ?_
      refine ite_congr rfl (fun _ => (map_word _ _ _).symm) fun _ => ?_
      refine ite_congr rfl (fun _ => (map_word _ _ _).symm) fun _ => ?_
      exact ite_congr rfl (fun _ => (map_word _ _ _).symm) fun _ => rfl

/-- A value with the mark behind it. -/
def marked (fuel : Nat) : Scanner (Doc × UInt8) :=
  andThen (value fuel) fun item => Scanner.map (item, ·) mark

/-- What is read behind an item, or a field, and its mark: the others behind a comma. -/
def othersBehind (close : UInt8) (others : Nat → Scanner (List α)) (one : α) (b : UInt8)
    (fuel : Nat) : Scanner (List α) :=
  if b = 0x2c then Scanner.map (one :: ·) (others fuel)
  else give? (if b = close then some [one] else none)

theorem items_succ (fuel : Nat) :
    items (fuel + 1) = andThen (marked fuel) fun (item, b) =>
      othersBehind 0x5d items item b fuel := by
  funext input
  simp only [items, andThen, marked]
  cases value fuel input with
  | none => rfl
  | some front =>
      simp only [Option.bind_eq_bind, Option.bind_some, Scanner.map, mark]
      cases skipSpace front.2 with
      | nil => rfl
      | cons b rest =>
          simp only [byte, Option.map_some, othersBehind]
          split
          next left heq =>
            cases heq
            simp only [if_pos, Scanner.map]
            cases items fuel rest <;> rfl
          next left heq =>
            cases heq
            rfl
          next hcomma hclose =>
            have hcomma : b ≠ 0x2c := fun hb => hcomma rest (by rw [hb])
            have hclose : b ≠ 0x5d := fun hb => hclose rest (by rw [hb])
            rw [if_neg hcomma, if_neg hclose]
            rfl

/-- The name of a field, and the colon behind it. -/
def fieldName (fuel : Nat) : Scanner (Option String) :=
  andThen (exactly 0x22) fun _ => andThen (string fuel) fun name =>
    Scanner.map (fun _ => name) (exactly 0x3a)

theorem fields_succ (fuel : Nat) :
    fields (fuel + 1) = andThen (fieldName fuel) fun name => andThen (marked fuel) fun (item, b) =>
      othersBehind 0x7d fields (name, item) b fuel := by
  funext input
  simp only [fields, andThen, fieldName, exactly, word]
  rcases expect [0x22] (skipSpace input) with _ | rest
  · rfl
  simp only [Option.bind_eq_bind, Option.bind_some, Option.map_some]
  rcases string fuel rest with _ | ⟨name, rest⟩
  · rfl
  simp only [Option.bind_some, Scanner.map, exactly, word]
  rcases expect [0x3a] (skipSpace rest) with _ | rest
  · rfl
  simp only [Option.bind_some, Option.map_some, marked, andThen]
  rcases value fuel rest with _ | ⟨item, rest⟩
  · rfl
  simp only [Option.bind_some, Scanner.map, mark]
  cases skipSpace rest with
  | nil => rfl
  | cons b rest =>
      simp only [byte, Option.map_some, othersBehind]
      split
      next left heq =>
        cases heq
        simp only [if_pos, Scanner.map]
        cases fields fuel rest <;> rfl
      next left heq =>
        cases heq
        rfl
      next hcomma hclose =>
        have hcomma : b ≠ 0x2c := fun hb => hcomma rest (by rw [hb])
        have hclose : b ≠ 0x7d := fun hb => hclose rest (by rw [hb])
        rw [if_neg hcomma, if_neg hclose]
        rfl

/-! ## Where they end -/

theorem endsIn_marked (h : EndsIn SameNext rate extra value fuel) :
    EndsIn Anything rate extra marked fuel := by
  refine EndsIn.before h (fun item => endsIn_mark.map _) ?_
  intro item fuel back hback rest more
  cases back with
  | nil => cases hback
  | cons b back => rfl

theorem marked_nil (fuel : Nat) : marked fuel [] = none := by
  cases fuel <;> rfl

theorem endsIn_othersBehind (close : UInt8) {others : Nat → Scanner (List α)}
    (h : EndsIn Anything rate extra others fuel) (one : α) (b : UInt8) :
    EndsIn Anything rate extra (othersBehind close others one b) fuel := by
  unfold othersBehind
  by_cases hb : b = 0x2c
  · simp only [if_pos hb]
    exact h.map _
  · simp only [if_neg hb]
    exact .give? _

theorem fieldName_nil (fuel : Nat) : fieldName fuel [] = none := rfl

theorem endsIn_fieldName : EndsIn Anything 2 extra fieldName fuel := by
  refine (endsIn_exactly 0x22).andThen extends_anything fun _ => ?_
  refine endsIn_string.andThen extends_anything fun name => ?_
  exact (endsIn_exactly 0x3a).map _

theorem endsIn_objectBehind (h : EndsIn Anything rate extra fields fuel) :
    EndsIn Anything rate extra objectBehind fuel := by
  refine EndsIn.lookFor endsIn_mark 0x7d (.give? _) (h.map object) ?_
  exact fun _ _ => map_fields_of_mark_eq_none object

theorem endsIn_listBehind (h : EndsIn Anything rate extra items fuel) :
    EndsIn Anything rate extra listBehind fuel := by
  refine EndsIn.lookFor endsIn_mark 0x5d (.give? _) (h.map list) ?_
  exact fun _ _ => map_items_of_mark_eq_none list

mutual

/-- A value ends behind its bytes, and a number where the next byte is no part of it. The induction
is over the steps of the reader. -/
theorem endsIn_value : ∀ fuel, EndsIn SameNext 2 0 value fuel
  | 0 => by
    intro input doc rest h
    simp [value] at h
  | fuel + 1 => by
    have hbehind (b : UInt8) : EndsIn SameNext 2 1 (valueBehind b) fuel := by
      unfold valueBehind
      split_ifs
      · exact (endsIn_objectBehind (endsIn_fields fuel)).of_anything
      · exact (endsIn_listBehind (endsIn_items fuel)).of_anything
      · exact (endsIn_string.map text).of_anything
      · exact (endsIn_numeral true).map number
      · have hnumeral : EndsIn SameNext 0 0 (fun _ => numeral false) fuel := endsIn_numeral false
        have hdigit := hnumeral.uncons (b := b) fun _ _ _ => length_lt_of_numeral
        exact (hdigit.mono (by decide) (by decide)).map number
      · exact (endsIn_word _).map _
      · exact (endsIn_word _).map _
      · exact (endsIn_word _).map _
      · exact .give? _
    have hmark : EndsIn Anything 0 0 (fun _ => mark) fuel := endsIn_mark
    exact .step value_succ hmark (fun _ => rfl) hbehind (by decide) (by decide) (by decide)

theorem endsIn_items : ∀ fuel, EndsIn Anything 2 1 items fuel
  | 0 => by
    intro input docs rest h
    simp [items] at h
  | fuel + 1 => by
    have hbehind (front : Doc × UInt8) :
        EndsIn Anything 2 1 (othersBehind 0x5d items front.1 front.2) fuel :=
      endsIn_othersBehind 0x5d (endsIn_items fuel) _ _
    exact .step items_succ (endsIn_marked (endsIn_value fuel)) marked_nil hbehind
      (by decide) (by decide) (by decide)

theorem endsIn_fields : ∀ fuel, EndsIn Anything 2 1 fields fuel
  | 0 => by
    intro input docs rest h
    simp [fields] at h
  | fuel + 1 => by
    have hname : EndsIn Anything 2 0 fieldName fuel := endsIn_fieldName
    refine .step fields_succ hname fieldName_nil (fun name => ?_)
      (by decide) (by decide) (by decide : 1 < 2 + 1)
    refine EndsIn.andThen extends_anything ?_ fun front =>
      endsIn_othersBehind 0x7d (endsIn_fields fuel) (name, front.1) front.2
    exact (endsIn_marked (endsIn_value fuel)).mono (Nat.le_refl 2) (Nat.zero_le 1)

end

/-! ## Objects -/

/-- Reads a value that begins with a brace. -/
def braced : Nat → Scanner Doc := fun fuel =>
  andThen mark fun b => if b = 0x7b then objectBehind fuel else give? none

/-- The end of an object is told without a look behind it. -/
theorem endsIn_braced (fuel : Nat) : EndsIn Anything 2 1 braced fuel := by
  refine endsIn_mark.andThen extends_anything fun b => ?_
  by_cases hb : b = 0x7b
  · simp only [if_pos hb]
    exact endsIn_objectBehind (endsIn_fields fuel)
  · simp only [if_neg hb]
    exact .give? none

theorem mark_of_braced {input rest : Input} {doc : Doc} (h : braced fuel input = some (doc, rest)) :
    ∃ behind, mark input = some (0x7b, behind) := by
  obtain ⟨b, behind, hmark, h⟩ := Scanner.andThen_eq_some h
  split_ifs at h with hb
  · exact ⟨behind, hb ▸ hmark⟩
  · cases h

theorem value_of_mark {input rest : Input} (h : mark input = some (0x7b, rest)) (fuel : Nat) :
    value (fuel + 1) input = braced fuel input := by
  simp only [value_succ, braced, andThen, h, valueBehind, if_true]

theorem ofBytes?_of_mark {input rest : Input} (h : mark input = some (0x7b, rest)) :
    ofBytes? input = (braced (2 * input.length + 1) input).bind fun (doc, rest) =>
      if rest.all isSpace then some doc else none := by
  rw [ofBytes?, value_of_mark h]
  cases braced (2 * input.length + 1) input with
  | none => rfl
  | some front =>
      have hempty : (skipSpace front.2).isEmpty = front.2.all isSpace := by
        rw [Bool.eq_iff_iff, List.isEmpty_iff, skipSpace, List.dropWhile_eq_nil_iff,
          List.all_eq_true]
      simp only [hempty, Option.bind_some]

end TraceLedger.Json.Doc
