import TraceLedger.Proofs.Wire.Numbers
import Mathlib.Tactic.SplitIfs

/-! # Reading the front of an input

A scanner takes bytes off the front of its input and gives what they stand for. One that looks at no
byte behind those that it takes gives the same whatever stands there. How much fuel a scanner needs
is told by the number of bytes that it takes: so many steps for each byte, and a few more. -/

namespace TraceLedger

variable {α β : Type}

/-- Takes a value off the input, if one stands at its front. -/
abbrev Scanner (α : Type) : Type := List UInt8 → Option (α × List UInt8)

namespace Scanner

/-- Takes nothing, and gives a value if there is one. -/
def give? (a? : Option α) : Scanner α := fun input => a?.map fun a => (a, input)

/-- Takes one byte. -/
def byte : Scanner UInt8
  | [] => none
  | b :: rest => some (b, rest)

/-- Takes a value and gives another one for it. -/
def map (f : α → β) (scan : Scanner α) : Scanner β := fun input =>
  (scan input).map fun (a, rest) => (f a, rest)

/-- Takes a value and then another one. -/
def andThen (first : Scanner α) (next : α → Scanner β) : Scanner β := fun input =>
  match first input with
  | none => none
  | some (a, rest) => next a rest

/-- Looks at the mark in front. Behind the mark that is looked for goes on with `found`; what does
not begin with it is left to `other`. -/
def lookFor (mark : Scanner UInt8) (sought : UInt8) (found other : Scanner α) : Scanner α :=
  fun input =>
    match mark input with
    | none => none
    | some (b, rest) => if b = sought then found rest else other input

/-- Takes what its first byte announces. If the first byte announces nothing then nothing is
taken. -/
def optional (announced : UInt8 → Option (Scanner α)) (absent : α) : Scanner α
  | [] => some (absent, [])
  | b :: rest =>
    match announced b with
    | none => some (absent, b :: rest)
    | some scan => scan rest

theorem andThen_eq_some {first : Scanner α} {next : α → Scanner β} {input rest : List UInt8}
    {b : β} (h : andThen first next input = some (b, rest)) :
    ∃ a middle, first input = some (a, middle) ∧ next a middle = some (b, rest) := by
  unfold andThen at h
  split at h
  next => cases h
  next a middle hfirst => exact ⟨a, middle, hfirst, h⟩

theorem map_eq_some {f : α → β} {scan : Scanner α} {input rest : List UInt8} {b : β}
    (h : map f scan input = some (b, rest)) : ∃ a, scan input = some (a, rest) ∧ f a = b := by
  obtain ⟨⟨a, _⟩, ha, heq⟩ := Option.map_eq_some_iff.mp h
  cases heq
  exact ⟨a, ha, rfl⟩

end Scanner

open Scanner

/-! ## What may stand behind -/

/-- What stands behind the bytes that were taken does not matter. -/
def Anything (_ _ : List UInt8) : Prop := True

/-- The same byte stands behind the bytes that were taken. -/
def SameNext (rest more : List UInt8) : Prop := more.head? = rest.head?

/-- If two inputs are alike then they are so with the same bytes before them. -/
def Extends (like : List UInt8 → List UInt8 → Prop) : Prop :=
  ∀ bytes rest more, like rest more → like (bytes ++ rest) (bytes ++ more)

theorem extends_anything : Extends Anything := fun _ _ _ h => h

theorem extends_sameNext : Extends SameNext := by
  intro bytes rest more h
  cases bytes with
  | nil => exact h
  | cons b bytes => rfl

/-! ## The bytes that are taken -/

variable {like near : List UInt8 → List UInt8 → Prop} {rate extra steps fuel : Nat}

/-- With so many steps, the bytes stand for the value wherever what stands behind them is alike. -/
def Takes (like : List UInt8 → List UInt8 → Prop) (steps : Nat) (scan : Nat → Scanner α)
    (bytes : List UInt8) (a : α) (rest : List UInt8) : Prop :=
  ∀ fuel, steps ≤ fuel → ∀ more, like rest more → scan fuel (bytes ++ more) = some (a, more)

namespace Takes

variable {bytes rest : List UInt8} {a : α}

theorem mono {scan : Nat → Scanner α} {larger : Nat} (h : Takes like steps scan bytes a rest)
    (hle : steps ≤ larger) : Takes like larger scan bytes a rest :=
  fun fuel hfuel => h fuel (Nat.le_trans hle hfuel)

theorem map {scan : Nat → Scanner α} (h : Takes like steps scan bytes a rest) (f : α → β) :
    Takes like steps (fun fuel => Scanner.map f (scan fuel)) bytes (f a) rest := by
  intro fuel hfuel more hmore
  simp only [Scanner.map, h fuel hfuel more hmore, Option.map_some]

theorem andThen {first : Nat → Scanner α} {next : α → Nat → Scanner β} {front back : List UInt8}
    {b : β} (hfirst : Takes near steps first front a (back ++ rest))
    (hnext : Takes like steps (next a) back b rest)
    (hnear : ∀ more, like rest more → near (back ++ rest) (back ++ more)) :
    Takes like steps (fun fuel => Scanner.andThen (first fuel) fun a => next a fuel)
      (front ++ back) b rest := by
  intro fuel hfuel more hmore
  simp only [Scanner.andThen, List.append_assoc, hfirst fuel hfuel _ (hnear more hmore)]
  exact hnext fuel hfuel more hmore

/-- A scanner that spends one step before it goes on needs one more. -/
theorem succ {scan inner : Nat → Scanner α} (hscan : ∀ fuel, scan (fuel + 1) = inner fuel)
    (h : Takes like steps inner bytes a rest) : Takes like (steps + 1) scan bytes a rest := by
  intro fuel hfuel more hmore
  obtain ⟨fuel, rfl⟩ : ∃ n, fuel = n + 1 := ⟨fuel - 1, by omega⟩
  rw [hscan]
  exact h fuel (Nat.le_of_succ_le_succ hfuel) more hmore

/-- A scanner that takes nothing off an empty input takes bytes. -/
theorem ne_nil {scan : Nat → Scanner α} (h : Takes Anything steps scan bytes a rest)
    (hnil : ∀ fuel, scan fuel [] = none) : bytes ≠ [] := by
  rintro rfl
  cases (hnil steps).symm.trans (h steps (Nat.le_refl steps) [] trivial)

end Takes

/-! ## Where a scanner ends -/

/-- A scanner that succeeds takes bytes off its input, for as many steps as these bytes pay for. -/
def EndsIn (like : List UInt8 → List UInt8 → Prop) (rate extra : Nat) (scan : Nat → Scanner α)
    (fuel : Nat) : Prop :=
  ∀ input a rest, scan fuel input = some (a, rest) →
    ∃ bytes, input = bytes ++ rest ∧ Takes like (rate * bytes.length + extra) scan bytes a rest

namespace EndsIn

theorem give? (a? : Option α) : EndsIn like rate extra (fun _ => Scanner.give? a?) fuel := by
  intro input a rest h
  obtain ⟨a, rfl, heq⟩ := Option.map_eq_some_iff.mp h
  cases heq
  exact ⟨[], rfl, fun _ _ _ _ => rfl⟩

theorem byte : EndsIn like rate extra (fun _ => Scanner.byte) fuel := by
  intro input a rest h
  cases input with
  | nil => cases h
  | cons b input =>
      cases h
      exact ⟨[a], rfl, fun _ _ _ _ => rfl⟩

theorem mono {scan : Nat → Scanner α} {rate' extra' : Nat} (h : EndsIn like rate extra scan fuel)
    (hrate : rate ≤ rate') (hextra : extra ≤ extra') : EndsIn like rate' extra' scan fuel := by
  intro input a rest hscan
  obtain ⟨bytes, hinput, htakes⟩ := h input a rest hscan
  exact ⟨bytes, hinput, htakes.mono (Nat.add_le_add (Nat.mul_le_mul_right _ hrate) hextra)⟩

theorem of_anything {scan : Nat → Scanner α} (h : EndsIn Anything rate extra scan fuel) :
    EndsIn like rate extra scan fuel := by
  intro input a rest hscan
  obtain ⟨bytes, hinput, htakes⟩ := h input a rest hscan
  exact ⟨bytes, hinput, fun fuel hfuel more _ => htakes fuel hfuel more trivial⟩

theorem map {scan : Nat → Scanner α} (h : EndsIn like rate extra scan fuel) (f : α → β) :
    EndsIn like rate extra (fun fuel => Scanner.map f (scan fuel)) fuel := by
  intro input b rest hscan
  obtain ⟨a, ha, rfl⟩ := map_eq_some hscan
  obtain ⟨bytes, hinput, htakes⟩ := h _ _ _ ha
  exact ⟨bytes, hinput, htakes.map f⟩

theorem andThen (hlike : Extends like) {first : Nat → Scanner α} {next : α → Nat → Scanner β}
    (hfirst : EndsIn like rate extra first fuel)
    (hnext : ∀ a, EndsIn like rate extra (next a) fuel) :
    EndsIn like rate extra (fun fuel => Scanner.andThen (first fuel) fun a => next a fuel)
      fuel := by
  intro input b rest hscan
  obtain ⟨a, middle, ha, hb⟩ := andThen_eq_some hscan
  obtain ⟨front, rfl, hfront⟩ := hfirst _ _ _ ha
  obtain ⟨back, rfl, hback⟩ := hnext a _ _ _ hb
  refine ⟨front ++ back, (List.append_assoc _ _ _).symm, ?_⟩
  rw [List.length_append, Nat.mul_add]
  exact (hfront.mono (by omega)).andThen (hback.mono (by omega)) (hlike back rest)

/-- A scanner that looks behind what it takes looks no further than another one that stands behind
it and takes what was looked at. -/
theorem before {first : Nat → Scanner α} {next : α → Nat → Scanner β}
    (hfirst : EndsIn near rate extra first fuel)
    (hnext : ∀ a, EndsIn Anything rate extra (next a) fuel)
    (hnear : ∀ a fuel back, (next a fuel back).isSome →
      ∀ rest more, near (back ++ rest) (back ++ more)) :
    EndsIn Anything rate extra (fun fuel => Scanner.andThen (first fuel) fun a => next a fuel)
      fuel := by
  intro input b rest hscan
  obtain ⟨a, middle, ha, hb⟩ := andThen_eq_some hscan
  obtain ⟨front, rfl, hfront⟩ := hfirst _ _ _ ha
  obtain ⟨back, rfl, hback⟩ := hnext a _ _ _ hb
  have hsome := hback _ (Nat.le_refl _) [] trivial
  rw [List.append_nil] at hsome
  refine ⟨front ++ back, (List.append_assoc _ _ _).symm, ?_⟩
  rw [List.length_append, Nat.mul_add]
  refine (hfront.mono (by omega)).andThen (hback.mono (by omega)) fun more _ => ?_
  exact hnear a _ back (by rw [hsome]; rfl) rest more

/-- One step of a recursion. The bytes that it takes before it goes on pay for the step. -/
theorem step {scan : Nat → Scanner β} {first : Nat → Scanner α} {next : α → Nat → Scanner β}
    (hscan : ∀ fuel, scan (fuel + 1) = Scanner.andThen (first fuel) fun a => next a fuel)
    {rate' extra' inner : Nat} (hfirst : EndsIn Anything rate' extra' first fuel)
    (hnil : ∀ fuel, first fuel [] = none) (hnext : ∀ a, EndsIn like rate inner (next a) fuel)
    (hrate : rate' ≤ rate) (hextra : rate' + extra' < rate + extra)
    (hinner : inner < rate + extra) :
    EndsIn like rate extra scan (fuel + 1) := by
  intro input b rest h
  rw [hscan] at h
  obtain ⟨a, middle, ha, hb⟩ := andThen_eq_some h
  obtain ⟨front, rfl, hfront⟩ := hfirst _ _ _ ha
  obtain ⟨back, rfl, hback⟩ := hnext a _ _ _ hb
  obtain ⟨n, hn⟩ := Nat.exists_eq_succ_of_ne_zero
    (mt List.length_eq_zero_iff.mp (hfront.ne_nil hnil))
  have hmul : rate' * n ≤ rate * n := Nat.mul_le_mul_right n hrate
  rw [hn, Nat.mul_succ] at hfront
  refine ⟨front ++ back, (List.append_assoc _ _ _).symm, ?_⟩
  rw [List.length_append, hn, Nat.mul_add, Nat.mul_succ]
  have hinside : Takes like (rate * n + rate * back.length + rate + extra - 1)
      (fun fuel => Scanner.andThen (first fuel) fun a => next a fuel) (front ++ back) b rest :=
    (hfront.mono (by omega)).andThen (hback.mono (by omega)) fun _ _ => trivial
  exact (Takes.succ hscan hinside).mono (by omega)

theorem lookFor {mark : Scanner UInt8} {found other : Nat → Scanner α}
    (hmark : EndsIn Anything rate extra (fun _ => mark) fuel) (sought : UInt8)
    (hfound : EndsIn Anything rate extra found fuel)
    (hother : EndsIn Anything rate extra other fuel)
    (hnone : ∀ fuel input, mark input = none → other fuel input = none) :
    EndsIn Anything rate extra
      (fun fuel => Scanner.lookFor mark sought (found fuel) (other fuel)) fuel := by
  intro input a rest h
  simp only [Scanner.lookFor] at h
  split at h
  next => cases h
  next b behind hb =>
    split_ifs at h with hsought
    · obtain ⟨front, rfl, hfront⟩ := hmark _ _ _ hb
      obtain ⟨back, rfl, hback⟩ := hfound _ _ _ h
      refine ⟨front ++ back, (List.append_assoc _ _ _).symm, ?_⟩
      intro fuel hfuel more hmore
      rw [List.length_append, Nat.mul_add] at hfuel
      simp only [Scanner.lookFor, List.append_assoc, hfront fuel (by omega) _ trivial,
        if_pos hsought]
      exact hback fuel (by omega) more trivial
    · obtain ⟨bytes, rfl, htakes⟩ := hother _ _ _ h
      refine ⟨bytes, rfl, ?_⟩
      -- The mark stands in the bytes that the other scanner takes.
      cases hown : mark bytes with
      | none =>
          have hsome := htakes _ (Nat.le_refl _) [] trivial
          rw [List.append_nil] at hsome
          cases (hnone _ _ hown).symm.trans hsome
      | some result =>
          obtain ⟨c, left⟩ := result
          obtain ⟨front, rfl, hfront⟩ := hmark _ _ _ hown
          have hmark (more : List UInt8) := hfront _ (Nat.le_refl _) (left ++ more) trivial
          rw [List.append_assoc] at hb
          cases hb.symm.trans (hmark rest)
          intro fuel hfuel more hmore
          have hmore := htakes fuel hfuel more trivial
          rw [List.append_assoc] at hmore
          simp only [Scanner.lookFor, List.append_assoc, hmark more, if_neg hsought]
          exact hmore

theorem optional {announced : UInt8 → Option (Scanner α)} {absent : α}
    (h : ∀ b scan, announced b = some scan → EndsIn SameNext rate extra (fun _ => scan) fuel) :
    EndsIn SameNext rate extra (fun _ => Scanner.optional announced absent) fuel := by
  intro input a rest hscan
  cases input with
  | nil =>
      cases hscan
      refine ⟨[], rfl, fun _ _ more hmore => ?_⟩
      rw [List.head?_eq_none_iff.mp hmore]
      rfl
  | cons b input =>
      simp only [Scanner.optional] at hscan
      split at hscan
      next hnone =>
        cases hscan
        refine ⟨[], rfl, fun _ _ more hmore => ?_⟩
        obtain ⟨more, rfl⟩ := List.head?_eq_some_iff.mp hmore
        simp only [Scanner.optional, List.nil_append, hnone]
      next scan hsome =>
        obtain ⟨bytes, rfl, htakes⟩ := h b scan hsome _ _ _ hscan
        refine ⟨b :: bytes, rfl, fun fuel hfuel more hmore => ?_⟩
        rw [List.length_cons, Nat.mul_succ] at hfuel
        simp only [Scanner.optional, List.cons_append, hsome]
        exact htakes fuel (by omega) more hmore

/-- A scanner that takes bytes may have its first one stand before its input. -/
theorem uncons {scan : Nat → Scanner α} (h : EndsIn like rate extra scan fuel) {b : UInt8}
    (hshorter : ∀ input a rest, scan fuel input = some (a, rest) → rest.length < input.length) :
    EndsIn like rate (rate + extra) (fun fuel input => scan fuel (b :: input)) fuel := by
  intro input a rest hscan
  have hlt := hshorter _ _ _ hscan
  obtain ⟨bytes, hinput, htakes⟩ := h _ _ _ hscan
  cases bytes with
  | nil =>
      rw [hinput] at hlt
      exact (Nat.lt_irrefl _ hlt).elim
  | cons c bytes =>
      obtain ⟨rfl, rfl⟩ := List.cons.inj hinput
      refine ⟨bytes, rfl, fun fuel hfuel => htakes fuel ?_⟩
      rw [List.length_cons, Nat.mul_succ]
      omega

/-- A part of the bytes that a scanner takes is not enough for it. -/
theorem eq_none_of_part {scan : Nat → Scanner α} (h : ∀ fuel, EndsIn Anything rate extra scan fuel)
    {bytes part rest : List UInt8} {a : α} (htakes : Takes Anything steps scan bytes a rest)
    (hpart : part <+: bytes) (hne : part ≠ bytes) (fuel : Nat) : scan fuel part = none := by
  rw [Option.eq_none_iff_forall_ne_some]
  rintro ⟨b, left⟩ hscan
  obtain ⟨cut, rfl⟩ := hpart
  obtain ⟨front, rfl, hfront⟩ := h fuel _ _ _ hscan
  have hwhole := htakes (max steps (rate * front.length + extra)) (Nat.le_max_left _ _) [] trivial
  have hshort := hfront _ (Nat.le_max_right steps _) (left ++ cut) trivial
  rw [List.append_nil, List.append_assoc, hshort] at hwhole
  obtain ⟨-, hnil⟩ := List.append_eq_nil_iff.mp (Prod.ext_iff.mp (Option.some.inj hwhole)).2
  rw [hnil, List.append_nil] at hne
  exact hne rfl

end EndsIn

theorem endsIn_take? (n : Nat) : EndsIn like rate extra (fun _ => Octets.take? n) fuel := by
  intro input bytes rest h
  simp only [Octets.take?] at h
  split at h
  next hlength =>
    cases h
    refine ⟨_, (List.take_append_drop n input).symm, fun _ _ more _ => ?_⟩
    have htake := Octets.take?_append (input.take n) more
    rwa [hlength] at htake
  next => cases h

end TraceLedger
