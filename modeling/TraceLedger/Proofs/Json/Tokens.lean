import Mathlib.Data.List.TakeWhile
import Mathlib.Logic.Basic
import TraceLedger.Json.Doc
import TraceLedger.Proofs.Wire.Fronts

/-! # Where the tokens of JSON end

A word, a mark and a text end with their last byte, and no byte behind it is looked at. A number
goes on until the byte behind it is no part of one. -/

namespace TraceLedger.Json.Doc

open Scanner (give? byte andThen)

variable {like : Input → Input → Prop} {rate extra fuel : Nat}

/-! ## Marks and words -/

/-- Takes the next byte that is no space. -/
def mark : Scanner UInt8 := fun input => byte (skipSpace input)

theorem skipSpace_of_mark_eq_none {input : Input} (h : mark input = none) :
    skipSpace input = [] := by
  cases hskip : skipSpace input with
  | nil => rfl
  | cons b rest =>
      rw [mark, hskip] at h
      cases h

theorem skipSpace_of_mark_eq_some {input rest : Input} {b : UInt8}
    (h : mark input = some (b, rest)) : skipSpace input = b :: rest := by
  cases hskip : skipSpace input with
  | nil =>
      rw [mark, hskip] at h
      cases h
  | cons c left =>
      rw [mark, hskip] at h
      cases h
      rfl

theorem mark_eq_some {input rest : Input} {b : UInt8} (h : mark input = some (b, rest)) :
    ∃ spaces, (∀ s ∈ spaces, isSpace s) ∧ isSpace b = false ∧ input = spaces ++ b :: rest := by
  have hskip : input.dropWhile isSpace = b :: rest := skipSpace_of_mark_eq_some h
  have hnot := List.head?_dropWhile_not isSpace input
  rw [hskip] at hnot
  refine ⟨input.takeWhile isSpace, fun s => List.mem_takeWhile_imp, by simpa using hnot, ?_⟩
  rw [← hskip, List.takeWhile_append_dropWhile]

theorem mark_append {spaces : Input} (hspaces : ∀ s ∈ spaces, isSpace s) {b : UInt8}
    (h : isSpace b = false) (rest : Input) : mark (spaces ++ b :: rest) = some (b, rest) := by
  rw [mark, skipSpace, List.dropWhile_append_of_pos hspaces,
    List.dropWhile_cons_of_neg (by simp [h])]
  rfl

theorem endsIn_mark : EndsIn like rate extra (fun _ => mark) fuel := by
  intro input b rest h
  obtain ⟨spaces, hspaces, hb, rfl⟩ := mark_eq_some h
  refine ⟨spaces ++ [b], by simp, fun _ _ more _ => ?_⟩
  rw [List.append_assoc]
  exact mark_append hspaces hb more

theorem eq_append_of_expect {bytes input rest : Input} (h : expect bytes input = some rest) :
    input = bytes ++ rest := by
  unfold expect at h
  split at h
  next htake =>
    cases h
    have hsplit := List.take_append_drop bytes.length input
    rw [htake] at hsplit
    exact hsplit.symm
  next => cases h

theorem expect_append (bytes rest : Input) : expect bytes (bytes ++ rest) = some rest := by
  simp [expect]

/-- Takes a fixed word. -/
def word (bytes : List UInt8) : Scanner Unit := fun input =>
  (expect bytes input).map fun rest => ((), rest)

theorem endsIn_word (bytes : List UInt8) : EndsIn like rate extra (fun _ => word bytes) fuel := by
  intro input a rest h
  obtain ⟨left, hleft, heq⟩ := Option.map_eq_some_iff.mp h
  cases heq
  refine ⟨bytes, eq_append_of_expect hleft, fun _ _ more _ => ?_⟩
  simp only [word, expect_append, Option.map_some]

/-- Takes a given mark. -/
def exactly (b : UInt8) : Scanner Unit := fun input => word [b] (skipSpace input)

theorem endsIn_exactly (b : UInt8) : EndsIn like rate extra (fun _ => exactly b) fuel := by
  have heq : exactly b = andThen mark fun c => give? (if c = b then some () else none) := by
    funext input
    simp only [exactly, word, expect, andThen, mark]
    cases skipSpace input with
    | nil => rfl
    | cons c rest =>
        simp only [byte, List.length_singleton, List.take_succ_cons, List.take_zero,
          List.cons.injEq, and_true, List.drop_succ_cons, List.drop_zero]
        split <;> rfl
  rw [heq]
  have hany : EndsIn Anything rate extra
      (fun _ => andThen mark fun c => give? (if c = b then some () else none)) fuel :=
    endsIn_mark.andThen extends_anything fun _ => .give? _
  exact hany.of_anything

/-! ## Numbers -/

theorem digits_append_of_isDigit {front more : Input} (hfront : ∀ b ∈ front, isDigit b)
    (hmore : ∀ b ∈ more.head?, isDigit b = false) :
    digits (front ++ more) = (front.map fun b => b.toNat - 0x30, more) := by
  have hnone : more.takeWhile isDigit = [] ∧ more.dropWhile isDigit = more := by
    cases more with
    | nil => exact ⟨rfl, rfl⟩
    | cons b more =>
        have hb := hmore b rfl
        exact ⟨List.takeWhile_cons_of_neg (by simp [hb]), List.dropWhile_cons_of_neg (by simp [hb])⟩
  rw [digits, List.takeWhile_append_of_pos hfront, List.dropWhile_append_of_pos hfront, hnone.1,
    hnone.2, List.append_nil]

theorem endsIn_digits : EndsIn SameNext rate extra (fun _ input => some (digits input)) fuel := by
  intro input ds rest h
  cases Option.some.inj h
  refine ⟨input.takeWhile isDigit, List.takeWhile_append_dropWhile.symm, fun _ _ more hmore => ?_⟩
  refine congrArg some (digits_append_of_isDigit (fun _ => List.mem_takeWhile_imp) ?_)
  have hnot := List.head?_dropWhile_not isDigit input
  intro b hb
  rw [hmore.symm.trans hb] at hnot
  simpa using hnot

theorem endsIn_someDigits : EndsIn SameNext rate extra (fun _ => someDigits) fuel := by
  have heq : someDigits = andThen (fun input => some (digits input)) fun ds =>
      give? (if ds = [] then none else some ds) := by
    funext input
    simp only [someDigits, andThen]
    rcases digits input with ⟨_ | ⟨d, ds⟩, rest⟩ <;> rfl
  rw [heq]
  exact endsIn_digits.andThen extends_sameNext fun _ => .give? _

theorem length_lt_of_someDigits {input rest : Input} {ds : List Nat}
    (h : someDigits input = some (ds, rest)) : rest.length < input.length := by
  have hdigits : digits input = (ds, rest) ∧ ds ≠ [] := by
    unfold someDigits at h
    split at h
    next => cases h
    next hne =>
      have heq := Option.some.inj h
      exact ⟨heq, fun hnil => hne rest (by rw [heq, hnil])⟩
  obtain ⟨hdigits, hne⟩ := hdigits
  cases hdigits
  have hsplit := congrArg List.length (List.takeWhile_append_dropWhile (p := isDigit) (l := input))
  have hpos := List.length_pos_iff.mpr (mt List.map_eq_nil_iff.mpr hne)
  rw [List.length_append] at hsplit
  omega

theorem endsIn_whole : EndsIn SameNext rate extra (fun _ => whole) fuel := by
  have heq : whole = andThen someDigits fun ds =>
      give? (if ds.head? = some 0 ∧ ds.tail ≠ [] then none else some ds) := by
    funext input
    unfold whole andThen
    cases hdigits : someDigits input with
    | none => rfl
    | some front =>
        obtain ⟨ds, rest⟩ := front
        rcases ds with _ | ⟨d, _ | ⟨e, ds⟩⟩
        · rfl
        · simp [give?]
        · by_cases hd : d = 0
          · subst hd
            rfl
          · simp [give?, hd]
  rw [heq]
  exact endsIn_someDigits.andThen extends_sameNext fun _ => .give? _

theorem endsIn_fraction : EndsIn SameNext rate extra (fun _ => fraction) fuel := by
  have heq : fraction = Scanner.optional (fun b =>
      if b = 0x2e then some someDigits else none) [] := by
    funext input
    unfold fraction
    split
    next => rfl
    next hne =>
      cases input with
      | nil => rfl
      | cons b rest =>
          have hb : b ≠ 0x2e := fun hb => hne rest (by rw [hb])
          simp only [Scanner.optional, if_neg hb]
  rw [heq]
  refine .optional fun b scan hscan => ?_
  split_ifs at hscan
  cases hscan
  exact endsIn_someDigits

theorem endsIn_exponentSign :
    EndsIn SameNext rate extra (fun _ input => some (exponentSign input)) fuel := by
  have heq : (fun input => some (exponentSign input)) = Scanner.optional (fun b =>
      if b = 0x2b then some (give? (some false))
      else if b = 0x2d then some (give? (some true))
      else none) false := by
    funext input
    unfold exponentSign
    split
    next => rfl
    next => rfl
    next hplus hminus =>
      cases input with
      | nil => rfl
      | cons b rest =>
          have hplus : b ≠ 0x2b := fun hb => hplus rest (by rw [hb])
          have hminus : b ≠ 0x2d := fun hb => hminus rest (by rw [hb])
          simp only [Scanner.optional, if_neg hplus, if_neg hminus]
  rw [heq]
  refine .optional fun b scan hscan => ?_
  split_ifs at hscan <;> cases hscan <;> exact .give? _

/-- What is read behind the letter of an exponent. -/
def exponentBehind : Scanner (Option (Bool × List Nat)) :=
  andThen (fun input => some (exponentSign input)) fun negative =>
    Scanner.map (fun digits => some (negative, digits)) someDigits

theorem endsIn_exponent : EndsIn SameNext rate extra (fun _ => exponent) fuel := by
  have heq : exponent = Scanner.optional (fun b =>
      if b = 0x65 ∨ b = 0x45 then some exponentBehind else none) none := by
    funext input
    cases input with
    | nil => rfl
    | cons b rest =>
        by_cases hb : b = 0x65 ∨ b = 0x45
        · simp only [exponent, Scanner.optional, if_pos hb, exponentBehind, andThen, Scanner.map]
          cases someDigits (exponentSign rest).2 <;> rfl
        · simp only [exponent, Scanner.optional, if_neg hb]
  rw [heq]
  refine .optional fun b scan hscan => ?_
  split_ifs at hscan
  cases hscan
  exact endsIn_exponentSign.andThen extends_sameNext fun _ => endsIn_someDigits.map _

theorem numeral_eq (negative : Bool) : numeral negative =
    andThen whole fun whole => andThen fraction fun fraction =>
      Scanner.map (fun exponent => ⟨negative, whole, fraction, exponent⟩) exponent := by
  funext input
  simp only [numeral, andThen]
  cases whole input with
  | none => rfl
  | some front =>
      simp only [Option.bind_eq_bind, Option.bind_some]
      cases fraction front.2 with
      | none => rfl
      | some middle =>
          simp only [Option.bind_some, Scanner.map]
          cases exponent middle.2 <;> rfl

theorem endsIn_numeral (negative : Bool) :
    EndsIn SameNext rate extra (fun _ => numeral negative) fuel := by
  rw [numeral_eq]
  refine endsIn_whole.andThen extends_sameNext fun _ => ?_
  refine endsIn_fraction.andThen extends_sameNext fun _ => ?_
  exact endsIn_exponent.map _

theorem length_lt_of_numeral {negative : Bool} {input rest : Input} {n : Numeral}
    (h : numeral negative input = some (n, rest)) : rest.length < input.length := by
  rw [numeral_eq] at h
  obtain ⟨whole, behind, hwhole, h⟩ := Scanner.andThen_eq_some h
  obtain ⟨fraction, behind', hfraction, h⟩ := Scanner.andThen_eq_some h
  obtain ⟨exponent, hexponent, -⟩ := Scanner.map_eq_some h
  have hlt : behind.length < input.length := by
    unfold Doc.whole at hwhole
    split at hwhole
    next => cases hwhole
    next => exact length_lt_of_someDigits hwhole
  have hendsFraction : EndsIn SameNext 0 0 (fun _ => Doc.fraction) 0 := endsIn_fraction
  have hendsExponent : EndsIn SameNext 0 0 (fun _ => Doc.exponent) 0 := endsIn_exponent
  obtain ⟨front, rfl, -⟩ := hendsFraction _ _ _ hfraction
  obtain ⟨back, rfl, -⟩ := hendsExponent _ _ _ hexponent
  simp only [List.length_append] at hlt
  omega

/-! ## Texts -/

/-- The same bytes up to a quote stand behind the bytes that were taken. -/
def SameText (rest more : Input) : Prop :=
  ∃ front left right, rest = front ++ 0x22 :: left ∧ more = front ++ 0x22 :: right

theorem extends_sameText : Extends SameText := by
  rintro bytes _ _ ⟨front, left, right, rfl, rfl⟩
  exact ⟨bytes ++ front, left, right, by simp, by simp⟩

/-- Four hexadecimal digits, none of which is a quote. -/
theorem hex4_eq_some {input rest : Input} {code : Nat} (h : hex4 input = some (code, rest)) :
    ∃ front, input = front ++ rest ∧ 0x22 ∉ front ∧
      ∀ more, hex4 (front ++ more) = some (code, more) := by
  unfold hex4 at h
  split at h
  next a b c d left =>
    obtain ⟨digits, hdigits, heq⟩ := Option.bind_eq_some_iff.mp h
    cases heq
    refine ⟨[a, b, c, d], rfl, ?_, fun more => ?_⟩
    · have hquote : Hex.value? (Char.ofNat 0x22) = none := by decide
      intro hmem
      simp only [List.mem_cons, List.not_mem_nil, or_false] at hmem
      rcases hmem with rfl | rfl | rfl | rfl <;> simp [List.mapM_cons, hquote] at hdigits
    · simp only [hex4, List.cons_append, List.nil_append, hdigits]
      rfl
  next => cases h

theorem secondHalf_eq_some {input rest : Input} {code : Nat}
    (h : secondHalf input = some (code, rest)) :
    ∃ front, input = front ++ rest ∧ 0x22 ∉ front ∧
      ∀ more, secondHalf (front ++ more) = some (code, more) := by
  unfold secondHalf at h
  obtain ⟨left, hleft, h⟩ := Option.bind_eq_some_iff.mp h
  obtain ⟨⟨code, behind⟩, hhex, h⟩ := Option.bind_eq_some_iff.mp h
  simp only at h
  split_ifs at h with hrange
  cases h
  obtain ⟨front, rfl, hquote, hmore⟩ := hex4_eq_some hhex
  refine ⟨[0x5c, 0x75] ++ front, ?_, by simp [hquote], fun more => ?_⟩
  · rw [eq_append_of_expect hleft, List.append_assoc]
  · rw [secondHalf, List.append_assoc, expect_append]
    simp only [Option.bind_eq_bind, Option.bind_some, hmore more, if_pos hrange]

/-- Whether the second half of a pair stands here is told by what stands before the quote. -/
theorem secondHalf_eq_none_of_sameText {rest more : Input} (hsame : SameText rest more)
    (h : secondHalf rest = none) : secondHalf more = none := by
  obtain ⟨text, left, right, rfl, rfl⟩ := hsame
  rw [Option.eq_none_iff_forall_ne_some]
  rintro ⟨code, behind⟩ hcode
  obtain ⟨front, hfront, hquote, hmore⟩ := secondHalf_eq_some hcode
  rcases List.append_eq_append_iff.mp hfront with ⟨beyond, hbeyond, hbehind⟩ | ⟨beyond, rfl, -⟩
  · cases beyond with
    | nil =>
        rw [List.append_nil] at hbeyond
        cases h.symm.trans (hbeyond ▸ hmore _)
    | cons b beyond =>
        obtain ⟨rfl, -⟩ := List.cons.inj hbehind
        exact hquote (by simp [hbeyond])
  · rw [List.append_assoc] at h
    cases h.symm.trans (hmore _)

/-- The character of a pair, or half a pair where the second half is missing. -/
def pairBehind (code : Nat) : Scanner (List UInt8) := fun input =>
  match secondHalf input with
  | some (second, rest) =>
    some (charBytes (0x10000 + 0x400 * (code - 0xd800) + (second - 0xdc00)), rest)
  | none => some (halfBytes code, input)

theorem endsIn_pairBehind (code : Nat) :
    EndsIn SameText rate extra (fun _ => pairBehind code) fuel := by
  intro input bytes rest h
  simp only [pairBehind] at h
  split at h
  next second left hsecond =>
    obtain ⟨rfl, rfl⟩ := Prod.mk.inj (Option.some.inj h)
    obtain ⟨front, rfl, -, hmore⟩ := secondHalf_eq_some hsecond
    refine ⟨front, rfl, fun _ _ more _ => ?_⟩
    simp only [pairBehind, hmore]
  next hnone =>
    cases h
    refine ⟨[], rfl, fun _ _ more hsame => ?_⟩
    simp only [pairBehind, List.nil_append, secondHalf_eq_none_of_sameText hsame hnone]

theorem endsIn_hex4 : EndsIn like rate extra (fun _ => hex4) fuel := by
  intro input code rest h
  obtain ⟨front, hinput, -, hmore⟩ := hex4_eq_some h
  exact ⟨front, hinput, fun _ _ more _ => hmore more⟩

theorem endsIn_unicodeEscape : EndsIn SameText rate extra (fun _ => unicodeEscape) fuel := by
  have heq : unicodeEscape = andThen hex4 fun code =>
      if 0xdc00 ≤ code ∧ code ≤ 0xdfff then give? (some (halfBytes code))
      else if 0xd800 ≤ code ∧ code ≤ 0xdbff then pairBehind code
      else give? (some (charBytes code)) := by
    funext input
    simp only [unicodeEscape, andThen, ite_apply]
    cases hex4 input with
    | none => rfl
    | some front =>
        simp only [Option.bind_eq_bind, Option.bind_some]
        refine ite_congr rfl (fun _ => rfl) fun _ => ?_
        exact ite_congr rfl (fun _ => rfl) fun _ => rfl
  rw [heq]
  refine endsIn_hex4.andThen extends_sameText fun code => ?_
  split_ifs
  · exact .give? _
  · exact endsIn_pairBehind code
  · exact .give? _

/-- What is read behind the first byte of an escape. -/
def escapeBehind (b : UInt8) : Scanner (List UInt8) :=
  if b = 0x22 ∨ b = 0x5c ∨ b = 0x2f then give? (some [b])
  else if b = 0x62 then give? (some [0x08])
  else if b = 0x66 then give? (some [0x0c])
  else if b = 0x6e then give? (some [0x0a])
  else if b = 0x72 then give? (some [0x0d])
  else if b = 0x74 then give? (some [0x09])
  else if b = 0x75 then unicodeEscape
  else give? none

theorem endsIn_escape : EndsIn SameText rate extra (fun _ => escape) fuel := by
  have heq : escape = andThen byte escapeBehind := by
    funext input
    cases input with
    | nil => rfl
    | cons b rest =>
        simp only [escape, andThen, byte, escapeBehind, ite_apply]
        rfl
  rw [heq]
  refine EndsIn.byte.andThen extends_sameText fun b => ?_
  unfold escapeBehind
  split_ifs
  iterate 6 exact .give? _
  · exact endsIn_unicodeEscape
  · exact .give? _

/-- What is read behind one more byte of a text. -/
def textBehind (done : List UInt8) (b : UInt8) : Nat → Scanner (List UInt8) :=
  if b = 0x22 then fun _ => give? (some done.reverse)
  else if b = 0x5c then fun fuel =>
    andThen escape fun bytes => textBytes fuel (bytes.reverse ++ done)
  else if b < 0x20 then fun _ => give? none
  else fun fuel => textBytes fuel (b :: done)

theorem textBytes_succ (fuel : Nat) (done : List UInt8) :
    textBytes (fuel + 1) done = andThen byte fun b => textBehind done b fuel := by
  funext input
  cases input with
  | nil => rfl
  | cons b rest =>
      simp only [textBytes, andThen, byte, textBehind, ite_apply]
      refine ite_congr rfl (fun _ => rfl) fun _ => ?_
      refine ite_congr rfl (fun _ => ?_) fun _ => rfl
      cases escape rest <;> rfl

/-- The bytes of a text end with a quote. -/
theorem quote_mem_of_textBytes {done input : Input} (h : (textBytes fuel done input).isSome) :
    0x22 ∈ input := by
  induction fuel generalizing done input with
  | zero => cases h
  | succ fuel ih =>
      cases input with
      | nil => cases h
      | cons b rest =>
          rw [textBytes_succ, andThen, byte] at h
          simp only [textBehind, ite_apply] at h
          split_ifs at h with hquote hescape
          · exact List.mem_cons.mpr (.inl hquote.symm)
          · unfold andThen at h
            split at h
            next => cases h
            next bytes left heq =>
              have hends : EndsIn SameText 0 0 (fun _ => escape) 0 := endsIn_escape
              obtain ⟨front, rfl, -⟩ := hends _ _ _ heq
              exact List.mem_cons_of_mem _ (List.mem_append_right _ (ih h))
          · cases h
          · exact List.mem_cons_of_mem _ (ih h)

theorem endsIn_textBytes (done : List UInt8) :
    EndsIn Anything 1 0 (fun fuel => textBytes fuel done) fuel := by
  induction fuel generalizing done with
  | zero =>
      intro input bytes rest h
      cases h
  | succ fuel ih =>
      have hbehind (b : UInt8) : EndsIn Anything 1 0 (textBehind done b) fuel := by
        unfold textBehind
        split_ifs
        · exact .give? _
        · refine EndsIn.before endsIn_escape (fun bytes => ih (bytes.reverse ++ done)) ?_
          intro bytes fuel back hback rest more
          obtain ⟨front, behind, rfl⟩ := List.append_of_mem (quote_mem_of_textBytes hback)
          exact ⟨front, behind ++ rest, behind ++ more, by simp, by simp⟩
        · exact .give? _
        · exact ih (b :: done)
      have hbyte : EndsIn Anything 0 0 (fun _ => byte) fuel := .byte
      exact .step (fun fuel => textBytes_succ fuel done) hbyte (fun _ => rfl) hbehind
        (by decide) (by decide) (by decide)

theorem endsIn_string : EndsIn Anything 2 extra string fuel := by
  have heq : string = fun fuel => Scanner.map Utf8.decode? (textBytes fuel []) := by
    funext fuel input
    simp only [string, Scanner.map]
    cases textBytes fuel [] input <;> rfl
  rw [heq]
  exact ((endsIn_textBytes []).mono (by decide) (Nat.zero_le extra)).map _

end TraceLedger.Json.Doc
