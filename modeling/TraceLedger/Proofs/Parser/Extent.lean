import TraceLedger.Json.Printer
import TraceLedger.Parser.Envelope
import TraceLedger.Proofs.Cbor.Extent
import TraceLedger.Proofs.Json.Extent

/-! # How much of a payload is read

The value of a payload ends where the shortest payload ends that is read the same. A payload that
ends before is refused. What stands behind the value is looked at in JSON only. -/

namespace TraceLedger

open Json (Doc)

namespace PayloadFormat

theorem isBlank_of_isSpace {b : UInt8} (h : Doc.isSpace b) : isBlank b := by
  simp only [Doc.isSpace, isBlank, Bool.or_eq_true, decide_eq_true_eq] at h ⊢
  tauto

theorem detect_cons {b : UInt8} (h : isBlank b = false) (rest : List UInt8) :
    detect (b :: rest) = if b = 0x7b then json else cbor := by
  rw [detect, List.dropWhile_cons_of_neg (by simp [h])]
  split
  next heq =>
    cases heq
    rfl
  next hne => rw [if_neg fun hb => hne rest (by rw [hb])]

theorem detect_append {blanks : List UInt8} (h : ∀ b ∈ blanks, isBlank b) (rest : List UInt8) :
    detect (blanks ++ rest) = detect rest := by
  rw [detect, List.dropWhile_append_of_pos h, ← detect]

/-- A payload that opens an object is JSON. -/
theorem detect_of_mark {payload rest : List UInt8} (h : Doc.mark payload = some (0x7b, rest)) :
    detect payload = json := by
  obtain ⟨spaces, hspaces, -, rfl⟩ := Doc.mark_eq_some h
  rw [detect_append fun b hb => isBlank_of_isSpace (hspaces b hb)]
  rfl

/-- A JSON payload that holds a value opens an object. -/
theorem exists_mark_of_detect {payload : List UInt8} (hformat : detect payload = json) {doc : Doc}
    (h : Doc.ofBytes? payload = some doc) : ∃ rest, Doc.mark payload = some (0x7b, rest) := by
  unfold Doc.ofBytes? at h
  split at h
  next value left hvalue =>
    rw [Doc.value_succ] at hvalue
    obtain ⟨b, rest, hmark, hbehind⟩ := Scanner.andThen_eq_some hvalue
    refine ⟨rest, ?_⟩
    obtain ⟨spaces, hspaces, hspace, rfl⟩ := Doc.mark_eq_some hmark
    rw [detect_append fun b hb => isBlank_of_isSpace (hspaces b hb)] at hformat
    cases hblank : isBlank b with
    | true =>
        -- Of the blanks only the form feed is no space, and no value begins with it.
        have hfeed : b = 0x0c := by
          simp only [isBlank, Doc.isSpace, Bool.or_eq_true, Bool.or_eq_false_iff, decide_eq_true_eq,
            decide_eq_false_iff_not] at hblank hspace
          tauto
        rw [hfeed] at hbehind
        cases hbehind
    | false =>
        rw [detect_cons hblank] at hformat
        split_ifs at hformat with hb
        exact hb ▸ hmark
  next => cases h

end PayloadFormat

namespace StateOutput

open PayloadFormat (detect isBlank)

theorem ofPayload_of_json {payload : List UInt8} (h : detect payload = .json) :
    ofPayload payload =
      match (Doc.ofBytes? payload).bind Doc.read? with
      | some output => .ok output
      | none => .error (.envelope .json) := by
  have hne : payload.isEmpty = false := by
    cases payload with
    | nil => cases h
    | cons b rest => rfl
  cases hread : ((Doc.ofBytes? payload).bind Doc.read? : Option StateOutput) <;>
    simp only [ofPayload, h, hne, hread, Bool.false_eq_true, if_false]

theorem ofPayload_of_cbor {b : UInt8} {rest : List UInt8} (h : detect (b :: rest) = .cbor) :
    ofPayload (b :: rest) =
      match Cbor.Lenient.read? (b :: rest) with
      | some output => .ok output
      | none => .error (.envelope .cbor) := by
  cases hread : (Cbor.Lenient.read? (b :: rest) : Option StateOutput) <;>
    simp only [ofPayload, h, hread, List.isEmpty_cons, Bool.false_eq_true, if_false]

/-- In CBOR a blank is a number, which is no output. -/
theorem read?_of_isBlank {b : UInt8} (h : isBlank b) (rest : List UInt8) :
    Cbor.Lenient.read? (b :: rest) = (none : Option StateOutput) := by
  simp only [isBlank, Bool.or_eq_true, decide_eq_true_eq, or_assoc] at h
  rcases h with rfl | rfl | rfl | rfl | rfl <;> rfl

/-- What is read of a payload: its value, and in JSON the space before it. -/
structure IsValueOf (value payload : List UInt8) (output : StateOutput) : Prop where
  front : value <+: payload
  alone : ofPayload value = .ok output
  /-- A value that is cut off is refused. -/
  cut : ∀ part, part <+: value → part ≠ value →
    ∃ fault, ofPayload part = .error (.envelope fault)
  /-- Behind a JSON payload there is nothing but space. -/
  behind_json : detect payload = .json → ∀ more, ofPayload (payload ++ more) =
    if more.all Doc.isSpace then .ok output else .error (.envelope .json)
  /-- What stands behind a CBOR value does not matter. -/
  behind_cbor : detect payload = .cbor → ∀ more, ofPayload (value ++ more) = .ok output

/-! ## JSON -/

/-- The bytes of an object, and what may stand behind them. -/
theorem ofPayload_append_of_takes {bytes : List UInt8} {doc : Doc} {output : StateOutput}
    (hbytes : Takes Anything (2 * bytes.length + 1) Doc.braced bytes doc [])
    (hread : doc.read? = some output) (more : List UInt8) :
    ofPayload (bytes ++ more) =
      if more.all Doc.isSpace then .ok output else .error (.envelope .json) := by
  have hdoc : Doc.braced (2 * (bytes ++ more).length + 1) (bytes ++ more) = some (doc, more) := by
    refine hbytes _ ?_ more trivial
    rw [List.length_append]
    omega
  obtain ⟨rest, hmark⟩ := Doc.mark_of_braced hdoc
  rw [ofPayload_of_json (PayloadFormat.detect_of_mark hmark), Doc.ofBytes?_of_mark hmark, hdoc]
  cases hspace : more.all Doc.isSpace with
  | true => simp only [Option.bind_some, hspace, if_true, hread]
  | false => simp only [Option.bind_some, hspace, Bool.false_eq_true, if_false, Option.bind_none]

/-- An object that is cut off is no JSON. What is left is refused as such, or as CBOR if it is
space. -/
theorem exists_fault_of_part_of_json {bytes part : List UInt8} {doc : Doc}
    (hbytes : Takes Anything (2 * bytes.length + 1) Doc.braced bytes doc [])
    (hpart : part <+: bytes) (hne : part ≠ bytes) :
    ∃ fault, ofPayload part = .error (.envelope fault) := by
  have hnone := EndsIn.eq_none_of_part Doc.endsIn_braced hbytes hpart hne
  cases hformat : detect part with
  | json =>
      cases hdoc : Doc.ofBytes? part with
      | none => exact ⟨.json, by rw [ofPayload_of_json hformat, hdoc]; rfl⟩
      | some value =>
          obtain ⟨rest, hmark⟩ := PayloadFormat.exists_mark_of_detect hformat hdoc
          rw [Doc.ofBytes?_of_mark hmark, hnone] at hdoc
          cases hdoc
  | cbor =>
      cases part with
      | nil => exact ⟨.empty, rfl⟩
      | cons b left =>
          have hblank : isBlank b := by
            by_contra hblank
            rw [Bool.not_eq_true] at hblank
            have hdoc := hbytes _ (Nat.le_refl _) [] trivial
            rw [List.append_nil] at hdoc
            obtain ⟨rest, hmark⟩ := Doc.mark_of_braced hdoc
            obtain ⟨more, rfl⟩ := hpart
            have hjson := PayloadFormat.detect_of_mark hmark
            rw [List.cons_append, PayloadFormat.detect_cons hblank] at hjson
            rw [PayloadFormat.detect_cons hblank, hjson] at hformat
            cases hformat
          exact ⟨.cbor, by rw [ofPayload_of_cbor hformat, read?_of_isBlank hblank]⟩

theorem exists_value_of_json {payload : List UInt8} {output : StateOutput}
    (hformat : detect payload = .json) (h : ofPayload payload = .ok output) :
    ∃ value, IsValueOf value payload output := by
  rw [ofPayload_of_json hformat] at h
  split at h
  next found hfound =>
    cases h
    obtain ⟨doc, hdoc, hread⟩ := Option.bind_eq_some_iff.mp hfound
    obtain ⟨rest, hmark⟩ := PayloadFormat.exists_mark_of_detect hformat hdoc
    rw [Doc.ofBytes?_of_mark hmark] at hdoc
    obtain ⟨⟨doc, spaces⟩, hbraced, hspaces⟩ := Option.bind_eq_some_iff.mp hdoc
    simp only at hspaces
    split_ifs at hspaces with hspace
    cases hspaces
    obtain ⟨bytes, rfl, htakes⟩ := Doc.endsIn_braced _ _ _ _ hbraced
    have hmore := ofPayload_append_of_takes htakes hread
    refine ⟨bytes, List.prefix_append _ _, ?_, ?_, ?_, ?_⟩
    · have halone := hmore []
      rwa [List.append_nil] at halone
    · exact fun part => exists_fault_of_part_of_json htakes
    · intro _ more
      rw [List.append_assoc, hmore, List.all_append, hspace, Bool.true_and]
    · intro hcbor
      cases hformat.symm.trans hcbor
  next => cases h

/-! ## CBOR -/

/-- The reader is given the item that the bytes hold, whatever stands behind them. -/
theorem read?_append_of_takes {bytes : List UInt8} {item : Cbor.Item}
    (hbytes : Takes Anything (2 * bytes.length) Cbor.Item.read bytes item []) (more : List UInt8) :
    (Cbor.Lenient.read? (bytes ++ more) : Option StateOutput) =
      (Readable.read : Cbor.Lenient.Reader StateOutput) (item.depth + 1) item := by
  have hitem : Cbor.Item.ofBytes? (bytes ++ more) = some item := by
    rw [Cbor.Item.ofBytes?, hbytes _ ?_ more trivial]
    · rfl
    · rw [List.length_append]
      omega
  rw [Cbor.Lenient.read?, hitem]

theorem exists_takes_of_read? {payload : List UInt8} {output : StateOutput}
    (h : Cbor.Lenient.read? payload = some output) :
    ∃ bytes item rest, payload = bytes ++ rest ∧
      Takes Anything (2 * bytes.length) Cbor.Item.read bytes item [] := by
  unfold Cbor.Lenient.read? at h
  split at h
  next item hitem =>
    obtain ⟨⟨_, rest⟩, hread, rfl⟩ := Option.map_eq_some_iff.mp hitem
    obtain ⟨bytes, rfl, htakes⟩ := Cbor.Item.endsIn_read _ _ _ _ hread
    exact ⟨bytes, _, rest, rfl, htakes⟩
  next => cases h

/-- An item that is cut off is refused, as long as it is not taken for JSON. -/
theorem exists_fault_of_part_of_cbor {bytes part : List UInt8} {item : Cbor.Item}
    (hbytes : Takes Anything (2 * bytes.length) Cbor.Item.read bytes item [])
    (hpart : part <+: bytes) (hne : part ≠ bytes) (hformat : detect part = .cbor) :
    ∃ fault, ofPayload part = .error (.envelope fault) := by
  cases part with
  | nil => exact ⟨.empty, rfl⟩
  | cons b part =>
      have hnone := EndsIn.eq_none_of_part Cbor.Item.endsIn_read hbytes hpart hne
      have hitem : Cbor.Item.ofBytes? (b :: part) = none := by rw [Cbor.Item.ofBytes?, hnone]; rfl
      exact ⟨.cbor, by rw [ofPayload_of_cbor hformat, Cbor.Lenient.read?, hitem]⟩

theorem exists_value_of_cbor {payload : List UInt8} {output : StateOutput}
    (hformat : detect payload = .cbor) (h : ofPayload payload = .ok output) :
    ∃ value, IsValueOf value payload output := by
  have hread : Cbor.Lenient.read? payload = some output := by
    cases payload with
    | nil => cases h
    | cons b rest =>
        rw [ofPayload_of_cbor hformat] at h
        split at h
        next hfound => rw [hfound, Except.ok.inj h]
        next => cases h
  obtain ⟨bytes, item, rest, rfl, htakes⟩ := exists_takes_of_read? hread
  obtain ⟨b, bytes, rfl⟩ := List.exists_cons_of_ne_nil (htakes.ne_nil Cbor.Item.read_nil)
  have hblank : isBlank b = false := by
    by_contra hblank
    rw [List.cons_append, read?_of_isBlank (by simpa using hblank)] at hread
    cases hread
  -- The first byte tells the format of all that begins with it.
  have hdetect (more : List UInt8) : detect (b :: more) = .cbor := by
    rwa [List.cons_append, PayloadFormat.detect_cons hblank,
      ← PayloadFormat.detect_cons hblank more] at hformat
  have hmore (more : List UInt8) : ofPayload (b :: bytes ++ more) = .ok output := by
    have hagain :=
      (read?_append_of_takes htakes more).trans (read?_append_of_takes htakes rest).symm
    rw [List.cons_append] at hagain ⊢
    rw [ofPayload_of_cbor (hdetect _), hagain, hread]
  refine ⟨b :: bytes, List.prefix_append _ _, ?_, ?_, ?_, fun _ => hmore⟩
  · have halone := hmore []
    rwa [List.append_nil] at halone
  · intro part hpart hne
    refine exists_fault_of_part_of_cbor htakes hpart hne ?_
    cases part with
    | nil => rfl
    | cons c part =>
        obtain ⟨rfl, -⟩ := List.cons_prefix_cons.mp hpart
        exact hdetect part
  · intro hjson
    cases hformat.symm.trans hjson

/-- A payload that is read has a value. Nothing shorter than the value is read. In JSON nothing but
space may follow it, and in CBOR anything. -/
theorem exists_value_of_ofPayload {payload : List UInt8} {output : StateOutput}
    (h : ofPayload payload = .ok output) : ∃ value, IsValueOf value payload output := by
  cases hformat : detect payload with
  | json => exact exists_value_of_json hformat h
  | cbor => exact exists_value_of_cbor hformat h

/-- A call that succeeded and the call below it, which did not. Both have parameters and a
return. -/
def nestedTrace : Trace :=
  let refused : Trace :=
    ⟨⟨.id 2, .id 3, 1, 0, [0x01], 0, none, none⟩, some ⟨some 6, [0x02], 0, none⟩, none, [],
      some "no funds"⟩
  ⟨⟨.id 1, .id 2, 3, 4, [0x80], 81, none, none⟩, some ⟨some 0, [0x81, 0x01], 81, some 5⟩, none,
    [refused], none⟩

/-- The output for one message, with its cost and the calls that it made. -/
def nested : StateOutput where
  root := none
  invocations := [{
    messageCid := .v1 Cid.raw ⟨0, [7], by decide⟩
    message := none
    receipt := none
    gasCost := some ⟨none, 5, 1, 0, 0, 1, 0, 2⟩
    recorded := some nestedTrace
    error := ""
    duration := 0 }]

/-- Its JSON text. -/
def nestedText : List UInt8 := Utf8.encode (Writable.toJson nested).render

/-- The output as a text with a space behind it, and as bytes with a number behind them. -/
theorem exists_value_of_ofPayload_nested :
    (detect (nestedText ++ [0x20]) = .json ∧
      ofPayload (nestedText ++ [0x20]) = .ok nested ∧
      ∃ value, IsValueOf value (nestedText ++ [0x20]) nested) ∧
    ∃ bytes, Writable.toCbor? nested = some bytes ∧ detect (bytes ++ [0x00]) = .cbor ∧
      ofPayload (bytes ++ [0x00]) = .ok nested ∧
      ∃ value, IsValueOf value (bytes ++ [0x00]) nested := by
  have htext : detect (nestedText ++ [0x20]) = .json ∧
      ofPayload (nestedText ++ [0x20]) = .ok nested := by decide +kernel
  have hbytes : (Writable.toCbor? nested).map (fun bytes =>
      (detect (bytes ++ [0x00]), ofPayload (bytes ++ [0x00]))) = some (.cbor, .ok nested) := by
    decide +kernel
  obtain ⟨bytes, hwritten, hpair⟩ := Option.map_eq_some_iff.mp hbytes
  obtain ⟨hformat, hread⟩ := Prod.mk.inj hpair
  exact ⟨⟨htext.1, htext.2, exists_value_of_ofPayload htext.2⟩,
    bytes, hwritten, hformat, hread, exists_value_of_ofPayload hread⟩

/-- A number behind a map goes unnoticed. -/
theorem ofPayload_ignores_number_behind_map :
    ofPayload [0xa0] = .ok ⟨none, []⟩ ∧ ofPayload ([0xa0] ++ [0x00]) = .ok ⟨none, []⟩ :=
  ⟨rfl, rfl⟩

end StateOutput
end TraceLedger
