import TraceLedger.Parser.Basic
import TraceLedger.Proofs.Parser.Extent
import TraceLedger.Proofs.Trace.Reading

/-! # Payloads written and read back

An output that is written as DAG-CBOR is told from JSON by its first byte and is read back as it
was, so the form of a payload does not matter to a parse. -/

namespace TraceLedger

/-- The reader of a type undoes its writer, so the value is read back from its bytes. -/
theorem Cbor.Lenient.Undoes.read?_toCbor? {α : Type} [Readable α] [Writable α]
    (h : Undoes (Readable.read : Reader α) Writable.datum) {a : α} {bytes : List UInt8}
    (hbytes : Writable.toCbor? a = some bytes) : read? bytes = some a := by
  have hitem : Item.ofBytes? bytes = some (Writable.datum a).toItem :=
    Datum.ofBytes?_toCbor? hbytes
  rw [read?, hitem]
  exact h.reads a hbytes (Nat.lt_succ_self _)

namespace StateOutput

/-- A written output is a map of two entries. -/
theorem exists_body {o : StateOutput} {bytes : List UInt8}
    (h : Writable.toCbor? o = some bytes) : ∃ body, bytes = 0xa2 :: body := by
  obtain ⟨body, -, -, rfl⟩ := Datum.sized?_eq_some ((Datum.record_toCbor? _).symm.trans h)
  have hhead : Cbor.head .map (UInt64.ofNat 2) = [0xa2] := by decide
  exact ⟨body, congrArg (· ++ body) hhead⟩

theorem detect_toCbor? {o : StateOutput} {bytes : List UInt8}
    (h : Writable.toCbor? o = some bytes) : PayloadFormat.detect bytes = .cbor := by
  obtain ⟨body, rfl⟩ := exists_body h
  rfl

theorem ofPayload_toCbor? {o : StateOutput} {bytes : List UInt8}
    (h : Writable.toCbor? o = some bytes) : ofPayload bytes = .ok o := by
  have hformat := detect_toCbor? h
  have hread : Cbor.Lenient.read? bytes = some o := undoes_stateOutput.read?_toCbor? h
  obtain ⟨body, rfl⟩ := exists_body h
  rw [ofPayload, hformat, hread]
  rfl

/-- What can be written is read back, and parsed like any other payload of the same output. -/
theorem payload_roundTrip (o : StateOutput) :
    ((Writable.toCbor? o).isSome ↔ (Writable.datum o).Fits) ∧
      ∀ bytes, Writable.toCbor? o = some bytes →
        ofPayload bytes = .ok o ∧ PayloadFormat.detect bytes = .cbor ∧
          ∀ payload, ofPayload payload = .ok o →
            ∀ (p : TraceParser) (tipset : Tipset) (logs : EthLogs) (s : ResolverState),
              p.parsePayload payload tipset logs s = p.parsePayload bytes tipset logs s := by
  refine ⟨Datum.isSome_toCbor?_iff _, ?_⟩
  intro bytes hbytes
  have hread := ofPayload_toCbor? hbytes
  refine ⟨hread, detect_toCbor? hbytes, ?_⟩
  intro payload hpayload p tipset logs s
  rw [TraceParser.parsePayload, TraceParser.parsePayload, hpayload, hread]

/-- The output of a call and a call below it is read back from its bytes, and parsed from its text
as it is from its bytes. -/
theorem payload_roundTrip_nested :
    ∃ bytes, Writable.toCbor? nested = some bytes ∧ ofPayload bytes = .ok nested ∧
      PayloadFormat.detect bytes = .cbor ∧
      ofPayload nestedText = .ok nested ∧ PayloadFormat.detect nestedText = .json ∧
      ∀ (p : TraceParser) (tipset : Tipset) (logs : EthLogs) (s : ResolverState),
        p.parsePayload nestedText tipset logs s = p.parsePayload bytes tipset logs s := by
  have hfits : (Writable.datum nested).Fits :=
    (payload_roundTrip nested).1.mp (by decide +kernel)
  obtain ⟨bytes, hbytes⟩ := Option.isSome_iff_exists.mp ((payload_roundTrip nested).1.mpr hfits)
  obtain ⟨hread, hformat, hparse⟩ := (payload_roundTrip nested).2 bytes hbytes
  have htext : ofPayload nestedText = .ok nested ∧ PayloadFormat.detect nestedText = .json := by
    decide +kernel
  exact ⟨bytes, hbytes, hread, hformat, htext.1, htext.2, hparse nestedText htext.1⟩

end StateOutput
end TraceLedger
