import TraceLedger.Proofs.Parser.Share
import TraceLedger.Proofs.Walk.Journey
import TraceLedger.Proofs.Walk.Rules

/-! # How a parse can fail

A parse fails before its first message or not at all. A payload that cannot be read and a tipset
without blocks end it, and then nothing was asked or learnt. Whatever goes wrong with a call is
put down in the ledger, in which every message has a record or a note. -/

namespace TraceLedger

/-- The ledger has a record of a message, or a note on it. -/
def Ledger.Mentions (ledger : Ledger) (messageCid : String) : Prop :=
  messageCid ∈ ledger.transactions.map Transaction.txHash ∨
    messageCid ∈ ledger.skipped.map SkippedCall.txHash

/-- The ledger has all records and notes of an earlier one. -/
structure Ledger.Extends (ledger earlier : Ledger) : Prop where
  transactions : earlier.transactions <+: ledger.transactions
  skipped : earlier.skipped <+: ledger.skipped

namespace Ledger

theorem Extends.refl (ledger : Ledger) : ledger.Extends ledger :=
  ⟨List.prefix_rfl, List.prefix_rfl⟩

theorem Extends.trans {first second third : Ledger} (h : second.Extends first)
    (h' : third.Extends second) : third.Extends first :=
  ⟨h.transactions.trans h'.transactions, h.skipped.trans h'.skipped⟩

theorem Extends.mentions {ledger earlier : Ledger} (h : ledger.Extends earlier)
    {messageCid : String} (hmentions : earlier.Mentions messageCid) :
    ledger.Mentions messageCid :=
  hmentions.imp (fun hmem => (h.transactions.map _).mem hmem)
    (fun hmem => (h.skipped.map _).mem hmem)

end Ledger

/-! ## One message -/

theorem Emitted.map_txHash_transactions (logs : List EthLog) (calls : List Emitted) :
    (transactions logs calls).map Transaction.txHash = calls.map (·.transaction.txHash) := by
  have h := congrArg (List.map Transaction.txHash) (map_withoutMetadata_transactions logs calls)
  rw [List.map_map, List.map_map] at h
  exact h

namespace Walker

open Visit

/-- The root of a trace has a record or a note, whatever is wrong with it. -/
theorem mentions_walk (w : Walker) (scope : Scope) (parent : String) (root : Trace)
    (ledger : Ledger) (s : ResolverState) :
    (w.walk scope parent root ledger s).2.1.Extends ledger ∧
      (w.walk scope parent root ledger s).2.1.Mentions scope.messageCid := by
  obtain ⟨htransactions, hskipped, -⟩ := w.walk_eq_stops scope parent root ledger s
  refine ⟨⟨htransactions ▸ List.prefix_append _ _, hskipped ▸ List.prefix_append _ _⟩, ?_⟩
  let stop := w.stopAt scope ⟨[], root, parent⟩ (start ledger s)
  have hstop := w.stopAt_root_mem_stops scope parent root ledger s
  have hvisit : stop.toVisit ∈ (w.stops scope parent root ledger s).map Stop.toVisit :=
    List.mem_map_of_mem hstop
  cases houtcome : stop.outcome with
  | ok emitted =>
      left
      have hrecord := record?_eq_some_iff.mpr houtcome
      have htxHash := ((stopsAt_of_mem_stops hstop).describes emitted hrecord).txHash
      rw [htransactions, List.map_append, Emitted.map_txHash_transactions]
      refine List.mem_append_right _ (List.mem_map.mpr ⟨emitted, ?_, htxHash⟩)
      exact List.mem_filterMap.mpr ⟨stop.toVisit, hvisit, hrecord⟩
  | error omission =>
      right
      let note := w.skippedCall scope stop.frame (w.reason omission)
      have hnote : note ∈ w.notes scope ((w.stops scope parent root ledger s).map Stop.toVisit) :=
        List.mem_filterMap.mpr ⟨stop.toVisit, hvisit, note?_of_outcome_eq_error houtcome⟩
      rw [hskipped, List.map_append]
      exact List.mem_append_right _ (List.mem_map.mpr ⟨note, hnote, rfl⟩)

end Walker

namespace TraceParser

/-- A message is mentioned once it is parsed, with a trace or without. -/
theorem mentions_parseMessage (p : TraceParser) (session : ParseSession) (logs : EthLogs)
    (i : Invocation) (s : ResolverState) :
    (p.parseMessage session logs i s).1.ledger.Extends session.ledger ∧
      (p.parseMessage session logs i s).1.ledger.Mentions i.messageCid.toText := by
  let scope := scopeOf session logs i
  have hcalls : (p.addCalls session scope i s).1.Extends session.ledger ∧
      (p.addCalls session scope i s).1.Mentions i.messageCid.toText := by
    unfold addCalls
    cases i.trace? with
    | some trace => exact p.walker.mentions_walk scope session.tipsetCid trace session.ledger s
    | none =>
        refine ⟨⟨List.prefix_rfl, List.prefix_append _ _⟩, .inr ?_⟩
        simp [untraced, scope, scopeOf]
  have hfee : (p.parseMessage session logs i s).1.ledger.Extends (p.addCalls session scope i s).1 :=
    ⟨List.prefix_append _ _, List.prefix_rfl⟩
  exact ⟨hcalls.1.trans hfee, hfee.mentions hcalls.2⟩

/-- Every message is mentioned, by induction over the messages: what was mentioned stays so. -/
theorem mentions_parseMessages (p : TraceParser) (session : ParseSession) (logs : EthLogs)
    (messages : List Invocation) (s : ResolverState) :
    (p.parseMessages session logs messages s).1.ledger.Extends session.ledger ∧
      ∀ i ∈ messages,
        (p.parseMessages session logs messages s).1.ledger.Mentions i.messageCid.toText := by
  induction messages generalizing session s with
  | nil => exact ⟨.refl _, fun _ h => nomatch h⟩
  | cons i rest ih =>
      obtain ⟨hextends, hmentions⟩ := p.mentions_parseMessage session logs i s
      obtain ⟨hrest, hall⟩ :=
        ih (p.parseMessage session logs i s).1 (p.parseMessage session logs i s).2
      rw [parseMessages]
      exact ⟨hextends.trans hrest, List.forall_mem_cons.mpr ⟨hrest.mentions hmentions, hall⟩⟩

end TraceParser

/-! ## Whole payloads -/

theorem StateOutput.exists_fault_of_ofPayload_eq_error {payload : List UInt8} {e : Error}
    (h : ofPayload payload = .error e) : ∃ fault, e = .envelope fault := by
  unfold ofPayload at h
  split at h
  · exact ⟨_, (Except.error.inj h).symm⟩
  · split at h
    · split at h
      · cases h
      · exact ⟨_, (Except.error.inj h).symm⟩
    · split at h
      · cases h
      · exact ⟨_, (Except.error.inj h).symm⟩

namespace TraceParser

theorem session_eq_error_of_eq_nil {tipset : Tipset} (h : tipset.key.cids = []) :
    session tipset = .error .emptyTipset := by
  simp [session, Tipset.cidText, TipsetKey.cid, h, Except.map]

theorem parsePayload_of_eq_error {payload : List UInt8} {e : Error}
    (h : StateOutput.ofPayload payload = .error e) (p : TraceParser) (tipset : Tipset)
    (logs : EthLogs) (s : ResolverState) :
    p.parsePayload payload tipset logs s = (.error e, s) := by
  rw [parsePayload, h]

theorem parsePayload_of_eq_nil {payload : List UInt8} {output : StateOutput}
    (h : StateOutput.ofPayload payload = .ok output) {tipset : Tipset}
    (hkey : tipset.key.cids = []) (p : TraceParser) (logs : EthLogs) (s : ResolverState) :
    p.parsePayload payload tipset logs s = (.error .emptyTipset, s) := by
  have hparse : p.parsePayload payload tipset logs s = p.parse output tipset logs s := by
    rw [parsePayload, h]
  rw [hparse, parse, session_eq_error_of_eq_nil hkey]

theorem parsePayload_of_ne_nil {payload : List UInt8} {output : StateOutput}
    (h : StateOutput.ofPayload payload = .ok output) {tipset : Tipset}
    (hkey : tipset.key.cids ≠ []) (p : TraceParser) (logs : EthLogs) (s : ResolverState) :
    ∃ ledger t, p.parsePayload payload tipset logs s = (.ok ledger, t) ∧
      ∀ i ∈ output.invocations, ledger.Mentions i.messageCid.toText := by
  obtain ⟨cid, -, hsession⟩ := session_eq_ok_of_ne_nil hkey
  obtain ⟨-, hall⟩ := p.mentions_parseMessages ⟨tipset, cid, .empty⟩ logs output.invocations s
  have hparse : p.parsePayload payload tipset logs s = p.parse output tipset logs s := by
    rw [parsePayload, h]
  rw [hparse, parse, hsession]
  exact ⟨_, _, rfl, hall⟩

/-- A result is that of a parse which fails as a whole only for its payload or its tipset. -/
structure FailsEarly (payload : List UInt8) (tipset : Tipset) (s : ResolverState)
    (result : Except Error Ledger × ResolverState) : Prop where
  envelope_iff : (∃ fault, result.1 = .error (.envelope fault)) ↔
    ∀ output, StateOutput.ofPayload payload ≠ .ok output
  /-- The fault is told as it was found. -/
  error_of_payload : ∀ e, StateOutput.ofPayload payload = .error e → result.1 = .error e
  emptyTipset_iff : result.1 = .error .emptyTipset ↔
    (∃ output, StateOutput.ofPayload payload = .ok output) ∧ tipset.key.cids = []
  /-- There are no other errors, and each of them leaves everything as it was. -/
  of_error : ∀ e, result.1 = .error e →
    ((∃ fault, e = .envelope fault) ∨ e = .emptyTipset) ∧ e.isFatal = true ∧ result.2 = s
  of_ok : ∀ output, StateOutput.ofPayload payload = .ok output → tipset.key.cids ≠ [] →
    ∃ ledger, result.1 = .ok ledger ∧
      ∀ i ∈ output.invocations, ledger.Mentions i.messageCid.toText

/-- Whatever the payload, the tipset, the logs, the answers of the node and what was learnt
before, a parse fails only if the payload cannot be read or the tipset has no blocks. Then the
error is fatal, nothing was asked of the node, and what was learnt before is kept. Otherwise there
is a ledger, which mentions every message of the payload. -/
theorem parsePayload_fails_early (p : TraceParser) (payload : List UInt8) (tipset : Tipset)
    (logs : EthLogs) (s : ResolverState) :
    FailsEarly payload tipset s (p.parsePayload payload tipset logs s) := by
  cases hpayload : StateOutput.ofPayload payload with
  | error e =>
      obtain ⟨fault, rfl⟩ := StateOutput.exists_fault_of_ofPayload_eq_error hpayload
      rw [parsePayload_of_eq_error hpayload]
      constructor
      case envelope_iff => simp [hpayload]
      case error_of_payload =>
        intro e he
        cases hpayload.symm.trans he
        rfl
      case emptyTipset_iff => simp [hpayload]
      case of_error =>
        rintro _ ⟨⟩
        exact ⟨.inl ⟨fault, rfl⟩, rfl, rfl⟩
      case of_ok => exact fun output houtput => nomatch hpayload.symm.trans houtput
  | ok output =>
      by_cases hkey : tipset.key.cids = []
      · rw [parsePayload_of_eq_nil hpayload hkey]
        constructor
        case envelope_iff => simp [hpayload]
        case error_of_payload => exact fun e he => nomatch hpayload.symm.trans he
        case emptyTipset_iff => simp [hpayload, hkey]
        case of_error =>
          rintro _ ⟨⟩
          exact ⟨.inr rfl, rfl, rfl⟩
        case of_ok => exact fun _ _ hne => absurd hkey hne
      · obtain ⟨ledger, t, hresult, hall⟩ := parsePayload_of_ne_nil hpayload hkey p logs s
        rw [hresult]
        constructor
        case envelope_iff => simp [hpayload]
        case error_of_payload => exact fun e he => nomatch hpayload.symm.trans he
        case emptyTipset_iff => simp [hkey]
        case of_error => exact fun _ he => nomatch he
        case of_ok =>
          intro other hother _
          cases hpayload.symm.trans hother
          exact ⟨ledger, rfl, hall⟩

end TraceParser
end TraceLedger
