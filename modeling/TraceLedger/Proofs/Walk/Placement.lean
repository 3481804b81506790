import TraceLedger.Proofs.Walk.Journey
import TraceLedger.Proofs.Walk.Rules

/-! # Where the logs of a message go

A walk gives the logs that the message emitted, in the order in which it did, to one of the
records that it adds, and changes no other record. -/

namespace TraceLedger

namespace EthLogs

/-- Adds logs in the order in which messages emitted them. -/
def insertAll (logs : EthLogs) (emissions : List (String × EthLog)) : EthLogs :=
  emissions.foldl (fun logs emission => logs.insert emission.1 emission.2) logs

/-- The logs that a message emitted. -/
def emittedBy (message : String) (emissions : List (String × EthLog)) : List EthLog :=
  (emissions.filter (·.1 = message)).map Prod.snd

theorem find?_map_append (entries : List (String × List EthLog)) (message other : String)
    (log : EthLog) :
    (entries.map fun entry =>
        if entry.1 = message then (message, entry.2 ++ [log]) else entry).find? (·.1 = other) =
      (entries.find? (·.1 = other)).map fun entry =>
        if other = message then (message, entry.2 ++ [log]) else entry := by
  induction entries with
  | nil => rfl
  | cons entry rest ih =>
      rw [List.map_cons, List.find?_cons, List.find?_cons, ih]
      by_cases hentry : entry.1 = other
      · by_cases hother : other = message
        · simp [hentry, hother]
        · simp [hentry, hother]
      · by_cases hmessage : entry.1 = message
        · have hne : message ≠ other := hmessage ▸ hentry
          simp [hmessage, hne]
        · simp [hentry, hmessage]

/-- A log comes behind those of its own message, and the logs of others stay. -/
theorem ofMessage_insert (logs : EthLogs) (message other : String) (log : EthLog) :
    (logs.insert message log).ofMessage other =
      logs.ofMessage other ++ if other = message then [log] else [] := by
  unfold insert ofMessage
  by_cases hany : logs.entries.any (·.1 = message)
  · rw [if_pos hany]
    simp only
    rw [find?_map_append]
    cases hfind : logs.entries.find? (·.1 = other) with
    | none =>
        -- The message has an entry, so it is not the one that was looked up.
        have hne : other ≠ message := by
          rintro rfl
          rw [← List.isSome_find?, hfind] at hany
          cases hany
        simp [hne]
    | some entry =>
        by_cases hother : other = message
        · simp [hother]
        · simp [hother]
  · rw [if_neg hany]
    simp only [List.find?_append]
    by_cases hother : other = message
    · subst hother
      have hfind : logs.entries.find? (·.1 = other) = none := by
        rw [← Option.not_isSome_iff_eq_none, List.isSome_find?]
        exact hany
      simp [hfind]
    · have hne : message ≠ other := fun h => hother h.symm
      cases logs.entries.find? (·.1 = other) with
      | none => simp [hne, hother]
      | some entry => simp [hother]

theorem ofMessage_insertAll (logs : EthLogs) (emissions : List (String × EthLog))
    (message : String) :
    (logs.insertAll emissions).ofMessage message =
      logs.ofMessage message ++ emittedBy message emissions := by
  induction emissions generalizing logs with
  | nil => simp [insertAll, emittedBy]
  | cons emission rest ih =>
      have hrest := ih (logs.insert emission.1 emission.2)
      rw [insertAll] at hrest
      rw [insertAll, List.foldl_cons, hrest, ofMessage_insert, List.append_assoc]
      congr 1
      by_cases h : emission.1 = message
      · simp [emittedBy, h]
      · simp [emittedBy, h, Ne.symm h]

end EthLogs

namespace Emitted

/-- The record of a call with logs as the last field of its metadata. -/
def carrying (logs : List EthLog) (e : Emitted) : Transaction :=
  let metadata := e.decoded.metadata ++ [("EthLogs", .list (logs.map Writable.toJson))]
  { e.transaction with metadata := (Json.object metadata).render }

theorem withLogs_eq_carrying {e : Emitted} (h : e.decoded.IsPlain) (logs : List EthLog) :
    e.withLogs logs = e.carrying logs := by
  have hname : "EthLogs" ∉ DecodedCall.sideNames := by decide
  rw [withLogs, DecodedCall.toText, h.metadata_insert hname]
  rfl

/-- What the records of calls come to with the logs of their message. One record carries them:
that of the topmost call that entered a contract, the first one of several. -/
structure PlacesLogs (logs : List EthLog) (calls : List Emitted) (added : List Transaction) :
    Prop where
  none : (logs = [] ∨ ∀ e ∈ calls, e.isContract = false) → added = calls.map transaction
  one : logs ≠ [] → (∃ e ∈ calls, e.isContract = true) →
    ∃ before e after, calls = before ++ e :: after ∧ IsTopmost before e after ∧
      added = before.map transaction ++ e.carrying logs :: after.map transaction

theorem placesLogs_transactions (logs : List EthLog) {calls : List Emitted}
    (hplain : ∀ e ∈ calls, e.decoded.IsPlain) : PlacesLogs logs calls (transactions logs calls) where
  none := by
    rintro (rfl | hnone)
    · exact transactions_nil_logs calls
    · exact transactions_of_forall_eq_false hnone logs
  one := by
    intro hlogs hcontract
    obtain ⟨before, e, after, rfl, htop⟩ := exists_isTopmost hcontract
    have he : e.decoded.IsPlain := hplain e (List.mem_append_right _ List.mem_cons_self)
    refine ⟨before, e, after, rfl, htop, ?_⟩
    rw [transactions_of_isTopmost htop hlogs, withLogs_eq_carrying he]

end Emitted

namespace Walker

theorem isPlain_of_mem_recorded {w : Walker} {scope : Scope} {parent : String} {root : Trace}
    {ledger : Ledger} {resolver : ResolverState} {e : Emitted}
    (h : e ∈ w.recorded scope parent root ledger resolver) : e.decoded.IsPlain := by
  obtain ⟨v, hv, hrecord⟩ := List.mem_filterMap.mp h
  obtain ⟨stop, hstop, rfl⟩ := List.mem_map.mp hv
  exact ((stopsAt_of_mem_stops hstop).describes e hrecord).isPlain

/-- The logs of a message go to the first one of the topmost calls that have a record and that
entered a contract: all of them, in the order in which they were emitted, and none of another
message. Every other record is as its call alone makes it, and what was in the ledger stays in
front. -/
theorem walk_places_logs (w : Walker) (scope : Scope) (earlier : EthLogs)
    (emissions : List (String × EthLog)) (parent : String) (root : Trace) (ledger : Ledger)
    (resolver : ResolverState) :
    let scope := { scope with ethLogs := earlier.insertAll emissions }
    let logs := earlier.ofMessage scope.messageCid ++
      EthLogs.emittedBy scope.messageCid emissions
    let stops := w.stops scope parent root ledger resolver
    let result := (w.walk scope parent root ledger resolver).2.1
    ∃ added skipped failures,
      result.transactions = ledger.transactions ++ added ∧
      result.skipped = ledger.skipped ++ skipped ∧
      result.failures = ledger.failures ++ failures ∧
      Emitted.PlacesLogs logs (Visit.records (stops.map Stop.toVisit)) added ∧
      ∀ stop ∈ stops, w.StopsAt scope root stop := by
  intro scope logs stops result
  obtain ⟨htransactions, hskipped, failures, hfailures⟩ :=
    w.walk_eq_stops scope parent root ledger resolver
  have hlogs : scope.ethLogs.ofMessage scope.messageCid = logs :=
    EthLogs.ofMessage_insertAll earlier emissions scope.messageCid
  rw [hlogs] at htransactions
  refine ⟨_, _, failures, htransactions, hskipped, hfailures.symm, ?_, ?_⟩
  · exact Emitted.placesLogs_transactions logs fun e he => isPlain_of_mem_recorded he
  · exact fun stop hstop => stopsAt_of_mem_stops hstop

/-- The code of contracts, named in the link itself. -/
def contractCode : Cid := .v1 Cid.raw ⟨Cid.identity, Utf8.encode "fil/10/evm", by decide⟩

/-- A transfer below which two contracts are called, and a third one by the first of them. -/
def delegating : Trace :=
  let invoke (receiver : UInt64) (subcalls : List Trace) : Trace :=
    ⟨⟨.id 2, .id receiver, 0, 3844450837, [], 0, none, none⟩, some ⟨some 0, [], 0, none⟩,
      some ⟨receiver, ⟨contractCode, none⟩⟩, subcalls, none⟩
  ⟨transfer, some ⟨some 0, [], 0, none⟩, none, [invoke 3 [invoke 5 []], invoke 4 []], none⟩

/-- The scope of a message at a height at which there are contracts. -/
def scopeOfContracts : Scope :=
  { scopeOfMessage with tipset := { scopeOfMessage.tipset with height := 5000000 } }

/-- A log with nothing but its data. -/
def logOf (data : String) : EthLog := ⟨"0x03", [], data, "", "", false⟩

/-- Two logs of the message, with one of another message between them. -/
def delegatingLogs : List (String × EthLog) :=
  [("message", logOf "0x01"), ("other", logOf "0x02"), ("message", logOf "0x03")]

/-- The two logs go to the first of the two contracts that are called side by side. -/
theorem walk_delegating_places_logs :
    let scope := { scopeOfContracts with ethLogs := EthLogs.empty.insertAll delegatingLogs }
    let logs := [logOf "0x01", logOf "0x03"]
    let calls := Visit.records
      ((unaided.stops scope "tipset" delegating .empty .empty).map Stop.toVisit)
    let result := (unaided.walk scope "tipset" delegating .empty .empty).2.1
    let plain := DecodedCall.raw 3844450837 [] []
    (∃ before e after, calls = before ++ e :: after ∧ Emitted.IsTopmost before e after ∧
      result.transactions = before.map Emitted.transaction ++
        e.carrying logs :: after.map Emitted.transaction) ∧
      result.transactions.map (fun t => (t.txType, t.level, t.metadata)) = [
        ("Send", 0, (DecodedCall.raw 0 [] []).toText),
        ("InvokeContract", 1, (plain.insert "EthLogs" (.list (logs.map Writable.toJson))).toText),
        ("InvokeContract", 2, plain.toText),
        ("InvokeContract", 1, plain.toText)] := by
  intro scope logs calls result plain
  obtain ⟨added, -, -, hadded, -, -, hplaces, -⟩ := walk_places_logs unaided scopeOfContracts
    .empty delegatingLogs "tipset" delegating .empty .empty
  have hcontract : calls.any Emitted.isContract = true := by decide +kernel
  obtain ⟨e, he, hcalled⟩ := List.any_eq_true.mp hcontract
  obtain ⟨before, first, after, hcalls, htop, hplaced⟩ :=
    hplaces.one (List.cons_ne_nil _ _) ⟨e, he, hcalled⟩
  refine ⟨⟨before, first, after, hcalls, htop, ?_⟩, by decide +kernel⟩
  exact hadded.trans hplaced

end Walker
end TraceLedger
