import Mathlib.Data.List.Nodup
import TraceLedger.Proofs.Method.Names
import TraceLedger.Proofs.Parser.Composition
import TraceLedger.Proofs.RecordId
import TraceLedger.Proofs.Text.Links
import TraceLedger.Proofs.Walk.Rules

/-! # Records are told apart by their identifiers

The identifier of a record is a hash of the message that it belongs to, the record that it stands
under, its name and its place among the records of its message. What is hashed is different for
any two records of a parse, so as long as these hashes do not collide, neither do identifiers. -/

namespace TraceLedger

open RecordId Visit

namespace Walker

theorem methodOf_mem_methodNames (w : Walker) (scope : Scope) (actor : ActorKind)
    (method : UInt64) : w.methodOf scope actor method ∈ VersionRegistry.methodNames := by
  unfold methodOf
  split
  next hname => exact VersionRegistry.mem_methodNames_of_methodName_eq_ok hname
  next => exact VersionRegistry.unknownMethod_mem_methodNames

theorem nameOf_mem_methodNames (w : Walker) (scope : Scope) (trace : Trace)
    (receiver : ActorKind) : w.nameOf scope trace receiver ∈ VersionRegistry.methodNames := by
  unfold nameOf
  split
  · exact VersionRegistry.unknownMethod_mem_methodNames
  · exact w.methodOf_mem_methodNames scope _ _

theorem describes_of_record?_visitOf {w : Walker} {scope : Scope} {depth index : Nat}
    {parent : String} {trace : Trace} {e : Emitted}
    (h : (w.visitOf scope depth parent index trace).record? = some e) :
    w.Describes scope ⟨trace, UInt16.ofNat depth, parent⟩ index
      (w.receiverKind scope trace.message) e := by
  have houtcome := record?_eq_some_iff.mp h
  simp only [visitOf] at houtcome
  split at houtcome
  · cases houtcome
  · split at houtcome
    next => cases houtcome
    next hemit =>
      cases houtcome
      exact describes_of_emit hemit

/-- The parts of the identifier of a call's record. -/
def callParts (scope : Scope) (v : Visit) (e : Emitted) : List String :=
  [scope.tipsetCid, scope.blockCid, scope.messageCid, v.parent, e.transaction.txType,
    toString v.index]

/-- The parts of the identifiers of the calls that have a record. -/
def visitParts (scope : Scope) (visits : List Visit) : List (List String) :=
  visits.filterMap fun v => v.record?.map (callParts scope v)

/-! ## The visits of one walk -/

section Itinerary

variable {w : Walker} {scope : Scope} {parent : String} {root : Trace}

/-- What the record of a visit tells, and how it is linked. -/
structure Identified (w : Walker) (scope : Scope) (parent : String) (root : Trace) (v : Visit)
    (e : Emitted) : Prop where
  txHash : e.transaction.txHash = scope.messageCid
  level : e.transaction.level = UInt16.ofNat v.depth
  parentId : e.transaction.parentId = v.parent
  id : e.transaction.id = ofParts (callParts scope v e)
  name : e.transaction.txType ∈ VersionRegistry.methodNames
  link : (v.depth = 0 ∧ v.parent = parent) ∨
    ∃ caller ∈ records (w.itinerary scope 0 parent 0 root), v.parent = caller.transaction.id

theorem identified_of_mem {v : Visit} (hv : v ∈ w.itinerary scope 0 parent 0 root) {e : Emitted}
    (h : v.record? = some e) : w.Identified scope parent root v e := by
  obtain ⟨before, rest, hsplit⟩ := List.append_of_mem hv
  have hreached := reached_itinerary scope (Nat.zero_le _) parent 0 root hsplit
  have hrecord := h
  rw [hreached.visit] at hrecord
  have hdescribes := describes_of_record?_visitOf hrecord
  refine ⟨hdescribes.txHash, hdescribes.level, hdescribes.parentId, hdescribes.id, ?_, ?_⟩
  · rw [hdescribes.txType]
    exact w.nameOf_mem_methodNames scope _ _
  · rcases hreached.link with ⟨hdepth, hparent, -⟩ | ⟨u, hu, -, -, -, caller, hcaller, hparent⟩
    · exact .inl ⟨hdepth, hparent⟩
    · refine .inr ⟨caller, List.mem_filterMap.mpr ⟨u, ?_, hcaller⟩, hparent⟩
      rw [hsplit]
      exact List.mem_append_left _ hu

theorem exists_identified {e : Emitted} (h : e ∈ records (w.itinerary scope 0 parent 0 root)) :
    ∃ v, w.Identified scope parent root v e := by
  obtain ⟨v, hv, hrecord⟩ := List.mem_filterMap.mp h
  exact ⟨v, identified_of_mem hv hrecord⟩

theorem Identified.isShort_parent {v : Visit} {e : Emitted} (h : w.Identified scope parent root v e)
    (hparent : IsShort parent) : IsShort v.parent := by
  rcases h.link with ⟨-, htop⟩ | ⟨caller, hcaller, hlink⟩
  · rwa [htop]
  · obtain ⟨u, hu⟩ := exists_identified hcaller
    rw [hlink, hu.id]
    exact isShort_ofParts _

theorem Identified.isShort_name {v : Visit} {e : Emitted} (h : w.Identified scope parent root v e) :
    IsShort e.transaction.txType :=
  Nat.lt_of_le_of_lt (VersionRegistry.length_encode_le_of_mem_methodNames h.name) (by decide)

/-- The number of records before a visit tells it from all visits before it that have one. -/
theorem pairwise_index_of_split {visits : List Visit} {index : Nat}
    (h : ∀ before v rest, visits = before ++ v :: rest →
      v.index = index + (records before).length) :
    visits.Pairwise fun u v => ∀ e, u.record? = some e → u.index < v.index := by
  induction visits generalizing index with
  | nil => exact .nil
  | cons u visits ih =>
      have hu : u.index = index := h [] u visits rfl
      have htail : ∀ before v rest, visits = before ++ v :: rest →
          v.index = index + (records [u]).length + (records before).length := by
        intro before v rest hsplit
        rw [h (u :: before) v rest (by rw [hsplit]; rfl), records, records, records,
          ← List.singleton_append, List.filterMap_append, List.length_append, Nat.add_assoc]
      refine List.pairwise_cons.mpr ⟨fun v hv e he => ?_, ih htail⟩
      obtain ⟨before, rest, hsplit⟩ := List.append_of_mem hv
      have hindex := htail before v rest hsplit
      rw [records_cons_of_eq_some he, List.length_cons] at hindex
      omega

theorem ne_of_index_ne {u v : Visit} {e f : Emitted} (he : w.Identified scope parent root u e)
    (hf : w.Identified scope parent root v f) (hparent : IsShort parent) (hne : u.index ≠ v.index) :
    preimage (callParts scope u e) ≠ preimage (callParts scope v f) := by
  intro h
  simp only [callParts, preimage_cons_inj] at h
  obtain ⟨-, h⟩ := of_preimage_cons_eq (he.isShort_parent hparent) (hf.isShort_parent hparent) h
  obtain ⟨-, h⟩ := of_preimage_cons_eq he.isShort_name hf.isShort_name h
  exact hne (toString_nat_injective (of_preimage_singleton_eq h))

theorem nodup_preimage_visitParts (hparent : IsShort parent) :
    ((visitParts scope (w.itinerary scope 0 parent 0 root)).map preimage).Nodup := by
  have hindex : ∀ before v rest, w.itinerary scope 0 parent 0 root = before ++ v :: rest →
      v.index = 0 + (records before).length := by
    intro before v rest hsplit
    exact (reached_itinerary scope (Nat.zero_le _) parent 0 root hsplit).index_eq
  rw [List.Nodup, List.pairwise_map, visitParts, List.pairwise_filterMap]
  refine (pairwise_index_of_split hindex).imp_of_mem fun hu hv hlt parts hparts parts' hparts' => ?_
  obtain ⟨e, he, rfl⟩ := Option.map_eq_some_iff.mp hparts
  obtain ⟨f, hf, rfl⟩ := Option.map_eq_some_iff.mp hparts'
  exact ne_of_index_ne (identified_of_mem hu he) (identified_of_mem hv hf) hparent
    (Nat.ne_of_lt (hlt e he))

end Itinerary

end Walker

namespace TraceParser

open Walker

/-! ## The records of one message -/

/-- The parts of the identifier of a fee. -/
def feeParts (scope : Scope) (parent : String) : List String :=
  [scope.tipsetCid, scope.blockCid, scope.messageCid, parent, Transaction.feeType]

/-- The parts of the identifiers of what a message adds. -/
def identityParts (p : TraceParser) (session : ParseSession) (logs : EthLogs) (i : Invocation) :
    List (List String) :=
  let scope := scopeOf session logs i
  visitParts scope (p.visits session logs i) ++
    (p.feeOf session scope i).toList.map fun _ => feeParts scope session.tipsetCid

theorem of_mem_feeOf {p : TraceParser} {session : ParseSession} {scope : Scope} {i : Invocation}
    {t : Transaction} (h : t ∈ (p.feeOf session scope i).toList) :
    t.id = ofParts (feeParts scope session.tipsetCid) ∧ t.level = 0 := by
  simp only [feeOf, Fee.transaction?] at h
  split at h
  · cases h
  · split at h
    · cases h
    · obtain rfl := List.mem_singleton.mp h
      exact ⟨rfl, rfl⟩

/-- A message is walked through from its root, unless nothing is known of it. -/
theorem visits_cases (p : TraceParser) (session : ParseSession) (logs : EthLogs)
    (i : Invocation) :
    p.visits session logs i = [] ∨ ∃ trace, p.visits session logs i =
      p.walker.itinerary (scopeOf session logs i) 0 session.tipsetCid 0 trace := by
  unfold visits
  split
  · exact .inr ⟨_, rfl⟩
  · exact .inl rfl

section Message

variable {p : TraceParser} {session : ParseSession} {logs : EthLogs} {i j : Invocation}

theorem exists_identified_of_mem_visits {v : Visit} (hv : v ∈ p.visits session logs i)
    {e : Emitted} (h : v.record? = some e) :
    ∃ trace, p.visits session logs i =
        p.walker.itinerary (scopeOf session logs i) 0 session.tipsetCid 0 trace ∧
      p.walker.Identified (scopeOf session logs i) session.tipsetCid trace v e := by
  rcases p.visits_cases session logs i with hnone | ⟨trace, htrace⟩
  · rw [hnone] at hv
    cases hv
  · rw [htrace] at hv
    exact ⟨trace, htrace, identified_of_mem hv h⟩

/-- The records of calls are those of the walk, but for the logs in their metadata. -/
theorem map_withoutMetadata_callRecords (p : TraceParser) (session : ParseSession)
    (logs : EthLogs) (i : Invocation) :
    (p.callRecords session logs i).map Transaction.withoutMetadata =
      (records (p.visits session logs i)).map (·.transaction.withoutMetadata) :=
  Emitted.map_withoutMetadata_transactions _ _

theorem map_id_callRecords :
    (p.callRecords session logs i).map Transaction.id =
      (visitParts (scopeOf session logs i) (p.visits session logs i)).map ofParts := by
  have hids := congrArg (List.map Transaction.id)
    (p.map_withoutMetadata_callRecords session logs i)
  rw [List.map_map, List.map_map] at hids
  refine hids.trans ?_
  rw [records, visitParts, List.map_filterMap, List.map_filterMap]
  refine List.filterMap_congr fun v hv => ?_
  cases hrecord : v.record? with
  | none => rfl
  | some e =>
      obtain ⟨_, -, hidentified⟩ := exists_identified_of_mem_visits hv hrecord
      exact congrArg some hidentified.id

theorem map_id_share :
    (p.share session logs i).transactions.map Transaction.id =
      (p.identityParts session logs i).map ofParts := by
  have hfee : ((p.feeOf session (scopeOf session logs i) i).toList).map Transaction.id =
      (p.feeOf session (scopeOf session logs i) i).toList.map fun _ =>
        ofParts (feeParts (scopeOf session logs i) session.tipsetCid) :=
    List.map_congr_left fun t ht => (of_mem_feeOf ht).1
  simp only [share, identityParts, List.map_append, List.map_map, map_id_callRecords, hfee]
  rfl

theorem nodup_preimage_identityParts (hsession : IsShort session.tipsetCid) :
    ((p.identityParts session logs i).map preimage).Nodup := by
  have hcalls : ((visitParts (scopeOf session logs i) (p.visits session logs i)).map
      preimage).Nodup := by
    rcases p.visits_cases session logs i with hnone | ⟨trace, htrace⟩
    · rw [hnone]
      exact List.nodup_nil
    · rw [htrace]
      exact nodup_preimage_visitParts hsession
  simp only [identityParts, List.map_append, List.map_map]
  refine List.Nodup.append hcalls ?_ ?_
  · cases p.feeOf session (scopeOf session logs i) i with
    | none => exact List.nodup_nil
    | some fee => exact List.nodup_singleton _
  · -- No method has the name of fees.
    intro bytes hcall hfee
    obtain ⟨parts, hparts, rfl⟩ := List.mem_map.mp hcall
    obtain ⟨_, -, hbytes⟩ := List.mem_map.mp hfee
    obtain ⟨v, hv, hparts⟩ := List.mem_filterMap.mp hparts
    obtain ⟨e, he, rfl⟩ := Option.map_eq_some_iff.mp hparts
    obtain ⟨_, -, hidentified⟩ := exists_identified_of_mem_visits hv he
    simp only [Function.comp_apply, feeParts, callParts, preimage_cons_inj] at hbytes
    have hfeeName : IsShort Transaction.feeType := by unfold IsShort; decide
    obtain ⟨-, hbytes⟩ :=
      of_preimage_cons_eq hsession (hidentified.isShort_parent hsession) hbytes
    obtain ⟨hname, -⟩ := of_preimage_cons_eq hfeeName hidentified.isShort_name hbytes
    exact VersionRegistry.feeType_not_mem_methodNames (hname ▸ hidentified.name)

theorem exists_rest_of_mem_identityParts {parts : List String}
    (h : parts ∈ p.identityParts session logs i) :
    ∃ rest, parts = session.tipsetCid :: (scopeOf session logs i).blockCid ::
      i.messageCid.toText :: rest := by
  rcases List.mem_append.mp h with h | h
  · obtain ⟨v, -, hparts⟩ := List.mem_filterMap.mp h
    obtain ⟨e, -, rfl⟩ := Option.map_eq_some_iff.mp hparts
    exact ⟨_, rfl⟩
  · obtain ⟨_, -, rfl⟩ := List.mem_map.mp h
    exact ⟨_, rfl⟩

theorem isShort_toText (c : Cid) : IsShort c.toText :=
  isShort_of_length_le c.length_toList_toText_le (by decide)

theorem isShort_blockCid : IsShort (scopeOf session logs i).blockCid := by
  unfold scopeOf
  simp only
  split
  · exact isShort_toText _
  · unfold IsShort
    decide

theorem messageCid_eq_of_preimage_eq {parts parts' : List String}
    (h : parts ∈ p.identityParts session logs i) (h' : parts' ∈ p.identityParts session logs j)
    (heq : preimage parts = preimage parts') : i.messageCid = j.messageCid := by
  obtain ⟨rest, rfl⟩ := exists_rest_of_mem_identityParts h
  obtain ⟨rest', rfl⟩ := exists_rest_of_mem_identityParts h'
  rw [preimage_cons_inj] at heq
  obtain ⟨-, heq⟩ := of_preimage_cons_eq isShort_blockCid isShort_blockCid heq
  obtain ⟨htext, -⟩ := of_preimage_cons_eq (isShort_toText _) (isShort_toText _) heq
  exact Cid.toText_injective htext

/-- Logs change nothing that tells a record apart. -/
theorem of_withoutMetadata_eq {t u : Transaction} (h : t.withoutMetadata = u.withoutMetadata) :
    t.id = u.id ∧ t.parentId = u.parentId ∧ t.level = u.level ∧ t.txHash = u.txHash ∧
      t.txType = u.txType := by
  simp only [Transaction.withoutMetadata, Transaction.mk.injEq] at h
  exact ⟨h.1, h.2.1, h.2.2.1, h.2.2.2.2.2.2.2.1, by simp [h]⟩

/-- What stands below the top stands under the record of a call of the same message. -/
theorem exists_caller {t : Transaction} (h : t ∈ (p.share session logs i).transactions)
    (hlevel : t.level ≠ 0) :
    ∃ caller ∈ (p.share session logs i).transactions, caller.id = t.parentId ∧
      caller.txHash = t.txHash ∧ caller.txType ≠ Transaction.feeType := by
  rcases List.mem_append.mp h with h | h
  · have hmap := p.map_withoutMetadata_callRecords session logs i
    have hmem := List.mem_map_of_mem (f := Transaction.withoutMetadata) h
    rw [hmap] at hmem
    obtain ⟨e, he, heq⟩ := List.mem_map.mp hmem
    obtain ⟨v, hv, hrecord⟩ := List.mem_filterMap.mp he
    obtain ⟨trace, htrace, hidentified⟩ := exists_identified_of_mem_visits hv hrecord
    obtain ⟨-, hparentEq, hlevelEq, hhashEq, -⟩ := of_withoutMetadata_eq heq
    rcases hidentified.link with ⟨hdepth, -⟩ | ⟨caller, hcaller, hlink⟩
    · rw [hidentified.level, hdepth] at hlevelEq
      exact (hlevel hlevelEq.symm).elim
    · obtain ⟨u, hu⟩ := exists_identified hcaller
      rw [← htrace] at hcaller
      have hcallerMem := List.mem_map_of_mem (f := (·.transaction.withoutMetadata)) hcaller
      rw [← hmap] at hcallerMem
      obtain ⟨c, hc, hceq⟩ := List.mem_map.mp hcallerMem
      obtain ⟨hid, -, -, hhash, hname⟩ := of_withoutMetadata_eq hceq
      refine ⟨c, List.mem_append_left _ hc, ?_, ?_, ?_⟩
      · rw [hid, ← hlink, ← hidentified.parentId, hparentEq]
      · rw [hhash, hu.txHash, ← hhashEq, hidentified.txHash]
      · rw [hname]
        exact fun hfee => VersionRegistry.feeType_not_mem_methodNames (hfee ▸ hu.name)
  · exact (hlevel (of_mem_feeOf h).2).elim

end Message

/-! ## The records of a parse -/

theorem transactions_shares (p : TraceParser) (session : ParseSession) (logs : EthLogs)
    (messages : List Invocation) :
    (p.shares session logs messages).transactions =
      messages.flatMap fun i => (p.share session logs i).transactions := by
  induction messages with
  | nil => rfl
  | cons i rest ih => rw [shares, List.flatMap_cons, ← ih]; rfl

/-- What is hashed for the identifiers of the records of a parse, in their order. -/
def preimages (p : TraceParser) (output : StateOutput) (tipset : Tipset) (logs : EthLogs) :
    List (List UInt8) :=
  match session tipset with
  | .error _ => []
  | .ok session =>
    (output.invocations.flatMap (p.identityParts session logs)).map RecordId.preimage

theorem isShort_tipsetCid {tipset : Tipset} {session : ParseSession}
    (h : TraceParser.session tipset = .ok session) : IsShort session.tipsetCid := by
  unfold TraceParser.session Tipset.cidText at h
  cases hcid : tipset.key.cid with
  | error e =>
      rw [hcid] at h
      cases h
  | ok cid =>
      rw [hcid] at h
      cases h
      exact isShort_toText cid

theorem ledger_of_session {tipset : Tipset} {session : ParseSession}
    (h : TraceParser.session tipset = .ok session) : session.ledger = .empty := by
  unfold TraceParser.session at h
  split at h
  · cases h
    rfl
  · cases h

theorem preimages_of_session {p : TraceParser} {tipset : Tipset} {session : ParseSession}
    (h : TraceParser.session tipset = .ok session) (output : StateOutput) (logs : EthLogs) :
    p.preimages output tipset logs =
      (output.invocations.flatMap (p.identityParts session logs)).map RecordId.preimage := by
  simp only [preimages, h]

theorem nodup_preimages (p : TraceParser) {output : StateOutput} (tipset : Tipset)
    (logs : EthLogs) (h : (output.invocations.map Invocation.messageCid).Nodup) :
    (p.preimages output tipset logs).Nodup := by
  unfold preimages
  split
  · exact List.nodup_nil
  next session hsession =>
    rw [List.map_flatMap, List.nodup_flatMap]
    refine ⟨fun i _ => nodup_preimage_identityParts (isShort_tipsetCid hsession), ?_⟩
    refine (List.pairwise_map.mp h).imp fun hne bytes hfirst hsecond => ?_
    obtain ⟨parts, hparts, rfl⟩ := List.mem_map.mp hfirst
    obtain ⟨parts', hparts', heq⟩ := List.mem_map.mp hsecond
    exact hne (messageCid_eq_of_preimage_eq hparts hparts' heq.symm)

/-- What tells the records of a parse apart. -/
structure ToldApart (records : List Transaction) : Prop where
  nodup : (records.map Transaction.id).Nodup
  /-- A call below the top is under no record of another message, and under no fee. -/
  parentId_ne : ∀ t ∈ records, t.level ≠ 0 → ∀ u ∈ records,
    u.txHash ≠ t.txHash ∨ u.txType = Transaction.feeType → t.parentId ≠ u.id

theorem map_id_shares {p : TraceParser} {tipset : Tipset} {session : ParseSession}
    (h : TraceParser.session tipset = .ok session) (output : StateOutput) (logs : EthLogs) :
    (p.shares session logs output.invocations).transactions.map Transaction.id =
      (p.preimages output tipset logs).map fun x => Hex.encode (Blake2b.hash 32 x) := by
  have hids (i : Invocation) : (p.share session logs i).transactions.map Transaction.id =
      (p.identityParts session logs i).map ofParts := map_id_share
  rw [transactions_shares, List.map_flatMap, preimages_of_session h, List.map_map,
    List.map_flatMap]
  simp only [hids]
  rfl

theorem toldApart_shares {p : TraceParser} {session : ParseSession} {logs : EthLogs}
    {messages : List Invocation}
    (h : ((p.shares session logs messages).transactions.map Transaction.id).Nodup) :
    ToldApart (p.shares session logs messages).transactions where
  nodup := h
  parentId_ne := by
    intro t ht hlevel u hu hother heq
    have ht' := ht
    rw [transactions_shares] at ht'
    obtain ⟨i, hi, hmem⟩ := List.mem_flatMap.mp ht'
    obtain ⟨caller, hcaller, hid, hhash, hname⟩ := exists_caller hmem hlevel
    have hcaller' : caller ∈ (p.shares session logs messages).transactions := by
      rw [transactions_shares]
      exact List.mem_flatMap.mpr ⟨i, hi, hcaller⟩
    obtain rfl : caller = u := List.inj_on_of_nodup_map h hcaller' hu (hid.trans heq)
    rcases hother with hother | hother
    · exact hother hhash
    · exact hname hother

/-- If the hashes of what is hashed for a parse do not collide, its records have different
identifiers, whatever the parser was used for before. -/
theorem parse_tells_apart {b : ParserBuilder} {p : TraceParser} {fresh : ResolverState}
    (hb : b.build = .ok (p, fresh)) (history : List Episode) {output : StateOutput}
    (tipset : Tipset) (logs : EthLogs)
    (hmessages : (output.invocations.map Invocation.messageCid).Nodup)
    (hhash : ∀ x ∈ p.preimages output tipset logs, ∀ y ∈ p.preimages output tipset logs,
      Blake2b.hash 32 x = Blake2b.hash 32 y → x = y) :
    match (p.parse output tipset logs (p.runHistory history fresh)).1 with
    | .error _ => tipset.key.cids = []
    | .ok ledger => ToldApart ledger.transactions ∧
      ledger.transactions.map Transaction.id =
        (p.preimages output tipset logs).map fun x => Hex.encode (Blake2b.hash 32 x) := by
  obtain ⟨hc, hfresh⟩ := of_build_eq_ok hb
  have hs := sound_runHistory hc history (Resolver.sound_of_cache_eq_nil p.resolver hfresh)
  cases hsession : TraceParser.session tipset with
  | error e =>
      have hnil : tipset.key.cids = [] := by
        by_contra hne
        obtain ⟨cid, -, hok⟩ := session_eq_ok_of_ne_nil hne
        rw [hok] at hsession
        cases hsession
      simpa [parse, hsession] using hnil
  | ok session =>
      have hids := map_id_shares (p := p) hsession output logs
      have hnodup : ((p.shares session logs output.invocations).transactions.map
          Transaction.id).Nodup := by
        rw [hids]
        refine (p.nodup_preimages tipset logs hmessages).map_on fun x hx y hy heq => ?_
        exact hhash x hx y hy (Hex.encode_injective heq)
      have hledger : session.ledger = .empty := ledger_of_session hsession
      rw [parse_eq hc hsession output logs hs]
      simp only [absorb, Share.addTo, hledger, Ledger.empty, List.nil_append]
      exact ⟨toldApart_shares hnodup, hids⟩

/-- Two messages that cost something. The call of the first one made the same call twice. -/
def branching : StateOutput :=
  let call : Trace := ⟨Walker.transfer, none, none, [], none⟩
  let root : Trace := ⟨Walker.transfer, some ⟨some 0, [], 0, none⟩, none, [call, call], none⟩
  let messageCid : Cid := .v1 Cid.raw ⟨1, [], length_nil_le⟩
  ⟨none, [{ costlyInvocation with messageCid, recorded := some root }, costlyInvocation]⟩

theorem parse_tells_apart_branching :
    plainBuilder.build = .ok (plainParser, .empty) ∧
      (branching.invocations.map Invocation.messageCid).Nodup ∧
      ∃ ledger, (plainParser.parse branching (tipsetOf 1) .empty .empty).1 = .ok ledger ∧
        ledger.transactions.length = 5 ∧ ToldApart ledger.transactions := by
  have hbuild : plainBuilder.build = .ok (plainParser, .empty) := rfl
  have hmessages : (branching.invocations.map Invocation.messageCid).Nodup := by decide
  -- The five hashes differ in their first bytes already.
  have hfirst : (plainParser.preimages branching (tipsetOf 1) .empty).map
      (fun x => (Blake2b.hash 32 x).take 1) = [[187], [193], [238], [27], [79]] := by
    decide +kernel
  have hnodup : ((plainParser.preimages branching (tipsetOf 1) .empty).map
      fun x => (Blake2b.hash 32 x).take 1).Nodup := by
    rw [hfirst]
    decide
  have hparse := parse_tells_apart hbuild [] (tipsetOf 1) .empty hmessages
    fun x hx y hy heq => List.inj_on_of_nodup_map hnodup hx hy (congrArg (List.take 1) heq)
  refine ⟨hbuild, hmessages, ?_⟩
  rw [runHistory, List.foldl_nil] at hparse
  cases hledger : (plainParser.parse branching (tipsetOf 1) .empty .empty).1 with
  | error e =>
      rw [hledger] at hparse
      cases hparse
  | ok ledger =>
      rw [hledger] at hparse
      refine ⟨ledger, rfl, ?_, hparse.1⟩
      have hlength := congrArg List.length hparse.2
      have hfive := congrArg List.length hfirst
      rw [List.length_map, List.length_map] at hlength
      rw [List.length_map] at hfive
      rw [hlength, hfive]
      rfl

end TraceParser
end TraceLedger
