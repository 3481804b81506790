import TraceLedger.Proofs.Call.Metadata
import TraceLedger.Proofs.Walk.Placement
import TraceLedger.Proofs.Walk.Rules
import TraceLedger.Walk.Fee

/-! # Which metadata can be read

What a call is shown to have been given and to have returned may nest as deep as the items of a
message may, and the metadata puts an object around both. A reader of metadata allows for no more
than that depth, object and all, so the deepest sides make a record whose metadata it refuses. All
other metadata it takes, and finds the fields of a call in front, in their order. -/

namespace TraceLedger

/-! ## Depth -/

namespace Json

theorem itemsDepth_le {items : List Json} {limit : Nat} (h : ∀ item ∈ items, item.depth ≤ limit) :
    itemsDepth items ≤ limit := by
  induction items with
  | nil => exact Nat.zero_le _
  | cons item rest ih =>
      exact Nat.max_le.mpr ⟨h item List.mem_cons_self,
        ih fun x hx => h x (List.mem_cons_of_mem _ hx)⟩

theorem fieldsDepth_append (first second : Members) :
    fieldsDepth (first ++ second) = max (fieldsDepth first) (fieldsDepth second) := by
  induction first with
  | nil => exact (Nat.zero_max _).symm
  | cons field rest ih =>
      rw [List.cons_append, fieldsDepth, fieldsDepth, ih, Nat.max_assoc]

theorem fieldsHaveWords_append {first second : Members} (h : fieldsHaveWords first)
    (h' : fieldsHaveWords second) : fieldsHaveWords (first ++ second) := by
  induction first with
  | nil => exact h'
  | cons field rest ih => exact ⟨h.1, ih h.2⟩

end Json

namespace Datum

mutual

/-- Whole numbers of written records are machine words. -/
theorem hasWords_toJson (d : Datum) : d.toJson.HasWords := by
  cases d with
  | word value => exact Json.hasWords_nat value.toNat_lt
  | integer value => exact Json.hasWords_int64 value
  | link value => exact ⟨trivial, trivial⟩
  | list items => exact itemsHaveWords_itemsToJson items
  | record fields => exact fieldsHaveWords_fieldsToJson fields
  | _ => trivial

theorem itemsHaveWords_itemsToJson (items : List Datum) :
    Json.itemsHaveWords (itemsToJson items) := by
  cases items with
  | nil => trivial
  | cons item rest => exact ⟨hasWords_toJson item, itemsHaveWords_itemsToJson rest⟩

theorem fieldsHaveWords_fieldsToJson (fields : List (String × Datum)) :
    Json.fieldsHaveWords (fieldsToJson fields) := by
  cases fields with
  | nil => trivial
  | cons field rest =>
      obtain ⟨name, item⟩ := field
      exact ⟨hasWords_toJson item, fieldsHaveWords_fieldsToJson rest⟩

end

theorem itemsDepth_texts (texts : List String) :
    Json.itemsDepth (itemsToJson (texts.map .text)) = 0 := by
  induction texts with
  | nil => rfl
  | cons text rest ih =>
      rw [List.map_cons, itemsToJson, Json.itemsDepth, ih]
      rfl

end Datum

namespace EthLog

/-- A log is an object with a list of texts in it. -/
theorem depth_toJson_le (log : EthLog) : (Writable.toJson log).depth ≤ 2 := by
  have htopics := Datum.itemsDepth_texts log.topics
  have hlist : (Json.list (Datum.itemsToJson (log.topics.map .text))).depth = 1 := by
    rw [Json.depth, htopics]
  show Json.fieldsDepth [("address", .text log.address),
    ("topics", .list (Datum.itemsToJson (log.topics.map .text))), ("data", .text log.data),
    ("logIndex", .text log.logIndex), ("transactionHash", .text log.transactionHash),
    ("removed", .bool log.removed)] + 1 ≤ 2
  simp only [Json.fieldsDepth, hlist]
  exact Nat.le_refl _

theorem depth_logs_le (logs : List EthLog) :
    (Json.list (logs.map Writable.toJson)).depth ≤ 3 := by
  refine Nat.succ_le_succ (Json.itemsDepth_le fun item hitem => ?_)
  obtain ⟨log, -, rfl⟩ := List.mem_map.mp hitem
  exact log.depth_toJson_le

theorem hasWords_logs (logs : List EthLog) : (Json.list (logs.map Writable.toJson)).HasWords := by
  refine Json.itemsHaveWords_iff.mpr fun item hitem => ?_
  obtain ⟨log, -, rfl⟩ := List.mem_map.mp hitem
  exact Datum.hasWords_toJson _

end EthLog

/-! ## Records of calls -/

namespace Emitted

/-- What a reader of metadata makes of the record of a call: nothing if one of the two sides nests
as deep as a text may, and the fields of the call in front of all others if not. -/
structure Legible (e : Emitted) (t : Transaction) : Prop where
  withoutMetadata : t.withoutMetadata = e.transaction.withoutMetadata
  isSome_iff : t.metadataFields?.isSome ↔
    e.decoded.params.depth < Json.Doc.maxDepth ∧ e.decoded.result.depth < Json.Doc.maxDepth
  names_prefix : ∀ fields, t.metadataFields? = some fields →
    DecodedCall.sideNames <+: fields.map Prod.fst

/-- A record shows its call, and what it shows has words. -/
structure IsShown (e : Emitted) : Prop where
  hasWords : e.decoded.HasWords
  isPlain : e.decoded.IsPlain
  metadata : e.transaction.metadata = e.decoded.toText

variable {e : Emitted} (h : e.IsShown)

include h

/-- Fields behind those of a call do no harm if they nest less deep than a text may. -/
theorem IsShown.legible (more : Json.Members) (hmore : Json.fieldsHaveWords more)
    (hdepth : Json.fieldsDepth more < Json.Doc.maxDepth)
    (hnodup : (DecodedCall.sideNames ++ more.names).Nodup) {t : Transaction}
    (hrecord : t.withoutMetadata = e.transaction.withoutMetadata)
    (hshows : t.Shows (e.decoded.metadata ++ more)) : e.Legible t := by
  have hnames : Json.Members.names (e.decoded.metadata ++ more) =
      DecodedCall.sideNames ++ more.names := by
    rw [Json.Members.names, List.map_append, h.isPlain]
    rfl
  refine ⟨hrecord, ?_, fun fields hread => ?_⟩
  · rw [Transaction.isSome_metadataFields?_iff hshows
        (Json.fieldsHaveWords_append h.hasWords.fields hmore),
      Json.fieldsDepth_append, h.hasWords.fieldsDepth_eq, Nat.max_lt, Nat.max_lt]
    exact and_iff_left hdepth
  · have hfields := Transaction.names_of_metadataFields? hshows (hnames ▸ hnodup) hread
    rw [hnames] at hfields
    exact ⟨more.names, hfields.symm⟩

theorem IsShown.legible_transaction : e.Legible e.transaction := by
  refine h.legible [] trivial (by decide) (by decide) rfl ?_
  rw [List.append_nil]
  exact h.metadata

/-- Logs nest three deep, and have a name of their own. -/
theorem IsShown.legible_carrying (logs : List EthLog) : e.Legible (e.carrying logs) := by
  refine h.legible [("EthLogs", .list (logs.map Writable.toJson))]
    ⟨EthLog.hasWords_logs logs, trivial⟩ ?_ ?_ rfl rfl
  · rw [Json.fieldsDepth, Json.fieldsDepth, Nat.max_zero]
    exact Nat.lt_of_le_of_lt (EthLog.depth_logs_le logs) (by decide)
  · show (DecodedCall.sideNames ++ ["EthLogs"]).Nodup
    decide

omit h

theorem forall₂_legible_map {calls : List Emitted} (h : ∀ e ∈ calls, e.IsShown) :
    List.Forall₂ Legible calls (calls.map transaction) := by
  rw [List.forall₂_map_right_iff, List.forall₂_same]
  exact fun e he => (h e he).legible_transaction

/-- Whether or not a call got the logs of its message, its record can be read as the call allows. -/
theorem PlacesLogs.legible {logs : List EthLog} {calls : List Emitted}
    {added : List Transaction} (hplaces : PlacesLogs logs calls added)
    (h : ∀ e ∈ calls, e.IsShown) : List.Forall₂ Legible calls added := by
  by_cases hcarried : logs ≠ [] ∧ ∃ e ∈ calls, e.isContract = true
  · obtain ⟨before, e, after, rfl, -, rfl⟩ := hplaces.one hcarried.1 hcarried.2
    have hbefore := forall₂_legible_map fun x hx => h x (List.mem_append_left _ hx)
    have hafter := forall₂_legible_map fun x hx =>
      h x (List.mem_append_right _ (List.mem_cons_of_mem _ hx))
    have he := (h e (List.mem_append_right _ List.mem_cons_self)).legible_carrying logs
    exact List.rel_append hbefore (.cons he hafter)
  · have hnone : logs = [] ∨ ∀ e ∈ calls, e.isContract = false := by
      by_cases hlogs : logs = []
      · exact .inl hlogs
      · refine .inr fun e he => Bool.eq_false_iff.mpr fun htrue => ?_
        exact hcarried ⟨hlogs, e, he, htrue⟩
    rw [hplaces.none hnone]
    exact forall₂_legible_map h

end Emitted

namespace Walker

theorem isShown_of_describes {w : Walker} {scope : Scope} {frame : Frame} {index : Nat}
    {receiver : ActorKind} {e : Emitted} (h : w.Describes scope frame index receiver e) :
    e.IsShown := by
  refine ⟨?_, h.isPlain, h.metadata⟩
  have hdecoding := h.decoding
  unfold decodingOf at hdecoding
  split at hdecoding
  next =>
    rw [← Except.ok.inj hdecoding]
    exact DecodedCall.hasWords_raw _ _ _
  next => exact Call.hasWords_of_decode hdecoding

theorem isShown_of_mem_recorded {w : Walker} {scope : Scope} {parent : String} {root : Trace}
    {ledger : Ledger} {resolver : ResolverState} {e : Emitted}
    (h : e ∈ w.recorded scope parent root ledger resolver) : e.IsShown := by
  obtain ⟨v, hv, hrecord⟩ := List.mem_filterMap.mp h
  obtain ⟨stop, hstop, rfl⟩ := List.mem_map.mp hv
  exact isShown_of_describes ((stopsAt_of_mem_stops hstop).describes e hrecord)

end Walker

/-! ## Records of fees -/

namespace Fee

theorem fieldsHaveWords_metadata (network : Network) (miner : String) (i : Invocation)
    (cost : GasCost) : Json.fieldsHaveWords (metadata network miner i cost) := by
  refine Json.fieldsHaveWords_append ?_ ?_
  · simp [Json.fieldsHaveWords, Json.HasWords, amount]
  · split
    next message _ =>
      exact ⟨Json.hasWords_int64 i.gasUsed, Json.hasWords_nat message.gasLimit.toNat_lt, trivial,
        trivial, trivial⟩
    next => trivial

theorem fieldsDepth_metadata (network : Network) (miner : String) (i : Invocation)
    (cost : GasCost) : Json.fieldsDepth (metadata network miner i cost) = 1 := by
  rw [metadata, Json.fieldsDepth_append]
  split <;> simp [Json.fieldsDepth, Json.depth, amount, Json.nat]

theorem shows_of_transaction? {network : Network} {scope : Scope} {parent : String}
    {miner : Option Address} {i : Invocation} {t : Transaction}
    (h : transaction? network scope parent miner i = some t) :
    ∃ miner cost, t.Shows (metadata network miner i cost) := by
  unfold transaction? at h
  split at h
  · cases h
  next cost _ =>
    split at h
    · cases h
    · cases h
      exact ⟨_, cost, rfl⟩

/-- The metadata of fees is no deeper than an object of objects. -/
theorem isSome_metadataFields? {network : Network} {scope : Scope} {parent : String}
    {miner : Option Address} {i : Invocation} {t : Transaction}
    (h : transaction? network scope parent miner i = some t) : t.metadataFields?.isSome := by
  obtain ⟨miner, cost, hshows⟩ := shows_of_transaction? h
  rw [Transaction.isSome_metadataFields?_iff hshows (fieldsHaveWords_metadata _ _ _ _),
    fieldsDepth_metadata]
  decide

end Fee

namespace Walker

/-- The metadata of a call's record can be read unless the parameters or the result nest as deep as
a text may, and then the fields of the call come first, in their order. The metadata of a fee can
always be read. -/
theorem metadata_legible (w : Walker) (scope : Scope) (parent : String) (root : Trace)
    (ledger : Ledger) (resolver : ResolverState) (network : Network) (miner : Option Address)
    (i : Invocation) :
    let stops := w.stops scope parent root ledger resolver
    let result := (w.walk scope parent root ledger resolver).2.1
    (∃ added,
      result.transactions = ledger.transactions ++ added ∧
      List.Forall₂ Emitted.Legible (Visit.records (stops.map Stop.toVisit)) added ∧
      ∀ stop ∈ stops, w.StopsAt scope root stop) ∧
      ∀ t, Fee.transaction? network scope parent miner i = some t → t.metadataFields?.isSome := by
  intro stops result
  have hshown : ∀ e ∈ w.recorded scope parent root ledger resolver, e.IsShown :=
    fun _ he => isShown_of_mem_recorded he
  have hplaces := Emitted.placesLogs_transactions (scope.ethLogs.ofMessage scope.messageCid)
    fun e he => (hshown e he).isPlain
  obtain ⟨htransactions, -, -⟩ := w.walk_eq_stops scope parent root ledger resolver
  refine ⟨⟨_, htransactions, hplaces.legible hshown, ?_⟩, ?_⟩
  · exact fun stop hstop => stopsAt_of_mem_stops hstop
  · exact fun t ht => Fee.isSome_metadataFields? ht

/-- A message that cost a little. -/
def paidMessage : Invocation :=
  ⟨.ofContent Cid.dagCbor [], none, none, some ⟨none, 1, 1, 0, 0, 0, 0, 1⟩, none, "", 0⟩

theorem metadata_legible_paidMessage :
    ∃ t, Fee.transaction? .mainnet scopeOfMessage "tipset" none paidMessage = some t ∧
      t.metadataFields?.isSome := by
  obtain ⟨-, hfee⟩ :=
    metadata_legible unaided scopeOfMessage "tipset" forked .empty .empty .mainnet none paidMessage
  exact ⟨_, rfl, hfee _ rfl⟩

/-- The code of the system actor in early releases. -/
def systemCode : Cid := .v1 Cid.raw ⟨Cid.identity, Utf8.encode "fil/1/system", by decide⟩

/-- A transfer to the system actor, with lists inside one another as its parameters. -/
def nestedCall (depth : Nat) : Trace :=
  ⟨⟨.id 100, .id 0, 1, MethodTable.send, List.replicate depth 0x81 ++ [0x80], 0, none, none⟩,
    some ⟨some 0, [], 0, none⟩, some ⟨0, systemCode, none⟩, [], none⟩

/-- The methods of the system actor have no schemas for their sides, so these are shown as they
are. -/
theorem shownParams?_nestedCall {depth : Nat} {value : Ipld}
    (h : Cbor.Dag.ipld? (nestedCall depth).message.params = some value) (ctx : CallContext) :
    Call.shownParams? ctx .system "Send" (nestedCall depth).message.params =
      some value.toJson := by
  have hnonempty : (nestedCall depth).message.params.isEmpty = false := by simp [nestedCall]
  have hmethod : "Send" ≠ VersionRegistry.unknownMethod := by decide
  rw [Call.shownParams?, if_neg hmethod]
  simp only [MethodSchema.of?, SideSchema.showParams?, SideSchema.show?, SideSchema.showPlain?,
    hnonempty, h]
  rfl

theorem exists_emit_nestedCall {depth : Nat} {value : Ipld}
    (h : Cbor.Dag.ipld? (nestedCall depth).message.params = some value) (receiver : ActorKind) :
    ∃ e, unaided.emit scopeOfMessage ⟨nestedCall depth, 0, "tipset"⟩ 0 receiver = .ok e ∧
      e.decoded.params = value.toJson := by
  have hactor : unaided.actorOf (nestedCall depth) receiver = .system := by
    show unaided.actors.kindOf systemCode = .system
    decide +kernel
  have hreceipt : (nestedCall depth).receipt = .ok ⟨0, [], 0⟩ := rfl
  let call := unaided.callOf scopeOfMessage (nestedCall depth)
    (unaided.actorOf (nestedCall depth) receiver) []
  let ctx := unaided.context scopeOfMessage
  have hcall : call.actor = .system ∧ call.method = "Send" := ⟨hactor, rfl⟩
  have hdecode : call.decode ctx unaided.codecActors = .ok
      (.ofSides call.methodNum value.toJson .null (call.created? ctx unaided.codecActors)) := by
    have hresult : Call.shownResult? ctx call.actor call.method call.result = some .null :=
      Call.shownResult?_nil _ _ _
    have hparams : Call.shownParams? ctx call.actor call.method call.params =
        some value.toJson := by
      rw [hcall.1, hcall.2]
      exact shownParams?_nestedCall h ctx
    simp only [Call.decode_eq, hparams, hresult]
  exact ⟨_, emit_of_decode_eq_ok _ hreceipt hdecode, rfl⟩

theorem exists_walk_nestedCall {depth : Nat} {value : Ipld}
    (h : Cbor.Dag.ipld? (nestedCall depth).message.params = some value) :
    ∃ e : Emitted, e.IsShown ∧ e.decoded.params = value.toJson ∧
      (unaided.walk scopeOfMessage "tipset" (nestedCall depth) .empty .empty).2.1.transactions =
        [e.transaction] := by
  obtain ⟨e, hemit, hparams⟩ := exists_emit_nestedCall h
    (unaided.receiverKind scopeOfMessage (nestedCall depth).message)
  refine ⟨e, isShown_of_describes (describes_of_emit hemit), hparams, ?_⟩
  have hsound : unaided.resolver.Sound .empty := Resolver.sound_of_cache_eq_nil _ rfl
  have hrecord := Visit.record?_eq_some_iff.mpr
    (outcome_visitOf_of_emit_eq_ok "tipset" 0 (by decide) hemit)
  have hsubcalls : (nestedCall depth).subcalls = [] := rfl
  rw [walk_eq scopeOfMessage (by decide) "tipset" _ .empty hsound, itinerary_eq]
  simp only [hrecord, hsubcalls, itineraries, ite_self, Visit.records_cons_of_eq_some hrecord]
  rfl

/-- A walk can write metadata that its reader takes for none. -/
theorem walk_writes_unreadable_metadata :
    ∃ t, (unaided.walk scopeOfMessage "tipset" (nestedCall 126) .empty .empty).2.1.transactions =
        [t] ∧ t.metadataFields? = none := by
  have hvalue : ((Cbor.Dag.ipld? (nestedCall 126).message.params).map fun value =>
      value.toJson.depth) = some Json.Doc.maxDepth := by decide +kernel
  obtain ⟨value, hread, hdepth⟩ := Option.map_eq_some_iff.mp hvalue
  obtain ⟨e, hshown, hparams, hwalk⟩ := exists_walk_nestedCall hread
  refine ⟨e.transaction, hwalk, ?_⟩
  rw [← Option.not_isSome_iff_eq_none, hshown.legible_transaction.isSome_iff, hparams, hdepth]
  exact fun hlt => Nat.lt_irrefl _ hlt.1

end Walker
end TraceLedger
