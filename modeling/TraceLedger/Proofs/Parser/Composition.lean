import TraceLedger.Proofs.AddressBook.Merging
import TraceLedger.Proofs.Parser.Transparency

/-! # Parsing message by message

The ledger of two lists of messages is made of the ledgers of each list, and the records of one
message are those of its calls and then that of its fee. -/

namespace TraceLedger

/-- The call is the one that a message and its receipt amount to when no trace was recorded. -/
structure Invocation.IsSingleCall (i : Invocation) (m : Message) (call : Trace) : Prop where
  sender : call.message.sender = m.sender
  receiver : call.message.receiver = m.receiver
  value : call.message.value = m.value
  method : call.message.method = m.method
  params : call.message.params = m.params
  paramsCodec : call.message.paramsCodec = 0
  gasLimit : call.message.gasLimit = some m.gasLimit
  readOnly : call.message.readOnly = none
  outcome_none : i.receipt = none → call.outcome = none
  outcome_some : ∀ r, i.receipt = some r →
    call.outcome = some ⟨some r.exitCode, r.result, 0, some r.gasUsed⟩
  target : call.target = none
  subcalls : call.subcalls = []
  error_none : i.error = "" → call.error = none
  error_some : i.error ≠ "" → call.error = some i.error

theorem Invocation.isSingleCall_traceOfMessage (i : Invocation) (m : Message) :
    i.IsSingleCall m (i.traceOfMessage m) where
  sender := rfl
  receiver := rfl
  value := rfl
  method := rfl
  params := rfl
  paramsCodec := rfl
  gasLimit := rfl
  readOnly := rfl
  outcome_none h := by rw [traceOfMessage, h, Option.map_none]
  outcome_some r h := by rw [traceOfMessage, h, Option.map_some]
  target := rfl
  subcalls := rfl
  error_none h := by
    rw [traceOfMessage, h]
    rfl
  error_some h := by
    have hempty : ¬i.error.isEmpty := by simpa [String.isEmpty_iff] using h
    rw [traceOfMessage, if_neg hempty]

namespace TraceParser

open Resolver

/-- The records of a walk through a trace of a message. -/
def walkOf (p : TraceParser) (session : ParseSession) (logs : EthLogs) (i : Invocation)
    (trace : Trace) (s : ResolverState) : List Transaction :=
  (p.walker.walk (scopeOf session logs i) session.tipsetCid trace .empty s).2.1.transactions

/-- The records are those of a walk through the calls of a message: through its recorded trace, or
else through the single call that the message amounts to. -/
structure IsWalked (p : TraceParser) (session : ParseSession) (logs : EthLogs) (i : Invocation)
    (s : ResolverState) (records : List Transaction) : Prop where
  recorded : ∀ trace, i.recorded = some trace → records = p.walkOf session logs i trace s
  message : ∀ m, i.recorded = none → i.message = some m →
    ∃ call, i.IsSingleCall m call ∧ records = p.walkOf session logs i call s
  nothing : i.recorded = none → i.message = none → records = []

/-- The fee of a message: one record if it cost something, and none otherwise. -/
structure IsFee (tipsetCid : String) (i : Invocation) (fees : List Transaction) : Prop where
  length_eq : fees.length = if i.totalCost = 0 then 0 else 1
  txType : ∀ t ∈ fees, t.txType = Transaction.feeType
  level : ∀ t ∈ fees, t.level = 0
  parentId : ∀ t ∈ fees, t.parentId = tipsetCid
  amount : ∀ t ∈ fees, t.amount = toString i.totalCost

theorem isFee_feeOf (p : TraceParser) (session : ParseSession) (scope : Scope) (i : Invocation) :
    IsFee session.tipsetCid i (p.feeOf session scope i).toList := by
  unfold feeOf Fee.transaction?
  cases hcost : i.gasCost with
  | none => constructor <;> simp [Invocation.totalCost, hcost]
  | some cost =>
      by_cases hzero : cost.totalCost = 0
      · constructor <;> simp [Invocation.totalCost, hcost, hzero]
      · constructor <;> simp [Invocation.totalCost, hcost, hzero]

theorem isWalked_callRecords {p : TraceParser} (hc : p.config.validate = .ok ())
    (session : ParseSession) (logs : EthLogs) (i : Invocation) {s : ResolverState}
    (hs : p.resolver.Sound s) : p.IsWalked session logs i s (p.callRecords session logs i) := by
  have hlimit : p.walker.config.maxDepth.toNat ≤ 65535 := Config.maxDepth_le_of_validate hc
  have hwalk {trace : Trace} (htrace : i.trace? = some trace) :
      p.callRecords session logs i = p.walkOf session logs i trace s := by
    rw [walkOf, Walker.walk_eq (scopeOf session logs i) hlimit session.tipsetCid trace .empty hs]
    simp [callRecords, visits, htrace, Ledger.empty, scopeOf]
  constructor
  case recorded =>
    intro trace hrecorded
    exact hwalk (by rw [Invocation.trace?, hrecorded])
  case message =>
    intro m hrecorded hmessage
    refine ⟨_, i.isSingleCall_traceOfMessage m, hwalk ?_⟩
    rw [Invocation.trace?, hrecorded, hmessage, Option.map_some]
  case nothing =>
    intro hrecorded hmessage
    have htrace : i.trace? = none := by
      rw [Invocation.trace?, hrecorded, hmessage, Option.map_none]
    simp [callRecords, visits, htrace, Visit.records]

/-- The ledger of a parse, by the shares of its messages. -/
theorem exists_ledger {p : TraceParser} (hc : p.config.validate = .ok ()) {tipset : Tipset}
    {session : ParseSession} (hsession : TraceParser.session tipset = .ok session)
    (root : Option Cid) (messages : List Invocation) (logs : EthLogs) {s : ResolverState}
    (hs : p.resolver.Sound s) :
    ∃ failures, (p.parse ⟨root, messages⟩ tipset logs s).1 =
      .ok ((p.shares session logs messages).addTo failures session.ledger) :=
  ⟨_, by rw [parse_eq hc hsession ⟨root, messages⟩ logs hs]; rfl⟩

/-- Parsing is compositional over messages, whatever is known of addresses when it begins. -/
theorem parse_append {p : TraceParser} (hc : p.config.validate = .ok ()) {tipset : Tipset}
    (hk : tipset.key.cids ≠ []) (logs : EthLogs) (root : Option Cid)
    (first second : List Invocation) {s t u : ResolverState} (hs : p.resolver.Sound s)
    (ht : p.resolver.Sound t) (hu : p.resolver.Sound u) :
    ∃ session whole left right,
      TraceParser.session tipset = .ok session ∧
      (p.parse ⟨root, first ++ second⟩ tipset logs s).1 = .ok whole ∧
      (p.parse ⟨root, first⟩ tipset logs t).1 = .ok left ∧
      (p.parse ⟨root, second⟩ tipset logs u).1 = .ok right ∧
      whole.transactions = left.transactions ++ right.transactions ∧
      whole.skipped = left.skipped ++ right.skipped ∧
      whole.addresses = left.addresses.extend right.addresses ∧
      ∀ i, ∃ block records fees, (p.parse ⟨root, [i]⟩ tipset logs s).1 = .ok block ∧
        block.transactions = records ++ fees ∧
        p.IsWalked session logs i s records ∧ IsFee session.tipsetCid i fees := by
  obtain ⟨cid, -, hsession⟩ := session_eq_ok_of_ne_nil hk
  obtain ⟨fwhole, hwhole⟩ := exists_ledger hc hsession root (first ++ second) logs hs
  obtain ⟨fleft, hleft⟩ := exists_ledger hc hsession root first logs ht
  obtain ⟨fright, hright⟩ := exists_ledger hc hsession root second logs hu
  refine ⟨_, _, _, _, hsession, hwhole, hleft, hright, ?_, ?_, ?_, ?_⟩
  · simp [shares_append, Share.addTo, Share.append_def, Ledger.empty]
  · simp [shares_append, Share.addTo, Share.append_def, Ledger.empty]
  · simp only [shares_append, Share.addTo, Share.append_def, Ledger.empty, List.foldl_append]
    exact (AddressBook.extend_ofList _ _).symm
  · intro i
    obtain ⟨fblock, hblock⟩ := exists_ledger hc hsession root [i] logs hs
    refine ⟨_, _, _, hblock, ?_, isWalked_callRecords hc ⟨tipset, cid, .empty⟩ logs i hs,
      isFee_feeOf p _ (scopeOf ⟨tipset, cid, .empty⟩ logs i) i⟩
    simp [shares, share, Share.addTo, Share.append_def, Share.empty, Ledger.empty]

/-- A parser whose node knows nothing. -/
def plainParser : TraceParser :=
  ⟨.standard, .standard, .empty, .empty, InMemoryNode.empty.toNode⟩

/-- A message without calls that cost something. -/
def costlyInvocation : Invocation :=
  { bareInvocation with gasCost := some ⟨none, 1, 1, 0, 0, 1, 0, 2⟩ }

/-- A message whose call made two calls. -/
def tracedInvocation : Invocation :=
  let call (value : Int) (subcalls : List Trace) : Trace :=
    ⟨⟨.id 1, .id 2, value, 0, [], 0, none, none⟩, some ⟨some 0, [], 0, none⟩, none, subcalls, none⟩
  { costlyInvocation with recorded := some (call 3 [call 1 [], call 2 []]) }

/-- A transfer that failed before its execution started. -/
def sentMessage : Message := ⟨0, .id 3, .id 4, 0, 7, 1000, 0, 0, 0, []⟩

def sentInvocation : Invocation :=
  { costlyInvocation with
    message := some sentMessage
    receipt := some ⟨6, [], 11⟩
    error := "no funds" }

/-- The method, level and amount of each record. -/
def outline (records : List Transaction) : List (String × UInt16 × String) :=
  records.map fun t => (t.txType, t.level, t.amount)

/-- A message with a recorded trace, one with no more than a receipt, and one without either. Each of
them pays a fee. -/
theorem parse_append_costly :
    let first := [tracedInvocation]
    let second := [sentInvocation, costlyInvocation]
    plainParser.config.validate = .ok () ∧ (tipsetOf 1).key.cids ≠ [] ∧
      plainParser.resolver.Sound .empty ∧
      ∃ session whole left right,
        TraceParser.session (tipsetOf 1) = .ok session ∧
        (plainParser.parse ⟨none, first ++ second⟩ (tipsetOf 1) .empty .empty).1 = .ok whole ∧
        (plainParser.parse ⟨none, first⟩ (tipsetOf 1) .empty .empty).1 = .ok left ∧
        (plainParser.parse ⟨none, second⟩ (tipsetOf 1) .empty .empty).1 = .ok right ∧
        whole.transactions = left.transactions ++ right.transactions ∧
        whole.skipped = left.skipped ++ right.skipped ∧
        whole.addresses = left.addresses.extend right.addresses ∧
        outline left.transactions =
          [("Send", 0, "3"), ("Send", 1, "1"), ("Send", 1, "2"), ("Fee", 0, "2")] ∧
        outline right.transactions = [("Send", 0, "7"), ("Fee", 0, "2"), ("Fee", 0, "2")] ∧
        ∀ i ∈ first ++ second, ∃ block records fees,
          (plainParser.parse ⟨none, [i]⟩ (tipsetOf 1) .empty .empty).1 = .ok block ∧
          block.transactions = records ++ fees ∧
          plainParser.IsWalked session .empty i .empty records ∧
          IsFee session.tipsetCid i fees := by
  have hc : plainParser.config.validate = .ok () := rfl
  have hk : (tipsetOf 1).key.cids ≠ [] := List.cons_ne_nil _ _
  have hs : plainParser.resolver.Sound .empty := sound_of_cache_eq_nil _ rfl
  obtain ⟨session, whole, left, right, hsession, hwhole, hleft, hright, htransactions, hskipped,
    haddresses, hblocks⟩ :=
    parse_append hc hk .empty none [tracedInvocation] [sentInvocation, costlyInvocation] hs hs hs
  have hleftOutline : (plainParser.parse ⟨none, [tracedInvocation]⟩ (tipsetOf 1) .empty .empty).1.map
      (fun ledger => outline ledger.transactions) =
        .ok [("Send", 0, "3"), ("Send", 1, "1"), ("Send", 1, "2"), ("Fee", 0, "2")] := by
    decide +kernel
  have hrightOutline : (plainParser.parse ⟨none, [sentInvocation, costlyInvocation]⟩ (tipsetOf 1)
      .empty .empty).1.map (fun ledger => outline ledger.transactions) =
        .ok [("Send", 0, "7"), ("Fee", 0, "2"), ("Fee", 0, "2")] := by
    decide +kernel
  rw [hleft] at hleftOutline
  rw [hright] at hrightOutline
  exact ⟨hc, hk, hs, session, whole, left, right, hsession, hwhole, hleft, hright, htransactions,
    hskipped, haddresses, Except.ok.inj hleftOutline, Except.ok.inj hrightOutline,
    fun i _ => hblocks i⟩

end TraceParser
end TraceLedger
