import TraceLedger.Parser.Builder
import TraceLedger.Proofs.Walk.Traversal

/-! # What a message adds

The share of a message in the ledger of its tipset is told without the state of the resolver and
without the messages before it. Only which lookups failed depends on what was known already. -/

namespace TraceLedger

/-- What messages add to a ledger, and the addresses that they resolve for it. -/
structure Share where
  transactions : List Transaction
  skipped : List SkippedCall
  /-- What is filed in the address book, in order. -/
  filed : List AddressInfo
  asked : List Address

namespace Share

def empty : Share := ⟨[], [], [], []⟩

instance : Append Share where
  append first second := {
    transactions := first.transactions ++ second.transactions
    skipped := first.skipped ++ second.skipped
    filed := first.filed ++ second.filed
    asked := first.asked ++ second.asked }

theorem append_def (first second : Share) :
    first ++ second = {
      transactions := first.transactions ++ second.transactions
      skipped := first.skipped ++ second.skipped
      filed := first.filed ++ second.filed
      asked := first.asked ++ second.asked } := rfl

@[simp] theorem empty_append (share : Share) : empty ++ share = share := by
  simp [append_def, empty]

theorem append_assoc (first second third : Share) :
    first ++ second ++ third = first ++ (second ++ third) := by
  simp [append_def, List.append_assoc]

/-- A share is added to a ledger, with the failures of its lookups. -/
def addTo (share : Share) (failures : List LookupFailure) (ledger : Ledger) : Ledger where
  transactions := ledger.transactions ++ share.transactions
  addresses := share.filed.foldl AddressBook.add ledger.addresses
  skipped := ledger.skipped ++ share.skipped
  failures := ledger.failures ++ failures

end Share

@[simp] theorem Emitted.transactions_nil (logs : List EthLog) : transactions logs [] = [] := by
  cases logs <;> rfl

namespace TraceParser

open Visit Resolver

/-- The visits of the walk through the calls of a message. -/
def visits (p : TraceParser) (session : ParseSession) (logs : EthLogs) (i : Invocation) :
    List Visit :=
  match i.trace? with
  | some trace =>
    p.walker.itinerary (scopeOf session logs i) 0 session.tipsetCid 0 trace
  | none => []

/-- The records of the calls of a message. -/
def callRecords (p : TraceParser) (session : ParseSession) (logs : EthLogs) (i : Invocation) :
    List Transaction :=
  Emitted.transactions (logs.ofMessage i.messageCid.toText) (records (p.visits session logs i))

/-- The notes on the calls of a message, or the note that there are none. -/
def callNotes (p : TraceParser) (session : ParseSession) (logs : EthLogs) (i : Invocation) :
    List SkippedCall :=
  match i.trace? with
  | some _ => p.walker.notes (scopeOf session logs i) (p.visits session logs i)
  | none => [untraced i.messageCid.toText]

/-- What a message adds. -/
def share (p : TraceParser) (session : ParseSession) (logs : EthLogs) (i : Invocation) :
    Share where
  transactions := p.callRecords session logs i ++
    (p.feeOf session (scopeOf session logs i) i).toList
  skipped := p.callNotes session logs i
  filed := (p.visits session logs i).flatMap (p.walker.filed (scopeOf session logs i))
  asked := (p.visits session logs i).flatMap p.walker.asked

/-- What messages add, one after the other. -/
def shares (p : TraceParser) (session : ParseSession) (logs : EthLogs) :
    List Invocation → Share
  | [] => .empty
  | i :: rest => p.share session logs i ++ p.shares session logs rest

theorem shares_append (p : TraceParser) (session : ParseSession) (logs : EthLogs)
    (first second : List Invocation) :
    p.shares session logs (first ++ second) =
      p.shares session logs first ++ p.shares session logs second := by
  induction first with
  | nil => simp [shares]
  | cons i rest ih => simp [shares, ih, Share.append_assoc]

/-- A share is added to the ledger of a session, and its addresses are resolved. -/
def absorb (p : TraceParser) (share : Share) (session : ParseSession) (s : ResolverState) :
    ParseSession × ResolverState :=
  let (failures, s) := p.resolver.resolveAll session.tipset.key share.asked s
  ({ session with ledger := share.addTo failures session.ledger }, s)

theorem absorb_empty (p : TraceParser) (session : ParseSession) (s : ResolverState) :
    p.absorb .empty session s = (session, s) := by
  simp [absorb, Share.empty, Share.addTo, resolveAll]

theorem absorb_append (p : TraceParser) (first second : Share) (session : ParseSession)
    (s : ResolverState) :
    p.absorb (first ++ second) session s =
      p.absorb second (p.absorb first session s).1 (p.absorb first session s).2 := by
  simp [absorb, Share.append_def, Share.addTo, resolveAll_append, List.append_assoc]

theorem sound_absorb (p : TraceParser) (share : Share) (session : ParseSession)
    {s : ResolverState} (hs : p.resolver.Sound s) :
    p.resolver.Sound (p.absorb share session s).2 :=
  hs.resolveAll session.tipset.key share.asked

/-- A message adds its share, whatever was parsed and resolved before. -/
theorem parseMessage_eq {p : TraceParser} (hc : p.config.validate = .ok ())
    (session : ParseSession) (logs : EthLogs) (i : Invocation) {s : ResolverState}
    (hs : p.resolver.Sound s) :
    p.parseMessage session logs i s = p.absorb (p.share session logs i) session s := by
  unfold parseMessage addCalls
  cases htrace : i.trace? with
  | none =>
      simp [absorb, share, visits, callRecords, callNotes, htrace, records, Share.addTo,
        resolveAll, scopeOf]
  | some trace =>
      have hlimit : p.walker.config.maxDepth.toNat ≤ 65535 := Config.maxDepth_le_of_validate hc
      have hwalk := Walker.walk_eq (scopeOf session logs i) hlimit session.tipsetCid trace
        session.ledger (s := s) hs
      simp only [hwalk]
      simp [absorb, share, visits, callRecords, callNotes, htrace, Share.addTo, Walker.after,
        Walker.start, walker, scopeOf]

/-- Shares do not depend on what a session has collected. -/
theorem shares_absorb (p : TraceParser) (added : Share) (session : ParseSession)
    (s : ResolverState) (logs : EthLogs) (messages : List Invocation) :
    p.shares (p.absorb added session s).1 logs messages = p.shares session logs messages := by
  induction messages with
  | nil => rfl
  | cons i rest ih => rw [shares, shares, ih]; rfl

/-- Messages add their shares in order. -/
theorem parseMessages_eq {p : TraceParser} (hc : p.config.validate = .ok ())
    (session : ParseSession) (logs : EthLogs) (messages : List Invocation) {s : ResolverState}
    (hs : p.resolver.Sound s) :
    p.parseMessages session logs messages s =
      p.absorb (p.shares session logs messages) session s := by
  induction messages generalizing session s with
  | nil => rw [parseMessages, shares, absorb_empty]
  | cons i rest ih =>
      rw [parseMessages, parseMessage_eq hc session logs i hs]
      simp only
      rw [ih _ (sound_absorb p _ session hs), shares_absorb, shares, absorb_append]

/-- A tipset with a key has a session, which begins without records. -/
theorem session_eq_ok_of_ne_nil {tipset : Tipset} (h : tipset.key.cids ≠ []) :
    ∃ cid, tipset.cidText = .ok cid ∧ session tipset = .ok ⟨tipset, cid, .empty⟩ := by
  have hcid : tipset.key.cid = .ok (.ofContent Cid.dagCbor tipset.key.preimage) := by
    rw [TipsetKey.cid, if_neg]
    simpa using h
  refine ⟨_, by rw [Tipset.cidText, hcid]; rfl, ?_⟩
  simp only [session, Tipset.cidText, hcid]
  rfl

/-- A whole parse collects the shares of its messages in an empty ledger. -/
theorem parse_eq {p : TraceParser} (hc : p.config.validate = .ok ()) {tipset : Tipset}
    {session : ParseSession} (hsession : TraceParser.session tipset = .ok session)
    (output : StateOutput) (logs : EthLogs) {s : ResolverState} (hs : p.resolver.Sound s) :
    p.parse output tipset logs s =
      (.ok (p.absorb (p.shares session logs output.invocations) session s).1.ledger,
        (p.absorb (p.shares session logs output.invocations) session s).2.clear
          tipset.key) := by
  have htipset : session.tipset = tipset := by
    unfold TraceParser.session at hsession
    split at hsession
    · cases hsession
      rfl
    · cases hsession
  simp only [parse, hsession, parseMessages_eq hc session logs output.invocations hs, close]
  simp [absorb, htipset]

end TraceParser
end TraceLedger
