import TraceLedger.Node.InMemory
import TraceLedger.Proofs.Walk.Traversal

/-! # The rules of a walk

What a walk makes of each call that it visits: a note on calls that are too deep or cannot be
decoded, and a record of every other call. The record tells where its call stands in the
trace. -/

namespace TraceLedger

namespace Visit

/-- The call of a visit, as it is decoded. -/
def call (w : Walker) (scope : Scope) (v : Visit) (receipt : Trace.Receipt) : Call :=
  w.callOf scope v.trace (w.actorOf v.trace (w.receiverKind scope v.trace.message))
    receipt.result

/-- A call is made by another one, which has a record and succeeded; its own record belongs
under that record. -/
def Calls (u v : Visit) : Prop :=
  v.trace ∈ u.trace.subcalls ∧ u.trace.isSuccess = true ∧ v.depth = u.depth + 1 ∧
    ∃ emitted, u.record? = some emitted ∧ v.parent = emitted.transaction.id

end Visit

namespace Walker

open Visit

theorem emit_of_decode_eq_ok {w : Walker} {scope : Scope} (frame : Frame) {index : Nat}
    {receiver : ActorKind} {receipt : Trace.Receipt} {decoded : DecodedCall}
    (h : frame.trace.receipt = .ok receipt)
    (hd : (w.callOf scope frame.trace (w.actorOf frame.trace receiver) receipt.result).decode
      (w.context scope) w.codecActors = .ok decoded) :
    let call := w.callOf scope frame.trace (w.actorOf frame.trace receiver) receipt.result
    w.emit scope frame index receiver = .ok {
      transaction := w.transaction scope frame index call.method
        (ExitStatus.ofCode receipt.exitCode) receipt.gasUsed decoded
      decoded := decoded
      isContract := call.isContractInvocation } := by
  simp [emit, emitFinished, h, hd]

/-- Where a visit comes in an itinerary: what it is a visit of, which records were made before,
and that it is at the top or is called by an earlier one. -/
structure Reached (w : Walker) (scope : Scope) (index : Nat) (top : Visit → Prop)
    (before : List Visit) (v : Visit) : Prop where
  visit : v = w.visitOf scope v.depth v.parent v.index v.trace
  depth_le : v.depth ≤ w.config.maxDepth.toNat
  index_eq : v.index = index + (Visit.records before).length
  link : top v ∨ ∃ u ∈ before, u.Calls v

mutual

theorem reached_itinerary {w : Walker} (scope : Scope) {depth : Nat}
    (hdepth : depth ≤ w.config.maxDepth.toNat) (parent : String) (index : Nat) (trace : Trace)
    {before : List Visit} {v : Visit} {rest : List Visit}
    (h : w.itinerary scope depth parent index trace = before ++ v :: rest) :
    w.Reached scope index
      (fun v => v.depth = depth ∧ v.parent = parent ∧ v.trace = trace) before v := by
  rw [itinerary_eq] at h
  cases before with
  | nil =>
      obtain ⟨rfl, -⟩ := List.cons.inj h
      exact ⟨rfl, hdepth, rfl, .inl ⟨rfl, rfl, rfl⟩⟩
  | cons first before =>
      obtain ⟨rfl, htail⟩ := List.cons.inj h
      cases hrecord : (w.visitOf scope depth parent index trace).record? with
      | none => simp [hrecord] at htail
      | some emitted =>
          rw [hrecord] at htail
          simp only at htail
          split at htail
          next hsuccess =>
            cases trace with
            | mk message outcome target subcalls error =>
              have hreached := reached_itineraries scope
                (Nat.succ_le_of_lt (lt_maxDepth_of_record?_visitOf hrecord))
                emitted.transaction.id (index + 1) subcalls htail
              refine ⟨hreached.visit, hreached.depth_le, ?_, .inr ?_⟩
              · rw [hreached.index_eq]
                simp [records, hrecord]
                omega
              · rcases hreached.link with ⟨hd, hp, ht⟩ | ⟨u, hu, hcalls⟩
                · exact ⟨_, List.mem_cons_self, ht, hsuccess, hd, emitted, hrecord, hp⟩
                · exact ⟨u, List.mem_cons_of_mem _ hu, hcalls⟩
          next => simp at htail

theorem reached_itineraries {w : Walker} (scope : Scope) {depth : Nat}
    (hdepth : depth ≤ w.config.maxDepth.toNat) (parent : String) (index : Nat)
    (traces : List Trace) {before : List Visit} {v : Visit} {rest : List Visit}
    (h : w.itineraries scope depth parent index traces = before ++ v :: rest) :
    w.Reached scope index
      (fun v => v.depth = depth ∧ v.parent = parent ∧ v.trace ∈ traces) before v := by
  cases traces with
  | nil => simp [itineraries] at h
  | cons trace traces =>
      rw [itineraries] at h
      -- The visit is one of the later traces, or one of the first trace.
      rcases List.append_eq_append_iff.mp h with ⟨middle, hbefore, hrest⟩ | ⟨middle, hfirst, hrest⟩
      · have hreached := reached_itineraries scope hdepth parent _ traces hrest
        refine ⟨hreached.visit, hreached.depth_le, ?_, ?_⟩
        · rw [hreached.index_eq, hbefore]
          simp [records]
          omega
        · rcases hreached.link with ⟨hd, hp, ht⟩ | ⟨u, hu, hcalls⟩
          · exact .inl ⟨hd, hp, List.mem_cons_of_mem _ ht⟩
          · exact .inr ⟨u, by simp [hbefore, hu], hcalls⟩
      · cases middle with
        | nil =>
            rw [List.append_nil] at hfirst
            have htraces : w.itineraries scope depth parent _ traces = [] ++ v :: rest := hrest.symm
            have hreached := reached_itineraries scope hdepth parent _ traces htraces
            refine ⟨hreached.visit, hreached.depth_le, ?_, ?_⟩
            · rw [hreached.index_eq, hfirst]
              simp [records]
            · rcases hreached.link with ⟨hd, hp, ht⟩ | ⟨u, hu, -⟩
              · exact .inl ⟨hd, hp, List.mem_cons_of_mem _ ht⟩
              · cases hu
        | cons u middle =>
            obtain ⟨rfl, -⟩ := List.cons.inj hrest
            have hreached := reached_itinerary scope hdepth parent index trace hfirst
            refine ⟨hreached.visit, hreached.depth_le, hreached.index_eq, ?_⟩
            rcases hreached.link with ⟨hd, hp, ht⟩ | hlink
            · exact .inl ⟨hd, hp, by simp [ht]⟩
            · exact .inr hlink

end

end Walker

/-! ## The records of a walk -/

/-- A record but for its metadata. -/
def Transaction.withoutMetadata (t : Transaction) : Transaction := { t with metadata := "" }

namespace Emitted

theorem map_withoutMetadata_addLogsAt (level : UInt16) (logs : List EthLog)
    (calls : List Emitted) :
    (addLogsAt level logs calls).map Transaction.withoutMetadata =
      calls.map (·.transaction.withoutMetadata) := by
  induction calls with
  | nil => rfl
  | cons e rest ih =>
      rw [addLogsAt]
      split
      · simp [withLogs, Transaction.withoutMetadata]
      · simp [ih]

/-- Logs change nothing but metadata. -/
theorem map_withoutMetadata_transactions (logs : List EthLog) (calls : List Emitted) :
    (transactions logs calls).map Transaction.withoutMetadata =
      calls.map (·.transaction.withoutMetadata) := by
  unfold transactions
  split
  · exact map_withoutMetadata_addLogsAt _ _ calls
  · simp

end Emitted

namespace Walker

open Visit

/-- A walker whose node knows nothing. -/
def unaided : Walker :=
  ⟨.standard, .standard, .empty, .empty, ⟨InMemoryNode.empty.toNode, .mainnet, .empty⟩⟩

/-- The message of a plain transfer. -/
def transfer : Trace.Message := ⟨.id 1, .id 2, 5, 0, [], 0, none, none⟩

/-- A call that succeeded, with a call below it that failed and one without a receipt. -/
def forked : Trace :=
  ⟨transfer, some ⟨some 0, [], 0, none⟩, none, [
    ⟨transfer, some ⟨some 16, [], 0, none⟩, none, [⟨transfer, none, none, [], none⟩], none⟩,
    ⟨transfer, none, none, [], none⟩], none⟩

/-- The scope of a message in a tipset without blocks. -/
def scopeOfMessage : Scope := ⟨⟨default, 0, 0, default, []⟩, "tipset", "", "message", .empty⟩

end Walker
end TraceLedger
