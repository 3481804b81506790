import TraceLedger.Proofs.Cbor.Records
import TraceLedger.Trace.Output

/-! # Outputs read back from DAG-CBOR

Each part of an output is read back from what is written of it, field by field. -/

namespace TraceLedger

open Cbor.Lenient

/-! ## Traces -/

namespace Trace

theorem undoes_message : Undoes (Readable.read : Reader Message) Writable.datum where
  reads m := (reads_record (by decide) <|
    .present (undoes_address.reads m.sender) <|
    .present (undoes_address.reads m.receiver) <|
    .present (undoes_amount.reads m.value) <|
    .present (undoes_u64.reads m.method) <|
    .present (undoes_payload.reads m.params) <|
    .present (undoes_u64.reads m.paramsCodec) <|
    .present (undoes_u64.optional m.gasLimit) <|
    .present (undoes_bool.optional m.readOnly) .nil).bind fun _ _ => rfl
  ne_null _ := nofun

theorem undoes_outcome : Undoes (Readable.read : Reader Outcome) Writable.datum where
  reads o := (reads_record (by decide) <|
    .present (undoes_u32.optional o.exitCode) <|
    .present (undoes_payload.reads o.result) <|
    .present (undoes_u64.reads o.resultCodec) <|
    undoes_i64.holds_field? "GasUsed" o.gasUsed).bind fun _ _ => rfl
  ne_null _ := nofun

theorem undoes_targetState : Undoes (Readable.read : Reader TargetState) Writable.datum where
  reads s := (reads_record (by decide) <|
    .present (undoes_link.reads s.code) <|
    .present (undoes_address.optional s.delegated) .nil).bind fun _ _ => rfl
  ne_null _ := nofun

theorem undoes_target : Undoes (Readable.read : Reader Target) Writable.datum where
  reads t := (reads_record (by decide) <|
    .present (undoes_u64.reads t.id) <|
    .present (undoes_targetState.reads t.state) .nil).bind fun _ _ => rfl
  ne_null _ := nofun

theorem datumList_eq (traces : List Trace) : datumList traces = traces.map datum := by
  induction traces with
  | nil => rfl
  | cons trace traces ih => rw [datumList, ih, List.map_cons]

/-- One level of a trace, given that the calls below it are read back. -/
theorem reads_node {subcall : Reader Trace} (t : Trace)
    (h : ∀ u ∈ t.subcalls, Reads subcall (datum u) u) : Reads (readNode subcall) (datum t) t := by
  cases t with
  | mk message outcome target subcalls error =>
      have hlist : Reads (Source.list subcall) (.list (datumList subcalls)) subcalls := by
        rw [datumList_eq]
        exact reads_list h
      -- The reader of the calls below is arbitrary, so the names are decided by themselves.
      refine (reads_record ?_ <|
        .present (undoes_message.reads message) <|
        .present (undoes_outcome.optional outcome) <|
        .present (undoes_target.optional target) <|
        .present (hlist.orDefault nofun []) <|
        undoes_text.holds_field? "Error" error).bind fun _ _ => rfl
      show AreNames ["Msg", "MsgRct", "InvokedActor", "Subcalls", "Error"]
      decide

/-- The calls below a call are nested in its record and in their list. -/
theorem depth_subcalls_lt (message : Message) (outcome : Option Outcome) (target : Option Target)
    (subcalls : List Trace) (error : Option String) :
    Cbor.Item.itemsDepth (Datum.itemsToItems (datumList subcalls)) <
      (datum ⟨message, outcome, target, subcalls, error⟩).toItem.depth := by
  simp only [datum, Datum.toItem, List.cons_append, Datum.fieldsToEntries, Cbor.Item.depth,
    Cbor.Item.entriesDepth]
  omega

mutual

/-- As many levels are read as are written. -/
theorem reads_repeat (t : Trace) {n : Nat} (h : (datum t).toItem.depth < n) :
    Reads (Nat.repeat readNode n Reader.refuse) (datum t) t := by
  cases n with
  | zero => cases h
  | succ n =>
      apply reads_node
      cases t with
      | mk message outcome target subcalls error =>
          have hdepth := depth_subcalls_lt message outcome target subcalls error
          exact reads_repeat_of_mem subcalls (by omega)

theorem reads_repeat_of_mem (traces : List Trace) {n : Nat}
    (h : Cbor.Item.itemsDepth (Datum.itemsToItems (datumList traces)) < n) :
    ∀ t ∈ traces, Reads (Nat.repeat readNode n Reader.refuse) (datum t) t := by
  cases traces with
  | nil => nofun
  | cons trace traces =>
      simp only [datumList, Datum.itemsToItems, Cbor.Item.itemsDepth, Nat.max_lt] at h
      intro t ht
      rcases List.mem_cons.mp ht with heq | ht
      · rw [heq]
        exact reads_repeat trace h.1
      · exact reads_repeat_of_mem traces h.2 t ht

end

theorem undoes_trace : Undoes (Readable.read : Reader Trace) Writable.datum where
  reads t := by
    intro out hout budget hbudget
    exact reads_repeat t (Nat.lt_succ_of_lt hbudget) hout hbudget
  ne_null t := by
    cases t
    nofun

end Trace

/-! ## Outputs -/

theorem undoes_message : Undoes (Readable.read : Reader Message) Writable.datum where
  reads m := (reads_record (by decide) <|
    .present (undoes_u64.reads m.version) <|
    .present (undoes_address.reads m.receiver) <|
    .present (undoes_address.reads m.sender) <|
    .present (undoes_u64.reads m.nonce) <|
    .present (undoes_amount.reads m.value) <|
    .present (undoes_u64.reads m.gasLimit) <|
    .present (undoes_amount.reads m.gasFeeCap) <|
    .present (undoes_amount.reads m.gasPremium) <|
    .present (undoes_u64.reads m.method) <|
    .present (undoes_payload.reads m.params) .nil).bind fun _ _ => rfl
  ne_null _ := nofun

theorem undoes_receipt : Undoes (Readable.read : Reader Receipt) Writable.datum where
  reads r := (reads_record (by decide) <|
    .present (undoes_u32.reads r.exitCode) <|
    .present (undoes_payload.reads r.result) <|
    .present (undoes_i64.reads r.gasUsed) .nil).bind fun _ _ => rfl
  ne_null _ := nofun

theorem undoes_gasCost : Undoes (Readable.read : Reader GasCost) Writable.datum where
  reads c := (reads_record (by decide) <|
    .present (undoes_link.optional c.message) <|
    .present (undoes_amount.reads c.gasUsed) <|
    .present (undoes_amount.reads c.baseFeeBurn) <|
    .present (undoes_amount.reads c.overEstimationBurn) <|
    .present (undoes_amount.reads c.minerPenalty) <|
    .present (undoes_amount.reads c.minerTip) <|
    .present (undoes_amount.reads c.refund) <|
    .present (undoes_amount.reads c.totalCost) .nil).bind fun _ _ => rfl
  ne_null _ := nofun

theorem undoes_invocation : Undoes (Readable.read : Reader Invocation) Writable.datum where
  reads i := (reads_record (by decide) <|
    .present (undoes_link.reads i.messageCid) <|
    .present (undoes_message.optional i.message) <|
    .present (undoes_receipt.optional i.receipt) <|
    .present (undoes_gasCost.optional i.gasCost) <|
    .present (Trace.undoes_trace.optional i.recorded) <|
    .present ((undoes_text.reads i.error).orDefault nofun "") <|
    .present (undoes_u64.reads i.duration) .nil).bind fun _ _ => rfl
  ne_null _ := nofun

theorem undoes_stateOutput : Undoes (Readable.read : Reader StateOutput) Writable.datum where
  reads o := by
    have hlist : Reads (Source.list Readable.read) (.list (o.invocations.map Writable.datum))
        o.invocations := reads_list fun i _ => undoes_invocation.reads i
    exact (reads_record (by decide) <|
      .present (undoes_link.optional o.root) <|
      .present (hlist.orDefault nofun []) .nil).bind fun _ _ => rfl
  ne_null _ := nofun

end TraceLedger
