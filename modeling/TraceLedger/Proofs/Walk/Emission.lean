import TraceLedger.Proofs.Call.Sides
import TraceLedger.Walk.Basic

/-! # The record of one call

What a record tells of its call, whether the call could be decoded or only its bytes are
shown. -/

namespace TraceLedger

namespace DecodedCall

/-- The names of the fields that every decoding has. -/
def sideNames : List String := ["MethodNum", "Params", "Return"]

/-- The metadata holds these fields and no others. -/
def IsPlain (d : DecodedCall) : Prop := d.metadata.map Prod.fst = sideNames

theorem isPlain_ofSides (methodNum : UInt64) (params result : Json)
    (created : Option AddressInfo) : (ofSides methodNum params result created).IsPlain := rfl

theorem isPlain_raw (methodNum : UInt64) (params result : List UInt8) :
    (raw methodNum params result).IsPlain := rfl

/-- A field of another name comes last. -/
theorem IsPlain.metadata_insert {d : DecodedCall} (h : d.IsPlain) {name : String}
    (hname : name ∉ sideNames) (value : Json) :
    (d.insert name value).metadata = d.metadata ++ [(name, value)] := by
  have habsent : ¬ d.metadata.any (·.1 = name) = true := by
    rw [List.any_eq_true]
    rintro ⟨field, hfield, hkey⟩
    apply hname
    rw [← h, ← of_decide_eq_true hkey]
    exact List.mem_map_of_mem hfield
  rw [insert, Json.Members.insert, if_neg habsent]

end DecodedCall

theorem Call.isPlain_decode {ctx : CallContext} {actors : ActorRegistry} {c : Call}
    {d : DecodedCall} (h : c.decode ctx actors = .ok d) : d.IsPlain := by
  rw [decode_eq] at h
  split at h
  · cases h
  · split at h
    · cases h
    · cases h
      exact DecodedCall.isPlain_ofSides _ _ _ _

namespace Walker

/-- The decoding of a call with a receipt; of a call without one the bytes are shown. -/
def decodingOf (w : Walker) (scope : Scope) (trace : Trace) (receiver : ActorKind) :
    Except Error DecodedCall :=
  match trace.receipt with
  | .error _ => .ok (.raw trace.message.method trace.message.params [])
  | .ok receipt =>
    (w.callOf scope trace (w.actorOf trace receiver) receipt.result).decode (w.context scope)
      w.codecActors

/-- The method that a record names; of a call without a receipt it is unknown. -/
def nameOf (w : Walker) (scope : Scope) (trace : Trace) (receiver : ActorKind) : String :=
  match trace.receipt with
  | .error _ => VersionRegistry.unknownMethod
  | .ok _ => w.methodOf scope (w.actorOf trace receiver) trace.message.method

/-- A call has a receipt and enters a contract. -/
def EntersContract (w : Walker) (scope : Scope) (trace : Trace) (receiver : ActorKind) : Prop :=
  ∃ receipt, trace.receipt = .ok receipt ∧
    (w.callOf scope trace (w.actorOf trace receiver) receipt.result).isContractInvocation = true

/-- What the record of a call tells. -/
structure Describes (w : Walker) (scope : Scope) (frame : Frame) (index : Nat)
    (receiver : ActorKind) (e : Emitted) : Prop where
  level : e.transaction.level = frame.level
  parentId : e.transaction.parentId = frame.parent
  txHash : e.transaction.txHash = scope.messageCid
  id : e.transaction.id = RecordId.ofParts
    [scope.tipsetCid, scope.blockCid, scope.messageCid, frame.parent, e.transaction.txType,
      toString index]
  txType : e.transaction.txType = w.nameOf scope frame.trace receiver
  decoding : w.decodingOf scope frame.trace receiver = .ok e.decoded
  metadata : e.transaction.metadata = e.decoded.toText
  isPlain : e.decoded.IsPlain
  isContract_iff : e.isContract = true ↔ w.EntersContract scope frame.trace receiver

theorem describes_of_emit {w : Walker} {scope : Scope} {frame : Frame} {index : Nat}
    {receiver : ActorKind} {e : Emitted} (h : w.emit scope frame index receiver = .ok e) :
    w.Describes scope frame index receiver e := by
  unfold emit at h
  split at h
  next error hreceipt =>
    cases h
    refine ⟨rfl, rfl, rfl, rfl, ?_, ?_, rfl, DecodedCall.isPlain_raw _ _ _, ?_⟩
    · rw [nameOf, hreceipt]
      rfl
    · rw [decodingOf, hreceipt]
      rfl
    · simp [EntersContract, hreceipt, emitUnfinished]
  next receipt hreceipt =>
    simp only [emitFinished] at h
    split at h
    · cases h
    next decoded hdecode =>
      cases h
      refine ⟨rfl, rfl, rfl, rfl, ?_, ?_, rfl, Call.isPlain_decode hdecode, ?_⟩
      · rw [nameOf, hreceipt]
        rfl
      · rw [decodingOf, hreceipt]
        exact hdecode
      · simp [EntersContract, hreceipt]

end Walker
end TraceLedger
