import TraceLedger.Proofs.Call.Typed

/-! # Calls of contracts

What goes in and out of a contract is a byte string, or the bytes as they are. Either is shown in
hexadecimal; but parameters get that far only if they are well formed, so what is not CBOR at all
is shown as a result and refused as parameters. -/

namespace TraceLedger

open Cbor

namespace SideSchema

/-- Input or output of a contract, as shown; none is null. -/
def contractJson (bytes : List UInt8) : Json :=
  if bytes.isEmpty then .null else Schema.hexText (Call.contractBytes bytes)

theorem show?_contract (network : Network) (bytes : List UInt8) :
    SideSchema.contract.show? network bytes = some (contractJson bytes) := by
  unfold show? contractJson
  split <;> rfl

theorem showParams?_contract (network : Network) (bytes : List UInt8) :
    SideSchema.contract.showParams? network bytes =
      if bytes ≠ [] ∧ Dag.ipld? bytes = none then none else some (contractJson bytes) := by
  rw [showParams?, show?_contract]
  cases bytes with
  | nil => rfl
  | cons b rest => simp

theorem contractJson_of_run_eq_some {content bytes : List UInt8} (hne : bytes ≠ [])
    (h : Dag.run Dag.bytes bytes = some content) :
    contractJson bytes = Schema.hexText content := by
  simp [contractJson, Call.contractBytes, hne, h]

theorem contractJson_of_run_eq_none {bytes : List UInt8} (hne : bytes ≠ [])
    (h : Dag.run Dag.bytes bytes = none) : contractJson bytes = Schema.hexText bytes := by
  simp [contractJson, Call.contractBytes, hne, h]

end SideSchema

namespace Call

open SideSchema

/-- What a call into a contract comes to. -/
def invocation (methodNum : UInt64) (params result : List UInt8) : Except Error DecodedCall :=
  if params ≠ [] ∧ Dag.ipld? params = none then
    .error (.decode ActorKind.evm.name "InvokeContract" .params)
  else .ok (.ofSides methodNum (contractJson params) (contractJson result) none)

/-- How calls into contracts are decoded. -/
structure InvocationsDecoded (ctx : CallContext) (actors : ActorRegistry) (methodNum : UInt64) :
    Prop where
  decode_eq : ∀ params result,
    (Call.mk .evm methodNum "InvokeContract" params result).decode ctx actors =
      invocation methodNum params result
  /-- A byte string in one piece is well formed. -/
  ipld?_sized : ∀ content bytes, IsSized .bytes content bytes → (Dag.ipld? bytes).isSome
  /-- A byte string in chunks is not. -/
  ipld?_chunked : ∀ rest, Dag.ipld? (Kind.bytes.openHead :: rest) = none
  json_nil : contractJson [] = .null
  json_byteString : ∀ content bytes, IsByteString content bytes →
    contractJson bytes = Schema.hexText content
  /-- A number in front of so many bytes is taken for the head of a byte string. -/
  json_number : ∀ content bytes, IsSized .unsigned content bytes →
    contractJson bytes = Schema.hexText content
  /-- Anything else is shown as it is. What begins like chunks and is no byte string is left
  out. -/
  json_other : ∀ bytes, bytes ≠ [] → bytes.head? ≠ some Kind.bytes.openHead →
    (∀ content, ¬IsSized .bytes content bytes) → (∀ content, ¬IsSized .unsigned content bytes) →
    contractJson bytes = Schema.hexText bytes

theorem hasSchema_invokeContract (ctx : CallContext) :
    HasSchema ctx .evm "InvokeContract" { params := .contract, result := .contract } :=
  hasSchema_of_mem_names (by decide) (by decide) rfl List.mem_cons_self

theorem shownParams?_invokeContract (ctx : CallContext) (bytes : List UInt8) :
    shownParams? ctx .evm "InvokeContract" bytes =
      if bytes ≠ [] ∧ Dag.ipld? bytes = none then none else some (contractJson bytes) := by
  rw [(hasSchema_invokeContract ctx).shownParams?]
  exact showParams?_contract ctx.network bytes

theorem shownResult?_invokeContract (ctx : CallContext) (bytes : List UInt8) :
    shownResult? ctx .evm "InvokeContract" bytes = some (contractJson bytes) := by
  rw [(hasSchema_invokeContract ctx).shownResult?]
  exact show?_contract ctx.network bytes

theorem decode_invokeContract (ctx : CallContext) (actors : ActorRegistry) (methodNum : UInt64)
    (params result : List UInt8) :
    (Call.mk .evm methodNum "InvokeContract" params result).decode ctx actors =
      invocation methodNum params result := by
  have hcreated :
      created? ctx actors ⟨.evm, methodNum, "InvokeContract", params, result⟩ = none :=
    (hasSchema_invokeContract ctx).created? actors methodNum params result
  rw [decode_eq, shownParams?_invokeContract, shownResult?_invokeContract, hcreated, invocation]
  by_cases hrefused : params ≠ [] ∧ Dag.ipld? params = none
  · rw [if_pos hrefused, if_pos hrefused]
    rfl
  · rw [if_neg hrefused, if_neg hrefused]

/-- What goes into a contract must be well formed; then both sides are shown as byte strings or as
they are. -/
theorem invocations_decoded (ctx : CallContext) (actors : ActorRegistry) (methodNum : UInt64) :
    InvocationsDecoded ctx actors methodNum where
  decode_eq := decode_invokeContract ctx actors methodNum
  ipld?_sized content bytes h := by
    rw [Dag.ipld?_of_isSized h]
    rfl
  ipld?_chunked := Dag.ipld?_openHead
  json_nil := rfl
  json_byteString content bytes h :=
    contractJson_of_run_eq_some h.ne_nil (Dag.run_bytes_of_isByteString h)
  json_number content bytes h :=
    contractJson_of_run_eq_some h.ne_nil (Dag.run_bytes_of_isSized (.inr rfl) h)
  json_other bytes hne hopen hbytes hnumber := by
    refine contractJson_of_run_eq_none hne (Option.eq_none_iff_forall_ne_some.mpr ?_)
    intro content hrun
    rcases Dag.isSized_of_run_bytes_eq_some hopen hrun with h | h
    · exact hbytes content h
    · exact hnumber content h

/-- Bytes of code that are no CBOR are refused as parameters of a contract, and a result of one zero
is shown as no bytes. -/
theorem decode_invokeContract_raw_bytes :
    let ctx : CallContext := ⟨.mainnet, VersionRegistry.standard.latest, ""⟩
    (Call.mk .evm 2 "InvokeContract" [0x60, 0x80] []).decode ctx .empty =
        .error (.decode "evm" "InvokeContract" .params) ∧
      (Call.mk .evm 2 "InvokeContract" [] [0x00]).decode ctx .empty =
        .ok (.ofSides 2 .null (.text "0x") none) := by
  have hmalformed : Dag.ipld? [0x60, 0x80] = none := rfl
  have hnumber : IsSized .unsigned [] [0x00] := ⟨0, [], 0, rfl, rfl, rfl⟩
  have hshown := contractJson_of_run_eq_some hnumber.ne_nil
    (Dag.run_bytes_of_isSized (.inr rfl) hnumber)
  constructor
  · rw [decode_invokeContract, invocation, if_pos ⟨List.cons_ne_nil _ _, hmalformed⟩]
    rfl
  · rw [decode_invokeContract, invocation, if_neg fun h => h.1 rfl, hshown]
    rfl

end Call
end TraceLedger
