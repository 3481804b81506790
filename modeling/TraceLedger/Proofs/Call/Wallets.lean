import TraceLedger.Proofs.Call.Typed
import TraceLedger.Proofs.Schema.Tuples

/-! # Calls of wallets

The parameters and results of wallets that many sign are records of a fixed size. What is shown of
them are the values that were written, each under the name of its field. A record of another size is
refused; so are the parameters of the constructor of another release, which has one field more or
one less. -/

namespace TraceLedger

open Cbor

/-- Parameters of the methods of wallets. -/
inductive WalletParams where
  /-- A wallet that cannot lock funds from an epoch on. -/
  | create (signers : List Address) (threshold : UInt64) (unlock : Int64)
  | createVesting (signers : List Address) (threshold : UInt64) (unlock start : Int64)
  | propose (target : Address) (value : Int) (method : UInt64) (params : List UInt8)
  | approve (id : Int64) (hash : List UInt8)
  | cancel (id : Int64) (hash : List UInt8)
  | addSigner (signer : Address) (increase : Bool)
  | removeSigner (signer : Address) (decrease : Bool)
  | swapSigner (old new : Address)
  | changeThreshold (threshold : UInt64)
  | lockBalance (start unlock : Int64) (amount : Int)

namespace WalletParams

def method : WalletParams → String
  | create .. => "Constructor"
  | createVesting .. => "Constructor"
  | propose .. => "Propose"
  | approve .. => "Approve"
  | cancel .. => "Cancel"
  | addSigner .. => "AddSigner"
  | removeSigner .. => "RemoveSigner"
  | swapSigner .. => "SwapSigner"
  | changeThreshold .. => "ChangeNumApprovalsThreshold"
  | lockBalance .. => "LockBalance"

/-- Whether wallets of the release take such parameters. -/
def InRelease (release : UInt32) : WalletParams → Prop
  | create .. => release < MethodSchema.vestingRelease
  | createVesting .. => MethodSchema.vestingRelease ≤ release
  | _ => True

/-- What is written of each field. -/
def items : WalletParams → List Datum
  | create signers threshold unlock =>
    [.list (signers.map .address), .word threshold, .integer unlock]
  | createVesting signers threshold unlock start =>
    [.list (signers.map .address), .word threshold, .integer unlock, .integer start]
  | propose target value method params =>
    [.address target, .amount value, .word method, .bytes params]
  | approve id hash => [.integer id, .bytes hash]
  | cancel id hash => [.integer id, .bytes hash]
  | addSigner signer increase => [.address signer, .bool increase]
  | removeSigner signer decrease => [.address signer, .bool decrease]
  | swapSigner old new => [.address old, .address new]
  | changeThreshold threshold => [.word threshold]
  | lockBalance start unlock amount => [.integer start, .integer unlock, .amount amount]

def toDatum (p : WalletParams) : Datum := .list p.items

/-- What is shown of each field. -/
def members (network : Network) : WalletParams → Json.Members
  | create signers threshold unlock => [
      ("Signers", .list (signers.map fun a => .text (a.toText network))),
      ("NumApprovalsThreshold", .nat threshold.toNat),
      ("UnlockDuration", .int unlock.toInt)]
  | createVesting signers threshold unlock start => [
      ("Signers", .list (signers.map fun a => .text (a.toText network))),
      ("NumApprovalsThreshold", .nat threshold.toNat),
      ("UnlockDuration", .int unlock.toInt),
      ("StartEpoch", .int start.toInt)]
  | propose target value method params => [
      ("To", .text (target.toText network)),
      ("Value", .text (toString value)),
      ("Method", .nat method.toNat),
      ("Params", .text (Base64.encode params))]
  | approve id hash => [("ID", .int id.toInt), ("ProposalHash", .text (Base64.encode hash))]
  | cancel id hash => [("ID", .int id.toInt), ("ProposalHash", .text (Base64.encode hash))]
  | addSigner signer increase =>
    [("Signer", .text (signer.toText network)), ("Increase", .bool increase)]
  | removeSigner signer decrease =>
    [("Signer", .text (signer.toText network)), ("Decrease", .bool decrease)]
  | swapSigner old new =>
    [("From", .text (old.toText network)), ("To", .text (new.toText network))]
  | changeThreshold threshold => [("NewThreshold", .nat threshold.toNat)]
  | lockBalance start unlock amount => [
      ("StartEpoch", .int start.toInt),
      ("UnlockDuration", .int unlock.toInt),
      ("Amount", .text (toString amount))]

def toJson (network : Network) (p : WalletParams) : Json := .object (p.members network)

end WalletParams

/-- Results of the methods of wallets. -/
inductive WalletResult where
  | propose (txn : Int64) (applied : Bool) (code : UInt32) (inner : List UInt8)
  | approve (applied : Bool) (code : UInt32) (inner : List UInt8)

namespace WalletResult

def method : WalletResult → String
  | propose .. => "Propose"
  | approve .. => "Approve"

/-- What is written of each field. -/
def items : WalletResult → List Datum
  | propose txn applied code inner =>
    [.integer txn, .bool applied, .word code.toUInt64, .bytes inner]
  | approve applied code inner => [.bool applied, .word code.toUInt64, .bytes inner]

def toDatum (r : WalletResult) : Datum := .list r.items

/-- The result of the call that was agreed on; none is null. -/
def innerJson (inner : List UInt8) : Json :=
  if inner.isEmpty then .null else .text (Base64.encode inner)

/-- What is shown of each field. -/
def members : WalletResult → Json.Members
  | propose txn applied code inner => [
      ("TxnID", .int txn.toInt),
      ("Applied", .bool applied),
      ("Code", .nat code.toNat),
      ("Ret", innerJson inner)]
  | approve applied code inner =>
    [("Applied", .bool applied), ("Code", .nat code.toNat), ("Ret", innerJson inner)]

def toJson (r : WalletResult) : Json := .object r.members

end WalletResult

/-! ## Schemas of wallets -/

open Schema

/-- The methods whose parameters or results have schemas. -/
def walletMethods : List String :=
  ["Constructor", "Propose", "Approve", "Cancel", "AddSigner", "RemoveSigner", "SwapSigner",
    "ChangeNumApprovalsThreshold", "LockBalance"]

theorem plainName_walletMethods : ∀ name ∈ walletMethods,
    Call.plainName name = name ∧ name ≠ VersionRegistry.unknownMethod := by decide

theorem creates_multisig (release : UInt32) (name : String) :
    (MethodSchema.multisig release name).creates = .nothing := by
  unfold MethodSchema.multisig
  split <;> rfl

theorem hasSchema_wallet (ctx : CallContext) {name method : String} (hname : name ∈ walletMethods)
    (h : method ∈ Call.names name) :
    Call.HasSchema ctx .multisig method (MethodSchema.multisig ctx.version.actors name) := by
  obtain ⟨hplain, hne⟩ := plainName_walletMethods name hname
  exact Call.hasSchema_of_mem_names hplain hne rfl h

theorem forall₂_shows_addresses (network : Network) (signers : List Address) :
    List.Forall₂ (Shows network .address) (signers.map .address)
      (signers.map fun a => .text (a.toText network)) := by
  rw [List.forall₂_map_left_iff, List.forall₂_map_right_iff, List.forall₂_same]
  exact fun a _ => shows_address a

namespace WalletParams

theorem multisigConstructor_of_lt {release : UInt32} (h : release < MethodSchema.vestingRelease) :
    MethodSchema.multisigConstructor release = .tuple [
      ("Signers", .list .address),
      ("NumApprovalsThreshold", .word),
      ("UnlockDuration", .integer)] := by
  rw [MethodSchema.multisigConstructor, if_pos h]
  rfl

theorem multisigConstructor_of_le {release : UInt32} (h : MethodSchema.vestingRelease ≤ release) :
    MethodSchema.multisigConstructor release = .tuple [
      ("Signers", .list .address),
      ("NumApprovalsThreshold", .word),
      ("UnlockDuration", .integer),
      ("StartEpoch", .integer)] := by
  rw [MethodSchema.multisigConstructor, if_neg (UInt32.not_lt.mpr h)]
  rfl

/-- Parameters have a schema of their size in every release that takes them, and are shown by it. -/
theorem exists_schema {release : UInt32} (p : WalletParams) (h : p.InRelease release) :
    ∃ fields, (MethodSchema.multisig release p.method).params = .typed (.tuple fields) ∧
      fields.length = p.items.length ∧
      ∀ network, ShowsFields network fields p.items (p.members network) := by
  cases p with
  | create signers threshold unlock =>
      exact ⟨_, congrArg SideSchema.typed (multisigConstructor_of_lt h), rfl, fun network =>
        .cons (shows_list (forall₂_shows_addresses network signers)) <|
          .cons (shows_word threshold) <| .cons (shows_integer unlock) showsFields_nil⟩
  | createVesting signers threshold unlock start =>
      exact ⟨_, congrArg SideSchema.typed (multisigConstructor_of_le h), rfl, fun network =>
        .cons (shows_list (forall₂_shows_addresses network signers)) <|
          .cons (shows_word threshold) <| .cons (shows_integer unlock) <|
            .cons (shows_integer start) showsFields_nil⟩
  | propose target value method params =>
      exact ⟨_, rfl, rfl, fun network =>
        .cons (shows_address target) <| .cons (shows_amount value) <|
          .cons (shows_word method) <| .cons (shows_base64 params) showsFields_nil⟩
  | approve id hash =>
      exact ⟨_, rfl, rfl, fun network =>
        .cons (shows_integer id) <| .cons (shows_base64 hash) showsFields_nil⟩
  | cancel id hash =>
      exact ⟨_, rfl, rfl, fun network =>
        .cons (shows_integer id) <| .cons (shows_base64 hash) showsFields_nil⟩
  | addSigner signer increase =>
      exact ⟨_, rfl, rfl, fun network =>
        .cons (shows_address signer) <| .cons (shows_bool increase) showsFields_nil⟩
  | removeSigner signer decrease =>
      exact ⟨_, rfl, rfl, fun network =>
        .cons (shows_address signer) <| .cons (shows_bool decrease) showsFields_nil⟩
  | swapSigner old new =>
      exact ⟨_, rfl, rfl, fun network =>
        .cons (shows_address old) <| .cons (shows_address new) showsFields_nil⟩
  | changeThreshold threshold =>
      exact ⟨_, rfl, rfl, fun network => .cons (shows_word threshold) showsFields_nil⟩
  | lockBalance start unlock amount =>
      exact ⟨_, rfl, rfl, fun network =>
        .cons (shows_integer start) <| .cons (shows_integer unlock) <|
          .cons (shows_amount amount) showsFields_nil⟩

/-- In the other releases the constructor takes parameters of another size. -/
theorem exists_schema_of_not_inRelease {release : UInt32} (p : WalletParams)
    (h : ¬p.InRelease release) :
    ∃ fields, (MethodSchema.multisig release p.method).params = .typed (.tuple fields) ∧
      p.items.length ≠ fields.length := by
  cases p with
  | create signers threshold unlock =>
      have hlate := UInt32.not_lt.mp h
      exact ⟨_, congrArg SideSchema.typed (multisigConstructor_of_le hlate), (by decide : 3 ≠ 4)⟩
  | createVesting signers threshold unlock start =>
      have hearly := UInt32.not_le.mp h
      exact ⟨_, congrArg SideSchema.typed (multisigConstructor_of_lt hearly), (by decide : 4 ≠ 3)⟩
  | _ => exact absurd trivial h

/-- The signers are the only list among the fields. -/
theorem depth_toDatum_le (p : WalletParams) : p.toDatum.toItem.depth ≤ 2 := by
  have hsigners (signers : List Address) :
      Item.itemsDepth (Datum.itemsToItems (signers.map .address)) = 0 :=
    Datum.itemsDepth_map (fun _ => rfl) signers
  cases p <;>
    simp [toDatum, items, Datum.toItem, Datum.itemsToItems, Item.depth, Item.itemsDepth, hsigners]

theorem isSome_toIpld? (p : WalletParams) : p.toDatum.toIpld?.isSome := by
  have hsigners (signers : List Address) : Datum.itemsToIpld? (signers.map .address) =
      some (signers.map fun a => .bytes a.toBytes) :=
    Datum.itemsToIpld?_map (fun _ => rfl) signers
  cases p <;> simp [toDatum, items, Datum.toIpld?, Datum.itemsToIpld?, hsigners]

theorem method_mem (p : WalletParams) : p.method ∈ walletMethods := by
  cases p <;> simp [method, walletMethods]

end WalletParams

namespace WalletResult

theorem exists_schema (r : WalletResult) (release : UInt32) :
    ∃ fields, (MethodSchema.multisig release r.method).result = .typed (.tuple fields) ∧
      fields.length = r.items.length ∧
      ∀ network, ShowsFields network fields r.items r.members := by
  cases r with
  | propose txn applied code inner =>
      exact ⟨_, rfl, rfl, fun network =>
        .cons (shows_integer txn) <| .cons (shows_bool applied) <|
          .cons (shows_exitCode code) <| .cons (shows_payload inner) showsFields_nil⟩
  | approve applied code inner =>
      exact ⟨_, rfl, rfl, fun network =>
        .cons (shows_bool applied) <| .cons (shows_exitCode code) <|
          .cons (shows_payload inner) showsFields_nil⟩

theorem depth_toDatum_le (r : WalletResult) : r.toDatum.toItem.depth ≤ 2 := by
  cases r <;>
    simp [toDatum, items, Datum.toItem, Datum.itemsToItems, Item.depth, Item.itemsDepth]

theorem method_mem (r : WalletResult) : r.method ∈ walletMethods := by
  cases r <;> simp [method, walletMethods]

end WalletResult

/-! ## Calls -/

namespace Call

theorem exists_params_shown {ctx : CallContext} (p : WalletParams)
    (hrelease : p.InRelease ctx.version.actors) (hfits : p.toDatum.Fits) :
    ∃ bytes, p.toDatum.toCbor? = some bytes ∧ ∀ method ∈ names p.method,
      shownParams? ctx .multisig method bytes = some (p.toJson ctx.network) := by
  obtain ⟨fields, hparams, hlength, hshows⟩ := p.exists_schema hrelease
  obtain ⟨v, hv⟩ := Option.isSome_iff_exists.mp p.isSome_toIpld?
  obtain ⟨bytes, hbytes, hread⟩ := Dag.roundTrips_of_reads
    (shows_tuple hlength (hshows ctx.network)) hfits p.depth_toDatum_le
  have hplain : (Dag.ipld? bytes).isSome := by
    rw [Dag.ipld?_of_toCbor? hbytes hv (Dag.two_mul_lt_fullBudget p.depth_toDatum_le)]
    rfl
  refine ⟨bytes, hbytes, fun method hmethod => ?_⟩
  rw [(hasSchema_wallet ctx p.method_mem hmethod).shownParams?, hparams]
  exact SideSchema.showParams?_typed (Datum.ne_nil_of_toCbor? hbytes) hplain hread nofun

theorem exists_result_shown {ctx : CallContext} (r : WalletResult) (hfits : r.toDatum.Fits) :
    ∃ bytes, r.toDatum.toCbor? = some bytes ∧ ∀ method ∈ names r.method,
      shownResult? ctx .multisig method bytes = some r.toJson := by
  obtain ⟨fields, hresult, hlength, hshows⟩ := r.exists_schema ctx.version.actors
  obtain ⟨bytes, hbytes, hread⟩ := Dag.roundTrips_of_reads
    (shows_tuple hlength (hshows ctx.network)) hfits r.depth_toDatum_le
  refine ⟨bytes, hbytes, fun method hmethod => ?_⟩
  rw [(hasSchema_wallet ctx r.method_mem hmethod).shownResult?, hresult]
  exact SideSchema.show?_typed (Datum.ne_nil_of_toCbor? hbytes) hread nofun

/-- How calls of wallets are decoded. -/
structure WalletsDecoded (ctx : CallContext) (actors : ActorRegistry) (methodNum : UInt64) :
    Prop where
  /-- What is written of parameters is shown field by field, beside any result that is shown. -/
  params : ∀ p : WalletParams, p.InRelease ctx.version.actors → p.toDatum.Fits →
    ∃ bytes, p.toDatum.toCbor? = some bytes ∧ ∀ method ∈ names p.method, ∀ result shown,
      shownResult? ctx .multisig method result = some shown →
        (Call.mk .multisig methodNum method bytes result).decode ctx actors =
          .ok (.ofSides methodNum (p.toJson ctx.network) shown none)
  /-- What is written of a result is shown field by field, beside any parameters that are shown. -/
  results : ∀ r : WalletResult, r.toDatum.Fits →
    ∃ bytes, r.toDatum.toCbor? = some bytes ∧ ∀ method ∈ names r.method, ∀ params shown,
      shownParams? ctx .multisig method params = some shown →
        (Call.mk .multisig methodNum method params bytes).decode ctx actors =
          .ok (.ofSides methodNum shown r.toJson none)
  both : ∀ (p : WalletParams) (r : WalletResult), p.method = r.method →
    p.InRelease ctx.version.actors → p.toDatum.Fits → r.toDatum.Fits →
      ∃ params result, p.toDatum.toCbor? = some params ∧ r.toDatum.toCbor? = some result ∧
        ∀ method ∈ names p.method,
          (Call.mk .multisig methodNum method params result).decode ctx actors =
            .ok (.ofSides methodNum (p.toJson ctx.network) r.toJson none)
  /-- A list of another size is refused, whatever stands in it. -/
  params_size : ∀ p : WalletParams, p.InRelease ctx.version.actors → ∀ size bytes rest,
    IsHeaded .list size bytes rest → size.toNat ≠ p.items.length →
      ∀ method ∈ names p.method, ∀ result,
        (Call.mk .multisig methodNum method bytes result).decode ctx actors =
          .error (.decode ActorKind.multisig.name method .params)
  results_size : ∀ (r : WalletResult) (size : UInt64) (bytes rest : List UInt8),
    IsHeaded .list size bytes rest → size.toNat ≠ r.items.length →
      ∀ method ∈ names r.method, ∀ params,
        (Call.mk .multisig methodNum method params bytes).decode ctx actors =
          .error (.decode ActorKind.multisig.name method
            (if (shownParams? ctx .multisig method params).isSome then .result else .params))
  /-- What the constructor takes in other releases is refused. -/
  other_release : ∀ p : WalletParams, ¬p.InRelease ctx.version.actors → ∀ bytes,
    p.toDatum.toCbor? = some bytes → ∀ method ∈ names p.method, ∀ result,
      (Call.mk .multisig methodNum method bytes result).decode ctx actors =
        .error (.decode ActorKind.multisig.name method .params)

section Wallets

variable {ctx : CallContext} {name method : String}

theorem decode_wallet_eq_ok (hname : name ∈ walletMethods) (hmethod : method ∈ names name)
    {params result : List UInt8} {shownParams shownResult : Json}
    (hparams : shownParams? ctx .multisig method params = some shownParams)
    (hresult : shownResult? ctx .multisig method result = some shownResult)
    (actors : ActorRegistry) (methodNum : UInt64) :
    (Call.mk .multisig methodNum method params result).decode ctx actors =
      .ok (.ofSides methodNum shownParams shownResult none) :=
  (hasSchema_wallet ctx hname hmethod).decode_eq_ok (creates_multisig _ _) actors methodNum hparams
    hresult

theorem decode_wallet_eq_error (hname : name ∈ walletMethods) (hmethod : method ∈ names name)
    {fields : List (String × Schema)}
    (hparams : (MethodSchema.multisig ctx.version.actors name).params = .typed (.tuple fields))
    {size : UInt64} {bytes rest : List UInt8} (hhead : IsHeaded .list size bytes rest)
    (hsize : size.toNat ≠ fields.length) (actors : ActorRegistry) (methodNum : UInt64)
    (result : List UInt8) :
    (Call.mk .multisig methodNum method bytes result).decode ctx actors =
      .error (.decode ActorKind.multisig.name method .params) := by
  have hrefused := (hasSchema_wallet ctx hname hmethod).params_refused hparams hhead hsize
  simp only [decode_eq, hrefused, decodeError]

end Wallets

/-- Wallets' calls are decoded to what was written of them, in every release, and a record of
another size is refused. -/
theorem wallets_decoded (ctx : CallContext) (actors : ActorRegistry) (methodNum : UInt64) :
    WalletsDecoded ctx actors methodNum where
  params p hrelease hfits := by
    obtain ⟨bytes, hbytes, hshown⟩ := exists_params_shown p hrelease hfits
    refine ⟨bytes, hbytes, fun method hmethod result shown hresult => ?_⟩
    exact decode_wallet_eq_ok p.method_mem hmethod (hshown method hmethod) hresult actors methodNum
  results r hfits := by
    obtain ⟨bytes, hbytes, hshown⟩ := exists_result_shown r hfits
    refine ⟨bytes, hbytes, fun method hmethod params shown hparams => ?_⟩
    exact decode_wallet_eq_ok r.method_mem hmethod hparams (hshown method hmethod) actors methodNum
  both p r hsame hrelease hpfits hrfits := by
    obtain ⟨params, hparams, hpshown⟩ := exists_params_shown p hrelease hpfits
    obtain ⟨result, hresult, hrshown⟩ := exists_result_shown r hrfits
    refine ⟨params, result, hparams, hresult, fun method hmethod => ?_⟩
    have hmethod' : method ∈ names r.method := hsame ▸ hmethod
    exact decode_wallet_eq_ok p.method_mem hmethod (hpshown method hmethod)
      (hrshown method hmethod') actors methodNum
  params_size p hrelease size bytes rest hhead hsize method hmethod result := by
    obtain ⟨fields, hparams, hlength, -⟩ := p.exists_schema hrelease
    rw [← hlength] at hsize
    exact decode_wallet_eq_error p.method_mem hmethod hparams hhead hsize actors methodNum result
  results_size r size bytes rest hhead hsize method hmethod params := by
    obtain ⟨fields, hresult, hlength, -⟩ := r.exists_schema ctx.version.actors
    rw [← hlength] at hsize
    have hrefused := (hasSchema_wallet ctx r.method_mem hmethod).result_refused hresult hhead hsize
    rw [decode_eq, hrefused]
    cases shownParams? ctx .multisig method params <;> rfl
  other_release p hrelease bytes hbytes method hmethod result := by
    obtain ⟨fields, hparams, hlength⟩ := p.exists_schema_of_not_inRelease hrelease
    obtain ⟨body, -, hsize, rfl⟩ := Dag.exists_body_of_list hbytes
    rw [← hsize] at hlength
    exact decode_wallet_eq_error p.method_mem hmethod hparams (isHeaded_head _ _ body) hlength
      actors methodNum result

end Call
end TraceLedger
