import TraceLedger.Call.Decode
import TraceLedger.Proofs.Call.Filling

/-! # Decoders follow the tables

The decoder of each actor fills in what the table of its methods says: parameters are read first,
each side is set from its own bytes, and what was created is told by the addresses in the result. -/

namespace TraceLedger

open Cbor

namespace Call

/-- What the table says of a call, before the sides that are null are filled in. -/
def follow (c : Call) (ctx : CallContext) (actors : ActorRegistry) (schema : MethodSchema) :
    Except Error DecodedCall :=
  c.ofShown (schema.params.set? ctx.network c.params) (schema.result.set? ctx.network c.result)
    (schema.creates.created? ctx actors c.params c.result)

section Shapes

variable {c : Call} {ctx : CallContext}

/-- A step for each side follows a table that creates nothing. -/
theorem follow_of_sets (actors : ActorRegistry) (schema : MethodSchema)
    {fillParams fillResult : DecodedCall → Except Error DecodedCall}
    (hparams : c.Sets .params fillParams (schema.params.set? ctx.network c.params))
    (hresult : c.Sets .result fillResult (schema.result.set? ctx.network c.result))
    (hcreates : schema.creates = .nothing) :
    fillParams (.start c.methodNum) >>= fillResult = c.follow ctx actors schema := by
  rw [hparams.params, hresult.result, follow, hcreates]
  rfl

variable {schema : Schema} {r : Dag.Reader α} {shown : α → Json} {code : α → Cid}

/-- A creation with the code that is read from the parameters. -/
theorem follow_execution (actors : ActorRegistry) {size : Nat} (hnil : Dag.run r [] = none)
    (hshown : schema.read ctx.network = shown <$> r)
    (hcode : Creation.code? size c.params = (Dag.run r c.params).map code) :
    (do
      let (execution, out) ← c.fillAs .params r shown (.start c.methodNum)
      c.fillNewActor ctx (execution.map code) (actors.nameOf (execution.map code)) out) =
      c.follow ctx actors {
        params := .typed schema
        result := .typed MethodSchema.newActor
        creates := .actor size } := by
  rw [c.fillAs_eq ctx hnil hshown rfl, bytes_params, follow]
  simp only [Creation.created?, hcode]
  rw [← fillNewActor_eq]
  cases (SideSchema.typed schema).set? ctx.network c.params <;> rfl

end Shapes

variable (c : Call) (ctx : CallContext) (actors : ActorRegistry)

theorem follow_plain : .ok (.start c.methodNum) = c.follow ctx actors {} := by
  exact follow_of_sets actors {} (c.sets_nothing ctx .params) (c.sets_nothing ctx .result) rfl

theorem follow_params (schema : Schema) :
    c.fill ctx .params schema (.start c.methodNum) =
      c.follow ctx actors { params := .typed schema } := by
  have h := follow_of_sets actors { params := .typed schema } (c.sets_fill ctx .params schema)
    (c.sets_nothing ctx .result) rfl
  rw [← h]
  exact (bind_pure _).symm

theorem follow_result (schema : Schema) :
    c.fill ctx .result schema (.start c.methodNum) =
      c.follow ctx actors { result := .typed schema } := by
  exact follow_of_sets actors { result := .typed schema } (c.sets_nothing ctx .params)
    (c.sets_fill ctx .result schema) rfl

theorem follow_both (params result : Schema) :
    c.fill ctx .params params (.start c.methodNum) >>= c.fill ctx .result result =
      c.follow ctx actors { params := .typed params, result := .typed result } :=
  follow_of_sets actors _ (c.sets_fill ctx .params params) (c.sets_fill ctx .result result) rfl

theorem follow_newContract (schema : Schema) :
    (do
      let out ← c.fill ctx .params schema (.start c.methodNum)
      c.fillNewContract ctx out) =
      c.follow ctx actors {
        params := .typed schema
        result := .typed MethodSchema.newContract
        creates := .contract } := by
  have hparams := (c.sets_fill ctx .params schema).params
  rw [hparams]
  exact c.fillNewContract_eq ctx _

/-! ## The decoders

Most methods are of one of the shapes above, and those without a schema are left alone. The others
come first. -/

theorem fillAccount_eq (method : String) :
    c.fillAccount ctx method (.start c.methodNum) =
      c.follow ctx actors (MethodSchema.account method) := by
  fun_cases MethodSchema.account method
  case case4 =>
    simp only [fillAccount]
    exact c.follow_plain ctx actors
  all_goals
    first
    | exact c.follow_params ctx actors _
    | exact c.follow_result ctx actors _

theorem fillInit_eq (method : String) :
    c.fillInit ctx actors method (.start c.methodNum) =
      c.follow ctx actors (MethodSchema.init method) := by
  fun_cases MethodSchema.init method
  case case2 =>
    rw [← follow_execution actors rfl (Schema.read_execution ctx.network) (Creation.code?_execution _)]
    exact bind_assoc _ _ _
  case case3 =>
    rw [← follow_execution actors rfl (Schema.read_namedExecution ctx.network)
      (Creation.code?_namedExecution _)]
    exact bind_assoc _ _ _
  case case4 =>
    simp only [fillInit]
    exact c.follow_plain ctx actors
  case case1 => exact c.follow_params ctx actors _

theorem fillCron_eq (method : String) :
    c.fillCron ctx method (.start c.methodNum) =
      c.follow ctx actors (MethodSchema.cron method) := by
  fun_cases MethodSchema.cron method
  case case1 => exact c.follow_params ctx actors _
  case case2 h =>
    rw [fillCron, if_neg h]
    exact c.follow_plain ctx actors

theorem fillReward_eq (method : String) :
    c.fillReward ctx method (.start c.methodNum) =
      c.follow ctx actors (MethodSchema.reward ctx.version.actors method) := by
  fun_cases MethodSchema.reward ctx.version.actors method
  case case2 =>
    rw [MethodSchema.epochReward, ← follow_result]
    split
    next h => exact if_pos h
    next h => exact if_neg h
  case case5 =>
    simp only [fillReward]
    exact c.follow_plain ctx actors
  all_goals exact c.follow_params ctx actors _

theorem fillPower_eq (method : String) :
    c.fillPower ctx method (.start c.methodNum) =
      c.follow ctx actors (MethodSchema.power ctx.version.actors method) := by
  fun_cases MethodSchema.power ctx.version.actors method
  case case1 =>
    have hparams := (c.sets_fill ctx .params MethodSchema.minerCreation).params
    show c.fill ctx .params MethodSchema.minerCreation (.start c.methodNum) >>= _ = _
    rw [hparams]
    exact c.fillNewActor_eq ctx none ActorKind.miner.name _
  case case3 =>
    rw [MethodSchema.totalPower, ← follow_result]
    split
    next h => exact if_neg (UInt32.not_le.mpr h)
    next h => exact if_pos (UInt32.not_lt.mp h)
  case case10 =>
    simp only [fillPower]
    exact c.follow_plain ctx actors
  all_goals
    first
    | exact c.follow_params ctx actors _
    | exact c.follow_result ctx actors _
    | exact c.follow_both ctx actors _ _

theorem fillMiner_eq (method : String) :
    c.fillMiner ctx method (.start c.methodNum) =
      c.follow ctx actors (MethodSchema.miner method) := by
  fun_cases MethodSchema.miner method
  case case14 =>
    simp only [fillMiner]
    exact c.follow_plain ctx actors
  all_goals
    first
    | exact c.follow_params ctx actors _
    | exact c.follow_result ctx actors _
    | exact c.follow_both ctx actors _ _

theorem fillMarket_eq (method : String) :
    c.fillMarket ctx method (.start c.methodNum) =
      c.follow ctx actors (MethodSchema.market method) := by
  fun_cases MethodSchema.market method
  case case6 =>
    simp only [fillMarket]
    exact c.follow_plain ctx actors
  all_goals
    first
    | exact c.follow_params ctx actors _
    | exact c.follow_result ctx actors _
    | exact c.follow_both ctx actors _ _

theorem fillPaymentChannel_eq (method : String) :
    c.fillPaymentChannel ctx method (.start c.methodNum) =
      c.follow ctx actors (MethodSchema.paymentChannel method) := by
  fun_cases MethodSchema.paymentChannel method
  case case1 => exact c.follow_params ctx actors _
  case case2 h =>
    rw [fillPaymentChannel, if_neg h]
    exact c.follow_plain ctx actors

theorem fillMultisig_eq (method : String) :
    c.fillMultisig ctx method (.start c.methodNum) =
      c.follow ctx actors (MethodSchema.multisig ctx.version.actors method) := by
  fun_cases MethodSchema.multisig ctx.version.actors method
  case case1 =>
    rw [MethodSchema.multisigConstructor, ← follow_params]
    split
    next h => exact if_pos h
    next h => exact if_neg h
  case case4 =>
    -- The branch of approvals and cancellations reads a result of approvals only.
    rw [← follow_params]
    exact bind_pure _
  case case10 =>
    simp only [fillMultisig]
    exact c.follow_plain ctx actors
  all_goals
    first
    | exact c.follow_params ctx actors _
    | exact c.follow_result ctx actors _
    | exact c.follow_both ctx actors _ _

theorem fillVerifiedRegistry_eq (method : String) :
    c.fillVerifiedRegistry ctx method (.start c.methodNum) =
      c.follow ctx actors (MethodSchema.verifiedRegistry ctx.version.actors method) := by
  fun_cases MethodSchema.verifiedRegistry ctx.version.actors method
  case case6 =>
    -- Claims are read by a schema or left alone, and the result is read in either case.
    by_cases h : MethodSchema.groupedRelease ≤ ctx.version.actors
    · rw [if_neg (UInt32.not_lt.mpr h), ← follow_both]
      simp only [fillVerifiedRegistry, if_pos h]
    · rw [if_pos (UInt32.not_le.mp h), ← follow_result]
      simp only [fillVerifiedRegistry, if_neg h]
      rfl
  case case7 =>
    simp only [fillVerifiedRegistry]
    exact c.follow_plain ctx actors
  all_goals exact c.follow_params ctx actors _

theorem fillDatacap_eq (method : String) :
    c.fillDatacap ctx method (.start c.methodNum) =
      c.follow ctx actors (MethodSchema.datacap method) := by
  fun_cases MethodSchema.datacap method
  case case14 =>
    simp only [fillDatacap]
    exact c.follow_plain ctx actors
  all_goals
    first
    | exact c.follow_params ctx actors _
    | exact c.follow_result ctx actors _
    | exact c.follow_both ctx actors _ _

theorem fillEvm_eq (method : String) :
    c.fillEvm ctx method (.start c.methodNum) =
      c.follow ctx actors (MethodSchema.evm method) := by
  fun_cases MethodSchema.evm method
  case case3 =>
    exact follow_of_sets actors { params := .contract, result := .contract }
      (c.sets_fillContract ctx .params) (c.sets_fillContract ctx .result) rfl
  case case4 =>
    exact follow_of_sets actors _ (c.sets_fill ctx .params MethodSchema.delegatedCall)
      (c.sets_fillContract ctx .result) rfl
  case case8 =>
    simp only [fillEvm]
    exact c.follow_plain ctx actors
  all_goals
    first
    | exact c.follow_params ctx actors _
    | exact c.follow_result ctx actors _
    | exact c.follow_both ctx actors _ _

theorem fillEam_eq (method : String) :
    c.fillEam ctx method (.start c.methodNum) =
      c.follow ctx actors (MethodSchema.eam method) := by
  fun_cases MethodSchema.eam method
  case case4 =>
    simp only [fillEam, contractParams?]
    exact c.follow_plain ctx actors
  all_goals exact c.follow_newContract ctx actors _

/-- What the decoder of an actor fills in is what the table of the actor says. -/
theorem fillTyped?_eq (method : String) :
    c.fillTyped? ctx actors method (.start c.methodNum) =
      (MethodSchema.of? c.actor ctx.version.actors method).map (c.follow ctx actors) := by
  unfold fillTyped? MethodSchema.of?
  cases c.actor with
  | account => exact congrArg some (c.fillAccount_eq ctx actors method)
  | init => exact congrArg some (c.fillInit_eq ctx actors method)
  | cron => exact congrArg some (c.fillCron_eq ctx actors method)
  | reward => exact congrArg some (c.fillReward_eq ctx actors method)
  | power => exact congrArg some (c.fillPower_eq ctx actors method)
  | miner => exact congrArg some (c.fillMiner_eq ctx actors method)
  | market => exact congrArg some (c.fillMarket_eq ctx actors method)
  | paymentChannel => exact congrArg some (c.fillPaymentChannel_eq ctx actors method)
  | multisig => exact congrArg some (c.fillMultisig_eq ctx actors method)
  | verifiedRegistry => exact congrArg some (c.fillVerifiedRegistry_eq ctx actors method)
  | datacap => exact congrArg some (c.fillDatacap_eq ctx actors method)
  | evm => exact congrArg some (c.fillEvm_eq ctx actors method)
  | eam => exact congrArg some (c.fillEam_eq ctx actors method)
  | ethAccount => exact congrArg some (c.follow_plain ctx actors)
  | system => exact congrArg some (c.follow_plain ctx actors)
  | placeholder => rfl
  | unknown => rfl

end Call
end TraceLedger
