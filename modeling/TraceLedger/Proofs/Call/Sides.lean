import TraceLedger.Proofs.Call.Following

/-! # The two sides of a call

A call is decoded side by side. Each side is shown or refused by its own bytes, and the parameters
come first: where they are refused the result is not looked at. -/

namespace TraceLedger

open Cbor

namespace DecodedCall

@[simp] theorem rawBytes_nil : rawBytes [] = .null := rfl

end DecodedCall

namespace SideSchema

@[simp] theorem show?_nil (network : Network) (side : SideSchema) :
    side.show? network [] = some .null := rfl

@[simp] theorem showParams?_nil (network : Network) (side : SideSchema) :
    side.showParams? network [] = some .null := rfl

/-- A side is what a decoder sets it to, and what it leaves null is shown without a schema. -/
theorem show?_eq (network : Network) (side : SideSchema) (bytes : List UInt8) :
    side.show? network bytes = (side.set? network bytes).bind fun value =>
      if value.isNull then plain.show? network bytes else some value := by
  unfold show? set?
  by_cases hempty : bytes.isEmpty
  · simp only [if_pos hempty]
    rfl
  · simp only [if_neg hempty]
    cases side with
    | plain => rfl
    | contract => rfl
    | typed schema =>
        show showTyped? network schema bytes = (schema.ofBytes? network bytes).bind _
        unfold showTyped?
        cases schema.ofBytes? network bytes with
        | none => rfl
        | some value => cases value <;> rfl

theorem showParams?_eq (network : Network) (side : SideSchema) (bytes : List UInt8) :
    side.showParams? network bytes =
      (plain.show? network bytes).bind fun _ => side.show? network bytes := by
  unfold showParams? show? showPlain?
  by_cases hempty : bytes.isEmpty
  · simp only [if_pos hempty]
    rfl
  · simp only [if_neg hempty]
    cases Dag.ipld? bytes <;> rfl

end SideSchema

namespace Call

open DecodedCall

/-- How the parameters of a method are shown, if they are. -/
def shownParams? (ctx : CallContext) (actor : ActorKind) (method : String)
    (bytes : List UInt8) : Option Json :=
  if method = VersionRegistry.unknownMethod then some (rawBytes bytes)
  else match MethodSchema.of? actor ctx.version.actors (plainName method) with
    | some schema => schema.params.showParams? ctx.network bytes
    | none => (SideSchema.plain.show? ctx.network bytes).map fun _ => rawBytes bytes

/-- How the result of a method is shown, if it is. -/
def shownResult? (ctx : CallContext) (actor : ActorKind) (method : String)
    (bytes : List UInt8) : Option Json :=
  if method = VersionRegistry.unknownMethod then some (rawBytes bytes)
  else match MethodSchema.of? actor ctx.version.actors (plainName method) with
    | some schema => schema.result.show? ctx.network bytes
    | none => some (rawBytes bytes)

/-- The actor that a call created, if its method has a schema that says so. -/
def created? (ctx : CallContext) (actors : ActorRegistry) (c : Call) : Option AddressInfo :=
  if c.method = VersionRegistry.unknownMethod then none
  else match MethodSchema.of? c.actor ctx.version.actors (plainName c.method) with
    | some schema => schema.creates.created? ctx actors c.params c.result
    | none => none

@[simp] theorem shownParams?_nil (ctx : CallContext) (actor : ActorKind) (method : String) :
    shownParams? ctx actor method [] = some .null := by
  unfold shownParams?
  split
  · rfl
  · split <;> rfl

@[simp] theorem shownResult?_nil (ctx : CallContext) (actor : ActorKind) (method : String) :
    shownResult? ctx actor method [] = some .null := by
  unfold shownResult?
  split
  · rfl
  · split <;> rfl

/-! ## Null sides -/

section Plain

variable (c : Call) (network : Network)

theorem showPlain_eq (side : Side) :
    c.showPlain side =
      match SideSchema.plain.show? network (c.bytes side) with
      | none => .error (c.decodeError side)
      | some value => .ok value := by
  unfold showPlain read SideSchema.show? SideSchema.showPlain? Dag.ipld?
  split
  · rfl
  · cases Dag.run Dag.ipld (c.bytes side) <;> rfl

/-- Sides that are null are shown as what their bytes hold. -/
theorem fillPlain_eq (plainParams params result : Json) (created : Option AddressInfo) :
    c.fillPlain plainParams (.ofSides c.methodNum params result created) =
      c.ofShown (some (if params.isNull then plainParams else params))
        (if result.isNull then SideSchema.plain.show? network c.result else some result)
        created := by
  have hparams : (if (ofSides c.methodNum params result created).params.isNull then
        (ofSides c.methodNum params result created).set .params plainParams
      else ofSides c.methodNum params result created) =
      ofSides c.methodNum (if params.isNull then plainParams else params) result created := by
    rw [params_ofSides]
    split <;> rfl
  simp only [fillPlain, hparams, result_ofSides]
  by_cases hnull : result.isNull
  · obtain rfl : result = .null := by cases result <;> first | rfl | cases hnull
    rw [if_pos hnull]
    by_cases hempty : c.result.isEmpty
    · rw [if_neg fun h => h.2 hempty, SideSchema.show?, if_pos hempty]
      rfl
    · rw [if_pos ⟨hnull, hempty⟩, c.showPlain_eq network, bytes_result]
      cases SideSchema.plain.show? network c.result <;> rfl
  · rw [if_neg hnull, if_neg fun h => hnull h.1]
    rfl

/-- What the table says, with the rest filled in, is what is shown of both sides. -/
theorem follow_fillPlain {ctx : CallContext} (actors : ActorRegistry) (schema : MethodSchema)
    {plainParams : Json}
    (hplain : SideSchema.plain.show? ctx.network c.params = some plainParams) :
    (do
      let out ← c.follow ctx actors schema
      c.fillPlain plainParams out) =
      c.ofShown (schema.params.showParams? ctx.network c.params)
        (schema.result.show? ctx.network c.result)
        (schema.creates.created? ctx actors c.params c.result) := by
  rw [SideSchema.showParams?_eq, hplain, Option.bind_some, SideSchema.show?_eq _ schema.params,
    SideSchema.show?_eq _ schema.result, hplain, follow]
  cases schema.params.set? ctx.network c.params with
  | none => rfl
  | some params =>
      have hparams : (if params.isNull then some plainParams else some params) =
          some (if params.isNull then plainParams else params) := (apply_ite some _ _ _).symm
      simp only [Option.bind_some, hparams]
      cases schema.result.set? ctx.network c.result with
      | none => rfl
      | some result => exact c.fillPlain_eq ctx.network plainParams params result _

end Plain

/-- Decoding shows the parameters, and then the result. -/
theorem decode_eq (ctx : CallContext) (actors : ActorRegistry) (c : Call) :
    c.decode ctx actors =
      match shownParams? ctx c.actor c.method c.params with
      | none => .error (c.decodeError .params)
      | some params =>
        match shownResult? ctx c.actor c.method c.result with
        | none => .error (c.decodeError .result)
        | some result => .ok (.ofSides c.methodNum params result (c.created? ctx actors)) := by
  by_cases hmethod : c.method = VersionRegistry.unknownMethod
  · simp only [decode, shownParams?, shownResult?, created?, if_pos hmethod]
    rfl
  simp only [decode, shownParams?, shownResult?, created?, if_neg hmethod, fillTyped?_eq,
    c.showPlain_eq ctx.network, bytes_params]
  cases hplain : SideSchema.plain.show? ctx.network c.params with
  | none =>
      cases MethodSchema.of? c.actor ctx.version.actors (plainName c.method) with
      | none => rfl
      | some schema =>
          simp only [SideSchema.showParams?_eq, hplain]
          rfl
  | some plainParams =>
      cases MethodSchema.of? c.actor ctx.version.actors (plainName c.method) with
      | none => rfl
      | some schema => exact c.follow_fillPlain actors schema hplain

/-- The calls of a method are decoded side by side: its parameters are shown by one function of
their bytes and its result by another, and what one of them refuses fails the call. -/
structure DecodedBySides (ctx : CallContext) (actors : ActorRegistry) (actor : ActorKind)
    (method : String) (methodNum : UInt64) (showParams showResult : List UInt8 → Option Json) :
    Prop where
  params_nil : showParams [] = some .null
  result_nil : showResult [] = some .null
  isOk_iff : ∀ params result,
    ((Call.mk actor methodNum method params result).decode ctx actors).isOk ↔
      (showParams params).isSome ∧ (showResult result).isSome
  metadata_eq : ∀ params result decoded,
    (Call.mk actor methodNum method params result).decode ctx actors = .ok decoded →
      ∃ shownParams shownResult, showParams params = some shownParams ∧
        showResult result = some shownResult ∧
        decoded.metadata = [("MethodNum", .nat methodNum.toNat), ("Params", shownParams),
          ("Return", shownResult)]
  params_refused : ∀ params, showParams params = none → ∀ result,
    (Call.mk actor methodNum method params result).decode ctx actors =
      .error (.decode actor.name method .params)
  result_refused : ∀ params result, (showParams params).isSome → showResult result = none →
    (Call.mk actor methodNum method params result).decode ctx actors =
      .error (.decode actor.name method .result)

/-- Every method of every actor is decoded side by side. -/
theorem decodes_by_sides (ctx : CallContext) (actors : ActorRegistry) (actor : ActorKind)
    (method : String) (methodNum : UInt64) :
    DecodedBySides ctx actors actor method methodNum (shownParams? ctx actor method)
      (shownResult? ctx actor method) where
  params_nil := shownParams?_nil ctx actor method
  result_nil := shownResult?_nil ctx actor method
  isOk_iff params result := by
    rw [decode_eq]
    cases shownParams? ctx actor method params with
    | none => simp [Except.isOk, Except.toBool]
    | some shown =>
        cases shownResult? ctx actor method result <;> simp [Except.isOk, Except.toBool]
  metadata_eq params result decoded h := by
    rw [decode_eq] at h
    cases hparams : shownParams? ctx actor method params with
    | none => simp [hparams] at h
    | some shown =>
        cases hresult : shownResult? ctx actor method result with
        | none => simp [hparams, hresult] at h
        | some shownResult =>
            simp only [hparams, hresult, Except.ok.injEq] at h
            exact ⟨shown, shownResult, rfl, rfl, h ▸ rfl⟩
  params_refused params h result := by
    simp only [decode_eq, h, decodeError]
  result_refused params result hparams h := by
    obtain ⟨shown, hshown⟩ := Option.isSome_iff_exists.mp hparams
    simp only [decode_eq, hshown, h, decodeError]

end Call
end TraceLedger
