import TraceLedger.Call.Filling
import TraceLedger.Proofs.Schema.Readers

/-! # Steps of a decoder

A step of a decoder reads one side of a call and sets it in the record. It sees the bytes of both
sides and what was set before, and is told by the one value that it sets. -/

namespace TraceLedger

open Cbor

namespace DecodedCall

variable (methodNum : UInt64) (params result value : Json) (created : Option AddressInfo)

@[simp] theorem set_params :
    (ofSides methodNum params result created).set .params value =
      ofSides methodNum value result created := rfl

@[simp] theorem set_result :
    (ofSides methodNum params result created).set .result value =
      ofSides methodNum params value created := rfl

@[simp] theorem params_ofSides : (ofSides methodNum params result created).params = params := rfl

@[simp] theorem result_ofSides : (ofSides methodNum params result created).result = result := rfl

end DecodedCall

namespace SideSchema

/-- What a decoder sets a side to, by its schema. A side that is not set stays null. -/
def set? (network : Network) (side : SideSchema) (bytes : List UInt8) : Option Json :=
  if bytes.isEmpty then some .null
  else match side with
    | plain => some .null
    | typed schema => schema.ofBytes? network bytes
    | contract => some (Schema.hexText (Call.contractBytes bytes))

@[simp] theorem set?_plain (network : Network) (bytes : List UInt8) :
    plain.set? network bytes = some .null := by
  unfold set?
  split <;> rfl

end SideSchema

namespace Call

@[simp] theorem bytes_params (c : Call) : c.bytes .params = c.params := rfl

@[simp] theorem bytes_result (c : Call) : c.bytes .result = c.result := rfl

/-- A call whose sides are set like this, if they are. -/
def ofShown (c : Call) (params result : Option Json) (created : Option AddressInfo) :
    Except Error DecodedCall :=
  match params with
  | none => .error (c.decodeError .params)
  | some params =>
    match result with
    | none => .error (c.decodeError .result)
    | some result => .ok (.ofSides c.methodNum params result created)

/-! ## Steps -/

/-- The step sets a side that is null so far, or fails with an error of the side. -/
def Sets (c : Call) (side : Side) (step : DecodedCall → Except Error DecodedCall)
    (value? : Option Json) : Prop :=
  ∀ out, out.set side .null = out →
    step out =
      match value? with
      | none => .error (c.decodeError side)
      | some value => .ok (out.set side value)

section Steps

variable (c : Call) (ctx : CallContext) {schema : Schema} {side : Side}

/-- A reader tells more of the bytes than the schema that shows what it reads. -/
theorem fillAs_eq {r : Dag.Reader α} {shown : α → Json} (hnil : Dag.run r [] = none)
    (hshown : schema.read ctx.network = shown <$> r) {out : DecodedCall}
    (hnull : out.set side .null = out) :
    c.fillAs side r shown out =
      match (SideSchema.typed schema).set? ctx.network (c.bytes side) with
      | none => .error (c.decodeError side)
      | some value => .ok (Dag.run r (c.bytes side), out.set side value) := by
  unfold fillAs read SideSchema.set?
  cases hbytes : c.bytes side with
  | nil =>
      rw [hnil]
      exact congrArg (fun out => Except.ok (none, out)) hnull.symm
  | cons b rest =>
      have hread : schema.ofBytes? ctx.network (b :: rest) =
          (Dag.run r (b :: rest)).map shown := by
        rw [Schema.ofBytes?, hshown]
        exact Dag.run_map _ _ _
      simp only [List.isEmpty_cons, hread, Bool.false_eq_true, if_false]
      cases Dag.run r (b :: rest) <;> rfl

theorem sets_fill (side : Side) (schema : Schema) :
    c.Sets side (c.fill ctx side schema)
      ((SideSchema.typed schema).set? ctx.network (c.bytes side)) := by
  intro out hnull
  have hnil : Dag.run (schema.read ctx.network) [] = none := by
    rw [Dag.run, Schema.read_nil]
  have hshown : schema.read ctx.network = id <$> schema.read ctx.network := (id_map _).symm
  rw [fill, c.fillAs_eq ctx hnil hshown hnull]
  cases (SideSchema.typed schema).set? ctx.network (c.bytes side) <;> rfl

theorem sets_fillContract (side : Side) :
    c.Sets side (fun out => .ok (c.fillContract side out))
      (SideSchema.contract.set? ctx.network (c.bytes side)) := by
  intro out hnull
  unfold fillContract SideSchema.set?
  split
  · exact congrArg Except.ok hnull.symm
  · rfl

theorem sets_nothing (side : Side) :
    c.Sets side .ok (SideSchema.plain.set? ctx.network (c.bytes side)) := by
  intro out hnull
  rw [SideSchema.set?_plain]
  exact congrArg Except.ok hnull.symm

variable {c ctx} {step : DecodedCall → Except Error DecodedCall} {value? : Option Json}

theorem Sets.params (h : c.Sets .params step value?) :
    step (.start c.methodNum) = c.ofShown value? (some .null) none := by
  rw [h _ rfl]
  cases value? <;> rfl

/-- Behind a step that left the result alone. -/
theorem Sets.result (h : c.Sets .result step value?) (params : Option Json) :
    c.ofShown params (some .null) none >>= step = c.ofShown params value? none := by
  cases params with
  | none => rfl
  | some params =>
      show step (.ofSides c.methodNum params .null none) = _
      rw [h _ rfl]
      cases value? <;> rfl

variable (c ctx)

/-! ### Creations -/

theorem fillNewActor_eq (code : Option Cid) (actorType : String) (params : Option Json) :
    (c.ofShown params (some .null) none >>= fun out => c.fillNewActor ctx code actorType out) =
      c.ofShown params
        ((SideSchema.typed MethodSchema.newActor).set? ctx.network c.result)
        ((Dag.run NewActor.reader c.result).map (·.info ctx code actorType)) := by
  cases params with
  | none => rfl
  | some params =>
      have hnull : (DecodedCall.ofSides c.methodNum params .null none).set .result .null =
          .ofSides c.methodNum params .null none := rfl
      show c.fillNewActor ctx code actorType (.ofSides c.methodNum params .null none) = _
      rw [fillNewActor, c.fillAs_eq ctx rfl (Schema.read_newActor ctx.network) hnull, bytes_result]
      cases (SideSchema.typed MethodSchema.newActor).set? ctx.network c.result with
      | none => rfl
      | some value => cases Dag.run NewActor.reader c.result <;> rfl

theorem fillNewContract_eq (params : Option Json) :
    (c.ofShown params (some .null) none >>= fun out => c.fillNewContract ctx out) =
      c.ofShown params
        ((SideSchema.typed MethodSchema.newContract).set? ctx.network c.result)
        ((Dag.run NewContract.reader c.result).bind (·.info? ctx)) := by
  cases params with
  | none => rfl
  | some params =>
      have hnull : (DecodedCall.ofSides c.methodNum params .null none).set .result .null =
          .ofSides c.methodNum params .null none := rfl
      show c.fillNewContract ctx (.ofSides c.methodNum params .null none) = _
      rw [fillNewContract, c.fillAs_eq ctx rfl (Schema.read_newContract ctx.network) hnull,
        bytes_result]
      cases (SideSchema.typed MethodSchema.newContract).set? ctx.network c.result with
      | none => rfl
      | some value =>
          cases hcontract : Dag.run NewContract.reader c.result with
          | none => rfl
          | some contract =>
              -- A name that was read always makes an address.
              obtain ⟨info, hinfo⟩ := Option.isSome_iff_exists.mp
                (NewContract.isSome_info? (NewContract.length_name_of_run hcontract) ctx)
              simp only [bind, Except.bind, Option.bind_some, hinfo]
              rfl

end Steps
end Call
end TraceLedger
