import TraceLedger.Proofs.Call.Sides
import TraceLedger.Proofs.Schema.Tuples

/-! # Sides with a schema

A side with a schema is shown as its schema reads it, and refused where the schema refuses it. A
method is looked up by its plain name, so one that any actor may call has the schema of the method
that it stands for. -/

namespace TraceLedger

open Cbor

namespace SideSchema

variable {network : Network} {schema : Schema} {bytes : List UInt8} {value : Json}

theorem show?_typed (hne : bytes ≠ []) (h : schema.ofBytes? network bytes = some value)
    (hnull : value ≠ .null) : (typed schema).show? network bytes = some value := by
  have hempty : ¬bytes.isEmpty := by simpa using hne
  rw [show?, if_neg hempty]
  simp only [showTyped?, h]

theorem show?_typed_eq_none (hne : bytes ≠ []) (h : schema.ofBytes? network bytes = none) :
    (typed schema).show? network bytes = none := by
  have hempty : ¬bytes.isEmpty := by simpa using hne
  rw [show?, if_neg hempty]
  simp only [showTyped?, h]

theorem showParams?_typed (hne : bytes ≠ []) (hplain : (Dag.ipld? bytes).isSome)
    (h : schema.ofBytes? network bytes = some value) (hnull : value ≠ .null) :
    (typed schema).showParams? network bytes = some value := by
  have hempty : ¬bytes.isEmpty := by simpa using hne
  have hsome : ¬(Dag.ipld? bytes).isNone := by simpa [Option.isSome_iff_ne_none] using hplain
  rw [showParams?, if_neg hempty, if_neg hsome, show?_typed hne h hnull]

theorem showParams?_typed_eq_none (hne : bytes ≠ []) (h : schema.ofBytes? network bytes = none) :
    (typed schema).showParams? network bytes = none := by
  have hempty : ¬bytes.isEmpty := by simpa using hne
  rw [showParams?, if_neg hempty, show?_typed_eq_none hne h, ite_self]

end SideSchema

namespace Call

/-- The two names of a method: its own, and the one under which any actor may call it. -/
def names (name : String) : List String := [name, name ++ "Exported"]

theorem plainName_append_exported (name : String) : plainName (name ++ "Exported") = name := by
  have htext : (name ++ "Exported").toList = name.toList ++ exportedSuffix := String.toList_append
  have hlength : exportedSuffix.length ≤ (name.toList ++ exportedSuffix).length := by
    rw [List.length_append]
    exact Nat.le_add_left _ _
  have hsize : (name.toList ++ exportedSuffix).length - exportedSuffix.length =
      name.toList.length := by
    rw [List.length_append, Nat.add_sub_cancel]
  have hend : (name.toList ++ exportedSuffix).drop name.toList.length = exportedSuffix :=
    List.drop_left
  simp only [plainName, htext, hsize]
  rw [if_pos ⟨hlength, hend⟩, List.take_left, String.ofList_toList]

theorem plainName_of_mem_names {name method : String} (hname : plainName name = name)
    (h : method ∈ names name) : plainName method = name := by
  simp only [names, List.mem_cons, List.not_mem_nil, or_false] at h
  rcases h with rfl | rfl
  · exact hname
  · exact plainName_append_exported name

/-- The method is known, and its plain name has the schema. -/
structure HasSchema (ctx : CallContext) (actor : ActorKind) (method : String)
    (schema : MethodSchema) : Prop where
  ne_unknown : method ≠ VersionRegistry.unknownMethod
  of?_eq : MethodSchema.of? actor ctx.version.actors (plainName method) = some schema

section HasSchema

variable {ctx : CallContext} {actor : ActorKind} {method : String} {schema : MethodSchema}

theorem hasSchema_of_mem_names {name : String} (hname : plainName name = name)
    (hne : name ≠ VersionRegistry.unknownMethod)
    (hschema : MethodSchema.of? actor ctx.version.actors name = some schema)
    (h : method ∈ names name) : HasSchema ctx actor method schema where
  ne_unknown := by
    have hunknown : plainName VersionRegistry.unknownMethod = VersionRegistry.unknownMethod := by
      decide
    rintro rfl
    exact hne ((plainName_of_mem_names hname h).symm.trans hunknown)
  of?_eq := by rw [plainName_of_mem_names hname h, hschema]

theorem HasSchema.shownParams? (h : HasSchema ctx actor method schema) (bytes : List UInt8) :
    shownParams? ctx actor method bytes = schema.params.showParams? ctx.network bytes := by
  simp only [Call.shownParams?, if_neg h.ne_unknown, h.of?_eq]

theorem HasSchema.shownResult? (h : HasSchema ctx actor method schema) (bytes : List UInt8) :
    shownResult? ctx actor method bytes = schema.result.show? ctx.network bytes := by
  simp only [Call.shownResult?, if_neg h.ne_unknown, h.of?_eq]

theorem HasSchema.created? (h : HasSchema ctx actor method schema) (actors : ActorRegistry)
    (methodNum : UInt64) (params result : List UInt8) :
    created? ctx actors ⟨actor, methodNum, method, params, result⟩ =
      schema.creates.created? ctx actors params result := by
  simp only [Call.created?, if_neg h.ne_unknown, h.of?_eq]

/-- A call whose sides are shown, of a method that creates nothing. -/
theorem HasSchema.decode_eq_ok (h : HasSchema ctx actor method schema)
    (hcreates : schema.creates = .nothing) (actors : ActorRegistry) (methodNum : UInt64)
    {params result : List UInt8} {shownParams shownResult : Json}
    (hparams : Call.shownParams? ctx actor method params = some shownParams)
    (hresult : Call.shownResult? ctx actor method result = some shownResult) :
    (Call.mk actor methodNum method params result).decode ctx actors =
      .ok (.ofSides methodNum shownParams shownResult none) := by
  have hcreated := h.created? actors methodNum params result
  rw [hcreates] at hcreated
  simp only [decode_eq, hparams, hresult, hcreated]
  rfl

variable {fields : List (String × Schema)} {size : UInt64} {bytes rest : List UInt8}

/-- Parameters that are a list of another size than the record are refused. -/
theorem HasSchema.params_refused (h : HasSchema ctx actor method schema)
    (hparams : schema.params = .typed (.tuple fields)) (hhead : IsHeaded .list size bytes rest)
    (hsize : size.toNat ≠ fields.length) : Call.shownParams? ctx actor method bytes = none := by
  rw [h.shownParams?, hparams]
  exact SideSchema.showParams?_typed_eq_none hhead.ne_nil
    (Schema.ofBytes?_tuple_eq_none hhead hsize)

theorem HasSchema.result_refused (h : HasSchema ctx actor method schema)
    (hresult : schema.result = .typed (.tuple fields)) (hhead : IsHeaded .list size bytes rest)
    (hsize : size.toNat ≠ fields.length) : Call.shownResult? ctx actor method bytes = none := by
  rw [h.shownResult?, hresult]
  exact SideSchema.show?_typed_eq_none hhead.ne_nil
    (Schema.ofBytes?_tuple_eq_none hhead hsize)

end HasSchema
end Call
end TraceLedger
