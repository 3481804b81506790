import TraceLedger.Proofs.Call.Sides
import TraceLedger.Proofs.Schema.Words
import TraceLedger.Transaction

/-! # Metadata and its reader

The metadata of a record is the text of an object. Its reader takes all that can stand in it but for
depth: an object with lists or objects nested too deep inside is not read. -/

namespace TraceLedger

namespace Transaction

/-- The metadata of a record is the text of an object with the given fields. -/
def Shows (t : Transaction) (fields : Json.Members) : Prop :=
  t.metadata = (Json.object fields).render

variable {t : Transaction} {fields : Json.Members}

/-- Fields with words are read exactly if they nest no deeper than a text may, with the object
around them. -/
theorem isSome_metadataFields?_iff (h : t.Shows fields) (hwords : Json.fieldsHaveWords fields) :
    t.metadataFields?.isSome ↔ Json.fieldsDepth fields < Json.Doc.maxDepth := by
  have hread := Json.isSome_ofText?_render_iff (v := .object fields) hwords
  rw [Json.depth] at hread
  rw [← Nat.succ_le_iff, Nat.succ_eq_add_one, ← hread, ← h, metadataFields?]
  cases hvalue : Json.ofText? t.metadata with
  | none => rfl
  | some value =>
      rw [h] at hvalue
      obtain ⟨members, rfl, -⟩ := Json.exists_members_of_ofText?_render hvalue
      rfl

/-- Fields of different names are read in their order. -/
theorem names_of_metadataFields? (h : t.Shows fields) (hnodup : fields.names.Nodup)
    {members : Json.Members} (hread : t.metadataFields? = some members) :
    members.names = fields.names := by
  rw [metadataFields?, h] at hread
  split at hread
  next hvalue =>
    obtain ⟨_, heq, hfields⟩ := Json.exists_members_of_ofText?_render hvalue
    cases heq
    cases hread
    have hnames : Json.Members.names [] ++ fields.names = fields.names := List.nil_append _
    rw [← hnames] at hnodup ⊢
    exact Json.names_of_fieldsToJson? hnodup hfields
  next => cases hread

end Transaction

/-! ## What is shown of a call -/

namespace DecodedCall

/-- The metadata is the number of a method and two sides, and the sides have words. -/
structure HasWords (d : DecodedCall) : Prop where
  metadata : ∃ methodNum : UInt64, d.metadata =
    [("MethodNum", .nat methodNum.toNat), ("Params", d.params), ("Return", d.result)]
  params : d.params.HasWords
  result : d.result.HasWords

theorem hasWords_ofSides (methodNum : UInt64) {params result : Json} (hparams : params.HasWords)
    (hresult : result.HasWords) (created : Option AddressInfo) :
    (ofSides methodNum params result created).HasWords :=
  ⟨⟨methodNum, rfl⟩, hparams, hresult⟩

theorem hasWords_rawBytes (bytes : List UInt8) : (rawBytes bytes).HasWords := by
  unfold rawBytes
  split <;> trivial

theorem hasWords_raw (methodNum : UInt64) (params result : List UInt8) :
    (raw methodNum params result).HasWords :=
  hasWords_ofSides methodNum (hasWords_rawBytes params) (hasWords_rawBytes result) none

theorem HasWords.fields {d : DecodedCall} (h : d.HasWords) :
    Json.fieldsHaveWords d.metadata := by
  obtain ⟨methodNum, hmetadata⟩ := h.metadata
  rw [hmetadata]
  exact ⟨Json.hasWords_nat methodNum.toNat_lt, h.params, h.result, trivial⟩

theorem HasWords.fieldsDepth_eq {d : DecodedCall} (h : d.HasWords) :
    Json.fieldsDepth d.metadata = max d.params.depth d.result.depth := by
  obtain ⟨methodNum, hmetadata⟩ := h.metadata
  rw [hmetadata]
  simp [Json.fieldsDepth, Json.nat, Json.depth]

end DecodedCall

namespace SideSchema

variable {network : Network} {side : SideSchema} {bytes : List UInt8} {shown : Json}

theorem hasWords_of_showPlain? (h : showPlain? bytes = some shown) : shown.HasWords := by
  obtain ⟨value, -, rfl⟩ := Option.map_eq_some_iff.mp h
  exact value.hasWords_toJson

theorem hasWords_of_show? (h : side.show? network bytes = some shown) : shown.HasWords := by
  unfold show? at h
  split at h
  · cases h
    trivial
  · split at h
    next => exact hasWords_of_showPlain? h
    next schema =>
      unfold showTyped? at h
      split at h
      next => cases h
      next => exact hasWords_of_showPlain? h
      next hread =>
        cases h
        exact Cbor.Dag.property_of_run (schema.yields_read network) hread
    next =>
      cases h
      trivial

theorem hasWords_of_showParams? (h : side.showParams? network bytes = some shown) :
    shown.HasWords := by
  unfold showParams? at h
  split at h
  · cases h
    trivial
  · split at h
    · cases h
    · exact hasWords_of_show? h

end SideSchema

namespace Call

open DecodedCall

variable {ctx : CallContext} {actor : ActorKind} {method : String} {bytes : List UInt8}
  {shown : Json}

theorem hasWords_of_shownParams? (h : shownParams? ctx actor method bytes = some shown) :
    shown.HasWords := by
  unfold shownParams? at h
  split at h
  · cases h
    exact hasWords_rawBytes bytes
  · split at h
    next => exact SideSchema.hasWords_of_showParams? h
    next =>
      obtain ⟨_, -, rfl⟩ := Option.map_eq_some_iff.mp h
      exact hasWords_rawBytes bytes

theorem hasWords_of_shownResult? (h : shownResult? ctx actor method bytes = some shown) :
    shown.HasWords := by
  unfold shownResult? at h
  split at h
  · cases h
    exact hasWords_rawBytes bytes
  · split at h
    next => exact SideSchema.hasWords_of_show? h
    next =>
      cases h
      exact hasWords_rawBytes bytes

/-- What a decoded call is shown as has words. -/
theorem hasWords_of_decode {actors : ActorRegistry} {c : Call} {d : DecodedCall}
    (h : c.decode ctx actors = .ok d) : d.HasWords := by
  rw [decode_eq] at h
  split at h
  · cases h
  next params hparams =>
    split at h
    · cases h
    next result hresult =>
      cases h
      exact hasWords_ofSides _ (hasWords_of_shownParams? hparams)
        (hasWords_of_shownResult? hresult) _

end Call
end TraceLedger
