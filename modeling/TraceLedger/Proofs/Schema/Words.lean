import TraceLedger.Call.Decode
import TraceLedger.Proofs.Json.ReadBack

/-! # What is shown has words

Whole numbers that are shown come from machine words, or fit in one: where one does not, its text is
shown. So nothing that is shown of a call holds a number that its reader could not take. -/

namespace TraceLedger

namespace Json

theorem itemsHaveWords_iff {items : List Json} :
    itemsHaveWords items ↔ ∀ item ∈ items, item.HasWords := by
  induction items with
  | nil => simp [itemsHaveWords]
  | cons item rest ih => simp [itemsHaveWords, ih]

theorem hasWords_nat {n : Nat} (h : n < UInt64.size) : (nat n).HasWords := by
  have hmin : Int64.minValue.toInt ≤ 0 := by decide
  exact ⟨by omega, by omega⟩

theorem hasWords_int64 (n : Int64) : (int n.toInt).HasWords := by
  have hmax : n.toInt < 2 ^ 63 := n.toInt_lt
  have hsize : (UInt64.size : Int) = 2 ^ 64 := rfl
  exact ⟨n.minValue_le_toInt, by omega⟩

end Json

/-! ## Values without a schema -/

namespace Ipld

theorem hasWords_intToJson (n : Int) : (intToJson n).HasWords := by
  unfold intToJson
  split
  next hword => exact hword
  next => trivial

mutual

theorem hasWords_toJson (v : Ipld) : v.toJson.HasWords := by
  cases v with
  | int value => exact hasWords_intToJson value
  | float value =>
      rw [toJson]
      split <;> trivial
  | list items => exact itemsHaveWords_itemsToJson items
  | map entries => exact fieldsHaveWords_entriesToJson entries
  | _ => trivial

theorem itemsHaveWords_itemsToJson (items : List Ipld) :
    Json.itemsHaveWords (itemsToJson items) := by
  cases items with
  | nil => trivial
  | cons item rest => exact ⟨hasWords_toJson item, itemsHaveWords_itemsToJson rest⟩

theorem fieldsHaveWords_entriesToJson (entries : List (String × Ipld)) :
    Json.fieldsHaveWords (entriesToJson entries) := by
  cases entries with
  | nil => trivial
  | cons entry rest =>
      obtain ⟨name, item⟩ := entry
      exact ⟨hasWords_toJson item, fieldsHaveWords_entriesToJson rest⟩

end

end Ipld

/-! ## What readers give -/

namespace Cbor.Dag

/-- Whatever a reader gives has a property. -/
def Reader.Yields (r : Reader α) (P : α → Prop) : Prop :=
  ∀ ⦃budget input a rest⦄, r budget input = some (a, rest) → P a

section Yields

variable {α β : Type} {P : α → Prop} {r : Reader α}

theorem yields_pure {a : α} (h : P a) : Reader.Yields (Pure.pure a : Reader α) P := by
  rintro budget input _ _ ⟨⟩
  exact h

theorem yields_refuse : (Reader.refuse : Reader α).Yields P := by
  rintro budget input _ _ ⟨⟩

theorem Reader.Yields.bind {Q : β → Prop} {f : α → Reader β} (hr : r.Yields P)
    (hf : ∀ a, P a → (f a).Yields Q) : (r >>= f).Yields Q := by
  intro budget input b rest h
  have hbind : Reader.bind r f budget input = some (b, rest) := h
  rw [Reader.bind] at hbind
  split at hbind
  next a more hread => exact hf a (hr hread) hbind
  next => cases hbind

theorem yields_true (r : Reader α) : r.Yields fun _ => True := fun _ _ _ _ _ => trivial

/-- What is made of a value that was read need not look at it. -/
theorem yields_bind {Q : β → Prop} (r : Reader α) {f : α → Reader β} (hf : ∀ a, (f a).Yields Q) :
    (r >>= f).Yields Q :=
  (yields_true r).bind fun a _ => hf a

theorem yields_step (h : r.Yields P) : (step r).Yields P := by
  intro budget input a rest hread
  unfold step at hread
  split at hread
  · cases hread
  · exact h hread

theorem yields_optional (h : r.Yields P) : (optional r).Yields fun o => ∀ a ∈ o, P a := by
  have hsome : Reader.Yields (do return some (← r)) fun o => ∀ a ∈ o, P a := by
    refine h.bind fun a ha => yields_pure ?_
    rintro _ ⟨⟩
    exact ha
  intro budget input o rest hread
  unfold optional at hread
  split at hread
  · cases hread
    simp
  · exact yields_step hsome hread

theorem forall_of_sequence {read : List UInt8 → Option (α × List UInt8)}
    (h : ∀ input a rest, read input = some (a, rest) → P a) {count : Nat} {input rest : List UInt8}
    {values : List α} (hread : sequence read count input = some (values, rest)) :
    ∀ a ∈ values, P a := by
  induction count generalizing input values rest with
  | zero =>
      cases hread
      simp
  | succ count ih =>
      rw [sequence] at hread
      split at hread
      next => cases hread
      next a more hfirst =>
        split at hread
        next => cases hread
        next hmore =>
          cases hread
          rintro x hx
          rcases List.mem_cons.mp hx with rfl | hx
          · exact h _ _ _ hfirst
          · exact ih hmore x hx

theorem yields_list (h : r.Yields P) : (list r).Yields fun values => ∀ a ∈ values, P a := by
  refine yields_step ?_
  intro budget input values rest hread
  simp only at hread
  split at hread
  next => exact forall_of_sequence (fun _ _ _ hitem => h hitem) hread
  next => cases hread

end Yields

theorem property_of_run {P : α → Prop} {r : Reader α} (h : r.Yields P) {input : List UInt8} {a : α}
    (hrun : run r input = some a) : P a := by
  unfold run at hrun
  split at hrun
  next hread =>
    cases hrun
    exact h hread
  next => cases hrun

end Cbor.Dag

/-! ## Schemas -/

namespace Schema

open Cbor.Dag

theorem yields_tupleOf {P : α → Prop} {r : Reader α} (size : Nat) (h : r.Yields P) :
    (tupleOf size r).Yields P := by
  refine yields_step (yields_bind _ fun count => ?_)
  split
  · exact h
  · exact yields_refuse

theorem itemsHaveWords_map_amountText (amounts : List Int) :
    Json.itemsHaveWords (amounts.map amountText) := by
  rw [Json.itemsHaveWords_iff]
  intro item hitem
  obtain ⟨amount, -, rfl⟩ := List.mem_map.mp hitem
  trivial

theorem itemsHaveWords_map_base64Text (values : List (List UInt8)) :
    Json.itemsHaveWords (values.map base64Text) := by
  rw [Json.itemsHaveWords_iff]
  intro item hitem
  obtain ⟨bytes, -, rfl⟩ := List.mem_map.mp hitem
  trivial

theorem hasWords_showClaims (batch : Ipld) (claimed : Claimed) :
    (showClaims batch claimed).HasWords :=
  ⟨batch.hasWords_toJson, trivial, itemsHaveWords_map_amountText _, trivial⟩

mutual

/-- Whatever a schema shows has words. -/
theorem yields_read (network : Network) (schema : Schema) :
    (schema.read network).Yields Json.HasWords := by
  cases schema with
  | word => exact yields_bind _ fun n => yields_pure (Json.hasWords_nat n.toNat_lt)
  | exitCode =>
      refine yields_bind _ fun n => yields_pure (Json.hasWords_nat ?_)
      exact Nat.lt_trans n.toNat_lt (by decide)
  | integer => exact yields_bind _ fun n => yields_pure (Json.hasWords_int64 n)
  | payload =>
      refine yields_bind _ fun bytes => yields_pure ?_
      split <;> trivial
  | optional schema =>
      refine (yields_optional (yields_read network schema)).bind fun value h => yields_pure ?_
      cases value with
      | none => trivial
      | some value => exact h value rfl
  | list schema =>
      refine (yields_list (yields_read network schema)).bind fun items h => yields_pure ?_
      exact Json.itemsHaveWords_iff.mpr h
  | tuple fields =>
      exact (yields_tupleOf _ (yields_readFields network fields)).bind fun _ h => yields_pure h
  | named name schema =>
      exact (yields_read network schema).bind fun _ h => yields_pure ⟨h, trivial⟩
  | multiaddrs => exact yields_bind _ fun _ => yields_pure (itemsHaveWords_map_base64Text _)
  | claims =>
      exact yields_tupleOf 2 (yields_bind _ fun _ => yields_bind _ fun _ =>
        yields_pure (hasWords_showClaims _ _))
  | _ => exact yields_bind _ fun _ => yields_pure trivial

theorem yields_readFields (network : Network) (fields : List (String × Schema)) :
    (readFields network fields).Yields Json.fieldsHaveWords := by
  cases fields with
  | nil => exact yields_pure trivial
  | cons field rest =>
      obtain ⟨name, schema⟩ := field
      exact (yields_read network schema).bind fun _ hvalue =>
        (yields_readFields network rest).bind fun _ hrest => yields_pure ⟨hvalue, hrest⟩

end

end Schema

end TraceLedger
