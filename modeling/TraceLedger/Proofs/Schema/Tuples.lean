import TraceLedger.Proofs.Cbor.DataModel
import TraceLedger.Schema.Basic

/-! # Values shown by their schemas

A schema shows what was written of a value of its own. A record is written without the names of
its fields, as a list: its schema takes lists of exactly that length, and gives each item the name
of its place. -/

namespace TraceLedger

open Cbor

namespace Schema

open Dag

/-! ## Lists of a fixed size -/

section Tuples

variable {r : Reader α} {size : Nat} {n : UInt64} {input rest : List UInt8}

theorem tupleOf_eq (hhead : IsHeaded .list n input rest) (budget : Nat) :
    tupleOf size r (budget + 1) input = if n.toNat = size then r budget rest else none := by
  have hargument := argument_of_isHeaded hhead budget
  show Reader.bind (argument .list) _ budget input = _
  rw [Reader.bind, hargument]
  simp only []
  split <;> rfl

theorem tupleOf_eq_none (hhead : IsHeaded .list n input rest) (hn : n.toNat ≠ size)
    (budget : Nat) : tupleOf size r budget input = none := by
  cases budget with
  | zero => rfl
  | succ budget => rw [tupleOf_eq hhead, if_neg hn]

theorem reads_tupleOf {items : List Datum} {a : α} (h : ReadsAll r items a) :
    Reads (tupleOf items.length r) (.list items) a := by
  intro out hout budget hbudget rest
  obtain ⟨body, hbody, hsize, rfl⟩ := exists_body_of_list hout
  obtain ⟨inner, rfl, hdepth⟩ := Datum.exists_budget_of_list hbudget
  rw [List.append_assoc, tupleOf_eq (isHeaded_head _ _ _), if_pos hsize]
  exact h hbody (Nat.lt_succ_of_lt hdepth) rest

end Tuples

/-! ## What schemas show -/

/-- By the schema, the written value is shown so. -/
def Shows (network : Network) (schema : Schema) (d : Datum) (shown : Json) : Prop :=
  Reads (schema.read network) d shown

/-- The schemas of the fields show what was written of them one behind the other. -/
def ShowsFields (network : Network) (fields : List (String × Schema)) (items : List Datum)
    (members : Json.Members) : Prop :=
  ReadsAll (readFields network fields) items members

section Shows

variable {network : Network}

theorem shows_address (a : Address) :
    Shows network .address (.address a) (.text (a.toText network)) :=
  Reads.bind (reads_address a) fun _ _ => rfl

theorem shows_amount (n : Int) : Shows network .amount (.amount n) (.text (toString n)) :=
  Reads.bind (reads_amount n) fun _ _ => rfl

theorem shows_word (n : UInt64) : Shows network .word (.word n) (.nat n.toNat) :=
  Reads.bind (reads_u64 n) fun _ _ => rfl

theorem shows_exitCode (n : UInt32) :
    Shows network .exitCode (.word n.toUInt64) (.nat n.toNat) :=
  Reads.bind (reads_u32 n) fun _ _ => rfl

theorem shows_integer (n : Int64) : Shows network .integer (.integer n) (.int n.toInt) :=
  Reads.bind (reads_i64 n) fun _ _ => rfl

theorem shows_bool (b : Bool) : Shows network .bool (.bool b) (.bool b) :=
  Reads.bind (reads_bool b) fun _ _ => rfl

theorem shows_base64 (bytes : List UInt8) :
    Shows network .base64 (.bytes bytes) (.text (Base64.encode bytes)) :=
  Reads.bind (reads_bytes bytes) fun _ _ => rfl

theorem shows_payload (bytes : List UInt8) :
    Shows network .payload (.bytes bytes)
      (if bytes.isEmpty then .null else .text (Base64.encode bytes)) :=
  Reads.bind (reads_bytes bytes) fun _ _ => rfl

theorem shows_list {schema : Schema} {items : List Datum} {shown : List Json}
    (h : List.Forall₂ (Shows network schema) items shown) :
    Shows network (.list schema) (.list items) (.list shown) :=
  Reads.bind (reads_list h) fun _ _ => rfl

theorem showsFields_nil : ShowsFields network [] [] [] := readsAll_nil []

theorem ShowsFields.cons {name : String} {schema : Schema} {fields : List (String × Schema)}
    {item : Datum} {items : List Datum} {shown : Json} {members : Json.Members}
    (h : Shows network schema item shown) (hmore : ShowsFields network fields items members) :
    ShowsFields network ((name, schema) :: fields) (item :: items) ((name, shown) :: members) :=
  ReadsAll.cons h (hmore.bind fun _ _ => rfl)

theorem shows_tuple {fields : List (String × Schema)} {items : List Datum}
    {members : Json.Members} (hlength : fields.length = items.length)
    (h : ShowsFields network fields items members) :
    Shows network (.tuple fields) (.list items) (.object members) := by
  have hread := reads_tupleOf h
  rw [← hlength] at hread
  exact hread.bind fun _ _ => rfl

theorem ofBytes?_tuple_eq_none {fields : List (String × Schema)} {n : UInt64}
    {input rest : List UInt8} (hhead : IsHeaded .list n input rest)
    (hn : n.toNat ≠ fields.length) : (tuple fields).ofBytes? network input = none := by
  show run (Reader.bind (tupleOf fields.length (readFields network fields)) _) input = none
  rw [run, Reader.bind, tupleOf_eq_none hhead hn]

end Shows
end Schema
end TraceLedger
