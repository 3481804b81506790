import TraceLedger.Proofs.Cbor.Kinds
import TraceLedger.Proofs.Schema.Words
import TraceLedger.Schema.Sides

/-! # Schemas and readers of the same values

What creates actors is read into records of its own, since its parts are needed. The schemas in the
tables read the same bytes: a schema gives what is shown of the record that the reader gives. -/

namespace TraceLedger

open Cbor

namespace Cbor.Dag

theorem Reader.bind_assoc (r : Reader α) (f : α → Reader β) (g : β → Reader γ) :
    r >>= f >>= g = r >>= fun a => f a >>= g := by
  funext budget input
  show Reader.bind (Reader.bind r f) g budget input = Reader.bind r (fun a => f a >>= g) budget input
  unfold Reader.bind
  cases r budget input <;> rfl

theorem Reader.bind_pure (r : Reader α) : r >>= pure = r := by
  funext budget input
  show Reader.bind r pure budget input = r budget input
  unfold Reader.bind
  cases r budget input <;> rfl

instance : LawfulMonad Reader :=
  LawfulMonad.mk' Reader Reader.bind_pure (fun _ _ => rfl) Reader.bind_assoc

theorem bind_of_eq_none {r : Reader α} (k : α → Reader β) {budget : Nat} {input : List UInt8}
    (h : r budget input = none) : (r >>= k) budget input = none := by
  show Reader.bind r k budget input = none
  rw [Reader.bind, h]

theorem map_step (f : α → β) (r : Reader α) : f <$> step r = step (f <$> r) := by
  funext budget input
  cases budget <;> rfl

/-- What is not null is read as a value. -/
theorem optional_eq_step (r : Reader α) (budget : Nat) {input : List UInt8}
    (h : ∀ rest, input ≠ 0xf6 :: rest) : optional r budget input = step (some <$> r) budget input := by
  unfold optional
  split
  next rest => exact absurd rfl (h rest)
  next => rfl

theorem map_optional (f : α → β) (r : Reader α) :
    Option.map f <$> optional r = optional (f <$> r) := by
  have hstep : Option.map f <$> step (some <$> r) = step (some <$> f <$> r) := by
    simp only [map_step, Functor.map_map, Option.map_some]
  funext budget input
  by_cases hnull : ∃ rest, input = 0xf6 :: rest
  · obtain ⟨rest, rfl⟩ := hnull
    rfl
  · have hvalue : ∀ rest, input ≠ 0xf6 :: rest := fun rest h => hnull ⟨rest, h⟩
    rw [optional_eq_step (f <$> r) budget hvalue, ← hstep]
    show Reader.bind (optional r) _ budget input = Reader.bind (step (some <$> r)) _ budget input
    rw [Reader.bind, Reader.bind, optional_eq_step r budget hvalue]

end Cbor.Dag

namespace Schema

open Dag

theorem map_tupleOf (f : α → β) (size : Nat) (r : Reader α) :
    f <$> tupleOf size r = tupleOf size (f <$> r) := by
  unfold tupleOf
  rw [map_step, map_bind]
  congr 2
  funext n
  split <;> rfl

theorem yields_octets (size : Nat) : (octets size).Yields fun bytes => bytes.length = size := by
  refine yields_bind _ fun bytes => ?_
  split
  next h => exact yields_pure h
  next => exact yields_refuse

/-- No schema reads anything from no bytes. -/
theorem read_nil (network : Network) (schema : Schema) (budget : Nat) :
    schema.read network budget [] = none := by
  cases schema with
  | optional schema =>
      have hvalue : Dag.optional (schema.read network) budget [] = none := by
        cases budget with
        | zero => rfl
        | succ budget => exact bind_of_eq_none _ (read_nil network schema budget)
      exact bind_of_eq_none _ hvalue
  | named name schema =>
      exact bind_of_eq_none _ (read_nil network schema budget)
  | _ => cases budget <;> rfl

section Records

variable (network : Network)

theorem read_execution :
    MethodSchema.execution.read network = Execution.toJson <$> Execution.reader := by
  simp [MethodSchema.execution, Schema.read, readFields, Execution.reader, Execution.toJson,
    map_tupleOf]

theorem read_namedExecution :
    MethodSchema.namedExecution.read network = NamedExecution.toJson <$> NamedExecution.reader := by
  simp [MethodSchema.namedExecution, Schema.read, readFields, NamedExecution.reader, NamedExecution.toJson,
    map_tupleOf]

theorem read_newActor :
    MethodSchema.newActor.read network = NewActor.toJson network <$> NewActor.reader := by
  simp [MethodSchema.newActor, Schema.read, readFields, NewActor.reader, NewActor.toJson,
    map_tupleOf]

theorem read_newContract :
    MethodSchema.newContract.read network = NewContract.toJson network <$> NewContract.reader := by
  simp [MethodSchema.newContract, Schema.read, readFields, NewContract.reader, NewContract.toJson,
    map_tupleOf, ← map_optional]

end Records
end Schema

namespace Creation

open Schema

/-- Where the code is in the parameters of a creation. -/
theorem code?_execution (bytes : List UInt8) :
    code? 2 bytes = (Dag.run Execution.reader bytes).map (·.code) := by
  have hreader : (tupleOf 2 do
      let code ← Dag.link
      skipBytes 1
      return code) = (·.code) <$> Execution.reader := by
    simp [Execution.reader, map_tupleOf, skipBytes]
  rw [code?, hreader]
  exact Dag.run_map _ _ _

theorem code?_namedExecution (bytes : List UInt8) :
    code? 3 bytes = (Dag.run NamedExecution.reader bytes).map (·.code) := by
  have hreader : (tupleOf 3 do
      let code ← Dag.link
      skipBytes 2
      return code) = (·.code) <$> NamedExecution.reader := by
    simp [NamedExecution.reader, map_tupleOf, skipBytes]
  rw [code?, hreader]
  exact Dag.run_map _ _ _

end Creation

namespace NewContract

open Schema

theorem length_name_of_run {bytes : List UInt8} {contract : NewContract}
    (h : Dag.run reader bytes = some contract) :
    contract.name.length = MethodSchema.ethereumSize := by
  have hname : (octets MethodSchema.ethereumSize).Yields
      fun name => name.length = MethodSchema.ethereumSize := yields_octets _
  have hcontract : reader.Yields fun c => c.name.length = MethodSchema.ethereumSize :=
    yields_tupleOf _ <| Dag.yields_bind _ fun _ => Dag.yields_bind _ fun _ =>
      hname.bind fun _ h => Dag.yields_pure h
  exact Dag.property_of_run hcontract h

/-- A name of an Ethereum address is short enough for an address of its manager. -/
theorem isSome_info? {contract : NewContract}
    (h : contract.name.length = MethodSchema.ethereumSize) (ctx : CallContext) :
    (contract.info? ctx).isSome := by
  have hle : contract.name.length ≤ 54 := h ▸ (by decide)
  simp [info?, Address.delegated?, hle]

end NewContract
end TraceLedger
