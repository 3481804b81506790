import TraceLedger.Wire.Varint
import TraceLedger.Wire.Octets
import TraceLedger.Text.Hex

/-! # Addresses

An actor is named by its number or by one of several robust forms that do not change when the
chain is reorganised. The binary form is a protocol byte and a payload. -/

namespace TraceLedger

/-- An address of an actor. -/
inductive Address where
  /-- The actor's number. -/
  | id (number : UInt64)
  /-- Hash of a secp256k1 public key. -/
  | secp256k1 (hash : Octets 20)
  /-- Hash that an actor got when it was created. -/
  | actor (hash : Octets 20)
  /-- A BLS public key. -/
  | bls (key : Octets 48)
  /-- A name given out by the address manager with the given number. -/
  | delegated (manager : UInt64) (name : { bytes : List UInt8 // bytes.length ≤ 54 })
deriving DecidableEq

namespace Address

/-- The protocol number. -/
def protocol : Address → UInt8
  | id _ => 0
  | secp256k1 _ => 1
  | actor _ => 2
  | bls _ => 3
  | delegated _ _ => 4

/-- What follows the protocol number in the binary form. -/
def payload : Address → List UInt8
  | id number => Varint.encode number
  | secp256k1 hash => hash.1
  | actor hash => hash.1
  | bls key => key.1
  | delegated manager name => Varint.encode manager ++ name.1

/-- The binary form. -/
def toBytes (a : Address) : List UInt8 := a.protocol :: a.payload

def isId : Address → Bool
  | id _ => true
  | _ => false

/-- The address with the given manager and name. -/
def delegated? (manager : UInt64) (name : List UInt8) : Option Address :=
  if h : name.length ≤ 54 then some (delegated manager ⟨name, h⟩) else none

/-- Reads the binary form. -/
def ofBytes? (bytes : List UInt8) : Option Address :=
  match bytes with
  | [] | [_] => none
  | protocol :: payload =>
    if protocol = 0 then
      match Varint.read payload with
      | some (number, []) => some (id number)
      | _ => none
    else if protocol = 1 then (Octets.ofList? 20 payload).map secp256k1
    else if protocol = 2 then (Octets.ofList? 20 payload).map actor
    else if protocol = 3 then (Octets.ofList? 48 payload).map bls
    else if protocol = 4 then
      match Varint.read payload with
      | some (manager, name) => delegated? manager name
      | none => none
    else none

/-- Number of the actor that hands out Ethereum addresses. -/
def ethereumManager : UInt64 := 10

/-- The Ethereum form of an address that was given out by the Ethereum address manager. -/
def ethereum? : Address → Option String
  | delegated manager name =>
    if manager = ethereumManager ∧ name.1.length = 20 then some ("0x" ++ Hex.encode name.1)
    else none
  | _ => none

end Address
end TraceLedger
