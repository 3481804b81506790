import TraceLedger.Address.Basic
import TraceLedger.Hash.Blake2b
import TraceLedger.Network
import TraceLedger.Text.Base32
import TraceLedger.Text.Blank
import TraceLedger.Decimal.Word
import TraceLedger.Text.Quoted

/-! # The text of addresses

A network letter, a protocol digit, and the payload in base 32 with a checksum. Actor numbers
are decimal and have no checksum. The reader takes the letter of either network. -/

namespace TraceLedger.Address

/-- Four bytes over the binary form that guard against misspelling. -/
def checksum (a : Address) : List UInt8 := Blake2b.hash 4 a.toBytes

/-- The text behind the network letter. -/
def body : Address → List Char
  | id number => '0' :: (toString number).toList
  | a@(secp256k1 hash) => '1' :: Base32.encode (hash.1 ++ a.checksum)
  | a@(actor hash) => '2' :: Base32.encode (hash.1 ++ a.checksum)
  | a@(bls key) => '3' :: Base32.encode (key.1 ++ a.checksum)
  | a@(delegated manager name) =>
    '4' :: (toString manager).toList ++ 'f' :: Base32.encode (name.1 ++ a.checksum)

/-- The text of an address on a network. -/
def toText (network : Network) (a : Address) : String := String.ofList (network.letter :: a.body)

/-- What is wrong with the part of a text behind the network letter. -/
inductive Fault where
  | length
  | protocol
  | payload
  | base32
  | checksum
  | nameLength (n : Nat)
deriving DecidableEq

def Fault.message : Fault → String
  | length => "Invalid address length"
  | protocol => "Unknown address protocol"
  | payload => "Invalid address payload"
  | base32 => "Decoding for address failed"
  | checksum => "Invalid address checksum"
  | nameLength n => "Invalid payload length: " ++ toString n

/-- Why a text is no address. The text is given without the white space around it. -/
inductive TextError where
  /-- It does not start with the letter of a network. -/
  | network (text : List Char)
  | malformed (text : List Char) (fault : Fault)
deriving DecidableEq

def TextError.message : TextError → String
  | network text => "invalid address " ++ Quoted.quote text
  | malformed text fault => "invalid address " ++ String.ofList text ++ ": " ++ fault.message

/-- Number of bytes of a text. -/
def size (text : List Char) : Nat := (String.ofList text).utf8ByteSize

/-- Reads the number of an actor. -/
def number? (text : List Char) : Except Fault UInt64 :=
  if 20 < size text then .error .length
  else match Decimal.word? text with
    | some n => .ok n
    | none => .error .payload

/-- Bytes of the checksum. -/
def checksumSize : Nat := 4

/-- Takes the checksum off the payload, and compares it with the one of the whole. `head` is
what stands before the payload in the binary form. -/
def checked (head : List UInt8) (text : List Char) : Except Fault (List UInt8) :=
  match Base32.decode? text with
  | none => .error .base32
  | some bytes =>
    if bytes.length < checksumSize then .error .length
    else
      let payload := bytes.take (bytes.length - checksumSize)
      if bytes.drop (bytes.length - checksumSize) = Blake2b.hash checksumSize (head ++ payload) then
        .ok payload
      else .error .checksum

/-- Reads the payload of a protocol with a fixed size. -/
def sized (n : Nat) (protocol : UInt8) (make : Octets n → Address) (text : List Char) :
    Except Fault Address :=
  match checked [protocol] text with
  | .error fault => .error fault
  | .ok payload =>
    match Octets.ofList? n payload with
    | some octets => .ok (make octets)
    | none => .error .payload

/-- Reads the manager's number, then the name that it gave out. -/
def delegatedOfText (text : List Char) : Except Fault Address :=
  match text.dropWhile (· ≠ 'f') with
  | [] => .error .payload
  | _ :: name =>
    match number? (text.takeWhile (· ≠ 'f')) with
    | .error fault => .error fault
    | .ok manager =>
      match checked (4 :: Varint.encode manager) name with
      | .error fault => .error fault
      | .ok name =>
        match delegated? manager name with
        | some a => .ok a
        | none => .error (.nameLength name.length)

/-- Reads what stands behind the network letter. -/
def ofBody (text : List Char) : Except Fault Address :=
  if size text < 2 ∨ 137 < size text then .error .length
  else match text with
    | '0' :: rest => (number? rest).map id
    | '1' :: rest => sized 20 1 secp256k1 rest
    | '2' :: rest => sized 20 2 actor rest
    | '3' :: rest => sized 48 3 bls rest
    | '4' :: rest => delegatedOfText rest
    | _ => .error .protocol

/-- Reads the text of an address, with the letter of either network and white space around. -/
def ofText (text : String) : Except TextError Address :=
  let text := Blank.trim text.toList
  match text with
  | letter :: body =>
    if body.isEmpty ∨ ¬ (letter = 'f' ∨ letter = 't') then .error (.network text)
    else match ofBody body with
      | .ok a => .ok a
      | .error fault => .error (.malformed text fault)
  | [] => .error (.network text)

end TraceLedger.Address
