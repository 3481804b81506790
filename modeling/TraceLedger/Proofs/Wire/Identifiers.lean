import TraceLedger.Address.Basic
import TraceLedger.Cid
import TraceLedger.Proofs.Wire.Numbers

/-! # Links and addresses read back from their bytes

A link tells its own end, so it is read back whatever follows it; an address does not. -/

namespace TraceLedger

namespace Cid

/-- The length of a digest takes one byte. -/
theorem read_length (hash : Multihash) (rest : List UInt8) :
    Varint.read (UInt8.ofNat hash.digest.length :: rest) =
      some (UInt64.ofNat hash.digest.length, rest) := by
  have hle := hash.length_le
  have hbyte : (UInt8.ofNat hash.digest.length).toNat = hash.digest.length :=
    UInt8.toNat_ofNat_of_lt' (by omega : _ < 256)
  rw [Varint.read_cons_of_lt (by omega), hbyte]

theorem readHash_append (hash : Multihash) (rest : List UInt8) :
    readHash (Varint.encode hash.code ++ UInt8.ofNat hash.digest.length :: (hash.digest ++ rest)) =
      some (hash, rest) := by
  have hle := hash.length_le
  have hword : (UInt64.ofNat hash.digest.length).toNat = hash.digest.length :=
    UInt64.toNat_ofNat_of_lt' (Nat.lt_of_le_of_lt hle (by decide))
  simp [readHash, Varint.read_encode, read_length, hword, hle]

theorem read_toBytes_append (c : Cid) (rest : List UInt8) :
    read (c.toBytes ++ rest) = some (c, rest) := by
  cases c with
  | v0 digest =>
      have hsize := digest.2
      rw [toBytes, List.cons_append, List.cons_append, read,
        Varint.read_cons_of_lt (by decide)]
      simp [Varint.read_cons_of_lt, hsize]
  | v1 codec hash =>
      rw [toBytes, List.cons_append, read, Varint.read_cons_of_lt (by decide)]
      simp [Varint.read_encode, readHash_append]

theorem ofBytes?_toBytes (c : Cid) : ofBytes? c.toBytes = some c := by
  have h := read_toBytes_append c []
  rw [List.append_nil] at h
  simp [ofBytes?, h]

theorem length_toBytes_le (c : Cid) : c.toBytes.length ≤ 86 := by
  cases c with
  | v0 digest => simp [toBytes, digest.2]
  | v1 codec hash =>
      have hcodec := Varint.length_encode_le codec
      have hcode := Varint.length_encode_le hash.code
      have hdigest := hash.length_le
      simp only [toBytes, List.length_cons, List.length_append]
      omega

end Cid

namespace Address

theorem payload_ne_nil (a : Address) : a.payload ≠ [] := by
  have hoctets {n : Nat} (bytes : Octets (n + 1)) : bytes.1 ≠ [] :=
    List.ne_nil_of_length_eq_add_one bytes.2
  cases a with
  | id number => exact Varint.encode_ne_nil number
  | secp256k1 hash => exact hoctets hash
  | actor hash => exact hoctets hash
  | bls key => exact hoctets key
  | delegated manager name => simp [payload, Varint.encode_ne_nil]

theorem ofBytes?_toBytes (a : Address) : ofBytes? a.toBytes = some a := by
  unfold ofBytes?
  split
  · next h => cases h
  · next h => exact absurd (List.cons.inj h).2 (payload_ne_nil a)
  · next h =>
      obtain ⟨rfl, rfl⟩ := List.cons.inj h
      cases a with
      | id number =>
          have hread := Varint.read_encode number []
          rw [List.append_nil] at hread
          simp [protocol, payload, hread]
      | secp256k1 hash => simp [protocol, payload, Octets.ofList?_val]
      | actor hash => simp [protocol, payload, Octets.ofList?_val]
      | bls key => simp [protocol, payload, Octets.ofList?_val]
      | delegated manager name =>
          simp [protocol, payload, Varint.read_encode, delegated?, name.2]

theorem length_toBytes_le (a : Address) : a.toBytes.length ≤ 65 := by
  cases a with
  | id number =>
      have := Varint.length_encode_le number
      simp only [toBytes, payload, List.length_cons]
      omega
  | secp256k1 hash => simp [toBytes, payload, hash.2]
  | actor hash => simp [toBytes, payload, hash.2]
  | bls key => simp [toBytes, payload, key.2]
  | delegated manager name =>
      have := Varint.length_encode_le manager
      have := name.2
      simp only [toBytes, payload, List.length_cons, List.length_append]
      omega

end Address
end TraceLedger
