import TraceLedger.Proofs.Text.Digits
import TraceLedger.Proofs.Text.Positional
import TraceLedger.Proofs.Wire.Identifiers

/-! # The text of a link tells the link

A link of version 1 is read back behind its letter. A link of version 0 has no such letter; it is
told apart by its first symbol, which is fixed by the two bytes that it starts with. -/

namespace TraceLedger.Cid

theorem toBytes_injective : Function.Injective toBytes := injective_of_decode?_encode ofBytes?_toBytes

theorem nodup_base58 : Positional.base58.Nodup := by decide

theorem length_base58 : Positional.base58.length = 58 := by decide

theorem one_lt_length_base58 : 1 < Positional.base58.length := by
  rw [length_base58]
  decide

theorem head?_encode_v0 (digest : Octets 32) :
    (Positional.encode Positional.base58 (v0 digest).toBytes).head? = some 'Q' := by
  have hdigest := BigEndian.decode_lt digest.1
  have hsize : (0x20 :: digest.1).length = 33 := by rw [List.length_cons, digest.2]
  have hnumber : BigEndian.decode (0x12 :: 0x20 :: digest.1) =
      0x12 * 256 ^ 33 + (0x20 * 256 ^ 32 + BigEndian.decode digest.1) := by
    rw [BigEndian.decode_cons, BigEndian.decode_cons, hsize, digest.2]
    rfl
  rw [digest.2] at hdigest
  have hlow : 23 * 58 ^ 45 ≤ 0x12 * 256 ^ 33 + 0x20 * 256 ^ 32 := by decide
  have hhigh : 0x12 * 256 ^ 33 + 0x21 * 256 ^ 32 ≤ 24 * 58 ^ 45 := by decide
  have hle : 23 * Positional.base58.length ^ 45 ≤
      BigEndian.decode (0x12 :: 0x20 :: digest.1) := by
    rw [hnumber, length_base58]
    omega
  have hlt : BigEndian.decode (0x12 :: 0x20 :: digest.1) <
      (23 + 1) * Positional.base58.length ^ 45 := by
    rw [hnumber, length_base58]
    omega
  exact Positional.head?_encode one_lt_length_base58 (by decide) (by decide) (by decide) hle hlt

theorem toText_v0_ne_v1 (digest : Octets 32) (codec : UInt64) (hash : Multihash) :
    (v0 digest).toText ≠ (v1 codec hash).toText := by
  intro h
  have hhead := head?_encode_v0 digest
  rw [toText, toText, String.ofList_inj] at h
  rw [h] at hhead
  cases hhead

theorem encode_base58_injective : Function.Injective (Positional.encode Positional.base58) :=
  injective_of_decode?_encode (Positional.decode?_encode nodup_base58 one_lt_length_base58)

theorem toText_injective {c d : Cid} (h : c.toText = d.toText) : c = d := by
  match c, d with
  | v0 digest, v0 digest' =>
      rw [toText, toText, String.ofList_inj] at h
      exact toBytes_injective (encode_base58_injective h)
  | v1 codec hash, v1 codec' hash' =>
      rw [toText, toText, String.ofList_inj] at h
      exact toBytes_injective (Base32.encode_injective (List.cons.inj h).2)
  | v0 digest, v1 codec hash => exact (toText_v0_ne_v1 digest codec hash h).elim
  | v1 codec hash, v0 digest => exact (toText_v0_ne_v1 digest codec hash h.symm).elim

theorem length_toList_toText_le (c : Cid) : c.toText.toList.length ≤ 139 := by
  cases c with
  | v0 digest =>
      have hsize : (v0 digest).toBytes.length = 34 := by simp [toBytes, digest.2]
      have hle : 256 ^ (v0 digest).toBytes.length ≤ Positional.base58.length ^ 47 := by
        rw [hsize, length_base58]
        decide
      have hlength := Positional.length_encode_le one_lt_length_base58 hle
      rw [toText, String.toList_ofList]
      omega
  | v1 codec hash =>
      have hsize := length_toBytes_le (v1 codec hash)
      rw [toText, String.toList_ofList, List.length_cons, Base32.length_encode]
      omega

end TraceLedger.Cid
