import TraceLedger.Proofs.Cbor.Heads
import TraceLedger.Proofs.Text.Digits
import TraceLedger.Proofs.Wire.Identifiers
import TraceLedger.Tipset.Basic

/-! # What is hashed for a tipset tells its key

The links of a key stand one behind the other, with nothing between them. Still they are told
apart, as each link tells where it ends, and the head in front tells where they begin. So two keys
have one identifier only if two different preimages have one hash. -/

namespace TraceLedger

namespace Cid

theorem toBytes_append_inj {c d : Cid} {rest rest' : List UInt8}
    (h : c.toBytes ++ rest = d.toBytes ++ rest') : c = d ∧ rest = rest' := by
  have hread := read_toBytes_append c rest
  rw [h, read_toBytes_append] at hread
  obtain ⟨hcid, hrest⟩ := Prod.mk.inj (Option.some.inj hread)
  exact ⟨hcid.symm, hrest.symm⟩

theorem toBytes_ne_nil (c : Cid) : c.toBytes ≠ [] := by
  cases c <;> exact List.cons_ne_nil _ _

theorem flatMap_toBytes_injective :
    Function.Injective fun cids : List Cid => cids.flatMap toBytes := by
  intro cids others h
  have hall (cids : List Cid) : ∀ c ∈ cids, True := fun _ _ => trivial
  exact eq_of_flatMap_eq (fun c _ => c.toBytes_ne_nil)
    (fun _ _ _ _ _ _ => toBytes_append_inj) (hall cids) (hall others) h

end Cid

namespace TipsetKey

variable {a b key : TipsetKey}

theorem preimage_injective : Function.Injective preimage := by
  intro a b h
  obtain ⟨-, hbytes⟩ := Cbor.head_append_inj h
  exact congrArg mk (Cid.flatMap_toBytes_injective hbytes)

theorem cid_eq_ok (h : key.cids ≠ []) :
    key.cid = .ok (.ofContent Cid.dagCbor key.preimage) := by
  have hblocks : ¬key.cids.isEmpty := by simpa using h
  rw [cid, if_neg hblocks]

/-- Identifiers are alike exactly if the hashes are. -/
theorem cid_eq_cid_iff (ha : a.cids ≠ []) (hb : b.cids ≠ []) :
    a.cid = b.cid ↔ Blake2b.hash 32 a.preimage = Blake2b.hash 32 b.preimage := by
  rw [cid_eq_ok ha, cid_eq_ok hb]
  simp [Cid.ofContent, Multihash.blake2b256]

/-- What is hashed for keys with blocks tells them apart, and so do their identifiers, as long as
the hash of one is not that of the other. -/
structure ToldByPreimages : Prop where
  cids_eq : ∀ a b : TipsetKey, a.preimage = b.preimage → a.cids = b.cids
  cid_eq : ∀ key : TipsetKey, key.cids ≠ [] →
    key.cid = .ok (.ofContent Cid.dagCbor key.preimage)
  cid_ne : ∀ a b : TipsetKey, a.cids ≠ [] → b.cids ≠ [] → a ≠ b →
    (Blake2b.hash 32 a.preimage = Blake2b.hash 32 b.preimage → a.preimage = b.preimage) →
    a.cid ≠ b.cid

/-- Every key is told by what is hashed for it. -/
theorem told_by_preimages : ToldByPreimages where
  cids_eq _ _ h := congrArg cids (preimage_injective h)
  cid_eq _ h := cid_eq_ok h
  cid_ne _ _ ha hb hne hhash heq :=
    hne (preimage_injective (hhash ((cid_eq_cid_iff ha hb).mp heq)))

end TipsetKey
end TraceLedger
