import TraceLedger.Method.Definition
import TraceLedger.Proofs.Text.Positional

/-! # Numbers of methods

Numbers that were derived from names by the hash are large, and those that were given by hand are
small, though none of these is that of a method that every actor has. So it is enough to know that
no two exported names have the same hash, and this is seen from the list of their numbers. -/

namespace TraceLedger

namespace Frc42

/-- A number that was found in a digest is large enough. -/
theorem firstNumber_le_of_firstLarge {count : Nat} {digest : List UInt8} {n : UInt64}
    (h : firstLarge count digest = some n) : firstNumber ≤ n.toNat := by
  induction count generalizing digest with
  | zero => cases h
  | succ count ih =>
      have hlt := BigEndian.decode_lt (digest.take 4)
      have hword : 256 ^ (digest.take 4).length ≤ 256 ^ 4 :=
        Nat.pow_le_pow_right (by decide) (List.length_take_le 4 digest)
      simp only [firstLarge] at h
      split at h
      next hlarge =>
        cases h
        rw [UInt64.toNat_ofNat_of_lt' (by rw [UInt64.size]; omega)]
        exact hlarge
      next => exact ih h

/-- Only the name of constructors has a small number. -/
theorem firstNumber_le_of_number? {name : String} {n : UInt64} (hname : name ≠ "Constructor")
    (h : number? name = some n) : firstNumber ≤ n.toNat := by
  rw [number?, if_neg hname] at h
  split at h
  · exact firstNumber_le_of_firstLarge h
  · cases h

/-- The exported names with their numbers. -/
def assigned : List (String × UInt64) := [
  ("Exec", 81225168),
  ("AuthenticateMessage", 2643134072),
  ("Receive", 3726118371),
  ("CreateMiner", 1173380165),
  ("NetworkRawPower", 931722534),
  ("MinerRawPower", 3753401894),
  ("MinerCount", 1987646258),
  ("MinerConsensusCount", 196739875),
  ("MinerPower", 36284446),
  ("ChangeWorkerAddress", 3302309124),
  ("ChangePeerID", 1236548004),
  ("WithdrawBalance", 2280458852),
  ("ChangeMultiaddrs", 1063480576),
  ("ConfirmChangeWorkerAddress", 2354970453),
  ("RepayDebt", 3665352697),
  ("ChangeOwnerAddress", 1010589339),
  ("ChangeBeneficiary", 1570634796),
  ("GetBeneficiary", 4158972569),
  ("GetOwner", 3275365574),
  ("IsControllingAddress", 348244887),
  ("GetSectorSize", 3858292296),
  ("GetAvailableBalance", 4026106874),
  ("GetVestingFunds", 1726876304),
  ("GetPeerID", 2812875329),
  ("GetMultiaddrs", 1332909407),
  ("InitialPledge", 3180523767),
  ("AddBalance", 822473126),
  ("PublishStorageDeals", 2236929350),
  ("GetBalance", 726108461),
  ("GetDealDataCommitment", 1157985802),
  ("GetDealClient", 128053329),
  ("GetDealProvider", 935081690),
  ("GetDealLabel", 46363526),
  ("GetDealTerm", 163777312),
  ("GetDealTotalPrice", 4287162428),
  ("GetDealClientCollateral", 200567895),
  ("GetDealProviderCollateral", 2986712137),
  ("GetDealVerified", 2627389465),
  ("GetDealActivation", 2567238399),
  ("GetDealSector", 2611213344),
  ("SettleDealPayments", 1900091594),
  ("SectorContentChanged", 2034386435),
  ("Propose", 1696838335),
  ("Approve", 1289044053),
  ("Cancel", 3365893656),
  ("AddSigner", 3028530033),
  ("RemoveSigner", 21182899),
  ("SwapSigner", 3968117037),
  ("ChangeNumApprovalsThreshold", 3375931653),
  ("LockBalance", 1999470977),
  ("AddVerifiedClient", 3916220144),
  ("RemoveExpiredAllocations", 2421068268),
  ("GetClaims", 2199871187),
  ("ExtendClaimTerms", 1752273514),
  ("RemoveExpiredClaims", 2873373899),
  ("Mint", 116935346),
  ("Destroy", 2624896501),
  ("Name", 48890204),
  ("Symbol", 2061153854),
  ("Granularity", 3936767397),
  ("TotalSupply", 114981429),
  ("Balance", 3261979605),
  ("Transfer", 80475954),
  ("TransferFrom", 3621052141),
  ("IncreaseAllowance", 1777121560),
  ("DecreaseAllowance", 1529376545),
  ("RevokeAllowance", 2765635761),
  ("Burn", 1434719642),
  ("BurnFrom", 2979674018),
  ("Allowance", 4205072950),
  ("InvokeEVM", 3844450837)]

theorem number?_of_mem_assigned : ∀ row ∈ assigned, number? row.1 = some row.2 := by
  decide +kernel

end Frc42

namespace MethodDef

/-- The number of a method, if it was given by hand or its name is in the list. -/
def listed? (d : MethodDef) : Option UInt64 :=
  match d.numbering with
  | .fixed n => some n
  | .hashed name => (Frc42.assigned.find? (·.1 = name)).map Prod.snd

theorem number?_of_listed? {d : MethodDef} {n : UInt64} (h : d.listed? = some n) :
    d.number? = some n := by
  cases hd : d.numbering with
  | fixed number =>
      rw [listed?, hd] at h
      rw [number?, hd]
      exact h
  | hashed name =>
      rw [listed?, hd] at h
      obtain ⟨row, hrow, rfl⟩ := Option.map_eq_some_iff.mp h
      have hname : row.1 = name := by simpa using List.find?_some hrow
      rw [number?, hd, ← hname]
      exact Frc42.number?_of_mem_assigned row (List.mem_of_find?_eq_some hrow)

theorem isSome_listed? : ∀ actor, ∀ d ∈ ofActor actor, d.listed?.isSome = true := by
  intro actor
  cases actor <;> decide +kernel

/-- Every definition has its number in the list. -/
theorem number?_eq_listed? {actor : ActorKind} {d : MethodDef} (h : d ∈ ofActor actor) :
    d.number? = d.listed? := by
  obtain ⟨n, hn⟩ := Option.isSome_iff_exists.mp (isSome_listed? actor d h)
  rw [hn, number?_of_listed? hn]

theorem isActive_iff {d : MethodDef} {release : UInt32} :
    d.isActive release = true ↔ d.added ≤ release ∧ release < d.retired := by
  simp [isActive]

/-- Some release may have both methods. -/
def Overlaps (d e : MethodDef) : Prop := d.added < e.retired ∧ e.added < d.retired

instance (d e : MethodDef) : Decidable (d.Overlaps e) := inferInstanceAs (Decidable (_ ∧ _))

theorem overlaps_of_isActive {d e : MethodDef} {release : UInt32}
    (hd : d.isActive release = true) (he : e.isActive release = true) : d.Overlaps e := by
  rw [isActive_iff] at hd he
  exact ⟨UInt32.lt_of_le_of_lt hd.1 he.2, UInt32.lt_of_le_of_lt he.1 hd.2⟩

/-- Methods of an actor that stand in one release have different numbers. -/
theorem pairwise_apart : ∀ actor, (ofActor actor).Pairwise fun d e =>
    d.Overlaps e → d.listed? ≠ e.listed? := by
  intro actor
  cases actor <;> decide +kernel

/-- A number that was given by hand is less than all that are derived from names, and no method
that every actor has bears it. -/
def IsManual (n : UInt64) : Prop := 2 ≤ n ∧ n.toNat < Frc42.firstNumber

instance (n : UInt64) : Decidable (IsManual n) := inferInstanceAs (Decidable (_ ∧ _))

/-- A definition keeps clear of the numbers and the names of the methods that every actor has. -/
def IsOwn (d : MethodDef) : Prop :=
  (d.name ≠ "Send" ∧ d.name ≠ "Constructor") ∧
    match d.numbering with
    | .fixed n => IsManual n
    | .hashed name => name ≠ "Constructor"

instance (d : MethodDef) : Decidable d.IsOwn := by
  unfold IsOwn
  cases d.numbering <;> exact inferInstance

theorem isOwn_of_mem : ∀ actor, ∀ d ∈ ofActor actor, d.IsOwn := by
  intro actor
  cases actor <;> decide +kernel

theorem isManual_of_fixed {actor : ActorKind} {d : MethodDef} (h : d ∈ ofActor actor)
    {n : UInt64} (hn : d.numbering = .fixed n) : IsManual n := by
  have hown := (isOwn_of_mem actor d h).2
  rwa [hn] at hown

theorem firstNumber_le_of_hashed {actor : ActorKind} {d : MethodDef} (h : d ∈ ofActor actor)
    {name : String} (hname : d.numbering = .hashed name) {n : UInt64} (hn : d.number? = some n) :
    Frc42.firstNumber ≤ n.toNat := by
  have hown := (isOwn_of_mem actor d h).2
  rw [hname] at hown
  rw [number?, hname] at hn
  exact Frc42.firstNumber_le_of_number? hown hn

/-- The two numbers below are those of the methods that every actor has. -/
theorem two_le_of_number? {actor : ActorKind} {d : MethodDef} (h : d ∈ ofActor actor)
    {n : UInt64} (hn : d.number? = some n) : 2 ≤ n := by
  cases hd : d.numbering with
  | fixed number =>
      rw [number?, hd] at hn
      cases hn
      exact (isManual_of_fixed h hd).1
  | hashed name =>
      have hle := firstNumber_le_of_hashed h hd hn
      exact UInt64.le_iff_toNat_le.mpr (Nat.le_trans (by decide) hle)

end MethodDef
end TraceLedger
