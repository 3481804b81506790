import Mathlib.Algebra.Ring.Int.Defs
import TraceLedger.Proofs.Call.Typed
import TraceLedger.Proofs.Schema.Layouts
import TraceLedger.Proofs.Schema.Tuples

/-! # Big integers and claims of several layouts

A big integer stands bare or alone in a list. What was claimed is such an integer, or a list of
them, each in either layout; what is shown is their sum and the list, and the layout of none of them
matters. -/

namespace TraceLedger

open Cbor

namespace Schema

open Dag

/-! ## Big integers -/

/-- What is written of a big integer, in either layout. -/
inductive HoldsAmount : Datum → Int → Prop where
  | bare (n : Int) : HoldsAmount (.amount n) n
  | singleton (n : Int) : HoldsAmount (.list [.amount n]) n

theorem exists_looseAmount? {d : Datum} {n : Int} (h : HoldsAmount d n) (hfits : d.Fits) :
    ∃ v, d.toIpld? = some v ∧ looseAmount? v = some n := by
  cases h with
  | bare => exact ⟨_, rfl, SignedMagnitude.decode?_bytesOf hfits⟩
  | singleton => exact ⟨_, rfl, SignedMagnitude.decode?_bytesOf hfits.2.1⟩

theorem HoldsAmount.depth_le {d : Datum} {n : Int} (h : HoldsAmount d n) :
    d.toItem.depth ≤ 1 := by
  cases h with
  | bare => exact Nat.zero_le 1
  | singleton => exact Nat.le_refl 1

theorem roundTrips_looseAmount {d : Datum} {n : Int} (h : HoldsAmount d n) (hfits : d.Fits) :
    RoundTrips (loosely looseAmount?) d n := by
  obtain ⟨v, hv, htake⟩ := exists_looseAmount? h hfits
  exact roundTrips_of_reads (reads_loosely hv htake) hfits (h.depth_le.trans (by decide))

theorem looseAmount?_list_eq_none {items : List Ipld} (h : items.length ≠ 1) :
    looseAmount? (.list items) = none := by
  match items with
  | [] => rfl
  | [item] => exact absurd rfl h
  | item :: other :: items => rfl

theorem run_looseAmount_eq_none {n : UInt64} {input rest : List UInt8}
    (hhead : IsHeaded .list n input rest) (hn : n ≠ 1) :
    run (loosely looseAmount?) input = none := by
  rw [run_loosely, Option.bind_eq_none_iff]
  intro v hv
  obtain ⟨items, rfl, hlength⟩ := ipld?_of_list hhead hv
  refine looseAmount?_list_eq_none fun hone => hn ?_
  rw [hone] at hlength
  exact UInt64.toNat_inj.mp hlength.symm

/-! ## Claims -/

/-- What is written of what was claimed: a total, or an amount for each group of sectors. -/
inductive HoldsClaimed : Datum → Claimed → Prop where
  | total (n : Int) : HoldsClaimed (.amount n) (.total n)
  | sectors {items : List Datum} {ns : List Int} (h : List.Forall₂ HoldsAmount items ns) :
    HoldsClaimed (.list items) (.sectors ns)

theorem exists_mapM_looseAmount? {items : List Datum} {ns : List Int}
    (h : List.Forall₂ HoldsAmount items ns) (hfit : Datum.itemsFit items) :
    ∃ vs, Datum.itemsToIpld? items = some vs ∧ vs.mapM looseAmount? = some ns := by
  induction h with
  | nil => exact ⟨[], rfl, rfl⟩
  | cons hitem _ ih =>
      obtain ⟨v, hv, hn⟩ := exists_looseAmount? hitem hfit.1
      obtain ⟨vs, hvs, hns⟩ := ih hfit.2
      exact ⟨v :: vs, by simp [Datum.itemsToIpld?, hv, hvs], by simp [hn, hns]⟩

theorem exists_claimed? {d : Datum} {c : Claimed} (h : HoldsClaimed d c) (hfits : d.Fits) :
    ∃ v, d.toIpld? = some v ∧ claimed? v = some c := by
  cases h with
  | total n =>
      have hdecode := SignedMagnitude.decode?_bytesOf hfits
      exact ⟨_, rfl, by simp [claimed?, scalar?, hdecode]⟩
  | sectors h =>
      obtain ⟨vs, hvs, hns⟩ := exists_mapM_looseAmount? h hfits.2
      exact ⟨.list vs, by simp [Datum.toIpld?, hvs], by simp [claimed?, hns]⟩

theorem HoldsClaimed.depth_le {d : Datum} {c : Claimed} (h : HoldsClaimed d c) :
    d.toItem.depth ≤ 2 := by
  cases h with
  | total => exact Nat.zero_le 2
  | @sectors items ns h =>
      have hboth := h.imp fun _ _ hitem => And.intro hitem.depth_le hitem
      have hdepth := Datum.itemsDepth_le ((List.forall₂_and_left items ns).mp hboth).1
      rw [Datum.toItem, Item.depth]
      omega

theorem reads_claimed {d : Datum} {c : Claimed} (h : HoldsClaimed d c) :
    Reads (loosely claimed?) d c := by
  intro out hout
  have hfits : d.Fits := d.isSome_toCbor?_iff.mp (Option.isSome_iff_exists.mpr ⟨out, hout⟩)
  obtain ⟨v, hv, hclaimed⟩ := exists_claimed? h hfits
  exact reads_loosely hv hclaimed hout

/-- Bytes that are a list of two: a batch, whatever it holds, and what was claimed. -/
def IsClaims (batch : Ipld) (claimed : Datum) (bytes : List UInt8) : Prop :=
  ∃ rest behind, IsHeaded .list 2 bytes rest ∧
    ipld (fullBudget - 1) rest = some (batch, behind) ∧ claimed.toCbor? = some behind

theorem IsClaims.ne_nil {batch : Ipld} {claimed : Datum} {bytes : List UInt8}
    (h : IsClaims batch claimed bytes) : bytes ≠ [] := by
  obtain ⟨_, _, hhead, -⟩ := h
  exact hhead.ne_nil

theorem exists_isClaims {batch claimed : Datum} {v : Ipld} (hv : batch.toIpld? = some v)
    (hfits : (Datum.list [batch, claimed]).Fits)
    (hdepth : 2 * batch.toItem.depth < fullBudget - 1) :
    ∃ bytes, (Datum.list [batch, claimed]).toCbor? = some bytes ∧ IsClaims v claimed bytes := by
  obtain ⟨bytes, hbytes⟩ := Option.isSome_iff_exists.mp (Datum.isSome_toCbor?_iff _ |>.mpr hfits)
  obtain ⟨body, hbody, -, rfl⟩ := exists_body_of_list hbytes
  obtain ⟨front, back, hfront, hback, rfl⟩ := Datum.itemsToCbor?_cons_eq_some hbody
  obtain ⟨behind, _, hbehind, hnil, rfl⟩ := Datum.itemsToCbor?_cons_eq_some hback
  cases hnil
  refine ⟨_, hbytes, front ++ (behind ++ []), behind, isHeaded_head _ _ _, ?_, hbehind⟩
  rw [List.append_nil]
  exact reads_ipld hv hfront hdepth behind

theorem ofBytes?_claims {network : Network} {batch : Ipld} {claimed : Datum} {c : Claimed}
    {bytes : List UInt8} (h : IsClaims batch claimed bytes) (hclaimed : HoldsClaimed claimed c) :
    claims.ofBytes? network bytes = some (showClaims batch c) := by
  obtain ⟨rest, behind, hhead, hbatch, hbehind⟩ := h
  have hdepth : 2 * claimed.toItem.depth < fullBudget - 1 :=
    Nat.lt_of_le_of_lt (Nat.mul_le_mul_left 2 hclaimed.depth_le) (by decide)
  have hread := reads_claimed hclaimed hbehind hdepth []
  rw [List.append_nil] at hread
  refine run_eq_some_iff.mpr ((tupleOf_eq hhead (fullBudget - 1)).trans ?_)
  have hsize : (2 : UInt64).toNat = 2 := rfl
  rw [if_pos hsize, bind_of_eq_some _ hbatch, bind_of_eq_some _ hread]
  rfl

end Schema

namespace Call

open Schema

/-- What a call with a result of claims comes to. -/
def ofClaims (methodNum : UInt64) (params : Json) (batch : Ipld) (space : Int)
    (groups : List Int) : DecodedCall :=
  .ofSides methodNum params (.object [
    ("BatchInfo", batch.toJson),
    ("ClaimedSpace", .text (toString space)),
    ("SectorClaims", .list (groups.map fun n => .text (toString n)))]) none

/-- How big integers and claims are read, whichever layout they have. -/
structure AmountsRead (ctx : CallContext) (actors : ActorRegistry) (methodNum : UInt64) :
    Prop where
  bare : ∀ n, (Datum.amount n).Fits → Dag.RoundTrips (loosely looseAmount?) (.amount n) n
  singleton : ∀ n, (Datum.amount n).Fits →
    Dag.RoundTrips (loosely looseAmount?) (.list [.amount n]) n
  /-- A list of another length is refused, whatever stands in it. -/
  refused : ∀ size input rest, IsHeaded .list size input rest → size ≠ 1 →
    Dag.run (loosely looseAmount?) input = none
  /-- A batch and claims that can be written make up a result. -/
  written : ∀ batch claimed v, (Datum.list [batch, claimed]).Fits → batch.toIpld? = some v →
    2 * batch.toItem.depth < Dag.fullBudget - 1 →
      ∃ result, (Datum.list [batch, claimed]).toCbor? = some result ∧ IsClaims v claimed result
  /-- Claims by sector, each amount in either layout. -/
  sectors : ∀ method ∈ names "ClaimAllocations", ∀ params shown,
    shownParams? ctx .verifiedRegistry method params = some shown →
      ∀ batch items ns result, List.Forall₂ HoldsAmount items ns →
        IsClaims batch (.list items) result →
          (Call.mk .verifiedRegistry methodNum method params result).decode ctx actors =
            .ok (ofClaims methodNum shown batch ns.sum ns)
  total : ∀ method ∈ names "ClaimAllocations", ∀ params shown,
    shownParams? ctx .verifiedRegistry method params = some shown →
      ∀ batch n result, IsClaims batch (.amount n) result →
        (Call.mk .verifiedRegistry methodNum method params result).decode ctx actors =
          .ok (ofClaims methodNum shown batch n [])
  /-- A single amount is the space claimed, in each of its layouts. -/
  single : ∀ method ∈ names "ClaimAllocations", ∀ params shown,
    shownParams? ctx .verifiedRegistry method params = some shown →
      ∀ batch n result,
        ∀ d ∈ [Datum.amount n, .list [.amount n], .list [.list [.amount n]]],
          IsClaims batch d result → ∃ groups,
            (Call.mk .verifiedRegistry methodNum method params result).decode ctx actors =
              .ok (ofClaims methodNum shown batch n groups)

theorem hasSchema_claimAllocations (ctx : CallContext) {method : String}
    (h : method ∈ names "ClaimAllocations") :
    HasSchema ctx .verifiedRegistry method
      (MethodSchema.verifiedRegistry ctx.version.actors "ClaimAllocations") :=
  hasSchema_of_mem_names (by decide) (by decide) rfl h

theorem decode_claims {ctx : CallContext} {method : String}
    (hmethod : method ∈ names "ClaimAllocations") {params : List UInt8} {shown : Json}
    (hparams : shownParams? ctx .verifiedRegistry method params = some shown) {batch : Ipld}
    {d : Datum} {c : Claimed} {result : List UInt8} (h : IsClaims batch d result)
    (hclaimed : HoldsClaimed d c) (actors : ActorRegistry) (methodNum : UInt64) :
    (Call.mk .verifiedRegistry methodNum method params result).decode ctx actors =
      .ok (ofClaims methodNum shown batch c.space c.groups) := by
  have hschema := hasSchema_claimAllocations ctx hmethod
  have hshown : shownResult? ctx .verifiedRegistry method result = some (showClaims batch c) :=
    (hschema.shownResult? result).trans
      (SideSchema.show?_typed h.ne_nil (ofBytes?_claims h hclaimed) nofun)
  exact hschema.decode_eq_ok rfl actors methodNum hparams hshown

/-- Big integers are read from both of their layouts, and so are the claims made of them. -/
theorem amounts_read (ctx : CallContext) (actors : ActorRegistry) (methodNum : UInt64) :
    AmountsRead ctx actors methodNum where
  bare n hfits := roundTrips_looseAmount (.bare n) hfits
  singleton n hfits := roundTrips_looseAmount (.singleton n) (Datum.fits_singleton hfits)
  refused size input rest hhead hsize := run_looseAmount_eq_none hhead hsize
  written batch claimed v hfits hv hdepth := exists_isClaims hv hfits hdepth
  sectors method hmethod params shown hparams batch items ns result hitems h := by
    have hspace : (Claimed.sectors ns).space = ns.sum := ns.sum_eq_foldl.symm
    rw [← hspace]
    exact decode_claims hmethod hparams h (.sectors hitems) actors methodNum
  total method hmethod params shown hparams batch n result h :=
    decode_claims hmethod hparams h (.total n) actors methodNum
  single method hmethod params shown hparams batch n result d hd h := by
    have hspace : (Claimed.sectors [n]).space = n := Int.zero_add n
    simp only [List.mem_cons, List.not_mem_nil, or_false] at hd
    rcases hd with rfl | rfl | rfl
    · exact ⟨[], decode_claims hmethod hparams h (.total n) actors methodNum⟩
    · have hdecode := decode_claims hmethod hparams h (.sectors (.cons (.bare n) .nil)) actors
        methodNum
      rw [hspace] at hdecode
      exact ⟨[n], hdecode⟩
    · have hdecode := decode_claims hmethod hparams h (.sectors (.cons (.singleton n) .nil)) actors
        methodNum
      rw [hspace] at hdecode
      exact ⟨[n], hdecode⟩

end Call
end TraceLedger
