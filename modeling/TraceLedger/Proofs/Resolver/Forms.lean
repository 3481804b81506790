import Mathlib.Data.List.Pairwise
import TraceLedger.Node.InMemory
import TraceLedger.Proofs.Address.Texts
import TraceLedger.Proofs.AddressBook.Contents
import TraceLedger.Proofs.Resolver.Runs

/-! # One actor under two addresses

A node in memory is told of each actor once. Whether an actor is then asked for by its number or by
its robust address, the same is told of it, and it is filed under the text of its number. What no
actor is at is filed under its own text. So a book has one record for each actor. -/

namespace TraceLedger

/-- What a node in memory is told of an actor: its kind, or the link to its code. -/
inductive Registration where
  | builtIn (number : UInt64) (robust : Option Address) (kind : ActorKind)
  | coded (number : UInt64) (robust : Option Address) (code : Cid)

namespace Registration

def number : Registration → UInt64
  | builtIn number _ _ | coded number _ _ => number

def robust? : Registration → Option Address
  | builtIn _ robust _ | coded _ robust _ => robust

def code : Registration → Cid
  | builtIn _ _ kind => ActorRegistry.stubCode kind
  | coded _ _ code => code

def addTo (n : InMemoryNode) : Registration → InMemoryNode
  | builtIn number robust kind => n.addActor number robust kind
  | coded number robust code => n.addCode number robust code

theorem addTo_eq (n : InMemoryNode) (actor : Registration) :
    actor.addTo n = n.addCode actor.number actor.robust? actor.code := by
  cases actor <;> rfl

/-- An actor is at an address if that is its number or its robust address. -/
def IsAt (actor : Registration) (address : Address) : Prop :=
  address = .id actor.number ∨ actor.robust? = some address

instance (actor : Registration) (address : Address) : Decidable (actor.IsAt address) :=
  inferInstanceAs (Decidable (_ ∨ _))

def actorAt? (actors : List Registration) (address : Address) : Option Registration :=
  actors.find? (·.IsAt address)

/-- The number of the actor at an address. What no actor is at stands for itself. -/
def ownerOf (actors : List Registration) (address : Address) : Address :=
  match actorAt? actors address with
  | some actor => .id actor.number
  | none => address

/-- No number and no robust address is given to two actors. -/
structure Apart (actors : List Registration) : Prop where
  nodup_numbers : (actors.map number).Nodup
  nodup_robust : (actors.filterMap robust?).Nodup
  isId_robust : ∀ address ∈ actors.filterMap robust?, address.isId = false

theorem Apart.isId_eq_false {actors : List Registration} (h : Apart actors)
    {actor : Registration} (hactor : actor ∈ actors) {address : Address}
    (hrobust : actor.robust? = some address) : address.isId = false :=
  h.isId_robust address (List.mem_filterMap.mpr ⟨actor, hactor, hrobust⟩)

theorem Apart.eq_of_number_eq {actors : List Registration} (h : Apart actors)
    {a b : Registration} (ha : a ∈ actors) (hb : b ∈ actors) (hab : a.number = b.number) : a = b :=
  List.inj_on_of_nodup_map h.nodup_numbers ha hb hab

theorem Apart.eq_of_robust?_eq {actors : List Registration} (h : Apart actors)
    {a b : Registration} (ha : a ∈ actors) (hb : b ∈ actors) {address : Address}
    (harobust : a.robust? = some address) (hbrobust : b.robust? = some address) : a = b := by
  let Differ (a b : Registration) : Prop :=
    ∀ address, a.robust? = some address → ∀ other, b.robust? = some other → address ≠ other
  have hpairwise : actors.Pairwise Differ := List.pairwise_filterMap.mp h.nodup_robust
  have hsymm : Std.Symm Differ :=
    ⟨fun _ _ hdiffer _ hfirst _ hsecond => (hdiffer _ hsecond _ hfirst).symm⟩
  by_contra hne
  exact hpairwise.forall ha hb hne address harobust address hbrobust rfl

/-- No two actors are at one address. -/
theorem Apart.eq_of_isAt {actors : List Registration} (h : Apart actors) {a b : Registration}
    (ha : a ∈ actors) (hb : b ∈ actors) {address : Address} (haddress : a.IsAt address)
    (haddress' : b.IsAt address) : a = b := by
  rcases haddress with rfl | harobust <;> rcases haddress' with heq | hbrobust
  · exact h.eq_of_number_eq ha hb (Address.id.inj heq)
  · cases h.isId_eq_false hb hbrobust
  · rw [heq] at harobust
    cases h.isId_eq_false ha harobust
  · exact h.eq_of_robust?_eq ha hb harobust hbrobust

theorem actorAt?_eq_some_iff {actors : List Registration} (h : Apart actors)
    {address : Address} {actor : Registration} :
    actorAt? actors address = some actor ↔ actor ∈ actors ∧ actor.IsAt address := by
  constructor
  · intro hfind
    exact ⟨List.mem_of_find?_eq_some hfind, by simpa using List.find?_some hfind⟩
  · rintro ⟨hactor, hat⟩
    have hsome : (actors.find? (·.IsAt address)).isSome = true :=
      List.find?_isSome.mpr ⟨actor, hactor, decide_eq_true hat⟩
    obtain ⟨other, hother⟩ := Option.isSome_iff_exists.mp hsome
    have heq := h.eq_of_isAt (List.mem_of_find?_eq_some hother) hactor
      (by simpa using List.find?_some hother) hat
    rw [actorAt?, hother, heq]

theorem actorAt?_eq_none_iff {actors : List Registration} {address : Address} :
    actorAt? actors address = none ↔ ∀ actor ∈ actors, ¬ actor.IsAt address := by
  simp [actorAt?]

/-- Addresses with one owner are addresses of one actor. -/
theorem actorAt?_eq_of_ownerOf_eq {actors : List Registration} (h : Apart actors)
    {a b : Address} (hab : ownerOf actors a = ownerOf actors b) :
    actorAt? actors a = actorAt? actors b ∧ (actorAt? actors a = none → a = b) := by
  have hnone {a b : Address} {actor : Registration} (ha : actorAt? actors a = none)
      (hb : actorAt? actors b = some actor) (hab : a = .id actor.number) : False :=
    actorAt?_eq_none_iff.mp ha actor ((actorAt?_eq_some_iff h).mp hb).1 (.inl hab)
  unfold ownerOf at hab
  cases ha : actorAt? actors a with
  | none =>
      cases hb : actorAt? actors b with
      | none => exact ⟨rfl, fun _ => by simpa [ha, hb] using hab⟩
      | some other => exact (hnone ha hb (by simpa [ha, hb] using hab)).elim
  | some actor =>
      cases hb : actorAt? actors b with
      | none => exact (hnone hb ha (by simpa [ha, hb] using hab.symm)).elim
      | some other =>
          have hnumber : actor.number = other.number := by simpa [ha, hb] using hab
          have heq := h.eq_of_number_eq ((actorAt?_eq_some_iff h).mp ha).1
            ((actorAt?_eq_some_iff h).mp hb).1 hnumber
          exact ⟨congrArg some heq, nofun⟩

end Registration

open Registration

namespace InMemoryNode

/-- A node that was told of actors, and of nothing else. -/
def ofActors (actors : List Registration) : InMemoryNode := actors.foldl Registration.addTo empty

/-- What the maps of a node hold that was told of actors. -/
structure Lists (n : InMemoryNode) (actors : List Registration) : Prop where
  ids : n.ids = (actors.filterMap fun actor => actor.robust?.map (·, actor.number)).reverse
  robust : n.robust = (actors.filterMap fun actor => actor.robust?.map (actor.number, ·)).reverse
  codes : n.codes = (actors.map fun actor => (actor.number, actor.code)).reverse
  failing : n.failing = []

theorem lists_ofActors (actors : List Registration) : (ofActors actors).Lists actors := by
  induction actors using List.reverseRecOn with
  | nil => exact ⟨rfl, rfl, rfl, rfl⟩
  | append_singleton front actor ih =>
      have hlast : ofActors (front ++ [actor]) =
          (ofActors front).addCode actor.number actor.robust? actor.code := by
        rw [ofActors, List.foldl_concat, addTo_eq]
        rfl
      rw [hlast]
      cases hrobust : actor.robust? with
      | none => constructor <;> simp [addCode, hrobust, ih.ids, ih.robust, ih.codes, ih.failing]
      | some address =>
          constructor <;> simp [addCode, hrobust, ih.ids, ih.robust, ih.codes, ih.failing]

/-- Where no key comes twice, an entry is found by its key. -/
theorem lookup_eq_some_iff {κ α : Type} [DecidableEq κ] {entries : List (κ × α)}
    (h : (entries.map Prod.fst).Nodup) {key : κ} {value : α} :
    lookup key entries = some value ↔ (key, value) ∈ entries := by
  induction entries with
  | nil => simp [lookup]
  | cons entry rest ih =>
      obtain ⟨hentry, hrest⟩ := List.nodup_cons.mp h
      by_cases hkey : entry.1 = key
      · have hnew : (key, value) ∉ rest := fun hmem => hentry (hkey ▸ List.mem_map_of_mem hmem)
        simp [lookup, hkey, hnew, Prod.ext_iff, eq_comm]
      · have hne : (key, value) ≠ entry := fun heq => hkey (heq ▸ rfl)
        rw [List.mem_cons, or_iff_right hne, ← ih hrest, lookup, List.find?_cons_of_neg (by simpa)]
        rfl

theorem answer_ofActors {α : Type} (actors : List Registration) (address : Address)
    (value : Option α) : (ofActors actors).answer address value = .ok value := by
  simp [answer, (lists_ofActors actors).failing]

variable {actors : List Registration} (h : Apart actors)
include h

theorem lookup_ids_eq_some_iff {address : Address} {number : UInt64} :
    lookup address (ofActors actors).ids = some number ↔
      ∃ actor ∈ actors, actor.robust? = some address ∧ actor.number = number := by
  rw [(lists_ofActors actors).ids, lookup_eq_some_iff]
  · simp only [List.mem_reverse, List.mem_filterMap, Option.map_eq_some_iff, Prod.mk.injEq]
    grind
  · rw [List.map_reverse, List.nodup_reverse, List.map_filterMap]
    simpa [Function.comp_def] using h.nodup_robust

theorem lookup_robust_eq_some_iff {number : UInt64} {address : Address} :
    lookup number (ofActors actors).robust = some address ↔
      ∃ actor ∈ actors, actor.number = number ∧ actor.robust? = some address := by
  rw [(lists_ofActors actors).robust, lookup_eq_some_iff]
  · simp only [List.mem_reverse, List.mem_filterMap, Option.map_eq_some_iff, Prod.mk.injEq]
    grind
  · rw [List.map_reverse, List.nodup_reverse, List.map_filterMap]
    refine List.pairwise_filterMap.mpr ((List.pairwise_map.mp h.nodup_numbers).imp ?_)
    intro a b hne number hnumber other hother
    simp only [Option.map_map, Option.map_eq_some_iff, Function.comp_apply] at hnumber hother
    obtain ⟨-, -, rfl⟩ := hnumber
    obtain ⟨-, -, rfl⟩ := hother
    exact hne

theorem lookup_codes_eq_some_iff {number : UInt64} {code : Cid} :
    lookup number (ofActors actors).codes = some code ↔
      ∃ actor ∈ actors, actor.number = number ∧ actor.code = code := by
  rw [(lists_ofActors actors).codes, lookup_eq_some_iff]
  · simp only [List.mem_reverse, List.mem_map, Prod.mk.injEq]
  · rw [List.map_reverse, List.nodup_reverse, List.map_map]
    exact h.nodup_numbers

theorem lookup_robust_of_mem {actor : Registration} (hactor : actor ∈ actors) :
    lookup actor.number (ofActors actors).robust = actor.robust? := by
  refine Option.ext fun address => ?_
  rw [lookup_robust_eq_some_iff h]
  constructor
  · rintro ⟨other, hother, hnumber, hrobust⟩
    rwa [← h.eq_of_number_eq hother hactor hnumber]
  · exact fun hrobust => ⟨actor, hactor, rfl, hrobust⟩

theorem lookup_codes_of_mem {actor : Registration} (hactor : actor ∈ actors) :
    lookup actor.number (ofActors actors).codes = some actor.code :=
  (lookup_codes_eq_some_iff h).mpr ⟨actor, hactor, rfl, rfl⟩

/-- Of a number that no actor has nothing is known. -/
theorem lookup_eq_none_of_actorAt? {number : UInt64} (hnone : actorAt? actors (.id number) = none) :
    lookup number (ofActors actors).robust = none ∧
      lookup number (ofActors actors).codes = none := by
  have hnumber : ∀ actor ∈ actors, actor.number ≠ number := fun actor hactor heq =>
    actorAt?_eq_none_iff.mp hnone actor hactor (.inl (congrArg Address.id heq.symm))
  refine ⟨Option.eq_none_iff_forall_ne_some.mpr fun address hfound => ?_,
    Option.eq_none_iff_forall_ne_some.mpr fun code hfound => ?_⟩
  · obtain ⟨actor, hactor, heq, -⟩ := (lookup_robust_eq_some_iff h).mp hfound
    exact hnumber actor hactor heq
  · obtain ⟨actor, hactor, heq, -⟩ := (lookup_codes_eq_some_iff h).mp hfound
    exact hnumber actor hactor heq

/-- The node knows the number of an actor by each of the actor's addresses. -/
theorem idOf_ofActors {address : Address} (hid : address.isId = false) :
    (ofActors actors).idOf address = (actorAt? actors address).map number := by
  have hidOf : (ofActors actors).idOf address = lookup address (ofActors actors).ids := by
    cases address with
    | id number => cases hid
    | _ => rfl
  rw [hidOf]
  cases hat : actorAt? actors address with
  | none =>
      refine Option.eq_none_iff_forall_ne_some.mpr fun number hfound => ?_
      obtain ⟨actor, hactor, hrobust, -⟩ := (lookup_ids_eq_some_iff h).mp hfound
      exact actorAt?_eq_none_iff.mp hat actor hactor (.inr hrobust)
  | some actor =>
      obtain ⟨hactor, hat⟩ := (actorAt?_eq_some_iff h).mp hat
      refine (lookup_ids_eq_some_iff h).mpr ⟨actor, hactor, hat.resolve_left ?_, rfl⟩
      rintro rfl
      cases hid

end InMemoryNode

namespace Resolver

open InMemoryNode AddressInfo

/-- What is told of an address by a node that was told of actors. -/
def infoOf (r : Resolver) (actors : List Registration) (address : Address) : AddressInfo :=
  match actorAt? actors address with
  | some actor => r.describe (some (.id actor.number)) actor.robust? (some actor.code)
  | none =>
    if address.isId then r.describe (some address) none none
    else r.describe none (some address) none

theorem lookup_of_node_eq {r : Resolver} {actors : List Registration} (h : Apart actors)
    (hnode : r.node = (ofActors actors).toNode) (address : Address) (tipset : TipsetKey) :
    r.lookup address tipset = ⟨r.infoOf actors address, []⟩ := by
  unfold lookup infoOf
  simp only [hnode, toNode, answer_ofActors, attempt]
  cases hid : address.isId with
  | true =>
      obtain ⟨number, rfl⟩ : ∃ number, address = .id number := by
        cases address with
        | id number => exact ⟨number, rfl⟩
        | _ => cases hid
      cases hat : actorAt? actors (.id number) with
      | none =>
          obtain ⟨hrobust, hcode⟩ := lookup_eq_none_of_actorAt? h hat
          simp [idOf, hrobust, hcode]
      | some actor =>
          obtain ⟨hactor, hat⟩ := (actorAt?_eq_some_iff h).mp hat
          have hnumber : number = actor.number := by
            rcases hat with heq | hrobust
            · exact Address.id.inj heq
            · cases h.isId_eq_false hactor hrobust
          subst hnumber
          simp [idOf, lookup_robust_of_mem h hactor, lookup_codes_of_mem h hactor]
  | false =>
      have hidOf := idOf_ofActors h hid
      cases hat : actorAt? actors address with
      | none => simp [hidOf, hat]
      | some actor =>
          obtain ⟨hactor, hisAt⟩ := (actorAt?_eq_some_iff h).mp hat
          have hrobust : actor.robust? = some address := by
            refine hisAt.resolve_left ?_
            rintro rfl
            cases hid
          have hcode : (ofActors actors).idOf (.id actor.number) = some actor.number := rfl
          simp [hidOf, hat, hcode, hrobust, lookup_codes_of_mem h hactor]

/-- Everything is filed under the text of its owner. -/
theorem key_infoOf (r : Resolver) (actors : List Registration) (address : Address) :
    (r.infoOf actors address).key = (ownerOf actors address).toText r.network := by
  have htext (a : Address) : (a.toText r.network).isEmpty = false :=
    Bool.eq_false_iff.mpr fun hempty => a.toText_ne_empty r.network (String.isEmpty_iff.mp hempty)
  unfold infoOf ownerOf
  cases actorAt? actors address with
  | none => cases address.isId <;> simp [describe, key, orText, htext]
  | some actor => simp [describe, key, orText, htext]

/-- What is told of two addresses is the same exactly if they have the same owner. -/
theorem infoOf_eq_iff {r : Resolver} {actors : List Registration} (h : Apart actors)
    {a b : Address} :
    r.infoOf actors a = r.infoOf actors b ↔ ownerOf actors a = ownerOf actors b := by
  constructor
  · intro hinfo
    have hkey := congrArg key hinfo
    rw [key_infoOf, key_infoOf] at hkey
    exact Address.toText_injective r.network hkey
  · intro howner
    obtain ⟨hat, hself⟩ := actorAt?_eq_of_ownerOf_eq h howner
    cases ha : actorAt? actors a with
    | none => rw [hself ha]
    | some actor => rw [infoOf, infoOf, ← hat, ha]

/-! ## Books of what was told -/

/-- What is told of addresses that are resolved one after the other. -/
def resolveInfos (r : Resolver) : List (Address × TipsetKey) → ResolverState → List AddressInfo
  | [], _ => []
  | (address, tipset) :: rest, s =>
    let (resolved, s) := r.resolve address tipset s
    resolved.info :: resolveInfos r rest s

theorem resolveInfos_eq {r : Resolver} {actors : List Registration} (h : Apart actors)
    (hnode : r.node = (ofActors actors).toNode) {s : ResolverState} (hs : r.Sound s)
    (lookups : List (Address × TipsetKey)) :
    r.resolveInfos lookups s = (lookups.map Prod.fst).map (r.infoOf actors) := by
  induction lookups generalizing s with
  | nil => rfl
  | cons pair rest ih =>
      obtain ⟨address, tipset⟩ := pair
      simp only [resolveInfos, hs.info_resolve, lookup_of_node_eq h hnode, List.map_cons,
        ih (hs.resolve address tipset)]

/-- A book has one record for each owner of the given addresses: the record stands alone under the
text of its owner. -/
structure HoldsOwners (r : Resolver) (actors : List Registration) (addresses : List Address)
    (book : AddressBook) : Prop where
  mem_iff : ∀ info, info ∈ book.toList ↔ ∃ address ∈ addresses, r.infoOf actors address = info
  get_eq : ∀ address ∈ addresses,
    book.get ((ownerOf actors address).toText r.network) = [r.infoOf actors address]
  size_eq : book.size = (addresses.map (ownerOf actors)).toFinset.card

theorem holdsOwners_ofList {r : Resolver} {actors : List Registration} (h : Apart actors)
    (addresses : List Address) :
    r.HoldsOwners actors addresses (AddressBook.ofList (addresses.map (r.infoOf actors))) := by
  have hkey {a b : Address} (hab : (r.infoOf actors a).key = (r.infoOf actors b).key) :
      r.infoOf actors a = r.infoOf actors b := by
    rw [key_infoOf, key_infoOf] at hab
    exact (infoOf_eq_iff h).mpr (Address.toText_injective r.network hab)
  have hplace (a b : Address) : (r.infoOf actors a).place = (r.infoOf actors b).place ↔
      ownerOf actors a = ownerOf actors b := by
    rw [← infoOf_eq_iff h]
    exact ⟨fun heq => hkey (congrArg Prod.fst heq), congrArg place⟩
  refine ⟨fun info => ?_, fun address haddress => ?_, ?_⟩
  · rw [AddressBook.mem_toList_ofList_iff, List.mem_map]
    simp only [List.forall_mem_map]
    exact fun a _ b _ => hkey
  · rw [← key_infoOf]
    refine AddressBook.get_ofList_of_key (List.mem_map_of_mem haddress) ?_
    simp only [List.forall_mem_map]
    exact fun a _ => hkey
  · rw [AddressBook.size_ofList, List.map_map]
    exact card_toFinset_map_eq_of_iff hplace addresses

/-- What a resolver tells whose node was told of actors. -/
structure TellsOfActors (r : Resolver) (actors : List Registration) (s : ResolverState) :
    Prop where
  /-- What is told of an address goes by the actor that is at it, -/
  info_eq : ∀ address tipset, (r.resolve address tipset s).1.info = r.infoOf actors address
  /-- so the number of an actor and its robust address tell the same. -/
  forms_eq : ∀ actor ∈ actors, ∀ robust, actor.robust? = some robust → ∀ tipset,
    (r.resolve (.id actor.number) tipset s).1.info = (r.resolve robust tipset s).1.info
  /-- A book of what is told of addresses, as of whatever tipsets, has one record for each
  actor. -/
  holdsOwners : ∀ lookups, r.HoldsOwners actors (lookups.map Prod.fst)
    (AddressBook.ofList (r.resolveInfos lookups s))

/-- A resolver whose node was told of actors, each with a number and a robust address of its own,
tells the same of both, whatever it has resolved before. What it tells of addresses makes a book
with one record for each actor. -/
theorem tells_of_actors {actors : List Registration} (h : Apart actors) (network : Network)
    (registry : ActorRegistry) (steps : List Step) (queries : List Query) :
    let r : Resolver := ⟨(ofActors actors).toNode, network, registry⟩
    r.TellsOfActors actors (Step.runAll r steps ⟨[], queries⟩) := by
  intro r
  have hs : r.Sound (Step.runAll r steps ⟨[], queries⟩) := (keeps_runAll r steps queries).sound
  have hinfo : ∀ address tipset,
      (r.resolve address tipset (Step.runAll r steps ⟨[], queries⟩)).1.info =
        r.infoOf actors address := fun address tipset => by
    rw [hs.info_resolve, lookup_of_node_eq h rfl]
  refine ⟨hinfo, fun actor hactor robust hrobust tipset => ?_, fun lookups => ?_⟩
  · have hnumber := (actorAt?_eq_some_iff h).mpr ⟨hactor, .inl rfl⟩
    have hat := (actorAt?_eq_some_iff h).mpr ⟨hactor, .inr hrobust⟩
    rw [hinfo, hinfo, infoOf, infoOf, hnumber, hat]
  · rw [resolveInfos_eq h rfl hs]
    exact holdsOwners_ofList h _

/-- A multisig wallet with a robust address, and an actor of an unknown kind without one. -/
def walletAndStranger : List Registration := [
  .builtIn 1001 (some (.actor ⟨List.replicate 20 7, rfl⟩)) .multisig,
  .coded 1002 none (.v1 Cid.raw ⟨Cid.identity, [1], by decide⟩)]

theorem tells_of_walletAndStranger :
    Apart walletAndStranger ∧
      (⟨(ofActors walletAndStranger).toNode, .mainnet, .empty⟩ : Resolver).TellsOfActors
        walletAndStranger .empty := by
  have h : Apart walletAndStranger := ⟨by decide, by decide, by decide⟩
  exact ⟨h, tells_of_actors h .mainnet .empty [] []⟩

end Resolver
end TraceLedger
