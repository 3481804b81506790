import Mathlib.Data.List.Nodup
import Mathlib.Data.List.Perm.Basic
import TraceLedger.Proofs.Resolver.Agreement

/-! # What a node is asked at one tipset

From a resolver on that knows nothing at a tipset, each address that is resolved there puts its two
questions once, however often it is resolved. The first one is about the address as it is written.
The second one is about the number of the actor, so it is put again by every other address of the
same actor. -/

namespace TraceLedger

namespace Resolver

open ResolverState

/-- The address that the code of an actor is asked for by. -/
def codeAddress (r : Resolver) (tipset : TipsetKey) (address : Address) : Address :=
  if address.isId then address
  else (r.attempt address .short (r.node.lookupId address tipset)).1.getD address

/-- The question for the form that an address lacks. -/
def formQuestion (tipset : TipsetKey) (address : Address) : Query :=
  if address.isId then .robust address tipset else .id address tipset

/-- The question for the code of an actor. -/
def codeQuestion (r : Resolver) (tipset : TipsetKey) (address : Address) : Query :=
  .code (r.codeAddress tipset address) tipset

theorem questions_eq (r : Resolver) (address : Address) (tipset : TipsetKey) :
    r.questions address tipset = [formQuestion tipset address, r.codeQuestion tipset address] := by
  unfold questions formQuestion codeQuestion codeAddress
  split <;> rfl

theorem formQuestion_injective (tipset : TipsetKey) :
    Function.Injective (formQuestion tipset) := by
  intro a b h
  unfold formQuestion at h
  split at h
  · split at h <;> cases h
    rfl
  · split at h <;> cases h
    rfl

theorem formQuestion_ne_code (tipset other : TipsetKey) (address asked : Address) :
    formQuestion tipset address ≠ .code asked other := by
  unfold formQuestion
  split <;> exact Query.noConfusion

/-! ## The questions of several addresses -/

/-- The questions of addresses, in the order in which they are put. -/
def questionsOf (r : Resolver) (tipset : TipsetKey) (addresses : List Address) : List Query :=
  addresses.flatMap (r.questions · tipset)

/-- The questions, the ones about the addresses as they are written first. -/
theorem questionsOf_perm (r : Resolver) (tipset : TipsetKey) (addresses : List Address) :
    (r.questionsOf tipset addresses).Perm
      (addresses.map (formQuestion tipset) ++ addresses.map (r.codeQuestion tipset)) := by
  have hperm := List.map_append_flatMap_perm addresses (formQuestion tipset)
    fun address => [r.codeQuestion tipset address]
  rw [← List.map_eq_flatMap] at hperm
  simpa only [questionsOf, questions_eq] using hperm.symm

/-- A question other than for a code is put by one address at most. -/
theorem count_form_questionsOf {addresses : List Address} (h : addresses.Nodup) (r : Resolver)
    {tipset : TipsetKey} {query : Query} (hquery : ∀ asked, query ≠ .code asked tipset) :
    (r.questionsOf tipset addresses).count query ≤ 1 := by
  have hcode : query ∉ addresses.map (r.codeQuestion tipset) := by
    intro hmem
    obtain ⟨address, -, heq⟩ := List.mem_map.mp hmem
    exact hquery _ heq.symm
  rw [(r.questionsOf_perm tipset addresses).count_eq, List.count_append,
    List.count_eq_zero.mpr hcode, Nat.add_zero]
  exact List.nodup_iff_count_le_one.mp (h.map (formQuestion_injective tipset)) query

/-- The code of an actor is asked for once by each of the actor's addresses. -/
theorem count_code_questionsOf (r : Resolver) (tipset : TipsetKey) (addresses : List Address)
    (asked : Address) :
    (r.questionsOf tipset addresses).count (.code asked tipset) =
      addresses.countP (r.codeAddress tipset · = asked) := by
  have hform : Query.code asked tipset ∉ addresses.map (formQuestion tipset) := by
    intro hmem
    obtain ⟨address, -, h⟩ := List.mem_map.mp hmem
    exact formQuestion_ne_code tipset tipset address asked h
  rw [(r.questionsOf_perm tipset addresses).count_eq, List.count_append,
    List.count_eq_zero.mpr hform, Nat.zero_add, List.count_eq_countP, List.countP_map]
  refine List.countP_congr fun address _ => ?_
  simp [codeQuestion]

/-- No question is put twice exactly if no two of the addresses belong to one actor. -/
theorem nodup_questionsOf_iff {addresses : List Address} (h : addresses.Nodup) (r : Resolver)
    (tipset : TipsetKey) :
    (r.questionsOf tipset addresses).Nodup ↔
      ∀ a ∈ addresses, ∀ b ∈ addresses,
        r.codeAddress tipset a = r.codeAddress tipset b → a = b := by
  have hdisjoint : (addresses.map (formQuestion tipset)).Disjoint
      (addresses.map (r.codeQuestion tipset)) := by
    intro query hform hcode
    obtain ⟨a, -, rfl⟩ := List.mem_map.mp hform
    obtain ⟨b, -, heq⟩ := List.mem_map.mp hcode
    exact formQuestion_ne_code tipset tipset a _ heq.symm
  have hcode : (addresses.map (r.codeQuestion tipset)).Nodup ↔
      ∀ a ∈ addresses, ∀ b ∈ addresses,
        r.codeAddress tipset a = r.codeAddress tipset b → a = b := by
    rw [List.nodup_map_iff_inj_on h]
    simp only [codeQuestion, Query.code.injEq, and_true]
  rw [(r.questionsOf_perm tipset addresses).nodup_iff, List.nodup_append', hcode]
  constructor
  · exact fun hnodup => hnodup.2.1
  · exact fun hinj => ⟨h.map (formQuestion_injective tipset), hinj, hdisjoint⟩

/-! ## What resolving asks -/

/-- Between two states of a resolver some addresses were resolved at a tipset. Each of them put its
questions once. -/
structure AsksAbout (r : Resolver) (tipset : TipsetKey) (s : ResolverState)
    (addresses : List Address) (t : ResolverState) : Prop where
  nodup : addresses.Nodup
  known_iff : ∀ address, (t.find? address tipset).isSome ↔ address ∈ addresses
  queries_eq : t.queries = (r.questionsOf tipset addresses).reverse ++ s.queries

theorem AsksAbout.nil (r : Resolver) {tipset : TipsetKey} {s : ResolverState}
    (h : ∀ entry ∈ s.cache, entry.1.2 ≠ tipset) : r.AsksAbout tipset s [] s where
  nodup := List.nodup_nil
  known_iff address := by simp [find?_eq_none_of_ne h address]
  queries_eq := rfl

theorem AsksAbout.resolve {r : Resolver} {tipset : TipsetKey} {s t : ResolverState}
    {addresses : List Address} (h : r.AsksAbout tipset s addresses t) (address : Address) :
    r.AsksAbout tipset s
      (if address ∈ addresses then addresses else addresses ++ [address])
      (r.resolve address tipset t).2 := by
  cases hfind : t.find? address tipset with
  | some info =>
      have hmem : address ∈ addresses := (h.known_iff address).mp (by rw [hfind]; rfl)
      rw [if_pos hmem, resolve_of_find?_eq_some hfind]
      exact h
  | none =>
      have hnew : address ∉ addresses := by
        rw [← h.known_iff, hfind]
        exact Bool.false_ne_true
      rw [if_neg hnew, resolve_of_find?_eq_none hfind]
      refine ⟨?_, fun other => ?_, ?_⟩
      · refine List.nodup_append.mpr
          ⟨h.nodup, List.nodup_singleton _, fun a ha b hb heq => hnew ?_⟩
        rwa [← List.mem_singleton.mp hb, ← heq]
      · rw [find?_cons, List.mem_append, ← h.known_iff other, List.mem_singleton]
        by_cases heq : other = address
        · simp [heq]
        · simp [heq, Ne.symm heq]
      · simp [questionsOf, h.queries_eq]

/-- Of addresses that are resolved one after the other each one is asked about once, by induction
over the addresses. -/
theorem AsksAbout.resolveAll {r : Resolver} {tipset : TipsetKey} {s t : ResolverState}
    {known : List Address} (h : r.AsksAbout tipset s known t) (addresses : List Address) :
    ∃ asked, r.AsksAbout tipset s asked (r.resolveAll tipset addresses t).2 ∧
      ∀ address, address ∈ asked ↔ address ∈ known ∨ address ∈ addresses := by
  induction addresses generalizing known t with
  | nil => exact ⟨known, h, by simp⟩
  | cons address rest ih =>
      obtain ⟨asked, hasked, hmem⟩ := ih (h.resolve address)
      refine ⟨asked, hasked, fun other => ?_⟩
      rw [hmem, List.mem_cons]
      split
      next hknown =>
        constructor
        · exact Or.imp_right .inr
        · rintro (hother | rfl | hother)
          · exact .inl hother
          · exact .inl hknown
          · exact .inr hother
      next => rw [List.mem_append, List.mem_singleton, or_assoc]

end Resolver
end TraceLedger
