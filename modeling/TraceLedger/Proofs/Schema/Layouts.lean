import TraceLedger.Proofs.Cbor.DataModel
import TraceLedger.Schema.Basic

/-! # Values of several layouts

What has several layouts is read without a schema first, and then taken from the value that was
read. Which layout it has is told by that value alone: no value has two that differ in what they
hold, and a value that has none is refused. -/

namespace TraceLedger

open Cbor

namespace Datum

theorem toIpld?_list_bytes (bs : List (List UInt8)) :
    (list (bs.map bytes)).toIpld? = some (.list (bs.map .bytes)) := by
  have hitems : itemsToIpld? (bs.map bytes) = some (bs.map .bytes) :=
    itemsToIpld?_map (fun _ => rfl) bs
  rw [toIpld?, hitems]
  rfl

theorem toIpld?_list_list_bytes (bs : List (List UInt8)) :
    (list [list (bs.map bytes)]).toIpld? = some (.list [.list (bs.map .bytes)]) := by
  have hitem := toIpld?_list_bytes bs
  rw [toIpld?, itemsToIpld?, hitem]
  rfl

theorem fits_singleton {d : Datum} (h : d.Fits) : (list [d]).Fits :=
  ⟨(by decide : 1 < UInt64.size), h, trivial⟩

theorem itemsDepth_bytes (bs : List (List UInt8)) :
    Item.itemsDepth (itemsToItems (bs.map bytes)) = 0 :=
  itemsDepth_map (fun _ => rfl) bs

end Datum

namespace Schema

open Dag

theorem run_loosely (take : Ipld → Option α) (input : List UInt8) :
    run (loosely take) input = (ipld? input).bind take := by
  show run (Reader.bind ipld _) input = _
  rw [ipld?, run, run, Reader.bind]
  cases ipld fullBudget input with
  | none => rfl
  | some read =>
      obtain ⟨v, rest⟩ := read
      cases htake : take v <;> cases rest <;>
        simp only [htake, Option.bind_some, Option.bind_none] <;> rfl

theorem run_loosely_eq_some_iff {take : Ipld → Option α} {input : List UInt8} {a : α} :
    run (loosely take) input = some a ↔ ∃ v, ipld? input = some v ∧ take v = some a := by
  rw [run_loosely, Option.bind_eq_some_iff]

theorem reads_loosely {take : Ipld → Option α} {d : Datum} {v : Ipld} {a : α}
    (hv : d.toIpld? = some v) (ha : take v = some a) : Reads (loosely take) d a := by
  refine (reads_ipld hv).bind fun budget rest => ?_
  rw [ha]
  rfl

/-! ## Byte strings -/

/-- The layouts of byte strings: a single one, a list of them, or a list of such a list. -/
inductive HoldsBytes : Ipld → List (List UInt8) → Prop where
  | bare (b : List UInt8) : HoldsBytes (.bytes b) [b]
  | wrapped (bs : List (List UInt8)) : HoldsBytes (.list [.list (bs.map .bytes)]) bs
  | flat (bs : List (List UInt8)) : HoldsBytes (.list (bs.map .bytes)) bs

theorem mapM_bytes?_eq_some_iff {items : List Ipld} {bs : List (List UInt8)} :
    items.mapM bytes? = some bs ↔ items = bs.map .bytes := by
  induction items generalizing bs with
  | nil => cases bs <;> simp
  | cons item items ih =>
      cases bs with
      | nil => cases item <;> simp [bytes?, Option.bind_eq_some_iff]
      | cons b bs => cases item <;> simp [bytes?, Option.bind_eq_some_iff, ih, and_comm]

theorem multiaddrs?_eq_some_iff {v : Ipld} {bs : List (List UInt8)} :
    multiaddrs? v = some bs ↔ HoldsBytes v bs := by
  constructor
  · intro h
    unfold multiaddrs? at h
    split at h
    next b =>
      cases h
      exact .bare b
    next items =>
      obtain rfl := mapM_bytes?_eq_some_iff.mp h
      exact .wrapped bs
    next items _ =>
      obtain rfl := mapM_bytes?_eq_some_iff.mp h
      exact .flat bs
    next => cases h
  · intro h
    cases h with
    | bare b => rfl
    | wrapped bs => exact mapM_bytes?_eq_some_iff.mpr rfl
    | flat bs =>
        -- A byte string is no list, so a list of them is not taken for one of the other layout.
        have hflat : multiaddrs? (.list (bs.map .bytes)) = (bs.map Ipld.bytes).mapM bytes? := by
          match bs with
          | [] => rfl
          | [b] => rfl
          | b :: c :: bs => rfl
        exact hflat.trans (mapM_bytes?_eq_some_iff.mpr rfl)

/-- Byte strings are read from each of their layouts, and from nothing else. -/
structure MultiaddrsRead : Prop where
  bare : ∀ b, (Datum.bytes b).Fits → RoundTrips (loosely multiaddrs?) (.bytes b) [b]
  wrapped : ∀ bs : List (List UInt8), (Datum.list [.list (bs.map .bytes)]).Fits →
    RoundTrips (loosely multiaddrs?) (.list [.list (bs.map .bytes)]) bs
  flat : ∀ bs : List (List UInt8), (Datum.list (bs.map .bytes)).Fits →
    RoundTrips (loosely multiaddrs?) (.list (bs.map .bytes)) bs
  /-- A single byte string has the three layouts of a single entry. -/
  single : ∀ b, (Datum.bytes b).Fits →
    ∀ d ∈ [Datum.bytes b, .list [.bytes b], .list [.list [.bytes b]]],
      RoundTrips (loosely multiaddrs?) d [b]
  layout : ∀ input bs,
    run (loosely multiaddrs?) input = some bs ↔ ∃ v, ipld? input = some v ∧ HoldsBytes v bs
  /-- What was written of a value that has no such layout is refused, however deep it nests. -/
  refused_written : ∀ (d : Datum) (out : List UInt8), d.toCbor? = some out →
    (∀ v bs, d.toIpld? = some v → ¬HoldsBytes v bs) → run (loosely multiaddrs?) out = none
  /-- Numbers, texts, links, maps, and whatever else is neither a byte string nor a list. -/
  refused_other : ∀ input v, ipld? input = some v → (∀ b, v ≠ .bytes b) → (∀ vs, v ≠ .list vs) →
    run (loosely multiaddrs?) input = none
  /-- Several items, not all of them byte strings. -/
  refused_mixed : ∀ input items, ipld? input = some (.list items) → 2 ≤ items.length →
    (∃ item ∈ items, ∀ b, item ≠ .bytes b) → run (loosely multiaddrs?) input = none
  /-- A single item that is neither a byte string nor a list of byte strings. -/
  refused_single : ∀ input item, ipld? input = some (.list [item]) → (∀ b, item ≠ .bytes b) →
    (∀ bs : List (List UInt8), item ≠ .list (bs.map .bytes)) →
    run (loosely multiaddrs?) input = none
  /-- What was read is shown in base 64. -/
  shown : ∀ network input, multiaddrs.ofBytes? network input =
    (run (loosely multiaddrs?) input).map fun bs => .list (bs.map base64Text)

theorem run_multiaddrs_eq_some_iff {input : List UInt8} {bs : List (List UInt8)} :
    run (loosely multiaddrs?) input = some bs ↔ ∃ v, ipld? input = some v ∧ HoldsBytes v bs := by
  rw [run_loosely_eq_some_iff]
  exact exists_congr fun v => and_congr_right fun _ => multiaddrs?_eq_some_iff

theorem run_multiaddrs_eq_none {input : List UInt8}
    (h : ∀ v bs, ipld? input = some v → ¬HoldsBytes v bs) :
    run (loosely multiaddrs?) input = none := by
  refine Option.eq_none_iff_forall_ne_some.mpr fun bs hrun => ?_
  obtain ⟨v, hv, hholds⟩ := run_multiaddrs_eq_some_iff.mp hrun
  exact h v bs hv hholds

theorem run_multiaddrs_list_eq_none {input : List UInt8} {items : List Ipld}
    (hv : ipld? input = some (.list items)) (hitems : ∃ item ∈ items, ∀ b, item ≠ .bytes b)
    (hwrapped : ∀ bs : List (List UInt8), items ≠ [.list (bs.map .bytes)]) :
    run (loosely multiaddrs?) input = none := by
  refine run_multiaddrs_eq_none fun v bs hread hholds => ?_
  obtain rfl := Option.some.inj (hv.symm.trans hread)
  obtain ⟨item, hmem, hne⟩ := hitems
  cases hholds with
  | wrapped => exact hwrapped bs rfl
  | flat =>
      obtain ⟨b, -, hb⟩ := List.mem_map.mp hmem
      exact hne b hb.symm

theorem roundTrips_multiaddrs {d : Datum} {v : Ipld} {bs : List (List UInt8)}
    (hv : d.toIpld? = some v) (hholds : HoldsBytes v bs) (hfits : d.Fits)
    (hdepth : d.toItem.depth ≤ 2) : RoundTrips (loosely multiaddrs?) d bs :=
  roundTrips_of_reads (reads_loosely hv (multiaddrs?_eq_some_iff.mpr hholds)) hfits hdepth

theorem roundTrips_bare {b : List UInt8} (hfits : (Datum.bytes b).Fits) :
    RoundTrips (loosely multiaddrs?) (.bytes b) [b] :=
  roundTrips_multiaddrs rfl (.bare b) hfits (Nat.zero_le 2)

theorem roundTrips_wrapped {bs : List (List UInt8)}
    (hfits : (Datum.list [.list (bs.map .bytes)]).Fits) :
    RoundTrips (loosely multiaddrs?) (.list [.list (bs.map .bytes)]) bs := by
  refine roundTrips_multiaddrs (Datum.toIpld?_list_list_bytes bs) (.wrapped bs) hfits ?_
  have hdepth := Datum.itemsDepth_bytes bs
  simp only [Datum.toItem, Datum.itemsToItems, Item.depth, Item.itemsDepth]
  omega

theorem roundTrips_flat {bs : List (List UInt8)} (hfits : (Datum.list (bs.map .bytes)).Fits) :
    RoundTrips (loosely multiaddrs?) (.list (bs.map .bytes)) bs := by
  refine roundTrips_multiaddrs (Datum.toIpld?_list_bytes bs) (.flat bs) hfits ?_
  have hdepth := Datum.itemsDepth_bytes bs
  rw [Datum.toItem, Item.depth]
  omega

theorem multiaddrs_read : MultiaddrsRead where
  bare b hfits := roundTrips_bare hfits
  wrapped bs hfits := roundTrips_wrapped hfits
  flat bs hfits := roundTrips_flat hfits
  single b hfits := by
    have hflat : (Datum.list ([b].map .bytes)).Fits := Datum.fits_singleton hfits
    intro d hd
    simp only [List.mem_cons, List.not_mem_nil, or_false] at hd
    rcases hd with rfl | rfl | rfl
    · exact roundTrips_bare hfits
    · exact roundTrips_flat hflat
    · exact roundTrips_wrapped (Datum.fits_singleton hflat)
  layout input bs := run_multiaddrs_eq_some_iff
  refused_written d out hout h :=
    run_multiaddrs_eq_none fun v bs hv => h v bs (ipld?_eq_some_of_toCbor? hout hv)
  refused_other input v hv hbytes hlist := by
    refine run_multiaddrs_eq_none fun w bs hw hholds => ?_
    obtain rfl := Option.some.inj (hv.symm.trans hw)
    cases hholds with
    | bare b => exact hbytes b rfl
    | wrapped => exact hlist _ rfl
    | flat => exact hlist _ rfl
  refused_mixed input items hv hlength hitems := by
    refine run_multiaddrs_list_eq_none hv hitems ?_
    rintro bs rfl
    exact Nat.not_succ_le_self 1 hlength
  refused_single input item hv hbytes hlist := by
    refine run_multiaddrs_list_eq_none hv ⟨item, List.mem_singleton_self item, hbytes⟩ ?_
    intro bs heq
    exact hlist bs (List.cons.inj heq).1
  shown network input :=
    run_map (loosely multiaddrs?) (fun bs => Json.list (bs.map base64Text)) input

/-- A list of two lists has no layout, though each of them has one. -/
example : run (loosely multiaddrs?) [0x82, 0x80, 0x80] = none := by decide

end Schema
end TraceLedger
