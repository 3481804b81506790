import Mathlib.Algebra.Order.BigOperators.Group.List
import TraceLedger.Cbor.Dag
import TraceLedger.Proofs.Cbor.Heads

/-! # Byte strings

What stands behind the head of a byte string is its content, in one piece or in chunks. The reader
of byte strings gives back that content. It also takes a number for the head of a byte string of
that length, since it does not look at the bit that tells the two apart. -/

namespace TraceLedger

theorem Octets.eq_append_of_take?_eq_some {n : Nat} {input bytes rest : List UInt8}
    (h : Octets.take? n input = some (bytes, rest)) : input = bytes ++ rest ∧ bytes.length = n := by
  simp only [take?] at h
  split at h
  next hlength =>
    cases h
    exact ⟨(List.take_append_drop n input).symm, hlength⟩
  next => cases h

namespace Cbor

theorem number?_append_of_eq_some {width : Nat} {input rest : List UInt8} {n : UInt64}
    (h : number? width input = some (n, rest)) (more : List UInt8) :
    number? width (input ++ more) = some (n, rest ++ more) := by
  obtain ⟨⟨bytes, tail⟩, htake, heq⟩ := Option.map_eq_some_iff.mp h
  obtain ⟨rfl, rfl⟩ := Prod.mk.inj heq
  obtain ⟨rfl, rfl⟩ := Octets.eq_append_of_take?_eq_some htake
  rw [number?, List.append_assoc, Octets.take?_append]
  rfl

/-- The argument of a head does not depend on what follows it. -/
theorem argument?_append_of_eq_some {low : UInt8} {input rest : List UInt8} {n : UInt64}
    (h : argument? low input = some (n, rest)) (more : List UInt8) :
    argument? low (input ++ more) = some (n, rest ++ more) := by
  have hnumber {width : Nat} (h : number? width input = some (n, rest)) :
      number? width (input ++ more) = some (n, rest ++ more) := number?_append_of_eq_some h more
  unfold argument? at h ⊢
  grind

theorem lt_of_argument?_eq_some {low : UInt8} {input rest : List UInt8} {n : UInt64}
    (h : argument? low input = some (n, rest)) : low.toNat < 28 := by
  refine Decidable.byContradiction fun hlarge => ?_
  have hne {small : UInt8} (hsmall : small.toNat < 28) : low ≠ small :=
    fun heq => hlarge (heq ▸ hsmall)
  have hlow : ¬low < 24 :=
    fun hlt => hlarge (Nat.lt_trans (UInt8.lt_iff_toNat_lt.mp hlt) (by decide))
  rw [argument?, if_neg hlow, if_neg (hne (by decide)), if_neg (hne (by decide)),
    if_neg (hne (by decide)), if_neg (hne (by decide))] at h
  cases h

/-- Bytes that are a head of the given kind, which tells a length, and so many bytes. -/
def IsSized (kind : Kind) (content bytes : List UInt8) : Prop :=
  ∃ low rest size, bytes = (kind.mask ||| low) :: rest ∧
    argument? low rest = some (size, content) ∧ size.toNat = content.length

/-- Bytes that are a byte string with the given content. -/
inductive IsByteString : (content bytes : List UInt8) → Prop
  | sized {content bytes : List UInt8} (h : IsSized .bytes content bytes) :
    IsByteString content bytes
  /-- The chunks are pairs of a content and its bytes. -/
  | chunked (chunks : List (List UInt8 × List UInt8))
    (h : ∀ chunk ∈ chunks, IsSized .bytes chunk.1 chunk.2) :
    IsByteString (chunks.flatMap Prod.fst)
      (Kind.bytes.openHead :: (chunks.flatMap Prod.snd ++ [breakByte]))

theorem IsSized.ne_nil {kind : Kind} {content bytes : List UInt8} (h : IsSized kind content bytes) :
    bytes ≠ [] := by
  obtain ⟨low, rest, size, rfl, -, -⟩ := h
  exact List.cons_ne_nil _ _

theorem IsByteString.ne_nil {content bytes : List UInt8} (h : IsByteString content bytes) :
    bytes ≠ [] := by
  cases h with
  | sized h => exact h.ne_nil
  | chunked chunks h => exact List.cons_ne_nil _ _

/-- Each chunk takes at least one byte. -/
theorem length_le_length_chunks {chunks : List (List UInt8 × List UInt8)}
    (h : ∀ chunk ∈ chunks, IsSized .bytes chunk.1 chunk.2) :
    chunks.length ≤ (chunks.flatMap Prod.snd).length := by
  have hone : ∀ n ∈ chunks.map fun chunk => chunk.2.length, 1 ≤ n := by
    intro n hn
    obtain ⟨chunk, hchunk, rfl⟩ := List.mem_map.mp hn
    exact List.length_pos_iff.mpr (h chunk hchunk).ne_nil
  simpa [List.length_flatMap] using List.length_le_sum_of_one_le _ hone

namespace Dag

/-- The head of a byte string or of a number neither opens chunks nor ends them, and the reader of
byte strings keeps nothing of it but the number beside its kind. -/
theorem mask_or_of_low_lt {kind : Kind} (hkind : kind = .bytes ∨ kind = .unsigned) {low : UInt8}
    (h : low.toNat < 28) : kind.mask ||| low ≠ Kind.bytes.openHead ∧
      (kind.mask ||| low) ≠ breakByte ∧ (kind.mask ||| low) &&& ~~~Kind.bytes.mask = low := by
  have hall : ∀ i : Fin 28, kind.mask ||| UInt8.ofNat i ≠ Kind.bytes.openHead ∧
      kind.mask ||| UInt8.ofNat i ≠ breakByte ∧
      (kind.mask ||| UInt8.ofNat i) &&& ~~~Kind.bytes.mask = UInt8.ofNat i := by
    rcases hkind with rfl | rfl <;> decide
  simpa using hall ⟨low.toNat, h⟩

/-- A head whose bit of byte strings is passed over is one of a byte string or of a number. -/
theorem eq_mask_or_of_low_lt {b : UInt8} (h : (b &&& ~~~Kind.bytes.mask).toNat < 28) :
    b = Kind.bytes.mask ||| (b &&& ~~~Kind.bytes.mask) ∨
      b = Kind.unsigned.mask ||| (b &&& ~~~Kind.bytes.mask) := by
  have hall : ∀ i : Fin 256, (UInt8.ofNat i &&& ~~~Kind.bytes.mask).toNat < 28 →
      UInt8.ofNat i = Kind.bytes.mask ||| (UInt8.ofNat i &&& ~~~Kind.bytes.mask) ∨
        UInt8.ofNat i = Kind.unsigned.mask ||| (UInt8.ofNat i &&& ~~~Kind.bytes.mask) := by
    decide +kernel
  simpa using hall ⟨b.toNat, b.toNat_lt⟩ (by simpa using h)

theorem content_cons_of_ne_openHead {kind : Kind} {b : UInt8} (h : b ≠ kind.openHead)
    (budget : Nat) (rest : List UInt8) :
    content kind budget (b :: rest) =
      match argument? (b &&& ~~~kind.mask) rest with
      | some (size, rest) => Octets.take? size.toNat rest
      | none => none := by
  cases budget <;> simp only [content, if_neg h] <;> rfl

theorem content_openHead (kind : Kind) (budget : Nat) (rest : List UInt8) :
    content kind (budget + 1) (kind.openHead :: rest) =
      (untilBreak (content kind budget) (rest.length + 1) rest).map
        fun (chunks, rest) => (chunks.flatten, rest) := by
  rw [content, if_pos rfl]

/-- A byte string of a told length is read, and what follows it is left. -/
theorem bytes_of_isSized {kind : Kind} (hkind : kind = .bytes ∨ kind = .unsigned)
    {content input : List UInt8} (h : IsSized kind content input) (budget : Nat)
    (more : List UInt8) : bytes budget (input ++ more) = some (content, more) := by
  obtain ⟨low, rest, size, rfl, hargument, hsize⟩ := h
  obtain ⟨hopen, -, hlow⟩ := mask_or_of_low_lt hkind (lt_of_argument?_eq_some hargument)
  have htake := Octets.take?_append content more
  rw [← hsize] at htake
  rw [bytes, List.cons_append, content_cons_of_ne_openHead hopen, hlow,
    argument?_append_of_eq_some hargument more]
  exact htake

/-- Chunks are read up to the break, by induction over them. -/
theorem untilBreak_chunks (budget : Nat) (chunks : List (List UInt8 × List UInt8))
    (h : ∀ chunk ∈ chunks, IsSized .bytes chunk.1 chunk.2) {fuel : Nat}
    (hfuel : chunks.length < fuel) :
    untilBreak (bytes budget) fuel (chunks.flatMap Prod.snd ++ [breakByte]) =
      some (chunks.map Prod.fst, []) := by
  induction chunks generalizing fuel with
  | nil =>
      obtain ⟨fuel, rfl⟩ := Nat.exists_eq_add_one.mpr hfuel
      simp [untilBreak]
  | cons chunk rest ih =>
      obtain ⟨fuel, rfl⟩ := Nat.exists_eq_add_one.mpr (Nat.zero_lt_of_lt hfuel)
      have hchunk := h chunk List.mem_cons_self
      have hread := bytes_of_isSized (.inl rfl) hchunk budget
        (rest.flatMap Prod.snd ++ [breakByte])
      have hrest := ih (fun c hc => h c (List.mem_cons_of_mem _ hc))
        (Nat.lt_of_succ_lt_succ hfuel)
      obtain ⟨low, tail, size, hbytes, hargument, -⟩ := hchunk
      obtain ⟨-, hbreak, -⟩ := mask_or_of_low_lt (.inl rfl) (lt_of_argument?_eq_some hargument)
      rw [hbytes, List.cons_append] at hread
      simp only [List.flatMap_cons, hbytes, List.cons_append, List.append_assoc, untilBreak,
        if_neg hbreak, hread, hrest, List.map_cons]

theorem run_bytes_of_isSized {kind : Kind} (hkind : kind = .bytes ∨ kind = .unsigned)
    {content input : List UInt8} (h : IsSized kind content input) :
    run bytes input = some content := by
  have hread := bytes_of_isSized hkind h fullBudget []
  rw [List.append_nil] at hread
  simp only [run, hread]

/-- A byte string is read as its content. -/
theorem run_bytes_of_isByteString {content input : List UInt8} (h : IsByteString content input) :
    run bytes input = some content := by
  cases h with
  | sized h => exact run_bytes_of_isSized (.inl rfl) h
  | chunked chunks h =>
      have hlength : chunks.length < (chunks.flatMap Prod.snd ++ [breakByte]).length + 1 := by
        have := length_le_length_chunks h
        rw [List.length_append]
        omega
      have hread : bytes fullBudget
          (Kind.bytes.openHead :: (chunks.flatMap Prod.snd ++ [breakByte])) =
            some ((chunks.map Prod.fst).flatten, []) := by
        rw [bytes, fullBudget, content_openHead]
        exact congrArg _ (untilBreak_chunks 255 chunks h hlength)
      rw [run, hread]
      exact congrArg some List.flatMap_def.symm

/-- What the reader of byte strings takes is a byte string or a number, but for what begins like
chunks. -/
theorem isSized_of_run_bytes_eq_some {content input : List UInt8}
    (hopen : input.head? ≠ some Kind.bytes.openHead) (h : run bytes input = some content) :
    IsSized .bytes content input ∨ IsSized .unsigned content input := by
  cases input with
  | nil => cases h
  | cons b rest =>
      have hb : b ≠ Kind.bytes.openHead := fun heq => hopen (congrArg some heq)
      rw [run, bytes, content_cons_of_ne_openHead hb] at h
      cases hargument : argument? (b &&& ~~~Kind.bytes.mask) rest with
      | none => simp [hargument] at h
      | some found =>
          obtain ⟨size, tail⟩ := found
          have htake : Octets.take? size.toNat tail = some (content, []) := by
            rw [hargument] at h
            simp only at h
            split at h
            next hread =>
              cases h
              exact hread
            next => cases h
          obtain ⟨rfl, hsize⟩ := Octets.eq_append_of_take?_eq_some htake
          rw [List.append_nil] at hargument
          rcases eq_mask_or_of_low_lt (lt_of_argument?_eq_some hargument) with heq | heq
          · exact .inl ⟨_, rest, size, congrArg (· :: rest) heq, hargument, hsize.symm⟩
          · exact .inr ⟨_, rest, size, congrArg (· :: rest) heq, hargument, hsize.symm⟩

theorem not_number_bytes :
    ¬(Kind.bytes.code = Kind.unsigned.code ∨ Kind.bytes.code = Kind.negative.code) := by decide

/-- A byte string in chunks is no value of the data model. -/
theorem ipld?_openHead (rest : List UInt8) : ipld? (Kind.bytes.openHead :: rest) = none := by
  have hkind : Kind.bytes.openHead >>> 5 = Kind.bytes.code := by decide
  simp only [ipld?, run, fullBudget, ipld, hkind, if_neg not_number_bytes, true_or, if_true]

end Dag
end Cbor
end TraceLedger
