import Mathlib.Algebra.GroupWithZero.Nat
import TraceLedger.Proofs.Address.ReadBack
import TraceLedger.Proofs.Trace.Calls

/-! # The listing of a trace

A listing is made with a list of pending calls. Its lines are those of the recursion over the
trace: each call stands before the calls that it made, and these stand in the order in which they
were made. So the places of the calls rise from line to line. -/

namespace TraceLedger.Trace

/-! ## The order of the calls -/

mutual

/-- The calls of a trace with their depths, each call before those that it made. -/
def preorder (depth : Nat) : Trace → List (Nat × Trace)
  | ⟨message, outcome, target, subcalls, error⟩ =>
    (depth, ⟨message, outcome, target, subcalls, error⟩) :: preorders (depth + 1) subcalls

/-- The calls of traces that stand side by side. -/
def preorders (depth : Nat) : List Trace → List (Nat × Trace)
  | [] => []
  | t :: rest => preorder depth t ++ preorders depth rest

end

theorem preorder_eq (depth : Nat) (t : Trace) :
    t.preorder depth = (depth, t) :: preorders (depth + 1) t.subcalls := by
  cases t
  rw [preorder]

theorem preorders_eq (depth : Nat) (ts : List Trace) :
    preorders depth ts = ts.flatMap (preorder depth) := by
  induction ts with
  | nil => rfl
  | cons t rest ih => rw [preorders, ih, List.flatMap_cons]

/-- The call at the end of a path, with its depth. -/
def callAt? (depth : Nat) (t : Trace) (path : List Nat) : Option (Nat × Trace) :=
  (t.at? path).map (depth + path.length, ·)

theorem callAt?_nil (depth : Nat) (t : Trace) : t.callAt? depth [] = some (depth, t) := rfl

theorem callAt?_cons {t subcall : Trace} {position : Nat}
    (h : t.subcalls[position]? = some subcall) (depth : Nat) (path : List Nat) :
    t.callAt? depth (position :: path) = subcall.callAt? (depth + 1) path := by
  simp only [callAt?, at?, h, List.length_cons, Nat.add_assoc, Nat.add_comm 1]

mutual

/-- The calls in their order stand at the ends of the paths in theirs. -/
theorem preorder_eq_filterMap (depth : Nat) :
    ∀ t : Trace, t.preorder depth = t.paths.filterMap (t.callAt? depth)
  | ⟨message, outcome, target, subcalls, error⟩ => by
    let root : Trace := ⟨message, outcome, target, subcalls, error⟩
    have hsub : ∀ entry ∈ subcalls.zipIdx,
        (entry.1.paths.map (entry.2 :: ·)).filterMap (root.callAt? depth) =
          entry.1.preorder (depth + 1) := by
      rintro ⟨t, position⟩ hmem
      have hget : root.subcalls[position]? = some t := List.mem_zipIdx_iff_getElem?.mp hmem
      rw [List.filterMap_map,
        preorder_eq_filterMap_of_mem (depth + 1) subcalls t (List.mem_of_getElem? hget)]
      exact List.filterMap_congr fun path _ => callAt?_cons hget depth path
    have hzip : subcalls.zipIdx.flatMap (fun entry => entry.1.preorder (depth + 1)) =
        subcalls.flatMap (preorder (depth + 1)) := by
      rw [← List.flatMap_map Prod.fst, List.zipIdx_map_fst]
    rw [preorder_eq, preorders_eq, paths_eq, pathsFrom_eq,
      List.filterMap_cons_some (callAt?_nil depth root), List.filterMap_flatMap,
      List.flatMap_congr hsub, hzip]

theorem preorder_eq_filterMap_of_mem (depth : Nat) :
    ∀ ts : List Trace, ∀ t ∈ ts, t.preorder depth = t.paths.filterMap (t.callAt? depth)
  | [], _, h => nomatch h
  | first :: rest, t, h => by
    rcases List.mem_cons.mp h with heq | h
    · rw [heq]
      exact preorder_eq_filterMap depth first
    · exact preorder_eq_filterMap_of_mem depth rest t h

end

mutual

/-- A path stands before those that go on from it, and a path through an earlier call before one
through a later call. -/
theorem pairwise_lt_paths : ∀ t : Trace, t.paths.Pairwise (· < ·)
  | ⟨_, _, _, subcalls, _⟩ => by
    rw [paths, List.pairwise_cons]
    refine ⟨fun path hpath => ?_, pairwise_lt_pathsFrom 0 subcalls⟩
    obtain ⟨_, _, _, -, rfl, -⟩ := mem_pathsFrom_iff.mp hpath
    exact List.nil_lt_cons _ _

theorem pairwise_lt_pathsFrom (position : Nat) :
    ∀ ts : List Trace, (pathsFrom position ts).Pairwise (· < ·)
  | [] => List.Pairwise.nil
  | t :: rest => by
    rw [pathsFrom, List.pairwise_append]
    refine ⟨?_, pairwise_lt_pathsFrom (position + 1) rest, ?_⟩
    · exact List.pairwise_map.mpr
        ((pairwise_lt_paths t).imp fun h => List.cons_lt_cons_self.mpr h)
    · intro first hfirst second hsecond
      obtain ⟨path, -, rfl⟩ := List.mem_map.mp hfirst
      obtain ⟨i, _, _, -, rfl, -⟩ := mem_pathsFrom_iff.mp hsecond
      exact List.cons_lt_cons_iff.mpr (.inl (by omega))

end

mutual

theorem length_preorder (depth : Nat) : ∀ t : Trace, (t.preorder depth).length = t.size
  | ⟨_, _, _, subcalls, _⟩ => by
    rw [preorder, size, List.length_cons, length_preorders (depth + 1) subcalls]

theorem length_preorders (depth : Nat) :
    ∀ ts : List Trace, (preorders depth ts).length = sizeList ts
  | [] => rfl
  | t :: rest => by
    rw [preorders, sizeList, List.length_append, length_preorder depth t,
      length_preorders depth rest]

end

theorem sizeList_eq_sum (ts : List Trace) : sizeList ts = (ts.map callCount).sum := by
  induction ts with
  | nil => rfl
  | cons t rest ih => rw [sizeList, ih, List.map_cons, List.sum_cons, callCount_eq_size]

theorem callCount_eq (t : Trace) : t.callCount = 1 + (t.subcalls.map callCount).sum := by
  rw [callCount_eq_size, size_eq, sizeList_eq_sum, Nat.add_comm]

/-! ## The lines of the listing -/

/-- The line of a call, with its indent. -/
def indented (call : Nat × Trace) : String := "".pushn ' ' (2 * call.1) ++ call.2.line

mutual

/-- The call in front of the pending ones is listed with all calls below it, and then comes the
rest. -/
theorem listCalls_cons (done : List String) (depth : Nat) :
    ∀ (t : Trace) (rest : List (Nat × Trace)),
      listCalls done ((depth, t) :: rest) =
        listCalls (((t.preorder depth).map indented).reverse ++ done) rest
  | ⟨message, outcome, target, subcalls, error⟩, rest => by
    rw [listCalls, listCalls_append _ (depth + 1) subcalls rest, preorder, List.map_cons,
      List.reverse_cons, List.append_assoc]
    rfl

theorem listCalls_append (done : List String) (depth : Nat) :
    ∀ (ts : List Trace) (rest : List (Nat × Trace)),
      listCalls done (ts.map (depth, ·) ++ rest) =
        listCalls (((preorders depth ts).map indented).reverse ++ done) rest
  | [], _ => rfl
  | t :: ts, rest => by
    rw [List.map_cons, List.cons_append, listCalls_cons done depth t,
      listCalls_append _ depth ts rest, preorders, List.map_append, List.reverse_append,
      List.append_assoc]

end

theorem format_eq (t : Trace) : t.format = "\n".intercalate ((t.preorder 0).map indented) := by
  rw [format, listCalls_cons, listCalls, List.append_nil, List.reverse_reverse]

theorem toList_pushn (s : String) (c : Char) (n : Nat) :
    (s.pushn c n).toList = s.toList ++ List.replicate n c := by
  induction n with
  | zero => simp [String.pushn, Nat.repeat]
  | succ n ih =>
      rw [List.replicate_succ', ← List.append_assoc, ← ih, ← String.toList_push]
      rfl

theorem isDigit_or_eq_of_mem_toString {n : Int} {c : Char} (h : c ∈ (toString n).toList) :
    c.isDigit ∨ c = '-' := by
  cases n with
  | ofNat n => exact .inl (Decimal.isDigit_of_mem_repr h)
  | negSucc n =>
      rw [Int.toString_eq_repr, Int.repr, String.toList_append] at h
      rcases List.mem_append.mp h with h | h
      · exact .inr (by simpa using h)
      · exact .inl (Decimal.isDigit_of_mem_repr h)

/-- The exit of a call without a receipt is a dash, and that of another one a number. -/
theorem exitText_cases (t : Trace) :
    (∃ e, t.receipt = .error e) ∧ t.exitText = "-" ∨
      ∃ receipt, t.receipt = .ok receipt ∧ t.exitText = toString receipt.exitCode.toNat := by
  unfold exitText
  split
  next receipt hreceipt => exact .inr ⟨receipt, hreceipt, rfl⟩
  next e hreceipt => exact .inl ⟨⟨e, hreceipt⟩, rfl⟩

/-- A line begins with the address of the sender and ends with the exit, and is one line. -/
theorem exists_toList_line (t : Trace) :
    ∃ front, t.line.toList = 'f' :: front ++ (" exit " ++ t.exitText).toList ∧ '\n' ∉ front := by
  have haddress (a : Address) : '\n' ∉ a.body :=
    fun h => absurd (Address.visible_of_mem_body h) (by decide)
  have hmethod : '\n' ∉ (toString t.message.method).toList :=
    fun h => absurd (Address.isDigit_of_mem_toString h) (by decide)
  have hvalue : '\n' ∉ (toString t.message.value).toList :=
    fun h => absurd (isDigit_or_eq_of_mem_toString h) (by decide)
  refine ⟨t.message.sender.body ++ (" -> " ++ t.message.receiver.toText .mainnet ++
    " method " ++ toString t.message.method ++ " value " ++
    toString t.message.value).toList, ?_, ?_⟩
  · simp [line, Address.toText, Network.letter]
  · simpa [haddress, hmethod, Address.toText, Network.letter] using hvalue

theorem newline_not_mem_indented (call : Nat × Trace) : '\n' ∉ (indented call).toList := by
  obtain ⟨front, hline, hfront⟩ := call.2.exists_toList_line
  have hexit : '\n' ∉ call.2.exitText.toList := by
    rcases call.2.exitText_cases with ⟨-, heq⟩ | ⟨receipt, -, heq⟩
    · rw [heq]
      decide
    · rw [heq]
      exact fun h => absurd (Decimal.isDigit_of_mem_repr h) (by decide)
  rw [indented, String.toList_append, toList_pushn, hline]
  simp [hfront, hexit]

/-- The indent is all the space that a line begins with. -/
theorem takeWhile_indented (depth : Nat) (t : Trace) :
    (indented (depth, t)).toList.takeWhile (· = ' ') = List.replicate (2 * depth) ' ' := by
  obtain ⟨front, hline, -⟩ := t.exists_toList_line
  rw [indented, String.toList_append, toList_pushn, hline, String.toList_empty, List.nil_append,
    List.takeWhile_append_of_pos fun c hc => by simpa using List.eq_of_mem_replicate hc]
  simp

theorem exit_suffix_indented (depth : Nat) (t : Trace) :
    (" exit " ++ t.exitText).toList <:+ (indented (depth, t)).toList := by
  obtain ⟨front, hline, -⟩ := t.exists_toList_line
  have htext : (indented (depth, t)).toList = ("".pushn ' ' (2 * depth)).toList ++ t.line.toList :=
    String.toList_append
  rw [htext, hline, ← List.append_assoc]
  exact List.suffix_append _ _

/-- A dash ends the line of a call without a receipt, and a digit that of another one. -/
theorem dash_suffix_indented_iff (depth : Nat) (t : Trace) :
    " exit -".toList <:+ (indented (depth, t)).toList ↔ ∃ e, t.receipt = .error e := by
  have hsuffix := t.exit_suffix_indented depth
  rcases t.exitText_cases with ⟨herror, heq⟩ | ⟨receipt, hok, heq⟩
  · rw [heq] at hsuffix
    exact ⟨fun _ => herror, fun _ => hsuffix⟩
  · refine ⟨fun hdash => ?_, fun ⟨e, he⟩ => nomatch hok.symm.trans he⟩
    obtain ⟨front, hfront⟩ := hdash
    obtain ⟨front', hfront'⟩ := hsuffix
    have hdigits : (toString receipt.exitCode.toNat).toList ≠ [] := by
      rw [Nat.toString_eq_ofList_toDigits, String.toList_ofList]
      exact Nat.toDigits_ne_nil
    -- The last character of the line would be a dash among the digits.
    have hlast := congrArg List.getLast? (hfront.trans hfront'.symm)
    rw [heq, String.toList_append, ← List.append_assoc, List.getLast?_append_of_ne_nil _ hdigits,
      List.getLast?_append_of_ne_nil _ (by decide)] at hlast
    exact absurd (Decimal.isDigit_of_mem_repr (List.mem_of_getLast? hlast.symm)) (by decide)

/-! ## Whole listings -/

/-- The lines of a text. -/
def linesOf (text : String) : List String := (text.split '\n').toList.map (·.copy)

theorem linesOf_format (t : Trace) : linesOf t.format = (t.preorder 0).map indented := by
  have hlines : ∀ line ∈ (t.preorder 0).map indented, '\n' ∉ line.toList := by
    intro line hline
    obtain ⟨call, -, rfl⟩ := List.mem_map.mp hline
    exact newline_not_mem_indented call
  have hne : (t.preorder 0).map indented ≠ [] := by simp [preorder_eq]
  have hsplit := String.toList_split_intercalate hlines
  rw [if_neg hne] at hsplit
  rw [linesOf, format_eq]
  exact hsplit

/-- The listing of a trace has a line for each call, in the order in which the calls were made, and
as many lines as there are calls. -/
structure ListsCalls (root : Trace) : Prop where
  lines : linesOf root.format = (root.preorder 0).map indented
  /-- The calls are those at the ends of the paths, with the lengths of the paths as depths. -/
  calls : root.preorder 0 = root.paths.filterMap fun path => (root.at? path).map (path.length, ·)
  /-- A call stands before those that it made, and before those that were made later. -/
  rising : root.paths.Pairwise (· < ·)
  all : ∀ path, path ∈ root.paths ↔ (root.at? path).isSome = true
  indent : ∀ call ∈ root.preorder 0,
    (indented call).toList.takeWhile (· = ' ') = List.replicate (2 * call.1) ' '
  exit : ∀ call ∈ root.preorder 0,
    " exit -".toList <:+ (indented call).toList ↔ ∃ e, call.2.receipt = .error e
  length_lines : (linesOf root.format).length = root.callCount
  callCount : root.callCount = 1 + (root.subcalls.map Trace.callCount).sum

/-- Every trace is listed. -/
theorem format_lists_calls (root : Trace) : root.ListsCalls where
  lines := root.linesOf_format
  calls := by
    rw [preorder_eq_filterMap]
    exact List.filterMap_congr fun path _ => by rw [callAt?, Nat.zero_add]
  rising := root.pairwise_lt_paths
  all _ := mem_paths_iff
  indent call _ := takeWhile_indented call.1 call.2
  exit call _ := dash_suffix_indented_iff call.1 call.2
  length_lines := by
    rw [linesOf_format, List.length_map, length_preorder, callCount_eq_size]
  callCount := root.callCount_eq

end TraceLedger.Trace
