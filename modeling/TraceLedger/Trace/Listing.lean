import TraceLedger.Trace.Basic

/-! # Counting and listing the calls of a trace

Both go through the tree with a list of what is still to be visited, so that a deep trace needs
no deep recursion. -/

namespace TraceLedger.Trace

mutual

/-- Number of calls in a trace, the root included. -/
def size : Trace → Nat
  | ⟨_, _, _, subcalls, _⟩ => sizeList subcalls + 1

def sizeList : List Trace → Nat
  | [] => 0
  | t :: rest => size t + sizeList rest

end

theorem sizeList_append (a b : List Trace) : sizeList (a ++ b) = sizeList a + sizeList b := by
  induction a with
  | nil => simp [sizeList]
  | cons t a ih => simp [sizeList, ih]; omega

theorem size_eq (t : Trace) : t.size = sizeList t.subcalls + 1 := by
  cases t; rfl

theorem sizeList_reverse (ts : List Trace) : sizeList ts.reverse = sizeList ts := by
  induction ts with
  | nil => rfl
  | cons t ts ih => simp [sizeList, sizeList_append, ih]; omega

/-- Counts the given calls and those below them, and `count` more. What is put on the pile last is
taken from it first, so the last subcall comes before the others. -/
def countCalls (count : Nat) : List Trace → Nat
  | [] => count
  | t :: rest => countCalls (count + 1) (t.subcalls.reverse ++ rest)
termination_by ts => sizeList ts
decreasing_by simp [sizeList, sizeList_append, sizeList_reverse, size_eq]

/-- Number of calls in a trace, the root included. -/
def callCount (t : Trace) : Nat := countCalls 0 [t]

/-- The exit code as shown in a listing. -/
def exitText (t : Trace) : String :=
  match t.receipt with
  | .ok receipt => toString receipt.exitCode
  | .error _ => "-"

/-- The line of one call, without its indent. -/
def line (t : Trace) : String :=
  t.message.sender.toText .mainnet ++ " -> " ++ t.message.receiver.toText .mainnet ++
    " method " ++ toString t.message.method ++ " value " ++ toString t.message.value ++
    " exit " ++ t.exitText

/-- The lines of the given calls and of those below them: each call before its subcalls. `done`
holds the lines so far, last first. -/
def listCalls (done : List String) : List (Nat × Trace) → List String
  | [] => done.reverse
  | (depth, t) :: rest =>
    listCalls (("".pushn ' ' (2 * depth) ++ t.line) :: done)
      (t.subcalls.map (depth + 1, ·) ++ rest)
termination_by ts => sizeList (ts.map Prod.snd)
decreasing_by simp [sizeList, sizeList_append, size_eq, Function.comp_def]

/-- One line per call, indented by its depth. -/
def format (t : Trace) : String := "\n".intercalate (listCalls [] [(0, t)])

end TraceLedger.Trace
