import TraceLedger.Walk.Basic

/-! # The call that gets the logs

A walk keeps a target for the logs while it goes on, and writes them at its place when it is
over. Here the same is told by the calls that have a record: the logs go to the first one of the
topmost calls that entered a contract, and to no other. -/

namespace TraceLedger

namespace Emitted

/-- The level of the topmost calls that entered a contract. -/
def contractLevel? : List Emitted → Option UInt16
  | [] => none
  | e :: rest =>
    match contractLevel? rest with
    | none => if e.isContract then some e.transaction.level else none
    | some level =>
      if e.isContract ∧ e.transaction.level < level then some e.transaction.level else some level

/-- The record with the logs of its message. -/
def withLogs (logs : List EthLog) (e : Emitted) : Transaction :=
  { e.transaction with
    metadata := (e.decoded.insert "EthLogs" (.list (logs.map Writable.toJson))).toText }

/-- Adds logs to the first call that entered a contract at the given level. -/
def addLogsAt (level : UInt16) (logs : List EthLog) : List Emitted → List Transaction
  | [] => []
  | e :: rest =>
    if e.isContract ∧ e.transaction.level = level then
      e.withLogs logs :: rest.map Emitted.transaction
    else e.transaction :: addLogsAt level logs rest

/-- The records of calls. The logs of the message go to the topmost call that entered a
contract, the first one of several. -/
def transactions (logs : List EthLog) (calls : List Emitted) : List Transaction :=
  match logs, contractLevel? calls with
  | _ :: _, some level => addLogsAt level logs calls
  | _, _ => calls.map Emitted.transaction

/-- A call stands between others as the first one of the topmost that entered a contract. -/
structure IsTopmost (before : List Emitted) (e : Emitted) (after : List Emitted) : Prop where
  isContract : e.isContract = true
  lt_before : ∀ x ∈ before, x.isContract = true → e.transaction.level < x.transaction.level
  le_after : ∀ x ∈ after, x.isContract = true → e.transaction.level ≤ x.transaction.level

theorem exists_isTopmost {calls : List Emitted} (h : ∃ e ∈ calls, e.isContract = true) :
    ∃ before e after, calls = before ++ e :: after ∧ IsTopmost before e after := by
  induction calls with
  | nil =>
      obtain ⟨e, he, -⟩ := h
      cases he
  | cons x rest ih =>
      by_cases hrest : ∃ e ∈ rest, e.isContract = true
      · obtain ⟨before, e, after, rfl, htop⟩ := ih hrest
        by_cases hx : x.isContract = true ∧ x.transaction.level ≤ e.transaction.level
        · -- The call in front is at least as high as the first of the topmost ones behind it.
          refine ⟨[], x, before ++ e :: after, rfl, hx.1, by simp, ?_⟩
          intro y hy hcontract
          rcases List.mem_append.mp hy with hy | hy
          · exact UInt16.le_trans hx.2 (UInt16.le_of_lt (htop.lt_before y hy hcontract))
          · rcases List.mem_cons.mp hy with rfl | hy
            · exact hx.2
            · exact UInt16.le_trans hx.2 (htop.le_after y hy hcontract)
        · refine ⟨x :: before, e, after, rfl, htop.isContract, ?_, htop.le_after⟩
          intro y hy hcontract
          rcases List.mem_cons.mp hy with rfl | hy
          · exact UInt16.not_le.mp fun hle => hx ⟨hcontract, hle⟩
          · exact htop.lt_before y hy hcontract
      · obtain ⟨e, he, hcontract⟩ := h
        rcases List.mem_cons.mp he with rfl | he
        · refine ⟨[], e, rest, rfl, hcontract, by simp, ?_⟩
          intro y hy hy'
          exact (hrest ⟨y, hy, hy'⟩).elim
        · exact (hrest ⟨e, he, hcontract⟩).elim

theorem contractLevel?_eq_none {calls : List Emitted} (h : ∀ e ∈ calls, e.isContract = false) :
    contractLevel? calls = none := by
  induction calls with
  | nil => rfl
  | cons x rest ih =>
      rw [contractLevel?, ih fun e he => h e (List.mem_cons_of_mem _ he)]
      simp [h x List.mem_cons_self]

theorem contractLevel?_mem {calls : List Emitted} {level : UInt16}
    (h : contractLevel? calls = some level) :
    ∃ e ∈ calls, e.isContract = true ∧ e.transaction.level = level := by
  induction calls generalizing level with
  | nil => cases h
  | cons x rest ih =>
      rw [contractLevel?] at h
      cases hrest : contractLevel? rest with
      | none =>
          rw [hrest] at h
          by_cases hx : x.isContract = true
          · exact ⟨x, List.mem_cons_self, hx, by simpa [hx] using h⟩
          · simp [hx] at h
      | some other =>
          rw [hrest] at h
          by_cases hx : x.isContract = true ∧ x.transaction.level < other
          · exact ⟨x, List.mem_cons_self, hx.1, by simpa [hx] using h⟩
          · simp only [hx, if_false, Option.some.injEq] at h
            obtain ⟨e, he, hcontract, hlevel⟩ := ih hrest
            exact ⟨e, List.mem_cons_of_mem _ he, hcontract, by rw [hlevel, h]⟩

theorem contractLevel?_le {calls : List Emitted} {e : Emitted} (he : e ∈ calls)
    (hcontract : e.isContract = true) :
    ∃ level, contractLevel? calls = some level ∧ level ≤ e.transaction.level := by
  induction calls with
  | nil => cases he
  | cons x rest ih =>
      rw [contractLevel?]
      rcases List.mem_cons.mp he with rfl | he
      · cases contractLevel? rest with
        | none => exact ⟨e.transaction.level, by simp [hcontract], UInt16.le_refl _⟩
        | some level =>
            by_cases hlt : e.transaction.level < level
            · exact ⟨e.transaction.level, by simp [hcontract, hlt], UInt16.le_refl _⟩
            · exact ⟨level, by simp [hlt], UInt16.not_lt.mp hlt⟩
      · obtain ⟨level, hlevel, hle⟩ := ih he
        rw [hlevel]
        by_cases hx : x.isContract = true ∧ x.transaction.level < level
        · exact ⟨x.transaction.level, by simp [hx],
            UInt16.le_trans (UInt16.le_of_lt hx.2) hle⟩
        · exact ⟨level, by simp [hx], hle⟩

theorem contractLevel?_of_isTopmost {before after : List Emitted} {e : Emitted}
    (h : IsTopmost before e after) :
    contractLevel? (before ++ e :: after) = some e.transaction.level := by
  have hmem : e ∈ before ++ e :: after := List.mem_append_right _ List.mem_cons_self
  obtain ⟨level, hlevel, hle⟩ := contractLevel?_le hmem h.isContract
  obtain ⟨x, hx, hcontract, rfl⟩ := contractLevel?_mem hlevel
  rw [hlevel]
  congr 1
  refine UInt16.le_antisymm hle ?_
  rcases List.mem_append.mp hx with hx | hx
  · exact UInt16.le_of_lt (h.lt_before x hx hcontract)
  · rcases List.mem_cons.mp hx with rfl | hx
    · exact UInt16.le_refl _
    · exact h.le_after x hx hcontract

theorem addLogsAt_of_isTopmost {before after : List Emitted} {e : Emitted}
    (h : IsTopmost before e after) (logs : List EthLog) :
    addLogsAt e.transaction.level logs (before ++ e :: after) =
      before.map transaction ++ e.withLogs logs :: after.map transaction := by
  induction before with
  | nil => simp [addLogsAt, h.isContract]
  | cons x before ih =>
      have hx : ¬ (x.isContract = true ∧ x.transaction.level = e.transaction.level) := by
        rintro ⟨hcontract, hlevel⟩
        have hlt := h.lt_before x List.mem_cons_self hcontract
        rw [hlevel] at hlt
        exact UInt16.lt_irrefl _ hlt
      have htail : IsTopmost before e after :=
        ⟨h.isContract, fun y hy => h.lt_before y (List.mem_cons_of_mem _ hy), h.le_after⟩
      rw [List.cons_append, addLogsAt, if_neg hx, ih htail]
      rfl

/-- The logs go to the first one of the topmost calls that entered a contract. -/
theorem transactions_of_isTopmost {before after : List Emitted} {e : Emitted}
    (h : IsTopmost before e after) {logs : List EthLog} (hlogs : logs ≠ []) :
    transactions logs (before ++ e :: after) =
      before.map transaction ++ e.withLogs logs :: after.map transaction := by
  obtain ⟨log, rest, rfl⟩ := List.exists_cons_of_ne_nil hlogs
  simp only [transactions, contractLevel?_of_isTopmost h]
  exact addLogsAt_of_isTopmost h _

theorem transactions_of_forall_eq_false {calls : List Emitted}
    (h : ∀ e ∈ calls, e.isContract = false) (logs : List EthLog) :
    transactions logs calls = calls.map transaction := by
  simp [transactions, contractLevel?_eq_none h]

@[simp] theorem transactions_nil_logs (calls : List Emitted) :
    transactions [] calls = calls.map transaction := rfl

end Emitted

/-! ## The target while a walk goes on -/

namespace LogsTarget

open Emitted Walker

/-- The target after the records of further calls, the first one of which stands at the given
place. -/
def track (position : Nat) (target : Option LogsTarget) : List Emitted → Option LogsTarget
  | [] => target
  | e :: rest => track (position + 1) (retarget e.transaction.level position e target) rest

theorem track_append (position : Nat) (target : Option LogsTarget)
    (first second : List Emitted) :
    track position target (first ++ second) =
      track (position + first.length) (track position target first) second := by
  induction first generalizing position target with
  | nil => rfl
  | cons e rest ih =>
      rw [List.cons_append, track, ih, track, List.length_cons, Nat.add_assoc, Nat.add_comm 1]

theorem track_of_forall_eq_false (position : Nat) (target : Option LogsTarget)
    {calls : List Emitted} (h : ∀ e ∈ calls, e.isContract = false) :
    track position target calls = target := by
  induction calls generalizing position with
  | nil => rfl
  | cons e rest ih =>
      rw [track, retarget, h e List.mem_cons_self]
      exact ih _ fun x hx => h x (List.mem_cons_of_mem _ hx)

/-- A target is kept as long as no call that entered a contract is above it. -/
theorem track_of_forall_le (position : Nat) (target : LogsTarget) {calls : List Emitted}
    (h : ∀ e ∈ calls, e.isContract = true → target.level ≤ e.transaction.level) :
    track position (some target) calls = some target := by
  induction calls generalizing position with
  | nil => rfl
  | cons e rest ih =>
      have hkeep : retarget e.transaction.level position e (some target) = some target := by
        unfold retarget
        rw [if_neg]
        intro htakes
        simp only [Option.all_some, Bool.and_eq_true, decide_eq_true_eq] at htakes
        exact UInt16.not_lt.mpr (h e List.mem_cons_self htakes.1) htakes.2
      rw [track, hkeep]
      exact ih _ fun x hx => h x (List.mem_cons_of_mem _ hx)

theorem track_of_isTopmost {before after : List Emitted} {e : Emitted}
    (h : IsTopmost before e after) (position : Nat) {target : Option LogsTarget}
    (htarget : target.all (e.transaction.level < ·.level) = true) :
    track position target (before ++ e :: after) =
      some ⟨e.transaction.level, position + before.length, e.decoded⟩ := by
  induction before generalizing position target with
  | nil =>
      rw [List.nil_append, track, retarget, h.isContract, htarget]
      exact track_of_forall_le _ _ h.le_after
  | cons x before ih =>
      have htail : IsTopmost before e after :=
        ⟨h.isContract, fun y hy => h.lt_before y (List.mem_cons_of_mem _ hy), h.le_after⟩
      have hnext : (retarget x.transaction.level position x target).all
          (e.transaction.level < ·.level) = true := by
        unfold retarget
        split
        next htakes =>
          rw [Bool.and_eq_true] at htakes
          simpa using h.lt_before x List.mem_cons_self htakes.1
        next => exact htarget
      rw [List.cons_append, track, ih htail (position + 1) hnext, List.length_cons,
        Nat.add_assoc, Nat.add_comm 1]

end LogsTarget

namespace Walker

open Emitted

theorem addLogs_append (logs : List EthLog) (e : Emitted) (before after : List Transaction)
    (level : UInt16) :
    addLogs logs ⟨level, before.length, e.decoded⟩ (before ++ e.transaction :: after) =
      before ++ e.withLogs logs :: after := by
  unfold addLogs
  rw [List.modify_eq_take_cons_drop (by simp)]
  simp [withLogs]

/-- Writing the logs at the place of the target comes to giving them to the topmost call. -/
theorem finish_eq (logs : List EthLog) {s : WalkState} (before : List Transaction)
    (calls : List Emitted)
    (htransactions : s.transactions = before ++ calls.map Emitted.transaction)
    (htarget : s.target = LogsTarget.track before.length none calls) :
    finish logs s = before ++ transactions logs calls := by
  cases logs with
  | nil => rw [transactions_nil_logs, ← htransactions]; rfl
  | cons log rest =>
      by_cases hcontract : ∃ e ∈ calls, e.isContract = true
      · obtain ⟨first, e, last, rfl, htop⟩ := exists_isTopmost hcontract
        rw [LogsTarget.track_of_isTopmost htop _ rfl] at htarget
        rw [transactions_of_isTopmost htop (List.cons_ne_nil _ _)]
        simp only [finish, htarget]
        have hadd := addLogs_append (log :: rest) e (before ++ first.map Emitted.transaction)
          (last.map Emitted.transaction) e.transaction.level
        rw [List.length_append, List.length_map] at hadd
        rw [htransactions, List.map_append, List.map_cons, ← List.append_assoc, hadd,
          List.append_assoc]
      · have hnone : ∀ e ∈ calls, e.isContract = false := by
          intro e he
          exact Bool.eq_false_iff.mpr fun htrue => hcontract ⟨e, he, htrue⟩
        rw [LogsTarget.track_of_forall_eq_false _ _ hnone] at htarget
        rw [transactions_of_forall_eq_false hnone, ← htransactions]
        simp only [finish, htarget]

end Walker
end TraceLedger
