import Mathlib.Data.List.Dedup
import TraceLedger.Proofs.Parser.Transparency
import TraceLedger.Proofs.Resolver.Questions

/-! # What a session asks the node

A session that begins without anything known at its tipset asks about every address of its
messages once. Of an actor that goes by several addresses the code is asked for once for each of
them, since what is kept is kept for the address as it is written. -/

namespace TraceLedger

namespace TraceParser

open Resolver

/-- The addresses that messages resolve, each of them once. -/
def askedOnce (p : TraceParser) (session : ParseSession) (logs : EthLogs)
    (messages : List Invocation) : List Address :=
  (p.shares session logs messages).asked.dedup

/-- What messages ask the node, if nothing is known at their tipset when they begin. -/
structure QuestionsPut (p : TraceParser) (session : ParseSession) (logs : EthLogs)
    (messages : List Invocation) (put : List Query) : Prop where
  perm : put.Perm
    (p.resolver.questionsOf session.tipset.key (p.askedOnce session logs messages))
  count_id_le : ∀ address tipset, put.count (.id address tipset) ≤ 1
  count_robust_le : ∀ address tipset, put.count (.robust address tipset) ≤ 1
  /-- The code of an actor is asked for by each of the actor's addresses. -/
  count_code : ∀ address, put.count (.code address session.tipset.key) =
    (p.askedOnce session logs messages).countP
      (p.resolver.codeAddress session.tipset.key · = address)
  nodup_iff : put.Nodup ↔
    ∀ a ∈ p.askedOnce session logs messages, ∀ b ∈ p.askedOnce session logs messages,
      p.resolver.codeAddress session.tipset.key a =
        p.resolver.codeAddress session.tipset.key b → a = b

theorem questionsPut_of_perm {p : TraceParser} {session : ParseSession} {logs : EthLogs}
    {messages : List Invocation} {put : List Query}
    (h : put.Perm
      (p.resolver.questionsOf session.tipset.key (p.askedOnce session logs messages))) :
    p.QuestionsPut session logs messages put := by
  have hnodup : (p.askedOnce session logs messages).Nodup := List.nodup_dedup _
  refine ⟨h, fun address tipset => ?_, fun address tipset => ?_, fun address => ?_, ?_⟩
  · rw [h.count_eq]
    exact count_form_questionsOf hnodup p.resolver fun _ => Query.noConfusion
  · rw [h.count_eq]
    exact count_form_questionsOf hnodup p.resolver fun _ => Query.noConfusion
  · rw [h.count_eq, count_code_questionsOf]
  · rw [h.nodup_iff, nodup_questionsOf_iff hnodup]

/-- Messages put the questions of their addresses, in front of those that were put before. -/
theorem parseMessages_asks {p : TraceParser} (hc : p.config.validate = .ok ())
    (session : ParseSession) (logs : EthLogs) (messages : List Invocation) {before : ResolverState}
    (hs : p.resolver.Sound before)
    (hempty : ∀ entry ∈ before.cache, entry.1.2 ≠ session.tipset.key) :
    ∃ put, (p.parseMessages session logs messages before).2.queries = put ++ before.queries ∧
      p.QuestionsPut session logs messages put := by
  obtain ⟨asked, hasked, hmem⟩ := (AsksAbout.nil p.resolver hempty).resolveAll
    (p.shares session logs messages).asked
  rw [parseMessages_eq hc session logs messages hs]
  refine ⟨_, hasked.queries_eq, questionsPut_of_perm ?_⟩
  have hperm : asked.Perm (p.askedOnce session logs messages) := by
    refine (List.perm_ext_iff_of_nodup hasked.nodup (List.nodup_dedup _)).mpr fun address => ?_
    simp [hmem]
  exact (List.reverse_perm _).trans (hperm.flatMap_right _)

/-- Two addresses of one actor ask for its code twice. -/
theorem QuestionsPut.two_le_count_code {p : TraceParser} {session : ParseSession}
    {logs : EthLogs} {messages : List Invocation} {put : List Query}
    (h : p.QuestionsPut session logs messages put) {a b : Address}
    (ha : a ∈ (p.shares session logs messages).asked)
    (hb : b ∈ (p.shares session logs messages).asked) (hne : a ≠ b) {code : Address}
    (hacode : p.resolver.codeAddress session.tipset.key a = code)
    (hbcode : p.resolver.codeAddress session.tipset.key b = code) :
    2 ≤ put.count (.code code session.tipset.key) := by
  have hpair : [a, b].Nodup := by simp [hne]
  have hsubset : [a, b] ⊆ (p.askedOnce session logs messages).filter
      (p.resolver.codeAddress session.tipset.key · = code) := by
    intro address hmem
    rw [List.mem_pair] at hmem
    rcases hmem with rfl | rfl
    · exact List.mem_filter.mpr ⟨List.mem_dedup.mpr ha, by simpa using hacode⟩
    · exact List.mem_filter.mpr ⟨List.mem_dedup.mpr hb, by simpa using hbcode⟩
  rw [h.count_code, List.countP_eq_length_filter]
  exact (List.subperm_of_subset hpair hsubset).length_le

/-- The two parties of a message's own call are asked about. -/
theorem mem_asked_of_trace? {p : TraceParser} (hc : p.config.validate = .ok ())
    (hresolve : p.config.resolveAddresses = true) (session : ParseSession) (logs : EthLogs)
    {i : Invocation} {trace : Trace} (htrace : i.trace? = some trace) {address : Address}
    (h : address = trace.message.sender ∨ address = trace.message.receiver) :
    address ∈ (p.share session logs i).asked := by
  have hdepth : 0 < p.config.maxDepth.toNat := Config.maxDepth_pos_of_validate hc
  have hfirst : p.walker.asked
      (p.walker.visitOf (scopeOf session logs i) 0 session.tipsetCid 0 trace) =
        [trace.message.sender, trace.message.receiver] := by
    simp [Walker.asked, Walker.visitOf, walker, hresolve, Nat.not_le_of_lt hdepth]
  simp only [share, visits, htrace, Walker.itinerary_eq, List.flatMap_cons, hfirst]
  exact List.mem_append_left _ (List.mem_pair.mpr h)

/-- After any history that left nothing behind at its tipset, a session asks for each address at
most once for the form that it lacks. For the code of an actor it asks once by each address that
stands for the actor. -/
theorem session_asks_by_address {b : ParserBuilder} {p : TraceParser} {fresh : ResolverState}
    (hb : b.build = .ok (p, fresh)) (history : List Episode) (session : ParseSession)
    (hempty : ∀ entry ∈ (p.runHistory history fresh).cache, entry.1.2 ≠ session.tipset.key)
    (logs : EthLogs) (messages : List Invocation) :
    ∃ put, (p.parseMessages session logs messages (p.runHistory history fresh)).2.queries =
        put ++ (p.runHistory history fresh).queries ∧
      p.QuestionsPut session logs messages put := by
  obtain ⟨hc, hfresh⟩ := of_build_eq_ok hb
  have hs := sound_runHistory hc history (Resolver.sound_of_cache_eq_nil p.resolver hfresh)
  exact parseMessages_asks hc session logs messages hs hempty

/-- A session behind another one at its tipset that was dropped. -/
theorem session_asks_by_address_after_dropped :
    ParserBuilder.build { node := accountNode, actors := some .empty } =
        .ok (accountParser, .empty) ∧
      ∃ session, TraceParser.session (tipsetOf 1) = .ok session ∧
        let before := accountParser.runHistory
          [.session (tipsetOf 1) .empty [.message selfInvocation]] .empty
        (∀ entry ∈ before.cache, entry.1.2 ≠ session.tipset.key) ∧
        ∃ put, (accountParser.parseMessages session .empty [selfInvocation] before).2.queries =
            put ++ before.queries ∧
          accountParser.QuestionsPut session .empty [selfInvocation] put := by
  have hbuild : ParserBuilder.build { node := accountNode, actors := some .empty } =
      .ok (accountParser, .empty) := rfl
  refine ⟨hbuild, _, rfl, ?_⟩
  have hempty : ∀ entry ∈ (accountParser.runHistory
      [.session (tipsetOf 1) .empty [.message selfInvocation]] .empty).cache,
      entry.1.2 ≠ (tipsetOf 1).key := fun _ => ResolverState.tipset_ne_of_mem_clear
  exact ⟨hempty, session_asks_by_address hbuild _ _ hempty .empty [selfInvocation]⟩

/-- In one session that begins without anything known, the code of an account with two addresses
is asked for by its number twice. -/
theorem session_asks_for_code_twice :
    ∃ session, TraceParser.session (tipsetOf 1) = .ok session ∧
      2 ≤ (accountParser.parseMessages session .empty [selfInvocation] .empty).2.queries.count
        (.code (.id 1001) (tipsetOf 1).key) := by
  have hk : (tipsetOf 1).key.cids ≠ [] := List.cons_ne_nil _ _
  obtain ⟨cid, -, hsession⟩ := session_eq_ok_of_ne_nil hk
  refine ⟨⟨tipsetOf 1, cid, .empty⟩, hsession, ?_⟩
  have hs : accountParser.resolver.Sound .empty := sound_of_cache_eq_nil _ rfl
  obtain ⟨put, hput, hasks⟩ := parseMessages_asks (p := accountParser) rfl
    ⟨tipsetOf 1, cid, .empty⟩ .empty [selfInvocation] hs (List.forall_mem_nil _)
  have hasked {address : Address} (h : address = robustAddress ∨ address = .id 1001) :
      address ∈ (accountParser.shares ⟨tipsetOf 1, cid, .empty⟩ .empty [selfInvocation]).asked :=
    List.mem_append_left _ (mem_asked_of_trace? rfl rfl _ .empty rfl h)
  have htwice : 2 ≤ put.count (.code (.id 1001) (tipsetOf 1).key) :=
    hasks.two_le_count_code (hasked (.inl rfl)) (hasked (.inr rfl)) Address.noConfusion rfl rfl
  rw [hput, List.count_append]
  exact Nat.le_add_right_of_le htwice

end TraceParser
end TraceLedger
