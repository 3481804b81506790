import TraceLedger.Node.InMemory
import TraceLedger.Proofs.Parser.History

/-! # Sessions and what is kept of addresses

What a resolver keeps saves questions to the node, and nothing else: a session comes to the same
whatever was done with the parser before and whatever is done with its resolver meanwhile. -/

namespace TraceLedger

namespace TraceParser

open SessionStep

/-- A session amid other uses of the resolver comes to what a parse by itself comes to, and
leaves what those uses leave. -/
structure Transparent (p : TraceParser) (logs : EthLogs) (steps : List SessionStep)
    (session : ParseSession) (before : ResolverState) (alone : Ledger) : Prop where
  transactions : (p.runSteps logs steps session before).1.ledger.transactions = alone.transactions
  addresses : (p.runSteps logs steps session before).1.ledger.addresses = alone.addresses
  skipped : (p.runSteps logs steps session before).1.ledger.skipped = alone.skipped
  /-- Failures are told again only by a resolver that has not kept the address. -/
  failures : (∀ entry ∈ before.cache, entry.1.2 ≠ session.tipset.key) →
    (∀ c ∈ calls steps, c.tipset ≠ session.tipset.key) →
    (p.runSteps logs steps session before).1.ledger.failures = alone.failures
  forgotten : ∀ entry ∈ (close session (p.runSteps logs steps session before).2).cache,
    entry.1.2 ≠ session.tipset.key
  elsewhere : (close session (p.runSteps logs steps session before).2).cache =
    (ResolverCall.runAll p.resolver (calls steps) before).cache.filter
      fun entry => entry.1.2 ≠ session.tipset.key

theorem transparent_of_sound {p : TraceParser} (hc : p.config.validate = .ok ())
    {tipset : Tipset} {session : ParseSession}
    (hsession : TraceParser.session tipset = .ok session) (logs : EthLogs)
    (steps : List SessionStep) {before fresh : ResolverState} (hs : p.resolver.Sound before)
    (hfresh : fresh.cache = []) (root : Option Cid) :
    ∃ alone, (p.parse ⟨root, messages steps⟩ tipset logs fresh).1 = .ok alone ∧
      p.Transparent logs steps session before alone := by
  have hsound := Resolver.sound_of_cache_eq_nil p.resolver hfresh
  obtain ⟨failures, hsteps⟩ := runSteps_ledger hc logs steps session hs
  refine ⟨_, by rw [parse_eq hc hsession ⟨root, messages steps⟩ logs hsound], ?_⟩
  refine ⟨by rw [hsteps]; rfl, by rw [hsteps]; rfl, by rw [hsteps]; rfl, ?_, ?_, ?_⟩
  · intro hempty hcalls
    have hagree : ResolverState.AgreeAt session.tipset.key before fresh := by
      intro address
      rw [ResolverState.find?_eq_none_of_ne hempty address]
      simp [ResolverState.find?, hfresh]
    rw [runSteps_agreeAt hc logs hs hsound hcalls hagree,
      parseMessages_eq hc session logs (messages steps) hsound]
  · intro entry hentry
    exact ResolverState.tipset_ne_of_mem_clear hentry
  · exact runSteps_agreeBeside hc logs steps session hs rfl

/-- A session is transparent after any history of the parser, and amid any other uses of its
resolver. -/
theorem session_transparent {b : ParserBuilder} {p : TraceParser} {fresh : ResolverState}
    (hb : b.build = .ok (p, fresh)) (history : List Episode) {tipset : Tipset}
    (hk : tipset.key.cids ≠ []) (logs : EthLogs) (steps : List SessionStep)
    (root : Option Cid) :
    ∃ session alone, TraceParser.session tipset = .ok session ∧
      (p.parse ⟨root, messages steps⟩ tipset logs fresh).1 = .ok alone ∧
      p.Transparent logs steps session (p.runHistory history fresh) alone := by
  obtain ⟨hc, hfresh⟩ := of_build_eq_ok hb
  obtain ⟨cid, -, hsession⟩ := session_eq_ok_of_ne_nil hk
  have hs := sound_runHistory hc history (Resolver.sound_of_cache_eq_nil p.resolver hfresh)
  obtain ⟨alone, hparse, htransparent⟩ :=
    transparent_of_sound hc hsession logs steps hs hfresh root
  exact ⟨_, alone, hsession, hparse, htransparent⟩

/-- A builder whose node knows nothing. -/
def plainBuilder : ParserBuilder where
  node := InMemoryNode.empty.toNode
  actors := some .empty

/-- A hash of no bytes is short enough. -/
theorem length_nil_le : ([] : List UInt8).length ≤ 64 := by decide

/-- A tipset of one block. -/
def tipsetOf (code : UInt64) : Tipset :=
  ⟨⟨[.v1 Cid.raw ⟨code, [], by decide⟩]⟩, 0, 0, default, []⟩

/-- A message that only its link is known of. -/
def bareInvocation : Invocation := ⟨.v1 Cid.raw ⟨0, [], by decide⟩, none, none, none, none, "", 0⟩

/-- An address that stands for an actor by what it was created from. -/
def robustAddress : Address := .actor ⟨List.replicate 20 1, by decide⟩

/-- A node that knows one account by its two addresses. -/
def accountNode : Node := (InMemoryNode.empty.addActor 1001 (some robustAddress) .account).toNode

/-- The parser that is built for that node. -/
def accountParser : TraceParser := ⟨.standard, .standard, .empty, .empty, accountNode⟩

/-- A message from the account to itself, which is named by both of its addresses. -/
def selfInvocation : Invocation := { bareInvocation with
  recorded := some ⟨⟨robustAddress, .id 1001, 0, 0, [], 0, none, none⟩, none, none, [], none⟩ }

/-- What is done while the account's messages are parsed: one of its addresses is resolved at their
tipset before the first of them, and the other one before the second. -/
def accountSteps : List SessionStep :=
  [.call (.resolve (.id 1001) (tipsetOf 1).key), .message selfInvocation,
    .call (.clear (tipsetOf 2).key), .call (.resolve robustAddress (tipsetOf 1).key),
    .message selfInvocation]

/-- What was done before: a session at the same tipset was dropped, and the account was resolved
at another one. -/
def accountHistory : List Episode :=
  [.session (tipsetOf 1) .empty [.message selfInvocation],
    .call (.resolve (.id 1001) (tipsetOf 2).key)]

/-- A session whose addresses are resolved by others too, after a session that was dropped. Of the
twelve questions of its six lookups it puts four; the others are answered by what is kept. -/
theorem session_transparent_after_dropped :
    ParserBuilder.build { node := accountNode, actors := some .empty } =
        .ok (accountParser, .empty) ∧ (tipsetOf 1).key.cids ≠ [] ∧
      ∃ session alone, TraceParser.session (tipsetOf 1) = .ok session ∧
        let before := accountParser.runHistory accountHistory .empty
        (accountParser.parse ⟨none, [selfInvocation, selfInvocation]⟩ (tipsetOf 1) .empty
          .empty).1 = .ok alone ∧
        accountParser.Transparent .empty accountSteps session before alone ∧
        (accountParser.runSteps .empty accountSteps session before).2.queries.length =
          before.queries.length + 4 := by
  have hbuild : ParserBuilder.build { node := accountNode, actors := some .empty } =
      .ok (accountParser, .empty) := rfl
  have hk : (tipsetOf 1).key.cids ≠ [] := List.cons_ne_nil _ _
  obtain ⟨session, alone, hsession, hparse, htransparent⟩ :=
    session_transparent hbuild accountHistory hk .empty accountSteps none
  refine ⟨hbuild, hk, session, alone, hsession, hparse, htransparent, ?_⟩
  cases hsession
  decide +kernel

end TraceParser
end TraceLedger
