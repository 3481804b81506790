import TraceLedger.Proofs.Parser.Share

/-! # Sessions among other uses of a parser

While a session is open, and before it was opened, addresses are resolved and forgotten by
others. Histories are lists of such uses; no history leaves anything behind that the node would
not answer again. -/

namespace TraceLedger

open Resolver ResolverState

/-- A use of the resolver from outside of a session. -/
inductive ResolverCall where
  | resolve (address : Address) (tipset : TipsetKey)
  | clear (tipset : TipsetKey)

namespace ResolverCall

/-- The tipset that a call is about. -/
def tipset : ResolverCall → TipsetKey
  | resolve _ tipset => tipset
  | clear tipset => tipset

/-- The state after a call. -/
def run (r : Resolver) : ResolverCall → ResolverState → ResolverState
  | resolve address tipset, s => (r.resolve address tipset s).2
  | clear tipset, s => s.clear tipset

/-- The state after calls in order. -/
def runAll (r : Resolver) (calls : List ResolverCall) (s : ResolverState) : ResolverState :=
  calls.foldl (fun s call => call.run r s) s

theorem sound_run {r : Resolver} {s : ResolverState} (hs : r.Sound s) (call : ResolverCall) :
    r.Sound (call.run r s) := by
  cases call with
  | resolve address tipset => exact hs.resolve address tipset
  | clear tipset => exact hs.clear tipset

/-- A call does not show at other tipsets than its own. -/
theorem agreeAt_run (r : Resolver) (call : ResolverCall) {tipset : TipsetKey}
    (h : call.tipset ≠ tipset) (s : ResolverState) : AgreeAt tipset (call.run r s) s := by
  intro address
  cases call with
  | resolve asked other => exact find?_resolve_of_ne r address asked h.symm s
  | clear other => exact find?_clear_of_ne s address h.symm

theorem agreeBeside_run {r : Resolver} {tipset : TipsetKey} {s t : ResolverState}
    (h : AgreeBeside tipset s t) (call : ResolverCall) :
    AgreeBeside tipset (call.run r s) (call.run r t) := by
  cases call with
  | resolve address other => exact resolve_agreeBeside h address other
  | clear other => exact h.clear other

end ResolverCall

/-- What happens while a session is open: one of its messages is parsed, or the resolver is used
by others. -/
inductive SessionStep where
  | message (i : Invocation)
  | call (call : ResolverCall)

namespace SessionStep

/-- The messages among steps, in order. -/
def messages : List SessionStep → List Invocation
  | [] => []
  | message i :: rest => i :: messages rest
  | call _ :: rest => messages rest

/-- The uses by others among steps, in order. -/
def calls : List SessionStep → List ResolverCall
  | [] => []
  | message _ :: rest => calls rest
  | call c :: rest => c :: calls rest

end SessionStep

/-- Something that was done with a parser. -/
inductive Episode where
  | call (call : ResolverCall)
  /-- A session was asked for; if it was begun, it went through some steps and was then finished
  or dropped. -/
  | session (tipset : Tipset) (logs : EthLogs) (steps : List SessionStep)
  /-- A payload was parsed, or refused. -/
  | payload (bytes : List UInt8) (tipset : Tipset) (logs : EthLogs)

namespace TraceParser

open SessionStep

/-- Goes through the steps of a session. -/
def runSteps (p : TraceParser) (logs : EthLogs) :
    List SessionStep → ParseSession → ResolverState → ParseSession × ResolverState
  | [], session, s => (session, s)
  | .message i :: rest, session, s =>
    let (session, s) := p.parseMessage session logs i s
    p.runSteps logs rest session s
  | .call c :: rest, session, s => p.runSteps logs rest session (c.run p.resolver s)

/-- The state of the resolver after an episode. -/
def runEpisode (p : TraceParser) : Episode → ResolverState → ResolverState
  | .call c, s => c.run p.resolver s
  | .session tipset logs steps, s =>
    match session tipset with
    | .error _ => s
    | .ok session =>
      let (session, s) := p.runSteps logs steps session s
      close session s
  | .payload bytes tipset logs, s => (p.parsePayload bytes tipset logs s).2

/-- The state of the resolver after a history. -/
def runHistory (p : TraceParser) (history : List Episode) (s : ResolverState) : ResolverState :=
  history.foldl (fun s episode => p.runEpisode episode s) s

/-! ## Histories are sound -/

theorem sound_runSteps {p : TraceParser} (hc : p.config.validate = .ok ()) (logs : EthLogs)
    (steps : List SessionStep) (session : ParseSession) {s : ResolverState}
    (hs : p.resolver.Sound s) : p.resolver.Sound (p.runSteps logs steps session s).2 := by
  induction steps generalizing session s with
  | nil => exact hs
  | cons step rest ih =>
      cases step with
      | message i =>
          simp only [runSteps, parseMessage_eq hc session logs i hs]
          exact ih _ (sound_absorb p _ session hs)
      | call c => exact ih session (c.sound_run hs)

theorem sound_parse {p : TraceParser} (hc : p.config.validate = .ok ()) (output : StateOutput)
    (tipset : Tipset) (logs : EthLogs) {s : ResolverState} (hs : p.resolver.Sound s) :
    p.resolver.Sound (p.parse output tipset logs s).2 := by
  cases hsession : session tipset with
  | error e => simpa [parse, hsession] using hs
  | ok session =>
      rw [parse_eq hc hsession output logs hs]
      exact (sound_absorb p _ session hs).clear tipset.key

theorem sound_runEpisode {p : TraceParser} (hc : p.config.validate = .ok ()) (episode : Episode)
    {s : ResolverState} (hs : p.resolver.Sound s) :
    p.resolver.Sound (p.runEpisode episode s) := by
  cases episode with
  | call c => exact c.sound_run hs
  | session tipset logs steps =>
      cases hsession : TraceParser.session tipset with
      | error e => simpa [runEpisode, hsession] using hs
      | ok session =>
          simp only [runEpisode, hsession]
          exact (sound_runSteps hc logs steps session hs).clear _
  | payload bytes tipset logs =>
      simp only [runEpisode, parsePayload]
      split
      · exact hs
      · exact sound_parse hc _ tipset logs hs

theorem sound_runHistory {p : TraceParser} (hc : p.config.validate = .ok ())
    (history : List Episode) {s : ResolverState} (hs : p.resolver.Sound s) :
    p.resolver.Sound (p.runHistory history s) := by
  induction history generalizing s with
  | nil => exact hs
  | cons episode rest ih => exact ih (sound_runEpisode hc episode hs)

/-- What a builder builds has an accepted configuration and knows nothing yet. -/
theorem of_build_eq_ok {b : ParserBuilder} {p : TraceParser} {s : ResolverState}
    (h : b.build = .ok (p, s)) : p.config.validate = .ok () ∧ s.cache = [] := by
  unfold ParserBuilder.build at h
  split at h
  · cases h
  next hvalid =>
    cases h
    exact ⟨hvalid, rfl⟩

/-! ## Steps of others do not show -/

/-- Whatever others do meanwhile, the messages of a session add their shares; only which lookups
failed may differ. -/
theorem runSteps_ledger {p : TraceParser} (hc : p.config.validate = .ok ()) (logs : EthLogs)
    (steps : List SessionStep) (session : ParseSession) {s : ResolverState}
    (hs : p.resolver.Sound s) :
    ∃ failures, (p.runSteps logs steps session s).1 = { session with
      ledger := (p.shares session logs (messages steps)).addTo failures session.ledger } := by
  induction steps generalizing session s with
  | nil => exact ⟨[], by simp [runSteps, messages, shares, Share.empty, Share.addTo]⟩
  | cons step rest ih =>
      cases step with
      | call c => exact ih session (c.sound_run hs)
      | message i =>
          obtain ⟨failures, hrest⟩ := ih (p.absorb (p.share session logs i) session s).1
            (sound_absorb p (p.share session logs i) session hs)
          refine ⟨(p.resolver.resolveAll session.tipset.key
            (p.share session logs i).asked s).1 ++ failures, ?_⟩
          simp only [runSteps, parseMessage_eq hc session logs i hs]
          rw [hrest, shares_absorb]
          simp [absorb, messages, shares, Share.append_def, Share.addTo, List.append_assoc]

/-- Where others are busy with other tipsets only, a session ends as if it had been alone, on a
resolver that knew the same of its tipset. -/
theorem runSteps_agreeAt {p : TraceParser} (hc : p.config.validate = .ok ()) (logs : EthLogs)
    {steps : List SessionStep} {session : ParseSession} {s t : ResolverState}
    (hs : p.resolver.Sound s) (ht : p.resolver.Sound t)
    (hcalls : ∀ c ∈ calls steps, c.tipset ≠ session.tipset.key)
    (h : AgreeAt session.tipset.key s t) :
    (p.runSteps logs steps session s).1 =
      (p.parseMessages session logs (messages steps) t).1 := by
  induction steps generalizing session s t with
  | nil => rfl
  | cons step rest ih =>
      cases step with
      | call c =>
          have hagree := c.agreeAt_run p.resolver (hcalls c (List.mem_cons_self)) s
          exact ih (c.sound_run hs) ht (fun c hc => hcalls c (List.mem_cons_of_mem _ hc))
            fun address => (hagree address).trans (h address)
      | message i =>
          obtain ⟨hfailures, hafter⟩ := resolveAll_agreeAt (r := p.resolver) h
            (p.share session logs i).asked
          have hsame : (p.absorb (p.share session logs i) session s).1 =
              (p.absorb (p.share session logs i) session t).1 := by
            simp only [absorb, hfailures]
          simp only [runSteps, messages, parseMessages, parseMessage_eq hc session logs i hs,
            parseMessage_eq hc session logs i ht, ← hsame]
          exact ih (sound_absorb p _ session hs) (sound_absorb p _ session ht) hcalls hafter

/-- At all tipsets but its own, a session leaves what others left. -/
theorem runSteps_agreeBeside {p : TraceParser} (hc : p.config.validate = .ok ())
    (logs : EthLogs) (steps : List SessionStep) (session : ParseSession) {s t : ResolverState}
    (hs : p.resolver.Sound s) (h : AgreeBeside session.tipset.key s t) :
    AgreeBeside session.tipset.key (p.runSteps logs steps session s).2
      (ResolverCall.runAll p.resolver (calls steps) t) := by
  induction steps generalizing session s t with
  | nil => exact h
  | cons step rest ih =>
      cases step with
      | call c => exact ih session (c.sound_run hs) (c.agreeBeside_run h)
      | message i =>
          simp only [runSteps, parseMessage_eq hc session logs i hs]
          exact ih _ (sound_absorb p _ session hs)
            ((resolveAll_agreeBeside_self p.resolver session.tipset.key _ s).trans h)

end TraceParser
end TraceLedger
