import TraceLedger.Parser.Envelope
import TraceLedger.Walk.Fee

/-! # Parsing tipsets

A parser turns the output of a compute-state call into records, message by message. While a
tipset is being parsed, what is learnt of addresses is kept; when it is done, it is
forgotten. -/

namespace TraceLedger

/-- A configured parser. Its state is that of its resolver. -/
structure TraceParser where
  config : Config
  registry : VersionRegistry
  codecActors : ActorRegistry
  actors : ActorRegistry
  node : Node

/-- A tipset in the middle of being parsed. -/
structure ParseSession where
  tipset : Tipset
  tipsetCid : String
  ledger : Ledger

namespace TraceParser

def resolver (p : TraceParser) : Resolver := ⟨p.node, p.config.network, p.actors⟩

def walker (p : TraceParser) : Walker where
  config := p.config
  registry := p.registry
  codecActors := p.codecActors
  actors := p.actors
  resolver := p.resolver

/-- Begins a tipset. Fails if the tipset has no identifier. -/
def session (tipset : Tipset) : Except Error ParseSession :=
  match tipset.cidText with
  | .ok cid => .ok ⟨tipset, cid, .empty⟩
  | .error e => .error e

/-- The message that an invocation is about. -/
def scopeOf (session : ParseSession) (logs : EthLogs) (i : Invocation) : Scope where
  tipset := session.tipset
  tipsetCid := session.tipsetCid
  blockCid := match session.tipset.blockOf? i.messageCid with
    | some block => block.cid.toText
    | none => ""
  messageCid := i.messageCid.toText
  ethLogs := logs

/-- The note on a message of which nothing is known but its link. -/
def untraced (messageCid : String) : SkippedCall where
  txHash := messageCid
  level := 0
  receiver := ""
  method := 0
  calls := 0
  reason := "no execution trace"

/-- Adds the calls of a message. -/
def addCalls (p : TraceParser) (session : ParseSession) (scope : Scope) (i : Invocation)
    (s : ResolverState) : Ledger × ResolverState :=
  match i.trace? with
  | some trace => (p.walker.walk scope session.tipsetCid trace session.ledger s).2
  | none => ({ session.ledger with
      skipped := session.ledger.skipped ++ [untraced scope.messageCid] }, s)

/-- The record of the fee of a message. -/
def feeOf (p : TraceParser) (session : ParseSession) (scope : Scope) (i : Invocation) :
    Option Transaction :=
  let miner := (session.tipset.blockOf? i.messageCid).map Block.miner
  Fee.transaction? p.config.network scope session.tipsetCid miner i

/-- Adds the calls of a message, and then its fee. -/
def parseMessage (p : TraceParser) (session : ParseSession) (logs : EthLogs) (i : Invocation)
    (s : ResolverState) : ParseSession × ResolverState :=
  let scope := scopeOf session logs i
  let (ledger, s) := p.addCalls session scope i s
  ({ session with ledger := { ledger with
      transactions := ledger.transactions ++ (p.feeOf session scope i).toList } }, s)

/-- Adds messages in order. -/
def parseMessages (p : TraceParser) (session : ParseSession) (logs : EthLogs) :
    List Invocation → ResolverState → ParseSession × ResolverState
  | [], s => (session, s)
  | i :: rest, s =>
    let (session, s) := p.parseMessage session logs i s
    parseMessages p session logs rest s

/-- Ends a tipset, whether or not its records are wanted. -/
def close (session : ParseSession) (s : ResolverState) : ResolverState :=
  s.clear session.tipset.key

/-- Parses every message of an output. -/
def parse (p : TraceParser) (output : StateOutput) (tipset : Tipset) (logs : EthLogs)
    (s : ResolverState) : Except Error Ledger × ResolverState :=
  match session tipset with
  | .error e => (.error e, s)
  | .ok session =>
    let (session, s) := p.parseMessages session logs output.invocations s
    (.ok session.ledger, close session s)

/-- Reads a payload and parses it. -/
def parsePayload (p : TraceParser) (payload : List UInt8) (tipset : Tipset) (logs : EthLogs)
    (s : ResolverState) : Except Error Ledger × ResolverState :=
  match StateOutput.ofPayload payload with
  | .error e => (.error e, s)
  | .ok output => p.parse output tipset logs s

end TraceParser
end TraceLedger
