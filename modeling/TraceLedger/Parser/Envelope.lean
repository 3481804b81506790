import TraceLedger.Cbor.Lenient
import TraceLedger.Json.Reader
import TraceLedger.Trace.Output

/-! # Payloads

The output of a compute-state call comes as JSON or as CBOR. -/

namespace TraceLedger

/-- The two forms of a payload. -/
inductive PayloadFormat where
  | json
  | cbor
deriving DecidableEq

namespace PayloadFormat

def name : PayloadFormat → String
  | json => "json"
  | cbor => "cbor"

/-- Space, tab, line feed, form feed and carriage return. -/
def isBlank (b : UInt8) : Bool := b = 0x20 || b = 0x09 || b = 0x0a || b = 0x0c || b = 0x0d

/-- A payload whose first byte behind blanks opens an object is JSON. -/
def detect (payload : List UInt8) : PayloadFormat :=
  match payload.dropWhile isBlank with
  | 0x7b :: _ => json
  | _ => cbor

end PayloadFormat

namespace StateOutput

/-- Reads a payload. -/
def ofPayload (payload : List UInt8) : Except Error StateOutput :=
  if payload.isEmpty then .error (.envelope .empty)
  else match PayloadFormat.detect payload with
    | .json =>
      match (Json.Doc.ofBytes? payload).bind Json.Doc.read? with
      | some output => .ok output
      | none => .error (.envelope .json)
    | .cbor =>
      match Cbor.Lenient.read? payload with
      | some output => .ok output
      | none => .error (.envelope .cbor)

end StateOutput
end TraceLedger
