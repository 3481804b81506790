import TraceLedger.Actor.Kind
import TraceLedger.Actor.Registry
import TraceLedger.Address.Basic
import TraceLedger.Address.Text
import TraceLedger.AddressBook
import TraceLedger.AddressInfo
import TraceLedger.Call.Basic
import TraceLedger.Call.Chain
import TraceLedger.Call.Contracts
import TraceLedger.Call.Creation
import TraceLedger.Call.Datacap
import TraceLedger.Call.Decode
import TraceLedger.Call.Filling
import TraceLedger.Call.Storage
import TraceLedger.Call.Wallets
import TraceLedger.Cbor.Dag
import TraceLedger.Cbor.Head
import TraceLedger.Cbor.Ipld
import TraceLedger.Cbor.Item
import TraceLedger.Cbor.Lenient
import TraceLedger.Cbor.Typed
import TraceLedger.Cid
import TraceLedger.Config
import TraceLedger.Decimal.Binary64
import TraceLedger.Decimal.Shortest
import TraceLedger.Decimal.Word
import TraceLedger.Error
import TraceLedger.EthLog
import TraceLedger.ExitStatus
import TraceLedger.Hash.Blake2b
import TraceLedger.Hash.Content
import TraceLedger.Json.Basic
import TraceLedger.Json.Doc
import TraceLedger.Json.Numeral
import TraceLedger.Json.Printer
import TraceLedger.Json.Reader
import TraceLedger.Method.Definition
import TraceLedger.Method.Frc42
import TraceLedger.Method.Name
import TraceLedger.Method.Table
import TraceLedger.Network
import TraceLedger.Node.Basic
import TraceLedger.Node.InMemory
import TraceLedger.Node.Resolver
import TraceLedger.Parser.Basic
import TraceLedger.Parser.Builder
import TraceLedger.Parser.Envelope
import TraceLedger.Proofs.AddressBook.Contents
import TraceLedger.Proofs.AddressBook.Merging
import TraceLedger.Proofs.Call.Contracts
import TraceLedger.Proofs.Call.Metadata
import TraceLedger.Proofs.Call.Sides
import TraceLedger.Proofs.Cbor.ByteStrings
import TraceLedger.Proofs.Cbor.Heads
import TraceLedger.Proofs.Cbor.Items
import TraceLedger.Proofs.Cbor.Records
import TraceLedger.Proofs.Decimal.Rounding
import TraceLedger.Proofs.Decimal.Shortest
import TraceLedger.Proofs.Json.Fractions
import TraceLedger.Proofs.Json.Numerals
import TraceLedger.Proofs.Json.ReadBack
import TraceLedger.Proofs.Json.Texts
import TraceLedger.Proofs.Method.Names
import TraceLedger.Proofs.Parser.Composition
import TraceLedger.Proofs.Parser.Failures
import TraceLedger.Proofs.Parser.History
import TraceLedger.Proofs.Parser.Identity
import TraceLedger.Proofs.Parser.Payload
import TraceLedger.Proofs.Parser.Questions
import TraceLedger.Proofs.Parser.Share
import TraceLedger.Proofs.Parser.Transparency
import TraceLedger.Proofs.Resolver.Agreement
import TraceLedger.Proofs.Resolver.Questions
import TraceLedger.Proofs.Resolver.Runs
import TraceLedger.Proofs.Schema.Words
import TraceLedger.Proofs.Text.Digits
import TraceLedger.Proofs.Text.Positional
import TraceLedger.Proofs.Trace.Calls
import TraceLedger.Proofs.Trace.Reading
import TraceLedger.Proofs.Version.Schedule
import TraceLedger.Proofs.Walk.Accounting
import TraceLedger.Proofs.Walk.Independence
import TraceLedger.Proofs.Walk.Itinerary
import TraceLedger.Proofs.Walk.Journey
import TraceLedger.Proofs.Walk.Legibility
import TraceLedger.Proofs.Walk.Logs
import TraceLedger.Proofs.Walk.Placement
import TraceLedger.Proofs.Walk.Rules
import TraceLedger.Proofs.Walk.Traversal
import TraceLedger.Proofs.Walk.Unschemed
import TraceLedger.Proofs.Wire.Identifiers
import TraceLedger.Proofs.Wire.Numbers
import TraceLedger.Record.Datum
import TraceLedger.Record.Source
import TraceLedger.RecordId
import TraceLedger.Schema.Basic
import TraceLedger.Schema.Chain
import TraceLedger.Schema.Contracts
import TraceLedger.Schema.Datacap
import TraceLedger.Schema.Sides
import TraceLedger.Schema.Storage
import TraceLedger.Schema.Wallets
import TraceLedger.Text.Base32
import TraceLedger.Text.Base64
import TraceLedger.Text.BitDigits
import TraceLedger.Text.Blank
import TraceLedger.Text.Hex
import TraceLedger.Text.Positional
import TraceLedger.Text.Quoted
import TraceLedger.Text.Unprintable
import TraceLedger.Text.Utf8
import TraceLedger.Tipset.Basic
import TraceLedger.Trace.Basic
import TraceLedger.Trace.Listing
import TraceLedger.Trace.Output
import TraceLedger.Transaction
import TraceLedger.Version
import TraceLedger.Walk.Basic
import TraceLedger.Walk.Fee
import TraceLedger.Wire.BigEndian
import TraceLedger.Wire.Octets
import TraceLedger.Wire.SignedMagnitude
import TraceLedger.Wire.Varint
import TraceLedger.Proofs.Walk.Creations
import TraceLedger.Proofs.Wire.Fronts
import TraceLedger.Proofs.Cbor.Extent
import TraceLedger.Proofs.Json.Extent
import TraceLedger.Proofs.Parser.Extent
import TraceLedger.Proofs.Method.Numbers
import TraceLedger.Proofs.Method.Releases
import TraceLedger.Proofs.Method.Tables
import TraceLedger.Proofs.Address.Texts
import TraceLedger.Proofs.Resolver.Forms
import TraceLedger.Proofs.Walk.Reach
import TraceLedger.Proofs.Resolver.Failures
import TraceLedger.Proofs.Walk.Resolution
import TraceLedger.Proofs.Walk.Truncation
import TraceLedger.Proofs.Address.ReadBack
import TraceLedger.Proofs.Cbor.DataModel
import TraceLedger.Proofs.Schema.Layouts
import TraceLedger.Proofs.Call.Typed
import TraceLedger.Proofs.Call.Claims
import TraceLedger.Proofs.Call.Wallets
import TraceLedger.Proofs.Actor.Manifests
import TraceLedger.Proofs.Cbor.Shapes
import TraceLedger.Proofs.Parser.Actors
import TraceLedger.Proofs.Tipset.Keys
import TraceLedger.Proofs.Trace.Listing
import TraceLedger.Proofs.Schema.Readers
import TraceLedger.Proofs.Call.Following
import TraceLedger.Method.Resolver
import TraceLedger.Proofs.Method.Sharing
