import PjCloud.Lib.Machine
import PjCloud.Lib.Numbered
import PjCloud.Lib.Runtime
import PjCloud.Lib.Lists
import PjCloud.Lib.Fallible
import PjCloud.Lib.Firsts
import PjCloud.Lib.Wire
import PjCloud.Format.Records
import PjCloud.Format.Chunks
import PjCloud.Session.Retain
import PjCloud.Session.Registry
import PjCloud.Session.State
import PjCloud.Session.Step
import PjCloud.Session.Inversion
import PjCloud.Session.Frame
import PjCloud.Session.Eviction
import PjCloud.Session.Teardown
import PjCloud.Session.Terminal
import PjCloud.Session.Failure
import PjCloud.Session.Stream
import PjCloud.Session.Replay
import PjCloud.Session.Channel
import PjCloud.Session.Counters
import PjCloud.Download.System
import PjCloud.Download.Inversion
import PjCloud.Download.Wiring
import PjCloud.Download.Flow
import PjCloud.Download.Current
import PjCloud.Download.Delivery
import PjCloud.Download.Complete
import PjCloud.Download.Backpressure
import PjCloud.Planning.Build
import PjCloud.Planning.Open
import PjCloud.Planning.Producer
import PjCloud.Planning.Stream
import PjCloud.Planning.Recording
import PjCloud.Planning.Tape
import PjCloud.Planning.Window
import PjCloud.Planning.Seed
import PjCloud.Planning.SeedPhase
import PjCloud.Planning.Latched
import PjCloud.Planning.Sources
import PjCloud.Planning.Batches
import PjCloud.Planning.OpenFresh
import PjCloud.Planning.Bindings
import PjCloud.Planning.Schemas
import PjCloud.Client.Decode
import PjCloud.Client.RoundTrip
import PjCloud.Intake.Translate
import PjCloud.Intake.State
import PjCloud.Intake.Step
import PjCloud.Intake.Inversion
import PjCloud.Intake.Books
import PjCloud.Intake.Gate
import PjCloud.Intake.Drain
import PjCloud.Intake.Ack
import PjCloud.Intake.Audits
import PjCloud.Lib.Effect
import PjCloud.Lib.Dictionary
import PjCloud.Builder.Keys
import PjCloud.Builder.Tables
import PjCloud.Builder.World
import PjCloud.Builder.Sound
import PjCloud.Store.Leases
import PjCloud.Store.Inversion
import PjCloud.Store.Counting
import PjCloud.Store.Generations
import PjCloud.Rpc.Envelope
import PjCloud.Builder.Catalog
import PjCloud.Builder.Names
import PjCloud.Builder.Rows
import PjCloud.Builder.History
import PjCloud.Builder.Objects
import PjCloud.Lib.Keyset
import PjCloud.Reader.Counts
import PjCloud.Reader.Filter
import PjCloud.Reader.Keys
import PjCloud.Reader.Cursor
import PjCloud.Reader.Listing
import PjCloud.Reader.Topics
import PjCloud.Reader.Blobs
import PjCloud.Browse.Sweep
import PjCloud.Browse.Gate
import PjCloud.Publish.Protocol
import PjCloud.Publish.Swap
import PjCloud.Publish.Edits
import PjCloud.Lib.Ascii
import PjCloud.Lib.Json
import PjCloud.Descriptor.Codec
import PjCloud.Descriptor.RoundTrip
import PjCloud.Trust.Origins
import PjCloud.Trust.Credentials
import PjCloud.Trust.Secrets
import PjCloud.Lib.Versions
import PjCloud.Trust.Ledger
import PjCloud.Export.Reserve
import PjCloud.Pull.Driver
import PjCloud.Pull.Tee
import PjCloud.Pull.Run
import PjCloud.Pull.Publication
import PjCloud.Pull.Keys
import PjCloud.Pull.Memory
import PjCloud.Pull.Ending
import PjCloud.Pull.Hits
import PjCloud.Lib.Strtod
import PjCloud.Lib.Lua.Lexer
import PjCloud.Lib.Lua.Expression
import PjCloud.Lib.Lua.Numeral
import PjCloud.Query.Token
import PjCloud.Query.Parser
import PjCloud.Query.Grammar
import PjCloud.Query.Meaning
import PjCloud.Query.Quote
import PjCloud.Query.Filter
import PjCloud.Query.Edit
import PjCloud.Planning.Overlap
import PjCloud.Planning.Skipping
import PjCloud.Query.Words
import PjCloud.Planning.Slider
import PjCloud.Format.Estimates
import PjCloud.Lib.Fips180
import PjCloud.Client.Sha256
import PjCloud.Browse.Aggregate
import PjCloud.Session.Blocking
