import GuestHost.Compiler.Foreign
import GuestHost.Main
import GuestHost.Session.Group
import GuestHost.Proofs.Machine.Acts
import GuestHost.Proofs.Machine.Lasting
import GuestHost.Proofs.Session.Guest
import GuestHost.Proofs.Compiler.Transcripts
import GuestHost.Proofs.Machine.Allocation
import GuestHost.Proofs.Session.Consultations
import GuestHost.Proofs.Session.Accounts
import GuestHost.Proofs.Machine.FailedLoads
import GuestHost.Proofs.Session.FailedLoads
import GuestHost.Proofs.Machine.Segments
import GuestHost.Proofs.Support.Place
import GuestHost.Proofs.Support.Work
import GuestHost.Proofs.Support.Execution
import GuestHost.Proofs.Support.Functions
import GuestHost.Proofs.Machine.Bytes
import GuestHost.Proofs.Support.Allocation
import GuestHost.Proofs.Support.Reading
import GuestHost.Proofs.Support.Strings
import GuestHost.Proofs.Support.Calls
import GuestHost.Proofs.Support.Linked
import GuestHost.Proofs.Support.Blocks
import GuestHost.Proofs.Support.Heap
import GuestHost.Proofs.Handles
import GuestHost.Proofs.Support.Refinement
import GuestHost.Proofs.Support.History
import GuestHost.Proofs.Utf8
import GuestHost.Proofs.Support.Standing
import GuestHost.Proofs.Session.Shared
import GuestHost.Proofs.Session.Layout
import GuestHost.Proofs.Session.Crossing
import GuestHost.Proofs.Session.Packing
import GuestHost.Proofs.Session.Unpacking
import GuestHost.Proofs.Session.RoundTrip
import GuestHost.Proofs.Ledger
import GuestHost.Proofs.Registry
import GuestHost.Proofs.Wasm.Nesting
import GuestHost.Proofs.Machine.Growth
import GuestHost.Proofs.Machine.Resolution
import GuestHost.Proofs.Session.Linking
import GuestHost.Proofs.Session.Imports
import GuestHost.Proofs.Machine.Blindness
import GuestHost.Proofs.Session.Carrying
import GuestHost.Proofs.Session.Refusals
import GuestHost.Proofs.Machine.Abstinence
import GuestHost.Proofs.Support.Copying
import GuestHost.Proofs.Session.Tidying
import GuestHost.Proofs.Session.Leftovers
import GuestHost.Proofs.Machine.Causes
import GuestHost.Proofs.Machine.Turns
import GuestHost.Proofs.Machine.Dealings
import GuestHost.Proofs.Session.Tallies
import GuestHost.Proofs.Machine.Separation
import GuestHost.Proofs.Machine.Orders
import GuestHost.Proofs.Session.NestedLoads
import GuestHost.Proofs.Machine.Endings
import GuestHost.Proofs.Session.Verdicts
import GuestHost.Proofs.Session.Steadiness
import GuestHost.Proofs.Session.Raising
import GuestHost.Proofs.Session.Isolation
import GuestHost.Proofs.Number.Ranges
import GuestHost.Proofs.Capability.Uses
import GuestHost.Proofs.Capability.Conversions
import GuestHost.Proofs.Compiler.Foreign
import GuestHost.Proofs.Support.Requests
import GuestHost.Proofs.Support.Fullness
import GuestHost.Proofs.Support.Decoding
import GuestHost.Proofs.Session.Decoding
import GuestHost.Proofs.Session.Elements
import GuestHost.Proofs.Number.RoundTrip
import GuestHost.Proofs.Number.Nearest
import GuestHost.Proofs.Number.Grammar
import GuestHost.Proofs.Number.Recognition
import GuestHost.Proofs.Number.Integers
import GuestHost.Proofs.Number.Digitwise
import GuestHost.Proofs.Reissue
import GuestHost.Proofs.Registry.Overrides
import GuestHost.Proofs.Capability.Tables
import GuestHost.Proofs.Compiler.Numbering
import GuestHost.Proofs.Number.Printing
import GuestHost.Proofs.CommandLine.Arguments
import GuestHost.Proofs.CommandLine.Results
