import TreeCheck.Context.Event
import TreeCheck.Interner.Pool
import TreeCheck.Invariant
import TreeCheck.Main
import TreeCheck.Proofs.Context.Lexical
import TreeCheck.Proofs.Context.Trail
import TreeCheck.Proofs.Check.Rules
import TreeCheck.Proofs.Check.Hygiene
import TreeCheck.Proofs.Load.Reads
import TreeCheck.Proofs.Load.Complete
import TreeCheck.Proofs.Check.Emitted
import TreeCheck.Proofs.Diagnostic.Bag
import TreeCheck.Proofs.Diagnostic.Key
import TreeCheck.Proofs.Diagnostic.Ledger
import TreeCheck.Proofs.Diagnostic.Tidy
import TreeCheck.Proofs.Session.Said
import TreeCheck.Proofs.Session.Balance
import TreeCheck.Proofs.Session.Verdict
import TreeCheck.Proofs.Command.Verdict
import TreeCheck.Proofs.Context.Layers
import TreeCheck.Proofs.Check.Depth
import TreeCheck.Proofs.Context.Retained
import TreeCheck.Proofs.Load.Checkable
import TreeCheck.Proofs.Text.Normal
import TreeCheck.Proofs.Load.Grammar
import TreeCheck.Proofs.Load.Judges
import TreeCheck.Proofs.Load.Described
import TreeCheck.Proofs.Load.Rules
import TreeCheck.Proofs.Load.Accepts
import TreeCheck.Proofs.Tree.Alike
import TreeCheck.Proofs.Ty.Alike
import TreeCheck.Proofs.Interner.Sound
import TreeCheck.Proofs.Context.Alike
import TreeCheck.Proofs.Diagnostic.Alike
import TreeCheck.Proofs.Load.Coupling
import TreeCheck.Proofs.Load.Coupled
import TreeCheck.Proofs.Load.Plan
import TreeCheck.Proofs.Load.Twin
import TreeCheck.Proofs.Load.Expansion
import TreeCheck.Proofs.Load.Copies
import TreeCheck.Proofs.Load.Histories
import TreeCheck.Proofs.Check.Conform
import TreeCheck.Proofs.Check.Twin
import TreeCheck.Proofs.Check.Moves
import TreeCheck.Proofs.Check.Warnings
import TreeCheck.Proofs.Check.Alike
import TreeCheck.Proofs.Session.Alone
import TreeCheck.Proofs.Session.Schedules
import TreeCheck.Proofs.Context.Known
import TreeCheck.Proofs.Check.History
import TreeCheck.Proofs.Check.Nominal
import TreeCheck.Proofs.Check.Steps
import TreeCheck.Proofs.Check.Histories
import TreeCheck.Proofs.Check.Registry
import TreeCheck.Proofs.Check.Notes
import TreeCheck.Proofs.Check.Members
import TreeCheck.Proofs.MessagePack.Takes
import TreeCheck.Proofs.Table.Settled
import TreeCheck.Proofs.Snapshot.Types
import TreeCheck.Proofs.Snapshot.RoundTrip
import TreeCheck.Proofs.Yaml.Anchors
import TreeCheck.Proofs.Load.Harvest
import TreeCheck.Proofs.Load.Origins
import TreeCheck.Proofs.Check.Traits
import TreeCheck.Proofs.Check.Accounts
import TreeCheck.Proofs.Check.Coverage
import TreeCheck.Proofs.Check.Places
import TreeCheck.Proofs.Snapshot.SelfContained
import TreeCheck.Proofs.Interner.Pool
import TreeCheck.Proofs.Session.Timings
import TreeCheck.Proofs.Text.Order
import TreeCheck.Proofs.Text.Split
import TreeCheck.Proofs.Path.Clean
import TreeCheck.Proofs.FileSet.Additions
import TreeCheck.Proofs.Command.Formats
import TreeCheck.Proofs.Yaml.Lines
import TreeCheck.Proofs.Yaml.Marks
import TreeCheck.Proofs.Yaml.Places
import TreeCheck.Proofs.Yaml.Source
import TreeCheck.Proofs.Load.Spans
import TreeCheck.Proofs.Ty.Normal
import TreeCheck.Proofs.Diagnostic.Distinct
import TreeCheck.Proofs.Session.Room
import TreeCheck.Proofs.Check.Lambdas
import TreeCheck.Proofs.Check.Vector
import TreeCheck.Proofs.Ty.Readable
import TreeCheck.Proofs.Check.Misfits
