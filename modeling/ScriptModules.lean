import ScriptModules.Sha256
import ScriptModules.Text.Blank
import ScriptModules.Text.Quoted
import ScriptModules.Json.Printer
import ScriptModules.Path
import ScriptModules.Timestamp
import ScriptModules.Files.Basic
import ScriptModules.Files.Update
import ScriptModules.Package.Version
import ScriptModules.Package.Finder
import ScriptModules.Toml.Item
import ScriptModules.Toml.Scalar
import ScriptModules.Toml.Document
import ScriptModules.Toml.Printer
import ScriptModules.Config.Format
import ScriptModules.Percentage
import ScriptModules.Fingerprint
import ScriptModules.Registry.Basic
import ScriptModules.Url.Basic
import ScriptModules.Resolver
import ScriptModules.Cache.Basic
import ScriptModules.Program
import ScriptModules.Hooks.Basic
import ScriptModules.Statistics
import ScriptModules.Loader.Request
import ScriptModules.Hooks.Dispatch
import ScriptModules.Host
import ScriptModules.Loader.Basic
import ScriptModules.Loader.Frame
import ScriptModules.Loader.Machine
import ScriptModules.Report
import ScriptModules.Text.Split
import ScriptModules.Hooks.Rule
import ScriptModules.LineScript
import ScriptModules.Text.Composed
import ScriptModules.Text.Direction
import ScriptModules.Text.Joining
import ScriptModules.Url.Mapping
import ScriptModules.Url.Punycode
import ScriptModules.Proofs.Association
import ScriptModules.Proofs.Files.Reading
import ScriptModules.Proofs.Files.Making
import ScriptModules.Proofs.Files.Placing
import ScriptModules.Proofs.Files.Spelling
import ScriptModules.Proofs.Files.Shelf
import ScriptModules.Proofs.Outcome
import ScriptModules.Proofs.Cache.EntryFile
import ScriptModules.Proofs.Text.Lossy
import ScriptModules.Proofs.Files.RealPath
import ScriptModules.Proofs.Files.Tree
import ScriptModules.Proofs.Files.Named
import ScriptModules.Proofs.Files.Dropping
import ScriptModules.Proofs.Fingerprint.Message
import ScriptModules.Proofs.Fingerprint.Fields
import ScriptModules.Proofs.Fingerprint.Portable
import ScriptModules.Proofs.Fingerprint.Relocation
import ScriptModules.Proofs.Cache.World
import ScriptModules.Proofs.Cache.Size
import ScriptModules.Proofs.Cache.Bound
import ScriptModules.Proofs.Cache.Writes
import ScriptModules.Proofs.Cache.Transparency
import ScriptModules.Proofs.Cache.Naming
import ScriptModules.Proofs.Cache.Recency
import ScriptModules.Proofs.Cache.Recall
import ScriptModules.Proofs.Cache.Portable
import ScriptModules.Proofs.Cache.Keeping
import ScriptModules.Proofs.Cache.Scanning
import ScriptModules.Proofs.Cache.Solitude
import ScriptModules.Proofs.Cache.Mirror
import ScriptModules.Proofs.Text.Decimal
import ScriptModules.Proofs.Timestamp
import ScriptModules.Proofs.Json.Reading
import ScriptModules.Proofs.Cache.IndexText
import ScriptModules.Proofs.Cache.EvictionOrder
import ScriptModules.Proofs.Cache.Tidy
import ScriptModules.Proofs.Cache.Reopening
import ScriptModules.Proofs.Cache.Shedding
import ScriptModules.Proofs.Cache.OpeningOrder
import ScriptModules.Proofs.Cache.Accesses
import ScriptModules.Proofs.Cache.AccessNumbers
import ScriptModules.Proofs.Cache.LastAccesses
import ScriptModules.Proofs.Cache.Retention
import ScriptModules.Proofs.Files.Replacing
import ScriptModules.Proofs.Cache.FailedStores
import ScriptModules.Proofs.Cache.Clearing
import ScriptModules.Proofs.Registry.Representation
import ScriptModules.Proofs.Registry.InFlight
import ScriptModules.Proofs.Loader.Claims
import ScriptModules.Proofs.Loader.Traffic
import ScriptModules.Proofs.Loader.SingleFlight
import ScriptModules.Proofs.Registry.Succession
import ScriptModules.Proofs.Registry.Operations
import ScriptModules.Proofs.Registry.Survival
import ScriptModules.Proofs.Registry.Latest
import ScriptModules.Proofs.Resolver.Memory
import ScriptModules.Proofs.Loader.Pursuit
import ScriptModules.Proofs.Loader.History
import ScriptModules.Proofs.Loader.Ranking
import ScriptModules.Proofs.Loader.Aftermath
import ScriptModules.Proofs.Loader.Results
import ScriptModules.Proofs.Loader.OneInstance
import ScriptModules.Proofs.Loader.Composition
import ScriptModules.Proofs.Loader.Reload
import ScriptModules.Proofs.Loader.Resolving
import ScriptModules.Proofs.Loader.Freshness
import ScriptModules.Proofs.Loader.Steadiness
import ScriptModules.Proofs.Loader.Renewal
import ScriptModules.Proofs.Resolver.Names
import ScriptModules.Proofs.Resolver.Belonging
import ScriptModules.Proofs.Resolver.Sealing
import ScriptModules.Proofs.Resolver.Reaching
import ScriptModules.Proofs.Resolver.Looking
import ScriptModules.Proofs.Resolver.Closest
import ScriptModules.Proofs.Resolver.Returning
import ScriptModules.Proofs.Package.Directories
import ScriptModules.Proofs.Package.Remembering
import ScriptModules.Proofs.Package.Upward
import ScriptModules.Proofs.Package.Nearest
import ScriptModules.Proofs.Resolver.Malformed
import ScriptModules.Proofs.Loader.Offers
import ScriptModules.Proofs.Loader.Exposing
import ScriptModules.Proofs.Loader.Hookless
import ScriptModules.Proofs.Loader.Plain
import ScriptModules.Proofs.Loader.Builtins
import ScriptModules.Proofs.Loader.Bytecode
import ScriptModules.Proofs.Loader.Recompiling
import ScriptModules.Proofs.Loader.Accounting
import ScriptModules.Proofs.Loader.Ledger
import ScriptModules.Proofs.Hooks.Noted
import ScriptModules.Proofs.Hooks.Chain
import ScriptModules.Proofs.Hooks.Turns
import ScriptModules.Proofs.Hooks.Order
import ScriptModules.Proofs.Hooks.Passing
import ScriptModules.Proofs.Hooks.Dispatching
import ScriptModules.Proofs.Hooks.Failing
import ScriptModules.Proofs.Hooks.Contexts
import ScriptModules.Proofs.Hooks.Patience
import ScriptModules.Proofs.Loader.Deferring
import ScriptModules.Proofs.Loader.Requiring
import ScriptModules.Proofs.Loader.Waiting
import ScriptModules.Proofs.Package.Targets
import ScriptModules.Proofs.Loader.Course
import ScriptModules.Proofs.Loader.Dispatches
import ScriptModules.Proofs.Loader.Entry
import ScriptModules.Proofs.Loader.Bodies
import ScriptModules.Proofs.Loader.Hearing
import ScriptModules.Proofs.Loader.Journal
import ScriptModules.Proofs.Loader.Completing
import ScriptModules.Proofs.Loader.Dependencies
import ScriptModules.Proofs.Resolver.Extensions
