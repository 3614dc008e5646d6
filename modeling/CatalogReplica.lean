import CatalogReplica.Tally
import CatalogReplica.Fault
import CatalogReplica.Key
import CatalogReplica.Task
import CatalogReplica.Turns
import CatalogReplica.Text.Hexadecimal
import CatalogReplica.Storage.Draft
import CatalogReplica.Catalog.Class
import CatalogReplica.Catalog.Config
import CatalogReplica.Catalog.DependentsScript
import CatalogReplica.Storage.Script
import CatalogReplica.Names
import CatalogReplica.Coherence.Memo
import CatalogReplica.Coherence.Plan
import CatalogReplica.Coherence.GateScript
import CatalogReplica.Coherence.SlotScript
import CatalogReplica.Coherence.Race
import CatalogReplica.Identity.Crowd
import CatalogReplica.Identity.Script
import CatalogReplica.Lifetime.Script
import CatalogReplica.Catalog.World
import CatalogReplica.Catalog.Accessor
import CatalogReplica.Catalog.Dispatch
import CatalogReplica.Catalog.Inspection
import CatalogReplica.Catalog.Script
import CatalogReplica.Proofs.Turns
import CatalogReplica.Proofs.Coherence.Dated
import CatalogReplica.Proofs.Coherence.Reads
import CatalogReplica.Proofs.Coherence.Freshness
import CatalogReplica.Proofs.Coherence.Invalidation
import CatalogReplica.Proofs.Lifetime.AfterTeardown
import CatalogReplica.Proofs.Catalog.Accessing
import CatalogReplica.Proofs.Catalog.Collecting
import CatalogReplica.Proofs.Catalog.Signals
import CatalogReplica.Proofs.Identity.Accounts
import CatalogReplica.Proofs.Identity.Moves
import CatalogReplica.Proofs.Identity.Runs
import CatalogReplica.Proofs.Identity.Flavors
import CatalogReplica.Proofs.Lifetime.Carrying
import CatalogReplica.Proofs.Native.Carrying
import CatalogReplica.Proofs.Native.Reads
import CatalogReplica.Proofs.Native.Signals
import CatalogReplica.Proofs.Lifetime.Accounts
import CatalogReplica.Proofs.Native.References
import CatalogReplica.Proofs.Native.Accounted
import CatalogReplica.Proofs.Lifetime.Enrolment
import CatalogReplica.Proofs.Native.Scopes
import CatalogReplica.Proofs.Native.Adoption
import CatalogReplica.Proofs.Native.ScopeSignals
import CatalogReplica.Proofs.Native.ScopeEnds
import CatalogReplica.Proofs.Native.Readers
import CatalogReplica.Proofs.Native.Unreleased
import CatalogReplica.Proofs.Catalog.Evicting
import CatalogReplica.Proofs.Catalog.Delivering
import CatalogReplica.Proofs.Catalog.Resting
import CatalogReplica.Proofs.Catalog.Current
import CatalogReplica.Proofs.Coherence.Engine
import CatalogReplica.Proofs.Coherence.Memoized
import CatalogReplica.Proofs.Catalog.Cascading
import CatalogReplica.Proofs.Catalog.Navigating
import CatalogReplica.Proofs.Catalog.Altering
import CatalogReplica.Proofs.Lifetime.Calm
import CatalogReplica.Proofs.Lifetime.Trees
import CatalogReplica.Proofs.Identity.Programs
import CatalogReplica.Proofs.Catalog.Tidy
import CatalogReplica.Proofs.Coherence.Batches
import CatalogReplica.Proofs.Catalog.Upkeep
import CatalogReplica.Proofs.Catalog.Gathering
import CatalogReplica.Proofs.Catalog.Precision
import CatalogReplica.Proofs.Lifetime.Lossless
import CatalogReplica.Proofs.Catalog.Waiting
import CatalogReplica.Proofs.Lifetime.Firing
import CatalogReplica.Proofs.Native.Orphaning
import CatalogReplica.Proofs.Native.Tearing
import CatalogReplica.Proofs.Identity.SoftQueue
import CatalogReplica.Proofs.Lifetime.Bookkeeping
import CatalogReplica.Proofs.Lifetime.Unwinding
import CatalogReplica.Proofs.Lifetime.Draining
import CatalogReplica.Proofs.Catalog.Bursts
import CatalogReplica.Proofs.Identity.Footprint
import CatalogReplica.Proofs.Identity.Gatherings
import CatalogReplica.Proofs.Coherence.Flights
import CatalogReplica.Proofs.Coherence.Chronicle
import CatalogReplica.Proofs.Storage.Lists
import CatalogReplica.Proofs.Storage.Overwriting
import CatalogReplica.Proofs.Native.Continuing
import CatalogReplica.Proofs.Native.Interning
import CatalogReplica.Proofs.Native.Recording
import CatalogReplica.Proofs.Catalog.Counting
import CatalogReplica.Proofs.Catalog.Reentry
import CatalogReplica.Proofs.Catalog.Reaching
import CatalogReplica.Proofs.Storage.Appending
import CatalogReplica.Proofs.Coherence.Handles
import CatalogReplica.Proofs.Catalog.Belonging
import CatalogReplica.Proofs.Catalog.Typmods
