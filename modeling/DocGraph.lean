import DocGraph.Main
import DocGraph.Fetch.Schedule
import DocGraph.Proofs.Loader.Transparency
import DocGraph.Proofs.Loader.Capacity
import DocGraph.Proofs.Loader.Completion
import DocGraph.Proofs.Loader.Contexts
import DocGraph.Proofs.Query.Rendering
import DocGraph.Proofs.Query.FilterInput
import DocGraph.Proofs.Query.Independence
import DocGraph.Proofs.Resolve.Narrowing
import DocGraph.Proofs.Fetch.Alone
import DocGraph.Proofs.Store.Holding
import DocGraph.Proofs.Resolve.Laziness
import DocGraph.Proofs.Schema.Compiled
import DocGraph.Proofs.Fetch.Company
import DocGraph.Proofs.Resolve.OneRecord
import DocGraph.Proofs.Resolve.Cardinality
import DocGraph.Proofs.Query.Selecting
import DocGraph.Proofs.Store.Answering
import DocGraph.Proofs.Resolve.KeyPaths
import DocGraph.Proofs.Schema.Reordering
import DocGraph.Proofs.Query.Acceptance
import DocGraph.Proofs.Query.Mentions
import DocGraph.Proofs.Query.Restriction
import DocGraph.Proofs.Schema.Rejection
import DocGraph.Proofs.Schema.Inheritance
import DocGraph.Proofs.Store.Accessors
import DocGraph.Proofs.Resolve.Paging
import DocGraph.Proofs.Loader.ArrivalOrder
import DocGraph.Proofs.Resolve.InternalFaults
import DocGraph.Proofs.Resolve.Prefetching
import DocGraph.Text.Bytes
import DocGraph.Schema.Search
import DocGraph.Proofs.Query.Counting
import DocGraph.Proofs.Resolve.Explaining
import DocGraph.Proofs.Schema.ByteOrder
import DocGraph.Proofs.Schema.Searching
import DocGraph.Proofs.Schema.NormalForm
import DocGraph.Proofs.Schema.Conflicts
import DocGraph.Proofs.Schema.DefaultDatabase
import DocGraph.Proofs.Resolve.Located
import DocGraph.Proofs.Store.Circles
import DocGraph.Proofs.Resolve.Lookups
import DocGraph.Proofs.Resolve.KeyLists
import DocGraph.Proofs.Query.Listing
import DocGraph.Proofs.Query.SortInput
import DocGraph.Proofs.Query.Ordering
