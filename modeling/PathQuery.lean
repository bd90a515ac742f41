import PathQuery.Main
import PathQuery.Plan.Draft
import PathQuery.Proofs.BareNames
import PathQuery.Proofs.Blame
import PathQuery.Proofs.Chain
import PathQuery.Proofs.Coherence
import PathQuery.Proofs.Complaints
import PathQuery.Proofs.Completeness
import PathQuery.Proofs.ConditionLists
import PathQuery.Proofs.Declarations
import PathQuery.Proofs.Drafts
import PathQuery.Proofs.Evaluation
import PathQuery.Proofs.Expansion
import PathQuery.Proofs.Forks
import PathQuery.Proofs.Identifiers
import PathQuery.Proofs.Indexes
import PathQuery.Proofs.Isolation
import PathQuery.Proofs.Joins
import PathQuery.Proofs.Mentions
import PathQuery.Proofs.Ownership
import PathQuery.Proofs.PartialReads
import PathQuery.Proofs.Patterns
import PathQuery.Proofs.Plannable
import PathQuery.Proofs.Pool
import PathQuery.Proofs.Profiles
import PathQuery.Proofs.Projection
import PathQuery.Proofs.Routes
import PathQuery.Proofs.Spelling
import PathQuery.Proofs.Streams
import PathQuery.Proofs.Ties
import PathQuery.Proofs.TypeOrder
import PathQuery.Proofs.Validation
import PathQuery.Proofs.Verbosity
import PathQuery.Reader.Memory
import PathQuery.Topology.Tables
