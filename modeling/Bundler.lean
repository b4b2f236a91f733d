import Bundler.Main
import Bundler.Proofs.Bundle
import Bundler.Records
import Bundler.Proofs.Contents
import Bundler.Proofs.Dependence
import Bundler.Proofs.Building
import Bundler.Proofs.Watching
import Bundler.Proofs.Freshness
import Bundler.Proofs.Idle
import Bundler.Proofs.Rebuild
import Bundler.Proofs.Queueing
import Bundler.Proofs.Lookahead
import Bundler.Proofs.Reading
import Bundler.Proofs.Concatenation
import Bundler.Proofs.Inlining
import Bundler.Proofs.Declarations
import Bundler.Proofs.Stripping
import Bundler.Proofs.Tree
import Bundler.Proofs.Ancestors
import Bundler.Proofs.Writing
import Bundler.Proofs.Operations
import Bundler.Proofs.Syncing
import Bundler.Proofs.Directories
import Bundler.Proofs.History
import Bundler.Proofs.Following
import Bundler.Proofs.Lifecycle
import Bundler.Proofs.Grammar
import Bundler.Proofs.Slices
import Bundler.Proofs.Messages
import Bundler.Proofs.Reporting
import Bundler.Proofs.Comments
import Bundler.Proofs.Discovery
import Bundler.Proofs.Patching
import Bundler.Proofs.Reuse
import Bundler.Proofs.Traversal
import Bundler.Proofs.Rendering
import Bundler.Proofs.Display
import Bundler.Proofs.Events
import Bundler.Proofs.Rescheduling
import Bundler.Proofs.Terminals
import Bundler.Proofs.Covering
import Bundler.Proofs.Identity
