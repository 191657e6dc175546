import PropTree.Assoc
import PropTree.Path.Basic
import PropTree.Path.Segments
import PropTree.Descriptor
import PropTree.Numeric.Form
import PropTree.Value.Equality
import PropTree.Value.HashData
import PropTree.Value.Text
import PropTree.Record.Schema
import PropTree.Navigation.Walk
import PropTree.Navigation.Inspect
import PropTree.Navigation.InPlace
import PropTree.Navigation.Request
import PropTree.Document.Typed
import PropTree.Document.Reading
import PropTree.Cache.Fault
import PropTree.Cache.Settings
import PropTree.Cache.Transaction
import PropTree.Cache.Reader
import PropTree.Cache.Directory
import PropTree.Proofs.Navigation.ReadBack
import PropTree.Proofs.Navigation.Separation
import PropTree.Proofs.Navigation.Preservation
import PropTree.Proofs.Navigation.Progress
import PropTree.Proofs.Navigation.FailedWrites
import PropTree.Proofs.Cache.Overlay
import PropTree.Proofs.Cache.Isolation
import PropTree.Proofs.Cache.OneHolder
import PropTree.Proofs.Cache.OverLocks
import PropTree.Proofs.Cache.Reread
import PropTree.Proofs.Cache.Product
import PropTree.Proofs.Cache.Transparent
import PropTree.Proofs.Cache.RecentPairs
import PropTree.Proofs.Cache.OnePerId
import PropTree.Proofs.Assoc
import PropTree.Proofs.Record.Relaxed
import PropTree.Proofs.Text.Base64
import PropTree.Proofs.Document.Fitting
import PropTree.Proofs.Document.RoundTrip
import PropTree.Proofs.Navigation.Composition
import PropTree.Proofs.Navigation.Visit
import PropTree.Proofs.Navigation.Agreement
import PropTree.Proofs.Navigation.TypesBelow
import PropTree.Proofs.Navigation.InPlace
import PropTree.Proofs.Navigation.MalformedPaths
import PropTree.Proofs.Navigation.NullWrites
import PropTree.Proofs.Path.Append
import PropTree.Proofs.Path.Grammar
import PropTree.Proofs.Navigation.Overwrites
import PropTree.Proofs.Record.Redeclared
import PropTree.Proofs.Document.NamedKeys
import PropTree.Proofs.Text.UpperCase
import PropTree.Proofs.Navigation.Canonical
import PropTree.Proofs.Navigation.Queries
import PropTree.Proofs.Navigation.Readable
import PropTree.Proofs.Cache.KeyEquality
import PropTree.Proofs.Document.FirstOffence
import PropTree.Proofs.Navigation.Branches
import PropTree.Proofs.Document.Lossless
