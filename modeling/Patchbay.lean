import Patchbay.Lifecycle.Bench
import Patchbay.Main
import Patchbay.Proofs.Lifecycle.History
import Patchbay.Proofs.Lifecycle.Table
import Patchbay.Proofs.Host.Turn
import Patchbay.Proofs.Host.Isolation
import Patchbay.Proofs.Host.Shared
import Patchbay.Proofs.Host.Refusal
import Patchbay.Proofs.Host.Handling
import Patchbay.Proofs.Host.Succession
import Patchbay.Proofs.Host.Table
import Patchbay.Proofs.Host.Naming
import Patchbay.Proofs.Host.Numbers
import Patchbay.Proofs.Host.Batch
import Patchbay.Proofs.Host.Logged
import Patchbay.Proofs.Console
import Patchbay.Proofs.Files.Breaks
import Patchbay.Proofs.Files.Search
import Patchbay.Proofs.Lifted
import Patchbay.Proofs.Message.Classification
import Patchbay.Proofs.Message.Grammar
import Patchbay.Proofs.Message.Quotation
import Patchbay.Proofs.Message.Rendering
import Patchbay.Proofs.Namespace.Blank
import Patchbay.Proofs.Namespace.Import
import Patchbay.Proofs.Script.BigInteger
import Patchbay.Proofs.Script.Collection
import Patchbay.Proofs.Script.Rebinding
import Patchbay.Proofs.Settings
import Patchbay.Proofs.Settings.Layout
import Patchbay.Proofs.Owner.Lifted
import Patchbay.Proofs.Owner.Reading
import Patchbay.Proofs.TextBuffer
