import TreePath.Text.Blank
import TreePath.Text.DecimalDigit
import TreePath.Text.Printable
import TreePath.Text.Uppercase
import TreePath.Decimal.Layout
import TreePath.Numeral
import TreePath.Value.Basic
import TreePath.Value.Display
import TreePath.Value.Equality
import TreePath.Step.Record
import TreePath.Traversal
import TreePath.Json.Document
import TreePath.Memo
import TreePath.Settings
import TreePath.Message.Record
import TreePath.Reader
import TreePath.Proofs.Reading.Grammar
import TreePath.Proofs.Reading.Leaf
import TreePath.Proofs.Reading.Acceptance
import TreePath.Proofs.Memo.Run
import TreePath.Proofs.Session.Outcome
import TreePath.Proofs.Session.Transparency
import TreePath.Proofs.Session.Bracket
import TreePath.Proofs.Reading.RoundTrip
import TreePath.Proofs.Memo.Recency
import TreePath.Proofs.Walk.Composition
import TreePath.Proofs.Reader.Chain
import TreePath.Proofs.Reading.Seam
import TreePath.Proofs.Reading.Concatenation
import TreePath.Proofs.Reading.Diagnosis
import TreePath.Proofs.Reading.Faults
import TreePath.Proofs.Expected.Coercion
import TreePath.Proofs.Reader.Access
import TreePath.Proofs.Reader.Overflow
import TreePath.Proofs.Reader.Relative
import TreePath.Proofs.Value.Equality
import TreePath.Proofs.Reader.Congruence
import TreePath.Proofs.Memo.LateBound
import TreePath.Proofs.Reading.Lazy
import TreePath.Proofs.Walk.Trail
import TreePath.Proofs.Reader.Lenient
import TreePath.Proofs.Walk.Erasure
import TreePath.Proofs.Expected.Soundness
import TreePath.Proofs.Expected.Nesting
import TreePath.Proofs.Value.Presence
import TreePath.Proofs.Json.Presence
import TreePath.Proofs.Reader.Absence
import TreePath.Proofs.Reader.Substitution
import TreePath.Proofs.Reader.Root
import TreePath.Proofs.Reading.Canonical
import TreePath.Proofs.Json.Cases
import TreePath.Proofs.Json.Remainder
import TreePath.Proofs.Json.WholeNumber
import TreePath.Proofs.Json.Overlong
import TreePath.Proofs.Memo.Erasure
import TreePath.Proofs.Memo.Accounting
import TreePath.Proofs.Memo.Inclusion
import TreePath.Proofs.Reader.Decoding
import TreePath.Proofs.Session.Refusal
import TreePath.Proofs.Session.Trace
import TreePath.Proofs.Session.Account
import TreePath.Proofs.Message.Headline
import TreePath.Proofs.Message.Lines
import TreePath.Proofs.Message.Color
import TreePath.Proofs.Session.Configuring
import TreePath.Proofs.Settings.Environment
import TreePath.Proofs.Step.Record
import TreePath.Proofs.Loop
import TreePath.Proofs.Reading.Quoting
import TreePath.Proofs.Reading.Progress
import TreePath.Proofs.Session.Emission
