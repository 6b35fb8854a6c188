import StreamConsumer.Binary64.Basic
import StreamConsumer.Binary64.Shortest
import StreamConsumer.Calendar.Date
import StreamConsumer.Calendar.DateTime
import StreamConsumer.Calendar.Duration
import StreamConsumer.Calendar.Timestamp
import StreamConsumer.Configuration.Basic
import StreamConsumer.Configuration.Builder
import StreamConsumer.Configuration.Field
import StreamConsumer.Configuration.Wire
import StreamConsumer.CreateRequest
import StreamConsumer.Document
import StreamConsumer.Fault
import StreamConsumer.Json.Dialect
import StreamConsumer.Json.Exchange
import StreamConsumer.Json.Order
import StreamConsumer.Json.Reader
import StreamConsumer.Json.Writer
import StreamConsumer.Outcome
import StreamConsumer.Policy
import StreamConsumer.Sorting.Merge
import StreamConsumer.Sorting.Runs
import StreamConsumer.Sorting.Search
import StreamConsumer.Text.CodePoint
import StreamConsumer.Text.DecimalDigit
import StreamConsumer.Text.Encoding
import StreamConsumer.Text.Printable
import StreamConsumer.Text.Quoted
import StreamConsumer.Text.Utf8
import StreamConsumer.Value.Basic
import StreamConsumer.Value.Literal
import StreamConsumer.Word
import StreamConsumer.Proofs.Binary64.Nearest
import StreamConsumer.Proofs.Binary64.Overflow
import StreamConsumer.Proofs.Calendar.Date
import StreamConsumer.Proofs.Calendar.Ordinary
import StreamConsumer.Proofs.Calendar.Seconds
import StreamConsumer.Proofs.Calendar.Spelling
import StreamConsumer.Proofs.Calendar.Strictness
import StreamConsumer.Proofs.Calendar.Timestamp
import StreamConsumer.Proofs.Configuration.Acceptance
import StreamConsumer.Proofs.Configuration.Answers
import StreamConsumer.Proofs.Configuration.BuilderRuns
import StreamConsumer.Proofs.Configuration.Decoding
import StreamConsumer.Proofs.Configuration.DecodingFaults
import StreamConsumer.Proofs.Configuration.Distinctness
import StreamConsumer.Proofs.Configuration.Encoding
import StreamConsumer.Proofs.Configuration.EncodingFaults
import StreamConsumer.Proofs.Configuration.Equality
import StreamConsumer.Proofs.Configuration.Leniency
import StreamConsumer.Proofs.Configuration.Reencoding
import StreamConsumer.Proofs.Configuration.Refusals
import StreamConsumer.Proofs.Configuration.Resending
import StreamConsumer.Proofs.Configuration.RoundTrip
import StreamConsumer.Proofs.Configuration.StartTimes
import StreamConsumer.Proofs.Configuration.UnknownMembers
import StreamConsumer.Proofs.Configuration.Waits
import StreamConsumer.Proofs.CreateRequest
import StreamConsumer.Proofs.Document.Acceptance
import StreamConsumer.Proofs.Document.Codec
import StreamConsumer.Proofs.Document.Conversion
import StreamConsumer.Proofs.Document.Decoding
import StreamConsumer.Proofs.Document.Durations
import StreamConsumer.Proofs.Document.Faults
import StreamConsumer.Proofs.Document.Leniency
import StreamConsumer.Proofs.Document.Refusals
import StreamConsumer.Proofs.Document.Timestamps
import StreamConsumer.Proofs.Json.Acceptance
import StreamConsumer.Proofs.Json.Arrangement
import StreamConsumer.Proofs.Json.Canonical
import StreamConsumer.Proofs.Json.Exchange
import StreamConsumer.Proofs.Json.KeyOrder
import StreamConsumer.Proofs.Json.Leniency
import StreamConsumer.Proofs.Json.Notation
import StreamConsumer.Proofs.Json.Parts
import StreamConsumer.Proofs.Json.Quotation
import StreamConsumer.Proofs.Json.Reading
import StreamConsumer.Proofs.Json.RoundTrip
import StreamConsumer.Proofs.Json.Scalar
import StreamConsumer.Proofs.Json.SurrogatePairs
import StreamConsumer.Proofs.Outcome
import StreamConsumer.Proofs.Session
import StreamConsumer.Proofs.Subjects
import StreamConsumer.Proofs.Text.Decimal
import StreamConsumer.Proofs.Text.Numeral
import StreamConsumer.Proofs.Text.Quoted
import StreamConsumer.Proofs.Text.SurrogatePairs
import StreamConsumer.Proofs.Text.Utf8
import StreamConsumer.Proofs.Value.Members
import StreamConsumer.Proofs.Value.Number
