import EventAdmission.Batch
import EventAdmission.Category
import EventAdmission.DeclaredField
import EventAdmission.Enrichment
import EventAdmission.EventType.Basic
import EventAdmission.EventType.Decoding
import EventAdmission.Json.Basic
import EventAdmission.Json.Cursor
import EventAdmission.Json.Equality
import EventAdmission.Json.Pointer
import EventAdmission.Json.Printer
import EventAdmission.Json.Reader
import EventAdmission.Json.Scalar
import EventAdmission.Json.Shape
import EventAdmission.Json.Typed
import EventAdmission.Keyed
import EventAdmission.Log
import EventAdmission.Number.Binary64
import EventAdmission.Number.Shortest
import EventAdmission.Pattern.Backtrack
import EventAdmission.Pattern.Basic
import EventAdmission.Pattern.Blanks
import EventAdmission.Pattern.Bracket
import EventAdmission.Pattern.CharSet
import EventAdmission.Pattern.Escape
import EventAdmission.Pattern.Extended
import EventAdmission.Pattern.Keyword
import EventAdmission.Pattern.Linear
import EventAdmission.Pattern.Position
import EventAdmission.Pattern.Regex
import EventAdmission.Proofs.Keyed
import EventAdmission.Proofs.Pattern.Spans
import EventAdmission.Proofs.Schema.Passing
import EventAdmission.Proofs.Uuid
import EventAdmission.PublishContext
import EventAdmission.Schema.Compile
import EventAdmission.Schema.Corpus
import EventAdmission.Schema.Draft
import EventAdmission.Schema.Evaluate
import EventAdmission.Schema.Fault
import EventAdmission.Schema.Format
import EventAdmission.Schema.Kind
import EventAdmission.Schema.MetaSchema
import EventAdmission.Schema.Rule
import EventAdmission.Settings
import EventAdmission.Settings.Source
import EventAdmission.Strategy.Kind
import EventAdmission.Strategy.Registry
import EventAdmission.Strategy.Validator
import EventAdmission.Text.Base64
import EventAdmission.Text.Blank
import EventAdmission.Text.Percent
import EventAdmission.Text.Quoted
import EventAdmission.Text.Split
import EventAdmission.Text.Utf8
import EventAdmission.Timestamp
import EventAdmission.Unicode.Alphanumeric
import EventAdmission.Unicode.CodeSet
import EventAdmission.Unicode.Folding
import EventAdmission.Unicode.GeneralCategory
import EventAdmission.Unicode.LowerCase
import EventAdmission.Unicode.Property
import EventAdmission.Unicode.Script
import EventAdmission.Unicode.Trait
import EventAdmission.Unicode.Unprintable
import EventAdmission.Url.Basic
import EventAdmission.Url.Host
import EventAdmission.Url.Punycode
import EventAdmission.Validation
import EventAdmission.ValidatorCache
import EventAdmission.Violation
import EventAdmission.Proofs.Schema.Compiled
import EventAdmission.Proofs.Schema.Keywords
import EventAdmission.Proofs.Enrichment.RequiredNames
import EventAdmission.Proofs.Enrichment.Merge
import EventAdmission.Proofs.Enrichment.Envelope
import EventAdmission.Proofs.Pipeline
import EventAdmission.Proofs.Enrichment.Pieces
import EventAdmission.Proofs.DataChange.Envelope
import EventAdmission.Proofs.DataChange.Gate
import EventAdmission.Proofs.Metadata.Guard
import EventAdmission.Proofs.Metadata.Content
import EventAdmission.Proofs.Schema.Siblings
import EventAdmission.Proofs.Metadata.Presence
import EventAdmission.Proofs.Json.Values
import EventAdmission.Proofs.Url.Fragment
import EventAdmission.Proofs.Schema.References
import EventAdmission.Proofs.Schema.Met
import EventAdmission.Proofs.DataChange.Meaning
import EventAdmission.Proofs.DataChange.Compiled
import EventAdmission.Proofs.Schema.Published
import EventAdmission.Proofs.Schema.PublishedKeywords
import EventAdmission.Proofs.DataChange.Published
import EventAdmission.Proofs.DataChange.Violations
import EventAdmission.Proofs.Pipeline.Order
import EventAdmission.Proofs.Batch
import EventAdmission.Proofs.Enrichment.Once
import EventAdmission.Proofs.Schema.PublishedShapes
import EventAdmission.Proofs.Business.Compiled
import EventAdmission.Proofs.Business.References
import EventAdmission.Proofs.Business.Meaning
import EventAdmission.Proofs.Pipeline.Registration
import EventAdmission.Proofs.Pipeline.Setup
import EventAdmission.Proofs.Json.Equality
import EventAdmission.Proofs.ValidatorCache
import EventAdmission.Proofs.ValidatorCache.Retention
import EventAdmission.Proofs.Json.Pointer
import EventAdmission.Proofs.Json.Places
import EventAdmission.Proofs.Schema.Pointers
import EventAdmission.Proofs.Enrichment.Members
import EventAdmission.Proofs.Business.Lossless
import EventAdmission.Proofs.Enrichment.Faults
import EventAdmission.Proofs.DataChange.Lossless
import EventAdmission.Proofs.Schema.Ending
import EventAdmission.Proofs.Schema.Verdict
import EventAdmission.Proofs.Schema.Admissible
import EventAdmission.Proofs.Schema.Sound
import EventAdmission.Proofs.Enrichment.Blended
import EventAdmission.Proofs.Business.Admissible
import EventAdmission.Proofs.Business.Sound
import EventAdmission.Proofs.Enrichment.Compiled
import EventAdmission.Proofs.Text.Split
import EventAdmission.Proofs.Text.Utf8
import EventAdmission.Proofs.Text.Percent
import EventAdmission.Proofs.Enrichment.Renamed
import EventAdmission.Proofs.DeclaredField
import EventAdmission.Proofs.DeclaredField.Evaluated
import EventAdmission.Proofs.DataChange.Declared
import EventAdmission.Proofs.Business.Declared
import EventAdmission.Proofs.DataChange.Relabelled
import EventAdmission.Proofs.Schema.Reached
import EventAdmission.Proofs.DataChange.Root
import EventAdmission.Proofs.Text.Lines
import EventAdmission.Proofs.Json.Printer
import EventAdmission.Proofs.Schema.Quotes
import EventAdmission.Proofs.Pipeline.Report
import EventAdmission.Proofs.Batch.Trace
import EventAdmission.Proofs.DataChange.Patterns
import EventAdmission.Proofs.Schema.PatternPlaces
import EventAdmission.Proofs.Pipeline.Trace
import EventAdmission.Proofs.Enrichment.Repeated
import EventAdmission.Proofs.Category
import EventAdmission.Proofs.Json.Written
import EventAdmission.Proofs.Json.Steps
import EventAdmission.Proofs.Json.Strings
import EventAdmission.Proofs.Json.Numbers
import EventAdmission.Proofs.Json.SkippedNumbers
import EventAdmission.Proofs.Json.Spans
import EventAdmission.Proofs.Json.Skipping
import EventAdmission.Proofs.Json.Reading
import EventAdmission.Proofs.Json.Decoding
import EventAdmission.Proofs.Json.Records
import EventAdmission.Proofs.Json.Printed
import EventAdmission.Proofs.EventType.Fields
import EventAdmission.Proofs.EventType.Reading
import EventAdmission.Proofs.EventType.Encodings
import EventAdmission.Proofs.Settings.Reading
import EventAdmission.Proofs.Settings.Given
