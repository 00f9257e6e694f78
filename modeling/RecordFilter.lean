import RecordFilter.Main
import RecordFilter.Proofs.Compiler.Meaning
import RecordFilter.Proofs.Where.Paths
import RecordFilter.Proofs.Parser.ViablePrefix
import RecordFilter.Proofs.Expr.WellFormed
import RecordFilter.Proofs.Compiler.Support
import RecordFilter.Proofs.Compiler.Regular
import RecordFilter.Proofs.Token.Blank
import RecordFilter.Proofs.Compiler.TextOutcome
import RecordFilter.Proofs.Where.Nesting
import RecordFilter.Proofs.Token.Fragment
import RecordFilter.Proofs.Parser.Splicing
import RecordFilter.Proofs.Where.Splicing
import RecordFilter.Proofs.Compiler.Fault
import RecordFilter.Proofs.Compiler.Scope
import RecordFilter.Proofs.Compiler.Generic
import RecordFilter.Proofs.Parser.Accepting
import RecordFilter.Proofs.Where.Completeness
import RecordFilter.Proofs.Where.Growth
import RecordFilter.Proofs.Binary64.Reread
import RecordFilter.Proofs.Compiler.Trace
import RecordFilter.Proofs.Draft.Float
import RecordFilter.Proofs.Draft.History
import RecordFilter.Proofs.Token.Extent
import RecordFilter.Proofs.Parser.Spacing
import RecordFilter.Proofs.Token.Keyword
import RecordFilter.Proofs.Json.Reading
import RecordFilter.Proofs.Query.Encoding
import RecordFilter.Proofs.Query.Rendering
import RecordFilter.Proofs.Parser.ErrorPlace
import RecordFilter.Proofs.Token.Quotation
import RecordFilter.Proofs.Calendar.Literal
import RecordFilter.Proofs.Settings.Variable
import RecordFilter.Proofs.Token.Slices
import RecordFilter.Proofs.Where.Printing
