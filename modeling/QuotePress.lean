import QuotePress.Main
import QuotePress.Context.OfJson
import QuotePress.Files.FileTree
import QuotePress.Proofs.Markup.Sandbox
import QuotePress.Proofs.Template.Seams
import QuotePress.Proofs.Template.StackMachine
import QuotePress.Proofs.Template.Tags
import QuotePress.Proofs.Template.Derivation
import QuotePress.Proofs.Template.Composition
import QuotePress.Proofs.Template.Printing
import QuotePress.Proofs.Template.Pieces
import QuotePress.Proofs.Documents.Agreement
import QuotePress.Proofs.Documents.History
import QuotePress.Proofs.Json.Lexing
import QuotePress.Proofs.Json.Tree
import QuotePress.Proofs.Json.Records
import QuotePress.Proofs.Calendar.Days
import QuotePress.Proofs.Calendar.Reading
import QuotePress.Proofs.Quote.RoundTrip
import QuotePress.Proofs.Files.Frames
import QuotePress.Proofs.Files.Directories
import QuotePress.Proofs.Store.Reading
import QuotePress.Proofs.Store.Calls
import QuotePress.Proofs.Store.Refinement
import QuotePress.Proofs.Settings.Keeping
import QuotePress.Proofs.CommandLine.Restart
import QuotePress.Proofs.Template.Names
import QuotePress.Proofs.Template.Passes
import QuotePress.Proofs.Documents.Unsaved
import QuotePress.Proofs.Decimal.Bits
import QuotePress.Proofs.Decimal.Rounding
import QuotePress.Proofs.Decimal.Arithmetic
import QuotePress.Proofs.Quote.Bindings
import QuotePress.Proofs.Quote.Amounts
import QuotePress.Proofs.Quote.Totals
import QuotePress.Proofs.Quote.Grouping
import QuotePress.Proofs.Settings.Failures
import QuotePress.Proofs.Documents.Warnings
import QuotePress.Proofs.Decimal.Order
import QuotePress.Proofs.Decimal.Limit
import QuotePress.Proofs.Quote.Limits
import QuotePress.Proofs.Template.Branches
import QuotePress.Proofs.Template.Unclosed
import QuotePress.Proofs.Markup.Confinement
import QuotePress.Proofs.Context.Maps
import QuotePress.Proofs.Context.Flat
import QuotePress.Proofs.Decimal.Whole
import QuotePress.Proofs.Quote.Rules
import QuotePress.Proofs.Quote.Names
import QuotePress.Proofs.CommandLine.Choosing
import QuotePress.Proofs.Settings.Sharing
import QuotePress.Proofs.Quote.Logos
import QuotePress.Proofs.Context.Runs
import QuotePress.Proofs.Documents.Exports
import QuotePress.Proofs.Template.Descent
import QuotePress.Proofs.Template.Offsets
