import LogDispatch.Config.Reader
import LogDispatch.Config.Writer
import LogDispatch.Engine.Step
import LogDispatch.Inspect
import LogDispatch.Level.Stored
import LogDispatch.Pattern.Date.Tokens
import LogDispatch.Proofs.Admission
import LogDispatch.Proofs.Agenda
import LogDispatch.Proofs.Announcing
import LogDispatch.Proofs.Appending
import LogDispatch.Proofs.Attempt
import LogDispatch.Proofs.Caching
import LogDispatch.Proofs.Calendar
import LogDispatch.Proofs.Calls
import LogDispatch.Proofs.Carrying
import LogDispatch.Proofs.Columns
import LogDispatch.Proofs.Completion
import LogDispatch.Proofs.Concatenation
import LogDispatch.Proofs.ConfigText
import LogDispatch.Proofs.Custody
import LogDispatch.Proofs.DatePatterns
import LogDispatch.Proofs.Deeds
import LogDispatch.Proofs.Dict
import LogDispatch.Proofs.DigitGroups
import LogDispatch.Proofs.Digits
import LogDispatch.Proofs.Directives
import LogDispatch.Proofs.Doubles
import LogDispatch.Proofs.Exposure
import LogDispatch.Proofs.Expressions
import LogDispatch.Proofs.Fallbacks
import LogDispatch.Proofs.Fate
import LogDispatch.Proofs.Files
import LogDispatch.Proofs.FlatRouting
import LogDispatch.Proofs.Frames
import LogDispatch.Proofs.Gap
import LogDispatch.Proofs.Gap.Step
import LogDispatch.Proofs.Globs
import LogDispatch.Proofs.Holding
import LogDispatch.Proofs.Intervals
import LogDispatch.Proofs.JsonText
import LogDispatch.Proofs.Languages
import LogDispatch.Proofs.Leases
import LogDispatch.Proofs.Ledger
import LogDispatch.Proofs.Lending
import LogDispatch.Proofs.Levels
import LogDispatch.Proofs.Lineage
import LogDispatch.Proofs.Lines
import LogDispatch.Proofs.LowerCase
import LogDispatch.Proofs.Making
import LogDispatch.Proofs.Nearest
import LogDispatch.Proofs.Numerals
import LogDispatch.Proofs.Outcomes
import LogDispatch.Proofs.Percent
import LogDispatch.Proofs.Places
import LogDispatch.Proofs.Precedence
import LogDispatch.Proofs.Products
import LogDispatch.Proofs.Progress
import LogDispatch.Proofs.Reaching
import LogDispatch.Proofs.Readable
import LogDispatch.Proofs.Release
import LogDispatch.Proofs.Reloading
import LogDispatch.Proofs.Replies
import LogDispatch.Proofs.RoundTrip
import LogDispatch.Proofs.Rounding
import LogDispatch.Proofs.Run
import LogDispatch.Proofs.Selection
import LogDispatch.Proofs.Sending
import LogDispatch.Proofs.Serving
import LogDispatch.Proofs.Sharing
import LogDispatch.Proofs.Shortest
import LogDispatch.Proofs.Sorted
import LogDispatch.Proofs.Specs
import LogDispatch.Proofs.Stations
import LogDispatch.Proofs.Streaming
import LogDispatch.Proofs.Tagging
import LogDispatch.Proofs.Tally
import LogDispatch.Proofs.Text
import LogDispatch.Proofs.TimeOrder
import LogDispatch.Proofs.Traffic
import LogDispatch.Proofs.WellFormed
import LogDispatch.Proofs.WholeNumbers
import LogDispatch.Template.Printer
