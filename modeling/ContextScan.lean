import ContextScan.CommandLine.FileTree
import ContextScan.Host.Session
import ContextScan.Host.Snapshot
import ContextScan.Main
import ContextScan.Moves
import ContextScan.Proofs.CommandLine.Arguments
import ContextScan.Proofs.CommandLine.KindList
import ContextScan.Proofs.CommandLine.Options
import ContextScan.Proofs.CommandLine.Outcome
import ContextScan.Proofs.CommandLine.RoundTrip
import ContextScan.Proofs.CommandLine.WalkReport
import ContextScan.Proofs.Comment.Counter
import ContextScan.Proofs.Comment.Nesting
import ContextScan.Proofs.Comment.Pieces
import ContextScan.Proofs.Host.Agreement
import ContextScan.Proofs.Host.Calls
import ContextScan.Proofs.LineEnds.Elementary
import ContextScan.Proofs.LineEnds.Indifference
import ContextScan.Proofs.LineEnds.LoneReturns
import ContextScan.Proofs.LineEnds.Resolvers
import ContextScan.Proofs.LineEnds.Token
import ContextScan.Proofs.RawText.Literal
import ContextScan.Proofs.Reader.Bounds
import ContextScan.Proofs.Reader.History
import ContextScan.Proofs.Reader.Lawful
import ContextScan.Proofs.Reader.Remainders
import ContextScan.Proofs.Reader.Search
import ContextScan.Proofs.Reader.Window
import ContextScan.Proofs.Replay.Semicolons
import ContextScan.Proofs.Replay.Tiling
import ContextScan.Proofs.Requested.Decision
import ContextScan.Proofs.Requested.Laws
import ContextScan.Proofs.SoftToken.BesideTerminator
import ContextScan.Proofs.SoftToken.Plain
import ContextScan.Proofs.SoftToken.Recognition
import ContextScan.Proofs.Statement.Deferral
import ContextScan.Proofs.Statement.Ending
import ContextScan.Proofs.Statement.Gap
import ContextScan.Proofs.Statement.Line
import ContextScan.Proofs.Statement.Negation
import ContextScan.Proofs.Statement.OperatorLine
import ContextScan.Proofs.Statement.Outcome
import ContextScan.Proofs.Stepwise.Elementary
import ContextScan.Proofs.Stepwise.Resolvers
import ContextScan.Proofs.Stepwise.Spending
import ContextScan.Proofs.Text.Encoding
import ContextScan.Proofs.Text.LoneReturns
import ContextScan.Proofs.Text.Places
import ContextScan.Proofs.Token.Annotated
import ContextScan.Proofs.Token.AnnotatedConstructor
import ContextScan.Proofs.Token.Forms
import ContextScan.Proofs.Token.LeadingGap
import ContextScan.Proofs.Token.Produced
import ContextScan.Proofs.Token.Reading
import ContextScan.Proofs.Token.Soundness
import ContextScan.Proofs.Token.Spelling
import ContextScan.Proofs.Token.Trivia
import ContextScan.Proofs.Trace.Reports
import ContextScan.Proofs.Trace.Truth
import ContextScan.Proofs.Words.Buffer
import ContextScan.Proofs.Words.Identifier
import ContextScan.Proofs.Words.Leading
import ContextScan.Proofs.Words.SetterCall
import ContextScan.Proofs.Words.Verdict
import ContextScan.Proofs.Words.Vocabulary
