import SmtQuery.Reply.Outcome
import SmtQuery.Problem.Addition
import SmtQuery.Problem.Program
import SmtQuery.Reply.Answer
import SmtQuery.Solver.Stored
import SmtQuery.Proofs.RoundTrip
import SmtQuery.Proofs.Answer
import SmtQuery.Proofs.Formula
import SmtQuery.Proofs.Objective
import SmtQuery.Proofs.Declared
import SmtQuery.Proofs.Quoting
import SmtQuery.Proofs.Content
import SmtQuery.Proofs.Capability
import SmtQuery.Proofs.Decoding
import SmtQuery.Proofs.Typing
import SmtQuery.Proofs.Spelling
import SmtQuery.Proofs.Grammar
import SmtQuery.Proofs.UserText
import SmtQuery.Proofs.Logic
import SmtQuery.Proofs.Lines
import SmtQuery.Proofs.Growth
import SmtQuery.Proofs.Fault
import SmtQuery.Proofs.Pinned
import SmtQuery.Proofs.Width
import SmtQuery.Proofs.Wrapper
import SmtQuery.Proofs.Arithmetic
import SmtQuery.Proofs.Pattern
import SmtQuery.Proofs.Residue
import SmtQuery.Proofs.Places
import SmtQuery.Proofs.Resolution
import SmtQuery.Proofs.EmptyLine
import SmtQuery.Proofs.Enclosure
import SmtQuery.Proofs.Strictness
import SmtQuery.Proofs.RuleOrder
import SmtQuery.Proofs.Bars
import SmtQuery.Proofs.Span
import SmtQuery.Proofs.Readable
