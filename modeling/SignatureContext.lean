import SignatureContext.Text.Word
import SignatureContext.Text.Character
import SignatureContext.Text.Printable
import SignatureContext.Text.Quoted
import SignatureContext.Text.Split
import SignatureContext.Window
import SignatureContext.Text.Utf8
import SignatureContext.Numeral.Shortest
import SignatureContext.Numeral.Integer
import SignatureContext.Numeral.Decimal
import SignatureContext.Value
import SignatureContext.Path
import SignatureContext.Symbol
import SignatureContext.Fault
import SignatureContext.Import
import SignatureContext.Registry
import SignatureContext.Scan
import SignatureContext.Log
import SignatureContext.Walk
import SignatureContext.Tier
import SignatureContext.Classify
import SignatureContext.Pack
import SignatureContext.Barrel
import SignatureContext.Config.Environment
import SignatureContext.Config.Validate
import SignatureContext.Context
import SignatureContext.Session
import SignatureContext.Proofs.Walk.Tour
import SignatureContext.Proofs.Walk.Arrivals
import SignatureContext.Proofs.Walk.Once
import SignatureContext.Proofs.Walk.Reach
import SignatureContext.Proofs.Walk.Provenance
import SignatureContext.Proofs.Walk.FirstImport
import SignatureContext.Proofs.Walk.Agreement
import SignatureContext.Proofs.Classify.Partition
import SignatureContext.Proofs.Classify.Window
import SignatureContext.Proofs.Pack.Accounts
import SignatureContext.Proofs.Pack.Functions
import SignatureContext.Proofs.Context.Source
import SignatureContext.Proofs.Path.Normal
import SignatureContext.Proofs.Path.Origin
import SignatureContext.Proofs.Pack.Image
import SignatureContext.Proofs.Context.Root
import SignatureContext.Proofs.Pack.Refusal
import SignatureContext.Proofs.Pack.Room
import SignatureContext.Proofs.Pack.Budgets
import SignatureContext.Proofs.Pack.Repeat
import SignatureContext.Proofs.Context.Exclusion
import SignatureContext.Proofs.Context.Consistency
import SignatureContext.Proofs.Registry
import SignatureContext.Proofs.Session.History
import SignatureContext.Proofs.Session.Registration
import SignatureContext.Proofs.Session.Frame
import SignatureContext.Proofs.Path.Stable
import SignatureContext.Proofs.Session.Lookup
import SignatureContext.Proofs.Config.Fallback
import SignatureContext.Proofs.Text.Words
import SignatureContext.Proofs.Text.Blank
import SignatureContext.Proofs.Window
import SignatureContext.Proofs.Classify.Widening
import SignatureContext.Proofs.Classify.OneLevel
import SignatureContext.Proofs.Visible
import SignatureContext.Proofs.Path.Directory
import SignatureContext.Proofs.Session.Spelling
import SignatureContext.Proofs.Pack.LeftOut
import SignatureContext.Proofs.Pack.Earlier
import SignatureContext.Proofs.Config.Whole
import SignatureContext.Proofs.Config.Environment
import SignatureContext.Proofs.Barrel.Lines
import SignatureContext.Proofs.Barrel.Opening
import SignatureContext.Proofs.Text.Lines
import SignatureContext.Proofs.Barrel.Statement
import SignatureContext.Proofs.Barrel.Comment
import SignatureContext.Proofs.Barrel.Layout
import SignatureContext.Proofs.Path.Return
import SignatureContext.Proofs.Text.Pattern
import SignatureContext.Proofs.Scan
