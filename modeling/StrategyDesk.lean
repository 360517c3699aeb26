import StrategyDesk.Arguments
import StrategyDesk.Cli
import StrategyDesk.Engine.Call
import StrategyDesk.Engine.Message
import StrategyDesk.Engine.Sweep
import StrategyDesk.Failure
import StrategyDesk.Flow.Fetch
import StrategyDesk.Flow.Model
import StrategyDesk.Form.Check
import StrategyDesk.Form.Fault
import StrategyDesk.Form.Ids
import StrategyDesk.Form.Model
import StrategyDesk.Form.Supply
import StrategyDesk.Form.Vocabulary
import StrategyDesk.Generation.Answer
import StrategyDesk.Generation.Client
import StrategyDesk.Generation.Fences
import StrategyDesk.Generation.Generate
import StrategyDesk.Generation.Prompt
import StrategyDesk.Generation.Provider
import StrategyDesk.Graph.Acceptance
import StrategyDesk.Graph.Model
import StrategyDesk.Json.Basic
import StrategyDesk.Json.Extent
import StrategyDesk.Json.Printer
import StrategyDesk.Json.Reader
import StrategyDesk.Json.Sameness
import StrategyDesk.Json.Spoken
import StrategyDesk.Log
import StrategyDesk.Main
import StrategyDesk.Net.Address
import StrategyDesk.Net.Host
import StrategyDesk.Net.Path
import StrategyDesk.Notice
import StrategyDesk.Number.Decimal
import StrategyDesk.Number.Double
import StrategyDesk.Number.Numeral
import StrategyDesk.Number.Power
import StrategyDesk.Number.Shortest
import StrategyDesk.Proofs.AddressTexts
import StrategyDesk.Proofs.Agreement
import StrategyDesk.Proofs.AssignmentRequests
import StrategyDesk.Proofs.Atomicity
import StrategyDesk.Proofs.Commands
import StrategyDesk.Proofs.Course
import StrategyDesk.Proofs.Descriptions
import StrategyDesk.Proofs.Digits
import StrategyDesk.Proofs.Endings
import StrategyDesk.Proofs.Exchanges
import StrategyDesk.Proofs.FencedAnswers
import StrategyDesk.Proofs.FetchListing
import StrategyDesk.Proofs.Fields
import StrategyDesk.Proofs.FiniteNumbers
import StrategyDesk.Proofs.FirstFault
import StrategyDesk.Proofs.FlowAcceptance
import StrategyDesk.Proofs.FlowDumps
import StrategyDesk.Proofs.FlowShape
import StrategyDesk.Proofs.FormShape
import StrategyDesk.Proofs.Generating
import StrategyDesk.Proofs.GivenIds
import StrategyDesk.Proofs.History
import StrategyDesk.Proofs.IdOrder
import StrategyDesk.Proofs.Independence
import StrategyDesk.Proofs.JsonLevels
import StrategyDesk.Proofs.JsonScalars
import StrategyDesk.Proofs.JsonStrings
import StrategyDesk.Proofs.JsonTexts
import StrategyDesk.Proofs.KeptLimits
import StrategyDesk.Proofs.Keyless
import StrategyDesk.Proofs.LastSaved
import StrategyDesk.Proofs.Limits
import StrategyDesk.Proofs.PrintedNumbers
import StrategyDesk.Proofs.Readings
import StrategyDesk.Proofs.Removing
import StrategyDesk.Proofs.Requests
import StrategyDesk.Proofs.Responses
import StrategyDesk.Proofs.Rounding
import StrategyDesk.Proofs.Running
import StrategyDesk.Proofs.Screening
import StrategyDesk.Proofs.Secrecy
import StrategyDesk.Proofs.Sessions
import StrategyDesk.Proofs.Settling
import StrategyDesk.Proofs.ShortestDigits
import StrategyDesk.Proofs.Soundness
import StrategyDesk.Proofs.Starting
import StrategyDesk.Proofs.Stopping
import StrategyDesk.Proofs.StoredGraphs
import StrategyDesk.Proofs.Stumbling
import StrategyDesk.Proofs.Tables
import StrategyDesk.Proofs.Trimming
import StrategyDesk.Proofs.TypedDumps
import StrategyDesk.Proofs.TypedFlows
import StrategyDesk.Proofs.TypedForms
import StrategyDesk.Proofs.UnknownIds
import StrategyDesk.Proofs.Unshown
import StrategyDesk.Proofs.UrlHosts
import StrategyDesk.Proofs.Verdicts
import StrategyDesk.Reading
import StrategyDesk.Sentence
import StrategyDesk.Service.Command
import StrategyDesk.Service.Response
import StrategyDesk.Service.Route
import StrategyDesk.Service.Serve
import StrategyDesk.Setup
import StrategyDesk.Store.Assigning
import StrategyDesk.Store.Desk
import StrategyDesk.Store.Limit
import StrategyDesk.Store.Operation
import StrategyDesk.Store.Removal
import StrategyDesk.Store.RunState
import StrategyDesk.Store.Session
import StrategyDesk.Store.Strategies
import StrategyDesk.Store.Tables
import StrategyDesk.Store.Wallets
import StrategyDesk.Text.Blank
import StrategyDesk.Text.Case
import StrategyDesk.Text.Cased
import StrategyDesk.Text.Digit
import StrategyDesk.Text.Encoding
import StrategyDesk.Text.Points
import StrategyDesk.Text.Quoted
