import TradeReport.Binary64.Reading
import TradeReport.Calendar
import TradeReport.CommandLine
import TradeReport.Config.Reader
import TradeReport.Decimal.Display
import TradeReport.Fees
import TradeReport.Http.Server
import TradeReport.Instance
import TradeReport.Json.Writer
import TradeReport.KillSwitch.Monitor
import TradeReport.Main
import TradeReport.Metrics.Exposition
import TradeReport.Performance
import TradeReport.Portfolio
import TradeReport.Report.Layout
import TradeReport.Service
import TradeReport.Source
import TradeReport.Store
import TradeReport.Text.Grid
import TradeReport.Toml.Reader
import TradeReport.Trade.Record
import TradeReport.Proofs.Decimal.Nearest
import TradeReport.Proofs.Decimal.Text
import TradeReport.Proofs.Json.Scan
import TradeReport.Proofs.Json.RoundTrip
import TradeReport.Proofs.Trade.Record
import TradeReport.Proofs.Decimal.Rounded
import TradeReport.Proofs.Decimal.Arithmetic
import TradeReport.Proofs.Decimal.Division
import TradeReport.Proofs.Chronology
import TradeReport.Proofs.Decimal.Operation
import TradeReport.Proofs.Fees
import TradeReport.Proofs.Listing
import TradeReport.Proofs.Performance.Agreement
import TradeReport.Proofs.Performance.Exact
import TradeReport.Proofs.Reporting
import TradeReport.Proofs.Store
import TradeReport.Proofs.WindowReport
import TradeReport.Proofs.Overflow
import TradeReport.Proofs.FirstFailure
import TradeReport.Proofs.Service
import TradeReport.Proofs.KillSwitch
import TradeReport.Proofs.Decimal.Mean
import TradeReport.Proofs.AverageReturn
import TradeReport.Proofs.Json.CutOff
import TradeReport.Proofs.Store.Log
import TradeReport.Proofs.Store.Disk
import TradeReport.Proofs.Store.DayFile
import TradeReport.Proofs.Store.Recording
import TradeReport.Proofs.Portfolio
import TradeReport.Proofs.FullReport
import TradeReport.Proofs.Reconciliation
import TradeReport.Proofs.Store.Append
import TradeReport.Proofs.Pricing
import TradeReport.Proofs.FeeAccount
import TradeReport.Proofs.Decimal.Calculation
import TradeReport.Proofs.FeeViews
import TradeReport.Proofs.Rows
import TradeReport.Proofs.LatestPrice
import TradeReport.Proofs.Store.Runs
import TradeReport.Proofs.Isolation
import TradeReport.Proofs.Performance.AveragePrice
import TradeReport.Proofs.Portfolio.Agreement
import TradeReport.Proofs.Portfolio.Order
import TradeReport.Proofs.Metrics
import TradeReport.Proofs.Service.Readings
import TradeReport.Proofs.Performance.BaseRatio
import TradeReport.Proofs.Decimal.Display
import TradeReport.Proofs.RecentTrades
import TradeReport.Proofs.Decimal.Percent
import TradeReport.Proofs.Trade.Fields
import TradeReport.Proofs.Newest
import TradeReport.Proofs.Store.Calls
import TradeReport.Proofs.RecordedHoldings
import TradeReport.Proofs.Decimal.Inverse
import TradeReport.Proofs.CurrentPrice
import TradeReport.Proofs.Chronology.Stable
import TradeReport.Proofs.FeeBook
import TradeReport.Proofs.Portfolio.Marks
import TradeReport.Proofs.Document
import TradeReport.Proofs.Symbols
import TradeReport.Proofs.Duration
import TradeReport.Proofs.Text.Digits
