import SearchWire.Client.Client
import SearchWire.Response.Metric
import SearchWire.Response.Bucket
import SearchWire.Proofs.Request.Refusal
import SearchWire.Proofs.Text.Utf8
import SearchWire.Proofs.Json.Outcome
import SearchWire.Proofs.Json.Token
import SearchWire.Proofs.Json.Scanning
import SearchWire.Proofs.Json.Quoting
import SearchWire.Proofs.Json.WrittenNumber
import SearchWire.Proofs.Json.Written
import SearchWire.Proofs.Json.ReadBack
import SearchWire.Proofs.Bulk.Framing
import SearchWire.Proofs.Json.Spans
import SearchWire.Proofs.Bulk.Outcomes
import SearchWire.Proofs.Bulk.Isolation
import SearchWire.Proofs.Text.Named
import SearchWire.Proofs.Json.ObjectText
import SearchWire.Proofs.Response.RawResults
import SearchWire.Proofs.Response.SearchBody
import SearchWire.Proofs.Response.BucketBody
import SearchWire.Proofs.Json.Compose
import SearchWire.Proofs.Response.ResultTree
import SearchWire.Proofs.Response.ResultPath
import SearchWire.Proofs.Binary64.Distinct
import SearchWire.Proofs.Client.Calls
import SearchWire.Proofs.Json.Determined
import SearchWire.Proofs.Json.Slots
import SearchWire.Proofs.Request.Parts
import SearchWire.Proofs.Request.QueryForm
import SearchWire.Proofs.Request.AggregationForm
import SearchWire.Proofs.Request.Relocation
import SearchWire.Proofs.Request.SearchForm
import SearchWire.Proofs.Request.Entries
import SearchWire.Proofs.Bulk.DefaultIndex
import SearchWire.Proofs.Client.DefaultIndex
import SearchWire.Proofs.Client.Endpoint
import SearchWire.Proofs.Client.Filling
import SearchWire.Proofs.Request.Address
import SearchWire.Proofs.Request.OwnFindings
import SearchWire.Proofs.Request.Apart
import SearchWire.Proofs.Request.QueryRules
import SearchWire.Proofs.Request.FatalCount
import SearchWire.Proofs.Json.Lookup
import SearchWire.Proofs.Request.Locations
import SearchWire.Proofs.Request.Doubles
import SearchWire.Proofs.Bulk.Violations
import SearchWire.Proofs.Json.Record
import SearchWire.Proofs.Bulk.ItemBody
import SearchWire.Proofs.Bulk.Classification
import SearchWire.Proofs.Response.BucketMembers
import SearchWire.Proofs.Response.KeyedBuckets
import SearchWire.Proofs.Json.Nesting
import SearchWire.Proofs.Json.Undamaged
import SearchWire.Proofs.Json.Contents
import SearchWire.Proofs.Response.StoreErrors
import SearchWire.Proofs.Client.ErrorBody
import SearchWire.Proofs.Response.Percentiles
import SearchWire.Proofs.Request.EmptyRange
import SearchWire.Proofs.Request.Additions
import SearchWire.Proofs.Toml.Quoting
import SearchWire.Proofs.Toml.Settings
import SearchWire.Proofs.Client.SavedConfig
import SearchWire.Proofs.Calendar.WrittenOrder
import SearchWire.Proofs.Validation.History
import SearchWire.Proofs.Request.Counts
