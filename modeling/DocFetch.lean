import DocFetch.Bench.Homes
import DocFetch.Bench.Stores
import DocFetch.Main
import DocFetch.Proofs.Command.Incoming
import DocFetch.Proofs.Config.Catalog
import DocFetch.Proofs.Config.Slugs
import DocFetch.Proofs.Export.Calls
import DocFetch.Proofs.Export.Closing
import DocFetch.Proofs.Export.Formats
import DocFetch.Proofs.Export.Recovery
import DocFetch.Proofs.Export.Sharing
import DocFetch.Proofs.Expression.Quotes
import DocFetch.Proofs.Fetch.Effects
import DocFetch.Proofs.Fetch.Outcomes
import DocFetch.Proofs.Fetch.Retrying
import DocFetch.Proofs.Home.Logs
import DocFetch.Proofs.Home.Tails
import DocFetch.Proofs.Job.Closings
import DocFetch.Proofs.Job.Interleaving
import DocFetch.Proofs.Job.Places
import DocFetch.Proofs.Pools.Lapses
import DocFetch.Proofs.Record.Reading
import DocFetch.Proofs.Record.Updates
import DocFetch.Proofs.Store.Edits
import DocFetch.Proofs.Store.Memory
import DocFetch.Proofs.Store.Mongo
import DocFetch.Proofs.Store.Replacing
import DocFetch.Proofs.Store.Reporting
import DocFetch.Proofs.Store.Rows
import DocFetch.Proofs.Store.Sqlite
import DocFetch.Proofs.World.Connections
import DocFetch.Report
