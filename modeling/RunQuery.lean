import RunQuery.Bench
import RunQuery.CommandLine.Rehearsal
import RunQuery.Http.Message
import RunQuery.Main
import RunQuery.Proofs.Calendar.Direct
import RunQuery.Proofs.Calendar.Fetching
import RunQuery.Proofs.Calendar.Independence
import RunQuery.Proofs.Calendar.Joined
import RunQuery.Proofs.Calendar.Query
import RunQuery.Proofs.Calendar.Range
import RunQuery.Proofs.Calendar.Records
import RunQuery.Proofs.Calendar.Sources
import RunQuery.Proofs.Calendar.Verdict
import RunQuery.Proofs.Canonical
import RunQuery.Proofs.CommandLine.Sorts
import RunQuery.Proofs.CommandLine.Words
import RunQuery.Proofs.Json.Message
import RunQuery.Proofs.Loading
import RunQuery.Proofs.MsgPack.Message
import RunQuery.Proofs.MsgPack.Scanner
import RunQuery.Proofs.Names.Loads
import RunQuery.Proofs.Navigator.Bound
import RunQuery.Proofs.Navigator.Selection
import RunQuery.Proofs.Navigator.Sound
import RunQuery.Proofs.Predicate.Comparison
import RunQuery.Proofs.Predicate.Conjoin
import RunQuery.Proofs.Predicate.Edit
import RunQuery.Proofs.Recast
import RunQuery.Proofs.Slot.Accounts
import RunQuery.Proofs.Slot.Supersession
import RunQuery.Proofs.Sort.Sent
import RunQuery.Proofs.Store.Bounds
import RunQuery.Proofs.Store.Conjunction
import RunQuery.Proofs.Store.Consistency
import RunQuery.Proofs.Store.History
import RunQuery.Proofs.Store.Memory
import RunQuery.Proofs.Store.Order
import RunQuery.Proofs.Store.Paging
import RunQuery.Proofs.Store.Refusal
import RunQuery.Proofs.Store.Token
import RunQuery.Proofs.Store.Validated
import RunQuery.Proofs.Table.Course
import RunQuery.Proofs.Table.Origin
import RunQuery.Proofs.Table.Outcome
import RunQuery.Proofs.Table.Question
import RunQuery.Proofs.Table.Refusal
import RunQuery.Proofs.Unknown
import RunQuery.Proofs.Wire.Message
import RunQuery.Proofs.Wire.Predicate
import RunQuery.Proofs.Wire.Value
import RunQuery.Slot.Bench
