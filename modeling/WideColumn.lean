import WideColumn.Value.Display
import WideColumn.Rendering.Request
import WideColumn.Format.Kind
import WideColumn.Session.Step
import WideColumn.Proofs.Cursor.Delivery
import WideColumn.Proofs.Planning.Answers
import WideColumn.Proofs.Scan.Interleaved
import WideColumn.Proofs.Store.Queries
import WideColumn.Proofs.Planning.Execution
import WideColumn.Proofs.Cursor.Draining
import WideColumn.Proofs.Cursor.Failure
import WideColumn.Proofs.Cursor.PageCap
import WideColumn.Proofs.Cursor.Ending
import WideColumn.Proofs.Store.Lookup
import WideColumn.Proofs.Session.Records
import WideColumn.Proofs.Cursor.Ordering
import WideColumn.Proofs.Rendering.Text
import WideColumn.Proofs.Rendering.Words
import WideColumn.Proofs.Rendering.Reading
import WideColumn.Proofs.Planning.Carried
import WideColumn.Proofs.Session.Catalogs
import WideColumn.Proofs.Session.Forgetting
import WideColumn.Proofs.Value.KeyForm
import WideColumn.Proofs.Store.Ledger
import WideColumn.Proofs.Store.Maps
import WideColumn.Proofs.Session.Together
import WideColumn.Proofs.Planning.Compilation
import WideColumn.Proofs.Planning.Choice
import WideColumn.Proofs.Value.Kept
import WideColumn.Proofs.Value.Normal
import WideColumn.Proofs.Scan.Preorder
import WideColumn.Proofs.Scan.Ties
import WideColumn.Proofs.Catalog.Properties
import WideColumn.Proofs.Scan.WriteOrder
import WideColumn.Proofs.Planning.Threshold
import WideColumn.Proofs.Condition.Mentions
import WideColumn.Proofs.Rendering.Wordwise
import WideColumn.Proofs.Rendering.Placeholders
import WideColumn.Proofs.Rendering.Renaming
import WideColumn.Proofs.Condition.Flattening
import WideColumn.Proofs.Planning.Building
import WideColumn.Proofs.Cursor.States
import WideColumn.Proofs.Cursor.Exhaustion
import WideColumn.Proofs.Cursor.InSession
