import InventoryBot.Lib.Fifo
import InventoryBot.Menu.QuantityLedger
import InventoryBot.Menu.CostLedger
import InventoryBot.Menu.Allocation
import InventoryBot.Menu.ResetRoundTrip
import InventoryBot.Menu.Divisors
import InventoryBot.Menu.CogsLinks
import InventoryBot.System.Collection
import InventoryBot.System.Replication
import InventoryBot.System.Mirror
import InventoryBot.System.Deletions
import InventoryBot.Events.Index
import InventoryBot.System.GoodsDeletion
import InventoryBot.System.FinancialDeletion
import InventoryBot.Menu.CreditNotes
import InventoryBot.Menu.Splits
import InventoryBot.Lib.Agree
import InventoryBot.Menu.OtherIds
import InventoryBot.Menu.Retry
import InventoryBot.System.Encounter
import InventoryBot.System.Arrivals
import InventoryBot.System.Memory
import InventoryBot.Lib.StableSort
import InventoryBot.Menu.FifoOrder
import InventoryBot.System.CogsDeletion
import InventoryBot.System.ManualChanges
import InventoryBot.Events.EventHandler
import InventoryBot.Menu.Locks
import InventoryBot.System.Gate
import InventoryBot.System.Outcome
import InventoryBot.System.Frontier
import InventoryBot.Menu.ListingOrder
import InventoryBot.Bkper.Json
import InventoryBot.Menu.Adjustments
import InventoryBot.Menu.AuditTrail
import InventoryBot.Lib.Comparator
import InventoryBot.Menu.FifoComparator
import InventoryBot.Menu.Bot
import InventoryBot.System.Scope
import InventoryBot.System.OwnRecords
import InventoryBot.System.Stepwise
import InventoryBot.System.Stock
import InventoryBot.Menu.AccountView
import InventoryBot.Menu.Rebuild
import InventoryBot.System.Parallel
import InventoryBot.Menu.BotView
import InventoryBot.Menu.Session
import InventoryBot.Events.Answer
import InventoryBot.System.Answers
import InventoryBot.System.Turnover
import InventoryBot.Lib.Delivery
import InventoryBot.System.AnyOrder
import InventoryBot.Lib.Calendar
import InventoryBot.Lib.Numerals
import InventoryBot.Menu.Dates
import InventoryBot.System.Dates
