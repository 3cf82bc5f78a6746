import Spoiler.Store.Run
import Spoiler.Proofs.Ledger
import Spoiler.Proofs.Lifecycle
import Spoiler.Proofs.Answers
import Spoiler.Proofs.Menu
import Spoiler.Proofs.Accounts
import Spoiler.Proofs.Users
import Spoiler.Proofs.Tokens
import Spoiler.Proofs.Passwords
import Spoiler.Proofs.Restaurants
import Spoiler.Proofs.Ownership
import Spoiler.Store.Pool
import Spoiler.Proofs.Inside
import Spoiler.Proofs.Windows
import Spoiler.Proofs.Phases
import Spoiler.Proofs.Trails
import Spoiler.Proofs.Serial
import Spoiler.Php.Digits
import Spoiler.Proofs.Hours
import Spoiler.Proofs.Distinct
import Spoiler.Proofs.References
import Spoiler.App.Catalogue
import Spoiler.Proofs.Overlap
import Spoiler.Proofs.Likes
import Spoiler.Proofs.Races
import Spoiler.Proofs.Facebook
import Spoiler.Proofs.Subscriptions
import Spoiler.Store.Transaction
import Spoiler.Proofs.Transactions
import Spoiler.Php.Similar
import Spoiler.App.Pages
import Spoiler.Proofs.Lookups
import Spoiler.Proofs.Search
import Spoiler.Proofs.Filter
import Spoiler.Proofs.Updates
import Spoiler.Proofs.Retry
import Spoiler.Proofs.Lasting
import Spoiler.Proofs.Together
import Spoiler.Proofs.Interleaved
import Spoiler.Proofs.Announcements
import Spoiler.Proofs.Nulls
import Spoiler.Proofs.Owners
import Spoiler.App.Router
import Spoiler.Proofs.Columns
import Spoiler.Proofs.Routing
import Spoiler.App.Indexes
import Spoiler.Store.Blind
import Spoiler.App.Facebook
import Spoiler.Proofs.Blindness
import Spoiler.Proofs.Callback
import Spoiler.Proofs.Secrets
import Spoiler.Proofs.Replay
