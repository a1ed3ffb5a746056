import Vocdoni.Tally.Results
import Vocdoni.Tally.Linear
import Vocdoni.IndexerTypes.Json
import Vocdoni.Indexer.State
import Vocdoni.Indexer.EventSink
import Vocdoni.Indexer.Commit
import Vocdoni.Indexer.CommitOrder
import Vocdoni.Indexer.Bootstrap
import Vocdoni.Indexer.LiveTally
import Vocdoni.Indexer.TallySums
import Vocdoni.Indexer.LiveRefinement
import Vocdoni.Indexer.VoteCount
import Vocdoni.Indexer.Refresh
import Vocdoni.Indexer.Reindex
import Vocdoni.Indexer.Atomicity
import Vocdoni.Indexer.Statements
import Vocdoni.Indexer.Monotone
import Vocdoni.Indexer.ResultShape
import Vocdoni.Indexer.PrimaryKeys
import Vocdoni.Indexer.Replay
import Vocdoni.Indexer.ChainRuns
import Vocdoni.Indexer.Queries
import Vocdoni.Crypto.ZkCircuit
import Vocdoni.ApiClient.Vote
