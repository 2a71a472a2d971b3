import AeroSLS.Cap.DevMmap
import AeroSLS.Cap.Exit
import AeroSLS.Consensus.Discovery
import AeroSLS.Consensus.VoteCount
import AeroSLS.Frames.Accounts
import AeroSLS.Ipc.UserPorts
import AeroSLS.Mvcc.Conflict
import AeroSLS.Mvcc.Journal
import AeroSLS.Mvcc.Unique
import AeroSLS.Net.Reassembly
import AeroSLS.Posix.Contents
import AeroSLS.Posix.EndRuns
import AeroSLS.Posix.Interrupted
import AeroSLS.Posix.Rights
import AeroSLS.Record.Fields
import AeroSLS.Replica.Push
import AeroSLS.Sql.Aggregate
import AeroSLS.Sql.Like
import AeroSLS.Sql.SpliceTokens
import AeroSLS.Sql.SubqueryMeaning
import AeroSLS.Stream.Flush
