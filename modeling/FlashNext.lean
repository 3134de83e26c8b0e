import FlashNext.Data.Dict
import FlashNext.Machine.Run
import FlashNext.ColdPool.State
import FlashNext.ColdPool.Tables
import FlashNext.ColdPool.Shrink
import FlashNext.ColdPool.Hook
import FlashNext.Data.Placement
import FlashNext.ColdPool.Invariant
import FlashNext.ColdPool.StagingInvariant
import FlashNext.ColdPool.HookInvariant
import FlashNext.ColdPool.Layers
import FlashNext.ColdPool.Runs
import FlashNext.ColdPool.ShrinkBytes
import FlashNext.ColdPool.Shrunk
import FlashNext.ColdPool.RoutingSafety
import FlashNext.ColdPool.SlotConservation
import FlashNext.ColdPool.Demotion
import FlashNext.ColdPool.Gate
import FlashNext.ColdPool.GateFrame
import FlashNext.ColdPool.Identity
import FlashNext.Ple.Json
import FlashNext.Ple.Sidecar
import FlashNext.Ple.HostTable
import FlashNext.Ple.MissingTable
import FlashNext.Ple.Shards
import FlashNext.Ple.Boots
import FlashNext.Ple.Copies
import FlashNext.Ple.CrashSafety
import FlashNext.Data.Stores
import FlashNext.Qsa.Prefill
import FlashNext.Qsa.SplitK
import FlashNext.Qsa.Logits
import FlashNext.Data.Ragged
import FlashNext.NGram.Hash
import FlashNext.ColdPool.Lanes
import FlashNext.ColdPool.Columns
import FlashNext.ColdPool.ColumnRuns
import FlashNext.ColdPool.LateColumns
import FlashNext.ColdPool.Ticks
import FlashNext.ColdPool.DemotionWindow
import FlashNext.ColdPool.Turns
import FlashNext.Data.Recency
import FlashNext.Data.Fifo
import FlashNext.Data.Ranking
import FlashNext.ColdPool.StagingOrder
import FlashNext.ColdPool.DemandFirst
import FlashNext.ColdPool.Votes
import FlashNext.ColdPool.Recency
import FlashNext.ColdPool.ShrinkLoop
import FlashNext.ColdPool.ByteExact
import FlashNext.ColdPool.InventoryGate
import FlashNext.ColdPool.ShrinkRefusals
import FlashNext.Ple.SealGate
import FlashNext.ColdPool.VoteAlignment
import FlashNext.NGram.Batch
import FlashNext.NGram.Rows
import FlashNext.NGram.Windows
import FlashNext.NGram.Chunking
import FlashNext.Data.Slots
import FlashNext.Mamba.Checkpoint
import FlashNext.Mamba.Snapshots
import FlashNext.Mamba.Transfers
import FlashNext.Mamba.History
import FlashNext.Ple.Arrival
import FlashNext.Mamba.Footprint
import FlashNext.Mamba.ErrorBound
import FlashNext.NGram.Tables
import FlashNext.NGram.HashBounds
import FlashNext.Data.Compaction
import FlashNext.Qsa.Expand
import FlashNext.Qsa.ExpandAgrees
import FlashNext.Data.Words
import FlashNext.Ple.TablePath
import FlashNext.Ple.SidecarTotal
import FlashNext.Qsa.Decode
import FlashNext.Qsa.PagedDecode
import FlashNext.Ple.Reloads
import FlashNext.NGram.ShortConv
import FlashNext.NGram.Layouts
import FlashNext.NGram.Passes
import FlashNext.NGram.Tracked
import FlashNext.NGram.PrefixStates
import FlashNext.Data.Selection
import FlashNext.Draft.TokenMap
import FlashNext.ExpertTier.LayerTier
import FlashNext.ExpertTier.Remap
import FlashNext.Data.Texts
import FlashNext.Install.Hooks
import FlashNext.Install.Anchors
import FlashNext.Install.Atomicity
import FlashNext.Data.Ledger
import FlashNext.Pool.Requests
import FlashNext.Pool.Allocation
import FlashNext.Pool.Serving
import FlashNext.Pool.Ownership
import FlashNext.Pool.Runs
import FlashNext.Data.Assign
import FlashNext.Pool.SlotStates
import FlashNext.Pool.Snapshots
import FlashNext.Pool.SlotRuns
import FlashNext.Pool.Deferred
import FlashNext.Data.Storage
import FlashNext.Kv.Layouts
import FlashNext.Kv.Pools
import FlashNext.Kv.Moves
import FlashNext.Kv.Runs
import FlashNext.Kv.Offload
import FlashNext.Data.Regions
import FlashNext.Kv.Workspace
import FlashNext.Machine.Collective
import FlashNext.Data.Reduction
import FlashNext.Ple.Ranks
import FlashNext.Ple.Lookup
import FlashNext.Ple.Prefetch
import FlashNext.Ple.Batches
import FlashNext.Ple.Decoder
import FlashNext.Ple.Completion
import FlashNext.Qsa.Selection
import FlashNext.Routing.Grouped
import FlashNext.Routing.SharedSlots
import FlashNext.Routing.Dispatch
