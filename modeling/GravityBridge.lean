import GravityBridge.App.MinCommission
import GravityBridge.Auctions.Bidding
import GravityBridge.Auctions.Export
import GravityBridge.Contract.Normalization
import GravityBridge.Contract.Reentrancy
import GravityBridge.Keeper.Airdrop
import GravityBridge.Keeper.AttestationMigration
import GravityBridge.Keeper.BalanceInvariant
import GravityBridge.Keeper.BatchFees
import GravityBridge.Keeper.BatchTimeout
import GravityBridge.Keeper.CallWindow
import GravityBridge.Keeper.ChainFee
import GravityBridge.Keeper.Classification
import GravityBridge.Keeper.ConfirmGroups
import GravityBridge.Keeper.FirstVoter
import GravityBridge.Keeper.ForwardQueue
import GravityBridge.Keeper.GenesisRoundTrip
import GravityBridge.Keeper.LogicCalls
import GravityBridge.Keeper.PoolOrder
import GravityBridge.Keeper.Recovery
import GravityBridge.Keeper.Rollback
import GravityBridge.Keeper.TokenRegistry
import GravityBridge.Orchestrator.BatchRelaying
import GravityBridge.Orchestrator.OracleResync
import GravityBridge.Orchestrator.PowerDiff
import GravityBridge.Types.ClaimAmbiguity
import GravityBridge.Types.EmbeddedAddress
