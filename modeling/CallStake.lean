import CallStake.Shared.MultisigProtocol
import CallStake.StakeVault.Solvency
import CallStake.StakeVault.Reversal
import CallStake.StakeVault.Gate
import CallStake.StakeVault.Batch
import CallStake.StakeVault.FeeAtomicity
import CallStake.StakeVault.Withdrawals
import CallStake.StakeVault.VotingPower
import CallStake.StakeVault.Reentrancy
import CallStake.StakeVault.RewardAccounting
import CallStake.StakeVault.EmergencySafety
import CallStake.StakeVault.Migration
import CallStake.Governance.Privilege
import CallStake.Governance.AdminTimelock
import CallStake.Governance.TakesEffect
import CallStake.Governance.Vesting
import CallStake.Governance.Verdict
import CallStake.Governance.Outcomes
import CallStake.Governance.Swallowed
import CallStake.Governance.Delegation
import CallStake.Governance.Finality
import CallStake.Governance.TreasuryBudgets
import CallStake.Governance.Stash
import CallStake.Governance.ConvictionFunding
import CallStake.Governance.Refills
import CallStake.Governance.Weights
import CallStake.Governance.Authorities
import CallStake.Governance.CrossApproval
import CallStake.FeeCollector.Audit
import CallStake.FeeCollector.Claims
import CallStake.FeeCollector.Rates
import CallStake.FeeCollector.Waterfall
import CallStake.FeeCollector.Retries
import CallStake.FeeCollector.Earnings
import CallStake.Common.CommitReveal
import CallStake.Common.TimelockedProtocol
import CallStake.Shared.CapabilityDelegation
import CallStake.Bridge.Quorum
import CallStake.Bridge.Burned
import CallStake.Bridge.Limits
import CallStake.Bridge.Delivery
import CallStake.Bridge.Dilution
import CallStake.Oracle.Majority
import CallStake.TradeExecutor.Fills
import CallStake.TradeExecutor.Custody
import CallStake.TradeExecutor.Exposure
import CallStake.TradeExecutor.Apart
import CallStake.AutoTrade.Slices
import CallStake.StakeVault.FeeTiming
import CallStake.StakeVault.Payloads
import CallStake.AutoTrade.Exits
import CallStake.SignalRegistry.Awards
import CallStake.SignalRegistry.TopList
import CallStake.UserPortfolio.Legacy
import CallStake.UserPortfolio.Caps
import CallStake.UserPortfolio.Reporting
import CallStake.TradeExecutor.Awaiting
import CallStake.Governance.Elections
import CallStake.Common.ApyMath
import CallStake.Bridge.FeeBounds
import CallStake.Common.AmmRoutes
import CallStake.Oracle.Quorum
import CallStake.Oracle.ConversionCache
import CallStake.Oracle.OptimalPaths
import CallStake.FeeCollector.Custody
import CallStake.StakeVault.Custody
import CallStake.Governance.Content
