import MallChain.Governance.Authority
import MallChain.Governance.Settlement
import MallChain.Governance.Atomicity
import MallChain.Governance.Lifecycle
import MallChain.Governance.Tally
import MallChain.Dex.Solvency
import MallChain.Dex.ShareValue
import MallChain.Mlcoin.Conservation
import MallChain.Mlcoin.Prices
import MallChain.Mlcoin.Supply
import MallChain.Mlcoin.Fees
import MallChain.Mlcoin.Reserve
import MallChain.Mlcoin.Vesting
import MallChain.Mlcoin.Stakes
import MallChain.Mlcoin.Emission
import MallChain.Mlcoin.Genesis
import MallChain.Marketplace.Payouts
import MallChain.Crosschain.Escrow
import MallChain.Crosschain.Settlement
import MallChain.Crosschain.Binding
import MallChain.Crosschain.Genesis
import MallChain.Wasm.Storage
import MallChain.Wasm.Gas
import MallChain.Wasmbridge.Agreement
import MallChain.Backend.Conversion
import MallChain.Mines.Stakes
import MallChain.Mines.Budget
import MallChain.Mines.Rewards
import MallChain.Backend.Referrals
import MallChain.Backend.Idempotency
import MallChain.Backend.Payout
import MallChain.Backend.Settings
import MallChain.Mines.Votes
import MallChain.Mines.Limits
import MallChain.Trade.Reconciliation
import MallChain.Trade.Credits
import MallChain.Trade.Liquidity
import MallChain.Cashout.Gates
import MallChain.Cashout.Resolution
import MallChain.Backend.Relay
import MallChain.Backend.BackupCodes
import MallChain.Backend.Lockout
import MallChain.Backend.Signatures
import MallChain.Backend.Revocation
import MallChain.Mines.History
import MallChain.Account.Isolation
import MallChain.Account.Erasure
import MallChain.Account.Transparency
import MallChain.Account.Freshness
import MallChain.Dex.Drained
import MallChain.Dex.FreshIds
import MallChain.Ante.Helpers
import MallChain.Mallpoints.Genesis
import MallChain.Edu.Genesis
import MallChain.Trade.Conversion
import MallChain.Trade.Payments
import MallChain.Badge.Issuance
import MallChain.Mines.Noninterference
import MallChain.Vault.Phases
import MallChain.Mlcoin.Rewards
import MallChain.Wasmbridge.Allowance
import MallChain.Wasm.Genesis
import MallChain.Backend.CircuitBreaker
import MallChain.Dex.Quote
import MallChain.Governance.Genesis
import MallChain.Backend.Positions
import MallChain.Cashout.Receipts
import MallChain.Mlcoin.Schedule
import MallChain.Mlcoin.Snapshots
import MallChain.Mallpoints.Settlement
import MallChain.Governance.Outcomes
import MallChain.Governance.Monotone
import MallChain.Governance.Slashing
import MallChain.Governance.Queries
import MallChain.Marketplace.Failures
import MallChain.Marketplace.Disputes
import MallChain.Crosschain.Proofs
import MallChain.Cashout.Callbacks
import MallChain.Cashout.WeeklyLimit
import MallChain.Backend.Phone
import MallChain.Proto.Messages
import MallChain.Trade.ConversionStatus
import MallChain.Trade.Stranded
import MallChain.Backend.TxHistory
import MallChain.Mines.Penalties
import MallChain.Edu.Bindings
import MallChain.Frontend.Store
import MallChain.Backend.Rooms
import MallChain.Vault.Recovery
import MallChain.Marketplace.Genesis
import MallChain.Account.Encryption
import MallChain.Explorer.Indexer
import MallChain.Frontend.Api
