import MoneyMarket.Event.Json
import MoneyMarket.Locks
import MoneyMarket.Market.Json
import MoneyMarket.Price.Oracle
import MoneyMarket.Proofs.Controller.Accrual
import MoneyMarket.Proofs.Controller.Appraisal
import MoneyMarket.Proofs.Controller.Atomicity
import MoneyMarket.Proofs.Controller.Caps
import MoneyMarket.Proofs.Controller.Ceiling
import MoneyMarket.Proofs.Controller.Entering
import MoneyMarket.Proofs.Controller.Incentive
import MoneyMarket.Proofs.Controller.Leaving
import MoneyMarket.Proofs.Controller.Pledges
import MoneyMarket.Proofs.Controller.Recovery
import MoneyMarket.Proofs.Controller.Requests
import MoneyMarket.Proofs.Controller.Rights
import MoneyMarket.Proofs.Controller.Settings
import MoneyMarket.Proofs.Controller.Settlement
import MoneyMarket.Proofs.Controller.Solvency
import MoneyMarket.Proofs.Controller.Unbooked
import MoneyMarket.Proofs.Controller.Unsecured
import MoneyMarket.Proofs.Conversions
import MoneyMarket.Proofs.Decimals
import MoneyMarket.Proofs.Locks.Waiting
import MoneyMarket.Proofs.Market.Backing
import MoneyMarket.Proofs.Market.CollateralCap
import MoneyMarket.Proofs.Market.Index
import MoneyMarket.Proofs.Market.Rebasing
import MoneyMarket.Proofs.Market.Redeeming
import MoneyMarket.Proofs.Market.Repayment
import MoneyMarket.Proofs.Market.Replay
import MoneyMarket.Proofs.Market.RoundTrips
import MoneyMarket.Proofs.PlainDecimals
import MoneyMarket.Proofs.Price.AgeLimits
import MoneyMarket.Proofs.Price.Caching
import MoneyMarket.Proofs.Price.Quoting
import MoneyMarket.Proofs.Storage
import MoneyMarket.Proofs.SupplyRate
