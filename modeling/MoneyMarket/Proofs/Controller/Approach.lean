import MoneyMarket.Proofs.Controller.Entering
import MoneyMarket.Proofs.Controller.Gates
import MoneyMarket.Proofs.Controller.Run

/-! # Dealings up to their gates

Whoever takes something out of the markets is judged on the way, by the
liquidity that a hypothetical change would leave. The change is what the gate
is asked about, and that is planned before the gate, on the same controller.
So a dealing of this kind is cut in two: what leads up to the gate, which
changes nothing, and what is done behind it.
-/

namespace MoneyMarket

open Controller Operation

variable {c c' : Controller} {dealing : Dealing} {u : Unit}

/-! ## Gates and what they are asked -/

/-- A gate that looks at the liquidity of an account, with what it is asked. -/
inductive Gate where
  | redeem (market : MarketId) (redeemer : AccountId) (collateralTokens : Amount)
      (prices : Prices)
  | borrow (market : MarketId) (borrower : AccountId) (borrowAmount : Amount)
      (enteringCollateral : Option Amount) (prices : Prices)
  | transfer (market : MarketId) (source : AccountId) (collateralTokens : Amount)
      (prices : Prices)
  deriving DecidableEq

namespace Gate

def verdict (c : Controller) : Gate → Except ControllerError Verdict
  | .redeem market redeemer collateralTokens prices =>
      c.redeemVerdict market redeemer collateralTokens prices
  | .borrow market borrower borrowAmount enteringCollateral prices =>
      c.borrowVerdict market borrower borrowAmount enteringCollateral prices
  | .transfer market source collateralTokens prices =>
      c.transferVerdict market source collateralTokens prices

def account : Gate → AccountId
  | .redeem _ account .. | .borrow _ account .. | .transfer _ account .. => account

def prices : Gate → Prices
  | .redeem _ _ _ prices | .borrow _ _ _ _ prices | .transfer _ _ _ prices => prices

/-- The change that the gate is asked about. -/
def change : Gate → Hypothetical
  | .redeem market _ redeemTokens _ | .transfer market _ redeemTokens _ =>
      { market, redeemTokens }
  | .borrow market _ borrowAmount enteringCollateral _ =>
      { market, borrowAmount, enteringCollateral }

/-- The liquidity that the gate judges by. -/
def liquidity (c : Controller) (gate : Gate) : Except ControllerError Liquidity :=
  c.liquidityAfter gate.account (some gate.change) gate.prices

/-- Tokens that are no collateral may go without a look at the liquidity. -/
def Idle (c : Controller) : Gate → Prop
  | .redeem market account collateralTokens _ | .transfer market account collateralTokens _ =>
      c.isMember account market = false ∨ collateralTokens = 0
  | .borrow .. => False

/-- Unless there is nothing to judge, a gate lets pass only what leaves nothing
lacking in the liquidity that it judges by. -/
theorem solvent_of_allow {gate : Gate} (hallow : gate.verdict c = .ok .allow) :
    gate.Idle c ∨ ∃ judged, gate.liquidity c = .ok judged ∧ judged.shortfall = 0 := by
  cases gate with
  | redeem => exact (redeemVerdict_eq_allow_iff.mp hallow).2
  | transfer => exact (redeemVerdict_eq_allow_iff.mp (transferVerdict_eq_allow_iff.mp hallow).2).2
  | borrow =>
      obtain ⟨_, _, judged, -, -, -, -, hjudged⟩ := borrowVerdict_eq_allow_iff.mp hallow
      exact .inr ⟨judged, hjudged⟩

end Gate

/-! ## On both sides of a gate -/

/-- A dealing that stands before a gate, with what is left to do behind it. -/
structure Approach where
  gate : Gate
  rest : Operation (List Event)

/-- What is left to do of a borrow. -/
def Operation.settleBorrow (borrower : AccountId) (market : MarketId) (plan : BorrowPlan)
    (entering : Option Amount) : Operation (List Event) := do
  let entered ← if entering.isSome then enterMarket borrower market else pure []
  let events ← onMarket market fun m => m.settleBorrow plan
  return entered ++ events

/-- What is left to do where an account leaves a market. -/
def Operation.settleLeaving (account : AccountId) (market : MarketId) (listing : Listing) :
    Operation (List Event) := do
  let plan ← ControllerError.within market (listing.state.planUnregister account)
  let changes ←
    match plan with
    | some (plan, _) => onMarket market fun m => m.settleRegistration plan
    | none => pure []
  modify fun c => { c with memberships := c.memberships.leave account market }
  return changes ++ [.marketExited market account]

def Approach.complete (approach : Approach) : Operation (List Event) := do
  passGate approach.gate.verdict
  approach.rest

/-- A dealing up to its gate. One that asks no gate about the liquidity is done
to its end. -/
def Dealing.approach : Dealing → Operation (Option Approach)
  | .redeem redeemer market tokens now prices => do
      let plan ← planOn market fun m => m.planRedeem redeemer tokens now
      return some {
        gate := .redeem market redeemer plan.collateralTokensRemoved prices
        rest := onMarket market fun m => m.settleRedeem plan }
  | .redeemUnderlying redeemer market amount now prices => do
      let plan ← planOn market fun m => m.planRedeemUnderlying redeemer amount now
      return some {
        gate := .redeem market redeemer plan.collateralTokensRemoved prices
        rest := onMarket market fun m => m.settleRedeem plan }
  | .transfer source target market tokens prices => do
      let isMember := (← get).isMember target market
      let plan ← planOn market fun m => m.planTransfer source target tokens isMember
      return some {
        gate := .transfer market source plan.collateralTokensRemoved prices
        rest := onMarket market fun m => m.settleMove plan }
  | .borrow borrower market amount now prices => do
      let plan ← planOn market fun m => m.planBorrow borrower amount now
      let entering ←
        if (← get).isMember borrower market then pure none
        else some <$> collateralOnEntry market borrower
      return some {
        gate := .borrow market borrower amount entering prices
        rest := settleBorrow borrower market plan entering }
  | .leaveMarket account market prices => do
      let c ← get
      let listing ← c.listed market
      if !c.isMember account market then return none
      if listing.state.hasDebt account then throw (.rejected .nonzeroBorrowBalance)
      return some {
        gate := .redeem market account (listing.state.collateralTokens account) prices
        rest := settleLeaving account market listing }
  | dealing => do
      dealing.operation
      return none

/-- What is done from an approach on, if there is one. -/
def Approach.finish : Option Approach → Operation Unit
  | some approach => approach.complete.silently
  | none => return ()

/-- A dealing goes up to its gate, passes it and does the rest. -/
theorem Dealing.runOn_operation (dealing : Dealing) (c : Controller) :
    dealing.operation.runOn c = (dealing.approach >>= Approach.finish).runOn c := by
  unfold operation approach
  cases dealing with
  | redeem | redeemUnderlying | transfer =>
      simp only [Operation.redeem, Operation.redeemUnderlying, Operation.transfer, silently,
        Approach.finish, Approach.complete, Gate.verdict, map_bind, bind_assoc, pure_bind]
  | borrow borrower market amount now prices =>
      simp only [Operation.borrow, silently, map_bind, bind_assoc]
      refine congrArg (runOn · c) (bind_congr fun plan => bind_congr fun c => ?_)
      -- what the gate is asked depends on whether the borrower enters
      split <;>
        simp only [Approach.finish, Approach.complete, Gate.verdict, settleBorrow, silently,
          map_bind, bind_assoc, pure_bind]
  | leaveMarket account market prices =>
      simp only [Operation.leaveMarket, silently, map_bind, bind_assoc, runOn_get_bind]
      refine (reads_liftM _).runOn_bind_congr fun listing => ?_
      split
      next => rfl
      next =>
        split
        next => rfl
        next =>
          simp only [Approach.finish, Approach.complete, Gate.verdict, passGate, silently, map_bind,
            bind_assoc, pure_bind, runOn_get_bind]
          exact congrArg (runOn · c) (bind_congr fun verdict => bind_congr fun _ =>
            (map_bind ..).symm)
  | mint | repay | flashloan | enterMarket | enterMarkets | liquidate | addReserves =>
      simp only [Approach.finish, operation, silently, bind_assoc, pure_bind, map_eq_pure_bind]

/-- Where nothing fails behind a gate, the gate decides. -/
theorem Operation.runOn_passGate_bind_fst {α : Type}
    {gate : Controller → Except ControllerError Verdict} {rest : Unit → Operation α}
    (hrest : ∃ a c', (rest ()).runOn c = (.ok a, c')) :
    ((passGate gate >>= rest).silently.runOn c).1 = gate c >>= Verdict.demand := by
  obtain ⟨a, c', hrest⟩ := hrest
  have hsilent : (rest ()).silently.runOn c = (.ok (), c') := runOn_silently_eq_ok.mpr ⟨a, hrest⟩
  rw [passGate, bind_assoc, silently_bind, runOn_get_bind]
  simp only [bind_assoc]
  cases gate c with
  | error e => rfl
  | ok verdict =>
      cases verdict with
      | reject rejection => rfl
      | allow => exact congrArg Prod.fst hsilent

/-! ## The gates of dealings -/

namespace Dealing

/-- A dealing comes to a gate, is let pass, and does the rest. -/
def Passes (dealing : Dealing) (gate : Gate) (c c' : Controller) : Prop :=
  ∃ rest events, dealing.approach.runOn c = (.ok (some ⟨gate, rest⟩), c) ∧
    gate.verdict c = .ok .allow ∧ rest.runOn c = (.ok events, c')

/-- A dealing comes to a gate before anything has changed, and cannot fail
behind it. -/
def ComesTo (dealing : Dealing) (gate : Gate) (c : Controller) : Prop :=
  ∃ rest events c', dealing.approach.runOn c = (.ok (some ⟨gate, rest⟩), c) ∧
    rest.runOn c = (.ok events, c')

variable {gate : Gate}

theorem ComesTo.passes (hgate : dealing.ComesTo gate c)
    (hrun : dealing.operation.runOn c = (.ok u, c')) : dealing.Passes gate c c' := by
  obtain ⟨rest, -, -, happroach, -⟩ := hgate
  rw [runOn_operation, runOn_bind_of_ok happroach] at hrun
  obtain ⟨events, hcomplete⟩ := runOn_silently_eq_ok.mp hrun
  obtain ⟨hallow, hrest⟩ := runOn_passGate_bind_eq_ok.mp hcomplete
  exact ⟨rest, events, happroach, hallow, hrest⟩

/-- A dealing that comes to a gate is decided there. -/
theorem ComesTo.runOn_fst (hgate : dealing.ComesTo gate c) :
    (dealing.operation.runOn c).1 = gate.verdict c >>= Verdict.demand := by
  obtain ⟨rest, events, c', happroach, hrest⟩ := hgate
  rw [runOn_operation, runOn_bind_of_ok happroach]
  exact runOn_passGate_bind_fst ⟨events, c', hrest⟩

variable {account target : AccountId} {market : MarketId} {amount tokens : Amount} {now : UInt64}
  {prices : Prices} {listing : Listing}

theorem redeem_comesTo {plan : RedeemPlan} (hlisted : c.listed? market = some listing)
    (hplan : listing.state.planRedeem account tokens now = .ok plan) :
    (redeem account market tokens now prices).ComesTo
      (.redeem market account plan.collateralTokensRemoved prices) c :=
  ⟨_, _, _, runOn_planOn_bind_eq_ok.mpr ⟨listing, plan, hlisted, hplan, rfl⟩,
    runOn_onMarket_of_listed hlisted⟩

theorem redeemUnderlying_comesTo {plan : RedeemPlan} (hlisted : c.listed? market = some listing)
    (hplan : listing.state.planRedeemUnderlying account amount now = .ok plan) :
    (redeemUnderlying account market amount now prices).ComesTo
      (.redeem market account plan.collateralTokensRemoved prices) c :=
  ⟨_, _, _, runOn_planOn_bind_eq_ok.mpr ⟨listing, plan, hlisted, hplan, rfl⟩,
    runOn_onMarket_of_listed hlisted⟩

theorem transfer_comesTo {plan : MovePlan} (hlisted : c.listed? market = some listing)
    (hplan : listing.state.planTransfer account target tokens (c.isMember target market) =
      .ok plan) :
    (transfer account target market tokens prices).ComesTo
      (.transfer market account plan.collateralTokensRemoved prices) c := by
  unfold ComesTo approach
  rw [runOn_get_bind]
  exact ⟨_, _, _, runOn_planOn_bind_eq_ok.mpr ⟨listing, plan, hlisted, hplan, rfl⟩,
    runOn_onMarket_of_listed hlisted⟩

theorem borrow_comesTo_of_member {plan : BorrowPlan} (hlisted : c.listed? market = some listing)
    (hmember : c.isMember account market = true)
    (hplan : listing.state.planBorrow account amount now = .ok plan) :
    (borrow account market amount now prices).ComesTo
      (.borrow market account amount none prices) c := by
  have hrest : (settleBorrow account market plan none).runOn c =
      (.ok (listing.state.settleBorrow plan).2,
        c.setState market listing (listing.state.settleBorrow plan).1) := by
    simp [settleBorrow, runOn_onMarket_of_listed hlisted]
  refine ⟨_, _, _, runOn_planOn_bind_eq_ok.mpr ⟨listing, plan, hlisted, hplan, ?_⟩, hrest⟩
  rw [runOn_get_bind, hmember]
  rfl

/-- Who is no member comes to the gate with what entering registers. -/
theorem borrow_comesTo_of_register {plan : BorrowPlan} {state : Market} {registered : List Event}
    (hlisted : c.listed? market = some listing) (hmember : c.isMember account market = false)
    (hregister : listing.state.perform (.register account) = .ok (state, registered))
    (hplan : listing.state.planBorrow account amount now = .ok plan) :
    (borrow account market amount now prices).ComesTo
      (.borrow market account amount (some (state.collateralTokens account)) prices) c := by
  obtain ⟨entered, c₁, henter, henters⟩ := Enters.of_register hlisted hmember hregister
  refine ⟨settleBorrow account market plan (some (state.collateralTokens account)), _, _,
    runOn_planOn_bind_eq_ok.mpr ⟨listing, plan, hlisted, hplan, ?_⟩,
    (runOn_bind_of_ok henter _).trans
      (runOn_bind_of_ok (runOn_onMarket_of_listed henters.listed?_after) _)⟩
  rw [runOn_get_bind, hmember]
  exact runOn_bind_of_ok (runOn_map_eq_ok.mpr ⟨_, henters.collateralOnEntry_eq, rfl⟩) _

theorem leaveMarket_comesTo {plan : Option (CollateralPlan × Amount)}
    (hlisted : c.listed? market = some listing) (hmember : c.isMember account market = true)
    (hdebt : listing.state.hasDebt account = false)
    (hplan : listing.state.planUnregister account = .ok plan) :
    (leaveMarket account market prices).ComesTo
      (.redeem market account (listing.state.collateralTokens account) prices) c := by
  have hrest : ∃ events c', (settleLeaving account market listing).runOn c = (.ok events, c') := by
    rw [settleLeaving, runOn_liftM_bind_of_ok (within_eq_ok.mpr hplan)]
    cases plan with
    | none => exact ⟨_, _, rfl⟩
    | some plan => exact ⟨_, _, runOn_bind_of_ok (runOn_onMarket_of_listed hlisted) _⟩
  obtain ⟨events, c', hrest⟩ := hrest
  refine ⟨settleLeaving account market listing, events, c', ?_, hrest⟩
  rw [approach, runOn_get_bind, runOn_liftM_bind_of_ok (listed_eq_ok.mpr hlisted), hmember, hdebt]
  rfl

/-- Who is no member comes to no gate. -/
theorem approach_leaveMarket_of_not_member (hlisted : c.listed? market = some listing)
    (hmember : c.isMember account market = false) :
    (leaveMarket account market prices).approach.runOn c = (.ok none, c) := by
  rw [approach, runOn_get_bind, runOn_liftM_bind_of_ok (listed_eq_ok.mpr hlisted), hmember]
  rfl

end Dealing

end MoneyMarket
