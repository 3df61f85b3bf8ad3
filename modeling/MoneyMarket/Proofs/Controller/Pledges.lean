import MoneyMarket.Proofs.Controller.Debts
import MoneyMarket.Proofs.Controller.Enrolment

/-! # Pledged collateral

An account pledges its tokens in a market by entering it. Where collateral is
registered, only members register tokens, and who leaves takes them out of the
registration. The one way to registered tokens without membership is to take
them in a liquidation. So what a liquidation takes from a borrower was pledged,
unless the borrower has taken it like this itself, or the market registers no
collateral: from there a liquidation takes the tokens of anyone.
-/

namespace MoneyMarket

open Controller

variable {c c' : Controller} {account : AccountId} {market other : MarketId} {listing : Listing}

namespace Controller

/-- Tokens that an account has registered in a market are pledged. -/
def Pledged (c : Controller) (account : AccountId) (market : MarketId) : Prop :=
  ∀ listing, c.listed? market = some listing → listing.state.registersCollateral = true →
    listing.state.collateralTokens account ≠ 0 → c.isMember account market = true

/-! ## Steps -/

theorem Pledged.setListing (hc : c.Pledged account market)
    (hlisting : other = market → listing.state.registersCollateral = true →
      listing.state.collateralTokens account ≠ 0 → c.isMember account market = true) :
    (c.setListing other listing).Pledged account market := by
  intro found hfound
  rw [listed?_setListing] at hfound
  split at hfound
  next heq =>
    split at hfound
    · cases hfound
      exact hlisting heq
    · cases hfound
  next => exact hc found hfound

/-- Tokens stay pledged if those for which they are registered are members. -/
theorem Pledged.performs {dealt : Market.Call} (hc : c.Pledged account market)
    (hperforms : c.Performs other dealt c')
    (hmember : other = market → dealt.Registers account → c.isMember account market = true) :
    c'.Pledged account market := by
  obtain ⟨listing, state, events, hlisted, hperform, rfl⟩ := hperforms
  have hchange := Market.change_of_perform hperform
  apply hc.setListing
  rintro rfl hregisters hheld
  rw [hchange.registersCollateral_eq] at hregisters
  by_cases hcall : dealt.Registers account
  · exact hmember rfl hcall
  · apply hc listing hlisted hregisters
    intro hnone
    exact hheld (Amount.eq_zero_of_le (hchange.registered_le hregisters hcall) hnone)

/-- What a call registers, it registers for members and liquidators. -/
theorem Call.Makes.isMember_or_liquidates {call : Call} {dealt : Market.Call}
    (hmakes : call.Makes c market dealt) (hregisters : dealt.Registers account) :
    c.isMember account market = true ∨ call.Liquidates account market := by
  cases dealt with
  | mint =>
      obtain ⟨rfl, rfl⟩ := hregisters
      exact .inl hmakes.1.symm
  | transfer =>
      obtain ⟨rfl, rfl⟩ := hregisters
      exact .inl hmakes.symm
  | register =>
      cases hregisters
      exact .inl hmakes
  | seize =>
      cases hregisters
      exact .inr hmakes
  | _ => cases hregisters

/-- No call but a liquidation ends up with tokens that are not pledged. -/
theorem Call.preserves_pledged {call : Call} (hcall : ¬call.Liquidates account market) :
    call.Preserves fun c => c.Pledged account market := by
  intro c c' hc hstep
  cases hstep with
  | performed hperforms hmakes =>
      apply hc.performs hperforms
      rintro rfl hregisters
      exact (hmakes.isMember_or_liquidates hregisters).resolve_right hcall
  | entered =>
      intro listing hlisted hregisters hheld
      exact isMember_enter.mpr (.inl (hc listing hlisted hregisters hheld))
  | left hlisted _ hregistered =>
      intro listing hlisted' hregisters hheld
      refine isMember_leave.mpr ⟨hc listing hlisted' hregisters hheld, ?_⟩
      -- who leaves has nothing registered
      rintro ⟨rfl, rfl⟩
      cases hlisted.symm.trans hlisted'
      exact hheld (hregistered hregisters)
  | @listed m hm =>
      apply hc.setListing
      rintro rfl hregisters hheld
      obtain ⟨ledger, hledger⟩ := Market.registersCollateral_eq_true.mp hregisters
      rw [Market.collateralTokens_of_ledger?_eq_some hledger, CollateralLedger.tokensOf,
        (hm.isNew.ledger ledger hledger).2] at hheld
      exact absurd rfl hheld
  | @delisted closed =>
      intro found hfound hregisters hheld
      change (c.setListing closed _).listed? market = some found at hfound
      rw [listed?_setListing] at hfound
      split at hfound
      · cases hfound
      next hne => exact isMember_close.mpr ⟨hc found hfound hregisters hheld, hne⟩
  | @policySet _ listing _ hlisted =>
      apply hc.setListing
      rintro rfl
      exact hc listing hlisted
  | termsSet hsets =>
      unfold Pledged listed? isMember marketsOf
      rw [hsets.markets_eq, hsets.memberships_eq]
      exact hc

/-! ## Runs -/

/-- A liquidation that fails changes nothing. -/
theorem Pledged.called (hc : c.Pledged account market) (call : Call) :
    (c.after call).Pledged account market ∨
      call.Liquidates account market ∧ (call.operation.runOn c).1 = .ok () := by
  by_cases hcall : call.Liquidates account market
  · cases hrun : call.operation.runOn c with
    | mk result c' =>
        have hafter : c.after call = c' := congrArg Prod.snd hrun
        rw [hafter]
        cases result with
        | error e =>
            obtain ⟨borrower, marketBorrowed, amount, now, prices, rfl⟩ := hcall
            rw [Operation.atomic_liquidate.silently _ _ _ hrun]
            exact .inl hc
        | ok => exact .inr ⟨hcall, rfl⟩
  · exact .inl ((Call.preserves_pledged hcall).keeps c hc)

/-- In a run, an account has liquidated for tokens of a market, and it has not
been a member since. -/
def TookUnpledged (c : Controller) (calls : List Call) (account : AccountId)
    (market : MarketId) : Prop :=
  ∃ before call later, calls = before ++ call :: later ∧ call.Liquidates account market ∧
    (call.operation.runOn (before.foldl after c)).1 = .ok () ∧
    ∀ rest, rest <+: later →
      ((before ++ call :: rest).foldl after c).isMember account market = false

theorem TookUnpledged.concat {calls : List Call} (htook : c.TookUnpledged calls account market)
    {call : Call}
    (hmember : ((calls ++ [call]).foldl after c).isMember account market = false) :
    c.TookUnpledged (calls ++ [call]) account market := by
  obtain ⟨before, taking, later, rfl, hliquidates, hok, hsince⟩ := htook
  refine ⟨before, taking, later ++ [call], List.append_assoc .., hliquidates, hok, ?_⟩
  intro rest hrest
  rcases List.prefix_concat_iff.mp hrest with rfl | hrest
  · rwa [List.append_assoc] at hmember
  · exact hsince rest hrest

/-- Where tokens are pledged at first, only such a liquidation changes that. -/
theorem Pledged.foldl (hc : c.Pledged account market) (calls : List Call) :
    (calls.foldl after c).Pledged account market ∨ c.TookUnpledged calls account market := by
  induction calls using List.reverseRecOn with
  | nil => exact .inl hc
  | append_singleton calls call ih =>
      cases hmember : ((calls ++ [call]).foldl after c).isMember account market with
      | true => exact .inl fun _ _ _ _ => hmember
      | false =>
          rcases ih with hpledged | htook
          · rcases hpledged.called call with hkept | ⟨hliquidates, hok⟩
            · rw [List.foldl_concat]
              exact .inl hkept
            · refine .inr ⟨calls, call, [], rfl, hliquidates, hok, ?_⟩
              intro rest hrest
              rwa [List.prefix_nil.mp hrest]
          · exact .inr (htook.concat hmember)

theorem pledged_of_make {admin : AccountId} {settings : ControllerSettings}
    (hmake : make admin settings = .ok c) : c.Pledged account market := by
  simp only [make, bind_eq_ok, pure_eq_ok] at hmake
  obtain ⟨-, -, closeFactor, -, incentive, -, maximum, -, rfl⟩ := hmake
  rintro listing ⟨⟩

end Controller

/-! ## Liquidations -/

/-- A repayment leaves what is registered. -/
theorem Controller.Performs.listed?_of_repay {payer borrower : AccountId} {amount : Amount}
    {now : UInt64} (hperforms : c.Performs other (.repay payer borrower amount now) c')
    (hlisted : c'.listed? market = some listing) :
    ∃ before, c.listed? market = some before ∧
      before.state.registersCollateral = listing.state.registersCollateral := by
  obtain ⟨before, state, events, hbefore, hperform, rfl⟩ := hperforms
  rw [listed?_setState _ hbefore] at hlisted
  split at hlisted
  next heq =>
    cases hlisted
    exact ⟨before, heq ▸ hbefore, (Market.change_of_perform hperform).registersCollateral_eq.symm⟩
  next => exact ⟨listing, hlisted, rfl⟩

/-- Whose tokens a liquidation takes is a member of their market; or the market
registers no collateral; or the borrower has taken its tokens itself in an
earlier liquidation, and has been no member since. -/
theorem Operation.liquidate_takes_pledged {made : Controller} {admin : AccountId}
    {settings : ControllerSettings} {calls : List Call} {liquidator borrower : AccountId}
    {marketBorrowed marketCollateral : MarketId} {repayAmount : Amount} {now : UInt64}
    {prices : Prices} {liquidation : Liquidation} (hmake : make admin settings = .ok made)
    (hliquidate : (liquidate liquidator borrower marketBorrowed marketCollateral repayAmount now
      prices).runOn (calls.foldl after made) = (.ok liquidation, c'))
    (htaken : liquidation.seizeTokens ≠ 0) :
    (calls.foldl after made).isMember borrower marketCollateral = true ∨
      (∃ listing, (calls.foldl after made).listed? marketCollateral = some listing ∧
        listing.state.registersCollateral = false) ∨
      made.TookUnpledged calls borrower marketCollateral := by
  obtain ⟨c₁, hrepay, collateral, state, events, hcollateral, hseize, -⟩ :=
    performs_of_liquidate hliquidate
  obtain ⟨before, hbefore, hregisters⟩ := hrepay.listed?_of_repay hcollateral
  have hmade : made.Pledged borrower marketCollateral := pledged_of_make hmake
  rcases hmade.foldl calls with hpledged | htook
  · by_cases hyes : before.state.registersCollateral = true
    · left
      have hpledged₁ := hpledged.performs hrepay fun _ => False.elim
      have hheld : collateral.state.collateralTokens borrower ≠ 0 := by
        intro hnone
        exact htaken (Amount.eq_zero_of_le (Market.le_collateralTokens_of_seize hseize) hnone)
      have hmember := hpledged₁ collateral hcollateral (hregisters ▸ hyes) hheld
      -- the repayment has left the memberships
      obtain ⟨borrowed, repaid, _, -, -, rfl⟩ := hrepay
      exact hmember
    · exact .inr (.inl ⟨before, hbefore, Bool.eq_false_of_not_eq_true hyes⟩)
  · exact .inr (.inr htook)

namespace Controller

/-- A second new market that registers no collateral. -/
def vanillaMarket : Market := { collateralMarket with kind := .vanilla }

theorem vanillaMarket_created : vanillaMarket.Created := by
  have hmake : Market.make ⟨"jETH"⟩ .vanilla Market.sample.rateModel 1 0 = .ok vanillaMarket := by
    rfl
  exact .make hmake

/-- A borrower lacks something once its collateral counts for less. It also
holds tokens of a market that it has not entered. -/
def unpledgedCalls : List Call :=
  [.listMarket ⟨"admin"⟩ sampleMarket sampleMarket_created,
    .setCollateralFactor ⟨"admin"⟩ ⟨"jUSD"⟩ ⟨.ofUInt64 800_000_000_000_000_000⟩ bothPrices,
    .deal (.mint ⟨"bob"⟩ ⟨"jUSD"⟩ (.ofUInt64 1_000_000_000) 0),
    .deal (.mint ⟨"alice"⟩ ⟨"jUSD"⟩ (.ofUInt64 10) 0),
    .deal (.enterMarket ⟨"alice"⟩ ⟨"jUSD"⟩),
    .deal (.borrow ⟨"alice"⟩ ⟨"jUSD"⟩ (.ofUInt64 8) 0 bothPrices),
    .setCollateralFactor ⟨"admin"⟩ ⟨"jUSD"⟩ ⟨.ofUInt64 500_000_000_000_000_000⟩ bothPrices,
    .listMarket ⟨"admin"⟩ vanillaMarket vanillaMarket_created,
    .deal (.mint ⟨"alice"⟩ ⟨"jETH"⟩ (.ofUInt64 10) 0)]

def unpledgedSample : Controller := unpledgedCalls.foldl after sampleMade

/-- Half of the debt is repaid for tokens of some market. -/
def unpledgedSeizure (marketCollateral : MarketId) : Operation Liquidation :=
  Operation.liquidate ⟨"bob"⟩ ⟨"alice"⟩ ⟨"jUSD"⟩ marketCollateral ⟨4, by decide⟩ 0 bothPrices

/-- The tokens of the market with the debt are pledged. -/
theorem unpledgedSample_takes_pledged :
    (((unpledgedSeizure ⟨"jUSD"⟩).runOn unpledgedSample).1.map Liquidation.seizeTokens =
      .ok ⟨4, by decide⟩) ∧ unpledgedSample.isMember ⟨"alice"⟩ ⟨"jUSD"⟩ = true := by
  have hseized : ((unpledgedSeizure ⟨"jUSD"⟩).runOn unpledgedSample).1.map
      Liquidation.seizeTokens = .ok ⟨4, by decide⟩ := by decide +kernel
  have hregisters : (unpledgedSample.listed? ⟨"jUSD"⟩).map
      (fun listing => listing.state.registersCollateral) = some true := by decide +kernel
  refine ⟨hseized, ?_⟩
  cases hrun : (unpledgedSeizure ⟨"jUSD"⟩).runOn unpledgedSample with
  | mk result c' =>
      rw [hrun] at hseized
      cases result with
      | error e => cases hseized
      | ok liquidation =>
          have htaken : liquidation.seizeTokens ≠ 0 := by
            rw [Except.ok.inj hseized]
            decide
          rcases Operation.liquidate_takes_pledged make_sampleMade hrun htaken with
            hmember | ⟨listing, hlisted, hno⟩ | ⟨_, _, _, hcalls, ⟨_, _, _, _, _, rfl⟩, -⟩
          · exact hmember
          · change unpledgedSample.listed? ⟨"jUSD"⟩ = some listing at hlisted
            simp [hlisted, hno] at hregisters
          · -- nobody has liquidated before
            have hmem := hcalls ▸ List.mem_append_right _ List.mem_cons_self
            simp [unpledgedCalls] at hmem

/-- The tokens of a market that the borrower has not entered are taken like
the others. -/
theorem unpledged_tokens_taken : unpledgedSample.Reachable ∧
    unpledgedSample.isMember ⟨"alice"⟩ ⟨"jETH"⟩ = false ∧
    ((unpledgedSeizure ⟨"jETH"⟩).runOn unpledgedSample).1.map Liquidation.seizeTokens =
      .ok ⟨4, by decide⟩ := by
  refine ⟨(Reachable.made make_sampleMade).foldl unpledgedCalls, ?_, ?_⟩
  all_goals decide +kernel

end Controller

end MoneyMarket
