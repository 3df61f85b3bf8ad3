import MoneyMarket.Proofs.Controller.Soundness
import MoneyMarket.Proofs.Market.Debts

/-! # Debts in a controller

Only repayments and liquidations lower a debt, as long as the market keeps its
record. A market that is delisted keeps it, with the debts in it, but a market
that is listed under the same name takes its place: then nothing is owed there.
Delisting takes that there are no tokens, not that nothing is owed, and a
market without tokens can have lent its reserves.
-/

namespace MoneyMarket

open Controller Market

variable {c c' : Controller} {market : MarketId} {account : AccountId} {least : Nat}

namespace Controller

/-- An account owes at least an amount in the market under a name. -/
def Owes (market : MarketId) (account : AccountId) (least : Nat) (c : Controller) : Prop :=
  ∃ listing, c.markets.get? market = some listing ∧ listing.state.Reachable ∧
    least ≤ listing.state.debtOf account

/-- Changes of other markets do not matter. -/
theorem Owes.setListing {other : MarketId} {listing : Listing} (hc : c.Owes market account least)
    (hsame : other = market → listing.state.Reachable ∧ least ≤ listing.state.debtOf account) :
    (c.setListing other listing).Owes market account least := by
  unfold Owes Controller.setListing
  by_cases heq : other = market
  · rw [Registry.get?_insert, if_pos heq]
    exact ⟨listing, rfl, hsame heq⟩
  · rw [Registry.get?_insert_of_ne _ _ heq]
    exact hc

/-- The market keeps what is owed in it where another policy is set. -/
theorem Owes.setPolicy {other : MarketId} {listing : Listing} {policy : MarketPolicy}
    (hc : c.Owes market account least) (hlisted : c.listed? other = some listing) :
    (c.setListing other { listing with policy }).Owes market account least := by
  refine hc.setListing ?_
  rintro rfl
  obtain ⟨found, hfound, howes⟩ := hc
  cases hfound.symm.trans (listed?_eq_some.mp hlisted).1
  exact howes

end Controller

/-- No step of a call lowers a debt, unless the call repays it or lists another
market under the name. -/
theorem Controller.Call.preserves_owes {call : Call} (hrepays : call.repays = false)
    (hlists : ∀ caller m hm, call = .listMarket caller m hm → m.id ≠ market) :
    call.Preserves (Owes market account least) := by
  intro c c' hc hstep
  cases hstep with
  | performed hperforms hmakes =>
      obtain ⟨listing, state, events, hlisted, hperform, rfl⟩ := hperforms
      refine hc.setListing ?_
      rintro rfl
      obtain ⟨found, hfound, hreachable, hleast⟩ := hc
      cases hfound.symm.trans (listed?_eq_some.mp hlisted).1
      refine ⟨.performed hreachable hperform, hleast.trans ?_⟩
      apply (change_of_perform hperform).le_debtOf hreachable.borrowIndex_pos
      rintro payer borrower amount now rfl
      cases hrepays.symm.trans hmakes
  | entered | left => exact hc
  | listed hcall =>
      refine hc.setListing ?_
      intro heq
      exact absurd heq (hlists _ _ _ hcall)
  | delisted _ hlisted => exact hc.setPolicy hlisted
  | policySet hlisted => exact hc.setPolicy hlisted
  | termsSet hsets =>
      unfold Owes
      rw [hsets.markets_eq]
      exact hc

/-- Nobody owes anything in a market that has just been set up. -/
theorem Market.Created.owed_eq {m : Market} (hm : m.Created) (account : AccountId) :
    m.owed account = .ok 0 := by
  unfold owed debt
  rw [hm.isNew.debts]
  rfl

/-- A call that neither repays nor liquidates leaves no debt lower, in any
market that the controller knows, unless it lists a new market in the place of
one that was delisted. Nothing is owed there then, whatever was owed before. -/
theorem Controller.Reachable.debt_kept_or_replaced {call : Call} {m : Market} {owed : Amount}
    (hc : c.Reachable) (hrepays : call.repays = false) (hm : c.market? market = some m)
    (howed : m.owed account = .ok owed) :
    ∃ m', (c.after call).market? market = some m' ∧ ∀ owed', m'.owed account = .ok owed' →
      owed ≤ owed' ∨ owed' = 0 ∧ c.isListed market = false ∧ m'.id = market ∧
        ∃ hm' : m'.Created, call = .listMarket c.admin m' hm' := by
  obtain ⟨listing, hlisting, rfl⟩ := Option.map_eq_some_iff.mp hm
  by_cases hlists : ∀ caller m hm, call = .listMarket caller m hm → m.id ≠ market
  · have howes : c.Owes market account owed.toNat :=
      ⟨listing, hlisting, hc.sound market listing hlisting, (owed_eq_ok howed).le⟩
    obtain ⟨found, hfound, -, hleast⟩ := (Call.preserves_owes hrepays hlists).keeps c howes
    refine ⟨found.state, congrArg (Option.map Listing.state) hfound, ?_⟩
    intro owed' howed'
    exact .inl (hleast.trans (owed_eq_ok howed').ge)
  · push Not at hlists
    obtain ⟨caller, m', hm', rfl, rfl⟩ := hlists
    cases hrun : (Call.listMarket caller m' hm').operation.runOn c with
    | mk result c' =>
        have hafter : c.after (.listMarket caller m' hm') = c' := congrArg Prod.snd hrun
        rw [hafter]
        cases result with
        | error e =>
            -- the listing failed, and everything is as it was
            rw [Operation.atomic_listMarket.silently _ _ _ hrun]
            refine ⟨listing.state, hm, ?_⟩
            intro owed' howed'
            cases howed.symm.trans howed'
            exact .inl (Nat.le_refl _)
        | ok u =>
            obtain ⟨event, hlist⟩ := Operation.runOn_silently_eq_ok.mp hrun
            obtain ⟨rfl, hunlisted, rfl⟩ := Operation.listMarket_eq_ok hlist
            refine ⟨m', congrArg (Option.map Listing.state) (Registry.get?_insert_self ..), ?_⟩
            intro owed' howed'
            cases (hm'.owed_eq account).symm.trans howed'
            exact .inr ⟨rfl, hunlisted, rfl, hm', rfl⟩

namespace Controller

/-- A second new market, for collateral. -/
def collateralMarket : Market := { sampleMarket with id := ⟨"jETH"⟩ }

theorem collateralMarket_created : collateralMarket.Created := by
  have hmake : Market.make ⟨"jETH"⟩ .collateralCap Market.sample.rateModel 1 0 =
      .ok collateralMarket := by rfl
  exact .make hmake

/-- The underlying of both markets at a price of one. -/
def bothPrices : Prices := samplePrices.insert ⟨⟨"jETH"⟩, 1, .ofSeconds 0, "feed"⟩

/-- A market without suppliers that has lent half of its reserves. -/
def lentSample : Controller :=
  [.listMarket ⟨"admin"⟩ sampleMarket sampleMarket_created,
    .listMarket ⟨"admin"⟩ collateralMarket collateralMarket_created,
    .setCollateralFactor ⟨"admin"⟩ ⟨"jETH"⟩ ⟨.ofUInt64 800_000_000_000_000_000⟩
      bothPrices,
    .deal (.addReserves ⟨"alice"⟩ ⟨"jUSD"⟩ (.ofUInt64 100) 0),
    .deal (.mint ⟨"bob"⟩ ⟨"jETH"⟩ (.ofUInt64 100) 0),
    .deal (.enterMarket ⟨"bob"⟩ ⟨"jETH"⟩),
    .deal (.borrow ⟨"bob"⟩ ⟨"jUSD"⟩ (.ofUInt64 50) 0 bothPrices)].foldl after
      sampleMade

theorem lentSample_reachable : lentSample.Reachable := (Reachable.made make_sampleMade).foldl _

/-- The market is delisted, as it has no tokens, and the debt in it stays. -/
def delistJUSD : Call := .delistMarket ⟨"admin"⟩ ⟨"jUSD"⟩

/-- The market is listed anew. -/
def relistJUSD : Call := .listMarket ⟨"admin"⟩ sampleMarket sampleMarket_created

theorem lentSample_debt_kept : ∃ m m', lentSample.market? ⟨"jUSD"⟩ = some m ∧
    m.owed ⟨"bob"⟩ = .ok ⟨50, by decide⟩ ∧
    (delistJUSD.operation.runOn lentSample).1 = .ok () ∧
    (lentSample.after delistJUSD).market? ⟨"jUSD"⟩ = some m' ∧
    ∀ owed', m'.owed ⟨"bob"⟩ = .ok owed' → ⟨50, by decide⟩ ≤ owed' := by
  have howed : (lentSample.market? ⟨"jUSD"⟩).map (fun m => m.owed ⟨"bob"⟩) =
      some (.ok ⟨50, by decide⟩) := by decide +kernel
  obtain ⟨m, hm, howed⟩ := Option.map_eq_some_iff.mp howed
  obtain ⟨m', hm', hkept⟩ := lentSample_reachable.debt_kept_or_replaced
    (rfl : delistJUSD.repays = false) hm howed
  refine ⟨m, m', hm, howed, by decide +kernel, hm', ?_⟩
  intro owed' howed'
  rcases hkept owed' howed' with hle | ⟨-, -, -, _, hcall⟩
  · exact hle
  · cases hcall

/-- Listing a market in the place of one that was delisted forgives the debts
in it. -/
theorem relisting_forgives_debts :
    (lentSample.after delistJUSD).Reachable ∧ relistJUSD.repays = false ∧
      (relistJUSD.operation.runOn (lentSample.after delistJUSD)).1 = .ok () ∧
      ((lentSample.after delistJUSD).market? ⟨"jUSD"⟩).map (fun m => m.owed ⟨"bob"⟩) =
        some (.ok ⟨50, by decide⟩) ∧
      (((lentSample.after delistJUSD).after relistJUSD).market? ⟨"jUSD"⟩).map
        (fun m => m.owed ⟨"bob"⟩) = some (.ok 0) := by
  refine ⟨.called _ lentSample_reachable, rfl, ?_, ?_, ?_⟩
  all_goals decide +kernel

end Controller

end MoneyMarket
