import MoneyMarket.Proofs.Controller.Steps
import MoneyMarket.Proofs.Controller.Valuation
import MoneyMarket.Proofs.Market.Debts

/-! # Memberships and debts agree

Accounts are members of listed markets only, of each of them once, and who owes
in a listed market is a member of it. Entering, leaving, borrowing and the
listing of markets all write memberships, debts or listings, and none of them
breaks this.
-/

namespace MoneyMarket

open Controller Market

variable {c c' : Controller} {account : AccountId} {market other : MarketId} {listing : Listing}

namespace Controller

/-- What memberships have to do with debts and listings. -/
structure Enrolled (c : Controller) : Prop where
  noBlanks : c.memberships.NoBlanks
  nodup : ∀ account, (c.marketsOf account).Nodup
  listed : ∀ account market, c.isMember account market = true → c.isListed market = true
  /-- Who owes in a listed market is a member of it. -/
  debtors : ∀ account market listing, c.listed? market = some listing →
    listing.state.hasDebt account = true → c.isMember account market = true

theorem listed?_setListing (c : Controller) (market other : MarketId) (listing : Listing) :
    (c.setListing market listing).listed? other =
      if market = other then if listing.policy.isListed then some listing else none
      else c.listed? other := by
  unfold listed? setListing
  rw [Registry.get?_insert]
  split
  · simp only [Option.filter_some]
  · rfl

theorem isListed_of_listed? (hlisted : c.listed? market = some listing) :
    c.isListed market = true := by
  rw [isListed, hlisted]
  rfl

/-- The markets that bear on an account are known. -/
theorem Enrolled.known_of_mem_exposure (hc : c.Enrolled) (hmarket : market ∈ c.exposure account) :
    market ∈ c.known := by
  rw [mem_known]
  rcases mem_exposure.mp hmarket with hmember | ⟨listing, hget, -⟩
  · obtain ⟨listing, hlisted⟩ := Option.isSome_iff_exists.mp (hc.listed account market hmember)
    exact ⟨listing, (listed?_eq_some.mp hlisted).1⟩
  · exact ⟨listing, hget⟩

theorem Enrolled.of_eq (hc : c.Enrolled) (hmarkets : c'.markets = c.markets)
    (hmemberships : c'.memberships = c.memberships) : c'.Enrolled := by
  have hlisted : c'.listed? = c.listed? := by
    funext market
    unfold listed?
    rw [hmarkets]
  have hmarketsOf : c'.marketsOf = c.marketsOf := by
    funext account
    unfold marketsOf
    rw [hmemberships]
  constructor
  · rw [hmemberships]
    exact hc.noBlanks
  · rw [hmarketsOf]
    exact hc.nodup
  · unfold isMember isListed
    rw [hmarketsOf, hlisted]
    exact hc.listed
  · unfold isMember
    rw [hmarketsOf, hlisted]
    exact hc.debtors

/-- A market may change, or be listed, if its debtors are members. -/
theorem Enrolled.setListing (hc : c.Enrolled) (hlisted : listing.policy.isListed = true)
    (hdebtors : ∀ account, listing.state.hasDebt account = true →
      c.isMember account market = true) : (c.setListing market listing).Enrolled where
  noBlanks := hc.noBlanks
  nodup := hc.nodup
  listed := by
    intro account other hmember
    rw [isListed, listed?_setListing]
    split
    · rfl
    · exact hc.listed account other hmember
  debtors := by
    intro account other found hfound hdebt
    rw [listed?_setListing] at hfound
    split at hfound
    next heq =>
      cases hfound
      exact heq ▸ hdebtors account hdebt
    next => exact hc.debtors account other found hfound hdebt

theorem Enrolled.enter (hc : c.Enrolled) (hlisted : c.isListed market = true)
    (hmember : c.isMember account market = false) :
    (c.setMemberships (c.memberships.enter account market)).Enrolled where
  noBlanks := hc.noBlanks.enter account market
  nodup := by
    intro other
    change ((c.memberships.enter account market).of other).Nodup
    rw [Memberships.of_enter]
    split
    · rw [← List.concat_eq_append]
      refine List.Nodup.concat ?_ (hc.nodup account)
      rw [← isMember_iff, hmember]
      exact Bool.false_ne_true
    · exact hc.nodup other
  listed := by
    intro other market' hmember'
    rcases isMember_enter.mp hmember' with hbefore | ⟨-, rfl⟩
    · exact hc.listed other market' hbefore
    · exact hlisted
  debtors := by
    intro other market' listing hlisting hdebt
    exact isMember_enter.mpr (.inl (hc.debtors other market' listing hlisting hdebt))

theorem Enrolled.leave (hc : c.Enrolled) (hlisted : c.listed? market = some listing)
    (hdebt : listing.state.hasDebt account = false) :
    (c.setMemberships (c.memberships.leave account market)).Enrolled where
  noBlanks := hc.noBlanks.leave account market
  nodup := by
    intro other
    change ((c.memberships.leave account market).of other).Nodup
    rw [Memberships.of_leave]
    split
    · exact (hc.nodup account).filter _
    · exact hc.nodup other
  listed := by
    intro other market' hmember
    exact hc.listed other market' (isMember_leave.mp hmember).1
  debtors := by
    intro other market' found hfound hdebt'
    refine isMember_leave.mpr ⟨hc.debtors other market' found hfound hdebt', ?_⟩
    rintro ⟨rfl, rfl⟩
    cases hlisted.symm.trans hfound
    exact Bool.false_ne_true (hdebt.symm.trans hdebt')

/-- All members of a market that is delisted are members no longer. -/
theorem Enrolled.delist (hc : c.Enrolled) (hlisted : listing.policy.isListed = false) :
    ((c.setListing market listing).setMemberships (c.memberships.close market)).Enrolled where
  noBlanks := Memberships.noBlanks_close c.memberships market
  nodup := by
    intro account
    change ((c.memberships.close market).of account).Nodup
    rw [Memberships.of_close]
    exact (hc.nodup account).filter _
  listed := by
    intro account other hmember
    obtain ⟨hbefore, hne⟩ := isMember_close.mp hmember
    change (c.setListing market listing).isListed other = true
    rw [isListed, listed?_setListing, if_neg hne]
    exact hc.listed account other hbefore
  debtors := by
    intro account other found hfound hdebt
    change (c.setListing market listing).listed? other = some found at hfound
    rw [listed?_setListing] at hfound
    split at hfound
    · simp [hlisted] at hfound
    next hne => exact isMember_close.mpr ⟨hc.debtors account other found hfound hdebt, hne⟩

end Controller

/-- Nobody is a debtor in a market that has just been set up. -/
theorem Market.Created.hasDebt_eq_false {m : Market} (hm : m.Created) (account : AccountId) :
    m.hasDebt account = false := by
  unfold hasDebt debt
  rw [hm.isNew.debts]
  rfl

/-- No step breaks the agreement. -/
theorem Controller.Call.preserves_enrolled (call : Call) : call.Preserves Enrolled := by
  intro c c' hc hstep
  cases hstep with
  | @performed market dealt _ hperforms hmakes =>
      obtain ⟨listing, state, events, hlisted, hperform, rfl⟩ := hperforms
      refine hc.setListing (listed?_eq_some.mp hlisted).2 ?_
      intro account hdebt
      rcases (change_of_perform hperform).hasDebt_or_borrows hdebt with
        hbefore | ⟨amount, now, rfl⟩
      · exact hc.debtors account market listing hlisted hbefore
      · exact hmakes.1
  | entered hlisted hmember => exact hc.enter (isListed_of_listed? hlisted) hmember
  | left hlisted hdebt => exact hc.leave hlisted hdebt
  | @listed m hm =>
      refine hc.setListing rfl ?_
      intro account hdebt
      cases hdebt.symm.trans (hm.hasDebt_eq_false account)
  | delisted => exact hc.delist rfl
  | @policySet market listing policy hlisted hsets =>
      refine hc.setListing ?_ ?_
      · exact hsets.isListed_eq.trans (listed?_eq_some.mp hlisted).2
      · intro account hdebt
        exact hc.debtors account market listing hlisted hdebt
  | termsSet hsets => exact hc.of_eq hsets.markets_eq hsets.memberships_eq

theorem Controller.enrolled_of_make {admin : AccountId} {settings : ControllerSettings}
    (hmake : make admin settings = .ok c) : c.Enrolled := by
  simp only [make, bind_eq_ok, pure_eq_ok] at hmake
  obtain ⟨-, -, closeFactor, -, incentive, -, maximum, -, rfl⟩ := hmake
  constructor
  · rintro account ⟨⟩
  · exact fun _ => List.nodup_nil
  · rintro account market ⟨⟩
  · rintro account market listing ⟨⟩

theorem Controller.Reachable.enrolled (hc : c.Reachable) : c.Enrolled :=
  hc.invariant (fun _ _ _ => enrolled_of_make) Call.preserves_enrolled

end MoneyMarket
